import VertexPrograms.Proofs.Graph.Outline
import VertexPrograms.Proofs.Scope.Exclusion

/-!
# What an access comes to

Each accessor of a scope looks identifiers up, compares positions with the centre, searches tables
and looks at the level. What this comes to is told by the identifiers, the edges and the level
alone: which accesses succeed and with what, and with which error the others are refused. The order
of the checks shows only in the errors.
-/

namespace VertexPrograms

variable {V E : Type}

/-- A result succeeds with, and fails with, just what is said of it. -/
structure Decided {α : Type} (x : Except Error α) (ok : α → Prop)
    (error : Error → Prop) : Prop where
  ok : ∀ a, x = .ok a ↔ ok a
  error : ∀ e, x = .error e ↔ error e

namespace Decided

variable {α β : Type} {x : Except Error α} {ok : α → Prop} {error : Error → Prop}

/-- It is enough that what is said of it implies what it is, if something of it always holds. -/
theorem of_total (hok : ∀ a, ok a → x = .ok a) (herror : ∀ e, error e → x = .error e)
    (htotal : (∃ a, ok a) ∨ ∃ e, error e) : Decided x ok error := by
  constructor
  · refine fun a => ⟨fun hx => ?_, hok a⟩
    rcases htotal with ⟨b, hb⟩ | ⟨e, he⟩
    · exact Except.ok.inj ((hok b hb).symm.trans hx) ▸ hb
    · cases (herror e he).symm.trans hx
  · refine fun e => ⟨fun hx => ?_, herror e⟩
    rcases htotal with ⟨b, hb⟩ | ⟨e', he⟩
    · cases (hok b hb).symm.trans hx
    · exact Except.error.inj ((herror e' he).symm.trans hx) ▸ he

/-- A decision can be told by equivalent conditions. -/
theorem congr {ok' : α → Prop} {error' : Error → Prop} (h : Decided x ok error)
    (hok : ∀ a, ok a ↔ ok' a) (herror : ∀ e, error e ↔ error' e) : Decided x ok' error' :=
  ⟨fun a => (h.ok a).trans (hok a), fun e => (h.error e).trans (herror e)⟩

theorem ofOk (a : α) : Decided (.ok a) (a = ·) fun _ => False :=
  ⟨fun _ => ⟨Except.ok.inj, congrArg _⟩, fun _ => ⟨nofun, nofun⟩⟩

theorem ofError (e : Error) : Decided (.error e : Except Error α) (fun _ => False) (e = ·) :=
  ⟨fun _ => ⟨nofun, nofun⟩, fun _ => ⟨Except.error.inj, congrArg _⟩⟩

/-- What is checked after something else fails with the error of either. -/
theorem bind {f : α → Except Error β} {okAfter : α → β → Prop} {errorAfter : α → Error → Prop}
    (h : Decided x ok error) (hf : ∀ a, ok a → Decided (f a) (okAfter a) (errorAfter a)) :
    Decided (x.bind f) (fun b => ∃ a, ok a ∧ okAfter a b) fun e => error e ∨ ∃ a, ok a ∧
    errorAfter a e := by
  cases x with
  | ok a =>
    have ha : ∀ a', ok a' ↔ a = a' := fun a' => (h.ok a').symm.trans ⟨Except.ok.inj, congrArg _⟩
    have he : ∀ e, ¬error e := fun e he => nomatch (h.error e).mpr he
    refine (hf a ((ha a).mpr rfl)).congr (fun b => ?_) fun e => ?_
    · simp [ha]
    · simp [ha, he]
  | error e =>
    have ha : ∀ a, ¬ok a := fun a ha => nomatch (h.ok a).mpr ha
    refine (ofError e).congr (fun b => ?_) fun e' => ?_
    · simp [ha]
    · rw [← h.error]
      simp [ha]

/-- A check that succeeds with what it is given. -/
theorem ite {c : Prop} [Decidable c] (a : α) (e : Error) :
    Decided (if c then .ok a else .error e) (fun b => c ∧ a = b) fun e' => ¬c ∧ e = e' := by
  split
  · rename_i hc
    exact (ofOk a).congr (fun _ => by simp [hc]) fun _ => by simp [hc]
  · rename_i hc
    exact (ofError e).congr (fun _ => by simp [hc]) fun _ => by simp [hc]

/-- A check before something else. -/
theorem guard {c : Prop} [Decidable c] (h : Decided x ok error) (e : Error) :
    Decided (if c then .error e else x) (fun a => ¬c ∧ ok a) fun e' => c ∧ e = e' ∨
    ¬c ∧ error e' := by
  split
  · rename_i hc
    exact (ofError e).congr (fun _ => by simp [hc]) fun _ => by simp [hc]
  · rename_i hc
    exact h.congr (fun _ => by simp [hc]) fun _ => by simp [hc]

/-- What is done after something has been found does just what is done with what is said to be
found. -/
theorem perform {γ : Type} {c : γ} {found : α → Except Error β × γ} {r : Except Error β × γ}
    (hr : r = match x with | .error e => (.error e, c) | .ok a => found a) (h : Decided x ok error)
    (hfound : ∀ a, ok a → ∃ b c', found a = (.ok b, c')) :
    (∀ b c', r = (.ok b, c') ↔ ∃ a, ok a ∧ found a = (.ok b, c')) ∧ ∀ e c', r = (.error e, c') ↔
      error e ∧ c' = c := by
  subst hr
  cases x with
  | ok a =>
    have ha : ∀ a', ok a' ↔ a = a' := fun a' => (h.ok a').symm.trans ⟨Except.ok.inj, congrArg _⟩
    have he : ∀ e, ¬error e := fun e he => nomatch (h.error e).mpr he
    obtain ⟨b, c', hb⟩ := hfound a ((ha a).mpr rfl)
    exact ⟨fun b c' => by simp [ha], fun e c'' => by simp [he, hb]⟩
  | error e =>
    have ha : ∀ a, ¬ok a := fun a ha => nomatch (h.ok a).mpr ha
    refine ⟨fun b c' => by simp [ha], fun e' c' => ?_⟩
    rw [← h.error]
    simp [eq_comm]

end Decided

namespace Topology

variable {t : Topology} {id : VertexId}

/-- No vertex has the identifier. -/
def Unknown (t : Topology) (id : VertexId) : Prop := ∀ i : VertexIndex, t.ids[i]? ≠ some id

/-- An identifier is found exactly if it is known. -/
theorem Valid.decided_require (h : t.Valid) (id : VertexId) :
    Decided (t.require id) (fun i => t.ids[i]? = some id) fun e => t.Unknown id ∧
    e = .unknownVertex id := by
  refine .of_total (fun i hi => h.require_eq hi) ?_ ?_
  · rintro e ⟨hunknown, rfl⟩
    have hnone : t.indexOf? id = none := by
      cases hi : t.indexOf? id with
      | none => rfl
      | some i => exact absurd ((h.index id i).mp hi) (hunknown i)
    rw [require, hnone]
  · by_cases hknown : ∃ i : VertexIndex, t.ids[i]? = some id
    · exact .inl hknown
    · exact .inr ⟨_, not_exists.mp hknown, rfl⟩

/-- An edge is found exactly if there is one from the one vertex to the other. -/
theorem Valid.decided_edgeBetween (h : t.Valid) (i j : VertexIndex) (error : Error) :
    Decided (((t.edgeBetween? i j).map .ok).getD (.error error))
      (fun e => t.edges[e]? = some (i, j))
      fun e' => (∀ e : EdgeIndex, t.edges[e]? ≠ some (i, j)) ∧ error = e' := by
  have hedge (e : EdgeIndex) : t.edges[e]? = some (i, j) ↔ t.edgeBetween? i j = some e :=
    (h.edgeIndex (i, j) e).symm
  simp only [ne_eq, hedge]
  cases t.edgeBetween? i j with
  | some e => exact (Decided.ofOk e).congr (by simp) (by simp)
  | none => exact (Decided.ofError error).congr (by simp) (by simp)

end Topology

namespace Scope

variable {s : Scope} {id source target : VertexId} {i : VertexIndex} {e : EdgeIndex}

/-- Only the centre has its identifier. -/
theorem eq_vertex_iff (ht : s.topology.Valid) (hid : s.topology.ids[i]? = some id)
    (hcentre : s.centre < s.topology.vertexCount) : id = s.vertex ↔ i = s.centre := by
  have hown : s.topology.ids[s.centre]? = some s.vertex := by
    rw [vertex, Topology.idAt?, Array.getElem?_eq_getElem hcentre]
    rfl
  constructor
  · intro h
    exact Option.some.inj (((ht.index _ i).mpr (h ▸ hid)).symm.trans
      ((ht.index _ s.centre).mpr hown))
  · intro h
    exact Option.some.inj (hid.symm.trans (h ▸ hown))

/-! # Finding -/

/-- The vertex at the position has the identifier, and is the centre or joined to it by an edge. -/
def Near (s : Scope) (id : VertexId) (i : VertexIndex) : Prop :=
  s.topology.ids[i]? = some id ∧ (i = s.centre ∨ s.topology.Joins s.centre i)

/-- Why an identifier is not in scope: it is unknown, or that of a vertex that is not near. -/
def Beyond (s : Scope) (id : VertexId) (e : Error) : Prop :=
  s.topology.Unknown id ∧ e = .unknownVertex id ∨
    (∃ i : VertexIndex, s.topology.ids[i]? = some id ∧ i ≠ s.centre ∧
      ¬s.topology.Joins s.centre i) ∧ e = s.violation s!"vertex {id} is not adjacent"

/-- The vertex at the position has the identifier, is not the centre, and is joined to it by an
edge. -/
def Neighbour (s : Scope) (id : VertexId) (i : VertexIndex) : Prop :=
  s.topology.ids[i]? = some id ∧ i ≠ s.centre ∧ s.topology.Joins s.centre i

/-- Why an identifier is not that of a neighbour: it is not in scope, or that of the centre. -/
def NoNeighbour (s : Scope) (id : VertexId) (e : Error) : Prop :=
  s.Beyond id e ∨
    s.topology.ids[s.centre]? = some id ∧
    e = s.violation "use the centre accessors for the scope's own vertex"

/-- The edge leads from the one identifier to the other, and the centre is one of its ends. -/
def Incident (s : Scope) (source target : VertexId) (e : EdgeIndex) : Prop :=
  ∃ i j : VertexIndex, s.topology.ids[i]? = some source ∧ s.topology.ids[j]? = some target ∧
    (i = s.centre ∨ j = s.centre) ∧ s.topology.edges[e]? = some (i, j)

/-- Why two identifiers do not name an edge at the centre: the first of them is unknown, or else the
second; neither is that of the centre; or there is no such edge. -/
def NoEdge (s : Scope) (source target : VertexId) (e : Error) : Prop :=
  s.topology.Unknown source ∧ e = .unknownVertex source ∨
    ∃ i : VertexIndex, s.topology.ids[i]? = some source ∧
      (s.topology.Unknown target ∧ e = .unknownVertex target ∨
        ∃ j : VertexIndex, s.topology.ids[j]? = some target ∧
          (i ≠ s.centre ∧ j ≠ s.centre ∧
            e = s.violation s!"edge {source} -> {target} is not incident" ∨
            (i = s.centre ∨ j = s.centre) ∧ (∀ e : EdgeIndex, s.topology.edges[e]? ≠ some (i, j)) ∧
              e = .unknownEdge source target))

variable (ht : s.topology.Valid)
include ht

/-- A vertex is found exactly if it is in the scope. -/
theorem decided_find (id : VertexId) : Decided (s.find id) (s.Near id) (s.Beyond id) := by
  have hrequire := ht.decided_require id
  have hmem (i : VertexIndex) (hi : i ≠ s.centre) :
      i ∈ s.topology.adjacentOf s.centre ↔ s.topology.Joins s.centre i := by
    rw [ht.mem_adjacent]
    exact and_iff_right hi
  refine .of_total ?_ ?_ ?_
  · rintro i ⟨hi, hnear⟩
    rw [find, (hrequire.ok i).mpr hi]
    by_cases hc : i = s.centre
    · simp [hc]
    · simp [(hmem i hc).mpr (hnear.resolve_left hc)]
  · rintro e (hunknown | ⟨⟨i, hi, hc, hfar⟩, rfl⟩)
    · rw [find, (hrequire.error e).mpr hunknown]
    · rw [find, (hrequire.ok i).mpr hi]
      simp [hc, mt (hmem i hc).mp hfar]
  · by_cases hknown : ∃ i : VertexIndex, s.topology.ids[i]? = some id
    · obtain ⟨i, hi⟩ := hknown
      by_cases hnear : i = s.centre ∨ s.topology.Joins s.centre i
      · exact .inl ⟨i, hi, hnear⟩
      · obtain ⟨hc, hfar⟩ := not_or.mp hnear
        exact .inr ⟨_, .inr ⟨⟨i, hi, hc, hfar⟩, rfl⟩⟩
    · exact .inr ⟨_, .inl ⟨not_exists.mp hknown, rfl⟩⟩

/-- A neighbour is found exactly if it is one. -/
theorem decided_findNeighbour (id : VertexId) : Decided (s.findNeighbour id) (s.Neighbour id)
    (s.NoNeighbour id) := by
  have hfind : s.findNeighbour id = (s.find id).bind fun i =>
      if i = s.centre then
        .error (s.violation "use the centre accessors for the scope's own vertex") else .ok i := by
    rw [findNeighbour]
    cases s.find id <;> rfl
  rw [hfind]
  refine ((decided_find ht id).bind fun i _ => (Decided.ofOk i).guard _).congr (fun i => ?_)
    fun e => ?_
  · constructor
    · rintro ⟨i, ⟨hi, hnear⟩, hc, rfl⟩
      exact ⟨hi, hc, hnear.resolve_left hc⟩
    · rintro ⟨hi, hc, hjoins⟩
      exact ⟨i, ⟨hi, .inr hjoins⟩, hc, rfl⟩
  · refine or_congr_right ⟨?_, ?_⟩
    · rintro ⟨i, ⟨hi, -⟩, ⟨rfl, rfl⟩ | ⟨-, ⟨⟩⟩⟩
      exact ⟨hi, rfl⟩
    · rintro ⟨hi, rfl⟩
      exact ⟨s.centre, ⟨hi, .inl rfl⟩, .inl ⟨rfl, rfl⟩⟩

/-- A neighbour can be written exactly at full consistency. -/
theorem decided_findWritableNeighbour (id : VertexId) : Decided (s.findWritableNeighbour id)
    (fun i => s.Neighbour id i ∧ s.level = .full) fun e => s.NoNeighbour id e ∨
      (∃ i, s.Neighbour id i) ∧ s.level ≠ .full ∧
        e = s.violation
          s!"writing neighbour {id} needs full consistency, scope is {s.level.name}" := by
  have hfind : s.findWritableNeighbour id = (s.findNeighbour id).bind fun i =>
      if s.level = .full then .ok i
      else .error (s.violation
        s!"writing neighbour {id} needs full consistency, scope is {s.level.name}") := by
    rw [findWritableNeighbour]
    cases s.findNeighbour id <;> rfl
  rw [hfind]
  refine ((decided_findNeighbour ht id).bind fun i _ => .ite i _).congr (fun i => ?_) fun e => ?_
  · simp
  · simp [eq_comm]

/-- An edge is found exactly if it is at the centre. -/
theorem decided_findEdge (source target : VertexId) :
    Decided (s.findEdge source target) (s.Incident source target) (s.NoEdge source target) := by
  have hfind : s.findEdge source target = (s.topology.require source).bind fun i =>
      (s.topology.require target).bind fun j =>
        if i ≠ s.centre ∧ j ≠ s.centre then
          .error (s.violation s!"edge {source} -> {target} is not incident")
        else ((s.topology.edgeBetween? i j).map .ok).getD
          (.error (.unknownEdge source target)) := by
    rw [findEdge]
    cases s.topology.require source with
    | error e => rfl
    | ok i =>
      cases s.topology.require target with
      | error e => rfl
      | ok j => cases hbetween : s.topology.edgeBetween? i j <;> simp [Except.bind, hbetween]
  rw [hfind]
  refine ((ht.decided_require source).bind fun i _ => (ht.decided_require target).bind fun j _ =>
    (ht.decided_edgeBetween i j _).guard _).congr (fun e => ?_) fun e => ?_
  · constructor
    · rintro ⟨i, hi, j, hj, hc, he⟩
      exact ⟨i, j, hi, hj, by rwa [not_and_or, not_not, not_not] at hc, he⟩
    · rintro ⟨i, j, hi, hj, hc, he⟩
      exact ⟨i, hi, j, hj, by rwa [not_and_or, not_not, not_not], he⟩
  · refine or_congr_right (exists_congr fun i => and_congr_right fun _ =>
    or_congr_right (exists_congr fun j =>
      and_congr_right fun _ => ?_))
    rw [not_and_or, not_not, not_not, and_assoc]
    simp only [eq_comm]

/-- An edge can be written exactly above vertex consistency. -/
theorem decided_findWritableEdge (source target : VertexId) :
    Decided (s.findWritableEdge source target)
    (fun e => s.Incident source target e ∧ s.level ≠ .vertex) fun e => s.NoEdge source target e ∨
      (∃ e, s.Incident source target e) ∧ s.level = .vertex ∧
        e = s.violation "edges are read-only at vertex consistency" := by
  have hfind : s.findWritableEdge source target = (s.findEdge source target).bind fun e =>
      if s.level = .vertex then .error (s.violation "edges are read-only at vertex consistency")
        else .ok e := by
    rw [findWritableEdge]
    cases s.findEdge source target <;> rfl
  rw [hfind]
  refine ((decided_findEdge ht source target).bind fun e _ => (Decided.ofOk e).guard _).congr
    (fun e => ?_) fun e => ?_
  · simp
  · simp [eq_comm]

/-- The number of edges on one side is that of all edges with the vertex there. -/
private theorem decided_degree {row : VertexIndex → List EdgeIndex}
    {side : VertexIndex × VertexIndex → VertexIndex}
    (hrow : ∀ i, row i = s.topology.outline.edgesWhere (side · == i)) (id : VertexId) :
    Decided ((fun i => (row i).length) <$> s.find id)
      (fun n => ∃ i, s.Near id i ∧ s.topology.edges.toList.countP (side · == i) = n)
        (s.Beyond id) := by
  have hcount (i : VertexIndex) :
      (row i).length = s.topology.edges.toList.countP (side · == i) := by
    rw [hrow, Outline.length_edgesWhere]
    rfl
  have hmap : (fun i => (row i).length) <$> s.find id = (s.find id).bind fun i =>
    .ok (row i).length := by
    cases s.find id <;> rfl
  rw [hmap]
  refine ((decided_find ht id).bind fun i _ => .ofOk _).congr (fun n => ?_) fun e => ?_
  · simp [hcount]
  · simp

/-- The number of edges out of a vertex is told exactly if it is in the scope. -/
theorem decided_outDegree (id : VertexId) : Decided (s.outDegree id)
    (fun n => ∃ i, s.Near id i ∧ s.topology.edges.toList.countP (·.1 == i) = n) (s.Beyond id) :=
  decided_degree ht ht.outgoingOf_eq id

theorem decided_inDegree (id : VertexId) : Decided (s.inDegree id)
    (fun n => ∃ i, s.Near id i ∧ s.topology.edges.toList.countP (·.2 == i) = n) (s.Beyond id) :=
  decided_degree ht ht.incomingOf_eq id

omit ht

/-! # Accesses -/

/-- What the graph and the level say of which accesses succeed. -/
def Permits (s : Scope) : Access V E → Prop
  | .readCentre | .writeCentre _ => True
  | .readNeighbour id => ∃ i, s.Neighbour id i
  | .writeNeighbour id _ => (∃ i, s.Neighbour id i) ∧ s.level = .full
  | .readEdge source target => ∃ e, s.Incident source target e
  | .writeEdge source target _ => (∃ e, s.Incident source target e) ∧ s.level ≠ .vertex

/-- What an access that succeeds on the data `c` answers, and the data after it. -/
def Grants (s : Scope) (c : Cells V E) : (a : Access V E) → a.Answer → Cells V E → Prop
  | .readCentre, x, c' => c.vertices[s.centre]? = some x ∧ c' = c
  | .writeCentre f, x, c' => c.vertices[s.centre]? = some x ∧ c' = c.modifyVertex s.centre f
  | .readNeighbour id, x, c' => ∃ i, s.Neighbour id i ∧ c.vertices[i]? = some x ∧ c' = c
  | .writeNeighbour id f, x, c' =>
    ∃ i, (s.Neighbour id i ∧ s.level = .full) ∧ c.vertices[i]? = some x ∧ c' = c.modifyVertex i f
  | .readEdge source target, x, c' =>
    ∃ e, s.Incident source target e ∧ c.edges[e]? = some x ∧ c' = c
  | .writeEdge source target f, x, c' =>
    ∃ e, (s.Incident source target e ∧ s.level ≠ .vertex) ∧ c.edges[e]? = some x ∧
      c' = c.modifyEdge e f

/-- The errors with which accesses are refused. The level is looked at last. -/
def Refuses (s : Scope) : Access V E → Error → Prop
  | .readCentre, _ | .writeCentre _, _ => False
  | .readNeighbour id, e => s.NoNeighbour id e
  | .writeNeighbour id _, e => s.NoNeighbour id e ∨ (∃ i, s.Neighbour id i) ∧ s.level ≠ .full ∧
      e = s.violation s!"writing neighbour {id} needs full consistency, scope is {s.level.name}"
  | .readEdge source target, e => s.NoEdge source target e
  | .writeEdge source target _, e => s.NoEdge source target e ∨ (∃ e, s.Incident source target e) ∧
      s.level = .vertex ∧ e = s.violation "edges are read-only at vertex consistency"

/-- An access to the data `c` succeeds where it is permitted, and does what is said of it; elsewhere
it is refused with the error that is said of it, and changes nothing. -/
structure Exact (s : Scope) (c : Cells V E) (a : Access V E) : Prop where
  success : (∃ x c', c.perform s a = (.ok x, c')) ↔ s.Permits a
  ok : ∀ x c', c.perform s a = (.ok x, c') ↔ s.Grants c a x c'
  error : ∀ e c', c.perform s a = (.error e, c') ↔ s.Refuses a e ∧ c' = c

variable {c : Cells V E}

/-- The data of a vertex are read without changing anything. -/
private theorem readVertex_eq_ok {i : VertexIndex} {x : V} {c' d : Cells V E} :
    (c.readVertex s i, d) = (.ok x, c') ↔ c.vertices[i]? = some x ∧ c' = d := by
  rw [Prod.mk.injEq, eq_comm (a := d), Cells.readVertex]
  cases c.vertices[i]? <;> simp

private theorem readEdge_eq_ok {i : EdgeIndex} {x : E} {c' d : Cells V E} :
    (c.readEdge source target i, d) = (.ok x, c') ↔ c.edges[i]? = some x ∧ c' = d := by
  rw [Prod.mk.injEq, eq_comm (a := d), Cells.readEdge]
  cases c.edges[i]? <;> simp

/-- Every vertex has data, and so has every edge. -/
structure Filled (s : Scope) (c : Cells V E) : Prop where
  vertices : c.vertices.size = s.topology.vertexCount
  edges : c.edges.size = s.topology.edgeCount

namespace Filled

variable (h : s.Filled c) {c' : Cells V E}
include h

/-- There is data to be read at a position that a vertex has. -/
private theorem readVertex {i : VertexIndex} (hi : i < s.topology.vertexCount) :
    ∃ x d, (c.readVertex s i, c') = (.ok x, d) :=
  ⟨_, _, readVertex_eq_ok.mpr ⟨Array.getElem?_eq_getElem (h.vertices ▸ hi), rfl⟩⟩

/-- A neighbour has data that can be read. -/
private theorem readNeighbour {i : VertexIndex} (hi : s.Neighbour id i) :
    ∃ x d, (c.readVertex s i, c') = (.ok x, d) :=
  h.readVertex (Array.getElem?_eq_some_iff.mp hi.1).1

private theorem readEdge (he : s.Incident source target e) :
    ∃ x d, (c.readEdge source target e, c') = (.ok x, d) := by
  obtain ⟨i, j, -, -, -, he⟩ := he
  obtain ⟨hlt, -⟩ := Array.getElem?_eq_some_iff.mp he
  exact ⟨_, _, readEdge_eq_ok.mpr ⟨Array.getElem?_eq_getElem (h.edges ▸ hlt), rfl⟩⟩

end Filled

/-- An access is exact if it finds just what it is said to find, and does then what it is said to
do. -/
private theorem exact_of_decided {α : Type} {a : Access V E} {x : Except Error α} {ok : α → Prop}
    (found : α → Except Error a.Answer × Cells V E)
    (hperform : c.perform s a = match x with | .error e => (.error e, c) | .ok i => found i)
    (h : Decided x ok (s.Refuses a)) (hfound : ∀ i, ok i → ∃ y c', found i = (.ok y, c'))
    (hpermits : s.Permits a ↔ ∃ i, ok i)
    (hgrants : ∀ y c', s.Grants c a y c' ↔ ∃ i, ok i ∧ found i = (.ok y, c')) : s.Exact c a := by
  obtain ⟨hanswer, hrefused⟩ := h.perform hperform hfound
  refine ⟨?_, fun y c' => (hanswer y c').trans (hgrants y c').symm, hrefused⟩
  rw [hpermits]
  constructor
  · rintro ⟨y, c', hy⟩
    obtain ⟨i, hi, -⟩ := (hanswer y c').mp hy
    exact ⟨i, hi⟩
  · rintro ⟨i, hi⟩
    obtain ⟨y, c', hy⟩ := hfound i hi
    exact ⟨y, c', (hanswer y c').mpr ⟨i, hi, hy⟩⟩

/-- Every access is exact. -/
theorem exact (ht : s.topology.Valid) (hcentre : s.centre < s.topology.vertexCount)
    (hc : s.Filled c) (a : Access V E) : s.Exact c a := by
  cases a with
  | readCentre =>
    refine exact_of_decided (fun i => (c.readVertex s i, c)) rfl (.ofOk s.centre)
      (fun i hi => hi ▸ hc.readVertex hcentre) (iff_of_true trivial ⟨_, rfl⟩) fun y c' =>
      (readVertex_eq_ok (s := s)).symm.trans ⟨fun hy => ⟨_, rfl, hy⟩, ?_⟩
    rintro ⟨_, rfl, hy⟩
    exact hy
  | writeCentre f =>
    refine exact_of_decided (fun i => (c.readVertex s i, c.modifyVertex i f)) rfl (.ofOk s.centre)
      (fun i hi => hi ▸ hc.readVertex hcentre) (iff_of_true trivial ⟨_, rfl⟩) fun y c' =>
      (readVertex_eq_ok (s := s)).symm.trans ⟨fun hy => ⟨_, rfl, hy⟩, ?_⟩
    rintro ⟨_, rfl, hy⟩
    exact hy
  | readNeighbour id =>
    refine exact_of_decided _ ?_ (decided_findNeighbour ht id) (fun i hi => hc.readNeighbour hi)
      .rfl fun y c' =>
      exists_congr fun i => and_congr_right fun _ => readVertex_eq_ok.symm
    rw [Cells.perform]
    cases s.findNeighbour id <;> rfl
  | writeNeighbour id f =>
    refine exact_of_decided _ ?_ (decided_findWritableNeighbour ht id) (fun i hi =>
      hc.readNeighbour hi.1)
      exists_and_right.symm fun y c' => exists_congr fun i => and_congr_right fun _ =>
        readVertex_eq_ok.symm
    rw [Cells.perform]
    cases s.findWritableNeighbour id <;> rfl
  | readEdge source target =>
    refine exact_of_decided _ ?_ (decided_findEdge ht source target) (fun e he => hc.readEdge he)
      .rfl fun y c' =>
      exists_congr fun e => and_congr_right fun _ => readEdge_eq_ok.symm
    rw [Cells.perform]
    cases s.findEdge source target <;> rfl
  | writeEdge source target f =>
    refine exact_of_decided _ ?_ (decided_findWritableEdge ht source target) (fun e he =>
      hc.readEdge he.1)
      exists_and_right.symm fun y c' => exists_congr fun e => and_congr_right fun _ =>
        readEdge_eq_ok.symm
    rw [Cells.perform]
    cases s.findWritableEdge source target <;> rfl

end Scope

end VertexPrograms

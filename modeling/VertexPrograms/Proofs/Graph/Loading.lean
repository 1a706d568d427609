import Mathlib.Algebra.Group.Nat.Defs
import Mathlib.Data.Fintype.Card
import VertexPrograms.Proofs.Graph.Editing
import VertexPrograms.Proofs.Graph.Outline

/-!
# Loading is adding one by one, or nothing

A description is checked with tables of its own: the identifiers and the edges it has listed so far.
They say of every identifier and every pair what the store itself says once it has taken as much of
the description. So the checks refuse a description exactly when some vertex or edge would be
refused, with the error of the first of them, and what follows the checks cannot fail.
-/

namespace VertexPrograms

/-! # Looking up identifiers and edges in a larger graph -/

namespace Topology

variable {t : Topology} {id other source target : VertexId} {i j : VertexIndex}

/-- Identifiers are found as before, and the new one comes last. -/
theorem indexOf?_pushVertex :
    (t.pushVertex id).indexOf? other = if id = other then some t.vertexCount
      else t.indexOf? other := by
  simp [indexOf?, pushVertex, Std.ExtHashMap.getElem?_insert]

theorem edgeBetween?_pushEdge {k l : VertexIndex} :
    (t.pushEdge i j).edgeBetween? k l = if i = k ∧ j = l then some t.edgeCount
      else t.edgeBetween? k l := by
  simp [edgeBetween?, pushEdge, Std.ExtHashMap.getElem?_insert]

/-- No edge leads from or to a position beyond the last vertex. -/
theorem Valid.edgeBetween?_eq_none (h : t.Valid) (hij : t.vertexCount ≤ i ∨ t.vertexCount ≤ j) :
    t.edgeBetween? i j = none := by
  refine Option.eq_none_iff_forall_ne_some.mpr fun e he => ?_
  obtain ⟨hi, hj⟩ : i < t.vertexCount ∧ j < t.vertexCount :=
    h.bounds (i, j) e ((h.edgeIndex (i, j) e).mp he)
  exact hij.elim (Nat.not_le_of_lt hi) (Nat.not_le_of_lt hj)

/-- A new vertex has no edges. -/
theorem Valid.findEdge?_pushVertex (h : t.Valid) (hid : t.indexOf? id = none) :
    (t.pushVertex id).findEdge? source target = t.findEdge? source target := by
  have hbetween (k l : VertexIndex) : (t.pushVertex id).edgeBetween? k l = t.edgeBetween? k l := rfl
  simp only [findEdge?, indexOf?_pushVertex, hbetween]
  by_cases hs : id = source
  · subst hs
    rw [if_pos rfl, hid]
    cases (if id = target then some t.vertexCount else t.indexOf? target) with
    | none => rfl
    | some l => exact h.edgeBetween?_eq_none (.inl le_rfl)
  · rw [if_neg hs]
    by_cases ht : id = target
    · subst ht
      rw [if_pos rfl, hid]
      cases t.indexOf? source with
      | none => rfl
      | some k => exact h.edgeBetween?_eq_none (.inr le_rfl)
    · rw [if_neg ht]

/-- An identifier that is required successfully is found. -/
theorem indexOf?_of_require (h : t.require id = .ok i) : t.indexOf? id = some i := by
  rw [require] at h
  cases hi : t.indexOf? id with
  | none => simp [hi] at h
  | some k => simpa [hi] using h

/-- Between two identifiers that are known is an edge once one has been added there, or if there was
one. -/
theorem Valid.findEdge?_pushEdge (h : t.Valid) {s d : VertexId} (hs : t.require s = .ok i)
    (hd : t.require d = .ok j) : (t.pushEdge i j).findEdge? source target =
      if s = source ∧ d = target then some t.edgeCount else t.findEdge? source target := by
  have hindex (id : VertexId) : (t.pushEdge i j).indexOf? id = t.indexOf? id := rfl
  have hinj {id id' : VertexId} {k : VertexIndex} (hk : t.indexOf? id = some k)
      (hk' : t.indexOf? id' = some k) : id = id' :=
        Option.some.inj (((h.index id k).mp hk).symm.trans ((h.index id' k).mp hk'))
  simp only [findEdge?, hindex, edgeBetween?_pushEdge]
  have hs := indexOf?_of_require hs
  have hd := indexOf?_of_require hd
  by_cases heq : s = source ∧ d = target
  · obtain ⟨rfl, rfl⟩ := heq
    simp [hs, hd]
  · rw [if_neg heq]
    cases hk : t.indexOf? source with
    | none => rfl
    | some k =>
      cases hl : t.indexOf? target with
      | none => rfl
      | some l =>
        refine if_neg fun hkl => heq ?_
        obtain ⟨rfl, rfl⟩ := hkl
        exact ⟨hinj hs hk, hinj hd hl⟩

/-- There are no more vertices than identifiers. -/
theorem Valid.vertexCount_le (h : t.Valid) : t.vertexCount ≤ 2 ^ 32 := by
  have hnodup : (t.ids.toList.map UInt32.toFin).Nodup :=
    h.nodup_ids.map fun a b hab => UInt32.toFin_inj.mp hab
  simpa [vertexCount] using hnodup.length_le_card

end Topology

/-! # The checks of a description, one by one -/

namespace Description

variable {V E : Type} {k : Known} {listed : Std.ExtHashSet (VertexId × VertexId)}

/-- Checks one vertex. -/
def checkVertex (k : Known) (raw : Int) : Except Error VertexId := do
  let id ← VertexId.ofRaw raw
  if k.contains id then throw (.duplicateVertex id)
  return id

local instance : EquivBEq (VertexId × VertexId) := inferInstance

local instance : LawfulHashable (VertexId × VertexId) := inferInstance

/-- Whether an edge between two identifiers is known: to the store, or among those listed so far. -/
def Known.hasEdge (k : Known) (listed : Std.ExtHashSet (VertexId × VertexId))
    (source target : VertexId) : Bool :=
  (k.topology.findEdge? source target).isSome || listed.contains (source, target)

/-- Checks one edge. -/
def checkEdge (k : Known) (listed : Std.ExtHashSet (VertexId × VertexId))
    (rawSource rawTarget : Int) : Except Error (VertexId × VertexId) := do
  let source ← VertexId.ofRaw rawSource
  let target ← VertexId.ofRaw rawTarget
  k.require source
  k.require target
  if k.hasEdge listed source target then throw (.duplicateEdge source target)
  return (source, target)

/-- The first vertex of a list is checked before the others. -/
theorem checkVertices_cons (raw : Int) (data : V) (xs : List (Int × V)) :
    checkVertices k ((raw, data) :: xs) = checkVertex k raw >>= fun id =>
      (fun checked => ((id, data) :: checked.1, checked.2)) <$>
        checkVertices { k with added := k.added.insert id } xs := by
  rw [checkVertices, checkVertex]
  cases VertexId.ofRaw raw with
  | error e => rfl
  | ok id =>
    change (if k.contains id = true then _ else _) = (if k.contains id = true then _ else _) >>= _
    split <;> rfl

theorem checkEdges_cons (rawSource rawTarget : Int) (data : E) (xs : List (Int × Int × E)) :
    checkEdges k listed ((rawSource, rawTarget, data) :: xs) =
      checkEdge k listed rawSource rawTarget >>= fun ends =>
        ((ends.1, ends.2, data) :: ·) <$> checkEdges k (listed.insert ends) xs := by
  rw [checkEdges, checkEdge]
  cases VertexId.ofRaw rawSource with
  | error e => rfl
  | ok source =>
    cases VertexId.ofRaw rawTarget with
    | error e => rfl
    | ok target =>
      change (k.require source >>= _) = (k.require source >>= _) >>= _
      cases k.require source with
      | error e => rfl
      | ok _ =>
        change (k.require target >>= _) = (k.require target >>= _) >>= _
        cases k.require target with
        | error e => rfl
        | ok _ =>
          change (if k.hasEdge listed source target = true then _ else _) =
            (if _ then _ else _) >>= _
          split <;> rfl

end Description

namespace Store

variable {V E : Type} {g : Store V E} {k : Description.Known}
  {listed : Std.ExtHashSet (VertexId × VertexId)}

namespace Editing

/-- Adds what a description lists, one vertex or edge after another: the vertices first, then the
edges. -/
def addAll (d : Description V E) : InPlace (Store V E) Unit := do
  forM d.vertices addRawVertex
  forM d.edges addRawEdge

end Editing

/-- What the checks of a description know is what the store knows that has taken all they have seen.
-/
structure Tracked (k : Description.Known) (listed : Std.ExtHashSet (VertexId × VertexId))
    (g : Store V E) : Prop where
  valid : g.Valid
  isOpen : g.frozen = false
  contains : ∀ id, k.contains id = (g.topology.indexOf? id).isSome
  hasEdge : ∀ source target, k.hasEdge listed source target =
    (g.topology.findEdge? source target).isSome

namespace Tracked

/-- Before anything is added, the checks tell of the store itself. -/
theorem initial (h : g.Valid) (hopen : g.frozen = false) : Tracked ⟨g.topology, ∅⟩ ∅ g where
  valid := h
  isOpen := hopen
  contains id := by simp [Description.Known.contains]
  hasEdge source target := by simp [Description.Known.hasEdge]

/-- A vertex that is known is refused. -/
theorem addVertex_error (h : Tracked k listed g) {id : VertexId} (hid : k.contains id = true)
    (data : V) : g.addVertex id data = .error (.duplicateVertex id) := by
  simp [Store.addVertex, Topology.addVertex, h.isOpen, ← h.contains, hid]

/-- A vertex that is not known is added, and then the store and the checks know it. -/
theorem addVertex_ok (h : Tracked k listed g) {id : VertexId} (hid : k.contains id = false)
    (data : V) : ∃ i g', g.addVertex id data = .ok (i, g') ∧ g'.vertexCount = g.vertexCount + 1 ∧
      Tracked { k with added := k.added.insert id } listed g' := by
  have hnone : g.topology.indexOf? id = none := by simpa [h.contains] using hid
  have hadd : g.addVertex id data = .ok (g.topology.vertexCount, { g with
      topology := g.topology.pushVertex id
      cells := { g.cells with vertices := g.cells.vertices.push data } }) := by
    simp [Store.addVertex, Topology.addVertex, h.isOpen, hnone]
  refine ⟨_, _, hadd, by simp [vertexCount, Topology.vertexCount, Topology.pushVertex],
    h.valid.addVertex hadd, h.isOpen, fun other => ?_, fun source target => ?_⟩
  · have hother := h.contains other
    rw [Description.Known.contains] at hother ⊢
    rw [Topology.indexOf?_pushVertex, Std.ExtHashSet.contains_insert]
    by_cases heq : id = other
    · simp [heq]
    · simpa [heq, beq_eq_false_iff_ne.mpr heq] using hother
  · rw [h.valid.topology.findEdge?_pushVertex hnone]
    exact h.hasEdge source target

/-- An identifier is known to the checks if and only if the store requires it with success. -/
theorem require (h : Tracked k listed g) (id : VertexId) :
    k.require id = (fun _ => ()) <$> g.topology.require id := by
  rw [Description.Known.require, h.contains, Topology.require]
  cases g.topology.indexOf? id <;> rfl

/-- An edge that is listed already, or is in the store, is refused. -/
theorem addEdge_error (h : Tracked k listed g) {source target : VertexId} {i j : VertexIndex}
    (hi : g.topology.require source = .ok i) (hj : g.topology.require target = .ok j)
    (hdup : k.hasEdge listed source target = true) (data : E) :
    g.addEdge source target data = .error (.duplicateEdge source target) := by
  rw [h.hasEdge, Topology.findEdge?, Topology.indexOf?_of_require hi,
    Topology.indexOf?_of_require hj] at hdup
  have hdup : (g.topology.edgeBetween? i j).isSome = true := hdup
  simp [Store.addEdge, Topology.addEdge, h.isOpen, hi, hj, hdup]

/-- Any other edge between known vertices is added, and then the store and the checks have it. -/
theorem addEdge_ok (h : Tracked k listed g) {source target : VertexId} {i j : VertexIndex}
    (hi : g.topology.require source = .ok i) (hj : g.topology.require target = .ok j)
    (hdup : k.hasEdge listed source target = false) (data : E) :
    ∃ e g', g.addEdge source target data = .ok (e, g') ∧
      Tracked k (listed.insert (source, target)) g' := by
  have hnew : g.topology.edgeBetween? i j = none := by
    rw [h.hasEdge, Topology.findEdge?, Topology.indexOf?_of_require hi,
      Topology.indexOf?_of_require hj] at hdup
    simpa using hdup
  have hadd : g.addEdge source target data = .ok (g.topology.edgeCount, { g with
      topology := g.topology.pushEdge i j
      cells := { g.cells with edges := g.cells.edges.push data } }) := by
    simp [Store.addEdge, Topology.addEdge, h.isOpen, hi, hj, hnew]
  refine ⟨_, _, hadd, h.valid.addEdge hadd, h.isOpen, h.contains, fun s d => ?_⟩
  have hold := h.hasEdge s d
  rw [Description.Known.hasEdge] at hold ⊢
  rw [h.valid.topology.findEdge?_pushEdge hi hj, Std.ExtHashSet.contains_insert]
  by_cases heq : source = s ∧ target = d
  · simp [heq]
  · have hne : ((source, target) == (s, d)) = false := by simpa using heq
    rw [if_neg heq, ← hold, hne, Bool.false_or]

end Tracked

/-- Code that does what a check foresees: it fails with the error of the check, or ends in a state
that is related to what has been checked. -/
inductive Foreseen {α σ : Type} (R : α → σ → Prop) : Except Error α → Except Error Unit × σ → Prop
  | fails (e : Error) (s : σ) : Foreseen R (.error e) (.error e, s)
  | ends {a : α} {s : σ} (h : R a s) : Foreseen R (.ok a) (.ok (), s)

namespace Foreseen

variable {α β σ : Type} {R : α → σ → Prop} {R' : β → σ → Prop} {s : σ}

/-- One check after another foresees one piece of code after another. -/
theorem bind {check : Except Error α} {next : α → Except Error β} {x y : InPlace σ Unit}
    (h : Foreseen R check (x.on s)) (hnext : ∀ a s', R a s' → Foreseen R' (next a) (y.on s')) :
    Foreseen R' (check >>= next) ((x >>= fun _ => y).on s) := by
  rw [InPlace.on_bind]
  generalize x.on s = after at h
  cases h with
  | fails e s' => exact .fails e s'
  | ends hR => exact hnext _ _ hR

/-- What a check foresees can be mapped. -/
theorem map {check : Except Error α} {after : Except Error Unit × σ} (f : α → β)
    (h : Foreseen R check after) (hf : ∀ a s', R a s' → R' (f a) s') :
    Foreseen R' (f <$> check) after := by
  cases h with
  | fails e s' => exact .fails e s'
  | ends hR => exact .ends (hf _ _ hR)

end Foreseen

namespace Tracked

open Editing

/-- Checking a vertex foresees what becomes of adding it. -/
theorem foreseen_vertex (h : Tracked k listed g) (raw : Int) (data : V) :
    Foreseen (fun id g' => (∃ i, g.addVertex id data = .ok (i, g')) ∧
      g'.vertexCount = g.vertexCount + 1 ∧
        Tracked { k with added := k.added.insert id } listed g')
      (Description.checkVertex k raw) ((addRawVertex (raw, data)).on g) := by
  rw [addRawVertex, InPlace.on_bind, InPlace.on_ofExcept, Description.checkVertex]
  cases VertexId.ofRaw raw with
  | error e => exact .fails e g
  | ok id =>
    simp only [InPlace.on_bind, on_addVertex]
    change Foreseen _ (if k.contains id = true then _ else _) _
    cases hid : k.contains id with
    | true =>
      rw [h.addVertex_error hid]
      exact .fails _ g
    | false =>
      obtain ⟨i, g', hadd, hcount, h'⟩ := h.addVertex_ok hid data
      rw [hadd]
      exact .ends ⟨⟨i, hadd⟩, hcount, h'⟩

/-- Checking vertices foresees what becomes of adding them. -/
theorem foreseen_vertices (h : Tracked k listed g) (xs : List (Int × V)) :
    Foreseen (fun checked g' =>
        checked.1.foldlM (fun g (x : VertexId × V) => (·.2) <$> g.addVertex x.1 x.2) g = .ok g' ∧
          g'.vertexCount = g.vertexCount + xs.length ∧ Tracked checked.2 listed g')
      (Description.checkVertices k xs) ((forM xs addRawVertex).on g) := by
  induction xs generalizing k g with
  | nil => exact .ends ⟨rfl, rfl, h⟩
  | cons x xs ih =>
    obtain ⟨raw, data⟩ := x
    rw [List.forM_cons, Description.checkVertices_cons]
    refine (h.foreseen_vertex raw data).bind fun id g₁ ⟨⟨i, hadd⟩, hcount, h₁⟩ =>
      (ih h₁).map _ fun checked g' ⟨hfold, hcount', h'⟩ => ⟨?_, ?_, h'⟩
    · rw [List.foldlM_cons, hadd]
      exact hfold
    · rw [hcount', hcount, List.length_cons]
      omega

/-- Checking an edge foresees what becomes of adding it. -/
theorem foreseen_edge (h : Tracked k listed g) (rawSource rawTarget : Int) (data : E) :
    Foreseen (fun ends g' => (∃ e, g.addEdge ends.1 ends.2 data = .ok (e, g')) ∧
      Tracked k (listed.insert ends) g') (Description.checkEdge k listed rawSource rawTarget)
        ((addRawEdge (rawSource, rawTarget, data)).on g) := by
  rw [addRawEdge, InPlace.on_bind, InPlace.on_ofExcept, Description.checkEdge]
  cases VertexId.ofRaw rawSource with
  | error e => exact .fails e g
  | ok source =>
    simp only [InPlace.on_bind, InPlace.on_ofExcept]
    cases VertexId.ofRaw rawTarget with
    | error e => exact .fails e g
    | ok target =>
      simp only [on_addEdge]
      change Foreseen _ (k.require source >>= fun _ => k.require target >>= _) _
      rw [h.require, h.require]
      cases hi : g.topology.require source with
      | error e =>
        simp only [Store.addEdge, Topology.addEdge, h.isOpen, hi]
        exact .fails e g
      | ok i =>
        cases hj : g.topology.require target with
        | error e =>
          simp only [Store.addEdge, Topology.addEdge, h.isOpen, hi, hj]
          exact .fails e g
        | ok j =>
          change Foreseen _ (if k.hasEdge listed source target = true then _ else _) _
          split
          · rename_i hdup
            rw [h.addEdge_error hi hj hdup]
            exact .fails _ g
          · rename_i hdup
            obtain ⟨e, g', hadd, h'⟩ := h.addEdge_ok hi hj (Bool.eq_false_iff.mpr hdup) data
            rw [hadd]
            exact .ends ⟨⟨e, hadd⟩, h'⟩

/-- Checking edges foresees what becomes of adding them. -/
theorem foreseen_edges (h : Tracked k listed g) (xs : List (Int × Int × E)) :
    Foreseen (fun edges g' => edges.foldlM
        (fun g (x : VertexId × VertexId × E) => (·.2) <$> g.addEdge x.1 x.2.1 x.2.2) g = .ok g')
      (Description.checkEdges k listed xs) ((forM xs addRawEdge).on g) := by
  induction xs generalizing listed g with
  | nil => exact .ends rfl
  | cons x xs ih =>
    obtain ⟨rawSource, rawTarget, data⟩ := x
    rw [List.forM_cons, Description.checkEdges_cons]
    refine (h.foreseen_edge rawSource rawTarget data).bind fun ends g₁ ⟨⟨e, hadd⟩, h₁⟩ =>
      (ih h₁).map _ fun edges g' hfold => ?_
    rw [List.foldlM_cons, hadd]
    exact hfold

/-- Checking a description foresees what becomes of adding what it lists. What has been checked is
inserted with success, and there is room for it. -/
theorem foreseen_all (h : Tracked ⟨g.topology, ∅⟩ ∅ g) (d : Description V E) :
    Foreseen (fun checked g' => g.insertChecked checked.1 checked.2 = .ok g' ∧
        hasRoom (g.vertexCount + d.vertices.length) = true)
      (d.check g.topology) ((addAll d).on g) := by
  rw [Description.check, addAll]
  refine (h.foreseen_vertices d.vertices).bind fun checked g₁ ⟨hvertices, hcount, h₁⟩ =>
    (h₁.foreseen_edges d.edges).map _ fun edges g' hedges => ⟨?_, ?_⟩
  · rw [insertChecked]
    exact congrArg (· >>= _) hvertices |>.trans hedges
  -- There are no more identifiers than would fit, and each vertex has its own.
  · have hle := h₁.valid.topology.vertexCount_le
    change g₁.vertexCount ≤ _ at hle
    rw [hasRoom, decide_eq_true_eq, ← hcount]
    omega

end Tracked

/-- What an operation leaves behind that takes back what it has changed when it fails. -/
def restored {α σ : Type} (s : σ) : Except Error α × σ → Except Error α × σ
  | (.ok a, s) => (.ok a, s)
  | (.error e, _) => (.error e, s)

/-- A load checks everything, and then inserts it. -/
theorem load_eq (hopen : g.frozen = false) {d : Description V E} (hd : d.vertices ≠ []) :
    g.load d = d.check g.topology >>= fun checked => g.insertChecked checked.1 checked.2 := by
  have hd : d.vertices.isEmpty = false := by simpa using hd
  rw [load, hopen, hd, Description.check]
  change (Description.checkVertices ⟨g.topology, ∅⟩ d.vertices >>= _) = _ >>= _
  cases Description.checkVertices ⟨g.topology, ∅⟩ d.vertices with
  | error e => rfl
  | ok checked =>
    change (Description.checkEdges checked.2 ∅ d.edges >>= _) =
      (Description.checkEdges checked.2 ∅ d.edges >>= _) >>= _
    cases Description.checkEdges checked.2 ∅ d.edges <;> rfl

/-- A load in place checks everything before it adds anything. -/
private theorem on_load_of_open (hopen : g.frozen = false) {d : Description V E}
    (hd : d.vertices ≠ []) : (Editing.load d).on g = match d.check g.topology with
      | .error e => (.error e, g)
      | .ok _ =>
        if hasRoom (g.vertexCount + d.vertices.length) then (Editing.addAll d).on g
          else (.error .capacity, g) := by
  simp only [Editing.load, InPlace.on_bind, Editing.on_requireOpen, hopen]
  cases hcheck : d.check g.topology with
  | error e => simp [hd, hcheck]
  | ok checked =>
    have hle : ¬g.vertexCount + d.vertices.length < g.vertexCount :=
      Nat.not_lt.mpr (Nat.le_add_right ..)
    cases hroom : hasRoom (g.vertexCount + d.vertices.length) <;>
      simp [hd, hcheck, hroom, hle, Editing.on_resize, resize, hopen, Editing.addAll]

/-- Loading in place comes to the operation that answers with a new store. -/
theorem Valid.on_load (h : g.Valid) (d : Description V E) :
    (Editing.load d).on g = InPlace.settled g (((), ·) <$> g.load d) := by
  cases hopen : g.frozen with
  | true => simp [Editing.load, Store.load, Editing.on_requireOpen, hopen]
  | false =>
    by_cases hd : d.vertices = []
    · simp [Editing.load, Store.load, Editing.on_requireOpen, hopen, hd]
    · have hforeseen := (Tracked.initial h hopen).foreseen_all d
      rw [on_load_of_open hopen hd, load_eq hopen hd]
      generalize d.check g.topology = check, (Editing.addAll d).on g = after at hforeseen
      cases hforeseen with
      | fails e g' => rfl
      | @ends checked g' hchecked =>
        change _ = InPlace.settled g (((), ·) <$> g.insertChecked checked.1 checked.2)
        simp [hchecked.1, hchecked.2]

/-- Loading a description that lists a vertex into an open store comes to adding, one after another,
the vertices and then the edges it lists, in a way that is taken back when one of them is refused:
with the same store after success, and otherwise with the error of the first that is refused. So it
is with the store that is changed in place and with the one that is answered. What follows the
checks of a description that passes them never fails. -/
theorem Built.load_eq_addAll (h : g.Built) (hopen : g.frozen = false) {d : Description V E}
    (hd : d.vertices ≠ []) : (Editing.load d).on g = restored g ((Editing.addAll d).on g) ∧
      InPlace.settled g (((), ·) <$> g.load d) = restored g ((Editing.addAll d).on g) ∧
      ∀ checked, d.check g.topology = .ok checked → ∃ g',
        (Editing.addAll d).on g = (.ok (), g') ∧ g.insertChecked checked.1 checked.2 = .ok g' := by
  have hforeseen := (Tracked.initial h.valid hopen).foreseen_all d
  rw [h.valid.on_load, load_eq hopen hd]
  generalize d.check g.topology = check, (Editing.addAll d).on g = after at hforeseen
  cases hforeseen with
  | fails e g' => exact ⟨rfl, rfl, fun _ hok => nomatch hok⟩
  | @ends checked g' hchecked =>
    have hload : InPlace.settled g (((), ·) <$> g.insertChecked checked.1 checked.2) =
        (.ok (), g') := by
      rw [hchecked.1]
      rfl
    refine ⟨hload, hload, fun _ hok => ?_⟩
    obtain rfl := Except.ok.inj hok
    exact ⟨g', rfl, hchecked.1⟩

theorem Built.load_eq_addAll_row :
    let g : Store Nat Nat := row 10 20 30 1 2
    let d : Description Nat Nat := ⟨[(3, 40)], [(3, 1, 3), (1, 3, 4)]⟩
    g.Built ∧ g.frozen = false ∧ d.vertices ≠ [] ∧
      InPlace.settled g (((), ·) <$> g.load d) = restored g ((Editing.addAll d).on g) :=
  ⟨row_built .., rfl, by simp, ((row_built 10 20 30 1 2).load_eq_addAll rfl (by simp)).2.1⟩

end Store

end VertexPrograms

import VertexPrograms.Graph.Description

/-!
# What the tables of a graph say

A graph keeps its edges in one list and answers from tables beside it. The tables of every graph
that the operations of the store build agree with the lists of identifiers and edges: positions and
identifiers determine each other, as do positions and ends of edges, the rows of a vertex have
exactly its edges, and its neighbours are exactly the other vertices to which an edge joins it.
-/

namespace VertexPrograms

/-! # Ascending lists -/

/-- An ascending list has a number once it is inserted, and otherwise what it had. -/
theorem mem_insertAscending {n k : Nat} {l : List Nat} : k ∈ insertAscending n l ↔
    k = n ∨ k ∈ l := by
  induction l with
  | nil => simp [insertAscending]
  | cons m ms ih =>
    rw [insertAscending]
    split
    · rw [List.mem_cons]
    · split
      · rename_i heq
        simp [heq]
      · rw [List.mem_cons, List.mem_cons, ih]
        exact or_left_comm

/-- Insertion keeps a list ascending. -/
theorem ascending_insertAscending {n : Nat} {l : List Nat} (h : l.Pairwise (· < ·)) :
    (insertAscending n l).Pairwise (· < ·) := by
  induction l with
  | nil => simp [insertAscending]
  | cons m ms ih =>
    obtain ⟨hm, hms⟩ := List.pairwise_cons.mp h
    rw [insertAscending]
    split
    · rename_i hlt
      refine List.pairwise_cons.mpr ⟨fun k hk => ?_, h⟩
      rcases List.mem_cons.mp hk with rfl | hk
      · exact hlt
      · exact Nat.lt_trans hlt (hm k hk)
    · split
      · exact h
      · refine List.pairwise_cons.mpr ⟨fun k hk => ?_, ih hms⟩
        rcases mem_insertAscending.mp hk with rfl | hk
        · omega
        · exact hm k hk

namespace Topology

variable {t : Topology} {id : VertexId} {i j k : VertexIndex}

/-- An edge joins the positions, in one direction or the other. -/
def Joins (t : Topology) (i j : VertexIndex) : Prop :=
  ∃ e : EdgeIndex, t.edges[e]? = some (i, j) ∨ t.edges[e]? = some (j, i)

theorem Joins.symm (h : t.Joins i j) : t.Joins j i := by
  obtain ⟨e, h⟩ := h
  exact ⟨e, h.symm⟩

/-- For each of `n` vertices the rows list, in order, the edges that have it on the given side. -/
structure Rows (edges : Array (VertexIndex × VertexIndex)) (n : Nat)
    (side : VertexIndex × VertexIndex → VertexIndex) (rows : Array (Array EdgeIndex)) : Prop where
  size : rows.size = n
  mem : ∀ (i : VertexIndex) (e : EdgeIndex),
    e ∈ ((rows[i]?).getD #[]).toList ↔ ∃ x, edges[e]? = some x ∧ side x = i
  ascending : ∀ i : VertexIndex, ((rows[i]?).getD #[]).toList.Pairwise (· < ·)

/-- The tables agree with the identifiers and the edges. -/
structure Valid (t : Topology) : Prop where
  index : ∀ (id : VertexId) (i : VertexIndex), t.index[id]? = some i ↔ t.ids[i]? = some id
  edgeIndex : ∀ (x : VertexIndex × VertexIndex) (e : EdgeIndex),
    t.edgeIndex[x]? = some e ↔ t.edges[e]? = some x
  bounds : ∀ (x : VertexIndex × VertexIndex) (e : EdgeIndex), t.edges[e]? = some x →
    x.1 < t.vertexCount ∧ x.2 < t.vertexCount
  outgoing : Rows t.edges t.vertexCount (·.1) t.outgoing
  incoming : Rows t.edges t.vertexCount (·.2) t.incoming
  adjacent_size : t.adjacent.size = t.vertexCount
  mem_adjacent : ∀ i j : VertexIndex, j ∈ t.adjacentOf i ↔ j ≠ i ∧ t.Joins i j
  adjacent_ascending : ∀ i : VertexIndex, (t.adjacentOf i).Pairwise (· < ·)

/-! # A vertex more -/

/-- An array read after an element is appended. -/
private theorem getElem?_push_eq_some {α : Type} {xs : Array α} {a b : α} {i : Nat} :
    (xs.push a)[i]? = some b ↔ xs[i]? = some b ∨ i = xs.size ∧ a = b := by
  rw [Array.getElem?_push]
  split
  · rename_i hi
    subst hi
    simp
  · rename_i hi
    simp [hi]

/-- Rows with an empty one at the end. -/
private theorem getD_push_empty {α β : Type} [EmptyCollection β] {rows : Array β} {i : Nat}
    {f : β → List α} (hf : f ∅ = []) : f (((rows.push ∅)[i]?).getD ∅) = f ((rows[i]?).getD ∅) := by
  rw [Array.getElem?_push]
  split
  · rename_i hi
    simp [hi, hf]
  · rfl

/-- A new vertex gets an empty row. -/
theorem Rows.pushVertex {edges : Array (VertexIndex × VertexIndex)} {n : Nat}
    {side : VertexIndex × VertexIndex → VertexIndex} {rows : Array (Array EdgeIndex)}
    (h : Rows edges n side rows) : Rows edges (n + 1) side (rows.push #[]) := by
  have hrow (i : VertexIndex) :
      (((rows.push #[])[i]?).getD #[]).toList = ((rows[i]?).getD #[]).toList :=
    getD_push_empty (f := Array.toList) rfl
  refine ⟨by simp [h.size], fun i e => ?_, fun i => ?_⟩
  · rw [hrow]
    exact h.mem i e
  · rw [hrow]
    exact h.ascending i

/-- With a vertex under a new identifier the tables still agree. -/
theorem Valid.pushVertex (h : t.Valid) (hid : t.indexOf? id = none) : (t.pushVertex id).Valid := by
  have hsize : (t.pushVertex id).vertexCount = t.vertexCount + 1 := by
    simp [Topology.pushVertex, vertexCount]
  have hadj (i : VertexIndex) : (t.pushVertex id).adjacentOf i = t.adjacentOf i :=
    getD_push_empty (f := fun l => l) rfl
  refine ⟨fun other i => ?_, h.edgeIndex, fun x e hx => ?_, ?_, ?_, ?_, fun i j => ?_, fun i => ?_⟩
  · simp only [Topology.pushVertex, vertexCount]
    rw [getElem?_push_eq_some, Std.ExtHashMap.getElem?_insert]
    split
    · rename_i heq
      obtain rfl := eq_of_beq heq
      have hnone : t.ids[i]? ≠ some id := fun hi => by simp [indexOf?, (h.index id i).mpr hi] at hid
      simp [hnone, eq_comm]
    · rename_i hne
      have hne : id ≠ other := by simpa using hne
      simp [hne, h.index]
  · rw [hsize]
    exact (h.bounds x e hx).imp Nat.lt_succ_of_lt Nat.lt_succ_of_lt
  · rw [hsize]
    exact h.outgoing.pushVertex
  · rw [hsize]
    exact h.incoming.pushVertex
  · simp [Topology.pushVertex, h.adjacent_size, vertexCount]
  · rw [hadj]
    exact h.mem_adjacent i j
  · rw [hadj]
    exact h.adjacent_ascending i

/-! # An edge more -/

/-- A new edge is appended to the row of its end. -/
theorem Rows.pushEdge {edges : Array (VertexIndex × VertexIndex)} {n : Nat}
    {side : VertexIndex × VertexIndex → VertexIndex} {rows : Array (Array EdgeIndex)}
    (h : Rows edges n side rows) {x : VertexIndex × VertexIndex} (hx : side x < n) :
    Rows (edges.push x) n side (rows.modify (side x) (·.push edges.size)) := by
  have hrow (i : VertexIndex) : (((rows.modify (side x) (·.push edges.size))[i]?).getD #[]).toList =
      ((rows[i]?).getD #[]).toList ++ if side x = i then [edges.size] else [] := by
    rw [Array.getElem?_modify]
    split
    · rename_i hi
      have hi : i < rows.size := by rwa [h.size, ← hi]
      simp [hi]
    · simp
  have hlt {i : VertexIndex} {e : EdgeIndex} (he : e ∈ ((rows[i]?).getD #[]).toList) :
      e < edges.size := by
    obtain ⟨y, hy, -⟩ := (h.mem i e).mp he
    exact (Array.getElem?_eq_some_iff.mp hy).1
  refine ⟨by simp [h.size], fun i e => ?_, fun i => ?_⟩
  · rw [hrow, List.mem_append, h.mem i e]
    simp only [getElem?_push_eq_some]
    constructor
    · rintro (⟨y, hy, hi⟩ | hnew)
      · exact ⟨y, .inl hy, hi⟩
      · split at hnew
        · exact ⟨x, .inr ⟨List.mem_singleton.mp hnew, rfl⟩, ‹_›⟩
        · simp at hnew
    · rintro ⟨y, hy | ⟨rfl, rfl⟩, hi⟩
      · exact .inl ⟨y, hy, hi⟩
      · simp [hi]
  · rw [hrow]
    refine List.pairwise_append.mpr ⟨h.ascending i, ?_, fun a ha b hb => ?_⟩
    · split <;> simp
    · have := hlt ha
      split at hb <;> simp_all

/-- A link adds no row. -/
@[simp] theorem size_link (adjacent : Array (List VertexIndex)) :
    (link adjacent i j).size = adjacent.size := by
  rw [link]
  split <;> simp

/-- Two vertices that are linked become neighbours, and no others do. -/
theorem getD_link (adjacent : Array (List VertexIndex)) (hi : i < adjacent.size)
    (hj : j < adjacent.size) : ((link adjacent i j)[k]?).getD [] =
      if i = j then (adjacent[k]?).getD []
      else if k = i then insertAscending j ((adjacent[k]?).getD [])
      else if k = j then insertAscending i ((adjacent[k]?).getD [])
      else (adjacent[k]?).getD [] := by
  rw [link]
  by_cases hij : i = j
  · rw [if_pos hij, if_pos hij]
  · rw [if_neg hij, if_neg hij, Array.getElem?_modify, Array.getElem?_modify]
    by_cases hki : k = i
    · subst hki
      simp [Ne.symm hij, hi]
    · by_cases hkj : k = j
      · subst hkj
        simp [hki, hj, Ne.symm hki]
      · simp [hki, hkj, Ne.symm hki, Ne.symm hkj]

/-- The neighbours after an edge has been added: each of its ends is one of the other. -/
theorem adjacentOf_pushEdge (h : t.adjacent.size = t.vertexCount) (hi : i < t.vertexCount)
    (hj : j < t.vertexCount) (k : VertexIndex) : (t.pushEdge i j).adjacentOf k =
      if i = j then t.adjacentOf k
      else if k = i then insertAscending j (t.adjacentOf k)
      else if k = j then insertAscending i (t.adjacentOf k)
      else t.adjacentOf k :=
  getD_link t.adjacent (h ▸ hi) (h ▸ hj)

/-- The new edge joins its ends, and the others join what they joined. -/
theorem joins_pushEdge {l : VertexIndex} :
    (t.pushEdge i j).Joins k l ↔ t.Joins k l ∨ i = k ∧ j = l ∨ i = l ∧ j = k := by
  simp only [Joins, Topology.pushEdge, getElem?_push_eq_some, Prod.mk.injEq]
  constructor
  · rintro ⟨e, (he | ⟨-, heq⟩) | (he | ⟨-, heq⟩)⟩
    · exact .inl ⟨e, .inl he⟩
    · exact .inr (.inl heq)
    · exact .inl ⟨e, .inr he⟩
    · exact .inr (.inr heq)
  · rintro (⟨e, he | he⟩ | heq | heq)
    · exact ⟨e, .inl (.inl he)⟩
    · exact ⟨e, .inr (.inl he)⟩
    · exact ⟨_, .inl (.inr ⟨rfl, heq⟩)⟩
    · exact ⟨_, .inr (.inr ⟨rfl, heq⟩)⟩

/-- The ends of an edge become neighbours unless they are the same vertex. -/
private theorem Valid.mem_adjacent_pushEdge (h : t.Valid) (hi : i < t.vertexCount)
    (hj : j < t.vertexCount) (k l : VertexIndex) : l ∈ (t.pushEdge i j).adjacentOf k ↔ l ≠ k ∧
    (t.pushEdge i j).Joins k l := by
  have hold := h.mem_adjacent k l
  rw [adjacentOf_pushEdge h.adjacent_size hi hj, joins_pushEdge]
  by_cases hij : i = j
  · rw [if_pos hij, hold]
    constructor
    · exact fun ⟨hne, hkl⟩ => ⟨hne, .inl hkl⟩
    · rintro ⟨hne, hkl | ⟨rfl, rfl⟩ | ⟨rfl, rfl⟩⟩
      · exact ⟨hne, hkl⟩
      · exact absurd hij.symm hne
      · exact absurd hij hne
  · rw [if_neg hij]
    split
    · rw [mem_insertAscending, hold]
      grind
    · split
      · rw [mem_insertAscending, hold]
        grind
      · grind

/-- With an edge where none was in its direction the tables still agree. -/
theorem Valid.pushEdge (h : t.Valid) (hi : i < t.vertexCount) (hj : j < t.vertexCount)
    (hnew : t.edgeBetween? i j = none) : (t.pushEdge i j).Valid := by
  refine ⟨h.index, fun x e => ?_, fun x e hx => ?_, h.outgoing.pushEdge hi, h.incoming.pushEdge hj,
    (size_link t.adjacent).trans h.adjacent_size, h.mem_adjacent_pushEdge hi hj, fun k => ?_⟩
  · simp only [Topology.pushEdge, edgeCount]
    rw [getElem?_push_eq_some, Std.ExtHashMap.getElem?_insert]
    split
    · rename_i heq
      obtain rfl := eq_of_beq heq
      have hnone : t.edges[e]? ≠ some (i, j) := fun he => by
        simp [edgeBetween?, (h.edgeIndex (i, j) e).mpr he] at hnew
      simp [hnone, eq_comm]
    · rename_i hne
      have hne : (i, j) ≠ x := by simpa using hne
      simp [hne, h.edgeIndex]
  · rcases getElem?_push_eq_some.mp hx with hx | ⟨-, rfl⟩
    · exact h.bounds x e hx
    · exact ⟨hi, hj⟩
  · rw [adjacentOf_pushEdge h.adjacent_size hi hj]
    have hold := h.adjacent_ascending k
    split
    · exact hold
    · split
      · exact ascending_insertAscending hold
      · split
        · exact ascending_insertAscending hold
        · exact hold

/-- Both ends of an edge are vertices. -/
theorem Valid.joins_lt (h : t.Valid) (hj : t.Joins i j) : i < t.vertexCount ∧
    j < t.vertexCount := by
  obtain ⟨e, he | he⟩ := hj
  · exact h.bounds (i, j) e he
  · exact (h.bounds (j, i) e he).symm

/-- A neighbour is a vertex other than the one whose neighbour it is. -/
theorem Valid.adjacent_lt (h : t.Valid) (hj : j ∈ t.adjacentOf i) : j ≠ i ∧ j < t.vertexCount :=
  ⟨((h.mem_adjacent i j).mp hj).1, (h.joins_lt ((h.mem_adjacent i j).mp hj).2).2⟩

/-- Neighbours have each other as neighbours. -/
theorem Valid.adjacent_symm (h : t.Valid) (hj : j ∈ t.adjacentOf i) : i ∈ t.adjacentOf j := by
  obtain ⟨hne, hjoins⟩ := (h.mem_adjacent i j).mp hj
  exact (h.mem_adjacent j i).mpr ⟨hne.symm, hjoins.symm⟩

/-- The identifier at a position is known and leads back to it. -/
theorem Valid.require_eq (h : t.Valid) (hid : t.ids[i]? = some id) : t.require id = .ok i := by
  rw [require, indexOf?, (h.index id i).mpr hid]

/-- A vertex that exists has an identifier. -/
theorem idsAt_cons (t : Topology) (hi : i < t.vertexCount) (is : List VertexIndex) :
    ∃ id, t.ids[i]? = some id ∧ t.idsAt (i :: is) = id :: t.idsAt is := by
  have hid : t.ids[i]? = some t.ids[i] := Array.getElem?_eq_getElem hi
  refine ⟨_, hid, ?_⟩
  rw [idsAt, List.filterMap_cons, idAt?, hid]
  rfl

/-- The position of a known identifier is that of a vertex. -/
theorem Valid.require_lt (h : t.Valid) (hid : t.require id = .ok i) : i < t.vertexCount := by
  rw [require, indexOf?] at hid
  cases hi : t.index[id]? with
  | none => simp [hi] at hid
  | some i' =>
    obtain rfl : i' = i := by simpa [hi] using hid
    exact (Array.getElem?_eq_some_iff.mp ((h.index id i').mp hi)).1

/-- An edge that is accepted joins two positions that exist, in a direction in which none did. -/
theorem addEdge_eq_ok (h : t.Valid) {source target : VertexId} {e : EdgeIndex} {t' : Topology}
    (hr : t.addEdge source target = .ok (e, t')) :
    ∃ i j, i < t.vertexCount ∧ j < t.vertexCount ∧ t.edgeBetween? i j = none ∧
      t' = t.pushEdge i j := by
  rw [addEdge] at hr
  cases hs : t.require source with
  | error err => simp [hs] at hr
  | ok i =>
    cases ht : t.require target with
    | error err => simp [hs, ht] at hr
    | ok j =>
      simp only [hs, ht] at hr
      by_cases hdup : (t.edgeBetween? i j).isSome = true
      · simp [hdup] at hr
      · rw [if_neg hdup] at hr
        obtain ⟨-, rfl⟩ := Prod.mk.inj (Except.ok.inj hr)
        exact ⟨i, j, h.require_lt hs, h.require_lt ht, by simpa using hdup, rfl⟩

/-- The tables of a graph without vertices agree. -/
theorem Valid.empty : ({} : Topology).Valid where
  index id i := by simp
  edgeIndex x e := by simp
  bounds x e hx := by simp at hx
  outgoing := ⟨rfl, by simp, by simp⟩
  incoming := ⟨rfl, by simp, by simp⟩
  adjacent_size := rfl
  mem_adjacent i j := by simp [adjacentOf, Joins]
  adjacent_ascending i := by simp [adjacentOf]

end Topology

namespace Store

variable {V E : Type} {g g' : Store V E}

/-- The tables of the graph agree, and there is one cell for each vertex and each edge. -/
structure Valid (g : Store V E) : Prop where
  topology : g.topology.Valid
  vertices_size : g.cells.vertices.size = g.vertexCount
  edges_size : g.cells.edges.size = g.edgeCount

namespace Valid

theorem empty : ({} : Store V E).Valid := ⟨.empty, rfl, rfl⟩

theorem resize (h : g.Valid) {n : Nat} (hr : g.resize n = .ok g') : g'.Valid := by
  rw [Store.resize] at hr
  split at hr
  · cases hr
  · split at hr
    · cases hr
    · split at hr
      · exact Except.ok.inj hr ▸ h
      · cases hr

theorem addVertex (h : g.Valid) {id : VertexId} {data : V} {i : VertexIndex}
    (hr : g.addVertex id data = .ok (i, g')) : g'.Valid := by
  rw [Store.addVertex, Topology.addVertex] at hr
  split at hr
  · cases hr
  · by_cases hid : (g.topology.indexOf? id).isSome = true
    · simp [hid] at hr
    · rw [if_neg hid] at hr
      obtain ⟨-, rfl⟩ := Prod.mk.inj (Except.ok.inj hr)
      refine ⟨h.topology.pushVertex (by simpa using hid), ?_, h.edges_size⟩
      have := h.vertices_size
      simp_all [vertexCount, Topology.vertexCount, Topology.pushVertex]

theorem addEdge (h : g.Valid) {source target : VertexId} {data : E} {e : EdgeIndex}
    (hr : g.addEdge source target data = .ok (e, g')) : g'.Valid := by
  rw [Store.addEdge] at hr
  split at hr
  · cases hr
  · cases ht : g.topology.addEdge source target with
    | error err => simp [ht] at hr
    | ok grown =>
      obtain ⟨e', topology⟩ := grown
      rw [ht] at hr
      obtain ⟨-, rfl⟩ := Prod.mk.inj (Except.ok.inj hr)
      obtain ⟨i, j, hi, hj, hnew, rfl⟩ := Topology.addEdge_eq_ok h.topology ht
      refine ⟨h.topology.pushEdge hi hj hnew, h.vertices_size, ?_⟩
      have := h.edges_size
      simp_all [edgeCount, Topology.edgeCount, Topology.pushEdge]

/-- A fold of insertions keeps a store valid if each insertion does. -/
private theorem foldlM {α : Type} {insert : Store V E → α → Except Error (Store V E)} {l : List α}
    (hinsert : ∀ {g g' : Store V E} (a : α), g.Valid → insert g a = .ok g' → g'.Valid) (h : g.Valid)
    (hr : l.foldlM insert g = .ok g') : g'.Valid := by
  induction l generalizing g with
  | nil => exact Except.ok.inj hr ▸ h
  | cons a l ih =>
    rw [List.foldlM_cons] at hr
    cases hg : insert g a with
    | error e => simp [hg, bind, Except.bind] at hr
    | ok g₁ =>
      rw [hg] at hr
      exact ih (hinsert a h hg) hr

/-- The store after an insertion, without the position. -/
private theorem of_map {α : Type} {r : Except Error (α × Store V E)} (hr : (·.2) <$> r = .ok g') :
    ∃ a, r = .ok (a, g') := by
  cases r with
  | error e => cases hr
  | ok x => exact ⟨x.1, congrArg Except.ok (Prod.ext rfl (Except.ok.inj hr))⟩

theorem insertChecked (h : g.Valid) {vertices : List (VertexId × V)}
    {edges : List (VertexId × VertexId × E)} (hr : g.insertChecked vertices edges = .ok g') :
    g'.Valid := by
  rw [Store.insertChecked] at hr
  cases hv : vertices.foldlM (fun g (x : VertexId × V) => (·.2) <$> g.addVertex x.1 x.2) g with
  | error e =>
    simp only [hv] at hr
    cases hr
  | ok filled =>
    simp only [hv] at hr
    refine foldlM (fun x hg hr => ?_) (foldlM (fun x hg hr => ?_) h hv) hr
    · obtain ⟨i, hr⟩ := of_map hr
      exact hg.addEdge hr
    · obtain ⟨i, hr⟩ := of_map hr
      exact hg.addVertex hr

theorem load (h : g.Valid) {d : Description V E} (hr : g.load d = .ok g') : g'.Valid := by
  rw [Store.load] at hr
  split at hr
  · cases hr
  · split at hr
    · cases hr
    · cases hv : Description.checkVertices ⟨g.topology, ∅⟩ d.vertices with
      | error e =>
        rw [hv] at hr
        cases hr
      | ok checked =>
        obtain ⟨vertices, known⟩ := checked
        rw [hv] at hr
        cases he : Description.checkEdges known ∅ d.edges with
        | error e =>
          change (Description.checkEdges known ∅ d.edges >>= _) = _ at hr
          rw [he] at hr
          cases hr
        | ok edges =>
          change (Description.checkEdges known ∅ d.edges >>= _) = _ at hr
          rw [he] at hr
          exact h.insertChecked hr

theorem freeze (h : g.Valid) : g.freeze.Valid := ⟨h.topology, h.vertices_size, h.edges_size⟩

/-- Data of the same extent can take the place of that of a valid store. -/
theorem withCells (h : g.Valid) {cells : Cells V E}
    (hv : cells.vertices.size = g.cells.vertices.size)
    (he : cells.edges.size = g.cells.edges.size) : ({ g with cells } : Store V E).Valid :=
  ⟨h.topology, hv.trans h.vertices_size, he.trans h.edges_size⟩

theorem writeVertex (h : g.Valid) {i : VertexIndex} {data : V}
    (hr : g.writeVertex? i data = some g') : g'.Valid := by
  rw [writeVertex?] at hr
  split at hr
  · exact Option.some.inj hr ▸ h.withCells (Array.size_setIfInBounds ..) rfl
  · cases hr

theorem writeEdge (h : g.Valid) {e : EdgeIndex} {data : E} (hr : g.writeEdge? e data = some g') :
    g'.Valid := by
  rw [writeEdge?] at hr
  split at hr
  · exact Option.some.inj hr ▸ h.withCells rfl (Array.size_setIfInBounds ..)
  · cases hr

end Valid

/-- The store can be built by operations on an empty one; an operation that is refused has no
effect. -/
inductive Built : Store V E → Prop
  | empty : Built {}
  | resize {g g' : Store V E} (h : Built g) {n : Nat} (hr : g.resize n = .ok g') : Built g'
  | addVertex {g g' : Store V E} (h : Built g) {id : VertexId} {data : V} {i : VertexIndex}
      (hr : g.addVertex id data = .ok (i, g')) : Built g'
  | addEdge {g g' : Store V E} (h : Built g) {source target : VertexId} {data : E} {e : EdgeIndex}
      (hr : g.addEdge source target data = .ok (e, g')) : Built g'
  | load {g g' : Store V E} (h : Built g) {d : Description V E} (hr : g.load d = .ok g') : Built g'
  | freeze {g : Store V E} (h : Built g) : Built g.freeze
  | writeVertex {g g' : Store V E} (h : Built g) {i : VertexIndex} {data : V}
      (hr : g.writeVertex? i data = some g') : Built g'
  | writeEdge {g g' : Store V E} (h : Built g) {e : EdgeIndex} {data : E}
      (hr : g.writeEdge? e data = some g') : Built g'

/-- The tables of every store that the operations build agree. -/
theorem Built.valid (h : g.Built) : g.Valid := by
  induction h with
  | empty => exact .empty
  | resize _ hr ih => exact ih.resize hr
  | addVertex _ hr ih => exact ih.addVertex hr
  | addEdge _ hr ih => exact ih.addEdge hr
  | load _ hr ih => exact ih.load hr
  | freeze _ ih => exact ih.freeze
  | writeVertex _ hr ih => exact ih.writeVertex hr
  | writeEdge _ hr ih => exact ih.writeEdge hr

section Growing

variable {t : Topology} {vertices : Array V} {edges : Array E}

/-- A vertex under a new identifier is accepted. -/
theorem Built.pushVertex (h : (Store.mk t ⟨vertices, edges⟩ false).Built) (id : VertexId)
    (hid : t.indexOf? id = none) (data : V) :
    (Store.mk (t.pushVertex id) ⟨vertices.push data, edges⟩ false).Built := by
  refine h.addVertex (?_ : Store.addVertex _ id data = .ok (t.vertexCount, _))
  simp [Store.addVertex, Topology.addVertex, hid]

/-- An edge between known vertices is accepted in a direction in which there is none. -/
theorem Built.pushEdge (h : (Store.mk t ⟨vertices, edges⟩ false).Built) {source target : VertexId}
    {i j : VertexIndex} (hi : t.require source = .ok i) (hj : t.require target = .ok j)
    (hnew : t.edgeBetween? i j = none) (data : E) :
    (Store.mk (t.pushEdge i j) ⟨vertices, edges.push data⟩ false).Built := by
  refine h.addEdge (?_ : Store.addEdge _ source target data = .ok (t.edgeCount, _))
  simp [Store.addEdge, Topology.addEdge, hi, hj, hnew]

end Growing

/-- Three vertices in a row, with an edge to the middle one from either end. -/
def row (x y z : V) (d e : E) : Store V E where
  topology := ((((({} : Topology).pushVertex 0).pushVertex 1).pushVertex 2).pushEdge 0 1).pushEdge 2
    1
  cells := ⟨#[x, y, z], #[d, e]⟩

/-- The row of three vertices can be built. -/
theorem row_built (x y z : V) (d e : E) : (row x y z d e).Built := by
  let t : Topology := ((({} : Topology).pushVertex 0).pushVertex 1).pushVertex 2
  have hvertices : (Store.mk t ⟨#[x, y, z], #[]⟩ false : Store V E).Built :=
    ((Built.empty.pushVertex 0 (by simp [Topology.indexOf?]) x).pushVertex 1
      (by simp [Topology.indexOf?, Topology.pushVertex]) y).pushVertex 2
      (by simp [Topology.indexOf?, Topology.pushVertex]) z
  have ht := hvertices.valid.topology
  have hdown := hvertices.pushEdge (ht.require_eq (i := 0) rfl) (ht.require_eq (i := 1) rfl)
    (by simp [t, Topology.edgeBetween?, Topology.pushVertex]) d
  have ht := hdown.valid.topology
  exact hdown.pushEdge (ht.require_eq (i := 2) rfl) (ht.require_eq (i := 1) rfl)
    (by simp [t, Topology.edgeBetween?, Topology.pushVertex, Topology.pushEdge]) e

end Store

end VertexPrograms

import Mathlib.Data.List.Sort
import VertexPrograms.Proofs.Graph.Representation

/-!
# The outline of a graph

An outline is what a graph comes to when nothing is kept for speed: its identifiers and its edges in
two lists, and a search of them for every question. The tables of every graph that the operations of
the store build give the answers that a search gives, for every identifier and every position.
-/

namespace VertexPrograms

/-- A graph as two lists. -/
structure Outline where
  /-- Identifiers in insertion order. -/
  ids : List VertexId
  /-- Source and target of each edge, in insertion order. -/
  edges : List (VertexIndex × VertexIndex)

namespace Outline

/-- The position of an identifier. -/
def indexOf? (o : Outline) (id : VertexId) : Option VertexIndex := o.ids.idxOf? id

/-- The edge from one position to another. -/
def edgeBetween? (o : Outline) (source target : VertexIndex) : Option EdgeIndex :=
  o.edges.idxOf? (source, target)

/-- The edge from one identifier to another. -/
def findEdge? (o : Outline) (source target : VertexId) : Option EdgeIndex := do
  o.edgeBetween? (← o.indexOf? source) (← o.indexOf? target)

/-- The edges whose ends have a property, in insertion order. -/
def edgesWhere (o : Outline) (p : VertexIndex × VertexIndex → Bool) : List EdgeIndex :=
  (List.range o.edges.length).filter fun e => (o.edges[e]?).any p

/-- Whether an edge joins two positions, in one direction or the other. -/
def joins (o : Outline) (i j : VertexIndex) : Bool :=
  o.edges.contains (i, j) || o.edges.contains (j, i)

/-- The other positions to which an edge joins one, ascending. -/
def adjacentOf (o : Outline) (i : VertexIndex) : List VertexIndex :=
  (List.range o.ids.length).filter fun j => j != i && o.joins i j

/-- The identifiers at those of the positions that exist. -/
def idsAt (o : Outline) (is : List VertexIndex) : List VertexId := is.filterMap fun i => o.ids[i]?

/-- Where the edges that leave a vertex lead. -/
def targetsOf (o : Outline) (i : VertexIndex) : List VertexId :=
  o.idsAt ((o.edges.filter (·.1 == i)).map (·.2))

/-- Where the edges that enter a vertex come from. -/
def sourcesOf (o : Outline) (i : VertexIndex) : List VertexId :=
  o.idsAt ((o.edges.filter (·.2 == i)).map (·.1))

/-- The identifiers of the neighbours of a vertex. -/
def neighboursOf (o : Outline) (i : VertexIndex) : List VertexId := o.idsAt (o.adjacentOf i)

/-- The number of edge ends at a vertex. -/
def degree (o : Outline) (i : VertexIndex) : Nat :=
  o.edges.countP (·.1 == i) + o.edges.countP (·.2 == i)

/-- The counts of a graph. -/
def stats (o : Outline) (frozen : Bool) : Stats where
  vertexCount := o.ids.length
  edgeCount := o.edges.length
  maxDegree := ((List.range o.ids.length).map o.degree).foldl max 0
  isolated := (List.range o.ids.length).countP fun i => !o.edges.any fun x => x.1 == i || x.2 == i
  frozen

variable {o : Outline} {p : VertexIndex × VertexIndex → Bool}

/-- The positions of edges with a property. -/
theorem mem_edgesWhere {e : EdgeIndex} : e ∈ o.edgesWhere p ↔ ∃ x, o.edges[e]? = some x ∧
    p x = true := by
  rw [edgesWhere, List.mem_filter, List.mem_range]
  constructor
  · rintro ⟨-, h⟩
    exact (Option.any_eq_true ..).mp h
  · rintro ⟨x, hx, hp⟩
    exact ⟨(List.getElem?_eq_some_iff.mp hx).1, (Option.any_eq_true ..).mpr ⟨x, hx, hp⟩⟩

/-- They ascend. -/
theorem ascending_edgesWhere : (o.edgesWhere p).Pairwise (· < ·) := List.pairwise_lt_range.filter _

/-- The ends of those edges. -/
theorem filterMap_edgesWhere :
    (o.edgesWhere p).filterMap (fun e => o.edges[e]?) = o.edges.filter p := by
  have hall (l : List (VertexIndex × VertexIndex)) :
      (List.range l.length).filterMap (fun e => l[e]?) = l := by
    induction l with
    | nil => rfl
    | cons x l ih =>
      rw [List.length_cons, List.range_succ_eq_map, List.filterMap_cons]
      simpa [List.filterMap_map] using ih
  have hfilter (es : List EdgeIndex) :
      (es.filter fun e => (o.edges[e]?).any p).filterMap (fun e => o.edges[e]?) =
        (es.filterMap fun e => o.edges[e]?).filter p := by
    rw [List.filterMap_filter, List.filter_filterMap]
    refine congrArg (List.filterMap · es) (funext fun e => ?_)
    cases o.edges[e]? <;> rfl
  rw [edgesWhere, hfilter, hall]

/-- There are as many of them as edges with the property. -/
theorem length_edgesWhere : (o.edgesWhere p).length = o.edges.countP p := by
  have hsome : ∀ e ∈ o.edgesWhere p, (o.edges[e]?).isSome = true := fun e he => by
    obtain ⟨x, hx, -⟩ := mem_edgesWhere.mp he
    rw [hx, Option.isSome_some]
  rw [List.countP_eq_length_filter, ← filterMap_edgesWhere, List.length_filterMap_eq_countP,
    List.countP_eq_length.mpr hsome]

/-- Two vertices are joined by an edge in either direction. -/
theorem joins_iff {i j : VertexIndex} : o.joins i j = true ↔ (i, j) ∈ o.edges ∨
    (j, i) ∈ o.edges := by
  rw [joins, Bool.or_eq_true, List.contains_iff_mem, List.contains_iff_mem]

end Outline

/-- The first place of an element is where a table says it is, if the table knows every place. -/
private theorem eq_idxOf? {α : Type} [BEq α] [LawfulBEq α] {l : List α} {a : α} {found : Option Nat}
    (h : ∀ i, found = some i ↔ l[i]? = some a) : found = l.idxOf? a := by
  refine Option.ext fun i => (h i).trans ?_
  rw [List.idxOf?_eq_some_iff, List.getElem?_eq_some_iff]
  constructor
  · rintro ⟨hi, ha⟩
    refine ⟨hi, ha, fun j hj hja => ?_⟩
    have hi' : found = some i := (h i).mpr (List.getElem?_eq_some_iff.mpr ⟨hi, ha⟩)
    have hj' : found = some j := (h j).mpr (List.getElem?_eq_some_iff.mpr ⟨_, hja⟩)
    exact Nat.ne_of_lt hj (Option.some.inj (hj'.symm.trans hi'))
  · rintro ⟨hi, ha, -⟩
    exact ⟨hi, ha⟩

/-- A list in which every element has one place has no element twice. -/
private theorem nodup_of_places {α : Type} {l : List α} (place : α → Option Nat)
    (h : ∀ a i, l[i]? = some a → place a = some i) : l.Nodup := by
  rw [List.nodup_iff_getElem?_ne_getElem?]
  intro i j hij hj heq
  have hi := h _ i (List.getElem?_eq_getElem (Nat.lt_trans hij hj))
  have hj' := h _ j (heq ▸ List.getElem?_eq_getElem (Nat.lt_trans hij hj))
  exact Nat.ne_of_lt hij (Option.some.inj (hi.symm.trans hj'))

namespace Topology

variable {t : Topology} {i j : VertexIndex}

/-- A graph without its tables. -/
def outline (t : Topology) : Outline := ⟨t.ids.toList, t.edges.toList⟩

theorem idAt?_eq (t : Topology) (i : VertexIndex) : t.idAt? i = t.outline.ids[i]? :=
  Array.getElem?_toList.symm

theorem idsAt_eq (t : Topology) (is : List VertexIndex) : t.idsAt is = t.outline.idsAt is :=
  congrArg (List.filterMap · is) (funext t.idAt?_eq)

theorem endpoints?_eq (t : Topology) (e : EdgeIndex) : t.endpoints? e = t.outline.edges[e]? :=
  Array.getElem?_toList.symm

/-- Vertices are joined exactly as in the outline. -/
theorem joins_outline : t.outline.joins i j = true ↔ t.Joins i j := by
  rw [Outline.joins_iff, List.mem_iff_getElem?, List.mem_iff_getElem?, ← exists_or]
  simp [outline, Joins]

namespace Valid

/-- No two vertices have the same identifier. -/
theorem nodup_ids (h : t.Valid) : t.ids.toList.Nodup :=
  nodup_of_places t.indexOf? fun id i hi => (h.index id i).mpr (by simpa using hi)

/-- No two edges have the same ends in the same order. -/
theorem nodup_edges (h : t.Valid) : t.edges.toList.Nodup :=
  nodup_of_places (fun x => t.edgeIndex[x]?) fun x e he => (h.edgeIndex x e).mpr (by simpa using he)

/-- Identifiers are found as in the outline. -/
theorem indexOf?_eq (h : t.Valid) (id : VertexId) : t.indexOf? id = t.outline.indexOf? id :=
  eq_idxOf? fun i => (h.index id i).trans (by simp [outline])

theorem edgeBetween?_eq (h : t.Valid) (i j : VertexIndex) :
    t.edgeBetween? i j = t.outline.edgeBetween? i j :=
  eq_idxOf? fun e => (h.edgeIndex (i, j) e).trans (by simp [outline])

theorem findEdge?_eq (h : t.Valid) (source target : VertexId) :
    t.findEdge? source target = t.outline.findEdge? source target := by
  simp only [findEdge?, Outline.findEdge?, h.indexOf?_eq, h.edgeBetween?_eq]

/-- A row lists what a search of all edges finds. -/
private theorem rows_eq {side : VertexIndex × VertexIndex → VertexIndex}
    {rows : Array (Array EdgeIndex)} (h : Rows t.edges t.vertexCount side rows) (i : VertexIndex) :
    ((rows[i]?).getD #[]).toList = t.outline.edgesWhere fun x => side x == i := by
  refine (h.ascending i).eq_of_mem_iff Outline.ascending_edgesWhere fun e => ?_
  rw [h.mem, Outline.mem_edgesWhere]
  simp [outline]

theorem outgoingOf_eq (h : t.Valid) (i : VertexIndex) :
    t.outgoingOf i = t.outline.edgesWhere (·.1 == i) := rows_eq h.outgoing i

theorem incomingOf_eq (h : t.Valid) (i : VertexIndex) :
    t.incomingOf i = t.outline.edgesWhere (·.2 == i) := rows_eq h.incoming i

/-- The neighbours of a vertex, by position, are those in the outline. -/
theorem adjacentOf_eq (h : t.Valid) (i : VertexIndex) :
    t.adjacentOf i = t.outline.adjacentOf i := by
  refine (h.adjacent_ascending i).eq_of_mem_iff (List.pairwise_lt_range.filter _) fun j => ?_
  rw [h.mem_adjacent, Outline.adjacentOf, List.mem_filter, List.mem_range, Bool.and_eq_true,
    joins_outline, bne_iff_ne]
  exact ⟨fun hj => ⟨(h.joins_lt hj.2).2, hj⟩, fun hj => hj.2⟩

/-- The ends of the edges in a row, on the other side. -/
private theorem ends_eq (p : VertexIndex × VertexIndex → Bool)
    (side : VertexIndex × VertexIndex → VertexIndex) :
    (t.outline.edgesWhere p).filterMap (fun e => (t.endpoints? e).map side) =
      (t.outline.edges.filter p).map side := by
  rw [← Outline.filterMap_edgesWhere, List.map_filterMap]
  simp [outline, endpoints?]

theorem targetsOf_eq (h : t.Valid) (i : VertexIndex) : t.targetsOf i = t.outline.targetsOf i := by
  rw [targetsOf, h.outgoingOf_eq, ends_eq, idsAt_eq]
  rfl

theorem sourcesOf_eq (h : t.Valid) (i : VertexIndex) : t.sourcesOf i = t.outline.sourcesOf i := by
  rw [sourcesOf, h.incomingOf_eq, ends_eq, idsAt_eq]
  rfl

theorem neighboursOf_eq (h : t.Valid) (i : VertexIndex) :
    t.neighboursOf i = t.outline.neighboursOf i := by
  rw [neighboursOf, h.adjacentOf_eq, idsAt_eq]
  rfl

theorem degree_eq (h : t.Valid) (i : VertexIndex) : t.degree i = t.outline.degree i := by
  rw [degree, h.outgoingOf_eq, h.incomingOf_eq, Outline.length_edgesWhere,
    Outline.length_edgesWhere]
  rfl

/-- Rows of the same size with the same content are the same. -/
private theorem eq_of_rows {rows rows' : Array (Array EdgeIndex)} (hsize : rows.size = rows'.size)
    (h : ∀ i : VertexIndex, ((rows[i]?).getD #[]).toList = ((rows'[i]?).getD #[]).toList) :
    rows = rows' := by
  refine Array.ext hsize fun i hi hi' => Array.toList_inj.mp ?_
  simpa [hi, hi'] using h i

/-- The tables are determined by the identifiers and the edges. -/
theorem eq_of_outline {t' : Topology} (h : t.Valid) (h' : t'.Valid)
    (hsame : t.outline = t'.outline) : t = t' := by
  obtain ⟨hids, hedges⟩ := Outline.mk.injEq .. ▸ hsame
  have hids : t.ids = t'.ids := Array.toList_inj.mp hids
  have hedges : t.edges = t'.edges := Array.toList_inj.mp hedges
  have hcount : t.vertexCount = t'.vertexCount := congrArg Array.size hids
  have hindex : t.index = t'.index := Std.ExtHashMap.ext_getElem? fun id => Option.ext fun i => by
    rw [h.index, h'.index, hids]
  have hedgeIndex : t.edgeIndex = t'.edgeIndex := Std.ExtHashMap.ext_getElem? fun x =>
    Option.ext fun e => by
    rw [h.edgeIndex, h'.edgeIndex, hedges]
  have houtgoing : t.outgoing = t'.outgoing := by
    refine eq_of_rows (h.outgoing.size.trans (hcount.trans h'.outgoing.size.symm)) fun i => ?_
    exact (h.outgoingOf_eq i).trans (hsame ▸ (h'.outgoingOf_eq i).symm)
  have hincoming : t.incoming = t'.incoming := by
    refine eq_of_rows (h.incoming.size.trans (hcount.trans h'.incoming.size.symm)) fun i => ?_
    exact (h.incomingOf_eq i).trans (hsame ▸ (h'.incomingOf_eq i).symm)
  have hadjacent : t.adjacent = t'.adjacent := by
    refine Array.ext (h.adjacent_size.trans (hcount.trans h'.adjacent_size.symm)) fun i hi hi' => ?_
    have hi := (h.adjacentOf_eq i).trans (hsame ▸ (h'.adjacentOf_eq i).symm)
    simpa [adjacentOf, *] using hi
  cases t
  cases t'
  simp_all

end Valid

end Topology

/-- A vertex has no edge end if and only if no edge has it as an end. -/
theorem Outline.degree_eq_zero {o : Outline} {i : VertexIndex} :
    o.degree i = 0 ↔ (!o.edges.any fun x => x.1 == i || x.2 == i) = true := by
  rw [degree, Nat.add_eq_zero_iff, List.countP_eq_zero, List.countP_eq_zero, Bool.not_eq_true',
    List.any_eq_false]
  simp only [beq_iff_eq, Bool.or_eq_true, not_or]
  exact ⟨fun h x hx => ⟨h.1 x hx, h.2 x hx⟩, fun h => ⟨fun x hx => (h x hx).1, fun x hx =>
    (h x hx).2⟩⟩

namespace Store

variable {V E : Type} {g : Store V E}

/-- The statistics of a store are those of its outline. -/
theorem Valid.stats_eq (h : g.Valid) : g.stats = g.topology.outline.stats g.frozen := by
  have ht := h.topology
  have hdegrees : (List.range g.vertexCount).map g.topology.degree =
      (List.range g.topology.outline.ids.length).map g.topology.outline.degree := by
    rw [funext ht.degree_eq]
    rfl
  simp only [stats, Outline.stats, Stats.mk.injEq]
  refine ⟨rfl, rfl, by rw [hdegrees], ?_, trivial⟩
  rw [hdegrees, List.countP_map]
  refine List.countP_congr fun i _ => ?_
  rw [Function.comp_apply, decide_eq_true_eq]
  exact Outline.degree_eq_zero

/-- Every question about the shape of a graph has the answer that a search of the outline gives. -/
structure AnswersAs (g : Store V E) (o : Outline) : Prop where
  indexOf? : ∀ id, g.topology.indexOf? id = o.indexOf? id
  idAt? : ∀ i, g.topology.idAt? i = o.ids[i]?
  endpoints? : ∀ e, g.topology.endpoints? e = o.edges[e]?
  edgeBetween? : ∀ i j, g.topology.edgeBetween? i j = o.edgeBetween? i j
  findEdge? : ∀ source target, g.topology.findEdge? source target = o.findEdge? source target
  outgoingOf : ∀ i, g.topology.outgoingOf i = o.edgesWhere (·.1 == i)
  incomingOf : ∀ i, g.topology.incomingOf i = o.edgesWhere (·.2 == i)
  adjacentOf : ∀ i, g.topology.adjacentOf i = o.adjacentOf i
  targetsOf : ∀ i, g.topology.targetsOf i = o.targetsOf i
  sourcesOf : ∀ i, g.topology.sourcesOf i = o.sourcesOf i
  neighboursOf : ∀ i, g.topology.neighboursOf i = o.neighboursOf i
  stats : g.stats = o.stats g.frozen

/-- A valid store answers as its outline does. -/
theorem Valid.answersAs (h : g.Valid) : g.AnswersAs g.topology.outline where
  indexOf? := h.topology.indexOf?_eq
  idAt? := g.topology.idAt?_eq
  endpoints? := g.topology.endpoints?_eq
  edgeBetween? := h.topology.edgeBetween?_eq
  findEdge? := h.topology.findEdge?_eq
  outgoingOf := h.topology.outgoingOf_eq
  incomingOf := h.topology.incomingOf_eq
  adjacentOf := h.topology.adjacentOf_eq
  targetsOf := h.topology.targetsOf_eq
  sourcesOf := h.topology.sourcesOf_eq
  neighboursOf := h.topology.neighboursOf_eq
  stats := h.stats_eq

/-- In every store that the operations build, however they are mixed, the tables agree with the
lists of identifiers and edges: identifiers are distinct and known by their positions, edges are
distinct and known by their ends, a row has in order the edges that leave or enter its vertex, and
the neighbours of a vertex, in order, are the other vertices to which an edge joins it, so that it
is one of theirs. Hence all questions have the answers that a search of the two lists gives. -/
theorem Built.representation (h : g.Built) :
    g.Valid ∧ g.topology.ids.toList.Nodup ∧ g.topology.edges.toList.Nodup ∧
      (∀ i j, j ∈ g.topology.adjacentOf i → i ∈ g.topology.adjacentOf j) ∧
        g.AnswersAs g.topology.outline :=
  ⟨h.valid, h.valid.topology.nodup_ids, h.valid.topology.nodup_edges,
    fun _ _ => h.valid.topology.adjacent_symm, h.valid.answersAs⟩

theorem Built.representation_row : (row 10 20 30 1 2 : Store Nat Nat).Built ∧
    (row 10 20 30 1 2 : Store Nat Nat).AnswersAs ⟨[0, 1, 2], [(0, 1), (2, 1)]⟩ :=
  ⟨row_built .., (row_built 10 20 30 1 2).representation.2.2.2.2⟩

end Store

end VertexPrograms

import VertexPrograms.Proofs.Graph.Loading

/-!
# A store is rebuilt from its listing

A listing names the vertices of a store and its edges by identifier, each in insertion order. It
does not tell how the insertions of vertices and of edges were mixed when the store was built, and
nothing depends on it: loaded into an empty store, it gives the same identifiers, edges and data at
the same positions, and these determine all tables.
-/

namespace VertexPrograms

/-- An identifier is read back from its number. -/
theorem VertexId.ofRaw_toNat (id : VertexId) : VertexId.ofRaw (id.toNat : Int) = .ok id := by
  have hlt : (id.toNat : Int) < 0x100000000 := by
    have := id.toNat_lt
    omega
  have hfound : VertexId.ofRaw? (id.toNat : Int) = some id := by
    rw [VertexId.ofRaw?, if_pos ⟨Int.natCast_nonneg _, hlt⟩, Int.toNat_natCast, UInt32.ofNat_toNat]
  rw [VertexId.ofRaw, hfound]

/-- In a row without repetitions nothing has come before. -/
theorem not_mem_map_before {α β : Type} {f : α → β} {l done : List α} {a : α} (hl : (l.map f).Nodup)
    (h : done ++ [a] <+: l) : f a ∉ done.map f := by
  have hprefix : ((done ++ [a]).map f).Nodup := hl.sublist (h.map f).sublist
  rw [List.map_append, List.nodup_append] at hprefix
  exact fun hmem => hprefix.2.2 (f a) hmem (f a) (by simp) rfl

namespace InPlace

/-- If each of several pieces of code succeeds after those before it, they succeed one after
another. -/
theorem exists_on_forM {α σ : Type} {R : List α → σ → Prop} {f : α → InPlace σ Unit}
    {l : List α} {s : σ} (hstep : ∀ (done : List α) (a : α), done ++ [a] <+: l → ∀ s, R done s →
      ∃ s', (f a).on s = (.ok (), s') ∧ R (done ++ [a]) s')
    (h : R [] s) : ∃ s', (forM l f).on s = (.ok (), s') ∧ R l s' := by
  induction l using List.reverseRecOn with
  | nil => exact ⟨s, rfl, h⟩
  | append_singleton l a ih =>
    obtain ⟨s₁, hl, h₁⟩ := ih fun done b hb => hstep done b (hb.trans (List.prefix_append l [a]))
    obtain ⟨s₂, ha, h₂⟩ := hstep l a List.prefix_rfl s₁ h₁
    refine ⟨s₂, ?_, h₂⟩
    rw [List.forM_append, on_bind, hl]
    simp [ha]

end InPlace

namespace Store

variable {V E : Type} {g g' : Store V E} {o : Outline} {vertices : List V} {edges : List E}

/-! # Stores by what they consist of -/

/-- The store is open and consists of the given vertices and edges with the given data. -/
structure Consists (g : Store V E) (o : Outline) (vertices : List V) (edges : List E) : Prop where
  valid : g.Valid
  isOpen : g.frozen = false
  outline : g.topology.outline = o
  cells : g.cells = ⟨vertices.toArray, edges.toArray⟩

namespace Consists

theorem empty : ({} : Store V E).Consists ⟨[], []⟩ [] [] := ⟨.empty, rfl, rfl, rfl⟩

/-- A store is determined by what it consists of. -/
theorem unique (h : g.Consists o vertices edges) (h' : g'.Consists o vertices edges) : g = g' := by
  have htopology :=
    h.valid.topology.eq_of_outline h'.valid.topology (h.outline.trans h'.outline.symm)
  have hcells := h.cells.trans h'.cells.symm
  have hopen := h.isOpen.trans h'.isOpen.symm
  cases g
  cases g'
  simp_all

/-- A listed identifier is found at its position. -/
theorem require_eq (h : g.Consists o vertices edges) {i : VertexIndex} {id : VertexId}
    (hid : o.ids[i]? = some id) : g.topology.require id = .ok i := by
  refine h.valid.topology.require_eq ?_
  rw [← h.outline] at hid
  simpa [Topology.outline] using hid

/-- A vertex under a new identifier becomes the last one. -/
theorem addVertex (h : g.Consists o vertices edges) {id : VertexId} (hid : id ∉ o.ids) (data : V) :
    ∃ i g', g.addVertex id data = .ok (i, g') ∧
      g'.Consists ⟨o.ids ++ [id], o.edges⟩ (vertices ++ [data]) edges := by
  have hnone : g.topology.indexOf? id = none := by
    rw [h.valid.topology.indexOf?_eq, h.outline, Outline.indexOf?]
    exact List.idxOf?_eq_none_iff.mpr hid
  have hadd : g.addVertex id data = .ok (g.topology.vertexCount, { g with
      topology := g.topology.pushVertex id
      cells := { g.cells with vertices := g.cells.vertices.push data } }) := by
    simp [Store.addVertex, Topology.addVertex, h.isOpen, hnone]
  refine ⟨_, _, hadd, h.valid.addVertex hadd, h.isOpen, ?_, by simp [h.cells]⟩
  rw [← h.outline]
  simp [Topology.outline, Topology.pushVertex]

/-- An edge between known vertices, in a direction in which there was none, becomes the last one. -/
theorem addEdge (h : g.Consists o vertices edges) {source target : VertexId} {i j : VertexIndex}
    (hi : o.ids[i]? = some source) (hj : o.ids[j]? = some target) (hnew : (i, j) ∉ o.edges)
      (data : E) : ∃ e g', g.addEdge source target data = .ok (e, g') ∧
      g'.Consists ⟨o.ids, o.edges ++ [(i, j)]⟩ vertices (edges ++ [data]) := by
  have hnone : g.topology.edgeBetween? i j = none := by
    rw [h.valid.topology.edgeBetween?_eq, h.outline, Outline.edgeBetween?]
    exact List.idxOf?_eq_none_iff.mpr hnew
  have hadd : g.addEdge source target data = .ok (g.topology.edgeCount, { g with
      topology := g.topology.pushEdge i j
      cells := { g.cells with edges := g.cells.edges.push data } }) := by
    simp [Store.addEdge, Topology.addEdge, h.isOpen, h.require_eq hi, h.require_eq hj, hnone]
  refine ⟨_, _, hadd, h.valid.addEdge hadd, h.isOpen, ?_, by simp [h.cells]⟩
  rw [← h.outline]
  simp [Topology.outline, Topology.pushEdge]

end Consists

/-- A valid store consists of its own lists, but for the flag that its shape is final. -/
theorem Valid.consists (h : g.Valid) :
    ({ g with frozen := false } : Store V E).Consists g.topology.outline g.cells.vertices.toList
      g.cells.edges.toList :=
  ⟨⟨h.topology, h.vertices_size, h.edges_size⟩, rfl, rfl, rfl⟩

/-! # Listings -/

/-- The vertices and the edges of a store as a description, each in insertion order. -/
def listing (g : Store V E) : Description V E where
  vertices := g.vertexList.map fun (id, data) => (id.toNat, data)
  edges := g.edgeList.map fun (source, target, data) => (source.toNat, target.toNat, data)

/-- The listing names each end of an edge by the identifier at its position. -/
theorem Valid.edgeList_eq (h : g.Valid) : ∃ idOf : VertexIndex → VertexId,
    (∀ x ∈ g.topology.edges.toList, g.topology.idAt? x.1 = some (idOf x.1) ∧
      g.topology.idAt? x.2 = some (idOf x.2)) ∧
      g.edgeList = (g.topology.edges.toList.zip g.cells.edges.toList).map
        fun x => (idOf x.1.1, idOf x.1.2, x.2) := by
  let idOf (i : VertexIndex) : VertexId := (g.topology.idAt? i).getD 0
  have hidOf {i : VertexIndex} (hi : i < g.topology.vertexCount) :
      g.topology.idAt? i = some (idOf i) := by
    have hsome : g.topology.idAt? i = some g.topology.ids[i] := Array.getElem?_eq_getElem hi
    simp [idOf, hsome]
  have hends : ∀ x ∈ g.topology.edges.toList, g.topology.idAt? x.1 = some (idOf x.1) ∧
      g.topology.idAt? x.2 = some (idOf x.2) := by
    intro x hx
    obtain ⟨e, he⟩ := List.mem_iff_getElem?.mp hx
    have hbounds := h.topology.bounds x e (by simpa using he)
    exact ⟨hidOf hbounds.1, hidOf hbounds.2⟩
  refine ⟨idOf, hends, ?_⟩
  rw [edgeList, ← List.filterMap_eq_map]
  refine List.filterMap_congr fun x hx => ?_
  obtain ⟨hsource, htarget⟩ := hends x.1 (List.of_mem_zip hx).1
  simp [hsource, htarget]

/-- Every vertex is listed. -/
theorem Valid.length_vertexList (h : g.Valid) : g.vertexList.length = g.vertexCount := by
  simp [vertexList, h.vertices_size, vertexCount, Topology.vertexCount]

/-- Every edge is listed. -/
theorem Valid.length_edgeList (h : g.Valid) : g.edgeList.length = g.edgeCount := by
  obtain ⟨idOf, -, hlist⟩ := h.edgeList_eq
  simp [hlist, h.edges_size, edgeCount, Topology.edgeCount]

/-- Adding the vertices of a listing to an empty store gives a store that consists of them. -/
theorem Valid.on_listed_vertices (h : g.Valid) :
    ∃ g₁ : Store V E, (forM g.listing.vertices Editing.addRawVertex).on {} = (.ok (), g₁) ∧
      g₁.Consists ⟨g.topology.ids.toList, []⟩ g.cells.vertices.toList [] := by
  have hsize : g.topology.ids.toList.length = g.cells.vertices.toList.length := by
    simpa [vertexCount, Topology.vertexCount] using h.vertices_size.symm
  have hfst : g.vertexList.map (·.1) = g.topology.ids.toList := List.map_fst_zip hsize.le
  have hsnd : g.vertexList.map (·.2) = g.cells.vertices.toList := List.map_snd_zip hsize.ge
  have hnodup : (g.vertexList.map (·.1)).Nodup := hfst ▸ h.topology.nodup_ids
  rw [← hfst, ← hsnd, listing, List.forM_map]
  refine InPlace.exists_on_forM
    (R := fun (done : List (VertexId × V)) (g₁ : Store V E) =>
      g₁.Consists ⟨done.map (·.1), []⟩ (done.map (·.2)) []) (fun done x hx g₁ h₁ => ?_) .empty
  obtain ⟨id, data⟩ := x
  obtain ⟨i, g₂, hadd, h₂⟩ := h₁.addVertex (not_mem_map_before hnodup hx) data
  refine ⟨g₂, ?_, by simpa using h₂⟩
  simp [Editing.addRawVertex, VertexId.ofRaw_toNat, Editing.on_addVertex, hadd]

/-- Adding the edges of a listing afterwards gives a store that has them as well. -/
theorem Valid.on_listed_edges (h : g.Valid) {g₁ : Store V E}
    (h₁ : g₁.Consists ⟨g.topology.ids.toList, []⟩ g.cells.vertices.toList []) :
    ∃ g₂, (forM g.listing.edges Editing.addRawEdge).on g₁ = (.ok (), g₂) ∧
      g₂.Consists g.topology.outline g.cells.vertices.toList g.cells.edges.toList := by
  obtain ⟨idOf, hends, hlist⟩ := h.edgeList_eq
  let placed := g.topology.edges.toList.zip g.cells.edges.toList
  have hsize : g.topology.edges.toList.length = g.cells.edges.toList.length := by
    simpa [edgeCount, Topology.edgeCount] using h.edges_size.symm
  have hfst : placed.map (·.1) = g.topology.edges.toList := List.map_fst_zip hsize.le
  have hsnd : placed.map (·.2) = g.cells.edges.toList := List.map_snd_zip hsize.ge
  have hnodup : (placed.map (·.1)).Nodup := hfst ▸ h.topology.nodup_edges
  rw [Topology.outline, ← hfst, ← hsnd, listing, hlist, List.map_map, List.forM_map]
  refine InPlace.exists_on_forM
    (R := fun (done : List ((VertexIndex × VertexIndex) × E)) (g₁ : Store V E) =>
      g₁.Consists ⟨g.topology.ids.toList, done.map (·.1)⟩ g.cells.vertices.toList (done.map (·.2)))
    (fun done x hx g₁ h₁ => ?_) h₁
  obtain ⟨⟨i, j⟩, data⟩ := x
  have hmem : (i, j) ∈ g.topology.edges.toList :=
    hfst ▸ List.mem_map_of_mem (hx.subset (by simp) : ((i, j), data) ∈ placed)
  obtain ⟨hsource, htarget⟩ := hends (i, j) hmem
  rw [Topology.idAt?_eq] at hsource htarget
  obtain ⟨e, g₂, hadd, h₂⟩ := h₁.addEdge hsource htarget (not_mem_map_before hnodup hx) data
  refine ⟨g₂, ?_, by simpa using h₂⟩
  simp [Editing.addRawEdge, VertexId.ofRaw_toNat, Editing.on_addEdge, hadd]

/-- The listing of a store with a vertex is accepted by an empty store, which becomes the same but
is open. -/
theorem Valid.load_listed (h : g.Valid) (hn : 0 < g.vertexCount) :
    ({} : Store V E).load g.listing = .ok { g with frozen := false } := by
  obtain ⟨g₁, hvertices, h₁⟩ := h.on_listed_vertices
  obtain ⟨g₂, hedges, h₂⟩ := h.on_listed_edges h₁
  have hall : (Editing.addAll g.listing).on {} = (.ok (), g₂) := by
    rw [Editing.addAll, InPlace.on_bind, hvertices]
    exact hedges
  have hlisted : g.listing.vertices ≠ [] := by
    have hids : g.topology.ids.toList ≠ [] := by
      simpa [vertexCount, Topology.vertexCount, Nat.pos_iff_ne_zero] using hn
    have hdata : g.cells.vertices.toList ≠ [] := by
      rw [← h.vertices_size] at hn
      simpa [Nat.pos_iff_ne_zero] using hn
    simp [listing, vertexList, hids, hdata]
  have hforeseen := (Tracked.initial (Valid.empty (V := V) (E := E)) rfl).foreseen_all g.listing
  rw [load_eq rfl hlisted, ← h₂.unique h.consists]
  rw [hall] at hforeseen
  generalize g.listing.check _ = check at hforeseen
  cases hforeseen with
  | ends hchecked => exact hchecked.1

/-- The two stores answer every question in the same way; only whether the shape is final may
differ. -/
structure SameAnswers (g g' : Store V E) : Prop where
  ids : g.topology.ids = g'.topology.ids
  vertexCount : g.vertexCount = g'.vertexCount
  edgeCount : g.edgeCount = g'.edgeCount
  indexOf? : ∀ id, g.topology.indexOf? id = g'.topology.indexOf? id
  require : ∀ id, g.topology.require id = g'.topology.require id
  idAt? : ∀ i, g.topology.idAt? i = g'.topology.idAt? i
  findEdge? : ∀ source target, g.topology.findEdge? source target =
    g'.topology.findEdge? source target
  edgeBetween? : ∀ i j, g.topology.edgeBetween? i j = g'.topology.edgeBetween? i j
  endpoints? : ∀ e, g.topology.endpoints? e = g'.topology.endpoints? e
  outgoingOf : ∀ i, g.topology.outgoingOf i = g'.topology.outgoingOf i
  incomingOf : ∀ i, g.topology.incomingOf i = g'.topology.incomingOf i
  adjacentOf : ∀ i, g.topology.adjacentOf i = g'.topology.adjacentOf i
  targetsOf : ∀ i, g.topology.targetsOf i = g'.topology.targetsOf i
  sourcesOf : ∀ i, g.topology.sourcesOf i = g'.topology.sourcesOf i
  neighboursOf : ∀ i, g.topology.neighboursOf i = g'.topology.neighboursOf i
  vertexData : ∀ id, g.vertexData id = g'.vertexData id
  edgeData : ∀ source target, g.edgeData source target = g'.edgeData source target
  cells : g.cells = g'.cells
  stats : g.stats = { g'.stats with frozen := g.frozen }

/-- Whether a store is frozen does not change its answers. -/
theorem sameAnswers_open (g : Store V E) :
    ({ g with frozen := false } : Store V E).SameAnswers g := by
  constructor <;> intros <;> rfl

/-- However a store with at least one vertex has been built, its listing can be loaded into an empty
store, in place or with a new store as the answer, and gives the same store, except that it is open:
all tables are the same, and so is the answer to every question. -/
theorem Built.load_listing (h : g.Built) (hn : 0 < g.vertexCount) :
    ∃ g', ({} : Store V E).load g.listing = .ok g' ∧ (Editing.load g.listing).on {} = (.ok (), g') ∧
      g' = { g with frozen := false } ∧ g'.SameAnswers g := by
  have hload := h.valid.load_listed hn
  refine ⟨_, hload, ?_, rfl, g.sameAnswers_open⟩
  rw [Valid.empty.on_load, hload]
  rfl

theorem Built.load_listing_row :
    let g : Store Nat Nat := (row 10 20 30 1 2).freeze
    g.Built ∧ 0 < g.vertexCount ∧
      ∃ g', ({} : Store Nat Nat).load g.listing = .ok g' ∧
        (Editing.load g.listing).on {} = (.ok (), g') ∧ g' = { g with frozen := false } ∧
        g'.SameAnswers g :=
  ⟨(row_built ..).freeze, by decide, (row_built 10 20 30 1 2).freeze.load_listing (by decide)⟩

end Store

end VertexPrograms

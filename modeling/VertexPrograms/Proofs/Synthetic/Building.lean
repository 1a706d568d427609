import VertexPrograms.Proofs.Engine.Components
import VertexPrograms.Proofs.Graph.Listing
import VertexPrograms.Proofs.Synthetic.Shape
import VertexPrograms.Synthetic.Experiment

/-!
# Synthetic graphs are built

The numbers of the vertices are identifiers as long as there are at most `2 ^ 32` vertices, and no
operation is refused then, since no vertex and no edge is added twice.
-/

namespace VertexPrograms

/-- If each step of a fold succeeds after those before it, the fold does. -/
theorem exists_foldlM {α σ ε : Type} {R : List α → σ → Prop} {f : σ → α → Except ε σ}
    {l : List α} {s : σ} (hstep : ∀ (done : List α) (a : α), done ++ [a] <+: l → ∀ s, R done s →
      ∃ s', f s a = .ok s' ∧ R (done ++ [a]) s')
    (h : R [] s) : ∃ s', l.foldlM f s = .ok s' ∧ R l s' := by
  induction l using List.reverseRecOn with
  | nil => exact ⟨s, rfl, h⟩
  | append_singleton l a ih =>
    obtain ⟨s₁, hl, h₁⟩ := ih fun done b hb => hstep done b (hb.trans (List.prefix_append l [a]))
    obtain ⟨s₂, ha, h₂⟩ := hstep l a List.prefix_rfl s₁ h₁
    refine ⟨s₂, ?_, h₂⟩
    rw [List.foldlM_append, hl]
    simp [bind, Except.bind, pure, Except.pure, ha]

/-- A number below `2 ^ 32` is an identifier. -/
theorem VertexId.ofRaw_of_lt {v : Nat} (h : v < 2 ^ 32) :
    VertexId.ofRaw (v : Int) = .ok (UInt32.ofNat v) := by
  have hraw := VertexId.ofRaw_toNat (UInt32.ofNat v)
  rwa [UInt32.toNat_ofNat_of_lt' h] at hraw

/-- The identifiers of the first vertices differ. -/
theorem nodup_map_ofNat {n : Nat} (h : n ≤ 2 ^ 32) : ((List.range n).map UInt32.ofNat).Nodup := by
  refine List.nodup_range.map_on fun u hu v hv heq => ?_
  have hu : u < 2 ^ 32 := (List.mem_range.mp hu).trans_le h
  have hv : v < 2 ^ 32 := (List.mem_range.mp hv).trans_le h
  rw [← UInt32.toNat_ofNat_of_lt' hu, ← UInt32.toNat_ofNat_of_lt' hv, heq]

namespace Setting

variable {V : Type} {s : Setting}

/-- The vertices and edges of the graph. -/
def outline (s : Setting) : Outline :=
  ⟨(List.range s.vertexCount).map UInt32.ofNat, s.shape.edges s.size⟩

/-- The store has been built, and consists of the vertices, with data from their numbers, and the
edges. -/
structure Filled (s : Setting) (data : Nat → V) (g : Store V Unit) : Prop where
  built : g.Built
  consists : g.Consists s.outline ((List.range s.vertexCount).map data)
    ((s.shape.edges s.size).map fun _ => ())

/-- Adds the vertex with a number. -/
def addNumbered (data : Nat → V) (g : Store V Unit) (v : Nat) : Except Error (Store V Unit) := do
  (·.2) <$> g.addVertex (← VertexId.ofRaw v) (data v)

/-- Adds the edge between two vertices with numbers. -/
def joinNumbered (g : Store V Unit) (edge : Nat × Nat) : Except Error (Store V Unit) := do
  (·.2) <$> g.addEdge (← VertexId.ofRaw edge.1) (← VertexId.ofRaw edge.2) ()

/-- Adding the vertices to an empty store is not refused. -/
theorem exists_addNumbered (h : s.vertexCount ≤ 2 ^ 32) (data : Nat → V) : ∃ g,
    (List.range s.vertexCount).foldlM (addNumbered data) {} = .ok g ∧
      g.Built ∧ g.Consists ⟨s.outline.ids, []⟩ ((List.range s.vertexCount).map data) [] := by
  refine exists_foldlM
    (R := fun (done : List Nat) (g : Store V Unit) =>
      g.Built ∧ g.Consists ⟨done.map UInt32.ofNat, []⟩ (done.map data) [])
    (fun done v hv g ⟨hbuilt, hg⟩ => ?_) ⟨.empty, .empty⟩
  have hlt : v < s.vertexCount := List.mem_range.mp (hv.subset (by simp))
  have hnew := not_mem_map_before (nodup_map_ofNat h) hv
  obtain ⟨i, g', hadd, h'⟩ := hg.addVertex hnew (data v)
  refine ⟨g', ?_, hbuilt.addVertex hadd, by simpa using h'⟩
  simp only [addNumbered, VertexId.ofRaw_of_lt (hlt.trans_le h)]
  exact congrArg (Functor.map (·.2)) hadd

/-- Adding the edges afterwards is not refused either. -/
theorem exists_joinNumbered (h : s.vertexCount ≤ 2 ^ 32) {vertices : List V} {g : Store V Unit}
    (hbuilt : g.Built) (hg : g.Consists ⟨s.outline.ids, []⟩ vertices []) : ∃ g',
    (s.shape.edges s.size).foldlM joinNumbered g = .ok g' ∧
      g'.Built ∧ g'.Consists s.outline vertices ((s.shape.edges s.size).map fun _ => ()) := by
  refine exists_foldlM
    (R := fun (done : List (Nat × Nat)) (g : Store V Unit) =>
      g.Built ∧ g.Consists ⟨s.outline.ids, done⟩ vertices (done.map fun _ => ()))
    (fun done edge hedge g ⟨hbuilt, hg⟩ => ?_) ⟨hbuilt, hg⟩
  obtain ⟨source, target⟩ := edge
  have hmem : (source, target) ∈ s.shape.edges s.size := hedge.subset (by simp)
  obtain ⟨hsource, htarget, -⟩ := s.shape.bounds_of_mem hmem
  have hnew : (source, target) ∉ done := by
    have hnodup : ((s.shape.edges s.size).map id).Nodup := by simpa using s.shape.nodup_edges s.size
    simpa using not_mem_map_before hnodup hedge
  have hid {v : Nat} (hv : v < s.vertexCount) : s.outline.ids[v]? = some (UInt32.ofNat v) := by
    simp [outline, hv]
  obtain ⟨e, g', hadd, h'⟩ := hg.addEdge (hid hsource) (hid htarget) hnew ()
  refine ⟨g', ?_, hbuilt.addEdge hadd, by simpa using h'⟩
  simp only [joinNumbered, VertexId.ofRaw_of_lt (hsource.trans_le h),
    VertexId.ofRaw_of_lt (htarget.trans_le h)]
  exact congrArg (Functor.map (·.2)) hadd

/-! # Building in an engine -/

/-- The engine with another graph, now that it has been set up. -/
def withStore (e : SoleEngine V) (g : Store V Unit) : SoleEngine V :=
  { e with phase := e.phase.configure, store := g }

/-- An operation that sets something up in the graph does to the engine what is done to its graph.
-/
theorem perform_build (f : Store V Unit → Except Error (Store V Unit)) (e : SoleEngine V) :
    perform (Engine.Operation.build f) e = withStore e <$> f e.store := by
  rw [perform, Engine.Operation.build, Engine.Operation.setUp, Engine.Operation.change]
  cases f e.store <;> rfl

/-- Where an engine can be set up, no operation of the set-up is refused for its phase. -/
theorem perform_during {e : SoleEngine V} (h : e.phase.isSetup = true) (name : String)
    (op : Engine.Operation V Unit Unit Unit Unit) :
    perform (Engine.Operation.during name Phase.isSetup op) e = perform op e := by
  rw [perform, Engine.Operation.during, if_pos h, perform]

/-- The operations that build the graph one after another: its size is announced, and each vertex
and each edge is added. -/
def operations (s : Setting) (data : Nat → V) : List (Engine.Operation V Unit Unit Unit Unit) :=
  Engine.resize s.vertexCount :: ((List.range s.vertexCount).map (fun v : Nat =>
    Engine.addVertex v (data v)) ++
    (s.shape.edges s.size).map fun edge => Engine.addEdge edge.1 edge.2 ())

/-- Operations on the graphs of engines one after another, by what they do to the graphs. -/
theorem foldlM_perform {α : Type} {op : α → Engine.Operation V Unit Unit Unit Unit}
    {f : Store V Unit → α → Except Error (Store V Unit)} {e : SoleEngine V}
    (hop : ∀ g a, perform (op a) (withStore e g) = withStore e <$> f g a) (l : List α)
    (g : Store V Unit) : (l.map op).foldlM (fun e op => perform op e)
    (withStore e g) = withStore e <$> l.foldlM f g := by
  induction l generalizing g with
  | nil => rfl
  | cons a l ih =>
    rw [List.map_cons, List.foldlM_cons, List.foldlM_cons, hop]
    cases f g a with
    | error error => rfl
    | ok g' => exact ih g'

/-- Building the graph in an engine without one is not refused, be it at once or by single
operations. -/
theorem exists_build (h : s.vertexCount ≤ 2 ^ 32) (data : Nat → V) {e : SoleEngine V}
    (hphase : e.phase.isSetup = true) (hstore : e.store = {}) :
    ∃ g, s.build data e = .ok (withStore e g) ∧
      (s.operations data).foldlM (fun e op => perform op e) e = .ok (withStore e g) ∧
      s.Filled data g := by
  obtain ⟨g₁, hvertices, hbuilt₁, h₁⟩ := exists_addNumbered h data
  obtain ⟨g₂, hedges, hbuilt₂, h₂⟩ := exists_joinNumbered h hbuilt₁ h₁
  have hresize : ({} : Store V Unit).resize s.vertexCount = .ok {} := by
    have hroom : Store.hasRoom s.vertexCount = true := decide_eq_true (by omega)
    have hcount : ¬s.vertexCount < ({} : Store V Unit).vertexCount := Nat.not_lt_zero _
    rw [Store.resize, if_neg Bool.false_ne_true, if_neg hcount, if_pos hroom]
  have hannounce : perform (Engine.resize s.vertexCount) e = .ok (withStore e {}) := by
    rw [Engine.resize, perform_during hphase, perform_build, hstore, hresize]
    rfl
  have hagain : e.phase.configure.isSetup = true ∧
      e.phase.configure.configure = e.phase.configure := by
    cases hp : e.phase <;> simp_all [Phase.isSetup, Phase.configure]
  have hwith (g g' : Store V Unit) : withStore (withStore e g) g' = withStore e g' := by
    simp [withStore, hagain.2]
  refine ⟨g₂, ?_, ?_, hbuilt₂, h₂⟩
  · have hfill : s.fill data {} = .ok g₂ := by
      change (List.range s.vertexCount).foldlM (addNumbered data) {} >>=
        (s.shape.edges s.size).foldlM joinNumbered = _
      rw [hvertices]
      exact hedges
    rw [build, hannounce]
    refine (perform_build (s.fill data) (withStore e {})).trans ?_
    change withStore (withStore e {}) <$> s.fill data {} = _
    rw [hfill, ← hwith {} g₂]
    rfl
  · have hadd (g : Store V Unit) (v : Nat) :
        perform (Engine.addVertex v (data v)) (withStore e g) = withStore e <$>
          addNumbered data g v := by
      rw [Engine.addVertex, perform_during hagain.1, perform_build]
      exact congrArg (· <$> _) (funext (hwith g))
    have hjoin (g : Store V Unit) (edge : Nat × Nat) :
        perform (Engine.addEdge edge.1 edge.2 ()) (withStore e g) = withStore e <$>
          joinNumbered g edge := by
      rw [Engine.addEdge, perform_during hagain.1, perform_build]
      exact congrArg (· <$> _) (funext (hwith g))
    rw [operations, List.foldlM_cons, hannounce]
    change List.foldlM _ (withStore e {}) _ = _
    rw [List.foldlM_append, foldlM_perform hadd, hvertices]
    exact (foldlM_perform hjoin _ g₁).trans (congrArg (withStore e <$> ·) hedges)

/-! # The graph that is built -/

namespace Filled

variable {data : Nat → V} {g : Store V Unit}

theorem ids (h : s.Filled data g) :
    g.topology.ids.toList = (List.range s.vertexCount).map UInt32.ofNat :=
  congrArg Outline.ids h.consists.outline

theorem edges (h : s.Filled data g) : g.topology.edges.toList = s.shape.edges s.size :=
  congrArg Outline.edges h.consists.outline

theorem vertices (h : s.Filled data g) :
    g.cells.vertices.toList = (List.range s.vertexCount).map data := by
  rw [h.consists.cells]

/-- A filled store has the vertices of its shape. -/
theorem vertexCount_eq (h : s.Filled data g) : g.vertexCount = s.vertexCount := by
  have hlength := congrArg List.length h.ids
  simpa [Store.vertexCount, Topology.vertexCount] using hlength

/-- Paths lead from every vertex to every other. -/
theorem connected (h : s.Filled data g) {u v : VertexIndex} (hu : u < s.vertexCount)
    (hv : v < s.vertexCount) : g.topology.Connected u v := by
  refine Relation.ReflTransGen.mono (fun i j hij => ?_) u v (s.shape.linked hu hv)
  have hedge {i j : Nat} (hij : (i, j) ∈ s.shape.edges s.size) :
      ∃ e : EdgeIndex, g.topology.edges[e]? = some (i, j) := by
    rw [← h.edges] at hij
    simpa using List.mem_iff_getElem?.mp hij
  rcases hij with hij | hij
  · obtain ⟨e, he⟩ := hedge hij
    exact ⟨e, .inl he⟩
  · obtain ⟨e, he⟩ := hedge hij
    exact ⟨e, .inr he⟩

end Filled

end Setting

end VertexPrograms

import VertexPrograms.Graph.Description

/-!
# Graphs changed in place

The operations of a store once more, as code that changes one store table by table and that, when it
fails, leaves behind whatever it has changed until then. An operation that adds one vertex or one
edge does all its checks before its first change; so does the announcement of a number of vertices.
Hence they come to the operations that answer with a new store.
-/

namespace VertexPrograms

/-- Code that changes a state in place; what it has changed when it fails stays changed. -/
abbrev InPlace (σ α : Type) := ExceptT Error (StateM σ) α

namespace InPlace

variable {σ α β : Type}

/-- Runs code on a state. -/
def on (x : InPlace σ α) (s : σ) : Except Error α × σ := x.run.run s

@[simp] theorem on_pure (a : α) (s : σ) : (pure a : InPlace σ α).on s = (.ok a, s) := rfl

@[simp] theorem on_throw (e : Error) (s : σ) : (throw e : InPlace σ α).on s = (.error e, s) := rfl

@[simp] theorem on_get (s : σ) : (get : InPlace σ σ).on s = (.ok s, s) := rfl

@[simp] theorem on_modify (f : σ → σ) (s : σ) : (modify f : InPlace σ PUnit).on s = (.ok ⟨⟩, f s) :=
  rfl

/-- A result is answered as it is. -/
@[simp] theorem on_ofExcept (r : Except Error α) (s : σ) :
    (ofExcept r : InPlace σ α).on s = (r, s) := by
  cases r <;> rfl

/-- Code that fails is not gone on with. -/
@[simp] theorem on_bind (x : InPlace σ α) (f : α → InPlace σ β) (s : σ) :
    (x >>= f).on s = match x.on s with
      | (.ok a, s) => (f a).on s
      | (.error e, s) => (.error e, s) := by
  rw [on, ExceptT.run_bind, StateT.run_bind, on]
  obtain ⟨r, s'⟩ := x.run.run s
  cases r <;> rfl

/-- To map an answer does not change what is done. -/
@[simp] theorem on_map (f : α → β) (x : InPlace σ α) (s : σ) :
    (f <$> x).on s = match x.on s with
      | (.ok a, s) => (.ok (f a), s)
      | (.error e, s) => (.error e, s) := by
  rw [map_eq_pure_bind, on_bind]
  rfl

/-- A choice is made before anything is done. -/
@[simp] theorem on_ite (c : Prop) [Decidable c] (x y : InPlace σ α) (s : σ) :
    (if c then x else y).on s = if c then x.on s else y.on s := by
  split <;> rfl

/-- What an operation answers that has no effect when it is refused. -/
def settled (s : σ) : Except Error (α × σ) → Except Error α × σ
  | .ok (a, s) => (.ok a, s)
  | .error e => (.error e, s)

/-- A change that succeeds is made. -/
@[simp] theorem settled_ok (s s' : σ) (a : α) : settled s (.ok (a, s')) = (.ok a, s') := rfl

/-- A change that fails is not made. -/
@[simp] theorem settled_error (s : σ) (e : Error) :
    settled s (.error e : Except Error (α × σ)) = (.error e, s) := rfl

@[simp] theorem settled_map_ok (s : σ) (b : β) (f : β → α × σ) :
    settled s (f <$> .ok b) = (.ok (f b).1, (f b).2) := rfl

@[simp] theorem settled_map_error (s : σ) (e : Error) (f : β → α × σ) :
    settled s (f <$> (.error e : Except Error β)) = (.error e, s) := rfl

end InPlace

variable {V E : Type}

/-- Checks all vertices and then all edges, to be added to a graph of the given shape. -/
def Description.check (d : Description V E) (t : Topology) :
    Except Error (List (VertexId × V) × List (VertexId × VertexId × E)) := do
  let (vertices, known) ← checkVertices ⟨t, ∅⟩ d.vertices
  let edges ← checkEdges known ∅ d.edges
  return (vertices, edges)

namespace Store.Editing

/-- Fails if the shape of the graph is final. -/
def requireOpen (operation : String) : InPlace (Store V E) Unit := do
  if (← get).frozen then throw (.state operation "frozen")

/-- Announces the number of vertices to come. -/
def resize (n : Nat) : InPlace (Store V E) Unit := do
  requireOpen "resize"
  let current := (← get).vertexCount
  if n < current then throw (.invalidResize n current)
  if !hasRoom n then throw .capacity

/-- Changes the data of the vertices, and then that of the edges. -/
def editData (vertex : VertexIndex → V → V) (edge : EdgeIndex → E → E) :
    InPlace (Store V E) Unit := do
  modify fun g => { g with cells.vertices := g.cells.vertices.mapIdx vertex }
  modify fun g => { g with cells.edges := g.cells.edges.mapIdx edge }

/-- Appends a vertex, one table after another. -/
def addVertex (id : VertexId) (data : V) : InPlace (Store V E) VertexIndex := do
  requireOpen "add_vertex"
  if ((← get).topology.indexOf? id).isSome then throw (.duplicateVertex id)
  let i := (← get).vertexCount
  modify fun g => { g with topology.ids := g.topology.ids.push id }
  modify fun g => { g with topology.index := g.topology.index.insert id i }
  modify fun g => { g with cells.vertices := g.cells.vertices.push data }
  modify fun g => { g with topology.outgoing := g.topology.outgoing.push #[] }
  modify fun g => { g with topology.incoming := g.topology.incoming.push #[] }
  modify fun g => { g with topology.adjacent := g.topology.adjacent.push [] }
  return i

local instance : EquivBEq (VertexIndex × VertexIndex) := inferInstance

local instance : LawfulHashable (VertexIndex × VertexIndex) := inferInstance

/-- Appends an edge, one table after another. -/
def addEdge (source target : VertexId) (data : E) : InPlace (Store V E) EdgeIndex := do
  requireOpen "add_edge"
  let i ← ofExcept ((← get).topology.require source)
  let j ← ofExcept ((← get).topology.require target)
  if ((← get).topology.edgeBetween? i j).isSome then throw (.duplicateEdge source target)
  let e := (← get).edgeCount
  modify fun g => { g with topology.edges := g.topology.edges.push (i, j) }
  modify fun g => { g with cells.edges := g.cells.edges.push data }
  modify fun g => { g with topology.edgeIndex := g.topology.edgeIndex.insert (i, j) e }
  modify fun g => { g with topology.outgoing := g.topology.outgoing.modify i (·.push e) }
  modify fun g => { g with topology.incoming := g.topology.incoming.modify j (·.push e) }
  if i ≠ j then
    modify fun g => { g with topology.adjacent := g.topology.adjacent.modify i (insertAscending j) }
    modify fun g => { g with topology.adjacent := g.topology.adjacent.modify j (insertAscending i) }
  return e

/-- Adds a described vertex. -/
def addRawVertex (x : Int × V) : InPlace (Store V E) Unit := do
  let id ← ofExcept (VertexId.ofRaw x.1)
  let _ ← addVertex id x.2

/-- Adds a described edge. -/
def addRawEdge (x : Int × Int × E) : InPlace (Store V E) Unit := do
  let source ← ofExcept (VertexId.ofRaw x.1)
  let target ← ofExcept (VertexId.ofRaw x.2.1)
  let _ ← addEdge source target x.2.2

/-- Loads a description: all of it is checked before the first vertex is inserted. -/
def load (d : Description V E) : InPlace (Store V E) Unit := do
  requireOpen "set_graph"
  if d.vertices.isEmpty then throw .emptyGraph
  let _ ← ofExcept (d.check (← get).topology)
  resize ((← get).vertexCount + d.vertices.length)
  forM d.vertices addRawVertex
  forM d.edges addRawEdge

variable {g : Store V E}

/-- A check that a store is open changes nothing. -/
theorem on_requireOpen (operation : String) (g : Store V E) :
    (requireOpen operation).on g = if g.frozen then (.error (.state operation "frozen"), g)
      else (.ok (), g) := by
  simp [requireOpen]

theorem on_resize (n : Nat) (g : Store V E) :
    (resize n).on g = InPlace.settled g (((), ·) <$> g.resize n) := by
  simp only [resize, Store.resize, InPlace.on_bind, on_requireOpen]
  cases hf : g.frozen
  · by_cases hn : n < g.vertexCount
    · simp [hn]
    · cases hasRoom n <;> simp [hn]
  · simp

/-- To add a vertex in place is to add it or to change nothing. -/
theorem on_addVertex (id : VertexId) (data : V) (g : Store V E) :
    (addVertex id data).on g = InPlace.settled g (g.addVertex id data) := by
  simp only [addVertex, Store.addVertex, Topology.addVertex, InPlace.on_bind, on_requireOpen]
  cases hf : g.frozen
  · by_cases hid : (g.topology.indexOf? id).isSome = true
    · simp [hid]
    · simp [hid, hf, Topology.pushVertex, vertexCount]
  · simp

theorem on_addEdge (source target : VertexId) (data : E) (g : Store V E) :
    (addEdge source target data).on g = InPlace.settled g (g.addEdge source target data) := by
  simp only [addEdge, Store.addEdge, Topology.addEdge, InPlace.on_bind, on_requireOpen]
  cases hf : g.frozen
  · cases hi : g.topology.require source with
    | error e => simp [hi]
    | ok i =>
      cases hj : g.topology.require target with
      | error e => simp [hi, hj]
      | ok j =>
        by_cases hdup : (g.topology.edgeBetween? i j).isSome = true
        · simp [hi, hj, hdup]
        · by_cases hij : i = j
          · subst hij
            simp [hi, hj, hdup, hf, Topology.pushEdge, Topology.link, edgeCount]
          · simp [hi, hj, hdup, hij, hf, Topology.pushEdge, Topology.link, edgeCount]
  · simp

end Store.Editing

end VertexPrograms

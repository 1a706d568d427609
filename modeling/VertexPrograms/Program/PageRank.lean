import VertexPrograms.Program.Update

/-!
# PageRank

The rank of a vertex is a base share plus the damped sum of what its in-neighbours pass on, each of
them its own rank divided evenly among its out-edges. An update recomputes the rank of the centre
and, when it has moved by more than a tolerance, asks for updates of the out-neighbours, the more
urgent the larger the move.
-/

namespace VertexPrograms

/-- The parameters of the ranking. -/
structure PageRank where
  damping : Float := 0.85
  /-- The largest move of a rank that is not passed on. -/
  tolerance : Float := 1e-6

namespace PageRank

variable {E M P : Type}

/-- The rank every one of `n` vertices starts with. -/
def initialRank (n : Nat) : Float := if n = 0 then 0.0 else 1.0 / Float.ofNat n

/-- Adds up what the given in-neighbours pass on, and goes on with the sum. -/
def gather (s : Scope) (next : Float → Update Float E M P) :
    List VertexId → Float → Update Float E M P
  | [], sum => next sum
  | source :: rest, sum =>
    match s.outDegree source with
    | .error e => .fail (.ofError e)
    | .ok degree =>
      let add : Float → Update Float E M P := fun rank =>
        gather s next rest (sum + rank / Float.ofNat (max degree 1))
      if source = s.vertex then .access .readCentre (.orFail add)
      else .access (.readNeighbour source) (.orFail add)

/-- Asks for updates of the given vertices, and ends. -/
def spread (priority : Priority) : List VertexId → Update Float E M P
  | [] => .done
  | target :: rest =>
    .request (.vertex target none priority) (.orFail fun _ => spread priority rest)

/-- The rank of a vertex from the sum of what it is passed. -/
def rank (p : PageRank) (vertices : Nat) (sum : Float) : Float :=
  (1.0 - p.damping) / Float.ofNat vertices + p.damping * sum

/-- Gives the centre a new rank and passes the move on if it is large enough. -/
def settle (p : PageRank) (s : Scope) (new : Float) : Update Float E M P :=
  .access (.writeCentre fun _ => new) <| .orFail fun (old : Float) =>
    let move := (new - old).abs
    if move > p.tolerance then spread (.ofFloat move) s.targets else .done

/-- The program, which needs to read its neighbours undisturbed. -/
def program (p : PageRank) : Program Float E M P where
  name := "pagerank"
  level := some .edge
  update s := gather s (fun sum => p.settle s (p.rank s.vertexCount sum)) s.sources 0.0

end PageRank

end VertexPrograms

import VertexPrograms.Error
import VertexPrograms.Text.Blank

/-!
# Hand-out policies

The order in which pending tasks are handed out to workers.
-/

namespace VertexPrograms

/-- Which pending task a worker gets next. -/
inductive Policy where
  /-- The oldest. -/
  | fifo
  /-- The one of greatest priority, the oldest among equals. -/
  | priority
  /-- The oldest of the worker's own share of the vertices, else of the following shares. -/
  | roundRobin
  deriving DecidableEq, Repr

namespace Policy

/-- The name of a policy. -/
def name : Policy → String
  | fifo => "fifo"
  | priority => "priority"
  | roundRobin => "round_robin"

/-- The policy with the given name, spelled exactly. -/
def ofName? : String → Option Policy
  | "fifo" => some fifo
  | "priority" => some priority
  | "round_robin" => some roundRobin
  | _ => none

/-- Reads a policy by name, ignoring surrounding blanks and ASCII case; round robin has three
spellings. -/
def parse (text : String) : Except Error Policy :=
  match Text.normalize text with
  | "fifo" => .ok fifo
  | "priority" => .ok priority
  | "round_robin" | "round-robin" | "roundrobin" => .ok roundRobin
  | key => .error (.invalidArgument s!"unknown scheduler policy: {key}")

/-- Every policy is found by its name. -/
@[simp] theorem ofName?_name (policy : Policy) : ofName? policy.name = some policy := by
  cases policy <;> rfl

end Policy

end VertexPrograms

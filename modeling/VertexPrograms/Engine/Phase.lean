/-!
# The life of an engine

An engine is created, configured, run to completion any number of times, and destroyed.
-/

namespace VertexPrograms

/-- Where an engine is in its life. -/
inductive Phase where
  | created
  | configured
  | running
  | completed
  | destroyed
  deriving DecidableEq, Repr

namespace Phase

/-- The name of a phase. -/
def name : Phase → String
  | created => "created"
  | configured => "configured"
  | running => "running"
  | completed => "completed"
  | destroyed => "destroyed"

/-- Whether the graph and the configuration may be changed. -/
def isSetup : Phase → Bool
  | created | configured => true
  | _ => false

/-- Whether tasks may be queued and globals and aggregators registered. -/
def isIdle : Phase → Bool
  | created | configured | completed => true
  | _ => false

/-- Whether a run may start. -/
def isReady : Phase → Bool
  | configured | completed => true
  | _ => false

/-- Whether the engine still owns anything. -/
def isLive : Phase → Bool
  | destroyed => false
  | _ => true

/-- The phase after something has been set up. -/
def configure : Phase → Phase
  | created => configured
  | phase => phase

end Phase

end VertexPrograms

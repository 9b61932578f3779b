/-!
# The life of a job

A job goes through states in a fixed order. It may fail in every state but the two in which it is
over.

## Main definitions

* `JobState`, `JobState.canAdvanceTo`, `JobState.isTerminal`: the states and the steps between them
* `Job`, `Job.advance`: a job and its steps
-/

namespace AsmInspect

/-- The states of a job. -/
inductive JobState where
  | idle
  | argsBuilt
  | executing
  /-- The compiler accepted its input. -/
  | succeeded
  /-- The compiler rejected its input. -/
  | compileFailed
  | postProcessing
  | done
  /-- A tool or a file failed. -/
  | failed
  deriving DecidableEq, Repr, Inhabited

namespace JobState

/-- All states. -/
def all : List JobState :=
  [idle, argsBuilt, executing, succeeded, compileFailed, postProcessing, done, failed]

/-- The name that messages use. -/
def name : JobState → String
  | idle => "Idle"
  | argsBuilt => "ArgsBuilt"
  | executing => "Executing"
  | succeeded => "Succeeded"
  | compileFailed => "CompileFailed"
  | postProcessing => "PostProcessing"
  | done => "Done"
  | failed => "Failed"

/-- The state of a name. -/
def ofName? (name : String) : Option JobState := all.find? (·.name == name)

/-- Whether the job is over. -/
def isTerminal : JobState → Bool
  | done | failed => true
  | _ => false

/-- Whether a job may step from one state to another. -/
def canAdvanceTo : JobState → JobState → Bool
  | idle, argsBuilt => true
  | argsBuilt, executing => true
  | executing, succeeded => true
  | executing, compileFailed => true
  | succeeded, postProcessing => true
  | postProcessing, done => true
  | compileFailed, done => true
  | state, failed => !state.isTerminal
  | _, _ => false

end JobState

/-- A job in one of its states. -/
structure Job where
  id : Nat
  /-- The id of the compiler it uses. -/
  compiler : String
  state : JobState := .idle
  deriving DecidableEq, Repr

/-- The job in the next state; a step that is not allowed is refused with a message. -/
def Job.advance (job : Job) (next : JobState) : Except String Job :=
  if job.state.canAdvanceTo next then .ok { job with state := next }
  else .error s!"job {job.id}: invalid transition {job.state.name} -> {next.name}"

end AsmInspect

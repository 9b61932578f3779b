import AsmInspect.Lifecycle
import AsmInspect.Tool.Basic

/-!
# Flows of work

A job does nothing by itself: it asks the machine it runs on questions and goes on with the answers.
A flow is such a job before it is run. Parts of it may go on side by side.

## Main definitions

* `Query`, `Query.Answer`: the questions, and the type of the answer to each
* `Turn`, `Rota`: how far the members of a crew are with their turns, and the free places
* `Rota.mostPlaces`: the most places that there can be
* `Flow`: a job as a tree of questions, with parts that go on side by side
* `Work`: flows that may fail
-/

namespace AsmInspect

/-- A question to the machine. -/
inductive Query where
  /-- The text of a file. -/
  | readText (path : String)
  /-- A file written anew. -/
  | writeText (path text : String) (executable : Bool)
  /-- The names in a directory. -/
  | listNames (path : String)
  /-- Whether there is anything at a path. -/
  | fileExists (path : String)
  /-- A new directory below a root, which is made if need be. It goes away when the job is over. -/
  | jobDirectory (root : String)
  /-- A tool run. -/
  | runTool (call : ToolCall)
  /-- The time in milliseconds. -/
  | clock
  /-- The job goes into a state. -/
  | enter (state : JobState)
  deriving DecidableEq

/-- The answers to a question. -/
@[reducible] def Query.Answer : Query → Type
  | readText _ => Except FileError String
  | writeText .. => Except FileError Unit
  | listNames _ => Except FileError (List String)
  | fileExists _ => Bool
  | jobDirectory _ => Except FileError String
  | runTool _ => Except Failure ToolResult
  | clock => UInt64
  | enter _ => Unit

/-- How far a member of a crew is with its turn. -/
inductive Turn where
  /-- It waits for a place. -/
  | waiting
  /-- It has a place. -/
  | working
  /-- It has given its place back. -/
  | finished
  deriving DecidableEq, Repr

/-- The turns of the members of a crew, and how many places are free. -/
structure Rota (n : Nat) where
  free : Nat
  turn : Fin n → Turn := fun _ => .waiting
  /-- The members whose turn is over, the first that ended first. -/
  finishers : List (Fin n) := []
  nodup_finishers : finishers.Nodup := by simp
  mem_finishers : ∀ i, i ∈ finishers ↔ turn i = .finished := by simp

/-- The most places that there can be: their number is kept in 61 bits. -/
def Rota.mostPlaces : Nat := 0x1FFFFFFFFFFFFFFF

/-- A job as a tree of questions. -/
inductive Flow : Type → Type 1 where
  /-- Nothing is left to do. -/
  | done {α : Type} (result : α) : Flow α
  /-- A question, and how to go on after each answer. -/
  | ask {α : Type} (query : Query) (next : query.Answer → Flow α) : Flow α
  /-- Two parts side by side; both end before the flow goes on. -/
  | both {α β γ : Type} (left : Flow β) (right : Flow γ) (next : β × γ → Flow α) : Flow α
  /-- Members side by side, each of which works when it has a place. The flow goes on when the turns
  of all are over, with their results in the order in which they ended, or when that of one that
  failed is; the others are then dropped. With more places than there can be the job crashes. -/
  | crew {α β : Type} {n : Nat} (rota : Rota n) (members : Fin n → Flow (Except Failure β))
      (next : Except Failure (List β) → Flow α) : Flow α

namespace Flow

variable {α β : Type}

/-- One flow, and then one that depends on its result. -/
def bind : Flow α → (α → Flow β) → Flow β
  | done result, f => f result
  | ask query next, f => ask query fun answer => (next answer).bind f
  | both left right next, f => both left right fun results => (next results).bind f
  | crew rota members next, f => crew rota members fun results => (next results).bind f

instance : Monad Flow where
  pure := done
  bind := bind

/-- A single question. -/
def query (query : Query) : Flow query.Answer := ask query done

/-- Two flows side by side. -/
def pair (left : Flow α) (right : Flow β) : Flow (α × β) := both left right done

end Flow

/-- Flows that may fail. -/
abbrev Work := ExceptT Failure Flow

namespace Work

variable {α : Type}

/-- A flow whose result is a failure or a value. -/
def ofFlow (flow : Flow (Except Failure α)) : Work α := ExceptT.mk flow

/-- A single question. -/
def query (query : Query) : Work query.Answer := ExceptT.lift (Flow.query query)

/-- What has been found out already. -/
def ofExcept : Except Failure α → Work α
  | .ok a => pure a
  | .error failure => throw failure

/-- The answer to a question about a file; an error of the file is a failure of a stage. -/
def orFail (stage : Stage) (path : String) : Except FileError α → Work α
  | .ok a => pure a
  | .error cause => throw (.file stage path cause)

/-- The text of a file. -/
def readText (stage : Stage) (path : String) : Work String := do
  orFail stage path (← query (.readText path))

/-- A file written anew. -/
def writeText (stage : Stage) (path text : String) (executable : Bool) : Work Unit := do
  orFail stage path (← query (.writeText path text executable))

/-- A tool run. -/
def runTool (program : String) (args : List String) (options : ToolOptions) : Work ToolResult :=
  ofFlow (Flow.query (.runTool { program, args, options }))

/-- Members side by side, at most `limit` of them at a time; the first failure drops the others. The
results come in the order in which the members ended. -/
def crew (limit : Nat) (members : List (Work α)) : Work (List α) :=
  ofFlow (.crew { free := limit } (fun i : Fin members.length => (members.get i).run) .done)

end Work

end AsmInspect

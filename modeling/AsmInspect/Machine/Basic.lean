import AsmInspect.Flow.Step
import AsmInspect.Machine.FileTree

/-!
# Machines

A machine has files and a clock, and it runs tools. How long a tool runs and what it does is settled
by the tools installed on the machine.

## Main definitions

* `Query.tools`, `FileQuery`: the tool run that a question asks for, and the questions about files
* `ToolRun`, `Tools`: a tool run that has begun, and the tools of a machine
* `Machine`: the files, the clock and a record of the tool runs
* `Machine.begin`, `Machine.finish`: the start and the end of a tool run
* `Machine.answer`: the answer to a question about files
-/

namespace AsmInspect

namespace Query

/-- The tool run that a question asks for, if it asks for one. -/
def tools : Query → List ToolCall
  | runTool call => [call]
  | _ => []

/-- Whether a question is about files. -/
def isAboutFiles : Query → Bool
  | readText _ | writeText .. | listNames _ | fileExists _ | jobDirectory _ => true
  | runTool _ | clock | enter _ => false

end Query

/-- A question about files. -/
abbrev FileQuery := { query : Query // query.isAboutFiles = true }

/-- A tool run that has begun. -/
structure ToolRun where
  call : ToolCall
  /-- How long the run takes. -/
  durationMs : Nat := 0
  /-- What the run leaves behind when its time has come, and what it gives. -/
  finish : FileTree → FileTree × Except Failure ToolResult

/-- The tools of a machine: what a run does to the files at once, and how it goes on. -/
abbrev Tools := FileTree → ToolCall → FileTree × ToolRun

/-- A machine. -/
structure Machine where
  files : FileTree := {}
  cwd : String := "/"
  /-- The time in milliseconds. -/
  now : Nat := 0
  /-- How many job directories have been made. -/
  jobDirectories : Nat := 0
  /-- The tool runs so far, the latest first. -/
  calls : List ToolCall := []
  /-- The tool runs that are not over. -/
  running : List ToolCall := []
  /-- The most runs of each program at one time. -/
  peaks : Dict Nat := {}
  deriving Inhabited

namespace Machine

/-- The name of a job directory. -/
def jobDirectoryName (number : Nat) : String :=
  let digits := Nat.toDigits 10 number
  "asmview-" ++ String.ofList (List.replicate (6 - digits.length) '0' ++ digits)

/-- A path taken from the working directory. -/
def absolute (machine : Machine) (path : String) : String :=
  if path.toList.head? == some '/' then path else machine.cwd ++ "/" ++ path

/-- The machine with a new directory below a root. -/
def makeJobDirectory (machine : Machine) (root : String) : Machine × Except FileError String :=
  let path :=
    (if root.isEmpty then machine.cwd ++ "/"
      else if FileTree.endsInSlash root then machine.absolute root
      else machine.absolute root ++ "/") ++ jobDirectoryName machine.jobDirectories
  match do
    let files ← machine.files.makeDirectories machine.cwd root
    files.makeDirectory machine.cwd path with
  | .ok files =>
    ({ machine with files, jobDirectories := machine.jobDirectories + 1 }, .ok path)
  | .error cause => (machine, .error cause)

/-- The machine without a directory. -/
def removeDirectory (machine : Machine) (path : String) : Machine :=
  { machine with files := machine.files.remove (FileTree.names path) }

/-- The machine with a file written anew. -/
def writeText (machine : Machine) (path text : String) (executable : Bool) :
    Machine × Except FileError Unit :=
  match machine.files.write machine.cwd path (Utf8.encode text.toList) executable with
  | .ok files => ({ machine with files }, .ok ())
  | .error cause => (machine, .error cause)

/-- A tool run begins. -/
def begin (machine : Machine) (tools : Tools) (call : ToolCall) : Machine × ToolRun :=
  let (files, run) := tools machine.files call
  let running := call :: machine.running
  let runs := running.countP (·.program == call.program)
  let atOnce := max runs ((machine.peaks.get? call.program).getD 0)
  ({ machine with
      files, running
      calls := call :: machine.calls
      peaks := machine.peaks.insert call.program atOnce }, { run with call })

/-- Some tool runs are over, or are given up. -/
def leave (machine : Machine) (calls : List ToolCall) : Machine :=
  { machine with running := calls.foldl List.erase machine.running }

/-- A tool run comes to its end. -/
def finish (machine : Machine) (run : ToolRun) : Machine × Except Failure ToolResult :=
  let (files, result) := run.finish machine.files
  ({ machine with files }.leave [run.call], result)

/-- The answer to a question about files. -/
def answer (machine : Machine) : (question : FileQuery) → Machine × question.val.Answer
  | ⟨.readText path, _⟩ => (machine, machine.files.readText machine.cwd path)
  | ⟨.writeText path text executable, _⟩ => machine.writeText path text executable
  | ⟨.listNames path, _⟩ => (machine, machine.files.list machine.cwd path)
  | ⟨.fileExists path, _⟩ => (machine, machine.files.contains machine.cwd path)
  | ⟨.jobDirectory root, _⟩ => machine.makeJobDirectory root
  | ⟨.runTool _, h⟩ | ⟨.clock, h⟩ | ⟨.enter _, h⟩ => absurd h Bool.false_ne_true

end Machine

end AsmInspect

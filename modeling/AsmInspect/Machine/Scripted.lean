import AsmInspect.Machine.Basic
import AsmInspect.Path

/-!
# Scripted tools

Tools that follow a list of rules instead of running: the first rule that fits a call says how long
the run takes, which files it leaves and what it prints.

## Main definitions

* `ToolRule`: a rule
* `ToolRule.fill`: a text with places for the particulars of a call
* `Tools.scripted`: the tools that follow some rules
-/

namespace AsmInspect

/-- How a run fails that does not end by itself. -/
inductive ToolRule.Fault where
  /-- The tool is not there. -/
  | spawn
  /-- The tool takes too long. -/
  | timeout
  deriving DecidableEq, Repr

/-- What the runs of a tool do. -/
structure ToolRule where
  /-- The program that the rule is for; any if there is none. -/
  program : Option String := none
  /-- How one of the arguments ends; any if there is none. -/
  argument : Option String := none
  delayMs : Nat := 0
  fault : Option ToolRule.Fault := none
  /-- Directories made in the working directory. -/
  directories : List String := []
  /-- Files written in the working directory, with places to be filled in. -/
  texts : List (String × String) := []
  /-- Files written in the working directory as they are. -/
  binaries : List (String × List UInt8) := []
  /-- The answer, with places to be filled in. -/
  result : ToolResult := {}

namespace ToolRule

/-- Whether the rule is for a call. -/
def fits (rule : ToolRule) (call : ToolCall) : Bool :=
  (rule.program.map (· == call.program)).getD true &&
    (rule.argument.map fun ending =>
      call.args.any fun arg => ending.toList.isSuffixOf arg.toList).getD true

/-- The text with the working directory, the arguments and the input of a call in their places. -/
def fill (call : ToolCall) (text : String) : String :=
  let put (place value : String) (text : Text) :=
    Text.replaceAll ("\x7b" ++ place ++ "\x7d").toList value.toList text
  String.ofList (put "input" (call.options.input.getD "")
    (put "args" (" ".intercalate call.args)
      (put "cwd" (call.options.cwd.getD "") text.toList)))

/-- The files after a run, as far as its files can be written. -/
def leave (rule : ToolRule) (call : ToolCall) (files : FileTree) : FileTree :=
  let cwd := call.options.cwd.getD ""
  let make (files : FileTree) (path : String) :=
    ((files.makeDirectories "/" (Path.join cwd path)).toOption).getD files
  let write (files : FileTree) (path : String) (bytes : List UInt8) :=
    ((files.write "/" (Path.join cwd path) bytes false).toOption).getD files
  let files := rule.directories.foldl make files
  let files := rule.texts.foldl
    (fun files (path, text) => write files path (Utf8.encode (fill call text).toList)) files
  rule.binaries.foldl (fun files (path, bytes) => write files path bytes) files

/-- What a run gives. -/
def answer (rule : ToolRule) (call : ToolCall) : Except Failure ToolResult :=
  match rule.fault with
  | some .spawn => .error (.spawn call.options.stage call.program .notFound)
  | some .timeout =>
    .error (.timeout call.options.stage call.program (call.options.timeoutMs.getD 0))
  | none =>
    .ok { rule.result with
      stdout := fill call rule.result.stdout, stderr := fill call rule.result.stderr }

/-- The run of a call that the rule is for. -/
def run (rule : ToolRule) (call : ToolCall) : ToolRun :=
  { call, durationMs := rule.delayMs
    finish := fun files =>
      (if rule.fault.isSome then files else rule.leave call files, rule.answer call) }

end ToolRule

/-- The tools that follow some rules; a call that no rule is for does nothing. -/
def Tools.scripted (rules : List ToolRule) : Tools := fun files call =>
  (files, ((rules.find? (·.fits call)).getD {}).run call)

end AsmInspect

import AsmInspect.Machine.Basic
import AsmInspect.Shell.Run
import AsmInspect.Tool.Capture

/-!
# Local processes

Tools that are files of the machine: scripts for the shell and the programs of the system. A process
sees its arguments, its variables and its input; its output is captured, and it is stopped when its
time is up.

## Main definitions

* `FileTree.system`: the files of a machine on which nothing has been done
* `Tools.processes`: the tools that are files of the machine
-/

namespace AsmInspect

/-- The files of a machine on which nothing has been done: the programs of the system. -/
def FileTree.system : FileTree :=
  let directories : List Place :=
    [["bin"], ["dev"], ["etc"], ["root"], ["tmp"], ["usr"], ["usr", "bin"], ["var"]]
  let names := "sh" :: "dash" :: "env" :: Shell.utilities.map (·.1)
  let programs := Shell.systemDirectories.flatMap fun directory => names.map (directory ++ [·])
  let tree := directories.foldl (fun (tree : FileTree) place => tree.put place .directory) {}
  let tree := programs.foldl (fun (tree : FileTree) place => tree.put place (.file [] true)) tree
  tree.put nullDevice (.file [] false)

namespace Tools

/-- The variables that every process sees. -/
def systemVariables : List (String × String) :=
  [("HOME", "/root"),
    ("PATH", "/usr/local/sbin:/usr/local/bin:/usr/sbin:/usr/bin:/sbin:/bin")]

/-- The state in which the process of a call starts. -/
def startState (files : FileTree) (cwd : String) (env : Dict String) (call : ToolCall) :
    Shell.State :=
  let values := ((Dict.ofList systemVariables).overlay env).overlay call.options.env
  { files, cwd
    name := Shell.ofString call.program
    values := values.entries.map fun (name, value) =>
      (Shell.ofString name, Shell.ofString value)
    exported := values.keys.map Shell.ofString
    channels := [(0, .stream 0), (1, .stream 1), (2, .stream 2)]
    streams := [[Shell.ofString (call.options.input.getD "")], [], []]
    limitMs := call.options.timeoutMs.map (·.toNat) }

/-- What starts when a program is called and its path, or why nothing does. A program that is only a
name is searched for. -/
def startable (state : Shell.State) (program : String) : Except FileError (Shell.Image × Text) := do
  match ← state.files.find "/" state.cwd with
  | .file .. => throw .notDirectory
  | .directory =>
    let path ← (Shell.locate? state (Shell.ofString program)).elim (throw .notFound) pure
    let found ← Shell.image state.files state.cwd (Shell.toStr path)
    match found with
    | .script interpreter _ =>
      let _ ← Shell.image state.files state.cwd (Shell.toStr interpreter)
      return (found, path)
    | _ => return (found, path)

/-- What is kept of a stream of a process. -/
def captured (call : ToolCall) (state : Shell.State) (number : Nat) : Capture :=
  Capture.ofChunks call.options.maxOutput.toNat [Shell.toBytes (state.streamText number)]

/-- What a process that has ended gives. -/
def resultOf (call : ToolCall) (state : Shell.State) (killed : Bool) : ToolResult :=
  let out := captured call state 1
  let err := captured call state 2
  { code := if killed then -1 else Int32.ofInt state.status
    stdout := out.text, stderr := err.text
    execTimeMs := state.timeMs.toUInt64
    dirPath := call.options.cwd.map .text
    truncated := out.truncated || err.truncated }

/-- The tools that are files of the machine, under some variables. A process does to the files what
it does when it starts. -/
def processes (cwd : String) (env : Dict String) : Tools := fun files call =>
  let cwd := match call.options.cwd with
    | some path => if path.toList.head? == some '/' then path else cwd ++ "/" ++ path
    | none => cwd
  let state := startState files cwd env call
  let ended (files : FileTree) (durationMs : Nat) (result : Except Failure ToolResult) :
      FileTree × ToolRun :=
    (files, { call, durationMs, finish := fun files => (files, result) })
  match startable state call.program with
  | .error cause => ended files 0 (.error (.spawn call.options.stage call.program cause))
  | .ok (image, path) =>
    let (state, stop) := Shell.startImage Shell.supply image path (Shell.ofString call.program)
      (call.args.map Shell.ofString) state
    match stop, call.options.timeoutMs with
    | some .overdue, some limitMs =>
      ended state.files limitMs.toNat
        (.error (.timeout call.options.stage call.program limitMs))
    | _, _ => ended state.files state.timeMs (.ok (resultOf call state (stop == some .killed)))

end Tools

end AsmInspect

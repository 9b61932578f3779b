import AsmInspect.CommandLine.Run
import AsmInspect.Machine.Local

/-!
# The program

The files that a command line is about are read onto a machine, and the command is run there.

## Main definitions

* `main`: the program
-/

namespace AsmInspect.Main

/-- The directory of the machine that stands for the working directory. -/
def workingDirectory : String := "/work"

/-- The machine's files with the file of a path, if it can be read. -/
def load (files : FileTree) (path : String) : IO FileTree := do
  try
    let bytes ← IO.FS.readBinFile path
    let place := Path.join workingDirectory path
    let files := match (Path.parent? place).map (files.makeDirectories workingDirectory) with
      | some (.ok files) => files
      | _ => files
    return ((files.write workingDirectory place bytes.toList true).toOption).getD files
  catch _ => return files

/-- The variables that override something. -/
def environment : IO (Dict String) := do
  let entries ← Config.variableNames.filterMapM fun name => do
    return (← IO.getEnv name).map (name, ·)
  return Dict.ofList entries

/-- The machine that a command line is run on. -/
def machine (args : List String) : IO Machine := do
  let files := FileTree.system.put (FileTree.names workingDirectory) .directory
  let files ← match CommandLine.ofArguments args with
    | .error _ => pure files
    | .ok line =>
      let files ← load files line.config
      let text := (files.readText workingDirectory line.config).toOption.getD ""
      (line.paths text).foldlM load files
  return { files, cwd := workingDirectory }

end AsmInspect.Main

open AsmInspect in
/-- The program: the command of the arguments, run on a machine with the files that it is about. -/
def main (args : List String) : IO UInt32 := do
  let machine ← Main.machine args
  let env ← Main.environment
  let ending :=
    CommandLine.runArguments args machine (Tools.processes machine.cwd env) env
  IO.print ending.stdout
  IO.eprint ending.stderr
  return ending.code

import AsmInspect.Shell.Utility.Basic

/-!
# Programs that change files

## Main definitions

* `Utility.mkdir`, `Utility.touch`, `Utility.rm`, `Utility.copy`: files made, removed and copied
* `Utility.chmod`, `Utility.ls`: what files may do, and their names
* `Utility.tee`, `Utility.dd`: texts saved
-/

namespace AsmInspect.Shell.Utility

/-- Copies blocks of bytes. -/
def dd : Utility := fun args process =>
  let value? (key : String) : Option Text := args.findSome? (Text.after? (key ++ "=").toList)
  let block := ((value? "bs").map numberOf).getD 512
  let (process, text) : Process × Text := match value? "if" with
    | some path => match process.bytesOf path with
      | .ok text => (process, text)
      | .error cause =>
        (process.fail ("dd: failed to open '".toList ++ path ++ "': ".toList ++ errorText cause), [])
    | none => process.drain
  let text := match value? "count" with
    | some count => text.take (block * numberOf count)
    | none => text
  match value? "of" with
  | some path => process.update ("dd: failed to open '".toList ++ path ++ ['\''])
      (process.files.write process.cwd (toStr path) (toBytes text) false)
  | none => process.print text

/-- Makes directories. -/
def mkdir : Utility := fun args process =>
  let (found, paths) := parseOptions "m" args
  paths.foldl (fun (process : Process) path =>
    let path' := toStr path
    process.update ("mkdir: cannot create directory '".toList ++ path ++ ['\''])
      (if hasOption found 'p' then process.files.makeDirectories process.cwd path'
        else process.files.makeDirectory process.cwd path')) process

/-- Makes sure that files are there. -/
def touch : Utility := fun args process =>
  let (_, paths) := parseOptions "" args
  paths.foldl (fun (process : Process) path =>
    if process.files.contains process.cwd (toStr path) then process
    else process.update ("touch: cannot touch '".toList ++ path ++ ['\''])
      (process.files.write process.cwd (toStr path) [] false)) process

/-- Removes files. -/
def rm : Utility := fun args process =>
  let (found, paths) := parseOptions "" args
  paths.foldl (fun (process : Process) path =>
    let message := "rm: cannot remove '".toList ++ path ++ ['\'']
    match process.files.locate process.cwd (toStr path), process.files.find process.cwd (toStr path) with
    | .ok place, .ok (.file ..) => { process with files := process.files.remove place }
    | .ok place, .ok .directory =>
      if hasOption found 'r' || hasOption found 'R' then
        { process with files := process.files.remove place }
      else process.fail (message ++ ": ".toList ++ errorText .isDirectory)
    | _, .error cause =>
      if hasOption found 'f' then process
      else process.fail (message ++ ": ".toList ++ errorText cause)
    | .error cause, _ => process.fail (message ++ ": ".toList ++ errorText cause)) process

/-- Copies or moves a file. -/
def copy (name : String) (moves : Bool) : Utility := fun args process =>
  let (_, paths) := parseOptions "" args
  match paths with
  | [source, target] =>
    match process.files.find process.cwd (toStr source) with
    | .ok (.file bytes executable) =>
      let target' := toStr target
      let path := if process.files.isDirectory process.cwd target' then
          target' ++ "/" ++ toStr (((Text.splitAt '/' source).getLast?).getD [])
        else target'
      let process := process.update (name.toList ++ ": cannot create regular file '".toList ++
        target ++ ['\'']) (process.files.write process.cwd path bytes executable)
      match moves, process.files.locate process.cwd (toStr source) with
      | true, .ok place => { process with files := process.files.remove place }
      | _, _ => process
    | .ok .directory => process.fail (name.toList ++ ": omitting directory".toList)
    | .error cause =>
      process.fail (name.toList ++ ": cannot stat '".toList ++ source ++ "': ".toList ++ errorText cause)
  | _ => process.fail (name.toList ++ ": missing file operand".toList)

/-- Makes files executable. -/
def chmod : Utility := fun args process =>
  match args with
  | mode :: paths =>
    let executable := mode.contains 'x' || mode.contains '7' || mode.contains '5'
    paths.foldl (fun (process : Process) path =>
      match process.files.locate process.cwd (toStr path),
          process.files.find process.cwd (toStr path) with
      | .ok place, .ok (.file bytes _) =>
        { process with files := process.files.put place (.file bytes executable) }
      | _, _ => process) process
  | [] => process

/-- Lists names. -/
def ls : Utility := fun args process =>
  let (_, paths) := parseOptions "" args
  let list (process : Process) (path : Text) : Process :=
    match process.files.find process.cwd (toStr path) with
    | .ok (.file ..) => process.print (path ++ ['\n'])
    | .ok .directory =>
      let names := ((process.files.list process.cwd (toStr path)).toOption.getD []).filter fun name =>
        name.toList.head? != some '.'
      process.print (names.flatMap fun name => ofString name ++ ['\n'])
    | .error cause =>
      process.failWith 2 ("ls: cannot access '".toList ++ path ++ "': ".toList ++ errorText cause)
  (if paths.isEmpty then [['.']] else paths).foldl list process

/-- Prints what it reads and writes it to files. -/
def tee : Utility := fun args process =>
  let (found, paths) := parseOptions "" args
  let (process, text) := process.drain
  paths.foldl (fun (process : Process) path =>
    let old := if hasOption found 'a' then ((process.bytesOf path).toOption).getD [] else []
    process.update ("tee: ".toList ++ path)
      (process.files.write process.cwd (toStr path) (toBytes (old ++ text)) false))
    (process.print text)

end AsmInspect.Shell.Utility

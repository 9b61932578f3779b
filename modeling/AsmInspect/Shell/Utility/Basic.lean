import AsmInspect.Machine.FileTree
import AsmInspect.Shell.Syntax

/-!
# Programs of the shell

A program reads its input or some files and prints a text. What it has and what it leaves is one
value, so that a program is a function.

## Main definitions

* `Shell.Process`, `Shell.Utility`: what a program has and leaves, and programs
* `Process.texts`, `Process.wholeText`: the texts that a program is about
* `Shell.parseOptions`: the options among the arguments of a program
-/

namespace AsmInspect.Shell

/-- What a program has and leaves. -/
structure Process where
  files : FileTree
  cwd : String
  /-- What can still be read. -/
  input : Text := []
  out : Text := []
  err : Text := []
  status : Nat := 0
  /-- How long the program takes, in milliseconds. -/
  timeMs : Nat := 0

/-- A program. -/
abbrev Utility := (args : List Text) → Process → Process

/-- The words for an error of a file. -/
def errorText : FileError → Text
  | .notFound => "No such file or directory".toList
  | .permissionDenied => "Permission denied".toList
  | .alreadyExists => "File exists".toList
  | .notDirectory => "Not a directory".toList
  | .isDirectory => "Is a directory".toList
  | .directoryNotEmpty => "Directory not empty".toList
  | _ => "Input/output error".toList

/-- The bytes of a file; a device gives as many as any reader here needs. -/
def readBytes (files : FileTree) (cwd : String) (path : Text) : Except FileError Text :=
  if path == "/dev/zero".toList then .ok (List.replicate 200000 '\x00')
  else (files.read cwd (toStr path)).map ofBytes

namespace Process

/-- The process with more output. -/
def print (process : Process) (text : Text) : Process := { process with out := process.out ++ text }

/-- The process after an error of a certain gravity. -/
def failWith (status : Nat) (process : Process) (message : Text) : Process :=
  { process with err := process.err ++ message ++ ['\n'], status }

/-- The process after an error. -/
def fail (process : Process) (message : Text) : Process := process.failWith 1 message

/-- The process after everything has been read, and what was read. -/
def drain (process : Process) : Process × Text := ({ process with input := [] }, process.input)

/-- The bytes of a file. -/
def bytesOf (process : Process) (path : Text) : Except FileError Text :=
  readBytes process.files process.cwd path

/-- The texts of some files, or of the input if there are none, each with its name. Files that cannot
be read are complained about by a program of a certain name. -/
def inputs (name : String) : List Text → Process → Process × List (Text × Text)
  | [], process => (process, [])
  | path :: rest, process =>
    let (process, found) : Process × List (Text × Text) :=
      if path = ['-'] then
        let (process, text) := process.drain
        (process, [(path, text)])
      else match process.bytesOf path with
        | .ok text => (process, [(path, text)])
        | .error cause =>
          (process.fail (name.toList ++ ": ".toList ++ path ++ ": ".toList ++ errorText cause), [])
    let (process, others) := inputs name rest process
    (process, found ++ others)

/-- The texts of some files, or of the input if there are none. -/
def texts (name : String) (paths : List Text) (process : Process) :
    Process × List (Text × Text) :=
  inputs name (if paths.isEmpty then [['-']] else paths) process

/-- All that some files hold, or the input if there are none. -/
def wholeText (name : String) (paths : List Text) (process : Process) : Process × Text :=
  let (process, found) := texts name paths process
  (process, found.flatMap (·.2))

/-- The process after a change of its files, or after an error. -/
def update (process : Process) (message : Text) (files : Except FileError FileTree) : Process :=
  match files with
  | .ok files => { process with files }
  | .error cause => process.fail (message ++ ": ".toList ++ errorText cause)

end Process

/-- The options among arguments and the other arguments. Letters with values take the rest of their
word or the next word. -/
def options (withValue : List Char) : (most : Nat) → List Text →
    List (Char × Text) × List Text
  | 0, args => ([], args)
  | most + 1, args =>
    match args with
    | ['-', '-'] :: rest => ([], rest)
    | ('-' :: c :: word) :: rest =>
      if withValue.contains c then
        let (value, rest) := if word.isEmpty then ((rest.head?).getD [], rest.tail) else (word, rest)
        let (others, rest) := options withValue most rest
        ((c, value) :: others, rest)
      else
        let rest := if word.isEmpty then rest else ('-' :: word) :: rest
        let (others, rest) := options withValue most rest
        ((c, []) :: others, rest)
    | arg :: rest =>
      let (others, rest) := options withValue most rest
      (others, arg :: rest)
    | [] => ([], [])

/-- The options and the other arguments of a program. -/
def parseOptions (withValue : String) (args : List Text) : List (Char × Text) × List Text :=
  options withValue.toList (args.flatten.length + args.length + 1) args

/-- The value of an option. -/
def optionValue? (found : List (Char × Text)) (c : Char) : Option Text :=
  (found.find? (·.1 == c)).map (·.2)

/-- Whether an option is set. -/
def hasOption (found : List (Char × Text)) (c : Char) : Bool := found.any (·.1 == c)

/-- The number that a text says. -/
def numberOf (text : Text) : Nat := (Text.unsigned? maxWord64 text).getD 0

end AsmInspect.Shell

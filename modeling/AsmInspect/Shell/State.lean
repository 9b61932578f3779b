import AsmInspect.Shell.Script
import AsmInspect.Shell.Utilities

/-!
# The state of a shell

What a script has at its disposal: files, parameters, and channels to read from and to write to.

## Main definitions

* `Shell.Stream`, `Shell.Channel`, `Shell.State`: texts that grow, channels and states
* `State.write`, `State.withProcess`: output, and a program run in the place of a command
* `State.value?`, `State.assign`: parameters
-/

namespace AsmInspect.Shell

/-- A text that grows at its end: its pieces, the latest first. -/
abbrev Stream := List Text

/-- The text of a stream. -/
def Stream.text (stream : Stream) : Text := stream.reverse.flatten

/-- Where text comes from or goes to. -/
inductive Channel where
  /-- A text that is kept, under its number. -/
  | stream (number : Nat)
  /-- The end of a file. -/
  | file (path : String)
  | nowhere
  deriving Inhabited

/-- Why a script does not go on with its next command. -/
inductive Stop where
  | exit
  | leave
  | breaks (loops : Nat)
  | continues (loops : Nat)
  /-- The script was ended by a signal. -/
  | killed
  /-- The time of the script is up. -/
  | overdue
  deriving DecidableEq, Repr

/-- The state of a shell. -/
structure State where
  files : FileTree
  cwd : String
  /-- The name of the script. -/
  name : Text := []
  parameters : List Text := []
  values : List (Text × Text) := []
  /-- The variables that programs see. -/
  exported : List Text := []
  functions : List (Text × Command) := []
  channels : List (Nat × Channel) := []
  streams : List Stream := []
  status : Nat := 0
  line : Nat := 1
  timeMs : Nat := 0
  limitMs : Option Nat := none
  /-- Whether the script ends when a command fails whose status nothing looks at. -/
  stopsOnFailure : Bool := false
  /-- Whether something looks at the status of the command that runs. -/
  watched : Bool := false
  /-- How many loops the command that runs stands in. -/
  loops : Nat := 0
  /-- Whether the script ends when it uses a parameter that has no value. -/
  stopsOnUnset : Bool := false
  /-- Whether there was an error that ends the script. -/
  broken : Bool := false
  /-- What runs when the script is over. -/
  atExit : Text := []
  /-- In a function, the variables local to it with the values they have outside. -/
  shadowed : Option (List (Text × Option Text)) := none
  deriving Inhabited

namespace State

/-- The number of the process that the script is. -/
def processId : Text := "4242".toList

/-- Whether the time of the script is up. -/
def isOverdue (state : State) : Bool :=
  match state.limitMs with
  | some limit => limit ≤ state.timeMs
  | none => false

/-- The channel of a file descriptor. -/
def channel (state : State) (fd : Nat) : Channel :=
  ((state.channels.find? (·.1 == fd)).map (·.2)).getD .nowhere

/-- The state with another channel at a file descriptor. -/
def connect (state : State) (fd : Nat) (channel : Channel) : State :=
  { state with channels := (fd, channel) :: state.channels.filter (·.1 != fd) }

/-- The state with one more text that is kept, and its channel. -/
def keep (state : State) (text : Text) : State × Channel :=
  ({ state with streams := state.streams ++ [[text]] }, .stream state.streams.length)

/-- The text that is kept under a number. -/
def streamText (state : State) (number : Nat) : Text :=
  Stream.text ((state.streams[number]?).getD [])

/-- The state after text has gone to a channel. -/
def send (state : State) (channel : Channel) (text : Text) : State :=
  if text.isEmpty then state
  else match channel with
    | .stream number =>
      { state with streams := state.streams.modify number (text :: ·) }
    | .file path =>
      let old := ((state.files.read "/" path).toOption).getD []
      match state.files.write "/" path (old ++ toBytes text) false with
      | .ok files => { state with files }
      | .error _ => state
    | .nowhere => state

/-- The state after output. -/
def write (state : State) (text : Text) : State := state.send (state.channel 1) text

/-- The state after a complaint. -/
def complain (state : State) (text : Text) (status : Nat) : State :=
  let place := state.name ++ ": ".toList ++ digitsOf 10 state.line ++ ": ".toList
  { state.send (state.channel 2) (place ++ text ++ ['\n']) with status }

/-- The state after a complaint that ends the script. -/
def breakOff (state : State) (text : Text) : State :=
  { state.complain text 2 with broken := true }

/-- What can be read. -/
def input (state : State) : Text :=
  match state.channel 0 with
  | .stream number => state.streamText number
  | _ => []

/-- The state with less to read. -/
def withInput (state : State) (text : Text) : State :=
  match state.channel 0 with
  | .stream number => { state with streams := state.streams.set number [text] }
  | _ => state

/-- The state after a program has run. -/
def withProcess (state : State) (program : Process → Process) : State :=
  let process := program { files := state.files, cwd := state.cwd, input := state.input }
  let state := { state with
    files := process.files, status := process.status, timeMs := state.timeMs + process.timeMs }
  ((state.withInput process.input).send (state.channel 1) process.out).send (state.channel 2)
    process.err

/-- The value of a parameter. -/
def value? (state : State) (name : Text) : Option Text :=
  match name with
  | ['#'] => some (digitsOf 10 state.parameters.length)
  | ['?'] => some (digitsOf 10 state.status)
  | ['$'] => some processId
  | ['0'] => some state.name
  | ['!'] | ['-'] => some []
  | ['@'] | ['*'] =>
    if state.parameters.isEmpty then none else some (Text.join [' '] state.parameters)
  | _ =>
    if name.all Char.isDigit then state.parameters[numberOf name - 1]?
    else (state.values.find? (·.1 == name)).map (·.2)

/-- The state with another value of a variable. -/
def assign (state : State) (name value : Text) : State :=
  { state with values := (name, value) :: state.values.filter (·.1 != name) }

/-- The state without a variable. -/
def forget (state : State) (name : Text) : State :=
  { state with values := state.values.filter (·.1 != name) }

/-- The characters between which values are split into fields. -/
def separators (state : State) : Text := (state.value? "IFS".toList).getD [' ', '\t', '\n']

/-- The characters between which a word is split, if it is split at all. -/
def splitting (state : State) (split : Bool) : Text := if split then state.separators else []

/-- The state with a variable that programs see. -/
def markExported (state : State) (name : Text) : State :=
  { state with exported := if state.exported.contains name then state.exported
      else name :: state.exported }

/-- The number that a variable says. -/
def number (state : State) (name : Text) : Int :=
  ((state.value? name).map fun value => (integerValue value).1).getD 0

/-- The state in another working directory. -/
def moved (state : State) (path : String) : State :=
  { state with cwd := path }.assign "PWD".toList (ofString path)

/-- The state after the working directory has changed, if there is such a directory. -/
def enter? (state : State) (path : Text) : Option State :=
  match state.files.locate state.cwd (toStr path) with
  | .ok place =>
    if state.files.node? place == some .directory then
      some ((state.assign "OLDPWD".toList (ofString state.cwd)).moved place.path)
    else none
  | .error _ => none

/-- The state of a part of the script that runs on its own, back in the script: files, texts and the
time are shared. -/
def rejoin (outer inner : State) : State :=
  { outer with
    files := inner.files, streams := inner.streams, status := inner.status, timeMs := inner.timeMs }

end State

end AsmInspect.Shell

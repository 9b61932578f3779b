import AsmInspect.Shell.Field

/-!
# Commands of the shell itself

Commands that change the state of the shell or only look at it: tests, variables, options, and the
ends of scripts and loops.

## Main definitions

* `Shell.Progress`: a state, and why the script does not go on
* `Shell.testHolds`: tests
* `Shell.readLine`: a line read into variables
* `Shell.builtin?`: the commands by name
-/

namespace AsmInspect.Shell

/-- A state, and why the script does not go on, if it does not. -/
abbrev Progress := State × Option Stop

/-- The state after a command that does nothing but succeed or fail. -/
def finished (state : State) (success : Bool) : Progress :=
  ({ state with status := if success then 0 else 1 }, none)

/-- Whether a test of one argument holds. -/
def unaryTest (state : State) (operator : String) (value : Text) : Bool :=
  let node := (state.files.find state.cwd (toStr value)).toOption
  match operator with
  | "-n" => !value.isEmpty
  | "-z" => value.isEmpty
  | "-e" | "-r" | "-w" => node.isSome
  | "-f" => match node with
    | some (.file ..) => true
    | _ => false
  | "-d" => node == some .directory
  | "-x" => match node with
    | some (.file _ executable) => executable
    | some .directory => true
    | none => false
  | "-s" => match node with
    | some (.file bytes _) => !bytes.isEmpty
    | some .directory => true
    | none => false
  | _ => false

/-- The tests that compare two numbers. -/
def comparison? (operator : String) : Option (Int → Int → Bool) :=
  match operator with
  | "-eq" => some fun a b => a == b
  | "-ne" => some fun a b => a != b
  | "-lt" => some fun a b => a < b
  | "-le" => some fun a b => a ≤ b
  | "-gt" => some fun a b => b < a
  | "-ge" => some fun a b => b ≤ a
  | _ => none

/-- The decimal number that an argument says, between blanks. -/
def decimal? (text : Text) : Option Int :=
  let core := Text.trim text
  match core with
  | '-' :: digits =>
    if digits.head?.any Char.isDigit then (Text.unsigned? maxWord64 digits).map (-Int.ofNat ·)
    else none
  | _ => (Text.unsigned? maxWord64 core).map Int.ofNat

/-- Whether a test of two arguments holds, or the argument that should be a number. -/
def binaryTest (left : Text) (operator : String) (right : Text) : Except Text Bool :=
  match operator with
  | "=" | "==" => .ok (left == right)
  | "!=" => .ok (left != right)
  | _ =>
    match comparison? operator with
    | none => .ok false
    | some holds =>
      match decimal? left, decimal? right with
      | some a, some b => .ok (holds a b)
      | none, _ => .error left
      | _, none => .error right

/-- Whether a test holds, or the argument that should be a number. -/
def testHolds (state : State) : (most : Nat) → List Text → Except Text Bool
  | 0, _ => .ok false
  | _ + 1, [] => .ok false
  | _ + 1, [value] => .ok !value.isEmpty
  | most + 1, first :: rest =>
    match rest.idxOf? "-o".toList with
    | some n => do
      if ← testHolds state most (first :: rest.take n) then return true
      testHolds state most (rest.drop (n + 1))
    | none =>
      match rest.idxOf? "-a".toList with
      | some n => do
        if !(← testHolds state most (first :: rest.take n)) then return false
        testHolds state most (rest.drop (n + 1))
      | none =>
        match rest with
        | [operator, right] =>
          if first = ['!'] then (testHolds state most rest).map (!·)
          else binaryTest first (String.ofList operator) right
        | [value] =>
          .ok (if first = ['!'] then value.isEmpty
            else unaryTest state (String.ofList first) value)
        | _ => if first = ['!'] then (testHolds state most rest).map (!·) else .ok false

/-- The state after a test of a certain name. -/
def tested (state : State) (name : String) (args : List Text) : Progress :=
  match testHolds state (2 * args.length + 2) args with
  | .ok holds => finished state holds
  | .error value =>
    (state.complain (name.toList ++ ": Illegal number: ".toList ++ value) 2, none)

/-- The characters up to the end of a line, each with whether a backslash stands before it, whether
the line has an end, and what follows it. Backslashes at the end of a line join it to the next one;
if `raw` is on they are characters like others. -/
def logicalLine (raw : Bool) : Text → Field × Bool × Text
  | [] => ([], false, [])
  | '\n' :: rest => ([], true, rest)
  | '\\' :: c :: rest =>
    if raw then
      let (line, closed, after) := logicalLine raw (c :: rest)
      (('\\', false) :: line, closed, after)
    else
      let (line, closed, after) := logicalLine raw rest
      (if c = '\n' then line else (c, true) :: line, closed, after)
  | c :: rest =>
    let (line, closed, after) := logicalLine raw rest
    ((c, false) :: line, closed, after)

/-- A line split at separators, the last part of which takes all that is left. -/
def splitLine (separators : Text) : (parts : Nat) → Field → List Text
  | 0, _ => []
  | parts + 1, line =>
    let isBlank : Char × Bool → Bool := fun (c, escaped) =>
      !escaped && separators.contains c && (c == ' ' || c == '\t' || c == '\n')
    let line := line.dropWhile isBlank
    if parts = 0 then [Field.text (line.reverse.dropWhile isBlank).reverse]
    else
      let ends : Char × Bool → Bool := fun (c, escaped) => !escaped && separators.contains c
      let first := line.takeWhile (!ends ·)
      let rest := (line.drop first.length).dropWhile isBlank
      let rest := if rest.head?.any ends then rest.tail else rest
      Field.text first :: splitLine separators parts rest

/-- The state after a line has been read into variables. -/
def readLine (state : State) (args : List Text) : State :=
  let names := args.filter fun arg => arg.head? != some '-'
  let (line, closed, rest) := logicalLine (args.contains ['-', 'r']) state.input
  let values := names.zip (splitLine state.separators names.length line)
  let state := values.foldl (fun (state : State) (name, value) => state.assign name value) state
  { state.withInput rest with status := if closed then 0 else 1 }

/-- The variables set by arguments, or only made known. -/
def declare (exports : Bool) (state : State) (args : List Text) : State :=
  args.foldl (fun (state : State) arg =>
    let (name, state) : Text × State := match Text.cutAt? '=' arg with
      | some (name, value) => (name, state.assign name value)
      | none => (arg, state)
    if exports then state.markExported name else state) { state with status := 0 }

/-- The variables made local to the function that runs, with what they had outside kept. -/
def declareLocal (state : State) (args : List Text) : Progress :=
  match state.shadowed with
  | none => (state.breakOff "local: not in a function".toList, some .exit)
  | some shadowed =>
    let names := args.map fun arg => arg.takeWhile (· != '=')
    let kept := names.map fun name => (name, state.value? name)
    (declare false { state with shadowed := some (kept.reverse ++ shadowed) } args, none)

/-- The state after a function has run that was called in the state `outside`: its parameters and
its local variables are gone. -/
def State.leaveFunction (outside inside : State) : State :=
  let state := ((inside.shadowed).getD []).foldl (fun (state : State) (name, value) =>
    match value with
    | some value => state.assign name value
    | none => state.forget name) inside
  { state with parameters := outside.parameters, shadowed := outside.shadowed }

/-- The state after options of the shell have been set or, after a plus sign, taken back. -/
def withOptions (on : Bool) (state : State) (letters : Text) : State :=
  letters.foldl (fun (state : State) letter =>
    match letter with
    | 'e' => { state with stopsOnFailure := on }
    | 'u' => { state with stopsOnUnset := on }
    | _ => state) state

/-- The state after options and parameters have been set. -/
def setAll : List Text → State → State
  | [], state => state
  | ['-', '-'] :: rest, state => { state with parameters := rest }
  | ['-', 'o'] :: _ :: rest, state => setAll rest state
  | ('-' :: letters) :: rest, state => setAll rest (withOptions true state letters)
  | ('+' :: letters) :: rest, state => setAll rest (withOptions false state letters)
  | args, state => { state with parameters := args }

/-- The state after a command has been set to run at the end of the script. -/
def trapped (state : State) (args : List Text) : State :=
  match args with
  | [action, signal] =>
    if signal == "EXIT".toList || signal == ['0'] then
      { state with atExit := if action == ['-'] then [] else action }
    else state
  | _ => state

/-- A command that takes a number and does something with it. -/
def withNumber (state : State) (name : String) (default : Nat) (args : List Text)
    (act : Nat → Progress) : Progress :=
  match args with
  | [] => act default
  | arg :: _ =>
    match if arg.all Char.isDigit then Text.unsigned? maxWord64 arg else none with
    | some n => act n
    | none =>
      (state.breakOff (name.toList ++ ": Illegal number: ".toList ++ arg), some .exit)

/-- Whether a signal is sent to the script itself, and ends it. -/
def endsItself (args : List Text) : Bool :=
  let signals := args.filter fun arg => arg.head? == some '-'
  args.contains State.processId && !signals.any fun signal =>
    ["-0", "-CONT", "-CHLD", "-18", "-17", "-WINCH", "-URG"].contains (String.ofList signal)

/-- The commands that are part of the shell; nothing for other names. -/
def builtin? (state : State) (name : String) (args : List Text) : Option Progress :=
  let status (n : Nat) : State := { state with status := n }
  match name with
  | ":" | "true" | "wait" | "ulimit" => some (finished state true)
  | "false" => some (finished state false)
  | "trap" => some (finished (trapped state args) true)
  | "umask" =>
    some (finished (if args.isEmpty then state.write "0022\n".toList else state) true)
  | "exit" => some (withNumber state name state.status args fun n =>
      (status (n % 256), some .exit))
  | "return" => some (withNumber state name state.status args fun n =>
      (status (n % 256), some .leave))
  | "break" => some (withNumber state name 1 args fun n =>
      (status 0, if state.loops = 0 then none else some (.breaks n)))
  | "continue" => some (withNumber state name 1 args fun n =>
      (status 0, if state.loops = 0 then none else some (.continues n)))
  | "echo" => some (finished (state.write (echoText args)) true)
  | "printf" =>
    let args := if args.head? == some ['-', '-'] then args.tail else args
    match args with
    | [] => some (state.complain "printf: usage: printf format [arg ...]".toList 2, none)
    | format :: values => some (finished (state.write (printfText format values)) true)
  | "pwd" => some (finished (state.write (ofString state.cwd ++ ['\n'])) true)
  | "test" => some (tested state name args)
  | "[" =>
    if args.getLast? == some [']'] then some (tested state name args.dropLast)
    else some (state.complain "[: missing ]".toList 2, none)
  | "cd" =>
    let back := args.head? == some ['-']
    let path := if back then (state.value? "OLDPWD".toList).getD []
      else (args.head?).getD ((state.value? "HOME".toList).getD ['/'])
    match state.enter? path with
    | some state =>
      some (finished (if back then state.write (path ++ ['\n']) else state) true)
    | none => some (state.complain ("cd: can't cd to ".toList ++ path) 2, none)
  | "shift" => some (withNumber state name 1 args fun n =>
      if state.parameters.length < n then
        (state.complain "shift: can't shift that many".toList 2, some .exit)
      else finished { state with parameters := state.parameters.drop n } true)
  | "set" => some (finished (setAll args state) true)
  | "unset" =>
    let names := args.filter fun arg => arg.head? != some '-'
    some (finished (names.foldl State.forget state) true)
  | "export" => some (declare true state args, none)
  | "readonly" => some (declare false state args, none)
  | "local" => some (declareLocal state args)
  | "read" => some (readLine state args, none)
  | "kill" => if endsItself args then some (state, some .killed) else some (finished state true)
  | _ => none

end AsmInspect.Shell

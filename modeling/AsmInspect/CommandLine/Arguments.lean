import AsmInspect.Text.Basic

/-!
# Arguments of the command line

A command line names one of three commands. Options may stand anywhere; those that concern every
command may also stand before its name. An option is written out or as a letter, and letters may be
put together. What follows two hyphens is passed on as it is.

## Main definitions

* `Switch`, `Findings`, `readSwitches`: options, and how they are found among arguments
* `Command`, `CommandLine`: what a command line asks for
* `CommandLine.ofArguments`: the command line that some arguments are
-/

namespace AsmInspect

/-- Why arguments do not ask for a command. -/
inductive UsageFault where
  /-- The arguments are not understood. -/
  | misused
  | asksForHelp
  | asksForVersion
  deriving DecidableEq, Repr

/-- An option. -/
structure Switch where
  name : String
  letter : Option Char := none
  /-- Whether a value goes with the option. -/
  valued : Bool := false
  /-- Whether the option may come more than once. -/
  repeatable : Bool := false
  deriving DecidableEq, Repr

/-- What has been found among arguments. -/
structure Findings where
  /-- The options with their values, in the order in which they came. -/
  values : List (String × String) := []
  /-- The other arguments. -/
  others : List String := []
  /-- What follows two hyphens; nothing if there are none. -/
  passed : Option (List String) := none
  deriving DecidableEq, Repr

namespace Findings

/-- Whether an option has been found. -/
def has (found : Findings) (name : String) : Bool := found.values.any (·.1 == name)

/-- The values of an option. -/
def all (found : Findings) (name : String) : List String :=
  (found.values.filter (·.1 == name)).map (·.2)

/-- The value of an option. -/
def value? (found : Findings) (name : String) : Option String := (found.all name).head?

/-- The findings with one more option, unless it may not come again. -/
def add (found : Findings) (switch : Switch) (value : String) : Except UsageFault Findings :=
  if found.has switch.name && !switch.repeatable then .error .misused
  else .ok { found with values := found.values ++ [(switch.name, value)] }

end Findings

/-- The options that are understood everywhere. -/
def commonSwitches : List Switch :=
  [{ name := "config", letter := some 'c', valued := true },
    { name := "verbose", letter := some 'v' }, { name := "help", letter := some 'h' }]

/-- The findings after an option without a value; some options end everything. -/
def addFlag (found : Findings) (switch : Switch) : Except UsageFault Findings :=
  if switch.name == "help" then .error .asksForHelp
  else if switch.name == "version" then .error .asksForVersion
  else found.add switch ""

/-- The value of an option in the argument after it, and the arguments after that. -/
def nextValue : List String → Except UsageFault (String × List String)
  | value :: rest =>
    if value.toList.head? == some '-' && value != "-" then .error .misused else .ok (value, rest)
  | [] => .error .misused

/-- The findings after an option that is written out, and the arguments after it. -/
def readLong (switches : List Switch) (found : Findings) (text : Text) (rest : List String) :
    Except UsageFault (Findings × List String) :=
  let (name, value) : Text × Option Text := match Text.cutAt? '=' text with
    | some (name, value) => (name, some value)
    | none => (text, none)
  match switches.find? (·.name.toList == name), value with
  | none, _ => .error .misused
  | some switch, some value =>
    if switch.valued then do return (← found.add switch (String.ofList value), rest)
    else .error .misused
  | some switch, none =>
    if switch.valued then do
      let (value, rest) ← nextValue rest
      return (← found.add switch value, rest)
    else do return (← addFlag found switch, rest)

/-- The findings after options that are letters, and the arguments after them. The rest of the letters
is the value of an option that has one. -/
def readLetters (switches : List Switch) (found : Findings) :
    Text → List String → Except UsageFault (Findings × List String)
  | [], rest => .ok (found, rest)
  | letter :: letters, rest =>
    match switches.find? (·.letter == some letter) with
    | none => .error .misused
    | some switch =>
      if switch.valued then
        if letters.isEmpty then do
          let (value, rest) ← nextValue rest
          return (← found.add switch value, rest)
        else do
          let value := if letters.head? == some '=' then letters.tail else letters
          return (← found.add switch (String.ofList value), rest)
      else do
        let found ← addFlag found switch
        readLetters switches found letters rest

/-- What is found among arguments, up to the first other argument if `stops` is on; then that
argument and those after it are left. -/
def readSwitches (switches : List Switch) (stops : Bool) :
    (most : Nat) → Findings → List String → Except UsageFault (Findings × List String)
  | 0, _, _ => .error .misused
  | _ + 1, found, [] => .ok (found, [])
  | most + 1, found, arg :: rest =>
    match arg.toList with
    | ['-', '-'] => .ok ({ found with passed := some rest }, [])
    | '-' :: '-' :: text => do
      let (found, rest) ← readLong switches found text rest
      readSwitches switches stops most found rest
    | '-' :: c :: letters => do
      let (found, rest) ← readLetters switches found (c :: letters) rest
      readSwitches switches stops most found rest
    | _ =>
      if stops then .ok (found, arg :: rest)
      else readSwitches switches stops most { found with others := found.others ++ [arg] } rest

/-- What a compilation is asked for with. -/
structure CompileOptions where
  compiler : String
  /-- The path of the source. -/
  source : String
  filters : List String := []
  intel : Bool := false
  highPriority : Bool := false
  /-- What is passed on to the compiler. -/
  options : List String := []
  deriving DecidableEq, Repr

/-- A command. -/
inductive Command where
  | compile (options : CompileOptions)
  | list (instructionSet : Option String)
  | health
  deriving DecidableEq, Repr

/-- What a command line asks for. -/
structure CommandLine where
  /-- The path of the configuration. -/
  config : String := "asmview.toml"
  command : Command
  deriving DecidableEq, Repr

namespace CommandLine

/-- The command that findings after its name describe. -/
def commandOf (name : String) (found : Findings) : Except UsageFault Command :=
  match name, found.others, found.passed.getD [] with
  | "list", [], [] => .ok (.list (found.value? "instruction-set"))
  | "health", [], [] => .ok .health
  | "compile", [source], options =>
    match found.value? "compiler" with
    | some compiler =>
      if source.isEmpty then .error .misused
      else
        let names := (found.all "filter").flatMap fun value =>
          (Text.splitAt ',' value.toList).map String.ofList
        .ok (.compile {
          compiler, source, options, filters := names, intel := found.has "intel"
          highPriority := found.has "high-priority" })
    | none => .error .misused
  | _, _, _ => .error .misused

/-- The options of a command. -/
def switchesOf : String → Option (List Switch)
  | "list" => some [{ name := "instruction-set", valued := true }]
  | "health" => some []
  | "compile" =>
    some [{ name := "compiler", valued := true },
      { name := "filter", letter := some 'f', valued := true, repeatable := true },
      { name := "intel" }, { name := "high-priority" }]
  | _ => none

/-- The command line that some arguments are. -/
def ofArguments (args : List String) : Except UsageFault CommandLine := do
  let most := args.length + 1
  let version : Switch := { name := "version", letter := some 'V' }
  let (before, rest) ← readSwitches (version :: commonSwitches) true most {} args
  match rest with
  | "help" :: _ => throw .asksForHelp
  | name :: rest =>
    match switchesOf name with
    | none => throw .misused
    | some switches =>
      let (found, _) ← readSwitches (switches ++ commonSwitches) false most {} rest
      let command ← commandOf name found
      let configs := found.all "config" ++ before.all "config"
      if configs.contains "" then throw .misused
      return { config := (configs.head?).getD "asmview.toml", command }
  | [] => throw .misused

end CommandLine

end AsmInspect

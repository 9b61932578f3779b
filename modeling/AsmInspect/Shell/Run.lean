import AsmInspect.Shell.Arithmetic
import AsmInspect.Shell.Builtin

/-!
# Running scripts

A script is run command by command. Every step takes from a supply of steps, so that a script
without an end stops too; its time is then up.

## Main definitions

* `Shell.evaluate`: a command run in a state
* `Shell.runText`: a script run in a state
* `Shell.call`, `Shell.start`: a command and a program run with arguments
-/

namespace AsmInspect.Shell

/-- The state in which a program starts: it has the variables that are made known, and a name and
parameters of its own. -/
def fresh (state : State) (name : Text) (parameters : List Text) : State :=
  let values := state.values.filter fun (name, _) => state.exported.contains name
  let state : State :=
    { files := state.files, cwd := state.cwd, name, parameters, values
      exported := state.exported, channels := state.channels, streams := state.streams
      timeMs := state.timeMs, limitMs := state.limitMs }
  state.moved state.cwd

/-- How the kernel starts a file. -/
inductive Image where
  /-- A script, with the program that reads it and an argument for that program. -/
  | script (interpreter : Text) (argument : Option Text)
  | program (utility : Utility)
  | shell
  /-- The program that runs another one with other variables. -/
  | environment

/-- The directories in which the programs of the system are. -/
def systemDirectories : List FileTree.Place := [["bin"], ["usr", "bin"]]

/-- Whether a name is one of the shell. -/
def isShellName (name : String) : Bool := name == "sh" || name == "dash"

/-- How the file at a path is started, or why it cannot be. -/
def image (files : FileTree) (cwd path : String) : Except FileError Image := do
  let place ← files.locate cwd path
  match ← files.find cwd path with
  | .directory => .error .permissionDenied
  | .file bytes executable =>
    if !executable then .error .permissionDenied
    else
      let name := (place.getLast?).getD ""
      let isSystem := systemDirectories.contains place.dropLast
      match if isSystem then utility? name else none with
      | some utility => .ok (.program utility)
      | none =>
        if isSystem && isShellName name then .ok .shell
        else if isSystem && name == "env" then .ok .environment
        else match ofBytes bytes with
          | '#' :: '!' :: rest =>
            let words := Text.words (rest.takeWhile (· != '\n'))
            match words with
            | interpreter :: rest => .ok (.script interpreter rest.head?)
            | [] => .error .notExecutable
          | _ => .error .notExecutable

/-- The path of a command that is given by name alone. -/
def search (state : State) (name : String) : Option String :=
  let directories := Text.splitAt ':' ((state.value? "PATH".toList).getD [])
  (directories.map fun directory => toStr directory ++ "/" ++ name).find? fun path =>
    match state.files.find state.cwd path with
    | .ok (.file ..) => true
    | _ => false

/-- The state inside of one more loop. -/
def State.enterLoop (state : State) : State := { state with loops := state.loops + 1 }

/-- The state after a loop. -/
def leaveLoop (progress : Progress) : Progress :=
  ({ progress.1 with loops := progress.1.loops - 1 }, progress.2)

/-- The end of the script if a command has failed and that is a reason to stop. -/
def checked (progress : Progress) : Progress :=
  let (state, stop) := progress
  if stop.isNone && state.status != 0 && state.stopsOnFailure && !state.watched then
    (state, some .exit)
  else progress

/-- The path of a command: what is given if there is a slash in it, or else what is found by name. -/
def locate? (state : State) (name : Text) : Option Text :=
  if name.contains '/' then some name else (search state (String.ofList name)).map ofString

/-- The names of the commands that the shell itself handles and that are no programs. -/
def shellWords : List String :=
  ["eval", "exec", "command", ".", "if", "then", "else", "elif", "fi", "for", "while", "until", "do",
    "done", "case", "esac", "\x7b", "\x7d", "!"]

/-- What a command of a name is: its name, or the path of a program. -/
def whereabouts? (state : State) (name : Text) : Option Text :=
  let known := state.functions.any (·.1 == name) || shellWords.contains (String.ofList name) ||
    (builtin? state (String.ofList name) []).isSome
  if known then some name
  else (locate? state name).filter fun path => state.files.contains state.cwd (toStr path)

/-- How a shell starts: its state and what it reads, after options, and nothing to read if there is no
such script. -/
def shellStart : List Text → State → State × Option Text
  | [], state => (state.withInput [], some state.input)
  | arg :: rest, state =>
    match arg with
    | '-' :: c :: letters =>
      let state := withOptions true state (c :: letters)
      if (c :: letters).contains 'c' then
        match rest with
        | [] => (state.complain "-c requires an argument".toList 2, none)
        | source :: rest =>
          ({ state with name := (rest.head?).getD state.name, parameters := rest.tail }, some source)
      else if (c :: letters).contains 's' then
        ({ state with parameters := rest }.withInput [], some state.input)
      else shellStart rest state
    | _ =>
      match state.files.read state.cwd (toStr arg) with
      | .ok bytes => ({ state with name := arg, parameters := rest }, some (ofBytes bytes))
      | .error _ =>
        ({ state with line := 0 }.complain
          ("cannot open ".toList ++ arg ++ ": No such file".toList) 2, none)

mutual

/-- A word replaced. -/
def expand (most : Nat) (split : Bool) (word : Word) (state : State) : State × List Item :=
  match most with
  | 0 => (state, [])
  | most + 1 =>
    match word with
    | [] => (state, [])
    | part :: rest =>
      let (state, first) := expandPart most split part state
      let (state, others) := expand most split rest state
      (state, first ++ others)

/-- A part of a word replaced. -/
def expandPart (most : Nat) (split : Bool) (part : Part) (state : State) : State × List Item :=
  match most with
  | 0 => (state, [])
  | most + 1 =>
    match part with
    | .literal text quoted => (state, items [] quoted text)
    | .arithmetic source quoted =>
      let (state, text) := expandText most source state
      match arithmetic state.number text with
      | .ok (n, changes) =>
        let state := changes.foldl (fun (state : State) (name, value) =>
          state.assign name (toString value).toList) state
        (state, items (state.splitting split) quoted (toString n).toList)
      | .error error => (state.breakOff (error.message text), [])
    | .output source quoted =>
      let (state, text) := capture most source state
      (state, items (state.splitting split) quoted text)
    | .parameter name modifier argument quoted =>
      match name, modifier with
      | ['@'], [] => (state, itemsOfAll split (state.splitting split) quoted state.parameters)
      | ['*'], [] =>
        (state,
          if quoted then items [] true (Text.join (state.separators.take 1) state.parameters)
          else itemsOfAll split (state.splitting split) false state.parameters)
      | _, _ => expandParameter most split name modifier argument quoted state

/-- A parameter with a modifier replaced. -/
def expandParameter (most : Nat) (split : Bool) (name modifier argument : Text) (quoted : Bool)
    (state : State) : State × List Item :=
  match most with
  | 0 => (state, [])
  | most + 1 =>
    let value := state.value? name
    let separators := state.splitting split
    let known := items separators quoted (value.getD [])
    let isThere := match modifier.head? with
      | some ':' => !(value.getD []).isEmpty
      | _ => value.isSome
    let other (state : State) : State × List Item :=
      let (state, found) := expandSource most split argument state
      (state, if quoted then .present :: found.map fun
        | .char c _ => .char c true
        | .gap | .cut => .char ' ' true
        | .present => .present else found)
    match String.ofList modifier with
    | ":-" | "-" => if isThere then (state, known) else other state
    | ":+" | "+" => if isThere then other state else (state, if quoted then [.present] else [])
    | ":=" | "=" =>
      if isThere then (state, known)
      else
        let (state, found) := expandSource most false argument state
        let text := (wholeField found).text
        (state.assign name text, items separators quoted text)
    | ":?" | "?" =>
      if isThere then (state, known)
      else
        let (state, found) := expandSource most false argument state
        let reason := if !argument.isEmpty then (wholeField found).text
          else if modifier.length = 1 then "parameter not set".toList
          else "parameter not set or null".toList
        (state.breakOff (name ++ ": ".toList ++ reason), [])
    | operator =>
      if value.isNone && state.stopsOnUnset && name != ['@'] && name != ['*'] then
        (state.breakOff (name ++ ": parameter not set".toList), [])
      else if operator.isEmpty then (state, known)
      else if operator == "###" then
        (state, items separators quoted (digitsOf 10 (value.getD []).length))
      else
        let (state, found) := expandSource most false argument state
        (state, items separators quoted
          (modify modifier (Pattern.ofMarked (wholeField found)) (value.getD [])))

/-- The source of a word replaced. -/
def expandSource (most : Nat) (split : Bool) (source : Text) (state : State) :
    State × List Item :=
  match most with
  | 0 => (state, [])
  | most + 1 =>
    match scanWord? false (source.length + 1) [] source with
    | some (word, _) => expand most split word state
    | none => (state, items (state.splitting split) false source)

/-- The source of a text replaced as if in double quotes. -/
def expandText (most : Nat) (source : Text) (state : State) : State × Text :=
  match most with
  | 0 => (state, [])
  | most + 1 =>
    match scanQuoted? none (source.length + 1) [] source with
    | some (word, _) =>
      let (state, found) := expand most false word.reverse state
      (state, (wholeField found).text)
    | none => (state, source)

/-- The output of a script without line feeds at its end. -/
def capture (most : Nat) (source : Text) (state : State) : State × Text :=
  match most with
  | 0 => (state, [])
  | most + 1 =>
    let (state, channel) := state.keep []
    let inner := runText most source { state.connect 1 channel with watched := false }
    let state := state.rejoin inner.1
    match channel with
    | .stream number => (state, Text.dropEndWhile (· == '\n') (state.streamText number))
    | _ => (state, [])

/-- Words replaced, split into fields and with patterns in place of paths. -/
def expandAll (most : Nat) (words : List Word) (state : State) : State × List Text :=
  match most with
  | 0 => (state, [])
  | most + 1 =>
    match words with
    | [] => (state, [])
    | word :: rest =>
      let (state, found) := expand most true word state
      let (state, others) := expandAll most rest state
      (state, (fields found).flatMap state.paths ++ others)

/-- The text of a word that is not split. -/
def expandOne (most : Nat) (word : Word) (state : State) : State × Field :=
  match most with
  | 0 => (state, [])
  | most + 1 =>
    let (state, found) := expand most false word state
    (state, wholeField found)

/-- The state with redirected channels; a complaint if one cannot be opened. -/
def redirect (most : Nat) (redirects : List Redirect) (state : State) : State × Bool :=
  match most with
  | 0 => (state, false)
  | most + 1 =>
    match redirects with
    | [] => (state, true)
    | .here fd content :: rest =>
      let (state, text) := expandOne most content state
      let (state, channel) := state.keep text.text
      redirect most rest (state.connect fd channel)
    | .duplicate fd target :: rest =>
      let (state, text) := expandOne most target state
      let channel := if text.text.all Char.isDigit && !text.isEmpty then
          state.channel (numberOf text.text) else .nowhere
      redirect most rest (state.connect fd channel)
    | .input fd path :: rest =>
      let (state, field) := expandOne most path state
      let path := field.text
      match readBytes state.files state.cwd path with
      | .ok text =>
        let (state, channel) := state.keep text
        redirect most rest (state.connect fd channel)
      | .error .isDirectory => redirect most rest (state.connect fd .nowhere)
      | .error cause =>
        let reason := if cause = .notFound then "No such file".toList else errorText cause
        (state.complain ("cannot open ".toList ++ path ++ ": ".toList ++ reason) 2, false)
    | .output fd path append :: rest =>
      let (state, field) := expandOne most path state
      let path := field.text
      match toStr path with
      | "/dev/stdout" => redirect most rest (state.connect fd (state.channel 1))
      | "/dev/stderr" => redirect most rest (state.connect fd (state.channel 2))
      | "/dev/null" => redirect most rest (state.connect fd .nowhere)
      | path' =>
        let old := if append then ((state.files.read state.cwd path').toOption).getD [] else []
        match state.files.write state.cwd path' old false, state.files.locate state.cwd path' with
        | .ok files, .ok place =>
          redirect most rest ({ state with files }.connect fd (.file place.path))
        | .error cause, _ =>
          let reason := if cause = .notFound then "Directory nonexistent".toList else errorText cause
          (state.complain ("cannot create ".toList ++ path ++ ": ".toList ++ reason) 2, false)
        | _, .error _ => (state, false)

/-- The program at a path run with arguments, under the name by which it was called. -/
def start (most : Nat) (path called : Text) (args : List Text) (state : State) : Progress :=
  match most with
  | 0 => (state, some .overdue)
  | most + 1 =>
    match image state.files state.cwd (toStr path) with
    | .error .notFound => (state.complain (path ++ ": not found".toList) 127, none)
    | .error cause => (state.complain (path ++ ": ".toList ++ errorText cause) 126, none)
    | .ok found =>
      let (inner, stop) := startImage most found path called args state
      (state.rejoin inner, match stop with
        | some .overdue => some .overdue
        | _ => none)

/-- A program run with arguments, under the path it was started by and the name it was called by. -/
def startImage (most : Nat) (found : Image) (path called : Text) (args : List Text) (state : State) :
    Progress :=
  match most with
  | 0 => (state, some .overdue)
  | most + 1 =>
    match found with
    | .program utility =>
      let state := state.withProcess (utility args)
      (state, if state.isOverdue then some .overdue else none)
    | .script interpreter argument =>
      match image state.files state.cwd (toStr interpreter) with
      | .error _ => (state.complain (path ++ ": not found".toList) 127, none)
      | .ok found => startImage most found interpreter interpreter (argument.toList ++ path :: args) state
    | .environment => runEnvironment most args state
    | .shell =>
      let (inner, source?) := shellStart args (fresh state called [])
      match source? with
      | none => (state.rejoin inner, none)
      | some source =>
        let (inner, stop) := runScript most source inner
        (state.rejoin inner, match stop with
          | some .overdue => some .overdue
          | some .killed => some .killed
          | _ => none)

/-- A script run in a state, with what runs when it is over. -/
def runScript (most : Nat) (source : Text) (state : State) : Progress :=
  match most with
  | 0 => (state, some .overdue)
  | most + 1 =>
    let (state, stop) := runText most source state
    if state.atExit.isEmpty || stop = some .killed || stop = some .overdue then (state, stop)
    else
      let (after, stop) := runText most state.atExit { state with broken := false }
      (if stop = some .exit then after else { after with status := state.status }, stop)

/-- A program run with other variables, as the arguments say: first whether to start without any, then
those to be set, and then the program. -/
def runEnvironment (most : Nat) (args : List Text) (state : State) : Progress :=
  match most with
  | 0 => (state, some .overdue)
  | most + 1 =>
    let empties := args.head? == some ['-'] || args.head? == some ['-', 'i']
    let first := if empties then { state with values := [], exported := [] } else state
    let args := if empties then args.tail else args
    let settings := args.takeWhile (·.contains '=')
    let inner := declare true first settings
    match args.drop settings.length with
    | name :: args =>
      match (whereabouts? { state with functions := [] } name).bind fun _ => locate? state name with
      | some path =>
        let (inner, stop) := start most path name args inner
        (state.rejoin inner, stop)
      | none =>
        ({ state.send (state.channel 2)
          ("env: '".toList ++ name ++ "': No such file or directory\n".toList) with status := 127 },
          none)
    | [] =>
      let lines := inner.values.filter fun (name, _) => inner.exported.contains name
      (state.rejoin
        (inner.write (lines.flatMap fun (name, value) => name ++ '=' :: value ++ ['\n'])), none)

/-- A command of a certain name run with arguments. -/
def call (most : Nat) (name : Text) (args : List Text) (state : State) : Progress :=
  match most with
  | 0 => (state, some .overdue)
  | most + 1 =>
    match state.functions.find? (·.1 == name) with
    | some (_, body) =>
      let (inner, stop) := evaluate most body
        { state with parameters := args, shadowed := some [], loops := 0 }
      ({ state.leaveFunction inner with loops := state.loops },
        if stop = some .leave then none else stop)
    | none =>
      match String.ofList name with
      | "." =>
        match args with
        | [] => (state, none)
        | path :: _ =>
          match state.files.read state.cwd (toStr path) with
          | .ok bytes =>
            let (state, stop) := runText most (ofBytes bytes) state
            (state, if stop = some .leave then none else stop)
          | .error _ =>
            (state.breakOff (".: cannot open ".toList ++ path ++ ": No such file".toList), some .exit)
      | "eval" => runText most (Text.join [' '] args) state
      | "exec" =>
        match args with
        | name :: args =>
          match locate? state name with
          | some path =>
            let (state, stop) := start most path name args state
            (state, stop.or (some .exit))
          | none =>
            (state.complain ("exec: ".toList ++ name ++ ": not found".toList) 127, some .exit)
        | [] => (state, none)
      | "command" =>
        match args with
        | ['-', 'v'] :: names =>
          match names.head?.bind (whereabouts? state) with
          | some found => finished (state.write (found ++ ['\n'])) true
          | none => ({ state with status := 127 }, none)
        | name :: args => call most name args { state with functions := [] }
        | [] => (state, none)
      | "type" =>
        let found := args.map fun name => (name, whereabouts? state name)
        let lines := found.map fun (name, where?) =>
          name ++ (match where? with
            | none => ": not found".toList
            | some path =>
              if path.contains '/' then " is ".toList ++ path
              else " is a shell builtin".toList) ++ ['\n']
        let missing := found.any fun (_, where?) => where?.isNone
        ({ state.write lines.flatten with status := if missing then 127 else 0 }, none)
      | text =>
        match builtin? state text args with
        | some progress => progress
        | none =>
          match locate? state name with
          | some path => start most path name args state
          | none => (state.complain (name ++ ": not found".toList) 127, none)

/-- The variables that are set before a command. -/
def assignAll (most : Nat) (assignments : List (Text × Word)) (state : State) : State :=
  match most with
  | 0 => state
  | most + 1 =>
    match assignments with
    | [] => state
    | (name, word) :: rest =>
      let (state, field) := expandOne most word state
      assignAll most rest (state.assign name field.text)

/-- A command run in a state. A command that fails ends the script if that has been asked for and
nothing looks at its status. -/
def evaluate (most : Nat) (command : Command) (state : State) : Progress :=
  match most with
  | 0 => (state, some .overdue)
  | most + 1 =>
    if state.isOverdue then (state, some .overdue)
    else match command with
      | .nothing => (state, none)
      | .simple line assignments words redirects =>
        checked (evaluateSimple most assignments words redirects { state with line })
      | .redirected line body redirects =>
        let (opened, good) := redirect most redirects { state with line }
        if !good then ({ opened with channels := state.channels }, none)
        else
          let (after, stop) := evaluate most body opened
          ({ after with channels := state.channels }, stop)
      | .pipe left right =>
        let (state, channel) := state.keep []
        let (first, _) := evaluate most left (state.connect 1 channel)
        let state := state.rejoin first
        let (second, stop) := evaluate most right (state.connect 0 channel)
        checked (state.rejoin second, if stop = some .overdue then stop else none)
      | .sequence first second =>
        match evaluate most first state with
        | (state, none) => evaluate most second state
        | progress => progress
      | .andThen first second =>
        match evaluateWatched most first state with
        | (state, none) => if state.status = 0 then evaluate most second state else (state, none)
        | progress => progress
      | .orElse first second =>
        match evaluateWatched most first state with
        | (state, none) => if state.status = 0 then (state, none) else evaluate most second state
        | progress => progress
      | .negated body =>
        let (state, stop) := evaluateWatched most body state
        ({ state with status := if state.status = 0 then 1 else 0 }, stop)
      | .choice condition body otherwise =>
        match evaluateWatched most condition state with
        | (state, none) =>
          if state.status = 0 then evaluate most body state
          else evaluate most otherwise { state with status := 0 }
        | progress => progress
      | .loop untilTrue condition body =>
        leaveLoop (evaluateLoop most untilTrue condition body 0 state.enterLoop)
      | .each name words body =>
        let (state, values) : State × List Text := match words with
          | some words => expandAll most words state
          | none => (state, state.parameters)
        if state.broken then (state, some .exit)
        else leaveLoop (evaluateEach most name body values { state with status := 0 }.enterLoop)
      | .select word branches =>
        let (state, field) := expandOne most word state
        if state.broken then (state, some .exit)
        else evaluateBranches most field.text branches { state with status := 0 }
      | .subshell body =>
        let (inner, stop) := evaluate most body state
        checked (state.rejoin inner, if stop = some .overdue then stop else none)
      | .background body =>
        let (inner, stop) := evaluate most body (state.connect 0 .nowhere)
        ({ state.rejoin inner with status := 0 }, if stop = some .overdue then stop else none)
      | .define name body =>
        ({ state with
            functions := (name, body) :: state.functions.filter (·.1 != name), status := 0 }, none)

/-- A command whose status is looked at. -/
def evaluateWatched (most : Nat) (command : Command) (state : State) : Progress :=
  match most with
  | 0 => (state, some .overdue)
  | most + 1 =>
    let (after, stop) := evaluate most command { state with watched := true }
    ({ after with watched := state.watched }, stop)

/-- A program or a command of the shell run with its arguments, between its redirections. -/
def evaluateSimple (most : Nat) (assignments : List (Text × Word)) (words : List Word)
    (redirects : List Redirect) (state : State) : Progress :=
  match most with
  | 0 => (state, some .overdue)
  | most + 1 =>
    let (state, args) := expandAll most words state
    if state.broken then (state, some .exit)
    else
      let (opened, good) := redirect most redirects state
      if !good then ({ opened with channels := state.channels }, none)
      else
        match args with
        | [] =>
          let opened := assignAll most assignments { opened with status := 0 }
          ({ opened with channels := state.channels }, if opened.broken then some .exit else none)
        | name :: args =>
          let prepared := assignments.foldl
            (fun (state : State) (name, _) => state.markExported name)
            (assignAll most assignments opened)
          let (after, stop) := call most name args prepared
          let after :=
            if assignments.isEmpty then after
            else if name == "read".toList then
              assignments.foldl (fun (after : State) (name, _) =>
                match state.value? name with
                | some value => after.assign name value
                | none => after.forget name) after
            else { after with values := state.values, exported := state.exported }
          let after := if name == "exec".toList && args.isEmpty then after
            else { after with channels := state.channels }
          (after, if after.broken then some .exit else stop)

/-- A loop, after a body with a certain status. -/
def evaluateLoop (most : Nat) (untilTrue : Bool) (condition body : Command) (last : Nat)
    (state : State) : Progress :=
  match most with
  | 0 => (state, some .overdue)
  | most + 1 =>
    match evaluateWatched most condition state with
    | (state, none) =>
      if (state.status == 0) == untilTrue then ({ state with status := last }, none)
      else
        match evaluate most body state with
        | (state, none) => evaluateLoop most untilTrue condition body state.status state
        | (state, some (.breaks n)) => (state, if n ≤ 1 then none else some (.breaks (n - 1)))
        | (state, some (.continues n)) =>
          if n ≤ 1 then evaluateLoop most untilTrue condition body state.status state
          else (state, some (.continues (n - 1)))
        | progress => progress
    | progress => progress

/-- The body of a loop for each of some values. -/
def evaluateEach (most : Nat) (name : Text) (body : Command) (values : List Text) (state : State) :
    Progress :=
  match most with
  | 0 => (state, some .overdue)
  | most + 1 =>
    match values with
    | [] => (state, none)
    | value :: rest =>
      match evaluate most body (state.assign name value) with
      | (state, none) => evaluateEach most name body rest state
      | (state, some (.breaks n)) => (state, if n ≤ 1 then none else some (.breaks (n - 1)))
      | (state, some (.continues n)) =>
        if n ≤ 1 then evaluateEach most name body rest state
        else (state, some (.continues (n - 1)))
      | progress => progress

/-- The first branch of a choice whose patterns match. -/
def evaluateBranches (most : Nat) (value : Text) (branches : List (List Word × Command))
    (state : State) : Progress :=
  match most with
  | 0 => (state, some .overdue)
  | most + 1 =>
    match branches with
    | [] => (state, none)
    | ([], _) :: rest => evaluateBranches most value rest state
    | (pattern :: patterns, body) :: rest =>
      let (state, field) := expandOne most pattern state
      if (Pattern.ofMarked field).matchesText value then evaluate most body state
      else evaluateBranches most value ((patterns, body) :: rest) state

/-- A script run in a state. -/
def runText (most : Nat) (source : Text) (state : State) : Progress :=
  match most with
  | 0 => (state, some .overdue)
  | most + 1 =>
    match Command.ofText? source with
    | some command => evaluate most command { state with status := 0 }
    | none => (state.complain "Syntax error".toList 2, some .exit)

end

/-- The most steps of a script. -/
def supply : Nat := 20000

end AsmInspect.Shell

import AsmInspect.Shell.Token

/-!
# Scripts

The commands that a script consists of. Words like `if` and `done` are special only where a command
starts.

## Main definitions

* `Shell.list?`: commands up to a word or operator that ends them
* `Shell.Command.ofText?`: the command that a script is
-/

namespace AsmInspect.Shell

/-- The tokens that are still to be read, with their lines. -/
abbrev Tokens := List (Nat × Token)

/-- The texts after lines. -/
abbrev Texts := List Word

/-- The word at the start of some tokens, if nothing in it is quoted or replaced. -/
def plainHead? : Tokens → Option Text
  | (_, .word word) :: _ => word.plain?
  | _ => none

/-- The operator at the start of some tokens. -/
def operatorHead? : Tokens → Option Text
  | (_, .operator text) :: _ => some text
  | _ => none

/-- The words that end a list of commands. -/
def endWords : List Text :=
  ["then", "do", "done", "fi", "elif", "else", "esac", "\x7d"].map (·.toList)

/-- Whether a list of commands ends here. -/
def ends (tokens : Tokens) : Bool :=
  match tokens with
  | [] => true
  | (_, .operator text) :: _ => text == [')'] || text == [';', ';']
  | _ => (plainHead? tokens).any endWords.contains

/-- The tokens after line feeds. -/
def skipLines : Tokens → Tokens
  | (line, .operator text) :: rest =>
    if text == ['\n'] then skipLines rest else (line, .operator text) :: rest
  | tokens => tokens

/-- The tokens after a certain word. -/
def expect? (text : String) (tokens : Tokens) : Option Tokens :=
  if plainHead? tokens == some text.toList then some tokens.tail else none

/-- The tokens after a certain operator. -/
def expectOperator? (text : String) (tokens : Tokens) : Option Tokens :=
  if operatorHead? tokens == some text.toList then some tokens.tail else none

/-- The redirection at the start of some tokens, and what follows it. -/
def redirect? (texts : Texts) : Tokens → Option (Redirect × Tokens)
  | (_, .here fd number) :: rest => some (.here (fd.getD 0) ((texts[number]?).getD []), rest)
  | (_, .redirect fd operator) :: (_, .word word) :: rest =>
    match String.ofList operator with
    | "<" => some (.input (fd.getD 0) word, rest)
    | ">" | ">|" | "<>" => some (.output (fd.getD 1) word false, rest)
    | ">>" => some (.output (fd.getD 1) word true, rest)
    | "<&" => some (.duplicate (fd.getD 0) word, rest)
    | ">&" => some (.duplicate (fd.getD 1) word, rest)
    | _ => none
  | _ => none

/-- The redirections at the start of some tokens, and what follows them. -/
def redirects (texts : Texts) : (most : Nat) → Tokens → List Redirect × Tokens
  | 0, tokens => ([], tokens)
  | most + 1, tokens =>
    match redirect? texts tokens with
    | some (first, rest) =>
      let (others, rest) := redirects texts most rest
      (first :: others, rest)
    | none => ([], tokens)

/-- The name and the value of a word that is an assignment. -/
def assignment? : Word → Option (Text × Word)
  | .literal text false :: rest => do
    let (name, value) ← Text.cutAt? '=' text
    if !isName name then none
    else if value.isEmpty then return (name, rest)
    else return (name, .literal value false :: rest)
  | _ => none

/-- A simple command, of which some parts are known. -/
def simple? (texts : Texts) : (most : Nat) → (line : Nat) → List (Text × Word) → List Word →
    List Redirect → Tokens → Option (Command × Tokens)
  | 0, _, _, _, _, _ => none
  | most + 1, line, assignments, words, redirects, tokens =>
    match redirect? texts tokens with
    | some (redirect, rest) =>
      simple? texts most line assignments words (redirects ++ [redirect]) rest
    | none =>
      match tokens with
      | (_, .word word) :: rest =>
        match if words.isEmpty then assignment? word else none with
        | some assignment =>
          simple? texts most line (assignments ++ [assignment]) words redirects rest
        | none => simple? texts most line assignments (words ++ [word]) redirects rest
      | _ =>
        if assignments.isEmpty && words.isEmpty && redirects.isEmpty then none
        else some (.simple line assignments words redirects, tokens)

/-- The patterns of a branch, up to the bracket that ends them. -/
def patterns? : (most : Nat) → Tokens → Option (List Word × Tokens)
  | 0, _ => none
  | most + 1, tokens =>
    match tokens with
    | (_, .word word) :: (_, .operator text) :: rest =>
      if text == [')'] then some ([word], rest)
      else if text == ['|'] then do
        let (others, rest) ← patterns? most rest
        return (word :: others, rest)
      else none
    | _ => none

/-- The words up to the end of a line. -/
def wordsOfLine : Tokens → List Word × Tokens
  | (_, .word word) :: rest =>
    let (others, rest) := wordsOfLine rest
    (word :: others, rest)
  | tokens => ([], tokens)

/-- The tokens after an operator that separates commands. -/
def separated? (tokens : Tokens) : Option Tokens :=
  match operatorHead? tokens with
  | some text => if text == [';'] || text == ['\n'] || text == ['&'] then some tokens.tail else none
  | none => none

mutual

/-- Commands up to a word or operator that ends them. -/
def list? (texts : Texts) : (most : Nat) → Tokens → Option (Command × Tokens)
  | 0, _ => none
  | most + 1, tokens => do
    let tokens := skipLines tokens
    if ends tokens then return (.nothing, tokens)
    let (first, rest) ← conjunction? texts most tokens
    let first := if operatorHead? rest == some ['&'] then .background first else first
    match separated? rest with
    | none => return (first, rest)
    | some rest =>
      let (others, rest) ← list? texts most rest
      return (match others with
        | .nothing => first
        | _ => .sequence first others, rest)

/-- Pipelines of which later ones depend on the success of earlier ones. -/
def conjunction? (texts : Texts) : (most : Nat) → Tokens → Option (Command × Tokens)
  | 0, _ => none
  | most + 1, tokens => do
    let (first, rest) ← pipeline? texts most tokens
    conjunctionFrom? texts most first rest

/-- More pipelines after a first one. -/
def conjunctionFrom? (texts : Texts) : (most : Nat) → Command → Tokens → Option (Command × Tokens)
  | 0, _, _ => none
  | most + 1, first, tokens =>
    match operatorHead? tokens with
    | some ['&', '&'] => do
      let (second, rest) ← pipeline? texts most (skipLines tokens.tail)
      conjunctionFrom? texts most (.andThen first second) rest
    | some ['|', '|'] => do
      let (second, rest) ← pipeline? texts most (skipLines tokens.tail)
      conjunctionFrom? texts most (.orElse first second) rest
    | _ => some (first, tokens)

/-- Commands of which each reads what the one before it prints. -/
def pipeline? (texts : Texts) : (most : Nat) → Tokens → Option (Command × Tokens)
  | 0, _ => none
  | most + 1, tokens =>
    match expect? "!" tokens with
    | some rest => do
      let (command, rest) ← pipeline? texts most rest
      return (.negated command, rest)
    | none => do
      let (first, rest) ← command? texts most tokens
      pipelineFrom? texts most first rest

/-- More commands after a first one. -/
def pipelineFrom? (texts : Texts) : (most : Nat) → Command → Tokens → Option (Command × Tokens)
  | 0, _, _ => none
  | most + 1, first, tokens =>
    match operatorHead? tokens with
    | some ['|'] => do
      let (second, rest) ← command? texts most (skipLines tokens.tail)
      pipelineFrom? texts most (.pipe first second) rest
    | _ => some (first, tokens)

/-- A single command with its redirections. -/
def command? (texts : Texts) : (most : Nat) → Tokens → Option (Command × Tokens)
  | 0, _ => none
  | most + 1, tokens => do
    let line := (tokens.head?.map (·.1)).getD 1
    match ← compound? texts most tokens with
    | some (command, rest) =>
      let (redirects, rest) := redirects texts most rest
      return (if redirects.isEmpty then command else .redirected line command redirects, rest)
    | none => simple? texts (tokens.length + 1) line [] [] [] tokens

/-- A command that starts with a special word or a bracket, or the definition of a function; nothing
if there is none. -/
def compound? (texts : Texts) :
    (most : Nat) → Tokens → Option (Option (Command × Tokens))
  | 0, _ => none
  | most + 1, tokens =>
    match tokens with
    | (_, .operator ['(']) :: rest => do
      let (body, rest) ← list? texts most rest
      return some (.subshell body, ← expectOperator? ")" rest)
    | (_, .word word) :: (_, .operator ['(']) :: (_, .operator [')']) :: rest => do
      let name ← word.plain?
      let (body, rest) ← command? texts most (skipLines rest)
      return some (.define name body, rest)
    | _ =>
      match (plainHead? tokens).map String.ofList with
      | some "\x7b" => do
        let (body, rest) ← list? texts most tokens.tail
        return some (body, ← expect? "\x7d" rest)
      | some "if" => do
        let (command, rest) ← choice? texts most tokens.tail
        return some (command, rest)
      | some "while" => do
        let (command, rest) ← loop? texts most false tokens.tail
        return some (command, rest)
      | some "until" => do
        let (command, rest) ← loop? texts most true tokens.tail
        return some (command, rest)
      | some "for" => do
        let (command, rest) ← each? texts most tokens.tail
        return some (command, rest)
      | some "case" => do
        let (command, rest) ← select? texts most tokens.tail
        return some (command, rest)
      | _ => some none

/-- A choice, after the word that starts it. -/
def choice? (texts : Texts) : (most : Nat) → Tokens → Option (Command × Tokens)
  | 0, _ => none
  | most + 1, tokens => do
    let (condition, rest) ← list? texts most tokens
    let (body, rest) ← list? texts most (← expect? "then" rest)
    match (plainHead? rest).map String.ofList with
    | some "elif" =>
      let (otherwise, rest) ← choice? texts most rest.tail
      return (.choice condition body otherwise, rest)
    | some "else" =>
      let (otherwise, rest) ← list? texts most rest.tail
      return (.choice condition body otherwise, ← expect? "fi" rest)
    | _ => return (.choice condition body .nothing, ← expect? "fi" rest)

/-- A loop, after the word that starts it. -/
def loop? (texts : Texts) : (most : Nat) → Bool → Tokens → Option (Command × Tokens)
  | 0, _, _ => none
  | most + 1, untilTrue, tokens => do
    let (condition, rest) ← list? texts most tokens
    let (body, rest) ← list? texts most (← expect? "do" rest)
    return (.loop untilTrue condition body, ← expect? "done" rest)

/-- A loop over words, after the word that starts it. -/
def each? (texts : Texts) : (most : Nat) → Tokens → Option (Command × Tokens)
  | 0, _ => none
  | most + 1, tokens => do
    let name ← plainHead? tokens
    let (words, rest) : Option (List Word) × Tokens :=
      match expect? "in" (skipLines tokens.tail) with
      | some rest =>
        let (words, rest) := wordsOfLine rest
        (some words, rest)
      | none => (none, tokens.tail)
    let rest := skipLines ((separated? rest).getD rest)
    let (body, rest) ← list? texts most (← expect? "do" rest)
    return (.each name words body, ← expect? "done" rest)

/-- A choice by patterns, after the word that starts it. -/
def select? (texts : Texts) : (most : Nat) → Tokens → Option (Command × Tokens)
  | 0, _ => none
  | most + 1, tokens =>
    match tokens with
    | (_, .word word) :: rest => do
      let rest ← expect? "in" (skipLines rest)
      let (branches, rest) ← branches? texts most rest
      return (.select word branches, rest)
    | _ => none

/-- The branches of a choice by patterns, up to the word that ends it. -/
def branches? (texts : Texts) :
    (most : Nat) → Tokens → Option (List (List Word × Command) × Tokens)
  | 0, _ => none
  | most + 1, tokens => do
    let tokens := skipLines tokens
    match expect? "esac" tokens with
    | some rest => return ([], rest)
    | none =>
      let (patterns, rest) ←
        patterns? (tokens.length + 1) ((expectOperator? "(" tokens).getD tokens)
      let (body, rest) ← list? texts most rest
      let rest := (expectOperator? ";;" rest).getD rest
      let (others, rest) ← branches? texts most rest
      return ((patterns, body) :: others, rest)

end

/-- The command that a script is. -/
def Command.ofText? (text : Text) : Option Command := do
  let (tokens, texts) ← scan? text
  let (command, rest) ← list? texts (16 * tokens.length + 16) tokens
  if rest.isEmpty then return command else none

end AsmInspect.Shell

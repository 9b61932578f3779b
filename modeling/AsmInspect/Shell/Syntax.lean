import AsmInspect.Text.Utf8

/-!
# The language of the shell

Scripts are read as bytes. A word is built of parts: text, and places where the value of a
parameter, the output of a command or a number goes.

## Main definitions

* `Shell.ofString`, `Shell.toBytes`: texts whose characters stand for bytes
* `Shell.Part`, `Shell.Word`: words
* `Shell.Redirect`, `Shell.Command`: commands
-/

namespace AsmInspect.Shell

/-- The bytes of a string, each as the character of its number. -/
def ofString (s : String) : Text := (Utf8.encode s.toList).map fun b => Char.ofNat b.toNat

/-- The bytes that a text stands for. -/
def toBytes (text : Text) : List UInt8 := text.map (·.toNat.toUInt8)

/-- The text that some bytes make. -/
def ofBytes (bytes : List UInt8) : Text := bytes.map fun b => Char.ofNat b.toNat

/-- The string that a text stands for; what is no UTF-8 is replaced. -/
def toStr (text : Text) : String := String.ofList (Utf8.decodeLossy (toBytes text))

/-- A part of a word. What stands in quotes is kept together and matches only itself. -/
inductive Part where
  | literal (text : Text) (quoted : Bool)
  /-- The value of a parameter, changed by a modifier that may have an argument. -/
  | parameter (name modifier argument : Text) (quoted : Bool)
  /-- The output of a command. -/
  | output (source : Text) (quoted : Bool)
  /-- The value of an expression. -/
  | arithmetic (source : Text) (quoted : Bool)
  deriving DecidableEq, Repr, Inhabited

/-- A word. -/
abbrev Word := List Part

/-- Whether a part stands in quotes. -/
def Part.quoted : Part → Bool
  | literal _ quoted | parameter _ _ _ quoted | output _ quoted | arithmetic _ quoted => quoted

/-- The text of a word in which nothing is quoted or replaced. -/
def Word.plain? : Word → Option Text
  | [.literal text false] => some text
  | _ => none

/-- Where a command reads from or writes to. -/
inductive Redirect where
  | input (fd : Nat) (path : Word)
  | output (fd : Nat) (path : Word) (append : Bool)
  | duplicate (fd : Nat) (target : Word)
  /-- The text that follows the command. -/
  | here (fd : Nat) (content : Word)
  deriving Inhabited

/-- A command. -/
inductive Command where
  | nothing
  /-- A program with its arguments, on a line of the script. -/
  | simple (line : Nat) (assignments : List (Text × Word)) (words : List Word)
      (redirects : List Redirect)
  | redirected (line : Nat) (command : Command) (redirects : List Redirect)
  | pipe (left right : Command)
  | sequence (first second : Command)
  | andThen (first second : Command)
  | orElse (first second : Command)
  | negated (command : Command)
  | choice (condition body otherwise : Command)
  | loop (untilTrue : Bool) (condition body : Command)
  /-- The body for each of some words; for the parameters if there are none. -/
  | each (name : Text) (words : Option (List Word)) (body : Command)
  | select (word : Word) (branches : List (List Word × Command))
  | subshell (body : Command)
  /-- A command that the script does not wait for. -/
  | background (body : Command)
  | define (name : Text) (body : Command)
  deriving Inhabited

/-- Whether a character can start a name. -/
def isNameStart (c : Char) : Bool := c.isAlpha || c == '_'

/-- Whether a character can stand in a name. -/
def isNameChar (c : Char) : Bool := c.isAlphanum || c == '_'

/-- Whether a text is a name. -/
def isName : Text → Bool
  | [] => false
  | c :: rest => isNameStart c && rest.all isNameChar

end AsmInspect.Shell

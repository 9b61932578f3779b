import AsmInspect.Shell.Format

/-!
# Arithmetic of scripts

Whole numbers of 64 bits with the operators of the shell. A name stands for the number that its
parameter says; assignments change it for what is evaluated after them.

## Main definitions

* `Shell.Expression`, `Shell.Expression.ofText`: expressions, and how they are read
* `Shell.Expression.evaluate`: the value of an expression and the assignments it makes
* `Shell.arithmetic`: both, for a text
-/

namespace AsmInspect.Shell

/-- Why a text has no value. -/
inductive ArithmeticError where
  | divisionByZero
  | missingOperand
  | missingBracket
  | missingColon
  /-- Something stands after the expression. -/
  | trailing
  deriving DecidableEq, Repr

/-- The message for an error in a text. -/
def ArithmeticError.message (error : ArithmeticError) (text : Text) : Text :=
  let reason := match error with
    | divisionByZero => "division by zero"
    | missingOperand => "expecting primary"
    | missingBracket => "expecting ')'"
    | missingColon => "expecting ':'"
    | trailing => "expecting EOF"
  "arithmetic expression: ".toList ++ reason.toList ++ ": \"".toList ++ text ++ ['"']

/-- An expression. -/
inductive Expression where
  | number (n : Int64)
  | parameter (name : Text)
  | negated (body : Expression)
  | complement (body : Expression)
  /-- Whether the body is zero. -/
  | isZero (body : Expression)
  | binary (operator : String) (left right : Expression)
  | choice (condition body otherwise : Expression)
  /-- An assignment; a name without an operator before the equals sign takes the value itself. -/
  | assign (name : Text) (operator : String) (body : Expression)
  deriving DecidableEq, Repr

namespace Expression

/-- The number of a truth value. -/
def ofTruth (b : Bool) : Int64 := if b then 1 else 0

/-- The value of an operator whose operands are both known. -/
def operate (operator : String) (a b : Int64) : Except ArithmeticError Int64 :=
  match operator with
  | "==" => .ok (ofTruth (a == b))
  | "!=" => .ok (ofTruth (a != b))
  | "<=" => .ok (ofTruth (a ≤ b))
  | ">=" => .ok (ofTruth (b ≤ a))
  | "<" => .ok (ofTruth (a < b))
  | ">" => .ok (ofTruth (b < a))
  | "<<" => .ok (a <<< b)
  | ">>" => .ok (a >>> b)
  | "|" => .ok (a ||| b)
  | "^" => .ok (a ^^^ b)
  | "&" => .ok (a &&& b)
  | "+" => .ok (a + b)
  | "-" => .ok (a - b)
  | "*" => .ok (a * b)
  | "/" => if b == 0 then .error .divisionByZero else .ok (a / b)
  | "%" => if b == 0 then .error .divisionByZero else .ok (a % b)
  | _ => .ok b

/-- Assignments made so far, the latest first. -/
abbrev Changes := List (Text × Int64)

/-- The number of a name after some assignments. -/
def lookUp (value : Text → Int) (changes : Changes) (name : Text) : Int64 :=
  ((changes.find? (·.1 == name)).map (·.2)).getD (Int64.ofInt (value name))

/-- The value of an expression after some assignments, and the assignments made then. An operand that
does not matter is not looked at. -/
def evaluate (value : Text → Int) (changes : Changes) :
    Expression → Except ArithmeticError (Int64 × Changes)
  | number n => .ok (n, changes)
  | parameter name => .ok (lookUp value changes name, changes)
  | negated body => do
    let (n, changes) ← evaluate value changes body
    return (-n, changes)
  | complement body => do
    let (n, changes) ← evaluate value changes body
    return (-n - 1, changes)
  | isZero body => do
    let (n, changes) ← evaluate value changes body
    return (ofTruth (n == 0), changes)
  | binary operator left right => do
    let (a, changes) ← evaluate value changes left
    if operator == "&&" && a == 0 then return (0, changes)
    if operator == "||" && a != 0 then return (1, changes)
    let (b, changes) ← evaluate value changes right
    if operator == "&&" || operator == "||" then return (ofTruth (b != 0), changes)
    return (← operate operator a b, changes)
  | choice condition body otherwise => do
    let (a, changes) ← evaluate value changes condition
    if a != 0 then evaluate value changes body else evaluate value changes otherwise
  | assign name operator body => do
    let (b, changes) ← evaluate value changes body
    let n ← operate operator (lookUp value changes name) b
    return (n, (name, n) :: changes)

/-- The binary operators, with how tight they bind; longer ones before their beginnings. -/
def binaryOperators : List (Text × Nat) :=
  [("||", 1), ("&&", 2), ("==", 6), ("!=", 6), ("<=", 7), (">=", 7), ("<<", 8), (">>", 8), ("|", 3),
    ("^", 4), ("&", 5), ("<", 7), (">", 7), ("+", 9), ("-", 9), ("*", 10), ("/", 10), ("%", 10)].map
    fun (text, level) => (text.toList, level)

/-- The operators that an assignment may have before its equals sign. -/
def assignmentOperators : List String := ["<<", ">>", "+", "-", "*", "/", "%", "&", "^", "|", ""]

/-- The operator of the assignment at the start of a text, and what follows the equals sign. -/
def assignment? (text : Text) : Option (String × Text) :=
  assignmentOperators.findSome? fun operator => do
    let rest ← Text.after? (operator.toList ++ ['=']) text
    if rest.head? == some '=' then none else return (operator, rest)

/-- The text without blanks at its start. -/
def skipBlanks (text : Text) : Text := text.dropWhile fun c => c == ' ' || c == '\t' || c == '\n'

/-- What a reader has found at the start of a text, and what follows it. -/
abbrev Found := Except ArithmeticError (Expression × Text)

mutual

/-- An operand. -/
def operand (most : Nat) (text : Text) : Found :=
  match most with
  | 0 => .error .missingOperand
  | most + 1 =>
    match skipBlanks text with
    | [] => .error .missingOperand
    | c :: rest => do
      if c = '(' then
        let (body, rest) ← whole most rest
        match skipBlanks rest with
        | ')' :: rest => return (body, rest)
        | _ => throw .missingBracket
      else if c = '-' then
        let (body, rest) ← operand most rest
        return (.negated body, rest)
      else if c = '~' then
        let (body, rest) ← operand most rest
        return (.complement body, rest)
      else if c = '!' then
        let (body, rest) ← operand most rest
        return (.isZero body, rest)
      else if c = '+' || c = '$' then operand most rest
      else
        let word := (c :: rest).takeWhile isNameChar
        let after := (c :: rest).dropWhile isNameChar
        if c.isDigit then return (.number (Int64.ofInt (integerValue word).1), after)
        else if !isNameStart c then throw .missingOperand
        else match assignment? (skipBlanks after) with
          | none => return (.parameter word, after)
          | some (operator, rest) =>
            let (body, rest) ← whole most rest
            return (.assign word operator body, rest)

/-- An expression whose operators bind tighter than a level. -/
def tighter (most level : Nat) (text : Text) : Found :=
  match most with
  | 0 => .error .missingOperand
  | most + 1 => do
    let (first, rest) ← operand most text
    tighterFrom most level first rest

/-- An expression whose operators bind tighter than a level and whose beginning is known. -/
def tighterFrom (most level : Nat) (first : Expression) (text : Text) : Found :=
  match most with
  | 0 => .error .missingOperand
  | most + 1 =>
    let text := skipBlanks text
    match binaryOperators.find? (·.1.isPrefixOf text) with
    | none => .ok (first, text)
    | some (operator, tightness) =>
      if tightness ≤ level then .ok (first, text)
      else do
        let (second, rest) ← tighter most tightness (text.drop operator.length)
        tighterFrom most level (.binary (String.ofList operator) first second) rest

/-- An expression with any operators. -/
def whole (most : Nat) (text : Text) : Found :=
  match most with
  | 0 => .error .missingOperand
  | most + 1 => do
    let (condition, rest) ← tighter most 0 text
    match skipBlanks rest with
    | '?' :: rest =>
      let (body, rest) ← whole most rest
      match skipBlanks rest with
      | ':' :: rest =>
        let (otherwise, rest) ← whole most rest
        return (.choice condition body otherwise, rest)
      | _ => throw .missingColon
    | rest => return (condition, rest)

end

/-- The expression that a text is. -/
def ofText (text : Text) : Except ArithmeticError Expression := do
  let (expression, rest) ← whole (4 * text.length + 8) text
  if (skipBlanks rest).isEmpty then return expression else throw .trailing

end Expression

/-- The value of the expression that a text is, and the assignments it makes, the first one first. -/
def arithmetic (value : Text → Int) (text : Text) :
    Except ArithmeticError (Int × List (Text × Int)) := do
  let (n, changes) ← (← Expression.ofText text).evaluate value []
  return (n.toInt, changes.reverse.map fun (name, n) => (name, n.toInt))

end AsmInspect.Shell

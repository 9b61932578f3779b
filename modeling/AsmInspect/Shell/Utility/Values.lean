import AsmInspect.Shell.Format
import AsmInspect.Shell.StreamEditor
import AsmInspect.Shell.Utility.Basic

/-!
# Programs that print values

Programs that need no text but their arguments.

## Main definitions

* `Utility.echo`, `Utility.yes`, `Utility.seq`: words, a line again and again, numbers
* `Utility.expr`: the value of an operator
* `Utility.basename`, `Utility.dirname`: parts of paths
* `Utility.sleep`: a wait
-/

namespace AsmInspect.Shell.Utility

/-- Prints the value of an operator. -/
def expr : Utility := fun args process =>
  let shown (text : Text) (holds : Bool) : Process :=
    { process.print (text ++ ['\n']) with status := if holds then 0 else 1 }
  let number (n : Int) : Process := shown (toString n).toList (n != 0)
  match args with
  | [left, operator, right] =>
    let a := (integerValue left).1
    let b := (integerValue right).1
    match String.ofList operator with
    | "+" => number (a + b)
    | "-" => number (a - b)
    | "*" => number (a * b)
    | "/" => if b = 0 then process.failWith 2 "expr: division by zero".toList
      else number (a.tdiv b)
    | "%" => if b = 0 then process.failWith 2 "expr: division by zero".toList
      else number (a.tmod b)
    | "=" => number (if left = right then 1 else 0)
    | "!=" => number (if left = right then 0 else 1)
    | "<" => number (if a < b then 1 else 0)
    | "<=" => number (if a ≤ b then 1 else 0)
    | ">" => number (if b < a then 1 else 0)
    | ">=" => number (if b ≤ a then 1 else 0)
    | _ => process.failWith 2 "expr: syntax error".toList
  | [first, operand] =>
    if first == "length".toList then number operand.length
    else process.failWith 2 "expr: syntax error".toList
  | [value] => shown value (!value.isEmpty && value != ['0'])
  | _ => process.failWith 2 "expr: syntax error".toList

/-- Prints a sequence of numbers. -/
def seq : Utility := fun args process =>
  let numbers := args.map fun arg => (integerValue arg).1
  let (first, step, last) : Int × Int × Int := match numbers with
    | [last] => (1, 1, last)
    | [first, last] => (first, 1, last)
    | [first, step, last] => (first, step, last)
    | _ => (1, 1, 0)
  let count : Nat := if step = 0 then 0 else ((last - first) / step + 1).toNat
  process.print (unlines true ((List.range count).map fun (i : Nat) =>
    (toString (first + step * (i : Int))).toList))

/-- Repeats a line, as often as any reader here needs. -/
def yes : Utility := fun args process =>
  let line := (if args.isEmpty then ['y'] else Text.join [' '] args) ++ ['\n']
  process.print (List.replicate (200000 / line.length + 1) line).flatten

/-- The last name of a path, without an ending. -/
def basename : Utility := fun args process =>
  let path := (args.head?).getD []
  let bare := Text.dropEndWhile (· == '/') path
  let name := if bare.isEmpty && !path.isEmpty then ['/']
    else ((Text.splitAt '/' bare).getLast?).getD []
  let ending := (args[1]?).getD []
  let name := if name != ending then (Text.before? ending name).getD name else name
  process.print (name ++ ['\n'])

/-- A path without its last name. -/
def dirname : Utility := fun args process =>
  let path := (args.head?).getD []
  let bare := Text.dropEndWhile (· == '/') path
  let front := Text.dropEndWhile (· == '/') (bare.take (bare.length -
    (((Text.splitAt '/' bare).getLast?).getD []).length))
  let parent := if bare.contains '/' then (if front.isEmpty then ['/'] else front)
    else if bare.isEmpty && !path.isEmpty then ['/'] else ['.']
  process.print (parent ++ ['\n'])

/-- The milliseconds that a text of seconds says. -/
def milliseconds (text : Text) : Nat :=
  match Text.splitAt '.' (Text.dropEndWhile (· == 's') text) with
  | [whole] => 1000 * numberOf whole
  | [whole, fraction] =>
    1000 * numberOf whole + numberOf ((fraction ++ ['0', '0', '0']).take 3)
  | _ => 0

/-- Waits. -/
def sleep : Utility := fun args process =>
  if args.isEmpty then process.fail
    "sleep: missing operand\nTry 'sleep --help' for more information.".toList
  else { process with timeMs := args.foldl (fun time arg => time + milliseconds arg) process.timeMs }

/-- Prints its arguments. Flags in front say that no line feed follows, and whether escapes are
replaced. -/
def echo : Utility := fun args process =>
  let isFlag (arg : Text) : Bool :=
    arg.head? == some '-' && 1 < arg.length && arg.tail.all "neE".toList.contains
  let flags := (args.takeWhile isFlag).flatten
  let text := Text.join [' '] (args.dropWhile isFlag)
  let (text, stop) := if flags.contains 'e' then unescape true (text.length + 1) text
    else (text, false)
  process.print (if stop || flags.contains 'n' then text else text ++ ['\n'])

end AsmInspect.Shell.Utility

/-!
# Floating-point numbers of 64 bits

The finite numbers of the binary format of 64 bits, as exact values: a sign and the position of the
magnitude among all magnitudes. All arithmetic is that of natural numbers with one rounding to the
nearest magnitude at the end, of two nearest ones to the even one.

## Main definitions

* `Binary64`: a finite number
* `Binary64.nearest?`: the magnitude nearest to a ratio
* `Binary64.scale?`: a number times a power of ten
* `Binary64.shortest`: the fewest digits that read back, and where the decimal point stands
-/

namespace AsmInspect

/-- The weight of the first bit of a significand of 53 bits. -/
abbrev Binary64.leadingBit : Nat := 4503599627370496

/-- The number of magnitudes: 2046 exponents and the subnormal numbers, of 52 bits each. -/
abbrev Binary64.magnitudes : Nat := 2047 * Binary64.leadingBit

/-- A finite floating-point number. -/
structure Binary64 where
  negative : Bool
  /-- The position of the magnitude in increasing order, zero being the first. -/
  magnitude : Fin Binary64.magnitudes
  deriving DecidableEq, Repr

namespace Binary64

/-- The number zero, which has a sign. -/
def zero (negative : Bool) : Binary64 :=
  { negative, magnitude := ⟨0, Nat.mul_pos (Nat.succ_pos _) (Nat.succ_pos _)⟩ }

/-- The exponent of a magnitude, counted from one for the smallest. -/
def exponent (magnitude : Nat) : Nat := max (magnitude / leadingBit) 1

/-- The whole number that the exponent scales. -/
def significand (magnitude : Nat) : Nat :=
  if magnitude < leadingBit then magnitude else leadingBit + magnitude % leadingBit

/-- The value of a magnitude as numerator and denominator. -/
def ratio (magnitude : Nat) : Nat × Nat :=
  let e := exponent magnitude
  if 1075 ≤ e then (significand magnitude * Nat.pow 2 (e - 1075), 1)
  else (significand magnitude, Nat.pow 2 (1075 - e))

/-- The whole number nearest to a ratio, of two nearest ones the even one. -/
def roundEven (num den : Nat) : Nat :=
  let low := num / den
  let rest := 2 * (num % den)
  if rest < den || (rest == den && low % 2 == 0) then low else low + 1

/-- The exponent at which a ratio has 53 bits, or the smallest one. -/
def exponentOf (num den : Nat) : Nat :=
  let up := num.log2 + 1023
  let high := up - den.log2
  let reaches := if den.log2 ≤ num.log2 then den * Nat.pow 2 (num.log2 - den.log2) ≤ num
    else den ≤ num * Nat.pow 2 (den.log2 - num.log2)
  max (if reaches then high else high - 1) 1

/-- The magnitude nearest to a ratio, unless that lies beyond the largest. -/
def nearest? (num den : Nat) : Option (Fin magnitudes) :=
  if num == 0 then some ⟨0, by decide⟩
  else
    let e := exponentOf num den
    let bits := if e ≤ 1075 then roundEven (num * Nat.pow 2 (1075 - e)) den
      else roundEven num (den * Nat.pow 2 (e - 1075))
    let position := (e - 1) * leadingBit + bits
    if h : position < magnitudes then some ⟨position, h⟩ else none

/-- The magnitude times or divided by another one. -/
def times? (x y : Fin magnitudes) (divide : Bool) : Option (Fin magnitudes) :=
  let (n, d) := ratio x
  let (m, c) := ratio y
  if divide then nearest? (n * c) (d * m) else nearest? (n * m) (d * c)

/-- The magnitude times ten to the power `up`, or to the negative power `down`. Large negative
powers are taken in steps of 308; zero stays zero. -/
def scaleMagnitude? (x : Fin magnitudes) : (up down : Nat) → Option (Fin magnitudes)
  | up, 0 =>
    if up ≤ 308 then do times? x (← nearest? (Nat.pow 10 up) 1) false
    else if x.val == 0 then some x else none
  | _, down =>
    if down ≤ 308 then do times? x (← nearest? (Nat.pow 10 down) 1) true
    else if x.val == 0 then some x
    else do scaleMagnitude? (← times? x (← nearest? (Nat.pow 10 308) 1) true) 0 (down - 308)
termination_by _ down => down

/-- A whole number scaled by a power of ten, each step rounded; nothing if it becomes too large. -/
def scale? (negative : Bool) (whole up down : Nat) : Option Binary64 := do
  let magnitude ← scaleMagnitude? (← nearest? whole 1) (up - down) (down - up)
  return { negative, magnitude }

/-- The number of digits in front of the decimal point of a ratio of at least one, else one less
the number of zeros after the point; found from an estimate that is at most `fuel` too low. -/
def pointOf (num den : Nat) : Nat → Int → Int
  | 0, estimate => estimate
  | fuel + 1, estimate =>
    let reached := if 0 ≤ estimate then den * Nat.pow 10 estimate.toNat ≤ num
      else den ≤ num * Nat.pow 10 (-estimate).toNat
    if reached then pointOf num den fuel (estimate + 1) else estimate

/-- The decimal of `count` digits with its point at `point` that reads back as the magnitude and is
nearest to it, if there is one. -/
def readsBack? (magnitude : Fin magnitudes) (point : Int) (count : Nat) : Option Nat :=
  let (num, den) := ratio magnitude
  let unit := point - count
  let (num', den') := if 0 ≤ unit then (num, den * Nat.pow 10 unit.toNat)
    else (num * Nat.pow 10 (-unit).toNat, den)
  let value (n : Nat) := if 0 ≤ unit then nearest? (n * Nat.pow 10 unit.toNat) 1
    else nearest? n (Nat.pow 10 (-unit).toNat)
  let low := num' / den'
  let candidates := if roundEven num' den' == low then [low, low + 1] else [low + 1, low]
  candidates.find? fun n => value n == some magnitude

/-- The fewest digits that read back as a magnitude other than zero, and the number of digits in
front of the decimal point. -/
def shortest (magnitude : Fin magnitudes) : List Char × Int :=
  let (num, den) := ratio magnitude
  let point := pointOf num den 640 (-330)
  match (List.range 17).findSome? fun n => (readsBack? magnitude point (n + 1)).map (n + 1, ·) with
  | some (count, digits) =>
    let text := Nat.toDigits 10 digits
    ((text.reverse.dropWhile (· == '0')).reverse, if count < text.length then point + 1 else point)
  | none => (['0'], 1)

end Binary64

end AsmInspect

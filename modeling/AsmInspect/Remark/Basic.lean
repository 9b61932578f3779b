/-!
# Optimization remarks

What a compiler has to say about one of its optimizations.

## Main definitions

* `Remark.Kind`: whether the optimization was done
* `Remark.DebugLoc`: where in the source
* `Remark`: the remark
-/

namespace AsmInspect

/-- What a remark says of its optimization. -/
inductive Remark.Kind where
  | passed
  | missed
  | analysis
  | other
  deriving DecidableEq, Repr, Inhabited

/-- A place in the source. -/
structure Remark.DebugLoc where
  file : String := ""
  line : UInt32 := 0
  column : UInt32 := 0
  deriving DecidableEq, Repr, Inhabited

/-- An optimization remark. -/
structure Remark where
  kind : Remark.Kind
  /-- The optimization. -/
  pass : String := ""
  /-- The name of the remark. -/
  name : String := ""
  function : String := ""
  debugLoc : Option Remark.DebugLoc := none
  /-- The message. -/
  displayString : String := ""
  deriving DecidableEq, Repr, Inhabited

end AsmInspect

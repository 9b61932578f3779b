import AsmInspect.Text.Basic

/-!
# Versions of a toolchain

A version is compared by its first three numbers. A text that is no version counts as newer than
every release.

## Main definitions

* `Version`, `Version.ofText`: a version, and how it is read
* `Version.le`: the order of versions
-/

namespace AsmInspect

/-- The first three numbers of a version. -/
structure Version where
  major : UInt64
  minor : UInt64 := 0
  patch : UInt64 := 0
  deriving DecidableEq, Repr, Inhabited

namespace Version

/-- A version that no release reaches. -/
def newest : Version := ⟨maxWord64.toUInt64, maxWord64.toUInt64, maxWord64.toUInt64⟩

/-- The numbers that a version consists of, if all its parts are numbers. -/
def numbers? (text : Text) : Option (List Nat) :=
  let core := (Text.trim text).dropWhile fun c => c == 'v' || c == 'V'
  (Text.splitAt '.' core).mapM (Text.unsigned? maxWord64)

/-- The version that a text names: numbers between dots, after any letters `v`. -/
def ofText (text : String) : Version :=
  match numbers? text.toList with
  | some (major :: rest) =>
    { major := major.toUInt64
      minor := (rest.head?.getD 0).toUInt64
      patch := (rest.tail.head?.getD 0).toUInt64 }
  | _ => newest

/-- Whether a version is at most another one. -/
def le (v w : Version) : Bool :=
  v.major < w.major || (v.major == w.major &&
    (v.minor < w.minor || (v.minor == w.minor && v.patch ≤ w.patch)))

end Version

end AsmInspect

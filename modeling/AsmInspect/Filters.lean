/-!
# Output filters

The switches of a request that decide which parts of the compiler's output are produced and shown.

## Main definitions

* `Filters`: the eight switches, all off by default
* `Filters.ofNames`: switches given by name
* `Dialect`: the dialect of x86 assembly to show
-/

namespace AsmInspect

/-- The switches of a request. -/
structure Filters where
  /-- Link and run the program instead of stopping at assembly. -/
  execute : Bool := false
  /-- Produce a binary object and disassemble it. -/
  binary : Bool := false
  /-- Show symbols in their source form. -/
  demangle : Bool := false
  /-- Hide labels that nothing refers to. -/
  labels : Bool := false
  /-- Hide directives. -/
  directives : Bool := false
  /-- Hide lines that hold only a comment. -/
  commentOnly : Bool := false
  /-- Hide blank lines and squeeze blanks. -/
  trim : Bool := false
  /-- Hide code attributed to library functions. -/
  libraryCode : Bool := false
  deriving DecidableEq, Repr, Inhabited

namespace Filters

/-- The filters with the switch of this name on; a name that is no switch changes nothing. -/
def withName (filters : Filters) : String → Filters
  | "execute" => { filters with execute := true }
  | "binary" => { filters with binary := true }
  | "demangle" => { filters with demangle := true }
  | "labels" => { filters with labels := true }
  | "directives" => { filters with directives := true }
  | "commentOnly" | "comment_only" => { filters with commentOnly := true }
  | "trim" => { filters with trim := true }
  | "libraryCode" | "library_code" => { filters with libraryCode := true }
  | _ => filters

/-- The filters with the switches of these names on. -/
def ofNames (names : List String) : Filters := names.foldl withName {}

/-- The same filters with the switch `binary` set. -/
def withBinary (filters : Filters) (binary : Bool) : Filters := { filters with binary }

end Filters

/-- The dialect of x86 assembly that a disassembler prints. -/
inductive Dialect where
  | att
  | intel
  deriving DecidableEq, Repr, Inhabited

end AsmInspect

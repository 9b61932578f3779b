import AsmInspect.Dict

/-!
# Compilers

A configured compiler with the tools that go with it.

## Main definitions

* `Compiler.Kind`: which conventions its command line follows
* `Compiler`: the compiler and its tools
-/

namespace AsmInspect

/-- The conventions that a compiler's command line follows. -/
inductive Compiler.Kind where
  /-- A driver for device code that compiles host and device parts. -/
  | nvcc
  /-- A compiler for the host alone. -/
  | generic
  deriving DecidableEq, Repr

/-- A configured compiler. -/
structure Compiler where
  /-- The name that requests use. -/
  id : String
  /-- The name shown to users; may be empty. -/
  name : String := ""
  kind : Compiler.Kind
  /-- The path of the compiler itself. -/
  exe : String
  version : String := ""
  instructionSet : String := ""
  objdumper : Option String := none
  /-- The disassembler for binary device artifacts. -/
  deviceDisassembler : Option String := none
  /-- The tool that turns a listing into structured assembly. -/
  externalParser : Option String := none
  demangler : Option String := none
  /-- Whether the compiler can save an optimization record. -/
  supportsOptOutput : Bool := false
  /-- The flags that ask for the record, with a placeholder for its path. -/
  optArgs : List String := []
  /-- Whether device listings are shown. -/
  supportsDeviceAsmView : Bool := false
  /-- Variables set for every tool run on behalf of this compiler. -/
  env : Dict String := {}
  deriving DecidableEq

/-- The name shown to users: the id when there is no other. -/
def Compiler.displayName (compiler : Compiler) : String :=
  if compiler.name.isEmpty then compiler.id else compiler.name

end AsmInspect

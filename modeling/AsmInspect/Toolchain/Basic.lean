import AsmInspect.Config.Basic
import AsmInspect.Tool.Basic

/-!
# Toolchains

A toolchain is a configured compiler with what its tools run under: the limits, the sandbox and, if
there is one, the external parser together with the disassembler it is fed from.

## Main definitions

* `Toolchain`, `Toolchain.ofCompiler`: a compiler ready for use
* `Toolchain.options`: the options of its tool runs
* `Registry`, `Registry.ofConfig`, `Registry.find`: the toolchains of a configuration by id
-/

namespace AsmInspect

/-- An external parser and the disassembler that it is fed from. -/
structure ParserTools where
  objdumper : String
  parser : String
  deriving DecidableEq, Repr

/-- The external parser of a compiler, if it has one. It needs a disassembler. -/
def Compiler.parserTools (compiler : Compiler) : Except Failure (Option ParserTools) :=
  match compiler.externalParser, compiler.objdumper with
  | none, _ => .ok none
  | some parser, some objdumper => .ok (some { objdumper, parser })
  | some _, none =>
    .error (.config s!"compiler '{compiler.id}' has an external parser but no objdumper")

/-- A compiler ready for use. -/
structure Toolchain where
  compiler : Compiler
  limits : Limits := {}
  sandbox : Sandbox := {}
  parser : Option ParserTools := none
  deriving DecidableEq

namespace Toolchain

/-- A compiler under a configuration. -/
def ofCompiler (config : Config) (compiler : Compiler) : Except Failure Toolchain := do
  let parser ← compiler.parserTools
  return { compiler, limits := config.limits, sandbox := config.sandbox, parser }

/-- The options of a tool run on behalf of the compiler. -/
def options (toolchain : Toolchain) (stage : Stage) (maxOutput : UInt64) : ToolOptions :=
  { stage, maxOutput, env := toolchain.compiler.env
    timeoutMs := some toolchain.limits.execTimeoutMs }

end Toolchain

/-- Toolchains by the id of their compiler. -/
structure Registry where
  toolchains : Dict Toolchain := {}

namespace Registry

/-- The toolchains of some compilers; of two with one id the later one counts. -/
def ofCompilers (config : Config) : List Compiler → Registry → Except Failure Registry
  | [], registry => .ok registry
  | compiler :: rest, registry => do
    let toolchain ← Toolchain.ofCompiler config compiler
    ofCompilers config rest ⟨registry.toolchains.insert compiler.id toolchain⟩

/-- The toolchains of a configuration. -/
def ofConfig (config : Config) : Except Failure Registry :=
  ofCompilers config config.compilers {}

/-- The toolchain of an id. -/
def find (registry : Registry) (id : String) : Except Failure Toolchain :=
  match registry.toolchains.get? id with
  | some toolchain => .ok toolchain
  | none => .error (.unknownCompiler id)

/-- The compilers in the order of their ids, of all instruction sets or of one. -/
def compilers (registry : Registry) (instructionSet : Option String) : List Compiler :=
  (registry.toolchains.values.map (·.compiler)).filter fun compiler =>
    match instructionSet with
    | some name => compiler.instructionSet == name
    | none => true

end Registry

end AsmInspect

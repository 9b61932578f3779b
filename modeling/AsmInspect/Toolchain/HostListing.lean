import AsmInspect.Listing.Reader
import AsmInspect.Remark.Record
import AsmInspect.Toolchain.Arguments
import AsmInspect.Toolchain.ExternalParser

/-!
# Host listings

What is shown of the host's side of a compilation: its assembly, as the compiler wrote it or as a
disassembler prints it, and the remarks of the optimizer.

## Main definitions

* `Compiled`, `Compiled.jobDir`: a compiler run that went well
* `Toolchain.disassemble`: the assembly of an object
* `Toolchain.hostOutput`: the assembly and the remarks of a compiler run
-/

namespace AsmInspect

/-- A compiler run that went well. -/
structure Compiled where
  run : ToolResult
  outputPath : String
  /-- Where the compiler was asked to save its optimization record, if it was. -/
  recordPath : Option String := none
  deriving DecidableEq

/-- The directory that the compiler ran in, or else that of its output. -/
def Compiled.jobDir (compiled : Compiled) : String :=
  ((compiled.run.dirPath.map SystemPath.shown).or (Path.parent? compiled.outputPath)).getD ""

/-- What is shown of the host's side. -/
structure HostOutput where
  asm : AsmOutput := .text ""
  remarks : List Remark := []
  objdumpTimeMs : Option UInt64 := none
  deriving Inhabited

/-- The remarks in an optimization record. -/
def Remark.readRecord (path : String) : Work (List Remark) := do
  return Remark.ofRecord (← Work.readText .optimizationReport path)

namespace Toolchain

/-- The text that a tool run printed, or what is shown when it failed, and how long it took. -/
def toolText (tool : String) (run : ToolResult) : String × Option UInt64 :=
  if run.success then (Listing.normalize run.stdout, some run.execTimeMs)
  else (Disassembler.noOutput tool run.code, none)

/-- The assembly of an object, and how long its disassembler ran. An external parser gives it a
shape of its own. -/
def disassemble (toolchain : Toolchain) (object jobDir : String) (filters : Filters)
    (dialect : Dialect) : Work (AsmOutput × Option UInt64) := do
  let args := Disassembler.objdumpArguments object filters dialect
  match toolchain.parser with
  | some tools =>
    let result ← toolchain.parseDump tools jobDir args filters
    return ((result.asm?.map AsmOutput.structured).getD (.text ""),
      (result.fields.get? "execTimeMs").bind Json.natural?)
  | none =>
    match toolchain.compiler.objdumper with
    | none => throw (.config s!"compiler '{toolchain.compiler.id}' has no objdumper configured")
    | some tool =>
      let run ← Work.runTool tool args
        { toolchain.options .disassembly toolchain.limits.maxAsmSize with cwd := some jobDir }
      let (text, time) := toolText tool run
      return (.text text, time)

/-- What is shown in place of a file that the compiler did not write. -/
def missingText (path : String) : String :=
  let name := (Path.fileName? path).getD ""
  s!"<No output file {name}>"

/-- The assembly that the compiler wrote as text; a file that is not there is said to be missing. -/
def writtenText (path : String) : Work AsmOutput := do
  match ← Work.query (.readText path) with
  | .ok text => return .text text
  | .error .notFound => return .text (missingText path)
  | .error cause => throw (.file .disassembly path cause)

/-- The remarks of a compiler run; a record that cannot be read has none. -/
def remarks (recordPath : Option String) : Flow (List Remark) :=
  match recordPath with
  | none => pure []
  | some path => do
    match ← (Remark.readRecord path).run with
    | .ok remarks => return remarks
    | .error _ => return []

/-- The assembly of a compiler run, and how long its disassembler ran. -/
def hostAsm (toolchain : Toolchain) (compiled : Compiled) (filters : Filters) (dialect : Dialect) :
    Work (AsmOutput × Option UInt64) :=
  if filters.binary then
    toolchain.disassemble compiled.outputPath compiled.jobDir filters dialect
  else do
    return (← writtenText compiled.outputPath, none)

/-- The remarks and the assembly of a compiler run, found side by side. -/
def hostOutput (toolchain : Toolchain) (compiled : Compiled) (filters : Filters)
    (dialect : Dialect) : Work HostOutput := do
  let (remarks, asm) ← ExceptT.lift
    (Flow.pair (remarks compiled.recordPath) (toolchain.hostAsm compiled filters dialect).run)
  let (asm, objdumpTimeMs) ← Work.ofExcept asm
  return { asm, remarks, objdumpTimeMs }

end Toolchain

end AsmInspect

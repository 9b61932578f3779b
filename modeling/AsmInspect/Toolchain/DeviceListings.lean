import AsmInspect.Artifact
import AsmInspect.Listing.Demangling
import AsmInspect.Toolchain.HostListing

/-!
# Device listings

A compiler for device code leaves artifacts in its job directory. The directory is listed once, and
every artifact found becomes a listing of its own: text as it is, machine code as a disassembler
prints it.

## Main definitions

* `Artifact.ofDirectory`: the artifacts in a directory
* `Toolchain.deviceListing`: the listing of one artifact
* `Toolchain.directoryListings`: the listings of all artifacts in a directory, by key
* `Toolchain.deviceListings`: the listings of all artifacts that a compiler run left
-/

namespace AsmInspect

/-- The artifacts among some file names, in the order of the names. -/
def Artifact.ofNames (names : List String) : List Artifact :=
  (names.filterMap Artifact.ofFileName?).mergeSort fun a b => a.fileName ≤ b.fileName

/-- The artifacts in a directory. -/
def Artifact.ofDirectory (path : String) : Work (List Artifact) := do
  return Artifact.ofNames (← Work.orFail .classification path (← Work.query (.listNames path)))

namespace Toolchain

/-- The text of a binary artifact, and how long the disassembler ran. -/
def disassembleArtifact (toolchain : Toolchain) (path jobDir : String) :
    Work (String × Option UInt64) :=
  match toolchain.compiler.deviceDisassembler with
  | none =>
    throw (.config s!"compiler '{toolchain.compiler.id}' has no device disassembler configured")
  | some tool => do
    let run ← Work.runTool tool (Disassembler.deviceArguments path toolchain.compiler.version)
      { toolchain.options .disassembly toolchain.limits.maxAsmSize with cwd := some jobDir }
    return toolText tool run

/-- The text of an artifact, and how long it took to disassemble if it had to be. -/
def artifactText (toolchain : Toolchain) (jobDir : String) (artifact : Artifact) :
    Work (String × Option UInt64) :=
  let path := Path.join jobDir artifact.fileName
  match artifact.kind with
  | .intermediateText => do return (← Work.readText .classification path, none)
  | .binaryMachineCode => toolchain.disassembleArtifact path jobDir

/-- The listing of an artifact. -/
def deviceListing (toolchain : Toolchain) (jobDir : String) (filters : Filters)
    (artifact : Artifact) : Work Listing := do
  let (text, objdumpTimeMs) ← toolchain.artifactText jobDir artifact
  let filters := filters.withBinary artifact.kind.isBinary
  Listing.demangle { Listing.ofText text filters with objdumpTimeMs } filters
    toolchain.compiler.demangler (toolchain.options .disassembly toolchain.limits.maxAsmSize)

/-- The listing of an artifact under the artifact's key. -/
def keyedListing (toolchain : Toolchain) (jobDir : String) (filters : Filters)
    (artifact : Artifact) : Work (String × Listing) := do
  return (artifact.key, ← toolchain.deviceListing jobDir filters artifact)

/-- The listings of all artifacts in a directory. -/
def directoryListings (toolchain : Toolchain) (jobDir : String) (filters : Filters) :
    Work DeviceMap := do
  let artifacts ← Artifact.ofDirectory jobDir
  let listings ← Work.crew toolchain.limits.maxDeviceTasks.toNat
    (artifacts.map (toolchain.keyedListing jobDir filters))
  return Dict.ofList listings

/-- The listings of all artifacts that a compiler run left. -/
def deviceListings (toolchain : Toolchain) (run : ToolResult) (filters : Filters) :
    Work DeviceMap :=
  match toolchain.compiler.kind, run.dirPath with
  | .nvcc, some jobDir => toolchain.directoryListings jobDir.shown filters
  | _, _ => pure {}

end Toolchain

end AsmInspect

import AsmInspect.Text.Lowercase

/-!
# Device artifacts

The files that a compiler for device code leaves in its job directory: intermediate code as text,
and machine code for one architecture. The name of a file says which of them it is and for what.

## Main definitions

* `Artifact.Kind`: the two kinds
* `Artifact`, `Artifact.ofFileName?`: an artifact, read off its file name
* `Artifact.key`: the name of its listing
-/

namespace AsmInspect

/-- The kinds of device artifacts. -/
inductive Artifact.Kind where
  /-- Intermediate code, readable as it is. -/
  | intermediateText
  /-- Machine code that has to be disassembled. -/
  | binaryMachineCode
  deriving DecidableEq, Repr

namespace Artifact.Kind

/-- The kind that a file name's ending says. -/
def ofFileName? (name : String) : Option Kind :=
  if ".ptx".toList.isSuffixOf name.toList then some .intermediateText
  else if ".cubin".toList.isSuffixOf name.toList then some .binaryMachineCode
  else none

/-- The word that starts the name of the listing. -/
def label : Kind → String
  | .intermediateText => "PTX"
  | .binaryMachineCode => "SASS"

/-- Whether the artifact has to be disassembled. -/
def isBinary (kind : Kind) : Bool := kind == .binaryMachineCode

end Artifact.Kind

/-- A device artifact. -/
structure Artifact where
  fileName : String
  kind : Artifact.Kind
  /-- What the artifact was made for, in lowercase; may be empty. -/
  target : String
  deriving DecidableEq, Repr

namespace Artifact

/-- What a file name says of the target: its parts between the first and the last dot. -/
def targetOf (name : String) : String :=
  let parts := Text.splitAt '.' name.toList
  String.ofList (Text.lower (Text.join [',', ' '] parts.tail.dropLast))

/-- The artifact of a file name; other files are none. -/
def ofFileName? (name : String) : Option Artifact :=
  (Kind.ofFileName? name).map fun kind => { fileName := name, kind, target := targetOf name }

/-- The name of the artifact's listing. -/
def key (artifact : Artifact) : String :=
  if artifact.target.isEmpty then artifact.kind.label
  else s!"{artifact.kind.label} ({artifact.target})"

end Artifact

end AsmInspect

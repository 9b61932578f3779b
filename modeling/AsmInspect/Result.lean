import AsmInspect.Filters
import AsmInspect.Json.Basic
import AsmInspect.Listing.Basic
import AsmInspect.Remark.Basic
import AsmInspect.Tool.Basic

/-!
# Requests and results

What a user asks for, and what a job gives back.

## Main definitions

* `BuildRequest`: a source with what to do with it
* `ToolResult.toJson?`: a tool run as JSON
* `AsmOutput`: host assembly as text or in the shape an external parser gave it
* `ParserResult`, `ParserResult.merge`: the answer of an external parser
* `CompilationResult`: everything a job gives back
-/

namespace AsmInspect

/-- A source with what to do with it. -/
structure BuildRequest where
  compilerId : String := ""
  source : String := ""
  userOptions : List String := []
  filters : Filters := {}
  dialect : Dialect := .att
  /-- Whether the job goes ahead of others. -/
  highPriority : Bool := false
  deriving DecidableEq, Inhabited

namespace ToolResult

/-- The directory of a tool run as JSON, if it is text or there is none. -/
def dirJson? (result : ToolResult) : Option Json :=
  match result.dirPath with
  | none => some .null
  | some path => path.text?.map .string

/-- All fields of a tool run. A path that is not text has no place in JSON, and then there is
nothing of the run. -/
def toJson? (result : ToolResult) : Option Json :=
  result.dirJson?.map fun directory =>
    Json.ofFields [("code", Json.ofInt32 result.code), ("stdout", .string result.stdout),
      ("stderr", .string result.stderr), ("execTimeMs", Json.ofNatural result.execTimeMs),
      ("dirPath", directory), ("truncated", .bool result.truncated)]

end ToolResult

/-- Host assembly. -/
inductive AsmOutput where
  | text (text : String)
  /-- The shape that an external parser gave it. -/
  | structured (value : Json)

instance : Inhabited AsmOutput := ⟨.text ""⟩

/-- How long the parts of a job took, in milliseconds. -/
structure Timings where
  compileMs : UInt64 := 0
  objdumpMs : Option UInt64 := none
  postProcessMs : UInt64 := 0
  totalMs : UInt64 := 0
  deriving DecidableEq, Repr, Inhabited

/-- Device listings by the key of their artifact. -/
abbrev DeviceMap := Dict Listing

/-- Everything a job gives back. -/
structure CompilationResult where
  /-- The exit code of the compiler. -/
  code : Int32 := 0
  stdout : String := ""
  stderr : String := ""
  asm : AsmOutput := .text ""
  optOutput : List Remark := []
  devices : DeviceMap := {}
  /-- The command line that the compiler was run with, as users may see it. -/
  compilationOptions : List String := []
  timings : Timings := {}
  deriving Inhabited

/-- The answer of an external parser: its fields on top of those of the tool run, without the raw
output. -/
structure ParserResult where
  fields : Dict Json
  deriving Inhabited

namespace ParserResult

/-- The fields of a tool run as JSON. -/
def runFields (result : ToolResult) : Dict Json :=
  match result.toJson? with
  | some (.object fields) => Dict.ofList fields
  | _ => {}

/-- The fields of a parser on top of those of its run; fields for raw output are left out. -/
def merge (result : ToolResult) (parsed : Dict Json) : ParserResult :=
  ⟨(((runFields result).overlay parsed).erase "stdout").erase "stderr"⟩

/-- The structured assembly, if there is any. -/
def asm? (result : ParserResult) : Option Json := result.fields.get? "asm"

end ParserResult

end AsmInspect

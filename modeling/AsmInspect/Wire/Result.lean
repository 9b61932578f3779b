import AsmInspect.Json.Decoder
import AsmInspect.Result

/-!
# Results on the wire

The JSON shapes of tool runs, listings, remarks and compilation results. Fields without a value are
left out, and so is an empty list of remarks.

## Main definitions

* `Listing.toJson`, `Remark.toJson`, `CompilationResult.toJson`: encoding
* `ToolResult.decoder`, `Listing.decoder`, `Remark.decoder`, `CompilationResult.decoder`: decoding
-/

namespace AsmInspect

open Json (Decoder Fields)

/-- A field that is left out when it has no value. -/
def Json.optionalField {α : Type} (name : String) (encode : α → Json) :
    Option α → List (String × Json)
  | some a => [(name, encode a)]
  | none => []

namespace ToolResult

/-- The fields of a tool run; only the directory may be missing. -/
def decoder : Decoder ToolResult := fun room tree => do
  let fields ← Fields.ofTree? ["code", "stdout", "stderr", "execTimeMs", "dirPath", "truncated"]
    room tree
  return {
    code := ← fields.required? "code" Decoder.int32
    stdout := ← fields.required? "stdout" Decoder.string
    stderr := ← fields.required? "stderr" Decoder.string
    execTimeMs := ← fields.required? "execTimeMs" Decoder.word64
    dirPath := (← fields.nullable? "dirPath" Decoder.string).map .text
    truncated := ← fields.required? "truncated" Decoder.bool }

end ToolResult

namespace SourcePosition

/-- A line, and its file if that is known. -/
def toJson (position : SourcePosition) : Json :=
  Json.ofFields (Json.optionalField "file" .string position.file ++
    [("line", Json.ofWord32 position.line)])

/-- A line, and its file if that is known. -/
def decoder : Decoder SourcePosition := fun room tree => do
  let fields ← Fields.ofTree? ["file", "line"] room tree
  return {
    file := ← fields.nullable? "file" Decoder.string
    line := ← fields.required? "line" Decoder.word32 }

end SourcePosition

namespace Listing

/-- The text of a line, and its source position if it has one. -/
def Line.toJson (line : Line) : Json :=
  Json.ofFields (("text", .string line.text) ::
    Json.optionalField "source" SourcePosition.toJson line.source)

/-- The text of a line, and its source position if it has one. -/
def Line.decoder : Decoder Line := fun room tree => do
  let fields ← Fields.ofTree? ["text", "source"] room tree
  return {
    text := ← fields.required? "text" Decoder.string
    source := ← fields.nullable? "source" SourcePosition.decoder }

/-- All fields of a listing but an unknown time. -/
def toJson (listing : Listing) : Json :=
  Json.ofFields ([("asm", Json.ofList Line.toJson listing.lines),
    ("labelDefinitions",
      .object (listing.labelDefinitions.entries.map fun (key, n) => (key, Json.ofNatural n))),
    ("okToCache", .bool listing.okToCache)] ++
    Json.optionalField "objdumpTimeMs" Json.ofNatural listing.objdumpTimeMs)

/-- The fields of a listing; only the time may be missing. -/
def decoder : Decoder Listing := fun room tree => do
  let fields ← Fields.ofTree? ["asm", "labelDefinitions", "okToCache", "objdumpTimeMs"] room tree
  return {
    lines := ← fields.required? "asm" (Decoder.list Line.decoder)
    labelDefinitions := ← fields.required? "labelDefinitions" (Decoder.dict Decoder.word64)
    okToCache := ← fields.required? "okToCache" Decoder.bool
    objdumpTimeMs := ← fields.nullable? "objdumpTimeMs" Decoder.word64 }

end Listing

namespace Remark

/-- The name of a kind. -/
def Kind.name : Kind → String
  | passed => "Passed"
  | missed => "Missed"
  | analysis => "Analysis"
  | other => "Other"

/-- The kinds by name. -/
def Kind.named : List (String × Kind) :=
  [passed, missed, analysis, other].map fun kind => (kind.name, kind)

/-- All fields of a place. -/
def DebugLoc.toJson (place : DebugLoc) : Json :=
  Json.ofFields [("file", .string place.file), ("line", Json.ofWord32 place.line),
    ("column", Json.ofWord32 place.column)]

/-- All fields of a place. -/
def DebugLoc.decoder : Decoder DebugLoc := fun room tree => do
  let fields ← Fields.ofTree? ["file", "line", "column"] room tree
  return {
    file := ← fields.required? "file" Decoder.string
    line := ← fields.required? "line" Decoder.word32
    column := ← fields.required? "column" Decoder.word32 }

/-- All fields of a remark but an unknown place. -/
def toJson (remark : Remark) : Json :=
  Json.ofFields ([("kind", .string remark.kind.name), ("pass", .string remark.pass),
    ("name", .string remark.name), ("function", .string remark.function)] ++
    Json.optionalField "debugLoc" DebugLoc.toJson remark.debugLoc ++
    [("displayString", .string remark.displayString)])

/-- The fields of a remark; only the place may be missing. -/
def decoder : Decoder Remark := fun room tree => do
  let fields ← Fields.ofTree? ["kind", "pass", "name", "function", "debugLoc", "displayString"]
    room tree
  return {
    kind := ← fields.required? "kind" (Decoder.oneOf Kind.named)
    pass := ← fields.required? "pass" Decoder.string
    name := ← fields.required? "name" Decoder.string
    function := ← fields.required? "function" Decoder.string
    debugLoc := ← fields.nullable? "debugLoc" DebugLoc.decoder
    displayString := ← fields.required? "displayString" Decoder.string }

end Remark

namespace AsmOutput

/-- A string for text, and any other shape as it is. -/
def toJson : AsmOutput → Json
  | .text s => .string s
  | .structured value => value

/-- Text from a string, and any other value as it is. -/
def decoder : Decoder AsmOutput := fun room tree =>
  (Decoder.any room tree).map fun
    | .string s => .text s
    | value => .structured value

end AsmOutput

namespace Timings

/-- All times but those that are unknown. -/
def toJson (timings : Timings) : Json :=
  Json.ofFields ([("compileMs", Json.ofNatural timings.compileMs)] ++
    Json.optionalField "objdumpMs" Json.ofNatural timings.objdumpMs ++
    [("postProcessMs", Json.ofNatural timings.postProcessMs),
      ("totalMs", Json.ofNatural timings.totalMs)])

/-- The times; only that of the disassembler may be missing. -/
def decoder : Decoder Timings := fun room tree => do
  let fields ← Fields.ofTree? ["compileMs", "objdumpMs", "postProcessMs", "totalMs"] room tree
  return {
    compileMs := ← fields.required? "compileMs" Decoder.word64
    objdumpMs := ← fields.nullable? "objdumpMs" Decoder.word64
    postProcessMs := ← fields.required? "postProcessMs" Decoder.word64
    totalMs := ← fields.required? "totalMs" Decoder.word64 }

end Timings

namespace CompilationResult

/-- All fields of a result but an empty list of remarks. -/
def toJson (result : CompilationResult) : Json :=
  Json.ofFields ([("code", Json.ofInt32 result.code), ("stdout", .string result.stdout),
    ("stderr", .string result.stderr), ("asm", result.asm.toJson)] ++
    (if result.optOutput.isEmpty then []
      else [("optOutput", Json.ofList Remark.toJson result.optOutput)]) ++
    [("devices", .object (result.devices.entries.map fun (key, d) => (key, d.toJson))),
      ("compilationOptions", Json.ofList .string result.compilationOptions),
      ("timings", result.timings.toJson)])

/-- The fields of a result; only the remarks may be missing. -/
def decoder : Decoder CompilationResult := fun room tree => do
  let fields ← Fields.ofTree? ["code", "stdout", "stderr", "asm", "optOutput", "devices",
    "compilationOptions", "timings"] room tree
  return {
    code := ← fields.required? "code" Decoder.int32
    stdout := ← fields.required? "stdout" Decoder.string
    stderr := ← fields.required? "stderr" Decoder.string
    asm := ← fields.required? "asm" AsmOutput.decoder
    optOutput := ← fields.orElse? "optOutput" [] (Decoder.list Remark.decoder)
    devices := ← fields.required? "devices" (Decoder.dict Listing.decoder)
    compilationOptions := ← fields.required? "compilationOptions" (Decoder.list Decoder.string)
    timings := ← fields.required? "timings" Timings.decoder }

end CompilationResult

namespace ParserResult

/-- The fields as they are. -/
def toJson (result : ParserResult) : Json := Json.ofDict result.fields

/-- The fields of any object. -/
def decoder : Decoder ParserResult := fun room tree =>
  match tree with
  | .object _ => (Decoder.dict Decoder.any room tree).map fun fields => ⟨fields⟩
  | _ => none

end ParserResult

end AsmInspect

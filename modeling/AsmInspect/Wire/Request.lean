import AsmInspect.Compiler
import AsmInspect.Json.Decoder
import AsmInspect.Result

/-!
# Requests on the wire

The JSON shapes of requests and of what they consist of, and of configured compilers.

## Main definitions

* `Filters.toJson`, `Dialect.toJson`, `BuildRequest.toJson`, `Compiler.toJson`: encoding
* `Filters.decoder`, `Dialect.decoder`, `BuildRequest.decoder`, `Compiler.decoder`: decoding
-/

namespace AsmInspect

open Json (Decoder Fields)

namespace Filters

/-- The switches by name. -/
def toJson (filters : Filters) : Json :=
  Json.ofFields [("execute", .bool filters.execute), ("binary", .bool filters.binary),
    ("demangle", .bool filters.demangle), ("labels", .bool filters.labels),
    ("directives", .bool filters.directives), ("commentOnly", .bool filters.commentOnly),
    ("trim", .bool filters.trim), ("libraryCode", .bool filters.libraryCode)]

/-- The switches by name; those that are missing are off. -/
def decoder : Decoder Filters := fun room tree => do
  let fields ← Fields.ofTree? ["execute", "binary", "demangle", "labels", "directives",
    "commentOnly", "trim", "libraryCode"] room tree
  return {
    execute := ← fields.orElse? "execute" false Decoder.bool
    binary := ← fields.orElse? "binary" false Decoder.bool
    demangle := ← fields.orElse? "demangle" false Decoder.bool
    labels := ← fields.orElse? "labels" false Decoder.bool
    directives := ← fields.orElse? "directives" false Decoder.bool
    commentOnly := ← fields.orElse? "commentOnly" false Decoder.bool
    trim := ← fields.orElse? "trim" false Decoder.bool
    libraryCode := ← fields.orElse? "libraryCode" false Decoder.bool }

end Filters

namespace Dialect

/-- The name of a dialect. -/
def name : Dialect → String
  | att => "att"
  | intel => "intel"

/-- The name of the dialect. -/
def toJson (dialect : Dialect) : Json := .string dialect.name

/-- One of the names. -/
def decoder : Decoder Dialect := Decoder.oneOf [("att", att), ("intel", intel)]

end Dialect

namespace BuildRequest

/-- All fields of a request. -/
def toJson (request : BuildRequest) : Json :=
  Json.ofFields [("compilerId", .string request.compilerId), ("source", .string request.source),
    ("userOptions", Json.ofList .string request.userOptions),
    ("filters", request.filters.toJson), ("asmSyntax", request.dialect.toJson),
    ("highPriority", .bool request.highPriority)]

/-- The fields of a request, none of which is needed. -/
def decoder : Decoder BuildRequest := fun room tree => do
  let fields ← Fields.ofTree? ["compilerId", "source", "userOptions", "filters", "asmSyntax",
    "highPriority"] room tree
  return {
    compilerId := ← fields.orElse? "compilerId" "" Decoder.string
    source := ← fields.orElse? "source" "" Decoder.string
    userOptions := ← fields.orElse? "userOptions" [] (Decoder.list Decoder.string)
    filters := ← fields.orElse? "filters" {} Filters.decoder
    dialect := ← fields.orElse? "asmSyntax" .att Dialect.decoder
    highPriority := ← fields.orElse? "highPriority" false Decoder.bool }

end BuildRequest

namespace Compiler

/-- The name of a kind. -/
def Kind.name : Kind → String
  | nvcc => "nvcc"
  | generic => "generic"

/-- The kinds by name. -/
def Kind.named : List (String × Kind) := [("nvcc", .nvcc), ("generic", .generic)]

/-- All fields of a configured compiler. -/
def toJson (compiler : Compiler) : Json :=
  Json.ofFields [("id", .string compiler.id), ("name", .string compiler.name),
    ("kind", .string compiler.kind.name), ("exe", .string compiler.exe),
    ("version", .string compiler.version), ("instruction_set", .string compiler.instructionSet),
    ("objdumper", Json.ofOption .string compiler.objdumper),
    ("device_disassembler", Json.ofOption .string compiler.deviceDisassembler),
    ("external_parser", Json.ofOption .string compiler.externalParser),
    ("demangler", Json.ofOption .string compiler.demangler),
    ("supports_opt_output", .bool compiler.supportsOptOutput),
    ("opt_args", Json.ofList .string compiler.optArgs),
    ("supports_device_asm_view", .bool compiler.supportsDeviceAsmView),
    ("env", .object (compiler.env.entries.map fun (key, value) => (key, .string value)))]

/-- The names of the fields, in their order. -/
def fieldNames : List String :=
  ["id", "name", "kind", "exe", "version", "instruction_set", "objdumper", "device_disassembler",
    "external_parser", "demangler", "supports_opt_output", "opt_args",
    "supports_device_asm_view", "env"]

/-- The fields of a configured compiler; only its id, its kind and its path are needed. -/
def decoder : Decoder Compiler := fun room tree => do
  let fields ← Fields.ofTree? fieldNames room tree
  let path := Decoder.nullable Decoder.string
  return {
    id := ← fields.required? "id" Decoder.string
    name := ← fields.orElse? "name" "" Decoder.string
    kind := ← fields.required? "kind" (Decoder.oneOf Kind.named)
    exe := ← fields.required? "exe" Decoder.string
    version := ← fields.orElse? "version" "" Decoder.string
    instructionSet := ← fields.orElse? "instruction_set" "" Decoder.string
    objdumper := ← fields.orElse? "objdumper" none path
    deviceDisassembler := ← fields.orElse? "device_disassembler" none path
    externalParser := ← fields.orElse? "external_parser" none path
    demangler := ← fields.orElse? "demangler" none path
    supportsOptOutput := ← fields.orElse? "supports_opt_output" false Decoder.bool
    optArgs := ← fields.orElse? "opt_args" [] (Decoder.list Decoder.string)
    supportsDeviceAsmView := ← fields.orElse? "supports_device_asm_view" false Decoder.bool
    env := ← fields.orElse? "env" {} (Decoder.dict Decoder.string) }

end Compiler

end AsmInspect

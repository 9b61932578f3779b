import AsmInspect.Config.Overrides
import AsmInspect.Toml.Reader
import AsmInspect.Wire.Request

/-!
# Reading a configuration

A configuration is written in TOML. Every part of it may be left out, and what it does not know is
passed over. A record may be written as an array of its fields in their order.

## Main definitions

* `Toml.Decoder`: decoders of values of TOML
* `Config.ofTable?`: the configuration that a table describes
* `Config.ofToml?`: the configuration of a text
* `Config.ofFile`: the configuration in a file, ready for use
-/

namespace AsmInspect

namespace Toml

/-- A decoder of a value of TOML. -/
abbrev Decoder (α : Type) := Toml → Option α

/-- A string. -/
def string? : Decoder String
  | .string s => some s
  | _ => none

/-- A boolean. -/
def boolean? : Decoder Bool
  | .boolean b => some b
  | _ => none

/-- A natural number. -/
def word64? : Decoder UInt64
  | .integer i => if 0 ≤ i then some i.toNat.toUInt64 else none
  | _ => none

/-- A list, also one made of tables with headers. -/
def list? {α : Type} (decode : Decoder α) : Decoder (List α)
  | .array items => items.mapM decode
  | .tables items => items.reverse.mapM fun fields => decode (.inlineTable fields)
  | _ => none

/-- The fields of a table. -/
def fields? : Toml → Option TableFields
  | .inlineTable fields => some fields
  | .table _ fields => some fields
  | _ => none

/-- The fields of a record with these names: those of a table, or the items of an array. -/
def record? (names : List String) (value : Toml) : Option TableFields :=
  match value with
  | .array items => some (names.zip items)
  | .tables items => some (names.zip (items.reverse.map .inlineTable))
  | _ => value.fields?

/-- A field that must be there. -/
def required? {α : Type} (fields : TableFields) (name : String) (decode : Decoder α) : Option α := do
  decode (← lookup? fields name)

/-- A field in place of which a missing one gives a value. -/
def orElse? {α : Type} (fields : TableFields) (name : String) (missing : α) (decode : Decoder α) :
    Option α :=
  match lookup? fields name with
  | some value => decode value
  | none => some missing

/-- A field that may be missing. -/
def optional? {α : Type} (fields : TableFields) (name : String) (decode : Decoder α) :
    Option (Option α) :=
  orElse? fields name none fun value => (decode value).map some

/-- One of several names, written as a string or as the name of an empty table or array. -/
def oneOf? {α : Type} (names : List (String × α)) (value : Toml) : Option α :=
  let name? : Option String := match value with
    | .string s => some s
    | _ =>
      match value.fields? with
      | some [(name, inner)] =>
        match inner with
        | .array [] => some name
        | _ => if (inner.fields?.map List.isEmpty).getD false then some name else none
      | _ => none
  name?.bind fun name => (names.find? (·.1 == name)).map (·.2)

end Toml

open Toml (required? orElse? optional? string? boolean? word64?)

namespace Limits

/-- The limits that a record sets; the others keep their defaults. -/
def ofToml? (value : Toml) : Option Limits := do
  let standard : Limits := {}
  let fields ← Toml.record? (standard.named.map (·.1)) value
  return {
    maxAsmSize := ← orElse? fields "max_asm_size" standard.maxAsmSize word64?
    maxOutput := ← orElse? fields "max_output" standard.maxOutput word64?
    execTimeoutMs := ← orElse? fields "exec_timeout_ms" standard.execTimeoutMs word64?
    jobTimeoutMs := ← orElse? fields "job_timeout_ms" standard.jobTimeoutMs word64?
    maxConcurrentJobs := ← orElse? fields "max_concurrent_jobs" standard.maxConcurrentJobs word64?
    maxDeviceTasks := ← orElse? fields "max_device_tasks" standard.maxDeviceTasks word64? }

end Limits

/-- The sandbox that a record describes. -/
def Sandbox.ofToml? (value : Toml) : Option Sandbox := do
  let fields ← Toml.record? ["root", "mask_root"] value
  return {
    root := ← orElse? fields "root" ({} : Sandbox).root string?
    maskRoot := ← optional? fields "mask_root" string? }

/-- The compiler that a record describes. -/
def Compiler.ofToml? (value : Toml) : Option Compiler := do
  let fields ← Toml.record? Compiler.fieldNames value
  return {
    id := ← required? fields "id" string?
    name := ← orElse? fields "name" "" string?
    kind := ← required? fields "kind" (Toml.oneOf? Kind.named)
    exe := ← required? fields "exe" string?
    version := ← orElse? fields "version" "" string?
    instructionSet := ← orElse? fields "instruction_set" "" string?
    objdumper := ← optional? fields "objdumper" string?
    deviceDisassembler := ← optional? fields "device_disassembler" string?
    externalParser := ← optional? fields "external_parser" string?
    demangler := ← optional? fields "demangler" string?
    supportsOptOutput := ← orElse? fields "supports_opt_output" false boolean?
    optArgs := ← orElse? fields "opt_args" [] (Toml.list? string?)
    supportsDeviceAsmView := ← orElse? fields "supports_device_asm_view" false boolean?
    env := ← orElse? fields "env" {} fun value => do
      let entries ← (← value.fields?).mapM fun (key, value) => do return (key, ← string? value)
      return Dict.ofList entries }

namespace Config

/-- The configuration that a table describes. -/
def ofTable? (fields : Toml.TableFields) : Option Config := do
  return {
    limits := ← orElse? fields "limits" {} Limits.ofToml?
    sandbox := ← orElse? fields "sandbox" {} Sandbox.ofToml?
    compilers := ← orElse? fields "compiler" [] (Toml.list? Compiler.ofToml?)
    healthFile := ← optional? fields "health_file" string? }

/-- The configuration of a text. -/
def ofToml? (text : String) : Except ConfigError Config :=
  match (Toml.ofText? text).bind ofTable? with
  | some config => .ok config
  | none => .error .parse

/-- The configuration in a file, under an environment and without contradictions. -/
def ofFile (path : String) (content : Except FileError String) (env : Dict String) :
    Except ConfigError Config :=
  match content with
  | .error cause => .error (.read path cause)
  | .ok text => do
    let config ← ofToml? text
    match config.override env with
    | (_, some error) => throw error
    | (config, none) =>
      config.validate
      return config

end Config

end AsmInspect

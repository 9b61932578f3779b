import AsmInspect.Json.Tree
import AsmInspect.Tool.Capture

/-!
# The mark is no JSON

A line feed cannot stand inside a string, an escape or a number, so whatever a scanner of JSON is in
the middle of, it is between tokens after a line feed or has given up. The mark of a cut-off output
opens an array on a line of its own and puts a word in it that JSON does not have. A text that ends
in the mark is therefore never JSON, whatever stands in front of it: not even the text of a whole
value, which could be taken for the output if the mark were passed over.

## Main results

* `Json.between_of_scanStep?`: after a line feed the scanner is between tokens
* `Json.ofText?_of_mark`: no text that ends in the mark is JSON
-/

namespace AsmInspect.Json

/-- The scanner that ends a token at a line feed is between tokens. -/
theorem startToken?_newline (found : List Token) :
    startToken? found '\n' = some (found, .between) := rfl

/-- **After a line feed the scanner is between tokens**, or it has given up. -/
theorem between_of_scanStep? {state next : List Token × Mode}
    (h : scanStep? state '\n' = some next) : next.2 = .between := by
  obtain ⟨found, mode⟩ := state
  cases mode with
  | between =>
    obtain rfl := Option.some.inj ((startToken?_newline found).symm.trans h)
    rfl
  | word seen =>
    obtain ⟨tokens, -, hnext⟩ := Option.bind_eq_some_iff.mp h
    obtain rfl := Option.some.inj ((startToken?_newline tokens).symm.trans hnext)
    rfl
  | number seen =>
    obtain ⟨tokens, -, hnext⟩ := Option.bind_eq_some_iff.mp h
    obtain rfl := Option.some.inj ((startToken?_newline tokens).symm.trans hnext)
    rfl
  | string seen => cases h
  | escape seen => cases h
  | unit seen count value => cases h

/-- The word of the mark is no word of JSON. -/
theorem foldlM_scanStep?_word (found : List Token) :
    "[Truncated]".toList.foldlM scanStep? (found, Mode.between) = none := rfl

/-- The scanner gives up in the mark, whatever it has read before. -/
theorem foldlM_scanStep?_mark (state : List Token × Mode) :
    Capture.truncationMark.foldlM scanStep? state = none := by
  have hmark : Capture.truncationMark = '\n' :: "[Truncated]".toList := rfl
  rw [hmark, List.foldlM_cons]
  cases hstep : scanStep? state '\n' with
  | none => rfl
  | some next =>
    obtain ⟨found, mode⟩ := next
    obtain rfl : mode = .between := between_of_scanStep? hstep
    exact foldlM_scanStep?_word found

theorem scan?_of_mark (text : Text) : scan? (text ++ Capture.truncationMark) = none := by
  unfold scan?
  rw [List.foldlM_append]
  cases hread : text.foldlM scanStep? ([], .between) with
  | none => rfl
  | some state =>
    have hmark := foldlM_scanStep?_mark state
    simp [hmark]

/-- **No text that ends in the mark is JSON.** -/
theorem ofText?_of_mark {text : String} {front : Text}
    (h : text.toList = front ++ Capture.truncationMark) : ofText? text = none := by
  rw [ofText?, Tree.ofText?, h, scan?_of_mark]
  rfl

end AsmInspect.Json

import AsmInspect.Text.Basic

/-!
# Instruction encodings in a listing

A device disassembler can print the encoding of each instruction as a comment of hexadecimal
digits. Such comments are removed before a line is looked at.

## Main definitions

* `Listing.isEncoding`: whether the inside of a comment is an encoding
* `Listing.stripEncodings`: a line without its encodings and without blanks at its end
-/

namespace AsmInspect

namespace Text

/-- Looking for a word loses nothing of what has been seen and of what is left. -/
theorem cut?.go_eq {word text seen before rest : Text}
    (h : cut?.go word seen text = some (before, rest)) :
    seen.reverse ++ text = before ++ word ++ rest := by
  induction text generalizing seen with
  | nil =>
    unfold cut?.go at h
    split at h
    · next hw =>
      obtain ⟨rfl, rfl⟩ := Prod.mk.injEq .. ▸ Option.some.injEq .. ▸ h
      simp [List.isEmpty_iff.1 hw]
    · cases h
  | cons c text ih =>
    unfold cut?.go at h
    split at h
    · next hw =>
      -- the word stands here, so the text is the word and what follows it
      obtain ⟨rfl, rfl⟩ := Prod.mk.injEq .. ▸ Option.some.injEq .. ▸ h
      obtain ⟨tail, ht⟩ := List.isPrefixOf_iff_prefix.1 hw
      rw [← ht]
      simp
    · have hrest := ih h
      simpa using hrest

/-- Cutting loses nothing: the text is what stands before the word, the word, and the rest. -/
theorem eq_of_cut? {word text before rest : Text} (h : cut? word text = some (before, rest)) :
    text = before ++ word ++ rest := by
  have hgo := cut?.go_eq h
  simpa using hgo

/-- The parts of a text that is cut are as long as the text. -/
theorem length_of_cut? {word text before rest : Text} (h : cut? word text = some (before, rest)) :
    text.length = before.length + word.length + rest.length := by
  rw [eq_of_cut? h]
  simp only [List.length_append]

end Text

namespace Listing

/-- What opens the comment of an encoding. -/
def encodingOpen : Text := ['/', '*', ' ', '0', 'x']

/-- What closes a comment. -/
def commentClose : Text := ['*', '/']

/-- Whether a character is a hexadecimal digit. -/
def isHexDigit (c : Char) : Bool :=
  c.isDigit || ('a' ≤ c && c ≤ 'f') || ('A' ≤ c && c ≤ 'F')

/-- Whether a comment opened as an encoding holds nothing but hexadecimal digits between blanks. -/
def isEncoding (inside : Text) : Bool := (Text.trim inside).all isHexDigit

/-- The line without its encodings. A comment that is none stays, and so does all that follows a
comment which is not closed. -/
def dropEncodings (line : Text) : Text :=
  match h₁ : Text.cut? encodingOpen line with
  | none => line
  | some (before, opened) =>
    match h₂ : Text.cut? commentClose opened with
    | none => line
    | some (inside, rest) =>
      have : rest.length < line.length := by
        have := Text.length_of_cut? h₁
        have := Text.length_of_cut? h₂
        simp only [encodingOpen, commentClose, List.length_cons, List.length_nil] at *
        omega
      if isEncoding inside then before ++ dropEncodings rest
      else before ++ encodingOpen ++ inside ++ commentClose ++ dropEncodings rest
termination_by line.length

/-- The line without its encodings and without blanks at its end. -/
def stripEncodings (line : Text) : Text := Text.trimEnd (dropEncodings line)

end Listing

end AsmInspect

import AsmInspect.Listing.Reader
import AsmInspect.Proofs.Path
import AsmInspect.Proofs.Text.Numbers
import AsmInspect.Toolchain.Arguments

/-!
# Notices in a listing

What is shown in place of an output that is not there is one line in angle brackets. No filter hides
such a line or changes it, since it is no comment, no directive and no label, holds no encoding, and
has single spaces between its words already. So whatever the filters, its listing is the line
itself.

## Main definitions

* `Listing.IsNotice`: one line in angle brackets

## Main results

* `Listing.IsNotice.ofText`: the listing of a notice
* `Disassembler.isNotice_noOutput`: what is shown for a disassembler that failed is a notice
-/

namespace AsmInspect

namespace Listing

/-- Words between single spaces, in angle brackets and without slashes. -/
structure IsNotice (text : Text) : Prop where
  words : ∃ parts, (∀ part ∈ parts, Text.IsWord part) ∧ text = Text.join [' '] parts
  brackets : ∃ inner, text = '<' :: (inner ++ ['>'])
  slashless : '/' ∉ text

/-- What a text does not have does not occur in it. -/
theorem cut?_eq_none_of_not_mem {word text : Text} {c : Char} (hword : c ∈ word) (h : c ∉ text) :
    Text.cut? word text = none := by
  cases hcut : Text.cut? word text with
  | none => rfl
  | some parts =>
    obtain ⟨before, rest⟩ := parts
    refine absurd ?_ h
    rw [Text.eq_of_cut? hcut]
    simp [hword]

/-- A line that starts with another word is no directive about files. -/
theorem directive_eq (tracker : Tracker) {word : Text} {rest : List Text}
    (hfile : word ≠ ".file".toList) (hloc : word ≠ ".loc".toList) :
    tracker.directive (word :: rest) = tracker := by
  unfold Tracker.directive
  split
  case h_1 other index argument more he =>
    obtain rfl : word = other := (List.cons.inj he).1
    rw [if_neg (by simpa using hfile), if_neg (by simpa using hloc)]
  case h_2 => rfl

namespace IsNotice

variable {text : Text}

theorem trim_eq (h : IsNotice text) : Text.trim text = text := by
  obtain ⟨inner, rfl⟩ := h.brackets
  exact Text.trim_of_ends (by decide) (by decide)

theorem squash_eq (h : IsNotice text) : squash text = text := by
  obtain ⟨parts, hparts, htext⟩ := h.words
  obtain ⟨inner, hbrackets⟩ := h.brackets
  have hwords : Text.join [' '] (Text.words text) = text := by
    rw [htext, Text.words_join hparts]
  have hhead : text.head?.any Text.isBlank = false := by
    rw [hbrackets]
    rfl
  simp [squash, hwords, hhead]

theorem lines_eq (h : IsNotice text) : Text.lines text = [text] := by
  obtain ⟨parts, hparts, htext⟩ := h.words
  obtain ⟨inner, hbrackets⟩ := h.brackets
  refine Text.lines_of_not_mem (by simp [hbrackets]) fun hmem => ?_
  rw [htext] at hmem
  rcases Text.mem_join hmem with hmem | ⟨part, hpart, hmem⟩
  · exact absurd hmem (by decide)
  · have hblank := (hparts part hpart).noBlank _ hmem
    exact absurd hblank (by decide)

theorem label?_eq (h : IsNotice text) : label? text = none := by
  have hbefore : Text.before? [':'] text = none := by
    obtain ⟨inner, hbrackets⟩ := h.brackets
    -- a label ends in a colon, and a notice in a bracket
    rw [Text.before?, if_neg]
    rw [List.isSuffixOf_iff_suffix, hbrackets, ← List.cons_append]
    rintro ⟨front, hfront⟩
    have hlast := List.append_inj_right' hfront rfl
    exact absurd hlast (by decide)
  rw [label?, h.trim_eq, hbefore]

theorem stripEncodings_eq (h : IsNotice text) : stripEncodings text = text := by
  have hcut : Text.cut? encodingOpen text = none :=
    cut?_eq_none_of_not_mem (c := '/') (by decide) h.slashless
  have hdrop : dropEncodings text = text := by
    rw [dropEncodings]
    split
    · rfl
    · simp_all
  obtain ⟨inner, hbrackets⟩ := h.brackets
  rw [stripEncodings, hdrop, hbrackets, ← List.cons_append]
  exact Text.trimEnd_of_last (by decide)

/-- A notice is no source marker. -/
theorem next_eq (h : IsNotice text) (tracker : Tracker) : tracker.next text = tracker := by
  obtain ⟨parts, hparts, htext⟩ := h.words
  obtain ⟨inner, hbrackets⟩ := h.brackets
  have hmarker : markerComment? text = none := by
    rw [markerComment?, hbrackets]
    rfl
  rw [Tracker.next, hmarker, htext, Text.words_join hparts]
  cases parts with
  | nil => rfl
  | cons first rest =>
    -- the first word starts with the bracket
    have hhead : first.head? = some '<' := by
      cases first with
      | nil => exact absurd rfl (hparts [] (List.mem_cons_self ..)).ne_nil
      | cons c f =>
        have hjoin : (Text.join [' '] ((c :: f) :: rest)).head? = some c := by
          cases rest <;> rfl
        rw [← htext, hbrackets] at hjoin
        exact hjoin.symm
    refine directive_eq tracker ?_ ?_
    · rintro rfl
      exact absurd hhead (by decide)
    · rintro rfl
      exact absurd hhead (by decide)

theorem entries_eq (h : IsNotice text) (binary : Bool) :
    entries binary text = [{ raw := text, line := text, position := none }] := by
  have hline : (if binary then stripEncodings text else text) = text := by
    rw [h.stripEncodings_eq, ite_self]
  rw [entries, h.lines_eq]
  simp only [entriesFrom, hline, h.trim_eq, h.next_eq]

/-- No filter hides a notice. -/
theorem hidden_eq (h : IsNotice text) (filters : Filters) (used : List Text) :
    Entry.hidden filters used { raw := text, line := text, position := none } = false := by
  obtain ⟨inner, hbrackets⟩ := h.brackets
  have hlabel : label? ('<' :: (inner ++ ['>'])) = none := hbrackets ▸ h.label?_eq
  simp only [Entry.hidden, Entry.isEmptied, Entry.core, h.trim_eq]
  simp [hbrackets, hlabel, isCommentOnly]

/-- **The listing of a notice** is its line. -/
theorem ofText (h : IsNotice text) (filters : Filters) :
    Listing.ofText (String.ofList text) filters =
      { lines := [{ text := String.ofList text }] } := by
  have hkept : kept filters text = [{ raw := text, line := text, position := none }] := by
    simp [kept, h.entries_eq, h.hidden_eq]
  have hcore : Entry.core { raw := text, line := text, position := none } = text := h.trim_eq
  simp [Listing.ofText, hkept, Entry.toLine, Entry.shown, Entry.source, indexLabels, hcore,
    h.squash_eq, h.label?_eq]

end IsNotice

end Listing

namespace Disassembler

/-- The characters of a number with a sign. -/
theorem mem_toString_int32 {code : Int32} {c : Char} (h : c ∈ (toString code).toList) :
    c = '-' ∨ c.isDigit = true := by
  have hnat {n : Nat} (hn : c ∈ n.repr.toList) : c.isDigit = true := by
    rw [Nat.toList_repr] at hn
    exact Nat.isDigit_of_mem_toDigits (by decide) (by decide) hn
  have hint : c ∈ code.toInt.repr.toList := h
  cases hcode : code.toInt with
  | ofNat n =>
    rw [hcode] at hint
    exact .inr (hnat hint)
  | negSucc n =>
    rw [hcode] at hint
    have hminus : (Int.negSucc n).repr.toList = '-' :: (n.succ).repr.toList := by
      simp [Int.repr]
    rw [hminus] at hint
    rcases List.mem_cons.mp hint with rfl | hint
    · exact .inl rfl
    · exact .inr (hnat hint)

/-- What is shown for a disassembler that failed is a notice. -/
theorem isNotice_noOutput {tool name : String} (hname : Path.fileName? tool = some name)
    (hblank : ∀ c ∈ name.toList, Text.isBlank c = false) (code : Int32) :
    Listing.IsNotice (noOutput tool code).toList := by
  obtain ⟨hne, hslash⟩ := Path.of_fileName? hname
  have heq : noOutput tool code =
      "<No output: " ++ name ++ " returned " ++ toString code ++ ">" := by
    unfold noOutput
    rw [hname]
    rfl
  have htext : (noOutput tool code).toList = "<No output: ".toList ++ name.toList ++
      " returned ".toList ++ (toString code).toList ++ ['>'] := by
    rw [heq]
    simp only [String.toList_append]
    rfl
  have hcode (c : Char) (hc : c ∈ (toString code).toList) : Text.isBlank c = false ∧ c ≠ '/' := by
    rcases mem_toString_int32 hc with rfl | hdigit
    · exact ⟨by decide, by decide⟩
    · refine ⟨Text.not_blank_of_isDigit hdigit, ?_⟩
      rintro rfl
      exact absurd hdigit (by decide)
  rw [htext]
  -- five words, the last one with the closing bracket
  refine ⟨⟨["<No".toList, "output:".toList, name.toList, "returned".toList,
    (toString code).toList ++ ['>']], ?_, by simp [Text.join]⟩, ⟨"No output: ".toList ++
      name.toList ++ " returned ".toList ++ (toString code).toList, by simp⟩, ?_⟩
  · simp only [List.forall_mem_cons, List.not_mem_nil, false_imp_iff, implies_true, and_true]
    refine ⟨by decide, by decide, ⟨hne, hblank⟩, by decide, ⟨by simp, fun c hc => ?_⟩⟩
    rcases List.mem_append.mp hc with hc | hc
    · exact (hcode c hc).1
    · obtain rfl := List.mem_singleton.mp hc
      decide
  · simp only [List.mem_append, not_or]
    exact ⟨⟨⟨⟨by decide, hslash⟩, by decide⟩, fun hc => (hcode _ hc).2 rfl⟩, by decide⟩

end Disassembler

end AsmInspect

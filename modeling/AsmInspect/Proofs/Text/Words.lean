import AsmInspect.Text.Basic
import Mathlib.Algebra.GroupWithZero.Nat
import Mathlib.Data.List.Basic

/-!
# Pieces, words and lines

Cutting a text at the characters of a class is undone by putting them back, so a text that has been
put together from words is read as these words. A text without line feeds is one line, and one whose
ends are no blanks is not trimmed.

## Main definitions

* `Text.IsWord`: a text that is read as one word

## Main results

* `Text.pieces_append_cons`, `Text.pieces_append_separator`: the pieces up to a separator
* `Text.eq_false_of_mem_pieces`: what pieces are made of
* `Text.words_join`: words with single spaces between them
* `Text.lines_of_not_mem`: a text that is one line
* `Text.trim_of_ends`: a text that is not trimmed
* `Text.replaceAll_singleton`: a character replaced wherever it stands
-/

namespace AsmInspect.Text

variable {p : Char → Bool} {text : Text}

/-! ### Pieces -/

/-- A text without characters of the class is one piece. -/
theorem pieces_of_forall (h : ∀ c ∈ text, p c = false) : pieces p text = [text] := by
  induction text with
  | nil => rfl
  | cons c rest ih =>
    rw [pieces_cons, h c (List.mem_cons_self ..), ih fun d hd => h d (List.mem_cons_of_mem _ hd)]
    rfl

theorem pieces_ne_nil : pieces p text ≠ [] := by
  induction text with
  | nil => simp
  | cons c rest ih =>
    rw [pieces_cons]
    split
    · simp
    · cases hrest : pieces p rest with
      | nil => exact absurd hrest ih
      | cons => simp

/-- There is a first piece. -/
theorem exists_pieces (p : Char → Bool) (text : Text) :
    ∃ first others, pieces p text = first :: others :=
  List.exists_cons_of_ne_nil pieces_ne_nil

/-- A character of the class ends a piece, whatever stands in front of it. -/
theorem pieces_append_separator (before : Text) {c : Char} (hc : p c = true) (rest : Text) :
    pieces p (before ++ c :: rest) = pieces p before ++ pieces p rest := by
  induction before with
  | nil => rw [List.nil_append, pieces_cons, if_pos hc, pieces_nil, List.singleton_append]
  | cons d before ih =>
    rw [List.cons_append, pieces_cons, pieces_cons, ih]
    split
    · rfl
    · obtain ⟨first, others, hpieces⟩ := exists_pieces p before
      rw [hpieces]
      rfl

/-- The first piece ends at the first character of the class. -/
theorem pieces_append_cons {before rest : Text} {c : Char} (h : ∀ d ∈ before, p d = false)
    (hc : p c = true) : pieces p (before ++ c :: rest) = before :: pieces p rest := by
  rw [pieces_append_separator before hc, pieces_of_forall h, List.singleton_append]

/-- A text has no separators, or there is a first one. -/
theorem unseparated_or_exists_separator (p : Char → Bool) (text : Text) :
    (∀ c ∈ text, p c = false) ∨ ∃ first c rest, (∀ d ∈ first, p d = false) ∧ p c = true ∧
      text = first ++ c :: rest := by
  cases hfind : text.find? p with
  | none => exact .inl (by simpa using hfind)
  | some c =>
    obtain ⟨hc, first, rest, htext, hfirst⟩ := List.find?_eq_some_iff_append.mp hfind
    exact .inr ⟨first, c, rest, by simpa using hfirst, hc, htext⟩

/-- There is one piece more than there are separators. -/
theorem length_splitAt (separator : Char) (text : Text) :
    (splitAt separator text).length = text.count separator + 1 := by
  induction text with
  | nil => rfl
  | cons c rest ih =>
    rw [splitAt] at ih ⊢
    rw [pieces_cons, List.count_cons]
    split
    · rw [List.length_cons, ih]
    · rw [List.length_modifyHead, ih, Nat.add_zero]

/-- The pieces with the separators behind them are as long as the text with one more. -/
theorem sum_splitAt (separator : Char) (text : Text) :
    ((splitAt separator text).map (·.length + 1)).sum = text.length + 1 := by
  induction text with
  | nil => rfl
  | cons c rest ih =>
    rw [splitAt] at ih ⊢
    rw [pieces_cons]
    split
    · rw [List.map_cons, List.sum_cons, ih, List.length_nil, List.length_cons]
      omega
    · obtain ⟨first, others, hpieces⟩ := exists_pieces (· == separator) rest
      rw [hpieces, List.map_cons, List.sum_cons] at ih
      rw [hpieces, List.modifyHead_cons, List.map_cons, List.sum_cons, List.length_cons,
        List.length_cons]
      omega

/-- No piece has a character of the class. -/
theorem eq_false_of_mem_pieces {piece : Text} (h : piece ∈ pieces p text) {c : Char}
    (hc : c ∈ piece) : p c = false := by
  induction text generalizing piece with
  | nil =>
    obtain rfl := List.mem_singleton.mp h
    cases hc
  | cons d rest ih =>
    rw [pieces_cons] at h
    split at h
    case isTrue =>
      rcases List.mem_cons.mp h with rfl | h
      · cases hc
      · exact ih h hc
    case isFalse hd =>
      obtain ⟨first, others, hrest⟩ := exists_pieces p rest
      rw [hrest] at h ih
      rcases List.mem_cons.mp h with rfl | h
      · rcases List.mem_cons.mp hc with rfl | hc
        · simpa using hd
        · exact ih (List.mem_cons_self ..) hc
      · exact ih (List.mem_cons_of_mem _ h) hc

/-! ### Words -/

/-- A text that is read as one word: it is not empty and has no blanks. -/
structure IsWord (text : Text) : Prop where
  ne_nil : text ≠ []
  noBlank : ∀ c ∈ text, isBlank c = false

theorem isWord_iff : IsWord text ↔ (!text.isEmpty && text.all fun c => !isBlank c) = true := by
  simp only [Bool.and_eq_true, Bool.not_eq_true', List.isEmpty_eq_false_iff, List.all_eq_true]
  exact ⟨fun h => ⟨h.ne_nil, h.noBlank⟩, fun h => ⟨h.1, h.2⟩⟩

instance : Decidable (IsWord text) := decidable_of_iff _ isWord_iff.symm

theorem join_cons_cons (separator first second : Text) (rest : List Text) :
    join separator (first :: second :: rest) =
      first ++ separator ++ join separator (second :: rest) := rfl

/-- A character in front of the first part is in front of all. -/
theorem join_cons_head (separator : Text) (c : Char) (first : Text) (rest : List Text) :
    join separator ((c :: first) :: rest) = c :: join separator (first :: rest) := by
  cases rest <;> rfl

theorem prefix_join (separator first : Text) (rest : List Text) :
    first <+: join separator (first :: rest) := by
  cases rest with
  | nil => exact List.prefix_refl first
  | cons second rest =>
    rw [join_cons_cons, List.append_assoc]
    exact List.prefix_append first _

theorem mem_join {separator : Text} {parts : List Text} {c : Char} (h : c ∈ join separator parts) :
    c ∈ separator ∨ ∃ part ∈ parts, c ∈ part := by
  induction parts with
  | nil => cases h
  | cons first rest ih =>
    cases rest with
    | nil => exact .inr ⟨first, List.mem_cons_self .., h⟩
    | cons second rest =>
      rw [join, List.mem_append, List.mem_append] at h
      · rcases h with (h | h) | h
        · exact .inr ⟨first, List.mem_cons_self .., h⟩
        · exact .inl h
        · rcases ih h with h | ⟨part, hpart, h⟩
          · exact .inl h
          · exact .inr ⟨part, List.mem_cons_of_mem _ hpart, h⟩
      · simp

theorem mem_join_of_mem (separator : Text) {parts : List Text} {part : Text} (hpart : part ∈ parts)
    {c : Char} (hc : c ∈ part) : c ∈ join separator parts := by
  induction parts with
  | nil => cases hpart
  | cons first rest ih =>
    cases rest with
    | nil =>
      obtain rfl := List.mem_singleton.mp hpart
      exact hc
    | cons second rest =>
      rw [join_cons_cons, List.mem_append, List.mem_append]
      rcases List.mem_cons.mp hpart with rfl | hpart
      · exact .inl (.inl hc)
      · exact .inr (ih hpart)

/-- **Words with single spaces between them** are read as these words. -/
theorem words_join {parts : List Text} (h : ∀ part ∈ parts, IsWord part) :
    words (join [' '] parts) = parts := by
  induction parts with
  | nil => rfl
  | cons first rest ih =>
    have hfirst := h first (List.mem_cons_self ..)
    have hempty : first.isEmpty = false := by simpa using hfirst.ne_nil
    cases rest with
    | nil => simp [words, join, pieces_of_forall hfirst.noBlank, hempty]
    | cons second rest =>
      have hrest := ih fun part hpart => h part (List.mem_cons_of_mem _ hpart)
      -- the first word is the first piece, and the space ends it
      rw [words] at hrest ⊢
      rw [join, List.append_assoc]
      · rw [List.singleton_append, pieces_append_cons hfirst.noBlank (by decide), List.filter_cons,
          hempty, hrest]
        rfl
      · simp

/-! ### Lines and ends -/

theorem splitAt_of_not_mem {separator : Char} (h : separator ∉ text) :
    splitAt separator text = [text] :=
  pieces_of_forall fun c hc => by simpa using ne_of_mem_of_not_mem hc h

/-- A text without line feeds is one line. -/
theorem lines_of_not_mem (hne : text ≠ []) (h : '\n' ∉ text) : lines text = [text] := by
  have hempty : text.isEmpty = false := by simpa using hne
  simp [lines, splitAt_of_not_mem h, hempty]

theorem trimEnd_of_last {last : Char} {before : Text} (hlast : isBlank last = false) :
    trimEnd (before ++ [last]) = before ++ [last] := by
  simp [trimEnd, dropEndWhile, hlast]

/-- A text whose ends are no blanks is not trimmed. -/
theorem trim_of_ends {first last : Char} {inner : Text} (hfirst : isBlank first = false)
    (hlast : isBlank last = false) :
    trim (first :: (inner ++ [last])) = first :: (inner ++ [last]) := by
  have hstart : trimStart (first :: (inner ++ [last])) = first :: (inner ++ [last]) := by
    simp [trimStart, hfirst]
  rw [trim, hstart, ← List.cons_append, trimEnd_of_last hlast]

/-! ### Replacing -/

/-- A single character is replaced wherever it stands. -/
theorem replaceAll_singleton (c : Char) (new text : Text) :
    replaceAll [c] new text = text.flatMap fun d => if d = c then new else [d] := by
  unfold replaceAll
  induction text with
  | nil => rfl
  | cons d rest ih =>
    have hprefix : List.isPrefixOf [c] (d :: rest) = (d == c) := by
      simp [List.isPrefixOf, eq_comm]
    rw [replaceFrom, hprefix, List.flatMap_cons]
    split
    case isTrue h =>
      rw [if_pos (by simpa using h), ← ih]
      rfl
    case isFalse h =>
      rw [if_neg (by simpa using h), ← ih]
      rfl

end AsmInspect.Text

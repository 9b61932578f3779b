import AsmInspect.Proofs.Text.Words
import Mathlib.Data.List.TakeWhile

/-!
# Blanks around a text

Trimming takes blanks from the ends of a text and nothing else, so blanks around a text do not
matter to its trimmed form, and the words of a text are those of its trimmed form. A text with one
word is that word once it is trimmed.

## Main definitions

* `Text.Blank`: a text without anything but blanks

## Main results

* `Text.exists_trim`: a text is its trimmed form between blanks
* `Text.trim_append`: what trimming takes away
* `Text.words_trim`: the words of a text are those of its trimmed form
* `Text.words_eq_singleton_iff`: a text with one word
-/

namespace AsmInspect.Text

variable {text : Text}

/-- A text without anything but blanks. -/
def Blank (text : Text) : Prop := ∀ c ∈ text, isBlank c = true

instance : Decidable (Blank text) := decidable_of_iff (text.all isBlank = true) List.all_eq_true

theorem Blank.nil : Blank [] := fun _ h => absurd h List.not_mem_nil

theorem Blank.reverse (h : Blank text) : Blank text.reverse :=
  fun c hc => h c (List.mem_reverse.mp hc)

theorem blank_takeWhile : Blank (text.takeWhile isBlank) :=
  fun _ hc => List.mem_takeWhile_imp hc

/-! ### Trimming -/

theorem exists_trimStart (text : Text) : ∃ before, Blank before ∧ text = before ++ trimStart text :=
  ⟨text.takeWhile isBlank, blank_takeWhile, List.takeWhile_append_dropWhile.symm⟩

theorem exists_trimEnd (text : Text) : ∃ after, Blank after ∧ text = trimEnd text ++ after := by
  obtain ⟨before, hbefore, htext⟩ := exists_trimStart text.reverse
  refine ⟨before.reverse, hbefore.reverse, ?_⟩
  have hreverse := congrArg List.reverse htext
  rw [List.reverse_reverse, List.reverse_append] at hreverse
  exact hreverse

/-- A text is its trimmed form between blanks. -/
theorem exists_trim (text : Text) :
    ∃ before after, Blank before ∧ Blank after ∧ text = before ++ trim text ++ after := by
  obtain ⟨before, hbefore, hstart⟩ := exists_trimStart text
  obtain ⟨after, hafter, hend⟩ := exists_trimEnd (trimStart text)
  refine ⟨before, after, hbefore, hafter, ?_⟩
  rw [List.append_assoc, trim, ← hend]
  exact hstart

theorem trimStart_append {before : Text} (h : Blank before) (rest : Text) :
    trimStart (before ++ rest) = trimStart rest := by
  induction before with
  | nil => rfl
  | cons c before ih =>
    have hc : isBlank c = true := h c (List.mem_cons_self ..)
    rw [List.cons_append, trimStart, List.dropWhile_cons, if_pos hc]
    exact ih fun d hd => h d (List.mem_cons_of_mem _ hd)

theorem trimEnd_append {after : Text} (h : Blank after) (rest : Text) :
    trimEnd (rest ++ after) = trimEnd rest := by
  have hreverse := trimStart_append h.reverse rest.reverse
  rw [trimEnd, dropEndWhile, List.reverse_append]
  exact congrArg List.reverse hreverse

theorem trimStart_of_blank (h : Blank text) : trimStart text = [] := by
  have happend := trimStart_append h []
  rwa [List.append_nil] at happend

theorem trimEnd_of_blank (h : Blank text) : trimEnd text = [] := by
  have happend := trimEnd_append h []
  rwa [List.nil_append] at happend

/-- Nothing is left of a text just if it has nothing but blanks. -/
theorem trim_eq_nil_iff : trim text = [] ↔ Blank text := by
  constructor
  · intro h
    obtain ⟨before, after, hbefore, hafter, htext⟩ := exists_trim text
    rw [h, List.append_nil] at htext
    intro c hc
    rw [htext, List.mem_append] at hc
    exact hc.elim (hbefore c) (hafter c)
  · intro h
    rw [trim, trimStart_of_blank h]
    rfl

/-- What is no blank is left when a text is trimmed, and nothing is added. -/
theorem mem_trim_iff {c : Char} (hc : isBlank c = false) : c ∈ trim text ↔ c ∈ text := by
  obtain ⟨before, after, hbefore, hafter, htext⟩ := exists_trim text
  have hnot {gap : Text} (hgap : Blank gap) : c ∉ gap := fun h => by
    rw [hgap c h] at hc
    cases hc
  conv_rhs => rw [htext]
  simp [hnot hbefore, hnot hafter]

theorem mem_of_mem_trim {c : Char} (h : c ∈ trim text) : c ∈ text := by
  obtain ⟨before, after, -, -, htext⟩ := exists_trim text
  rw [htext]
  exact List.mem_append_left _ (List.mem_append_right _ h)

/-- A text whose first character is no blank has none taken from its start. -/
theorem trimStart_of_head {c : Char} (rest : Text) (h : isBlank c = false) :
    trimStart (c :: rest) = c :: rest := by
  simp [trimStart, h]

/-- What is left at the start is no blank. -/
theorem isBlank_head_trimStart {c : Char} (h : (trimStart text).head? = some c) :
    isBlank c = false := by
  have hfirst := List.head?_dropWhile_not isBlank text
  rw [trimStart] at h
  rwa [h] at hfirst

/-- What is left at the end is no blank. -/
theorem isBlank_getLast_trimEnd {c : Char} (h : (trimEnd text).getLast? = some c) :
    isBlank c = false := by
  rw [trimEnd, dropEndWhile, List.getLast?_reverse] at h
  exact isBlank_head_trimStart h

/-- Trimming the end leaves the first character, unless nothing is left. -/
theorem head?_of_head?_trimEnd {c : Char} (h : (trimEnd text).head? = some c) :
    text.head? = some c := by
  obtain ⟨after, -, htext⟩ := exists_trimEnd text
  rw [htext, List.head?_append]
  exact Option.or_eq_some_iff.mpr (.inl h)

/-- A text that starts and ends with no blank is not trimmed. -/
theorem trim_eq_self (hhead : ∀ c, text.head? = some c → isBlank c = false)
    (hlast : ∀ c, text.getLast? = some c → isBlank c = false) : trim text = text := by
  have hstart : trimStart text = text := by
    cases text with
    | nil => rfl
    | cons c rest => exact trimStart_of_head rest (hhead c rfl)
  rw [trim, hstart]
  rcases List.eq_nil_or_concat text with rfl | ⟨before, last, rfl⟩
  · rfl
  · rw [List.concat_eq_append] at hlast ⊢
    exact trimEnd_of_last (hlast last List.getLast?_concat)

/-- **What trimming takes away**: blanks in front and behind do not matter. -/
theorem trim_append {before after : Text} (hbefore : Blank before) (hafter : Blank after)
    (text : Text) : trim (before ++ text ++ after) = trim text := by
  rw [List.append_assoc, trim, trimStart_append hbefore]
  by_cases hblank : Blank text
  case pos =>
    have hall : Blank (text ++ after) := fun c hc =>
      (List.mem_append.mp hc).elim (hblank c) (hafter c)
    rw [trim, trimStart_of_blank hall, trimStart_of_blank hblank]
  case neg =>
    -- the first character that is no blank stands before the blanks behind
    have hstart : trimStart (text ++ after) = trimStart text ++ after := by
      obtain ⟨c, hc, hnot⟩ : ∃ c ∈ text, isBlank c ≠ true := by simpa [Blank] using hblank
      refine List.dropWhile_append.trans (if_neg ?_)
      rw [List.isEmpty_iff, List.dropWhile_eq_nil_iff]
      exact fun h => hnot (h c hc)
    rw [hstart, trimEnd_append hafter, trim]

/-- The last character that is no blank stays the last one but for what follows it. -/
theorem trimEnd_append_of_last {front : Text} (hne : front ≠ [])
    (hlast : ∀ c, front.getLast? = some c → isBlank c = false) (rest : Text) :
    trimEnd (front ++ rest) = front ++ trimEnd rest := by
  obtain ⟨after, hafter, hrest⟩ := exists_trimEnd rest
  conv_lhs => rw [hrest, ← List.append_assoc, trimEnd_append hafter]
  rcases List.eq_nil_or_concat (trimEnd rest) with hnil | ⟨before, last, hconcat⟩
  · obtain ⟨before, last, hfront⟩ := (List.eq_nil_or_concat front).resolve_left hne
    rw [List.concat_eq_append] at hfront
    rw [hnil, List.append_nil, hfront]
    exact trimEnd_of_last (hlast last (hfront ▸ List.getLast?_concat))
  · rw [List.concat_eq_append] at hconcat
    rw [hconcat, ← List.append_assoc]
    exact trimEnd_of_last (isBlank_getLast_trimEnd (hconcat ▸ List.getLast?_concat))

/-- A text that starts with no blank, and in which something is no blank up to a point, is trimmed
behind that point. -/
theorem trim_append_of_ends {front : Text} (hne : front ≠ [])
    (hhead : ∀ c, front.head? = some c → isBlank c = false)
    (hlast : ∀ c, front.getLast? = some c → isBlank c = false) (rest : Text) :
    trim (front ++ rest) = front ++ trimEnd rest := by
  obtain ⟨first, more, rfl⟩ := List.exists_cons_of_ne_nil hne
  have hstart : trimStart (first :: more ++ rest) = first :: more ++ rest :=
    trimStart_of_head _ (hhead first rfl)
  rw [trim, hstart, trimEnd_append_of_last hne hlast]

theorem trim_trimEnd (text : Text) : trim (trimEnd text) = trim text := by
  obtain ⟨after, hafter, htext⟩ := exists_trimEnd text
  have hbehind := trim_append .nil hafter (trimEnd text)
  rw [List.nil_append, ← htext] at hbehind
  exact hbehind.symm

theorem trimEnd_trimEnd (text : Text) : trimEnd (trimEnd text) = trimEnd text := by
  obtain ⟨after, hafter, htext⟩ := exists_trimEnd text
  conv_rhs => rw [htext, trimEnd_append hafter]

/-- Blanks at the end of what follows a character do not matter. -/
theorem trimEnd_cons_trimEnd (c : Char) (text : Text) :
    trimEnd (c :: trimEnd text) = trimEnd (c :: text) := by
  obtain ⟨after, hafter, htext⟩ := exists_trimEnd text
  conv_rhs => rw [htext, ← List.cons_append, trimEnd_append hafter]

theorem IsWord.trim_eq (h : IsWord text) : trim text = text :=
  trim_eq_self (fun c hc => h.noBlank c (List.mem_of_mem_head? hc))
    fun c hc => h.noBlank c (List.mem_of_mem_getLast? hc)

/-! ### Words -/

theorem isWord_of_mem_words {word : Text} (h : word ∈ words text) : IsWord word := by
  obtain ⟨hmem, hne⟩ := List.mem_filter.mp h
  exact ⟨by simpa using hne, fun c hc => eq_false_of_mem_pieces hmem hc⟩

/-- Blanks in front are no words. -/
theorem words_blank_append {before : Text} (h : Blank before) (rest : Text) :
    words (before ++ rest) = words rest := by
  induction before with
  | nil => rfl
  | cons c before ih =>
    have hc : isBlank c = true := h c (List.mem_cons_self ..)
    have hwords : words (c :: (before ++ rest)) = words (before ++ rest) := by
      rw [words, pieces_cons, if_pos hc]
      rfl
    rw [List.cons_append, hwords]
    exact ih fun d hd => h d (List.mem_cons_of_mem _ hd)

/-- A word that stands in front, and the blank that ends it. -/
theorem words_append_cons {word : Text} (h : IsWord word) {c : Char} (hc : isBlank c = true)
    (rest : Text) : words (word ++ c :: rest) = word :: words rest := by
  have hempty : word.isEmpty = false := by simpa using h.ne_nil
  rw [words, pieces_append_cons h.noBlank hc, List.filter_cons, hempty]
  rfl

theorem words_of_isWord (h : IsWord text) : words text = [text] := by
  have hparts : ∀ part ∈ [text], IsWord part := by simpa using h
  exact words_join hparts

/-- A text starts with blanks and a first word, or is blank. -/
theorem blank_or_exists_word (text : Text) :
    Blank text ∨ ∃ before word rest, Blank before ∧ IsWord word ∧
      (rest = [] ∨ ∃ c more, isBlank c = true ∧ rest = c :: more) ∧
      text = before ++ word ++ rest := by
  obtain ⟨before, hbefore, htext⟩ := exists_trimStart text
  cases hstart : trimStart text with
  | nil =>
    left
    rw [htext, hstart, List.append_nil]
    exact hbefore
  | cons c rest =>
    right
    have hhead : (trimStart text).head? = some c := by
      rw [hstart]
      rfl
    have hc : isBlank c = false := isBlank_head_trimStart hhead
    refine ⟨before, (c :: rest).takeWhile (!isBlank ·), (c :: rest).dropWhile (!isBlank ·),
      hbefore, ⟨by simp [hc], fun d hd => by simpa using List.mem_takeWhile_imp hd⟩, ?_, ?_⟩
    · cases hdrop : (c :: rest).dropWhile (!isBlank ·) with
      | nil => exact .inl rfl
      | cons d more =>
        have hd := List.head?_dropWhile_not (!isBlank ·) (c :: rest)
        rw [hdrop] at hd
        exact .inr ⟨d, more, by simpa using hd, rfl⟩
    · rw [List.append_assoc, List.takeWhile_append_dropWhile, ← hstart]
      exact htext

theorem words_of_blank (h : Blank text) : words text = [] := by
  have happend := words_blank_append h []
  rwa [List.append_nil] at happend

theorem words_eq_nil_iff : words text = [] ↔ Blank text := by
  refine ⟨fun h => ?_, words_of_blank⟩
  rcases blank_or_exists_word text with hblank | ⟨before, word, rest, hbefore, hword, hrest, rfl⟩
  · exact hblank
  · rw [List.append_assoc, words_blank_append hbefore] at h
    rcases hrest with rfl | ⟨c, more, hc, rfl⟩
    · rw [List.append_nil, words_of_isWord hword] at h
      cases h
    · rw [words_append_cons hword hc] at h
      cases h

/-- Blanks behind are no words. -/
theorem words_append_blank {after : Text} (h : Blank after) (text : Text) :
    words (text ++ after) = words text := by
  induction after generalizing text with
  | nil => rw [List.append_nil]
  | cons c after ih =>
    have hc : isBlank c = true := h c (List.mem_cons_self ..)
    have hone : words (text ++ [c]) = words text := by
      simp [words, pieces_append_separator text hc]
    rw [← List.singleton_append, ← List.append_assoc,
      ih (fun d hd => h d (List.mem_cons_of_mem _ hd)), hone]

/-- **The words of a text** are those of its trimmed form. -/
theorem words_trim (text : Text) : words (trim text) = words text := by
  obtain ⟨before, after, hbefore, hafter, htext⟩ := exists_trim text
  conv_rhs => rw [htext]
  rw [words_append_blank hafter, words_blank_append hbefore]

/-- **A text with one word** is that word once it is trimmed. -/
theorem words_eq_singleton_iff {word : Text} (h : IsWord word) :
    words text = [word] ↔ trim text = word := by
  constructor
  · intro hwords
    rcases blank_or_exists_word text with hblank | ⟨before, first, rest, hbefore, hfirst, hrest, rfl⟩
    · rw [words_of_blank hblank] at hwords
      cases hwords
    · rw [List.append_assoc, words_blank_append hbefore] at hwords
      have hblank : Blank rest ∧ first = word := by
        rcases hrest with rfl | ⟨c, more, hc, rfl⟩
        · rw [List.append_nil, words_of_isWord hfirst] at hwords
          exact ⟨.nil, (List.cons.inj hwords).1⟩
        · rw [words_append_cons hfirst hc] at hwords
          obtain ⟨hword, hmore⟩ := List.cons.inj hwords
          refine ⟨fun d hd => ?_, hword⟩
          rcases List.mem_cons.mp hd with rfl | hd
          · exact hc
          · exact words_eq_nil_iff.mp hmore d hd
      rw [trim_append hbefore hblank.1, hfirst.trim_eq, hblank.2]
  · rintro rfl
    rw [← words_trim, words_of_isWord h]

end AsmInspect.Text

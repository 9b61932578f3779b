import AsmInspect.Proofs.Text.Words
import Mathlib.Data.List.Infix

/-!
# Occurrences of a word

A word occurs in a text if it is a part of it without gaps. A text without the word is left alone
when the word is replaced, and in one with it the new word occurs instead.

What has been replaced is gone, but replacing may put the word together anew: the end of a new word
may go on in what follows it, and what precedes it may go on in its start. This does not happen if
the two words have nothing in common at their ends and neither is a part of the other.

## Main definitions

* `Text.Apart`: two words that have nothing in common where they could meet

## Main results

* `Text.replaceAll_of_not_occurs`: what has no occurrence is left as it is
* `Text.occurs_replaceAll`: the new word occurs where the old one did
* `Text.exists_join_replaceAll`: the parts around the occurrences are kept
* `Text.Apart.not_occurs_replaceAll`: what has been replaced does not occur any more
* `Text.occurs_of_exchanged`: what an occurrence can come from when the front of a text is exchanged
-/

namespace AsmInspect.Text

variable {word new text rest : Text}

/-! ### Replacing -/

theorem replaceFrom_eq (skip : Nat) (text : Text) :
    replaceFrom word new skip text = replaceFrom word new 0 (text.drop skip) := by
  induction text generalizing skip with
  | nil => cases skip <;> rfl
  | cons c rest ih =>
    cases skip with
    | zero => rfl
    | succ skip =>
      rw [replaceFrom, List.drop_succ_cons]
      exact ih skip

/-- The word at the front of a text is replaced, and the rest is gone on with. -/
theorem replaceAll_append (hword : word ≠ []) (rest : Text) :
    replaceAll word new (word ++ rest) = new ++ replaceAll word new rest := by
  unfold replaceAll
  cases word with
  | nil => exact absurd rfl hword
  | cons c tail =>
    have hprefix : List.isPrefixOf (c :: tail) (c :: (tail ++ rest)) = true :=
      List.isPrefixOf_iff_prefix.mpr (List.prefix_append (c :: tail) rest)
    rw [List.cons_append, replaceFrom, hprefix]
    simp only [List.isEmpty_cons, Bool.not_false, Bool.and_self, if_true, List.length_cons,
      Nat.add_sub_cancel]
    rw [replaceFrom_eq, List.drop_left]

/-- A character at which the word does not stand is kept. -/
theorem replaceAll_cons {c : Char} (h : ¬ word <+: c :: rest) :
    replaceAll word new (c :: rest) = c :: replaceAll word new rest := by
  unfold replaceAll
  rw [replaceFrom, if_neg]
  rw [Bool.and_eq_true, List.isPrefixOf_iff_prefix]
  rintro ⟨-, hprefix⟩
  exact h hprefix

/-- **What has no occurrence is left as it is.** -/
theorem replaceAll_of_not_occurs (h : ¬ word <:+: text) : replaceAll word new text = text := by
  induction text with
  | nil => rfl
  | cons c rest ih =>
    rw [replaceAll_cons fun hprefix => h hprefix.isInfix,
      ih fun hoccurs => h (hoccurs.trans (List.suffix_cons c rest).isInfix)]

/-- **The new word occurs where the old one did.** -/
theorem occurs_replaceAll (hword : word ≠ []) (h : word <:+: text) :
    new <:+: replaceAll word new text := by
  induction text with
  | nil => exact absurd (List.eq_nil_of_infix_nil h) hword
  | cons c rest ih =>
    by_cases hprefix : word <+: c :: rest
    case pos =>
      obtain ⟨tail, htail⟩ := hprefix
      rw [← htail, replaceAll_append hword]
      exact (List.prefix_append new _).isInfix
    case neg =>
      rw [replaceAll_cons hprefix]
      have hrest : word <:+: rest := (List.infix_cons_iff.mp h).resolve_left hprefix
      exact (ih hrest).trans (List.suffix_cons c _).isInfix

/-- **The parts around the occurrences are kept**, with the new word in place of the old one between
them, and the old one occurs in none of them. -/
theorem exists_join_replaceAll (hword : word ≠ []) (new text : Text) :
    ∃ parts, (∀ part ∈ parts, ¬ word <:+: part) ∧ parts ≠ [] ∧
      text = join word parts ∧ replaceAll word new text = join new parts := by
  have hempty : ¬ word <:+: [] := fun hoccurs => hword (List.eq_nil_of_infix_nil hoccurs)
  -- an occurrence at the front ends a part, and any other character belongs to the first part
  induction hlength : text.length using Nat.strong_induction_on generalizing text with
  | _ n ih =>
    by_cases hprefix : word <+: text
    case pos =>
      obtain ⟨rest, rfl⟩ := hprefix
      have hpos := List.length_pos_of_ne_nil hword
      obtain ⟨parts, hparts, hne, hrest, hnew⟩ :=
        ih rest.length (by rw [List.length_append] at hlength; omega) rest rfl
      obtain ⟨first, others, rfl⟩ := List.exists_cons_of_ne_nil hne
      refine ⟨[] :: first :: others, ?_, List.cons_ne_nil _ _, ?_, ?_⟩
      · intro part hpart
        rcases List.mem_cons.mp hpart with rfl | hpart
        · exact hempty
        · exact hparts part hpart
      · rw [join_cons_cons, ← hrest, List.nil_append]
      · rw [replaceAll_append hword, join_cons_cons, ← hnew, List.nil_append]
    case neg =>
      cases text with
      | nil => exact ⟨[[]], by simpa using hempty, List.cons_ne_nil _ _, rfl, rfl⟩
      | cons c rest =>
        obtain ⟨parts, hparts, hne, hrest, hnew⟩ :=
          ih rest.length (by rw [List.length_cons] at hlength; omega) rest rfl
        obtain ⟨first, others, rfl⟩ := List.exists_cons_of_ne_nil hne
        refine ⟨(c :: first) :: others, ?_, List.cons_ne_nil _ _, ?_, ?_⟩
        · intro part hpart hoccurs
          rcases List.mem_cons.mp hpart with rfl | hpart
          · rcases List.infix_cons_iff.mp hoccurs with hstarts | hlater
            · -- the first part begins the text, so the word would be at its front
              have hfirst := prefix_join word (c :: first) others
              rw [join_cons_head, ← hrest] at hfirst
              exact hprefix (hstarts.trans hfirst)
            · exact hparts first (List.mem_cons_self ..) hlater
          · exact hparts part (List.mem_cons_of_mem _ hpart) hoccurs
        · rw [join_cons_head, ← hrest]
        · rw [replaceAll_cons hprefix, join_cons_head, ← hnew]

/-! ### Two words that do not meet -/

/-- **Two words that have nothing in common where they could meet**: neither is a part of the other,
and none of them ends as the other one starts. -/
structure Apart (word other : Text) : Prop where
  notWithin : ¬ word <:+: other
  notAround : ¬ other <:+: word
  notBefore : ∀ part, part ≠ [] → part <:+ other → ¬ part <+: word
  notBehind : ∀ part, part ≠ [] → part <+: other → ¬ part <:+ word

theorem apart_iff {word other : Text} : Apart word other ↔
    ¬ word <:+: other ∧ ¬ other <:+: word ∧
      (∀ part ∈ other.tails, part ≠ [] → ¬ part <+: word) ∧
      ∀ part ∈ other.inits, part ≠ [] → ¬ part <:+ word := by
  constructor
  · intro h
    refine ⟨h.notWithin, h.notAround, fun part hpart hne => ?_, fun part hpart hne => ?_⟩
    · exact h.notBefore part hne ((List.mem_tails _ _).mp hpart)
    · exact h.notBehind part hne ((List.mem_inits _ _).mp hpart)
  · rintro ⟨hwithin, haround, hbefore, hbehind⟩
    refine ⟨hwithin, haround, fun part hne hpart => ?_, fun part hne hpart => ?_⟩
    · exact hbefore part ((List.mem_tails _ _).mpr hpart) hne
    · exact hbehind part ((List.mem_inits _ _).mpr hpart) hne

instance (word other : Text) : Decidable (Apart word other) := decidable_of_iff _ apart_iff.symm

namespace Apart

variable {other : Text} (h : Apart word other)

include h

theorem word_ne_nil : word ≠ [] := by
  rintro rfl
  exact h.notWithin (List.nil_infix)

/-- **Around the other word** there is no occurrence that is not on one side of it. -/
theorem occurs_around {front : Text} (hoccurs : word <:+: front ++ other ++ rest) :
    word <:+: front ∨ word <:+: rest := by
  rcases List.infix_append_iff.mp hoccurs with
    hleft | hright | ⟨start, finish, rfl, hstart, hfinish⟩
  · rcases List.infix_append_iff.mp hleft with
      hfront | hother | ⟨start, finish, rfl, hstart, hfinish⟩
    · exact .inl hfront
    · exact absurd hother h.notWithin
    · -- it ends in the other word
      by_cases hne : finish = []
      · rw [hne, List.append_nil]
        exact .inl hstart.isInfix
      · exact absurd (List.suffix_append start finish) (h.notBehind finish hne hfinish)
  · exact .inr hright
  · by_cases hne : start = []
    · rw [hne, List.nil_append]
      exact .inr hfinish.isInfix
    · obtain ⟨before, hbefore⟩ := hstart
      rcases List.append_eq_append_iff.mp hbefore with ⟨more, rfl, rfl⟩ | ⟨more, rfl, rfl⟩
      · -- it goes all over the other word
        exact absurd ⟨more, finish, rfl⟩ h.notAround
      · -- it starts in the other word
        exact absurd (List.prefix_append start finish)
          (h.notBefore start hne (List.suffix_append more start))

/-- Parts without the word have none when they are put together with the other word. -/
theorem not_occurs_join {parts : List Text} (hparts : ∀ part ∈ parts, ¬ word <:+: part) :
    ¬ word <:+: join other parts := by
  induction parts with
  | nil => exact fun hoccurs => h.word_ne_nil (List.eq_nil_of_infix_nil hoccurs)
  | cons first others ih =>
    have hothers := ih fun part hpart => hparts part (List.mem_cons_of_mem _ hpart)
    have hfirst := hparts first (List.mem_cons_self ..)
    cases others with
    | nil => exact hfirst
    | cons second others =>
      rw [join_cons_cons]
      intro hoccurs
      exact (h.occurs_around hoccurs).elim hfirst hothers

/-- **What has been replaced does not occur any more.** -/
theorem not_occurs_replaceAll (text : Text) : ¬ word <:+: replaceAll word other text := by
  obtain ⟨parts, hparts, -, -, hnew⟩ := exists_join_replaceAll h.word_ne_nil other text
  rw [hnew]
  exact h.not_occurs_join hparts

end Apart

/-! ### What stands before an occurrence -/

/-- A word that starts with a character that a front has not occurs behind the front. -/
theorem occurs_of_not_mem {c : Char} {word front tail : Text} (hc : c ∉ front)
    (h : c :: word <:+: front ++ tail) : c :: word <:+: tail := by
  induction front with
  | nil => exact h
  | cons d front ih =>
    rcases List.infix_cons_iff.mp h with hprefix | hrest
    · obtain ⟨rest, hrest⟩ := hprefix
      obtain ⟨rfl, -⟩ := List.cons.inj hrest
      exact absurd (List.mem_cons_self ..) hc
    · exact ih (fun hmem => hc (List.mem_cons_of_mem _ hmem)) hrest

/-- Two occurrences of a word whose first character does not come again in it do not overlap. -/
theorem occurs_behind {c : Char} {tail rest before after : Text} (hc : c ∉ tail)
    (hne : before ≠ []) (h : (c :: tail) ++ rest = before ++ (c :: tail) ++ after) :
    c :: tail <:+: rest := by
  obtain ⟨d, before, rfl⟩ := List.exists_cons_of_ne_nil hne
  obtain ⟨-, hrest⟩ := List.cons.inj h
  exact occurs_of_not_mem hc ⟨before, after, hrest.symm⟩

/-! ### Exchanging the front -/

/-- A name after a separator in a text with another one. If they are not at the same place, the
first comes before, or it comes after the name of the other. -/
theorem occurrence_cases {c : Char} {name front tail before after : Text} (hname : c ∉ name)
    (h : front ++ c :: (name ++ tail) = before ++ c :: (name ++ after)) :
    before <+: front ∨ c :: name <:+: tail := by
  rcases List.append_eq_append_iff.mp h with ⟨more, rfl, hmore⟩ | ⟨more, rfl, -⟩
  case inr => exact .inl (List.prefix_append before more)
  case inl =>
    -- the separator in front of the name is passed, and so is the name, which has none of its own
    cases more with
    | nil => exact .inl (by simp)
    | cons d more =>
      obtain ⟨rfl, hrest⟩ := List.cons.inj hmore
      rcases List.append_eq_append_iff.mp hrest with ⟨gap, rfl, rfl⟩ | ⟨gap, rfl, hgap⟩
      · exact .inr ⟨gap, after, by simp⟩
      · cases gap with
        | nil => exact .inr ⟨[], after, by simpa using hgap⟩
        | cons e gap =>
          obtain ⟨rfl, -⟩ := List.cons.inj hgap
          exact absurd (by simp) hname

/-- **What an occurrence can come from when the front of a text is exchanged**: a path whose front
is exchanged for one in which the front does not occur is found in the result only if its name is
found behind it. -/
theorem occurs_of_exchanged {c : Char} {front mask middle name tail : Text} (hname : c ∉ name)
    (hmask : ¬ front <:+: mask)
    (h : front ++ middle ++ c :: name <:+: mask ++ middle ++ c :: (name ++ tail)) :
    c :: name <:+: tail := by
  obtain ⟨before, after, heq⟩ := h
  have hsame : mask ++ middle ++ c :: (name ++ tail) =
      (before ++ front ++ middle) ++ c :: (name ++ after) := by
    rw [← heq]
    simp only [List.append_assoc, List.cons_append]
  refine (occurrence_cases hname hsame).resolve_left fun hprefix => hmask ?_
  -- both fronts are followed by the same, so the one is a part of the other
  have hlength := hprefix.length_le
  simp only [List.length_append] at hlength
  have hleft : before ++ front <+: mask ++ middle := (List.prefix_append _ middle).trans hprefix
  have hfront : before ++ front <+: mask := by
    apply List.prefix_of_prefix_length_le hleft (List.prefix_append mask middle)
    rw [List.length_append]
    omega
  exact (List.suffix_append before front).isInfix.trans hfront.isInfix

end AsmInspect.Text

import AsmInspect.Json.Token
import Mathlib.Data.List.Basic

/-!
# The literals of numbers

What the scanner takes for a number is described by a grammar: an optional sign, a whole part
without leading zeros, and perhaps a fraction and an exponent. Each part ends where the next one
begins, because no part but a run of digits goes on with a digit.

## Main definitions

* `Json.IsDigits`, `Json.IsWhole`, `Json.IsFraction`, `Json.IsExponent`: the parts of a number
* `Json.Literal`: the numbers that JSON can write

## Main results

* `Json.isNumber_iff`: exactly these are taken for numbers
* `Json.Literal.continues`: a scanner that is in the middle of a number can go on with all of it
-/

namespace AsmInspect.Json

variable {text rest digits : Text}

/-- At least one digit. -/
def IsDigits (text : Text) : Prop := text ≠ [] ∧ ∀ c ∈ text, c.isDigit = true

/-- The whole part of a number: no zero stands in front of other digits. -/
def IsWhole (text : Text) : Prop := text = ['0'] ∨ IsDigits text ∧ text.head? ≠ some '0'

/-- The fraction of a number, if there is one. -/
def IsFraction (text : Text) : Prop := text = [] ∨ ∃ digits, IsDigits digits ∧ text = '.' :: digits

/-- The exponent of a number, if there is one. -/
def IsExponent (text : Text) : Prop :=
  text = [] ∨ ∃ mark sign digits, (mark = 'e' ∨ mark = 'E') ∧
    (sign = [] ∨ sign = ['+'] ∨ sign = ['-']) ∧ IsDigits digits ∧ text = mark :: (sign ++ digits)

/-- **The numbers that JSON can write.** -/
inductive Literal : Text → Prop where
  | intro {sign whole fraction exponent : Text} : sign = [] ∨ sign = ['-'] → IsWhole whole →
      IsFraction fraction → IsExponent exponent →
      Literal (sign ++ (whole ++ (fraction ++ exponent)))

/-- A text does not go on with a digit. -/
def EndsDigits (text : Text) : Prop := ∀ c ∈ text.head?, c.isDigit = false

theorem endsDigits_nil : EndsDigits [] := fun _ h => absurd h (Option.not_mem_none _)

theorem endsDigits_cons {c : Char} (h : c.isDigit = false) : EndsDigits (c :: rest) := by
  intro d hd
  obtain rfl := Option.some.inj hd
  exact h

theorem IsExponent.endsDigits (h : IsExponent text) : EndsDigits text := by
  rcases h with rfl | ⟨mark, sign, digits, rfl | rfl, -, -, rfl⟩
  · exact endsDigits_nil
  · exact endsDigits_cons rfl
  · exact endsDigits_cons rfl

theorem IsFraction.endsDigits_append (h : IsFraction text) (hrest : EndsDigits rest) :
    EndsDigits (text ++ rest) := by
  rcases h with rfl | ⟨digits, -, rfl⟩
  · exact hrest
  · exact endsDigits_cons rfl

/-! ### Reading the parts -/

theorem IsDigits.exists_cons (h : IsDigits text) :
    ∃ c rest, text = c :: rest ∧ c.isDigit = true := by
  obtain ⟨c, rest, rfl⟩ := List.exists_cons_of_ne_nil h.1
  exact ⟨c, rest, rfl, h.2 c (List.mem_cons_self ..)⟩

theorem dropWhile_isDigit_append (h : ∀ c ∈ digits, c.isDigit = true) (hrest : EndsDigits rest) :
    (digits ++ rest).dropWhile Char.isDigit = rest := by
  rw [List.dropWhile_append_of_pos h]
  cases rest with
  | nil => rfl
  | cons c rest => rw [List.dropWhile_cons_of_neg (by simp [hrest c rfl])]

theorem afterDigits?_append (h : IsDigits digits) (hrest : EndsDigits rest) :
    afterDigits? (digits ++ rest) = some rest := by
  obtain ⟨c, others, rfl, hc⟩ := h.exists_cons
  have hhead : ((c :: others ++ rest).head?.any Char.isDigit) = true := hc
  rw [afterDigits?, if_pos hhead, dropWhile_isDigit_append h.2 hrest]

theorem exists_of_afterDigits? (h : afterDigits? text = some rest) :
    ∃ digits, IsDigits digits ∧ text = digits ++ rest := by
  unfold afterDigits? at h
  split at h
  case isFalse => cases h
  case isTrue hhead =>
    obtain rfl := Option.some.inj h
    refine ⟨text.takeWhile Char.isDigit, ⟨?_, fun c => List.all_eq_true.mp List.all_takeWhile c⟩,
      List.takeWhile_append_dropWhile.symm⟩
    cases text with
    | nil => cases hhead
    | cons c others =>
      have hc : c.isDigit = true := hhead
      rw [List.takeWhile_cons_of_pos hc]
      exact List.cons_ne_nil _ _

theorem afterWhole?_append (h : IsWhole text) (hrest : EndsDigits rest) :
    afterWhole? (text ++ rest) = some rest := by
  rcases h with rfl | ⟨hdigits, hhead⟩
  · rfl
  · obtain ⟨c, others, rfl, -⟩ := hdigits.exists_cons
    have hc : c ≠ '0' := fun h => hhead (congrArg some h)
    unfold afterWhole?
    split
    case h_1 heq => exact absurd (List.cons.inj heq).1 hc
    case h_2 => exact afterDigits?_append hdigits hrest

theorem exists_of_afterWhole? (h : afterWhole? text = some rest) :
    ∃ whole, IsWhole whole ∧ text = whole ++ rest := by
  unfold afterWhole? at h
  split at h
  case h_1 others =>
    obtain rfl := Option.some.inj h
    exact ⟨['0'], .inl rfl, rfl⟩
  case h_2 hzero =>
    obtain ⟨digits, hdigits, rfl⟩ := exists_of_afterDigits? h
    refine ⟨digits, .inr ⟨hdigits, fun hhead => ?_⟩, rfl⟩
    obtain ⟨others, rfl⟩ := List.head?_eq_some_iff.mp hhead
    exact hzero _ rfl

theorem afterFraction?_append (h : IsFraction text) (hrest : IsExponent rest) :
    afterFraction? (text ++ rest) = some rest := by
  rcases h with rfl | ⟨digits, hdigits, rfl⟩
  · rcases hrest with rfl | ⟨mark, sign, digits, rfl | rfl, -, -, rfl⟩ <;> rfl
  · exact afterDigits?_append hdigits hrest.endsDigits

theorem exists_of_afterFraction? (h : afterFraction? text = some rest) :
    ∃ fraction, IsFraction fraction ∧ text = fraction ++ rest := by
  unfold afterFraction? at h
  split at h
  case h_1 others =>
    obtain ⟨digits, hdigits, rfl⟩ := exists_of_afterDigits? h
    exact ⟨'.' :: digits, .inr ⟨digits, hdigits, rfl⟩, rfl⟩
  case h_2 =>
    obtain rfl := Option.some.inj h
    exact ⟨[], .inl rfl, rfl⟩

/-- An exponent is read to the end, and nothing else is. -/
theorem afterExponent?_eq_nil_iff : afterExponent? text = some [] ↔ IsExponent text := by
  constructor
  · intro h
    unfold afterExponent? at h
    split at h
    case h_2 => exact .inl rfl
    case h_1 mark others =>
      split at h
      case isFalse => cases h
      case isTrue hmark =>
        have hmark : mark = 'e' ∨ mark = 'E' := by simpa using hmark
        refine .inr ?_
        split at h
        case h_1 =>
          obtain ⟨digits, hdigits, rfl⟩ := exists_of_afterDigits? h
          exact ⟨mark, ['+'], digits, hmark, .inr (.inl rfl), hdigits, by simp⟩
        case h_2 =>
          obtain ⟨digits, hdigits, rfl⟩ := exists_of_afterDigits? h
          exact ⟨mark, ['-'], digits, hmark, .inr (.inr rfl), hdigits, by simp⟩
        case h_3 =>
          obtain ⟨digits, hdigits, rfl⟩ := exists_of_afterDigits? h
          exact ⟨mark, [], digits, hmark, .inl rfl, hdigits, by simp⟩
  · rintro (rfl | ⟨mark, sign, digits, hmark, hsign, hdigits, rfl⟩)
    · rfl
    · have hafter : afterDigits? digits = some [] := by
        have happend := afterDigits?_append hdigits endsDigits_nil
        rwa [List.append_nil] at happend
      have hmark : (mark == 'e' || mark == 'E') = true := by simpa using hmark
      unfold afterExponent?
      dsimp only
      rw [if_pos hmark]
      rcases hsign with rfl | rfl | rfl
      · obtain ⟨c, others, rfl, hc⟩ := hdigits.exists_cons
        rw [List.nil_append]
        split
        case h_1 heq => exact absurd ((List.cons.inj heq).1 ▸ hc) (by decide)
        case h_2 heq => exact absurd ((List.cons.inj heq).1 ▸ hc) (by decide)
        case h_3 => exact hafter
      · exact hafter
      · exact hafter

/-! ### Whole numbers -/

theorem IsWhole.head_isDigit (h : IsWhole text) : ∃ c rest, text = c :: rest ∧ c.isDigit = true := by
  rcases h with rfl | ⟨hdigits, -⟩
  · exact ⟨'0', [], rfl, rfl⟩
  · exact hdigits.exists_cons

/-- **Exactly the literals are taken for numbers.** -/
theorem isNumber_iff : isNumber text = true ↔ Literal text := by
  unfold isNumber
  rw [beq_iff_eq]
  constructor
  · intro h
    obtain ⟨_, hafterWhole, h⟩ := Option.bind_eq_some_iff.mp h
    obtain ⟨exponent, hafterFraction, hafterExponent⟩ := Option.bind_eq_some_iff.mp h
    obtain ⟨whole, hwhole, hunsigned⟩ := exists_of_afterWhole? hafterWhole
    obtain ⟨fraction, hfraction, rfl⟩ := exists_of_afterFraction? hafterFraction
    have hexponent := afterExponent?_eq_nil_iff.mp hafterExponent
    unfold afterOptional at hunsigned
    split at hunsigned
    case h_1 c others =>
      split at hunsigned
      case isTrue hminus =>
        obtain rfl : c = '-' := eq_of_beq hminus
        rw [hunsigned]
        exact @Literal.intro ['-'] _ _ _ (.inr rfl) hwhole hfraction hexponent
      case isFalse =>
        rw [hunsigned]
        exact @Literal.intro [] _ _ _ (.inl rfl) hwhole hfraction hexponent
    case h_2 =>
      rw [hunsigned]
      exact @Literal.intro [] _ _ _ (.inl rfl) hwhole hfraction hexponent
  · rintro ⟨hsign, hwhole, hfraction, hexponent⟩
    rename_i sign whole fraction exponent
    have hunsigned : afterOptional '-' (sign ++ (whole ++ (fraction ++ exponent))) =
        whole ++ (fraction ++ exponent) := by
      rcases hsign with rfl | rfl
      · obtain ⟨c, others, rfl, hc⟩ := hwhole.head_isDigit
        have hminus : ¬ (c == '-') = true := by
          rw [beq_iff_eq]
          rintro rfl
          exact absurd hc (by decide)
        rw [List.nil_append, List.cons_append, afterOptional, if_neg hminus]
      · rfl
    have hend := hfraction.endsDigits_append hexponent.endsDigits
    rw [hunsigned]
    exact Option.bind_eq_some_iff.mpr ⟨_, afterWhole?_append hwhole hend,
      Option.bind_eq_some_iff.mpr ⟨_, afterFraction?_append hfraction hexponent,
        afterExponent?_eq_nil_iff.mpr hexponent⟩⟩

theorem continuesNumber_of_isDigit {c : Char} (h : c.isDigit = true) :
    continuesNumber c = true := by
  simp [continuesNumber, h]

/-- **A scanner in the middle of a number can go on with all of it**, and it starts like one. -/
theorem Literal.continues (h : Literal text) :
    ∃ c rest, text = c :: rest ∧ (c.isDigit || c == '-') = true ∧
      ∀ d ∈ text, continuesNumber d = true := by
  obtain ⟨hsign, hwhole, hfraction, hexponent⟩ := h
  rename_i sign whole fraction exponent
  obtain ⟨c, others, hcons, hc⟩ := hwhole.head_isDigit
  have hall : ∀ d ∈ sign ++ (whole ++ (fraction ++ exponent)), continuesNumber d = true := by
    intro d hd
    simp only [List.mem_append] at hd
    rcases hd with hd | hd | hd | hd
    · rcases hsign with rfl | rfl
      · exact absurd hd List.not_mem_nil
      · obtain rfl := List.mem_singleton.mp hd
        rfl
    · rcases hwhole with rfl | ⟨hdigits, -⟩
      · obtain rfl := List.mem_singleton.mp hd
        rfl
      · exact continuesNumber_of_isDigit (hdigits.2 d hd)
    · rcases hfraction with rfl | ⟨digits, hdigits, rfl⟩
      · exact absurd hd List.not_mem_nil
      · rcases List.mem_cons.mp hd with rfl | hd
        · rfl
        · exact continuesNumber_of_isDigit (hdigits.2 d hd)
    · rcases hexponent with rfl | ⟨mark, sign, digits, hmark, hsign, hdigits, rfl⟩
      · exact absurd hd List.not_mem_nil
      · simp only [List.mem_cons, List.mem_append] at hd
        rcases hd with rfl | hd | hd
        · rcases hmark with rfl | rfl <;> rfl
        · rcases hsign with rfl | rfl | rfl
          · exact absurd hd List.not_mem_nil
          · obtain rfl := List.mem_singleton.mp hd
            rfl
          · obtain rfl := List.mem_singleton.mp hd
            rfl
        · exact continuesNumber_of_isDigit (hdigits.2 d hd)
  rcases hsign with rfl | rfl
  · subst hcons
    exact ⟨c, _, rfl, by rw [hc, Bool.true_or], hall⟩
  · exact ⟨'-', _, rfl, by decide, hall⟩

end AsmInspect.Json

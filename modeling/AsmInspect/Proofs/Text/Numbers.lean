import AsmInspect.Text.Basic
import Mathlib.Data.List.Basic

/-!
# Numbers in a text

A number that is written in decimal digits is read as itself if it is within the bound, with or
without a plus sign in front, and nothing else is read as a number.

## Main definitions

* `Text.IsDecimal`: a number in decimal digits

## Main results

* `Text.unsigned?_eq_some_iff`: what is read as a number
* `Text.unsigned?_toDigits`: a number is read back from its digits
* `Text.unsigned?_le`: what is read is within the bound
-/

namespace AsmInspect.Text

theorem not_blank_of_isDigit {c : Char} (h : c.isDigit = true) : isBlank c = false := by
  simp only [Char.isDigit, Bool.and_eq_true, decide_eq_true_eq, ge_iff_le,
    UInt32.le_iff_toNat_le] at h
  obtain ⟨hlow, hhigh⟩ : 48 ≤ c.toNat ∧ c.toNat ≤ 57 := h
  have hblank : ¬ (isBlank c = true) := by
    simp only [isBlank, Bool.or_eq_true, Bool.and_eq_true, decide_eq_true_eq, beq_iff_eq]
    omega
  simpa using hblank

/-- **A number in decimal digits**, of which there is at least one, with or without a plus sign in
front. -/
def IsDecimal (n : Nat) (text : Text) : Prop :=
  ∃ sign digits, text = sign ++ digits ∧ (sign = [] ∨ sign = ['+']) ∧ digits ≠ [] ∧
    (∀ c ∈ digits, c.isDigit = true) ∧ Nat.ofDigitChars 10 digits 0 = n

theorem all_digits_iff {digits : Text} :
    ¬ (digits.isEmpty || !digits.all Char.isDigit) = true ↔
      digits ≠ [] ∧ ∀ c ∈ digits, c.isDigit = true := by
  rw [Bool.or_eq_true, not_or, List.isEmpty_iff, Bool.not_eq_true', Bool.not_eq_false,
    List.all_eq_true]

/-- What decimals are made of. -/
theorem IsDecimal.of_mem {n : Nat} {text : Text} (h : IsDecimal n text) {c : Char}
    (hc : c ∈ text) : c.isDigit = true ∨ c = '+' := by
  obtain ⟨sign, digits, rfl, hsign, -, hdigits, -⟩ := h
  rcases List.mem_append.mp hc with hc | hc
  · rcases hsign with rfl | rfl
    · cases hc
    · exact .inr (List.mem_singleton.mp hc)
  · exact .inl (hdigits c hc)

/-- A sign in front of a text, if there is one. -/
theorem exists_sign (text : Text) : ∃ sign rest, text = sign ++ rest ∧
    (sign = [] ∧ rest.head? ≠ some '+' ∨ sign = ['+']) := by
  by_cases hsign : text.head? = some '+'
  case pos =>
    obtain ⟨rest, rfl⟩ := List.head?_eq_some_iff.mp hsign
    exact ⟨['+'], rest, rfl, .inr rfl⟩
  case neg => exact ⟨[], text, rfl, .inl ⟨rfl, hsign⟩⟩

/-- How a text is read behind its sign. -/
theorem unsigned?_sign_append {bound : Nat} {sign rest : Text}
    (h : sign = [] ∧ rest.head? ≠ some '+' ∨ sign = ['+']) :
    unsigned? bound (sign ++ rest) =
      if rest.isEmpty || !rest.all Char.isDigit then none
      else if Nat.ofDigitChars 10 rest 0 ≤ bound then some (Nat.ofDigitChars 10 rest 0)
      else none := by
  rcases h with ⟨rfl, hfirst⟩ | rfl
  · rw [List.nil_append]
    unfold unsigned?
    split
    case h_1 => exact absurd rfl hfirst
    case h_2 => rfl
  · rfl

/-- **What is read as a number**: its decimal digits, if it is within the bound. -/
theorem unsigned?_eq_some_iff {bound n : Nat} {text : Text} :
    unsigned? bound text = some n ↔ IsDecimal n text ∧ n ≤ bound := by
  constructor
  · intro h
    obtain ⟨sign, digits, rfl, hsign⟩ := exists_sign text
    rw [unsigned?_sign_append hsign] at h
    split at h
    case isTrue => cases h
    case isFalse hread =>
      split at h
      case isFalse => cases h
      case isTrue hle =>
        obtain rfl := Option.some.inj h
        obtain ⟨hne, hdigits⟩ := all_digits_iff.mp hread
        exact ⟨⟨sign, digits, rfl, hsign.imp_left And.left, hne, hdigits, rfl⟩, hle⟩
  · rintro ⟨⟨sign, digits, rfl, hsign, hne, hdigits, rfl⟩, hle⟩
    have hfirst : digits.head? ≠ some '+' := by
      intro hplus
      exact absurd (hdigits '+' (List.mem_of_mem_head? hplus)) (by decide)
    rw [unsigned?_sign_append (hsign.imp_left fun hnil => ⟨hnil, hfirst⟩),
      if_neg (all_digits_iff.mpr ⟨hne, hdigits⟩), if_pos hle]

/-- What is read as a number is within the bound. -/
theorem unsigned?_le {bound n : Nat} {text : Text} (h : unsigned? bound text = some n) :
    n ≤ bound :=
  (unsigned?_eq_some_iff.mp h).2

theorem unsigned?_nil (bound : Nat) : unsigned? bound [] = none := rfl

/-- What is read as a number of 32 bits is one. -/
theorem toNat_toUInt32_of_unsigned? {n : Nat} {text : Text}
    (h : unsigned? maxWord32 text = some n) : n.toUInt32.toNat = n := by
  rw [UInt32.toNat_ofNat']
  exact Nat.mod_eq_of_lt (Nat.lt_succ_of_le (unsigned?_le h))

theorem isDigit_of_mem_toDigits {n : Nat} {c : Char} (h : c ∈ Nat.toDigits 10 n) :
    c.isDigit = true :=
  Nat.isDigit_of_mem_toDigits (by decide) (by decide) h

/-- **A number is read back from its digits.** -/
theorem unsigned?_toDigits {bound n : Nat} (h : n ≤ bound) :
    unsigned? bound (Nat.toDigits 10 n) = some n := by
  have hdecimal : IsDecimal n (Nat.toDigits 10 n) :=
    ⟨[], Nat.toDigits 10 n, rfl, .inl rfl, Nat.toDigits_ne_nil,
      fun _ hc => isDigit_of_mem_toDigits hc, Nat.ofDigitChars_ten_toDigits⟩
  exact unsigned?_eq_some_iff.mpr ⟨hdecimal, h⟩

end AsmInspect.Text

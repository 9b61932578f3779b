import AsmInspect.Proofs.Text.Words
import AsmInspect.Text.Lowercase
import Mathlib.Data.List.Basic

/-!
# Lowercase of an ASCII text

An ASCII text is put into lowercase letter by letter: no run of the mapping but the first one has an
ASCII letter, none becomes two characters, and there is no sigma whose form would depend on what
stands around it.

## Main definitions

* `Text.Ascii`: a text of ASCII characters
* `Text.lowered`: a text with its ASCII letters in lowercase

## Main results

* `Text.lower_of_ascii`: the lowercase form of an ASCII text
* `Text.lowered_join`: parts in lowercase, put together
-/

namespace AsmInspect.Text

variable {c : Char} {text : Text}

/-- A text of ASCII characters. -/
def Ascii (text : Text) : Prop := ∀ c ∈ text, c.toNat < 128

theorem ascii_iff : text.all (·.toNat < 128) = true ↔ Ascii text := by
  simp only [List.all_eq_true, decide_eq_true_eq, Ascii]

instance : Decidable (Ascii text) := decidable_of_iff _ ascii_iff

/-- A text with its ASCII letters in lowercase. -/
def lowered (text : Text) : Text := text.map Char.toLower

theorem toNat_toLower_of_capital (h : 65 ≤ c.toNat ∧ c.toNat ≤ 90) :
    c.toLower.toNat = c.toNat + 32 := by
  have hcapital : c.val ≥ 'A'.val ∧ c.val ≤ 'Z'.val := by
    rw [ge_iff_le, UInt32.le_iff_toNat_le, UInt32.le_iff_toNat_le]
    exact h
  have hfits : c.toNat + 32 < 2 ^ 32 := by omega
  have hlower : c.toLower.val = c.val + 32 := congrArg Char.val (dif_pos hcapital)
  show c.toLower.val.toNat = c.val.toNat + 32
  rw [hlower, UInt32.toNat_add]
  exact Nat.mod_eq_of_lt hfits

theorem toLower_of_not_capital (h : ¬ (65 ≤ c.toNat ∧ c.toNat ≤ 90)) : c.toLower = c := by
  have hcapital : ¬ (c.val ≥ 'A'.val ∧ c.val ≤ 'Z'.val) := by
    rw [ge_iff_le, UInt32.le_iff_toNat_le, UInt32.le_iff_toNat_le]
    exact h
  exact dif_neg hcapital

/-- The capital letters are the first run, and all other runs are behind the ASCII characters. -/
theorem lowerRuns_eq : ∃ others, lowerRuns = (65, 90, 1, 32) :: others ∧
    ∀ run ∈ others, 128 ≤ run.1 :=
  ⟨_, rfl, by decide +kernel⟩

theorem lowerChar_of_ascii (h : c.toNat < 128) : lowerChar c = [c.toLower] := by
  obtain ⟨others, hruns, hothers⟩ := lowerRuns_eq
  -- the one character that becomes two is not among them
  have hone : ¬ (c.toNat == 0x130) = true := by
    rw [beq_iff_eq]
    omega
  rw [lowerChar]
  simp only [hone, hruns]
  by_cases hcapital : 65 ≤ c.toNat ∧ c.toNat ≤ 90
  case pos =>
    rw [List.find?_cons_of_pos (by simpa [Nat.mod_one] using hcapital)]
    show [Char.ofNat (c.toNat + 32)] = _
    rw [← toNat_toLower_of_capital hcapital, Char.ofNat_toNat]
  case neg =>
    rw [List.find?_cons_of_neg (by simpa [Nat.mod_one] using hcapital),
      List.find?_eq_none.mpr ?_, toLower_of_not_capital hcapital]
    · rfl
    · -- a run behind the first one begins behind the character
      intro run hrun
      have hstart := hothers run hrun
      simp only [Bool.and_eq_true, decide_eq_true_eq, not_and]
      intro hfirst
      omega

/-- **The lowercase form of an ASCII text**, letter by letter. -/
theorem lower_of_ascii (h : Ascii text) : lower text = lowered text := by
  suffices hafter : ∀ before, lowerAfter before text = lowered text from hafter []
  induction text with
  | nil => exact fun _ => rfl
  | cons c rest ih =>
    intro before
    have hc : c.toNat < 128 := h c (List.mem_cons_self ..)
    have hsigma : c ≠ 'Σ' := by
      rintro rfl
      exact absurd hc (by decide)
    rw [lowerAfter, if_neg (by simpa using hsigma), lowerChar_of_ascii hc,
      ih (fun d hd => h d (List.mem_cons_of_mem c hd))]
    rfl

/-! ### Parts in lowercase -/

/-- What is no letter comes from itself alone. -/
theorem toLower_eq_iff {d : Char} (hd : d.toNat < 65) : c.toLower = d ↔ c = d := by
  by_cases hcapital : 65 ≤ c.toNat ∧ c.toNat ≤ 90
  case pos =>
    have hlower := toNat_toLower_of_capital hcapital
    constructor
    · rintro rfl
      omega
    · rintro rfl
      omega
  case neg => rw [toLower_of_not_capital hcapital]

theorem mem_lowered_iff {d : Char} (hd : d.toNat < 65) : d ∈ lowered text ↔ d ∈ text := by
  simp [lowered, toLower_eq_iff hd]

theorem lowered_eq_nil_iff : lowered text = [] ↔ text = [] := List.map_eq_nil_iff

/-- **Parts in lowercase, put together**, are the parts put together, in lowercase. -/
theorem lowered_join (separator : Text) (parts : List Text) :
    lowered (join separator parts) = join (lowered separator) (parts.map lowered) := by
  induction parts with
  | nil => rfl
  | cons first rest ih =>
    cases rest with
    | nil => rfl
    | cons second rest =>
      rw [List.map_cons, List.map_cons, join_cons_cons, join_cons_cons, ← List.map_cons, ← ih]
      simp [lowered]

theorem ascii_join {separator : Text} {parts : List Text} (hseparator : Ascii separator)
    (h : ∀ part ∈ parts, Ascii part) : Ascii (join separator parts) := by
  intro c hc
  rcases mem_join hc with hmem | ⟨part, hpart, hmem⟩
  · exact hseparator c hmem
  · exact h part hpart c hmem

end AsmInspect.Text

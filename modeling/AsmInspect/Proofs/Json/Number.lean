import AsmInspect.Json.Printer
import AsmInspect.Json.Tree
import AsmInspect.Proofs.Json.Literal
import AsmInspect.Proofs.Text.Numbers
import Mathlib.Data.List.DropRight

/-!
# Numbers that are printed

Every number is printed as a literal, so that what is printed is always read as some number. The
whole numbers are read as themselves. A floating-point number is printed with digits that determine
it, but it is read by scaling its digits with more than one rounding, so that for some of them the
neighbour is read.

## Main definitions

* `Json.Significant`: digits without a zero in front
* `Binary64.ReadsBack`: a number that is read from its own digits

## Main results

* `Json.Number.literal_print`: every number is printed as a literal
* `Json.Number.ofLiteral?_natural`, `Json.Number.ofLiteral?_negative`: whole numbers are read back
* `Binary64.not_readsBack_neighboured`: not all floating-point numbers are
-/

namespace AsmInspect

open Json (IsDigits IsWhole IsFraction IsExponent Literal)

/-! ### Digits -/

namespace Json

variable {digits : Text} {n : Nat}

/-- Digits without a zero in front. -/
def Significant (digits : Text) : Prop := IsDigits digits ∧ digits.head? ≠ some '0'

theorem Significant.isWhole (h : Significant digits) : IsWhole digits := .inr h

theorem isDigits_toDigits (n : Nat) : IsDigits (Nat.toDigits 10 n) :=
  ⟨Nat.toDigits_ne_nil, fun _ hc => Text.isDigit_of_mem_toDigits hc⟩

/-- No zero stands in front of the digits of a positive number. -/
theorem significant_toDigits (h : n ≠ 0) : Significant (Nat.toDigits 10 n) := by
  refine ⟨isDigits_toDigits n, ?_⟩
  induction n using Nat.strongRecOn with
  | ind n ih =>
    rcases Nat.lt_or_ge n 10 with hsmall | hlarge
    · rw [Nat.toDigits_of_lt_base hsmall]
      intro hzero
      exact h (Nat.digitChar_eq_zero.mp (Option.some.inj hzero))
    · have hfirst := ih (n / 10) (by omega) (by omega)
      rw [Nat.toDigits_of_base_le (by decide) hlarge,
        List.head?_append_of_ne_nil _ Nat.toDigits_ne_nil]
      exact hfirst

theorem isWhole_toDigits (n : Nat) : IsWhole (Nat.toDigits 10 n) := by
  rcases Nat.eq_zero_or_pos n with rfl | hpos
  · exact .inl (Nat.toDigits_zero 10)
  · exact (significant_toDigits (Nat.ne_of_gt hpos)).isWhole

/-- Without the zeros at their end digits are still digits. -/
theorem Significant.rdropWhile (h : Significant digits) :
    Significant (digits.rdropWhile (· == '0')) := by
  obtain ⟨⟨hne, hall⟩, hhead⟩ := h
  obtain ⟨first, rest, rfl⟩ := List.exists_cons_of_ne_nil hne
  have hfirst : first ≠ '0' := fun h => hhead (congrArg some h)
  have hleft : (first :: rest).rdropWhile (· == '0') ≠ [] := by
    intro hnil
    exact hfirst (eq_of_beq (List.rdropWhile_eq_nil_iff.mp hnil first List.mem_cons_self))
  have hpre : (first :: rest).rdropWhile (· == '0') <+: first :: rest :=
    List.rdropWhile_prefix _ _
  refine ⟨⟨hleft, fun c hc => hall c (hpre.subset hc)⟩, ?_⟩
  obtain ⟨other, others, hcons⟩ := List.exists_cons_of_ne_nil hleft
  rw [hcons] at hpre ⊢
  rw [(List.cons_prefix_cons.mp hpre).1]
  exact hhead

end Json

/-! ### The digits of a floating-point number -/

namespace Binary64

variable {magnitude : Fin magnitudes} {point : Int} {count n : Nat}

theorem nearest?_zero (den : Nat) : nearest? 0 den = some ⟨0, by decide⟩ := rfl

/-- Nothing but zero is read from zero. -/
theorem readsBack?_ne_zero (h : magnitude.val ≠ 0) (hn : readsBack? magnitude point count = some n) :
    n ≠ 0 := by
  rintro rfl
  unfold readsBack? at hn
  extract_lets unit value at hn
  have hzero : value 0 = some ⟨0, by decide⟩ := by
    dsimp only [value]
    split
    · rw [Nat.zero_mul, nearest?_zero]
    · exact nearest?_zero _
  generalize ratio magnitude.val = ratio at hn
  dsimp only at hn
  generalize (if 0 ≤ unit then _ else _ : Nat × Nat) = scaled at hn
  have hfound := List.find?_some hn
  have hvalue : value 0 = some magnitude := eq_of_beq hfound
  rw [hzero] at hvalue
  exact h (congrArg Fin.val (Option.some.inj hvalue)).symm

/-- **The digits of a magnitude** have no zero in front, or are a single zero in front of the
point. -/
theorem significant_shortest (h : magnitude.val ≠ 0) :
    Json.Significant (shortest magnitude).1 ∨ shortest magnitude = (['0'], 1) := by
  unfold shortest
  obtain ⟨num, den⟩ := ratio magnitude.val
  dsimp only
  split
  case h_1 count n hfound =>
    obtain ⟨k, -, hk⟩ := List.exists_of_findSome?_eq_some hfound
    obtain ⟨m, hm, hpair⟩ := Option.map_eq_some_iff.mp hk
    obtain ⟨-, rfl⟩ := Prod.mk.inj hpair
    exact .inl (Json.significant_toDigits (readsBack?_ne_zero h hm)).rdropWhile
  case h_2 => exact .inr rfl

end Binary64

/-! ### Literals -/

namespace Json.Number

variable {digits : Text} {point : Int}

theorem isExponent_toString (i : Int) : IsExponent ('e' :: (toString i).toList) := by
  cases i with
  | ofNat n =>
    refine .inr ⟨'e', [], Nat.toDigits 10 n, .inl rfl, .inl rfl, isDigits_toDigits n, ?_⟩
    rw [List.nil_append, ← Nat.toList_repr]
    rfl
  | negSucc n =>
    refine .inr ⟨'e', ['-'], Nat.toDigits 10 n.succ, .inl rfl, .inr (.inr rfl),
      isDigits_toDigits n.succ, ?_⟩
    have hminus : (toString (Int.negSucc n)).toList = '-' :: n.succ.repr.toList := by
      simp [toString, Int.repr]
    rw [hminus, Nat.toList_repr]
    rfl

theorem isDigits_zero : IsDigits ['0'] := ⟨List.cons_ne_nil _ _, List.forall_mem_singleton.mpr rfl⟩

/-- Zeros may stand in front of digits and behind them. -/
theorem isDigits_zeros (front back : Nat) (h : IsDigits digits) :
    IsDigits (List.replicate front '0' ++ digits ++ List.replicate back '0') := by
  have hzeros : ∀ count, ∀ c ∈ List.replicate count '0', c.isDigit = true := by
    intro count c hc
    rw [List.eq_of_mem_replicate hc]
    rfl
  refine ⟨by simp [h.1], fun c hc => ?_⟩
  simp only [List.mem_append] at hc
  rcases hc with (hc | hc) | hc
  · exact hzeros front c hc
  · exact h.2 c hc
  · exact hzeros back c hc

/-- Digits without a zero in front are printed as a literal, wherever the point stands. -/
theorem literal_printDigits {sign : Text} (hsign : sign = [] ∨ sign = ['-'])
    (h : Significant digits) (point : Int) : Literal (sign ++ printDigits digits point) := by
  obtain ⟨first, rest, rfl⟩ := List.exists_cons_of_ne_nil h.1.1
  have hexponent := isExponent_toString (point - 1)
  unfold printDigits
  extract_lets count exponent
  split
  case isTrue =>
    -- zeros fill the places up to the point
    have hwhole : Significant (first :: rest ++ List.replicate (point - count).toNat '0') :=
      ⟨isDigits_zeros 0 (point - count).toNat h.1, h.2⟩
    exact .intro hsign hwhole.isWhole (.inr ⟨['0'], isDigits_zero, rfl⟩) (.inl rfl)
  case isFalse hcount =>
    split
    case isTrue hpoint =>
      -- the point stands among the digits
      obtain ⟨places, hplaces⟩ : ∃ places, point.toNat = places + 1 := by
        simp only [Bool.and_eq_true, decide_eq_true_eq] at hpoint
        exact ⟨point.toNat - 1, by omega⟩
      have hbehind : (first :: rest).drop point.toNat ≠ [] := by
        simp only [Bool.and_eq_true, decide_eq_true_eq] at hpoint hcount
        rw [Ne, List.drop_eq_nil_iff]
        omega
      have hwhole : Significant ((first :: rest).take point.toNat) := by
        rw [hplaces, List.take_succ_cons]
        refine ⟨⟨List.cons_ne_nil _ _, fun c hc => h.1.2 c ?_⟩, h.2⟩
        exact List.mem_of_mem_take (by rwa [← List.take_succ_cons] at hc)
      have hfraction : IsDigits ((first :: rest).drop point.toNat) :=
        ⟨hbehind, fun c hc => h.1.2 c (List.mem_of_mem_drop hc)⟩
      have hliteral := Literal.intro hsign hwhole.isWhole (.inr ⟨_, hfraction, rfl⟩) (.inl rfl)
      simpa using hliteral
    case isFalse =>
      split
      case isTrue =>
        -- the point stands in front of the digits
        have hfraction := isDigits_zeros (-point).toNat 0 h.1
        have hliteral := Literal.intro hsign (.inl rfl) (.inr ⟨_, hfraction, rfl⟩) (.inl rfl)
        simpa using hliteral
      case isFalse =>
        have hfirst : Significant [first] :=
          ⟨⟨List.cons_ne_nil _ _, fun c hc => h.1.2 c (by simp_all)⟩, h.2⟩
        cases rest with
        | nil => exact .intro hsign hfirst.isWhole (.inl rfl) hexponent
        | cons second others =>
          have hfraction : IsDigits (second :: others) :=
            ⟨List.cons_ne_nil _ _, fun c hc => h.1.2 c (List.mem_cons_of_mem _ hc)⟩
          exact .intro hsign hfirst.isWhole (.inr ⟨_, hfraction, rfl⟩) hexponent

theorem print_natural (n : UInt64) : print (.natural n) = Nat.toDigits 10 n.toNat :=
  Nat.toList_repr

theorem print_negative (n : Fin 9223372036854775808) :
    print (.negative n) = '-' :: Nat.toDigits 10 (n.val + 1) :=
  congrArg _ Nat.toList_repr

/-- **Every number is printed as a literal.** -/
theorem literal_print (n : Number) : Literal n.print := by
  cases n with
  | natural n =>
    have hliteral := @Literal.intro [] _ _ _ (.inl rfl) (isWhole_toDigits n.toNat) (.inl rfl) (.inl rfl)
    rw [print_natural]
    simpa using hliteral
  | negative n =>
    have hliteral := @Literal.intro ['-'] _ _ _ (.inr rfl) (isWhole_toDigits (n.val + 1)) (.inl rfl)
      (.inl rfl)
    rw [print_negative]
    simpa using hliteral
  | real x =>
    obtain ⟨sign, hsign, hprint⟩ : ∃ sign : Text, (sign = [] ∨ sign = ['-']) ∧
        print (.real x) = sign ++ if x.magnitude.val == 0 then ['0', '.', '0']
          else printDigits (Binary64.shortest x.magnitude).1 (Binary64.shortest x.magnitude).2 := by
      refine ⟨_, ?_, rfl⟩
      cases x.negative <;> simp
    have hzero : Literal (sign ++ ['0', '.', '0']) :=
      .intro hsign (.inl rfl) (.inr ⟨['0'], isDigits_zero, rfl⟩) (.inl rfl)
    rw [hprint]
    split
    case isTrue => exact hzero
    case isFalse hmagnitude =>
      rcases Binary64.significant_shortest (by simpa using hmagnitude) with h | h
      · exact literal_printDigits hsign h _
      · rw [h]
        exact hzero

/-! ### Whole numbers are read back -/

theorem le_ofDigitChars (digits : Text) (w : Nat) : w ≤ Nat.ofDigitChars 10 digits w := by
  induction digits generalizing w with
  | nil => exact Nat.le_refl w
  | cons c rest ih =>
    rw [Nat.ofDigitChars_cons]
    exact Nat.le_trans (by omega) (ih _)

/-- Digits are scanned as the number that they write, if it fits. -/
theorem foldl_wholeDigit (w : Nat) (h : Nat.ofDigitChars 10 digits w ≤ maxWord64) :
    digits.foldl Scan.wholeDigit { whole := w } = { whole := Nat.ofDigitChars 10 digits w } := by
  induction digits generalizing w with
  | nil => rfl
  | cons c rest ih =>
    rw [Nat.ofDigitChars_cons] at h ⊢
    have hfits := Nat.le_trans (le_ofDigitChars rest _) h
    have hdigit : Scan.wholeDigit { whole := w } c =
        { whole := 10 * w + (c.toNat - '0'.toNat) } := by
      unfold Scan.wholeDigit
      dsimp only
      rw [if_neg (by simpa using hfits)]
    rw [List.foldl_cons, hdigit]
    exact ih _ h

/-- What is scanned of the digits of a number that fits in 64 bits. -/
theorem scan_toDigits {n : Nat} (h : n ≤ maxWord64) :
    ((Nat.toDigits 10 n).takeWhile Char.isDigit).foldl Scan.wholeDigit {} = { whole := n } ∧
      (Nat.toDigits 10 n).dropWhile Char.isDigit = [] := by
  have hall := (isDigits_toDigits n).2
  have hvalue : Nat.ofDigitChars 10 (Nat.toDigits 10 n) 0 = n := Nat.ofDigitChars_ten_toDigits
  refine ⟨?_, List.dropWhile_eq_nil_iff.mpr hall⟩
  rw [List.takeWhile_eq_self_iff.mpr hall, foldl_wholeDigit 0 (hvalue.symm ▸ h), hvalue]

/-- **A natural number is read back.** -/
theorem ofLiteral?_natural (n : UInt64) :
    ofLiteral? (print (.natural n)) = some (.natural n) := by
  obtain ⟨hscan, hrest⟩ := scan_toDigits (n := n.toNat) (Nat.le_of_lt_succ n.toNat_lt)
  obtain ⟨first, rest, hcons, hfirst⟩ := (isDigits_toDigits n.toNat).exists_cons
  have hminus : first ≠ '-' := by
    rintro rfl
    cases hfirst
  have htext : afterOptional '-' (Nat.toDigits 10 n.toNat) = Nat.toDigits 10 n.toNat := by
    rw [hcons, afterOptional, if_neg (by simpa using hminus)]
  have hhead : ((Nat.toDigits 10 n.toNat).head? == some '-') = false := by
    rw [hcons]
    simpa using hminus
  rw [print_natural]
  simp [ofLiteral?, htext, hscan, hrest, hhead]

/-- **A negative number is read back.** -/
theorem ofLiteral?_negative (n : Fin 9223372036854775808) :
    ofLiteral? (print (.negative n)) = some (.negative n) := by
  have hfits : n.val + 1 ≤ 9223372036854775808 := n.isLt
  obtain ⟨hscan, hrest⟩ := scan_toDigits (n := n.val + 1) (Nat.le_trans hfits (by decide))
  have htext : afterOptional '-' ('-' :: Nat.toDigits 10 (n.val + 1)) =
      Nat.toDigits 10 (n.val + 1) := rfl
  rw [print_negative]
  simp [ofLiteral?, htext, hscan, hrest, hfits]

end Json.Number

/-! ### Floating-point numbers -/

/-- **A floating-point number that is read from its own digits.** -/
def Binary64.ReadsBack (x : Binary64) : Prop :=
  Json.Number.ofLiteral? (Json.Number.print (.real x)) = some (.real x)

instance (x : Binary64) : Decidable x.ReadsBack := inferInstanceAs (Decidable (_ = _))

/-- The number that is printed as `1.0000000055512395`. -/
def Binary64.neighboured : Binary64 := ⟨false, ⟨4607182418825017968, by decide⟩⟩

/-- **Not every number is read from its own digits**: of this one the next number is read. -/
theorem Binary64.not_readsBack_neighboured : ¬ neighboured.ReadsBack := by
  decide +kernel

end AsmInspect

import AsmInspect.Text.Utf8
import Mathlib.Data.List.Basic

/-!
# Valid UTF-8 and where it is cut

The bytes of a text are read back as the text. When only the first bytes are there, the characters
that are whole are read as they are, and a character that the cut falls into is one invalid part,
however many of its bytes are left.

## Main definitions

* `Utf8.Open.Completes`: the bytes that complete a character
* `Utf8.fitting`: the whole characters of a text that fit in so many bytes
* `Utf8.CutsCharacter`: a number of bytes that ends within a character

## Main results

* `Utf8.opens_completes`: every character beyond ASCII is opened and completed
* `Utf8.isPrefix_fitting`: what fits is the longest beginning that does
* `Utf8.decodeLossy_take_encode`: what is read of the first bytes of a text
-/

namespace AsmInspect.Utf8

/-! ### Completing a character -/

/-- Some bytes complete an open character. -/
inductive Open.Completes : Open → List UInt8 → Char → Prop where
  | last {o : Open} {b : UInt8} {c : Char} : o.low ≤ b → b ≤ o.high → o.more = 0 →
      Char.ofNat (extend o.value b) = c → Completes o [b] c
  | next {o : Open} {b : UInt8} {more : Nat} {rest : List UInt8} {c : Char} :
      o.low ≤ b → b ≤ o.high → o.more = more + 1 →
      Completes { value := extend o.value b, low := 0x80, high := 0xBF, more } rest c →
      Completes o (b :: rest) c

/-- Bytes that complete a character are read as the character. -/
theorem Open.Completes.scanFrom_append {o : Open} {bytes : List UInt8} {c : Char}
    (h : o.Completes bytes c) (rest : List UInt8) :
    scanFrom (some o) (bytes ++ rest) = some c :: scanFrom none rest := by
  induction h with
  | last hlow hhigh hmore hvalue =>
    have hrange := (Bool.and_eq_true _ _).mpr ⟨decide_eq_true hlow, decide_eq_true hhigh⟩
    rw [List.singleton_append, scanFrom, if_pos hrange, hmore]
    dsimp only
    rw [hvalue]
  | next hlow hhigh hmore _ ih =>
    have hrange := (Bool.and_eq_true _ _).mpr ⟨decide_eq_true hlow, decide_eq_true hhigh⟩
    rw [List.cons_append, scanFrom, if_pos hrange, hmore]
    exact ih

/-- If some of them are missing, there is one invalid part. -/
theorem Open.Completes.scanFrom_take {o : Open} {bytes : List UInt8} {c : Char}
    (h : o.Completes bytes c) {n : Nat} (hn : n < bytes.length) :
    scanFrom (some o) (bytes.take n) = [none] := by
  induction h generalizing n with
  | last =>
    obtain rfl : n = 0 := Nat.lt_one_iff.mp hn
    rfl
  | next hlow hhigh hmore _ ih =>
    have hrange := (Bool.and_eq_true _ _).mpr ⟨decide_eq_true hlow, decide_eq_true hhigh⟩
    cases n with
    | zero => rfl
    | succ n =>
      rw [List.take_succ_cons, scanFrom, if_pos hrange, hmore]
      exact ih (Nat.lt_of_succ_lt_succ hn)

/-! ### The bytes of a character -/

/-- The character that a byte of this number opens. The second byte of the first and the last
characters of a length is narrowed, so that no character has two spellings and surrogates none. -/
def opens (n : Nat) : Open :=
  if n < 0xE0 then { value := n - 0xC0, low := 0x80, high := 0xBF, more := 0 }
  else if n < 0xF0 then
    { value := n - 0xE0, low := if n = 0xE0 then 0xA0 else 0x80
      high := if n = 0xED then 0x9F else 0xBF, more := 1 }
  else
    { value := n - 0xF0, low := if n = 0xF0 then 0x90 else 0x80
      high := if n = 0xF4 then 0x8F else 0xBF, more := 2 }

/-- The bytes that open a character of more than one byte. -/
theorem lead?_ofNat {n : Nat} (hlow : 0xC2 ≤ n) (hhigh : n < 0xF5) : lead? (UInt8.ofNat n) =
    some ((opens n).value, (opens n).low, (opens n).high, (opens n).more) := by
  have hall : ∀ k : Fin 51, lead? (UInt8.ofNat (k.val + 0xC2)) =
      some ((opens (k.val + 0xC2)).value, (opens (k.val + 0xC2)).low, (opens (k.val + 0xC2)).high,
        (opens (k.val + 0xC2)).more) := by decide
  have hn := hall ⟨n - 0xC2, by omega⟩
  rwa [Nat.sub_add_cancel hlow] at hn

/-- A byte that continues a character, with the six bits that it adds. -/
theorem toNat_continuation {k : Nat} (hk : k < 64) : (UInt8.ofNat (k + 128)).toNat = k + 128 := by
  rw [UInt8.toNat_ofNat']
  exact Nat.mod_eq_of_lt (by omega)

theorem extend_continuation {k : Nat} (hk : k < 64) (value : Nat) :
    extend value (UInt8.ofNat (k + 128)) = 64 * value + k := by
  have hbyte := toNat_continuation hk
  unfold extend
  omega

/-- All bytes that continue a character are in the range that is not narrowed. -/
theorem le_continuation {k : Nat} (hk : k < 64) :
    (0x80 : UInt8).toNat ≤ k + 128 ∧ k + 128 ≤ (0xBF : UInt8).toNat :=
  ⟨Nat.le_add_left .., Nat.add_le_add_right (Nat.le_of_lt_succ hk) 128⟩

section Continuation

variable {value k more : Nat} {low high : UInt8} {rest : List UInt8} {c : Char} (hk : k < 64)
  (hlow : low.toNat ≤ k + 128) (hhigh : k + 128 ≤ high.toNat)

include hk hlow hhigh

/-- The last byte of a character. -/
theorem Open.Completes.singleton (hc : Char.ofNat (64 * value + k) = c) :
    Open.Completes { value, low, high, more := 0 } [UInt8.ofNat (k + 128)] c := by
  refine .last ?_ ?_ rfl ?_
  · rwa [UInt8.le_iff_toNat_le, toNat_continuation hk]
  · rwa [UInt8.le_iff_toNat_le, toNat_continuation hk]
  · rwa [extend_continuation hk]

/-- One more byte in front of others. -/
theorem Open.Completes.cons
    (h : Open.Completes { value := 64 * value + k, low := 0x80, high := 0xBF, more } rest c) :
    Open.Completes { value, low, high, more := more + 1 } (UInt8.ofNat (k + 128) :: rest) c := by
  refine .next ?_ ?_ rfl ?_
  · rwa [UInt8.le_iff_toNat_le, toNat_continuation hk]
  · rwa [UInt8.le_iff_toNat_le, toNat_continuation hk]
  · rwa [extend_continuation hk]

end Continuation

theorem utf8EncodeChar_of_ascii {c : Char} (h : c.toNat < 128) :
    String.utf8EncodeChar c = [UInt8.ofNat c.toNat] := by
  have hle : c.val.toNat ≤ 127 := Nat.le_of_lt_succ h
  unfold String.utf8EncodeChar
  dsimp only
  rw [if_pos hle]
  rfl

/-- **Every character beyond ASCII is opened and completed** by its bytes. -/
theorem opens_completes {c : Char} (h : 128 ≤ c.toNat) :
    ∃ n rest, String.utf8EncodeChar c = UInt8.ofNat n :: rest ∧ 0xC2 ≤ n ∧ n < 0xF5 ∧
      (opens n).Completes rest c := by
  have hvalid : c.val.toNat < 0xD800 ∨ 0xDFFF < c.val.toNat ∧ c.val.toNat < 0x110000 := c.valid
  have hc : Char.ofNat c.val.toNat = c := Char.ofNat_toNat c
  have h : 128 ≤ c.val.toNat := h
  unfold String.utf8EncodeChar
  dsimp only
  generalize c.val.toNat = v at h hvalid hc
  have hsix : ∀ m, m % 64 < 64 := fun m => Nat.mod_lt m (by decide)
  have hrange : ∀ m, 128 ≤ m % 64 + 128 ∧ m % 64 + 128 ≤ 191 := fun m => le_continuation (hsix m)
  rw [if_neg (Nat.not_le_of_lt h)]
  split
  case isTrue htwo =>
    refine ⟨_, _, rfl, by omega, by omega, ?_⟩
    rw [opens, if_pos (by omega)]
    have hvalue : 64 * (v / 64 % 32 + 192 - 0xC0) + v % 64 = v := by omega
    exact .singleton (hsix _) (hrange _).1 (hrange _).2 (by rw [hvalue, hc])
  case isFalse htwo =>
    split
    case isTrue hthree =>
      refine ⟨_, _, rfl, by omega, by omega, ?_⟩
      rw [opens, if_neg (by omega), if_pos (by omega)]
      have hvalue : 64 * (64 * (v / 4096 % 16 + 224 - 0xE0) + v / 64 % 64) + v % 64 = v := by
        omega
      refine .cons (hsix _) ?_ ?_ (.singleton (hsix _) (hrange _).1 (hrange _).2 (by rw [hvalue, hc]))
      · split
        · exact (by omega : 160 ≤ v / 64 % 64 + 128)
        · exact (hrange _).1
      · split
        · exact (by omega : v / 64 % 64 + 128 ≤ 159)
        · exact (hrange _).2
    case isFalse hthree =>
      refine ⟨_, _, rfl, by omega, by omega, ?_⟩
      rw [opens, if_neg (by omega), if_neg (by omega)]
      have hvalue : 64 * (64 * (64 * (v / 262144 % 8 + 240 - 0xF0) + v / 4096 % 64) +
        v / 64 % 64) + v % 64 = v := by omega
      refine .cons (hsix _) ?_ ?_ (.cons (hsix _) (hrange _).1 (hrange _).2
        (.singleton (hsix _) (hrange _).1 (hrange _).2 (by rw [hvalue, hc])))
      · split
        · exact (by omega : 144 ≤ v / 4096 % 64 + 128)
        · exact (hrange _).1
      · split
        · exact (by omega : v / 4096 % 64 + 128 ≤ 143)
        · exact (hrange _).2

/-! ### Whole texts -/

/-- A byte of ASCII is read by itself, and any other byte opens a character. -/
theorem scanFrom_opens {n : Nat} (hlow : 0xC2 ≤ n) (hhigh : n < 0xF5) (rest : List UInt8) :
    scanFrom none (UInt8.ofNat n :: rest) = scanFrom (some (opens n)) rest := by
  have hascii : ¬ UInt8.ofNat n < 0x80 := by
    rw [UInt8.lt_iff_toNat_lt, UInt8.toNat_ofNat', Nat.mod_eq_of_lt (by omega)]
    exact Nat.not_lt_of_le (by omega : 128 ≤ n)
  rw [scanFrom, if_neg hascii, lead?_ofNat hlow hhigh]

/-- The bytes of a character are read as the character, whatever follows them. -/
theorem scanFrom_character (c : Char) (rest : List UInt8) :
    scanFrom none (String.utf8EncodeChar c ++ rest) = some c :: scanFrom none rest := by
  rcases Nat.lt_or_ge c.toNat 128 with hascii | hbeyond
  · have hbyte : (UInt8.ofNat c.toNat).toNat = c.toNat := by
      rw [UInt8.toNat_ofNat']
      exact Nat.mod_eq_of_lt (by omega)
    have hlt : UInt8.ofNat c.toNat < 0x80 := by rwa [UInt8.lt_iff_toNat_lt, hbyte]
    rw [utf8EncodeChar_of_ascii hascii, List.singleton_append, scanFrom, if_pos hlt, hbyte,
      Char.ofNat_toNat]
  · obtain ⟨n, bytes, hencode, hlow, hhigh, hcompletes⟩ := opens_completes hbeyond
    rw [hencode, List.cons_append, scanFrom_opens hlow hhigh, hcompletes.scanFrom_append]

/-- Some but not all bytes of a character are one invalid part. -/
theorem scanFrom_take_character (c : Char) {n : Nat} (hpos : 0 < n)
    (hn : n < (String.utf8EncodeChar c).length) :
    scanFrom none ((String.utf8EncodeChar c).take n) = [none] := by
  rcases Nat.lt_or_ge c.toNat 128 with hascii | hbeyond
  · rw [utf8EncodeChar_of_ascii hascii] at hn
    exact absurd (Nat.lt_one_iff.mp hn) (Nat.ne_of_gt hpos)
  · obtain ⟨first, bytes, hencode, hlow, hhigh, hcompletes⟩ := opens_completes hbeyond
    rw [hencode] at hn ⊢
    cases n with
    | zero => exact absurd hpos (Nat.lt_irrefl 0)
    | succ n =>
      rw [List.take_succ_cons, scanFrom_opens hlow hhigh]
      exact hcompletes.scanFrom_take (Nat.lt_of_succ_lt_succ hn)

theorem encode_cons (c : Char) (text : Text) :
    encode (c :: text) = String.utf8EncodeChar c ++ encode text := List.flatMap_cons

/-! ### The first bytes of a text -/

/-- The whole characters of a text that fit in a number of bytes. -/
def fitting : (limit : Nat) → Text → Text
  | _, [] => []
  | limit, c :: rest =>
    let size := (String.utf8EncodeChar c).length
    if size ≤ limit then c :: fitting (limit - size) rest else []

/-- A number of bytes of a text ends within a character. -/
def CutsCharacter (limit : Nat) (text : Text) : Prop :=
  ∃ front c back, text = front ++ c :: back ∧ (encode front).length < limit ∧
    limit < (encode (front ++ [c])).length

theorem not_cutsCharacter_nil (limit : Nat) : ¬ CutsCharacter limit [] := by
  rintro ⟨front, c, back, htext, -⟩
  exact List.append_ne_nil_of_right_ne_nil front (List.cons_ne_nil c back) htext.symm

/-- The cut is within the first character or behind it. -/
theorem cutsCharacter_cons {limit : Nat} {c : Char} {rest : Text} :
    CutsCharacter limit (c :: rest) ↔
      (0 < limit ∧ limit < (String.utf8EncodeChar c).length) ∨
        (String.utf8EncodeChar c).length ≤ limit ∧
          CutsCharacter (limit - (String.utf8EncodeChar c).length) rest := by
  constructor
  · rintro ⟨front, d, back, htext, hlow, hhigh⟩
    cases front with
    | nil =>
      obtain ⟨rfl, rfl⟩ := List.cons.inj htext
      rw [List.nil_append, encode_cons, encode, List.flatMap_nil, List.append_nil] at hhigh
      exact .inl ⟨hlow, hhigh⟩
    | cons e front =>
      obtain ⟨rfl, rfl⟩ := List.cons.inj htext
      rw [encode_cons, List.length_append] at hlow
      rw [List.cons_append, encode_cons, List.length_append] at hhigh
      exact .inr ⟨by omega, front, d, back, rfl, by omega, by omega⟩
  · rintro (⟨hpos, hlt⟩ | ⟨hle, front, d, back, rfl, hlow, hhigh⟩)
    · refine ⟨[], c, rest, rfl, hpos, ?_⟩
      rwa [List.nil_append, encode_cons, encode, List.flatMap_nil, List.append_nil]
    · refine ⟨c :: front, d, back, rfl, ?_, ?_⟩
      · rw [encode_cons, List.length_append]
        omega
      · rw [List.cons_append, encode_cons, List.length_append]
        omega

instance decidableCutsCharacter : (limit : Nat) → (text : Text) → Decidable (CutsCharacter limit text)
  | limit, [] => .isFalse (not_cutsCharacter_nil limit)
  | limit, c :: rest =>
    let _ := decidableCutsCharacter (limit - (String.utf8EncodeChar c).length) rest
    decidable_of_iff _ cutsCharacter_cons.symm

theorem fitting_isPrefix (limit : Nat) (text : Text) : fitting limit text <+: text := by
  induction text generalizing limit with
  | nil => exact List.prefix_refl _
  | cons c rest ih =>
    rw [fitting]
    split
    · exact List.prefix_cons_inj c |>.mpr (ih _)
    · exact List.nil_prefix

theorem length_encode_fitting (limit : Nat) (text : Text) :
    (encode (fitting limit text)).length ≤ limit := by
  induction text generalizing limit with
  | nil => exact Nat.zero_le _
  | cons c rest ih =>
    rw [fitting]
    split
    case isTrue hle =>
      have hrest := ih (limit - (String.utf8EncodeChar c).length)
      rw [encode_cons, List.length_append]
      omega
    case isFalse => exact Nat.zero_le _

/-- **What fits is the longest beginning that does.** -/
theorem isPrefix_fitting {limit : Nat} {front text : Text} (hfront : front <+: text)
    (hfits : (encode front).length ≤ limit) : front <+: fitting limit text := by
  induction text generalizing limit front with
  | nil => exact hfront
  | cons c rest ih =>
    cases front with
    | nil => exact List.nil_prefix
    | cons d front =>
      obtain ⟨rfl, hrest⟩ := List.cons_prefix_cons.mp hfront
      rw [encode_cons, List.length_append] at hfits
      rw [fitting, if_pos (by omega)]
      exact List.cons_prefix_cons.mpr ⟨rfl, ih hrest (by omega)⟩

/-- **What is read of the first bytes of a text**: the whole characters that fit, and one invalid
part if the cut falls into a character. -/
theorem scan_take_encode (limit : Nat) (text : Text) :
    scan ((encode text).take limit) =
      (fitting limit text).map some ++ if CutsCharacter limit text then [none] else [] := by
  induction text generalizing limit with
  | nil =>
    rw [if_neg (not_cutsCharacter_nil limit), encode, List.flatMap_nil, List.take_nil]
    rfl
  | cons c rest ih =>
    rw [encode_cons, List.take_append, fitting]
    simp only [cutsCharacter_cons]
    rcases Nat.lt_or_ge limit (String.utf8EncodeChar c).length with hlt | hle
    · have hnot : ¬ (String.utf8EncodeChar c).length ≤ limit := Nat.not_le_of_lt hlt
      rw [if_neg hnot, Nat.sub_eq_zero_of_le (Nat.le_of_lt hlt), List.take_zero, List.append_nil,
        List.map_nil, List.nil_append, scan]
      rcases Nat.eq_zero_or_pos limit with rfl | hpos
      · rw [List.take_zero, if_neg (by rintro (⟨h, -⟩ | ⟨h, -⟩) <;> omega)]
        rfl
      · rw [scanFrom_take_character c hpos hlt, if_pos (.inl ⟨hpos, hlt⟩)]
    · have hwithin : ¬ (0 < limit ∧ limit < (String.utf8EncodeChar c).length) := by omega
      rw [if_pos hle, List.take_of_length_le hle, scan, scanFrom_character, List.map_cons,
        List.cons_append, ← scan, ih]
      simp only [hwithin, hle, true_and, false_or]

/-- The text of the first bytes of a text. -/
theorem decodeLossy_take_encode (limit : Nat) (text : Text) :
    decodeLossy ((encode text).take limit) =
      fitting limit text ++ if CutsCharacter limit text then ['\uFFFD'] else [] := by
  rw [decodeLossy, scan_take_encode, List.map_append, List.map_map]
  congr 1
  · exact List.map_id _
  · split <;> rfl

end AsmInspect.Utf8

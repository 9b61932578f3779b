import AsmInspect.Proofs.Text.Lines
import AsmInspect.Proofs.Text.Numbers
import AsmInspect.Toolchain.Arguments
import Mathlib.Data.List.Forall2
import Mathlib.Data.List.GetD
import Mathlib.Data.Prod.Lex

/-!
# Versions by their numbers

A version is a list of decimal numbers with dots between them, after any letters `v`, and with
blanks around all that. It is all or nothing: a text with a part that is empty, that is no number or
that does not fit into 64 bits names no version, however many parts are fine.

Versions are compared by their first three numbers, of which a shorter version has zeros for those
it leaves out. Text order has no part in it. A text that names no version is read as the largest
numbers there are, so it is newer than all versions but those with just these numbers.

## Main definitions

* `Version.Names`: the numbers of the version that a text names
* `Version.firstThree`: what versions are compared by

## Main results

* `Version.names_iff`: what is read as a version
* `Version.components_ofText`, `Version.components_ofText_of_nameless`: what a text is read as
* `Version.numeric_gate`: the flag for encodings by the first number, and the order of versions
-/

namespace AsmInspect.Version

variable {version : String} {numbers : List Nat}

/-! ### Texts that name a version -/

/-- The decimals of numbers of 64 bits, part by part. -/
def AreDecimals (parts : List Text) (numbers : List Nat) : Prop :=
  List.Forall₂ (fun part n => Text.IsDecimal n part ∧ n ≤ maxWord64) parts numbers

/-- **A text that names a version**, and the numbers of the version: one or more decimals with dots
between them, after any letters, with blanks around. -/
def Names (version : String) (numbers : List Nat) : Prop :=
  ∃ before letters parts after,
    version.toList = before ++ (letters ++ Text.join ['.'] parts) ++ after ∧
    Text.Blank before ∧ Text.Blank after ∧ (∀ c ∈ letters, c = 'v' ∨ c = 'V') ∧
    parts ≠ [] ∧ AreDecimals parts numbers

theorem mapM_unsigned?_iff {parts : List Text} :
    parts.mapM (Text.unsigned? maxWord64) = some numbers ↔ AreDecimals parts numbers := by
  induction parts generalizing numbers with
  | nil =>
    rw [AreDecimals, List.forall₂_nil_left_iff, List.mapM_nil]
    exact ⟨fun h => (Option.some.inj h).symm, fun h => congrArg some h.symm⟩
  | cons part rest ih =>
    rw [AreDecimals, List.forall₂_cons_left_iff, List.mapM_cons]
    constructor
    · intro h
      obtain ⟨n, hn, h⟩ := Option.bind_eq_some_iff.mp h
      obtain ⟨others, hothers, h⟩ := Option.bind_eq_some_iff.mp h
      exact ⟨n, others, Text.unsigned?_eq_some_iff.mp hn, ih.mp hothers, (Option.some.inj h).symm⟩
    · rintro ⟨n, others, hn, hothers, rfl⟩
      rw [Text.unsigned?_eq_some_iff.mpr hn, ih.mpr hothers]
      rfl

/-- What decimals are made of. -/
theorem AreDecimals.of_mem {parts : List Text} (h : AreDecimals parts numbers) {part : Text}
    (hpart : part ∈ parts) {c : Char} (hc : c ∈ part) : c.isDigit = true ∨ c = '+' := by
  induction h with
  | nil => cases hpart
  | cons hfirst _ ih =>
    rcases List.mem_cons.mp hpart with rfl | hpart
    · exact hfirst.1.of_mem hc
    · exact ih hpart

theorem AreDecimals.dot_not_mem {parts : List Text} (h : AreDecimals parts numbers) {part : Text}
    (hpart : part ∈ parts) : '.' ∉ part := by
  intro hdot
  exact absurd (h.of_mem hpart hdot) (by decide)

/-- Decimals with dots between them have no blank and no letter. -/
theorem AreDecimals.of_mem_join {parts : List Text} (h : AreDecimals parts numbers) {c : Char}
    (hc : c ∈ Text.join ['.'] parts) :
    Text.isBlank c = false ∧ (c == 'v' || c == 'V') = false := by
  have hchar : c.isDigit = true ∨ c = '+' ∨ c = '.' := by
    rcases Text.mem_join hc with hdot | ⟨part, hpart, hmem⟩
    · exact .inr (.inr (List.mem_singleton.mp hdot))
    · exact (h.of_mem hpart hmem).imp_right .inl
  rcases hchar with hdigit | rfl | rfl
  · refine ⟨Text.not_blank_of_isDigit hdigit, ?_⟩
    rw [Bool.or_eq_false_iff, beq_eq_false_iff_ne, beq_eq_false_iff_ne]
    constructor <;> rintro rfl <;> exact absurd hdigit (by decide)
  · decide
  · decide

theorem isBlank_letter {c : Char} (h : c = 'v' ∨ c = 'V') : Text.isBlank c = false := by
  rcases h with rfl | rfl <;> decide

/-- What is left once the blanks and the letters are taken away. -/
theorem dropWhile_letters {letters core : Text} (hletters : ∀ c ∈ letters, c = 'v' ∨ c = 'V')
    (hcore : ∀ c ∈ core, (c == 'v' || c == 'V') = false) :
    (letters ++ core).dropWhile (fun c => c == 'v' || c == 'V') = core := by
  rw [List.dropWhile_append_of_pos (by simpa using hletters)]
  cases core with
  | nil => rfl
  | cons c rest => rw [List.dropWhile_cons, hcore c (List.mem_cons_self ..), if_neg (by decide)]

/-- **What is read as a version**: a text that names one. -/
theorem names_iff : Names version numbers ↔ numbers? version.toList = some numbers := by
  constructor
  · rintro ⟨before, letters, parts, after, htext, hbefore, hafter, hletters, hne, hparts⟩
    -- letters and decimals have no blanks, so trimming takes those around them and no more
    have htrim :
        Text.trim (letters ++ Text.join ['.'] parts) = letters ++ Text.join ['.'] parts := by
      have hblank {c : Char} (hc : c ∈ letters ++ Text.join ['.'] parts) : Text.isBlank c = false :=
        (List.mem_append.mp hc).elim (fun h => isBlank_letter (hletters c h))
          fun h => (hparts.of_mem_join h).1
      exact Text.trim_eq_self (fun c hc => hblank (List.mem_of_mem_head? hc))
        fun c hc => hblank (List.mem_of_mem_getLast? hc)
    rw [htext, numbers?, Text.trim_append hbefore hafter, htrim,
      dropWhile_letters hletters fun c hc => (hparts.of_mem_join hc).2,
      Text.splitAt_join hne fun part hpart => hparts.dot_not_mem hpart]
    exact mapM_unsigned?_iff.mpr hparts
  · intro h
    obtain ⟨before, after, hbefore, hafter, htext⟩ := Text.exists_trim version.toList
    obtain ⟨hne, -, hjoin⟩ := Text.splitAt_eq_iff.mp (rfl : Text.splitAt '.' _ = _)
    refine ⟨before, (Text.trim version.toList).takeWhile (fun c => c == 'v' || c == 'V'), _, after,
      ?_, hbefore, hafter, ?_, hne, mapM_unsigned?_iff.mp h⟩
    · rw [hjoin, List.takeWhile_append_dropWhile]
      exact htext
    · intro c hc
      simpa using List.mem_takeWhile_imp hc

theorem Names.ne_nil (h : Names version numbers) : numbers ≠ [] := by
  obtain ⟨-, -, parts, -, -, -, -, -, hne, hparts⟩ := h
  rintro rfl
  exact hne (List.forall₂_nil_right_iff.mp hparts)

theorem AreDecimals.le_maxWord64 {parts : List Text} (h : AreDecimals parts numbers) {n : Nat}
    (hn : n ∈ numbers) : n ≤ maxWord64 := by
  induction h with
  | nil => cases hn
  | cons hfirst _ ih =>
    rcases List.mem_cons.mp hn with rfl | hn
    · exact hfirst.2
    · exact ih hn

/-- A number that has been read fits into 64 bits, and so does the zero of one that is left out. -/
theorem Names.toNat_getD (h : Names version numbers) (place : Nat) :
    (numbers.getD place 0).toUInt64.toNat = numbers.getD place 0 := by
  obtain ⟨-, -, parts, -, -, -, -, -, -, hparts⟩ := h
  have hle : numbers.getD place 0 ≤ maxWord64 := by
    by_cases hplace : place < numbers.length
    case pos =>
      rw [List.getD_eq_getElem numbers 0 hplace]
      exact hparts.le_maxWord64 (List.getElem_mem hplace)
    case neg =>
      rw [List.getD_eq_default numbers 0 (Nat.le_of_not_lt hplace)]
      exact Nat.zero_le maxWord64
  exact UInt64.toNat_ofNat_of_lt' (Nat.lt_succ_of_le hle)

/-! ### What versions are compared by -/

/-- **The first three numbers**, with zeros for those that are left out, in the order in which the
first difference decides. -/
def firstThree (numbers : List Nat) : ℕ ×ₗ ℕ ×ₗ ℕ :=
  toLex (numbers.getD 0 0, toLex (numbers.getD 1 0, numbers.getD 2 0))

/-- The largest numbers of 64 bits. -/
def largest : ℕ ×ₗ ℕ ×ₗ ℕ := toLex (maxWord64, toLex (maxWord64, maxWord64))

/-- The numbers of a version. -/
def components (v : Version) : ℕ ×ₗ ℕ ×ₗ ℕ :=
  toLex (v.major.toNat, toLex (v.minor.toNat, v.patch.toNat))

/-- Versions are compared by their numbers. -/
theorem le_iff (v w : Version) : v.le w = true ↔ v.components ≤ w.components := by
  simp only [le, components, Prod.Lex.toLex_le_toLex, Bool.or_eq_true, Bool.and_eq_true,
    decide_eq_true_eq, beq_iff_eq, UInt64.lt_iff_toNat_lt, UInt64.le_iff_toNat_le,
    ← UInt64.toNat_inj]

theorem components_le_largest (v : Version) : v.components ≤ largest := by
  have hle (n : UInt64) : n.toNat ≤ maxWord64 := Nat.le_of_lt_succ n.toNat_lt
  rw [components, largest, Prod.Lex.toLex_le_toLex, Prod.Lex.toLex_le_toLex]
  rcases Nat.lt_or_eq_of_le (hle v.major) with hmajor | hmajor
  · exact .inl hmajor
  · rcases Nat.lt_or_eq_of_le (hle v.minor) with hminor | hminor
    · exact .inr ⟨hmajor, .inl hminor⟩
    · exact .inr ⟨hmajor, .inr ⟨hminor, hle v.patch⟩⟩

/-- **A text that names a version** is read as its first three numbers. -/
theorem components_ofText (h : Names version numbers) :
    (ofText version).components = firstThree numbers := by
  -- a version has a first number; the other two may be left out
  obtain ⟨first, rest, rfl⟩ := List.exists_cons_of_ne_nil h.ne_nil
  have hminor : rest.head?.getD 0 = (first :: rest).getD 1 0 := by
    rw [List.head?_eq_getElem?]
    rfl
  have hpatch : rest.tail.head?.getD 0 = (first :: rest).getD 2 0 := by
    rw [List.head?_tail]
    rfl
  have hread : ofText version =
      { major := ((first :: rest).getD 0 0).toUInt64
        minor := ((first :: rest).getD 1 0).toUInt64
        patch := ((first :: rest).getD 2 0).toUInt64 } := by
    rw [ofText, names_iff.mp h, ← hminor, ← hpatch]
    rfl
  rw [hread, components, firstThree, h.toNat_getD 0, h.toNat_getD 1, h.toNat_getD 2]

/-- **A text that names no version** is read as the largest numbers. -/
theorem components_ofText_of_nameless (h : ∀ numbers, ¬ Names version numbers) :
    (ofText version).components = largest := by
  have hread : ofText version = newest := by
    rw [ofText]
    split
    case h_1 hnumbers => exact absurd (names_iff.mpr hnumbers) (h _)
    case h_2 => rfl
  rw [hread]
  decide

/-- What is at least the largest numbers is just these. -/
theorem largest_le_iff (v : Version) : largest ≤ v.components ↔ v.components = largest :=
  ⟨fun h => le_antisymm (components_le_largest v) h, ge_of_eq⟩

/-- The flag is known from the first number on. -/
theorem encodingsSince_le_iff (v : Version) :
    Disassembler.encodingsSince.le v = true ↔ 11 ≤ v.major.toNat := by
  have hmajor : Disassembler.encodingsSince.major.toNat = 11 := rfl
  have hothers : toLex (Disassembler.encodingsSince.minor.toNat,
      Disassembler.encodingsSince.patch.toNat) ≤ toLex (v.minor.toNat, v.patch.toNat) := by
    rw [Prod.Lex.toLex_le_toLex]
    rcases Nat.eq_zero_or_pos v.minor.toNat with hzero | hpos
    · exact .inr ⟨hzero.symm, Nat.zero_le _⟩
    · exact .inl hpos
  rw [le_iff, components, components, Prod.Lex.toLex_le_toLex, hmajor, Nat.le_iff_lt_or_eq]
  exact or_congr_right (and_iff_left hothers)

theorem Names.unique {others : List Nat} (h : Names version numbers) (h' : Names version others) :
    numbers = others :=
  Option.some.inj ((names_iff.mp h).symm.trans (names_iff.mp h'))

/-- **The flag is known** to all versions but those with a first number below it. -/
theorem encodingsSince_le_ofText_iff : Disassembler.encodingsSince.le (ofText version) = true ↔
    ¬ ∃ first rest, Names version (first :: rest) ∧ first < 11 := by
  rw [encodingsSince_le_iff]
  by_cases hnamed : ∃ numbers, Names version numbers
  case pos =>
    obtain ⟨numbers, hnames⟩ := hnamed
    obtain ⟨first, rest, rfl⟩ := List.exists_cons_of_ne_nil hnames.ne_nil
    have hmajor : (ofText version).major.toNat = first :=
      congrArg (fun triple => (ofLex triple).1) (components_ofText hnames)
    rw [hmajor]
    constructor
    · rintro hle ⟨first', rest', hnames', hlt⟩
      obtain ⟨rfl, -⟩ := List.cons.inj (hnames.unique hnames')
      exact Nat.not_lt_of_le hle hlt
    · intro hnot
      exact Nat.le_of_not_lt fun hlt => hnot ⟨first, rest, hnames, hlt⟩
  case neg =>
    have hmajor : (ofText version).major.toNat = maxWord64 :=
      congrArg (fun triple => (ofLex triple).1)
        (components_ofText_of_nameless (not_exists.mp hnamed))
    rw [hmajor]
    exact iff_of_true (by decide) fun ⟨_, _, hnames, _⟩ => hnamed ⟨_, hnames⟩

/-- **The version gate follows the numbers.** The flag for encodings comes last, and is left out
just if the version is a list of numbers whose first is below 11. Versions are in the order of their
first three numbers, and below every text that names no version, unless they have the largest
numbers that there are. -/
theorem numeric_gate (artifact version other : String) :
    (Disassembler.deviceArguments artifact version = [artifact, "-c", "-g"] ↔
      ∃ first rest, Names version (first :: rest) ∧ first < 11) ∧
    (Disassembler.deviceArguments artifact version = [artifact, "-c", "-g", "-hex"] ↔
      ¬ ∃ first rest, Names version (first :: rest) ∧ first < 11) ∧
    ∀ numbers, Names version numbers →
      (∀ others, Names other others →
        ((ofText version).le (ofText other) = true ↔ firstThree numbers ≤ firstThree others)) ∧
      ((∀ others, ¬ Names other others) →
        (ofText version).le (ofText other) = true ∧
        ((ofText other).le (ofText version) = true ↔ firstThree numbers = largest)) := by
  refine ⟨?_, ?_, ?_⟩
  · rw [Disassembler.deviceArguments, ← not_iff_not, ← encodingsSince_le_ofText_iff]
    split <;> simp [*]
  · rw [Disassembler.deviceArguments, ← encodingsSince_le_ofText_iff]
    split <;> simp [*]
  · intro numbers hnames
    constructor
    · intro others hothers
      rw [le_iff, components_ofText hnames, components_ofText hothers]
    · intro hnameless
      rw [le_iff, le_iff, components_ofText_of_nameless hnameless, largest_le_iff,
        components_ofText hnames]
      refine ⟨?_, Iff.rfl⟩
      rw [← components_ofText hnames]
      exact components_le_largest _

/-- Nine comes before ten, and both before a text that names no version. -/
theorem numeric_gate_nine_ten :
    Disassembler.deviceArguments "k.cubin" " v9.2" = ["k.cubin", "-c", "-g"] ∧
    (ofText " v9.2").le (ofText "10.1.3.4") = true ∧
    (ofText "10.1.3.4").le (ofText " v9.2") ≠ true ∧
    (ofText "trunk").le (ofText " v9.2") ≠ true := by
  have hnine : Names " v9.2" [9, 2] := names_iff.mpr (by decide)
  have hten : Names "10.1.3.4" [10, 1, 3, 4] := names_iff.mpr (by decide)
  have htrunk (numbers : List Nat) : ¬ Names "trunk" numbers := by
    have hnone : numbers? "trunk".toList = none := by decide
    rw [names_iff, hnone]
    exact (Option.some_ne_none numbers).symm
  have hbefore := (numeric_gate "k.cubin" " v9.2" "10.1.3.4").2.2 _ hnine
  have hafter := (numeric_gate "k.cubin" "10.1.3.4" " v9.2").2.2 _ hten
  have hnameless := (numeric_gate "k.cubin" " v9.2" "trunk").2.2 _ hnine
  refine ⟨(numeric_gate "k.cubin" " v9.2" "trunk").1.mpr ⟨9, [2], hnine, by decide⟩, ?_, ?_, ?_⟩
  · exact (hbefore.1 _ hten).mpr (by decide)
  · rw [ne_eq, hafter.1 _ hnine]
    decide
  · rw [ne_eq, (hnameless.2 htrunk).2]
    decide

end AsmInspect.Version

import AsmInspect.Proofs.Dict
import AsmInspect.Proofs.LastAt
import AsmInspect.Proofs.Listing.Kept
import AsmInspect.Proofs.Text.Blanks
import AsmInspect.Proofs.Text.Lines

/-!
# Labels and their index

A label line is the name of the label and a colon between blanks. It is one word, so squeezing the
blanks of a line leaves it the label line that it is, and labels can be looked for in the lines that
are shown as well as in those that are read. The index of a listing has for each label the number of
the last of its lines that defines it.

## Main definitions

* `Listing.DefinesLabel`: a line that defines a label

## Main results

* `Listing.label?_eq_some_iff`: which lines are read as label lines
* `Listing.definesLabel_shown`: a line defines the label that it is shown to define
* `Listing.get?_indexLabels`: what is found in the index of some entries
* `Listing.label_index_points_at_labels`: what is found in the index of a listing
-/

namespace AsmInspect.Listing

/-! ### Label lines -/

/-- A line that defines a label: the name and a colon, between blanks. -/
structure DefinesLabel (line name : Text) : Prop where
  trim_eq : Text.trim line = name ++ [':']
  ne_nil : name ≠ []
  nameChars : ∀ c ∈ name, isNameChar c = true

variable {line name : Text}

/-- **Which lines are read as label lines.** -/
theorem label?_eq_some_iff : label? line = some name ↔ DefinesLabel line name := by
  have hchars (t : Text) : (!t.isEmpty && t.all isNameChar) = true ↔
      t ≠ [] ∧ ∀ c ∈ t, isNameChar c = true := by
    rw [Bool.and_eq_true, Bool.not_eq_true', List.isEmpty_eq_false_iff, List.all_eq_true]
  unfold label?
  constructor
  · intro h
    split at h
    case h_1 found hbefore =>
      split at h
      case isTrue hname =>
        obtain rfl := Option.some.inj h
        obtain ⟨hne, hall⟩ := (hchars found).mp hname
        exact ⟨Text.before?_eq_some_iff.mp hbefore, hne, hall⟩
      case isFalse => cases h
    case h_2 => cases h
  · rintro ⟨htrim, hne, hall⟩
    rw [Text.before?_eq_some_iff.mpr htrim]
    exact if_pos ((hchars name).mpr ⟨hne, hall⟩)

theorem label?_eq_none_iff : label? line = none ↔ ∀ name, ¬ DefinesLabel line name := by
  rw [Option.eq_none_iff_forall_ne_some]
  simp only [ne_eq, label?_eq_some_iff]

/-- The characters of names are no blanks. -/
theorem not_blank_of_isNameChar {c : Char} (h : isNameChar c = true) : Text.isBlank c = false := by
  have hcode : 0x24 ≤ c.toNat ∧ c.toNat ≤ 0x7A := by
    delta isNameChar Char.isAlphanum Char.isAlpha Char.isUpper Char.isLower Char.isDigit at h
    simp only [Bool.or_eq_true, Bool.and_eq_true, decide_eq_true_eq, beq_iff_eq, ge_iff_le,
      UInt32.le_iff_toNat_le] at h
    rcases h with (((((⟨hlow, hhigh⟩ | ⟨hlow, hhigh⟩) | ⟨hlow, hhigh⟩) | rfl) | rfl) | rfl)
    · exact ⟨le_trans (by decide) hlow, le_trans hhigh (by decide)⟩
    · exact ⟨le_trans (by decide) hlow, le_trans hhigh (by decide)⟩
    · exact ⟨le_trans (by decide) hlow, le_trans hhigh (by decide)⟩
    · decide
    · decide
    · decide
  have hblank : ¬ (Text.isBlank c = true) := by
    simp only [Text.isBlank, Bool.or_eq_true, Bool.and_eq_true, decide_eq_true_eq, beq_iff_eq]
    omega
  simpa using hblank

/-- A label line has one word. -/
theorem definesLabel_iff_words : DefinesLabel line name ↔
    Text.words line = [name ++ [':']] ∧ name ≠ [] ∧ ∀ c ∈ name, isNameChar c = true := by
  have hword (hname : ∀ c ∈ name, isNameChar c = true) : Text.IsWord (name ++ [':']) := by
    refine ⟨by simp, fun c hc => ?_⟩
    rcases List.mem_append.mp hc with hc | hc
    · exact not_blank_of_isNameChar (hname c hc)
    · obtain rfl := List.mem_singleton.mp hc
      decide
  constructor
  · rintro ⟨htrim, hne, hname⟩
    exact ⟨(Text.words_eq_singleton_iff (hword hname)).mpr htrim, hne, hname⟩
  · rintro ⟨hwords, hne, hname⟩
    exact ⟨(Text.words_eq_singleton_iff (hword hname)).mp hwords, hne, hname⟩

theorem definesLabel_trim : DefinesLabel (Text.trim line) name ↔ DefinesLabel line name := by
  rw [definesLabel_iff_words, definesLabel_iff_words, Text.words_trim]

/-- Squeezing the blanks of a line leaves its words. -/
theorem words_squash (line : Text) : Text.words (squash line) = Text.words line := by
  have hjoin : Text.words (Text.join [' '] (Text.words line)) = Text.words line :=
    Text.words_join fun _ hword => Text.isWord_of_mem_words hword
  unfold squash
  dsimp only
  split
  · have hblank : Text.Blank [' ', ' '] := by decide
    have hwords := Text.words_blank_append hblank (Text.join [' '] (Text.words line))
    exact hwords.trans hjoin
  · exact hjoin

variable {entry : Entry} {filters : Filters}

/-- **A line defines the label that it is shown to define.** -/
theorem definesLabel_shown :
    DefinesLabel (entry.shown filters) name ↔ label? entry.core = some name := by
  rw [label?_eq_some_iff, Entry.core, definesLabel_trim, Entry.shown]
  split
  · rw [definesLabel_iff_words, definesLabel_iff_words, words_squash]
  · rfl

/-! ### The index -/

theorem indexLabels_concat (number : Nat) (index : Dict UInt64) (entries : List Entry)
    (entry : Entry) : indexLabels number index (entries ++ [entry]) =
      match label? entry.core with
      | some name => (indexLabels number index entries).insert (String.ofList name)
          (number + entries.length).toUInt64
      | none => indexLabels number index entries := by
  induction entries generalizing number index with
  | nil => rfl
  | cons first rest ih =>
    rw [List.cons_append, indexLabels, ih, indexLabels, List.length_cons]
    have hnumber : number + 1 + rest.length = number + (rest.length + 1) := by omega
    rw [hnumber]

/-- **What is found in the index of some entries**: the number of the last one that defines the
label. -/
theorem get?_indexLabels (entries : List Entry) (name : String) (number : UInt64) :
    (indexLabels 1 {} entries).get? name = some number ↔ ∃ k,
      LastAt (fun entry => label? entry.core = some name.toList) entries k ∧
        number = (k + 1).toUInt64 := by
  induction entries using List.reverseRecOn with
  | nil =>
    constructor
    · intro h
      cases h
    · rintro ⟨k, hk, -⟩
      exact absurd hk not_lastAt_nil
  | append_singleton entries entry ih =>
    rw [indexLabels_concat]
    by_cases hname : label? entry.core = some name.toList
    case pos =>
      have hlast {k : Nat} : LastAt (fun entry => label? entry.core = some name.toList)
          (entries ++ [entry]) k ↔ k = entries.length := lastAt_concat_of_pos hname
      simp only [hname, String.ofList_toList, Dict.get?_insert, if_pos, hlast, exists_eq_left,
        Option.some.injEq]
      rw [Nat.add_comm 1]
      exact eq_comm
    case neg =>
      have hlast {k : Nat} : LastAt (fun entry => label? entry.core = some name.toList)
          (entries ++ [entry]) k ↔
            LastAt (fun entry => label? entry.core = some name.toList) entries k :=
        lastAt_concat_of_neg hname
      simp only [hlast]
      rw [← ih]
      split
      case h_1 other hother =>
        -- another label is none of this name
        have hne : name ≠ String.ofList other := by
          rintro rfl
          rw [String.toList_ofList] at hname
          exact hname hother
        rw [Dict.get?_insert, if_neg hne]
      case h_2 => rfl

/-- **The index of a listing points at its labels.** A label is in the index with the number of the
last line that defines it, and each label that a line defines is in the index; lines are counted
from one. As long as the lines can be counted with 64 bits, the number under a name is that of a
line which is the name and a colon once it is trimmed. -/
theorem label_index_points_at_labels (text : String) (filters : Filters) :
    let listing := ofText text filters
    let texts := listing.lines.map (·.text.toList)
    (∀ name number, (name, number) ∈ listing.labelDefinitions.entries ↔ ∃ k,
      LastAt (DefinesLabel · name.toList) texts k ∧ number = (k + 1).toUInt64) ∧
    (∀ line ∈ texts, ∀ name, DefinesLabel line name → ∃ k, LastAt (DefinesLabel · name) texts k ∧
      (String.ofList name, (k + 1).toUInt64) ∈ listing.labelDefinitions.entries) ∧
    (texts.length ≤ maxWord64 → ∀ name number, (name, number) ∈ listing.labelDefinitions.entries →
      1 ≤ number.toNat ∧ number.toNat ≤ texts.length ∧ ∃ line,
        texts[number.toNat - 1]? = some line ∧ Text.trim line = name.toList ++ [':']) := by
  intro listing texts
  have hindex (name : String) (number : UInt64) :
      (name, number) ∈ listing.labelDefinitions.entries ↔ ∃ k,
        LastAt (DefinesLabel · name.toList) texts k ∧ number = (k + 1).toUInt64 := by
    have htexts : texts = (kept filters text.toList).map (·.shown filters) := by
      simp only [texts, listing, ofText, List.map_map]
      refine List.map_congr_left fun entry _ => ?_
      exact String.toList_ofList
    rw [Dict.mem_entries_iff, htexts]
    simp only [lastAt_map, definesLabel_shown]
    exact get?_indexLabels ..
  refine ⟨hindex, ?_, ?_⟩
  · intro line hline name hname
    have hmem : ∃ k, LastAt (DefinesLabel · name) texts k := exists_lastAt hline hname
    obtain ⟨k, hk⟩ := hmem
    refine ⟨k, hk, (hindex _ _).mpr ⟨k, ?_, rfl⟩⟩
    rw [String.toList_ofList]
    exact hk
  · intro hlength name number hmem
    obtain ⟨k, hk, rfl⟩ := (hindex name number).mp hmem
    have hlt := hk.lt_length
    have hnumber : (k + 1).toUInt64.toNat = k + 1 := by
      rw [UInt64.toNat_ofNat']
      exact Nat.mod_eq_of_lt (Nat.lt_succ_of_le (le_trans hlt hlength))
    obtain ⟨line, hline, hdefines⟩ := hk.holds
    rw [hnumber]
    exact ⟨by omega, by omega, line, hline, hdefines.trim_eq⟩

end AsmInspect.Listing

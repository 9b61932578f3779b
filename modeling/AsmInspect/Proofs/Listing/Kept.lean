import AsmInspect.Listing.Reader
import Mathlib.Data.List.Basic

/-!
# The lines that the filters keep

A listing holds what is shown of some lines of its text, in their order. What is shown of a line
is a matter of that line, of the position in force there and of the filters, so each filter hides
the same lines whatever the other filters are: the filters of two sets together keep what both sets
keep. Where a line comes from is the same under all filters, and only `trim` changes how it looks.

## Main definitions

* `Filters.instUnion`: the filters of two sets together
* `Listing.readLine`, `Listing.readLines`: a line as it is read, and the lines of a text
* `Listing.Tracker.after`: the tracker after some lines
* `Listing.shownAt?`: what is shown of the line with a number

## Main results

* `Listing.lines_ofText`: a listing holds what is shown of the lines of its text, in their order
* `Listing.hidden_union`: what the filters of two sets hide together
* `Listing.filters_independent`: two sets of filters do not change what the other one does
-/

namespace AsmInspect

/-- The filters of two sets together. -/
instance Filters.instUnion : Union Filters where
  union f g :=
    { execute := f.execute || g.execute
      binary := f.binary || g.binary
      demangle := f.demangle || g.demangle
      labels := f.labels || g.labels
      directives := f.directives || g.directives
      commentOnly := f.commentOnly || g.commentOnly
      trim := f.trim || g.trim
      libraryCode := f.libraryCode || g.libraryCode }

namespace Filters

variable (f g : Filters)

@[simp] theorem binary_union : (f ∪ g).binary = (f.binary || g.binary) := rfl

@[simp] theorem labels_union : (f ∪ g).labels = (f.labels || g.labels) := rfl

@[simp] theorem directives_union : (f ∪ g).directives = (f.directives || g.directives) := rfl

@[simp] theorem commentOnly_union : (f ∪ g).commentOnly = (f.commentOnly || g.commentOnly) := rfl

@[simp] theorem trim_union : (f ∪ g).trim = (f.trim || g.trim) := rfl

end Filters

namespace Listing

/-- A line as it is read: without encodings if the listing is a binary's. -/
def readLine (binary : Bool) (raw : Text) : Text := if binary then stripEncodings raw else raw

/-- The lines of a text as they are read, without blanks around them. -/
def readLines (binary : Bool) (text : Text) : List Text :=
  (Text.lines text).map fun raw => Text.trim (readLine binary raw)

variable {binary : Bool} {text : Text} {number : Nat} {entry : Entry}

/-! ### The entries of a text -/

theorem length_entriesFrom (tracker : Tracker) (raws : List Text) :
    (entriesFrom binary tracker raws).length = raws.length := by
  induction raws generalizing tracker with
  | nil => rfl
  | cons raw rest ih => rw [entriesFrom, List.length_cons, List.length_cons, ih]

theorem length_entries : (entries binary text).length = (Text.lines text).length :=
  length_entriesFrom ..

/-- The tracker after some lines, given without blanks around them. -/
def Tracker.after (tracker : Tracker) (lines : List Text) : Tracker := lines.foldl next tracker

/-- An entry is a line as it stands and as it is read, with the position in force after it. -/
theorem getElem?_entriesFrom (tracker : Tracker) (raws : List Text) (number : Nat) :
    (entriesFrom binary tracker raws)[number]? = raws[number]?.map fun raw =>
      { raw
        line := readLine binary raw
        position := (tracker.after ((raws.take (number + 1)).map fun raw =>
          Text.trim (readLine binary raw))).current } := by
  induction raws generalizing tracker number with
  | nil => rfl
  | cons raw rest ih =>
    cases number with
    | zero => rfl
    | succ number =>
      rw [entriesFrom, List.getElem?_cons_succ, ih, List.getElem?_cons_succ]
      rfl

theorem entry_of_getElem? (h : (entries binary text)[number]? = some entry) :
    (Text.lines text)[number]? = some entry.raw ∧ entry.line = readLine binary entry.raw ∧
      entry.position = (Tracker.after {} ((readLines binary text).take (number + 1))).current := by
  rw [entries, getElem?_entriesFrom, List.map_take] at h
  obtain ⟨raw, hraw, rfl⟩ := Option.map_eq_some_iff.mp h
  exact ⟨hraw, rfl, rfl⟩

theorem exists_entry_of_getElem? {raw : Text} (h : (Text.lines text)[number]? = some raw) :
    ∃ entry, (entries binary text)[number]? = some entry ∧ entry.raw = raw ∧
      entry.line = readLine binary raw := by
  rw [entries, getElem?_entriesFrom, h]
  exact ⟨_, rfl, rfl, rfl⟩

/-! ### What is shown of a line -/

/-- What is shown of the line with a number, if the filters keep it. Lines are counted from zero. -/
def shownAt? (filters : Filters) (text : Text) (number : Nat) : Option Line :=
  ((entries filters.binary text)[number]?.filter (!·.hidden filters (referenced text))).map
    (·.toLine filters)

/-- The names that a text mentions matter only to the filter for labels. -/
theorem hidden_used (filters : Filters) (entry : Entry) :
    entry.hidden filters (if filters.labels then referenced text else []) =
      entry.hidden filters (referenced text) := by
  cases hlabels : filters.labels with
  | true => rfl
  | false => simp [Entry.hidden, hlabels]

/-- What is kept of a list and changed, place by place. -/
theorem map_filter_eq {α β : Type} (p : α → Bool) (f : α → β) (l : List α) :
    (l.filter p).map f = (List.range l.length).filterMap fun i => (l[i]?.filter p).map f := by
  induction l with
  | nil => rfl
  | cons a rest ih =>
    rw [List.length_cons, List.range_succ_eq_map, List.filterMap_cons, List.filterMap_map]
    have hrest : ((fun i => ((a :: rest)[i]?.filter p).map f) ∘ Nat.succ) =
        fun i => (rest[i]?.filter p).map f := rfl
    rw [hrest, ← ih]
    cases ha : p a with
    | true => simp [Option.filter, ha]
    | false => simp [Option.filter, ha]

/-- **A listing holds what is shown of the lines of its text**, in their order. -/
theorem lines_ofText (text : String) (filters : Filters) :
    (ofText text filters).lines =
      (List.range (Text.lines text.toList).length).filterMap (shownAt? filters text.toList) := by
  have hkept : kept filters text.toList =
      (entries filters.binary text.toList).filter (!·.hidden filters (referenced text.toList)) := by
    rw [kept]
    simp only [hidden_used]
  rw [ofText, hkept, map_filter_eq, length_entries]
  rfl

/-- What is shown of a line that is kept. -/
theorem shownAt?_eq_some_iff {filters : Filters} {line : Line} :
    shownAt? filters text number = some line ↔ ∃ entry,
      (entries filters.binary text)[number]? = some entry ∧
        entry.hidden filters (referenced text) = false ∧ entry.toLine filters = line := by
  rw [shownAt?, Option.map_eq_some_iff]
  simp only [Option.filter_eq_some_iff, Bool.not_eq_true', and_assoc]

theorem isSome_shownAt?_iff {filters : Filters} :
    (shownAt? filters text number).isSome ↔ ∃ entry,
      (entries filters.binary text)[number]? = some entry ∧
        entry.hidden filters (referenced text) = false := by
  rw [Option.isSome_iff_exists]
  constructor
  · rintro ⟨line, h⟩
    obtain ⟨entry, hentry, hkept, -⟩ := shownAt?_eq_some_iff.mp h
    exact ⟨entry, hentry, hkept⟩
  · rintro ⟨entry, hentry, hkept⟩
    exact ⟨_, shownAt?_eq_some_iff.mpr ⟨entry, hentry, hkept, rfl⟩⟩

/-! ### Two sets of filters -/

variable {f g : Filters}

/-- **What the filters of two sets hide together** is what one of the sets hides. -/
theorem hidden_union (used : List Text) (entry : Entry) :
    entry.hidden (f ∪ g) used = (entry.hidden f used || entry.hidden g used) := by
  simp only [Entry.hidden, Filters.binary_union, Filters.labels_union, Filters.directives_union,
    Filters.commentOnly_union, Filters.trim_union, Bool.and_or_distrib_right]
  ac_rfl

/-- **Two sets of filters do not change what the other one does.** The lines of a listing are what
is shown of the lines of its text, in their order. The filters of two sets together keep a line
just if both sets keep it. It then comes from the same place under both sets and under both
together, and it is shown as it is read but that `trim` squeezes its blanks. -/
theorem filters_independent (text : String) (f g : Filters) (hbinary : f.binary = g.binary) :
    (∀ filters, (ofText text filters).lines =
      (List.range (Text.lines text.toList).length).filterMap (shownAt? filters text.toList)) ∧
    ∀ number,
      ((shownAt? (f ∪ g) text.toList number).isSome ↔
        (shownAt? f text.toList number).isSome ∧ (shownAt? g text.toList number).isSome) ∧
      ((shownAt? f text.toList number).isSome → (shownAt? g text.toList number).isSome →
        ∃ raw source, (Text.lines text.toList)[number]? = some raw ∧
          ∀ filters ∈ [f, g, f ∪ g], shownAt? filters text.toList number = some
            { text := String.ofList (if filters.trim then squash (readLine f.binary raw)
                else readLine f.binary raw)
              source }) := by
  -- all three sets read the same entries
  have hunion : (f ∪ g).binary = f.binary := by
    rw [Filters.binary_union, ← hbinary, Bool.or_self]
  refine ⟨fun filters => lines_ofText text filters, fun number => ⟨?_, ?_⟩⟩
  · rw [isSome_shownAt?_iff, isSome_shownAt?_iff, isSome_shownAt?_iff, hunion, ← hbinary]
    simp only [hidden_union, Bool.or_eq_false_iff]
    constructor
    · rintro ⟨entry, hentry, hf, hg⟩
      exact ⟨⟨entry, hentry, hf⟩, ⟨entry, hentry, hg⟩⟩
    · rintro ⟨⟨entry, hentry, hf⟩, ⟨other, hother, hg⟩⟩
      obtain rfl := Option.some.inj (hentry.symm.trans hother)
      exact ⟨entry, hentry, hf, hg⟩
  · intro hf hg
    obtain ⟨entry, hentry, hkeptf⟩ := isSome_shownAt?_iff.mp hf
    obtain ⟨other, hother, hkeptg⟩ := isSome_shownAt?_iff.mp hg
    rw [← hbinary] at hother
    obtain rfl := Option.some.inj (hentry.symm.trans hother)
    obtain ⟨hraw, hline, -⟩ := entry_of_getElem? hentry
    refine ⟨entry.raw, entry.source, hraw, fun filters hfilters => ?_⟩
    refine shownAt?_eq_some_iff.mpr ⟨entry, ?_, ?_, ?_⟩
    · simp only [List.mem_cons, List.not_mem_nil, or_false] at hfilters
      rcases hfilters with rfl | rfl | rfl
      · exact hentry
      · rw [← hbinary]
        exact hentry
      · rw [hunion]
        exact hentry
    · simp only [List.mem_cons, List.not_mem_nil, or_false] at hfilters
      rcases hfilters with rfl | rfl | rfl
      · exact hkeptf
      · exact hkeptg
      · rw [hidden_union, hkeptf, hkeptg]
        rfl
    · rw [Entry.toLine, Entry.shown, hline]

/-- An instruction between a directive and a blank line, under a filter that hides directives and
one that hides blank lines. -/
theorem filters_independent_instruction :
    ∃ source, ∀ filters ∈ [({ directives := true } : Filters), { trim := true },
        { directives := true } ∪ { trim := true }],
      shownAt? filters ".text\n\tmov  a\n\n".toList 1 = some
        { text := if filters.trim then "  mov a" else "\tmov  a", source } := by
  obtain ⟨-, h⟩ := filters_independent ".text\n\tmov  a\n\n" { directives := true } { trim := true }
    rfl
  obtain ⟨raw, source, hraw, hshown⟩ := (h 1).2 (by decide) (by decide)
  obtain rfl : raw = "\tmov  a".toList := (Option.some.inj hraw).symm
  refine ⟨source, fun filters hfilters => ?_⟩
  rw [hshown filters hfilters]
  cases filters.trim <;> rfl

end Listing

end AsmInspect

import AsmInspect.Proofs.LastAt
import AsmInspect.Proofs.Listing.Labels
import AsmInspect.Proofs.Listing.Markers

/-!
# Where the lines of a listing come from

The tracker knows the files that the lines so far have declared, and the position that the last
marker among them gives. Neither is a matter of the filters: a marker counts whether or not it is
shown. A directive refers to a file by its number, so what it says may depend on where it stands. If
no number is given to two files, or used before it is given, the number of a file means the same on
all lines.

## Main definitions

* `Listing.IsMarker`: a line that gives a position
* `Listing.Marks`: the position that a marker gives, for a meaning of the numbers of files
* `Listing.FileOf`: the file that the lines of a text give a number
* `Listing.FilesDeclaredFirst`: the texts in which the number of a file means one file

## Main results

* `Listing.mem_files_after`: the files that the tracker knows after some lines
* `Listing.current_after`: the position in force after some lines
* `Listing.source_of_last_marker`: where the lines of a listing come from
-/

namespace AsmInspect.Listing

/-- A line that gives a position to the lines behind it. -/
def IsMarker (line : Text) : Prop :=
  (∃ position, IsMarkerComment line position) ∨ ∃ index number, Refers line index number

/-- The position that a marker gives, if the numbers of files have some meaning. -/
inductive Marks (fileOf : Nat → Option String → Prop) (line : Text) : SourcePosition → Prop
  | comment {position : SourcePosition} (marks : IsMarkerComment line position) :
      Marks fileOf line position
  | directive {index : Nat} {file : Option String} {number : UInt32}
      (refers : Refers line index number.toNat) (file_of : fileOf index file) :
      Marks fileOf line { file, line := number }

/-- The file that some lines give a number, if any of them does. -/
def FileOf (lines : List Text) (index : Nat) : Option String → Prop
  | some name => ∃ line ∈ lines, Declares line index name
  | none => ∀ line ∈ lines, ∀ name, ¬ Declares line index name

/-- **Lines that give a number to one file only**, and before they refer to the file. -/
structure FilesDeclaredFirst (lines : List Text) : Prop where
  once : ∀ {i j : Nat} {line other : Text} {index : Nat} {name name' : String},
    lines[i]? = some line → lines[j]? = some other →
      Declares line index name → Declares other index name' → i = j
  first : ∀ {i j : Nat} {line other : Text} {index number : Nat} {name : String},
    lines[i]? = some line → lines[j]? = some other →
      Declares line index name → Refers other index number → i < j

variable {lines : List Text} {line : Text} {position : SourcePosition} {index number : Nat}
  {name : String} {file : Option String} {fileOf fileOf' : Nat → Option String → Prop}

theorem IsMarkerComment.isMarker (h : IsMarkerComment line position) : IsMarker line :=
  .inl ⟨position, h⟩

theorem Refers.isMarker (h : Refers line index number) : IsMarker line := .inr ⟨index, number, h⟩

theorem Marks.isMarker (h : Marks fileOf line position) : IsMarker line := by
  cases h with
  | comment hmarks => exact hmarks.isMarker
  | directive hrefers _ => exact hrefers.isMarker

/-- The number of a line that a directive refers to is one of 32 bits. -/
theorem Refers.toNat_toUInt32 (h : Refers line index number) :
    number.toUInt32.toNat = number := by
  obtain ⟨_, _, _, _, _, hnumber⟩ := h
  exact Text.toNat_toUInt32_of_unsigned? hnumber

/-- What a marker gives depends on the meaning of the number that it refers to. -/
theorem Marks.mono (hmarks : Marks fileOf line position)
    (h : ∀ {index number file}, Refers line index number → fileOf index file →
      fileOf' index file) : Marks fileOf' line position := by
  cases hmarks with
  | comment hmarks => exact .comment hmarks
  | directive hrefers hfile => exact .directive hrefers (h hrefers hfile)

/-! ### The tracker after some lines -/

namespace Tracker

theorem after_concat (tracker : Tracker) (lines : List Text) (line : Text) :
    tracker.after (lines ++ [line]) = (tracker.after lines).next line := List.foldl_concat ..

/-- The files that the tracker knows after one more line. -/
theorem NextCase.mem_files {tracker next : Tracker} (h : NextCase tracker line next) :
    (index, name) ∈ next.files ↔ (index, name) ∈ tracker.files ∨ Declares line index name := by
  cases h with
  | comment hmarks => simp [hmarks.not_declares]
  | refers hrefers => simp [hrefers.not_declares]
  | declares hdeclares =>
    rw [List.mem_cons, Prod.mk.injEq, or_comm]
    refine or_congr_right ⟨?_, fun h => h.eq hdeclares⟩
    rintro ⟨rfl, rfl⟩
    exact hdeclares
  | other _ _ hdeclares => simp [hdeclares]

/-- **The files that the tracker knows after some lines** are those that the lines declare. -/
theorem mem_files_after : (index, name) ∈ (after {} lines).files ↔
    ∃ line ∈ lines, Declares line index name := by
  induction lines using List.reverseRecOn with
  | nil =>
    constructor
    · intro h
      cases h
    · rintro ⟨line, hline, -⟩
      cases hline
  | append_singleton lines line ih =>
    rw [after_concat, (next_cases _ line).mem_files, ih]
    simp [or_and_right, exists_or]

/-- The file that the tracker finds under a number is one that it knows, if there is any. -/
theorem file?_after (lines : List Text) (index : Nat) :
    FileOf lines index ((after {} lines).file? index) := by
  cases hfile : (after {} lines).file? index with
  | some name =>
    obtain ⟨found, hfound, rfl⟩ := Option.map_eq_some_iff.mp hfile
    obtain rfl : found.1 = index := by simpa using List.find?_some hfound
    exact mem_files_after.mp (List.mem_of_find?_eq_some hfound)
  | none =>
    intro line hline name hdeclares
    have hmem := mem_files_after.mpr ⟨line, hline, hdeclares⟩
    have hnone := List.find?_eq_none.mp (Option.map_eq_none_iff.mp hfile) _ hmem
    simp at hnone

/-- The position in force after one more line. -/
theorem NextCase.current {tracker next : Tracker} (h : NextCase tracker line next) :
    next.current = some position ↔
      Marks (fun index file => tracker.file? index = file) line position ∨
        ¬ IsMarker line ∧ tracker.current = some position := by
  -- a line that is no marker leaves the position in force
  have hstays (hmarker : ¬ IsMarker line) : tracker.current = some position ↔
      Marks (fun index file => tracker.file? index = file) line position ∨
        ¬ IsMarker line ∧ tracker.current = some position := by
    have hunmarked : ¬ Marks (fun index file => tracker.file? index = file) line position :=
      fun hmarks => hmarker hmarks.isMarker
    simp only [hunmarked, hmarker, not_false_eq_true, true_and, false_or]
  cases h with
  | comment hmarks =>
    simp only [hmarks.isMarker, not_true_eq_false, false_and, or_false, Option.some.injEq]
    constructor
    · rintro rfl
      exact .comment hmarks
    · rintro (hother | ⟨hrefers, -⟩)
      · exact hmarks.position_eq hother
      · exact absurd hrefers hmarks.not_refers
  | refers hrefers =>
    simp only [hrefers.isMarker, not_true_eq_false, false_and, or_false, Option.some.injEq]
    constructor
    · rintro rfl
      refine .directive ?_ rfl
      rwa [hrefers.toNat_toUInt32]
    · rintro (hother | ⟨hother, rfl⟩)
      · exact absurd hrefers hother.not_refers
      · obtain ⟨rfl, rfl⟩ := hrefers.eq hother
        simp
  | declares hdeclares =>
    have hmarker : ¬ IsMarker line := by
      rintro (⟨_, hmarks⟩ | ⟨_, _, hrefers⟩)
      · exact hmarks.not_declares hdeclares
      · exact hrefers.not_declares hdeclares
    exact hstays hmarker
  | other hmarks hrefers _ =>
    have hmarker : ¬ IsMarker line := by
      rintro (⟨_, h⟩ | ⟨_, _, h⟩)
      · exact hmarks _ h
      · exact hrefers _ _ h
    exact hstays hmarker

/-- **The position in force after some lines** is given by the last marker among them, with the
files that were known there. -/
theorem current_after : (after {} lines).current = some position ↔ ∃ k marker,
    LastAt IsMarker lines k ∧ lines[k]? = some marker ∧
      Marks (fun index file => (after {} (lines.take k)).file? index = file) marker position := by
  induction lines using List.reverseRecOn with
  | nil =>
    constructor
    · intro h
      cases h
    · rintro ⟨k, marker, hk, -⟩
      exact absurd hk not_lastAt_nil
  | append_singleton lines line ih =>
    rw [after_concat, (next_cases _ line).current, ih]
    by_cases hmarker : IsMarker line
    case pos =>
      simp only [hmarker, not_true_eq_false, false_and, or_false, lastAt_concat_of_pos hmarker]
      constructor
      · intro hmarks
        refine ⟨_, line, rfl, List.getElem?_concat_length, ?_⟩
        rwa [List.take_left]
      · rintro ⟨k, marker, rfl, hline, hmarks⟩
        rw [List.getElem?_concat_length] at hline
        obtain rfl := Option.some.inj hline
        rwa [List.take_left] at hmarks
    case neg =>
      -- the line in force is further up, where the line at the end is not seen
      have hunmarked : ¬ Marks (fun index file => (after {} lines).file? index = file) line
          position := fun h => hmarker h.isMarker
      simp only [hmarker, hunmarked, not_false_eq_true, true_and, false_or,
        lastAt_concat_of_neg hmarker]
      refine exists_congr fun k => exists_congr fun marker => and_congr_right fun hk => ?_
      rw [List.getElem?_append_left hk.lt_length, List.take_append_of_le_length hk.lt_length.le]

end Tracker

/-! ### Numbers with one meaning -/

namespace FilesDeclaredFirst

/-- A number is of one file. -/
theorem fileOf_unique (h : FilesDeclaredFirst lines) {file' : Option String}
    (hfile : FileOf lines index file) (hfile' : FileOf lines index file') : file = file' := by
  cases file with
  | none =>
    cases file' with
    | none => rfl
    | some name' =>
      obtain ⟨line, hline, hdeclares⟩ := hfile'
      exact absurd hdeclares (hfile line hline name')
  | some name =>
    obtain ⟨line, hline, hdeclares⟩ := hfile
    cases file' with
    | none => exact absurd hdeclares (hfile' line hline name)
    | some name' =>
      obtain ⟨other, hother, hdeclares'⟩ := hfile'
      obtain ⟨i, hi⟩ := List.mem_iff_getElem?.mp hline
      obtain ⟨j, hj⟩ := List.mem_iff_getElem?.mp hother
      obtain rfl := h.once hi hj hdeclares hdeclares'
      obtain rfl := Option.some.inj (hi.symm.trans hj)
      rw [(hdeclares.eq hdeclares').2]

/-- **Where a number is used, the tracker knows its file.** -/
theorem file?_eq_iff (h : FilesDeclaredFirst lines) {k : Nat} (hline : lines[k]? = some line)
    (hrefers : Refers line index number) :
    (Tracker.after {} (lines.take k)).file? index = file ↔ FileOf lines index file := by
  have hknown : FileOf lines index ((Tracker.after {} (lines.take k)).file? index) := by
    have hbefore := Tracker.file?_after (lines.take k) index
    cases hfile : (Tracker.after {} (lines.take k)).file? index with
    | some name =>
      rw [hfile] at hbefore
      obtain ⟨other, hother, hdeclares⟩ := hbefore
      exact ⟨other, List.mem_of_mem_take hother, hdeclares⟩
    | none =>
      rw [hfile] at hbefore
      intro other hother name hdeclares
      -- the line would be in front of the one that refers to the file
      obtain ⟨i, hi⟩ := List.mem_iff_getElem?.mp hother
      have hlt : i < k := h.first hi hline hdeclares hrefers
      have hmem : other ∈ lines.take k := by
        refine List.mem_of_getElem? (i := i) ?_
        rwa [List.getElem?_take_of_lt hlt]
      exact hbefore other hmem name hdeclares
  refine ⟨?_, h.fileOf_unique hknown⟩
  rintro rfl
  exact hknown

end FilesDeclaredFirst

/-- **Where the lines of a listing come from**: a line that is neither blank nor a label comes from
where the last marker at or before it in the text says, whether or not the marker is shown. If there
is no such marker, it comes from nowhere, and so do blank lines and labels. -/
theorem source_of_last_marker (text : String) (filters : Filters)
    (hfiles : FilesDeclaredFirst (readLines filters.binary text.toList)) :
    let lines := readLines filters.binary text.toList
    (ofText text filters).lines =
      (List.range lines.length).filterMap (shownAt? filters text.toList) ∧
    ∀ number shown, shownAt? filters text.toList number = some shown → ∃ line,
      lines[number]? = some line ∧
      (line = [] ∨ (∃ name, DefinesLabel line name) → shown.source = none) ∧
      (line ≠ [] → (∀ name, ¬ DefinesLabel line name) → ∀ position,
        shown.source = some position ↔ ∃ k marker,
          LastAt IsMarker (lines.take (number + 1)) k ∧ lines[k]? = some marker ∧
            Marks (FileOf lines) marker position) := by
  intro lines
  refine ⟨?_, fun number shown hshown => ?_⟩
  · rw [lines_ofText]
    simp only [lines, readLines, List.length_map]
  · obtain ⟨entry, hentry, -, rfl⟩ := shownAt?_eq_some_iff.mp hshown
    obtain ⟨hraw, hline, hposition⟩ := entry_of_getElem? hentry
    refine ⟨entry.core, ?_, ?_, ?_⟩
    · simp only [lines, readLines, List.getElem?_map, hraw, Option.map_some, Entry.core, hline]
    · intro hnone
      have hsource : (label? entry.core).isSome ∨ entry.core.isEmpty := by
        rcases hnone with hblank | ⟨name, hname⟩
        · exact .inr (by rw [hblank]; rfl)
        · exact .inl (by rw [label?_eq_some_iff.mpr hname]; rfl)
      rw [Entry.toLine, Entry.source, if_pos (by simpa using hsource)]
    · intro hne hlabel position
      have hsource : entry.source = entry.position := by
        rw [Entry.source, label?_eq_none_iff.mpr hlabel]
        simp [hne]
      rw [Entry.toLine, hsource, hposition, Tracker.current_after]
      refine exists_congr fun k => exists_congr fun marker => and_congr_right fun hk => ?_
      have hlt : k < number + 1 := by
        have h := hk.lt_length
        rw [List.length_take] at h
        omega
      rw [List.getElem?_take_of_lt hlt, List.take_take, Nat.min_eq_left hlt.le]
      refine and_congr_right fun hmarker => ⟨fun hmarks => hmarks.mono fun hrefers => ?_,
        fun hmarks => hmarks.mono fun hrefers => ?_⟩
      · exact (hfiles.file?_eq_iff hmarker hrefers).mp
      · exact (hfiles.file?_eq_iff hmarker hrefers).mpr

/-- An instruction comes from where the directives in front of it say, which the filters hide. -/
theorem source_of_last_marker_hidden_directives :
    let text := "\t.file 1 \"a.cu\"\n\t.loc 1 7\n\tret;\n"
    FilesDeclaredFirst (readLines false text.toList) ∧
      ∃ shown, shownAt? { directives := true } text.toList 2 = some shown ∧
        shown.source = some { file := some "a.cu", line := 7 } := by
  intro text
  have hlines : readLines false text.toList =
      [".file 1 \"a.cu\"".toList, ".loc 1 7".toList, "ret;".toList] := by decide
  have hfile : Text.words ".file 1 \"a.cu\"".toList =
      [".file".toList, "1".toList, "\"a.cu\"".toList] := by decide
  have hloc : Text.words ".loc 1 7".toList = [".loc".toList, "1".toList, "7".toList] := by decide
  have hret : Text.words "ret;".toList = ["ret;".toList] := by decide
  have hdeclares {i : Nat} {line : Text} {index : Nat} {name : String}
      (hline : (readLines false text.toList)[i]? = some line) (h : Declares line index name) :
      i = 0 := by
    rw [hlines] at hline
    match i, hline with
    | 0, _ => rfl
    | 1, rfl => exact absurd ((declares_iff hloc).mp h).1 (by decide)
    | 2, rfl =>
      obtain ⟨_, _, _, hwords, -⟩ := h
      cases hret.symm.trans hwords
  have hrefers {i : Nat} {line : Text} {index number : Nat}
      (hline : (readLines false text.toList)[i]? = some line) (h : Refers line index number) :
      i = 1 := by
    rw [hlines] at hline
    match i, hline with
    | 0, rfl => exact absurd ((refers_iff hfile).mp h).1 (by decide)
    | 1, _ => rfl
    | 2, rfl =>
      obtain ⟨_, _, _, hwords, -⟩ := h
      cases hret.symm.trans hwords
  have hfiles : FilesDeclaredFirst (readLines false text.toList) :=
    { once := fun hi hj h h' => (hdeclares hi h).trans (hdeclares hj h').symm
      first := fun hi hj h h' => by rw [hdeclares hi h, hrefers hj h']; exact Nat.one_pos }
  obtain ⟨shown, hshown⟩ : ∃ shown, shownAt? { directives := true } text.toList 2 = some shown :=
    Option.isSome_iff_exists.mp (by decide)
  obtain ⟨line, hline, -, hsource⟩ :=
    (source_of_last_marker text { directives := true } hfiles).2 2 shown hshown
  obtain rfl : "ret;".toList = line := by
    rw [hlines] at hline
    exact Option.some.inj hline
  have hlabel : ∀ name, ¬ DefinesLabel "ret;".toList name := label?_eq_none_iff.mp (by decide)
  have hunmarked : ¬ IsMarker "ret;".toList := by
    rintro (⟨_, hmarks⟩ | ⟨_, _, hother⟩)
    · exact absurd (hmarks.word_eq hret) (by decide)
    · exact absurd (hrefers (i := 2) hline hother) (by decide)
  have hmarker : Refers ".loc 1 7".toList 1 7 := (refers_iff hloc).mpr (by decide)
  have hfileOf : FileOf (readLines false text.toList) 1 (some "a.cu") :=
    ⟨_, hlines ▸ List.mem_cons_self .., (declares_iff hfile).mpr (by decide)⟩
  refine ⟨hfiles, shown, hshown, (hsource (by decide) hlabel _).mpr ⟨1, ".loc 1 7".toList, ?_, ?_,
    .directive hmarker hfileOf⟩⟩
  · -- the instruction at the end is no marker
    have htake : (readLines false text.toList).take (2 + 1) =
        [".file 1 \"a.cu\"".toList, ".loc 1 7".toList] ++ ["ret;".toList] := by
      rw [hlines]
      rfl
    have hlast : LastAt IsMarker
        ([".file 1 \"a.cu\"".toList] ++ [".loc 1 7".toList]) 1 :=
      (lastAt_concat_of_pos hmarker.isMarker).mpr rfl
    change LastAt IsMarker ((readLines false text.toList).take (2 + 1)) 1
    rw [htake]
    exact (lastAt_concat_of_neg hunmarked).mpr hlast
  · change (readLines false text.toList)[1]? = _
    rw [hlines]
    rfl

end AsmInspect.Listing

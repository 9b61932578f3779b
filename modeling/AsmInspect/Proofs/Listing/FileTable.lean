import AsmInspect.Proofs.Listing.Attribution
import AsmInspect.Proofs.Listing.UsedLabels

/-!
# Where a listing keeps its table of files

The directives that give files their numbers form a table, which may stand anywhere among the other
lines. A number is looked up where a marker uses it, among the lines in front of the marker. So if
the lines of the table are moved, all other lines are shown as before, and the last marker in front
of each of them is the same, but what that marker finds may differ: a line keeps the file it comes
from just if its marker finds the number at both places or at neither. What is shown of the lines of
a text makes up its listing (`Listing.lines_ofText`).

## Main definitions

* `Listing.isFileLine`, `Listing.besidesTable`: the lines of the table, and all others
* `Listing.TableMoved`: the same lines, with those of the table at other places
* `Listing.Unambiguous`, `Listing.DeclaredOnce`: lines that give no number to two files, and every
  number to one
* `Listing.LooksUp`: the last marker of some lines looks up a number

## Main results

* `Listing.MarkedAfter.filter`: the last marker stays when other lines are left out
* `Listing.file?_after_eq_iff`: when a number means the same at two places
* `Listing.source_of_moved_table`: which lines keep their source when the table is moved
-/

namespace AsmInspect.Listing

/-- A line of the table of files: its first word is the directive that gives a file its number. -/
def isFileLine (line : Text) : Bool := (Text.words line).head? == some ".file".toList

/-- The lines that are not of the table, as they stand in the text. -/
def besidesTable (binary : Bool) (raws : List Text) : List Text :=
  raws.filter fun raw => !isFileLine (Text.trim (readLine binary raw))

/-- **The same lines with the table elsewhere**: the other lines are in the same order. -/
structure TableMoved (binary : Bool) (raws moved : List Text) : Prop where
  perm : raws.Perm moved
  besides_eq : besidesTable binary raws = besidesTable binary moved

/-- Lines that give no number to two files. -/
def Unambiguous (lines : List Text) : Prop :=
  ∀ line ∈ lines, ∀ other ∈ lines, ∀ index name name',
    Declares line index name → Declares other index name' → name = name'

/-- A number that some lines give to a file. -/
def Declared (lines : List Text) (index : Nat) : Prop :=
  ∃ line ∈ lines, ∃ name, Declares line index name

/-- Lines in which every number is given to a file by exactly one of them, if it is used at all. -/
def DeclaredOnce (lines : List Text) : Prop :=
  ∀ index, (Declared lines index ∨ ∃ line ∈ lines, ∃ number, Refers line index number) →
    ∃! place : Nat, ∃ line name, lines[place]? = some line ∧ Declares line index name

/-- **The last marker of some lines looks up a number**, among the lines `ahead` of it. -/
def LooksUp (lines ahead : List Text) (index : Nat) : Prop :=
  ∃ marker number, MarkedAfter lines ahead marker ∧ Refers marker index number

variable {lines ahead ahead' : List Text} {line marker marker' : Text} {index number : Nat}
  {filters : Filters} {binary : Bool}

/-! ### Markers and the table -/

theorem isFileLine_of_declares {name : String} (h : Declares line index name) :
    isFileLine line = true := by
  obtain ⟨first, second, rest, hwords, -⟩ := h
  simp [isFileLine, hwords]

/-- No line of the table is a marker. -/
theorem not_isFileLine_of_isMarker (h : IsMarker line) : isFileLine line = false := by
  rcases head?_words_of_isMarker h with hword | hword
  · rw [isFileLine, hword]
    decide
  · rw [isFileLine, hword]
    decide

/-- **The last marker stays** when other lines are left out. -/
theorem MarkedAfter.filter {p : Text → Bool} (hp : ∀ line, IsMarker line → p line = true)
    (h : MarkedAfter lines ahead marker) :
    MarkedAfter (lines.filter p) (ahead.filter p) marker := by
  obtain ⟨hmarker, rest, rfl, hrest⟩ := h
  refine ⟨hmarker, rest.filter p, ?_, fun line hline => hrest line (List.mem_of_mem_filter hline)⟩
  rw [List.filter_append, List.filter_cons, if_pos (hp marker hmarker)]

/-- Two lists of lines with the same markers have the same last marker. -/
theorem MarkedAfter.of_filter_eq {p : Text → Bool} {lines' : List Text}
    (hp : ∀ line, IsMarker line → p line = true) (heq : lines.filter p = lines'.filter p)
    (h : MarkedAfter lines ahead marker) : ∃ ahead', MarkedAfter lines' ahead' marker := by
  have hfilter := h.filter hp
  rw [heq] at hfilter
  rcases exists_markedAfter lines' with hnone | ⟨ahead', marker', h'⟩
  · exact absurd h.1 (hnone marker (List.mem_of_mem_filter hfilter.mem))
  · obtain ⟨-, rfl⟩ := hfilter.unique (h'.filter hp)
    exact ⟨ahead', h'⟩

/-! ### What a number means -/

theorem DeclaredOnce.unambiguous (h : DeclaredOnce lines) : Unambiguous lines := by
  intro line hline other hother index name name' hdeclares hdeclares'
  obtain ⟨i, hi⟩ := List.mem_iff_getElem?.mp hline
  obtain ⟨j, hj⟩ := List.mem_iff_getElem?.mp hother
  obtain rfl := (h index (.inl ⟨line, hline, name, hdeclares⟩)).unique
    ⟨line, name, hi, hdeclares⟩ ⟨other, name', hj, hdeclares'⟩
  obtain rfl := Option.some.inj (hi.symm.trans hj)
  exact (hdeclares.eq hdeclares').2

/-- A table of one line, which stands first. -/
theorem declaredOnce_cons {name : String} (htable : Declares line index name)
    (hbesides : ∀ other ∈ lines, isFileLine other = false)
    (hrefers : ∀ other ∈ lines, ∀ index' number, Refers other index' number → index' = index) :
    DeclaredOnce (line :: lines) := by
  intro index' hused
  obtain rfl : index' = index := by
    rcases hused with ⟨other, hother, name', hdeclares⟩ | ⟨other, hother, number, hother'⟩
    · rcases List.mem_cons.mp hother with rfl | hother
      · exact (hdeclares.eq htable).1
      · exact absurd (isFileLine_of_declares hdeclares) (by simp [hbesides other hother])
    · rcases List.mem_cons.mp hother with rfl | hother
      · exact absurd htable hother'.not_declares
      · exact hrefers other hother index' number hother'
  refine ⟨0, ⟨line, name, rfl, htable⟩, ?_⟩
  rintro place ⟨other, name', hother, hdeclares⟩
  cases place with
  | zero => rfl
  | succ place =>
    have hmem : other ∈ lines := List.mem_of_getElem? hother
    exact absurd (isFileLine_of_declares hdeclares) (by simp [hbesides other hmem])

/-- A file is found under a number that has been given to one. -/
theorem isSome_file?_after :
    ((Tracker.after {} lines).file? index).isSome ↔ Declared lines index := by
  have hfile := Tracker.file?_after lines index
  cases hfound : (Tracker.after {} lines).file? index with
  | some name =>
    rw [hfound] at hfile
    obtain ⟨line, hline, hdeclares⟩ := hfile
    exact iff_of_true rfl ⟨line, hline, name, hdeclares⟩
  | none =>
    rw [hfound] at hfile
    refine iff_of_false Bool.false_ne_true ?_
    rintro ⟨line, hline, name, hdeclares⟩
    exact hfile line hline name hdeclares

/-- **When a number means the same at two places**: if it has been given to a file at both, or at
neither. -/
theorem file?_after_eq_iff (h : Unambiguous lines) (hahead : ahead ⊆ lines)
    (hahead' : ahead' ⊆ lines) :
    (Tracker.after {} ahead).file? index = (Tracker.after {} ahead').file? index ↔
      (Declared ahead index ↔ Declared ahead' index) := by
  rw [← isSome_file?_after, ← isSome_file?_after]
  have hfile := Tracker.file?_after ahead index
  have hfile' := Tracker.file?_after ahead' index
  cases hfound : (Tracker.after {} ahead).file? index with
  | none => cases hfound' : (Tracker.after {} ahead').file? index with
    | none => simp
    | some name' => simp
  | some name => cases hfound' : (Tracker.after {} ahead').file? index with
    | none => simp
    | some name' =>
      rw [hfound] at hfile
      rw [hfound'] at hfile'
      -- the two lines that were found may differ, but not the names that they give
      obtain ⟨line, hline, hdeclares⟩ := hfile
      obtain ⟨other, hother, hdeclares'⟩ := hfile'
      have hname : name = name' :=
        h line (hahead hline) other (hahead' hother) index name name' hdeclares hdeclares'
      simp [hname]

/-! ### What is shown of the other lines -/

/-- Whether a line is hidden is a matter of the line and of the names that the text mentions. -/
theorem hidden_congr {entry other : Entry} {used used' : List Text} (hraw : entry.raw = other.raw)
    (hline : entry.line = other.line) (hused : ∀ name, name ∈ used ↔ name ∈ used') :
    entry.hidden filters used = other.hidden filters used' := by
  have hcontains : ∀ name, used.contains name = used'.contains name := by
    intro name
    rw [Bool.eq_iff_iff, List.contains_iff_mem, List.contains_iff_mem]
    exact hused name
  simp only [Entry.hidden, Entry.isEmptied, Entry.core, hraw, hline, hcontains]

theorem mem_referenced_of_perm {text moved name : Text}
    (h : (Text.lines text).Perm (Text.lines moved)) :
    name ∈ referenced text ↔ name ∈ referenced moved := by
  simp only [mem_referenced_iff, Mentions, h.mem_iff]

theorem besidesTable_place {front back : List Text} {raw : Text}
    (hraw : isFileLine (Text.trim (readLine binary raw)) = false) :
    besidesTable binary (front ++ raw :: back) =
      besidesTable binary front ++ raw :: besidesTable binary back := by
  simp [besidesTable, hraw]

/-- Lines that are not of the table as they are read. -/
theorem filter_trimmedLines (binary : Bool) (raws : List Text) :
    (trimmedLines binary raws).filter (!isFileLine ·) =
      trimmedLines binary (besidesTable binary raws) := List.filter_map

/-- A line shows the same text wherever the table is. -/
theorem text_shownAt?_of_perm {text moved raw : Text} {number number' : Nat}
    (hperm : (Text.lines text).Perm (Text.lines moved))
    (hraw : (Text.lines text)[number]? = some raw)
    (hraw' : (Text.lines moved)[number']? = some raw) :
    (shownAt? filters text number).map (·.text) =
      (shownAt? filters moved number').map (·.text) := by
  obtain ⟨entry, hentry, rfl, hline⟩ := exists_entry_of_getElem? hraw
  obtain ⟨entry', hentry', hsame, hline'⟩ := exists_entry_of_getElem? hraw'
  have hlines : entry.line = entry'.line := hline.trans hline'.symm
  have hhidden : entry.hidden filters (referenced text) =
      entry'.hidden filters (referenced moved) :=
    hidden_congr hsame.symm hlines fun name => mem_referenced_of_perm hperm
  have hshown : entry.shown filters = entry'.shown filters := by
    rw [Entry.shown, Entry.shown, hlines]
  rw [shownAt?_of_getElem? hentry, shownAt?_of_getElem? hentry', hhidden]
  split
  · rfl
  · exact congrArg (fun shown => some (String.ofList shown)) hshown

/-! ### Sources -/

/-- **The position in force at two places** with the same markers in front is the same if the last
marker finds the same. -/
theorem current_after_eq_iff {behind behind' : List Text} (h : Unambiguous lines)
    (hsub : behind ⊆ lines) (hsub' : behind' ⊆ lines)
    (heq : behind.filter (!isFileLine ·) = behind'.filter (!isFileLine ·)) :
    (Tracker.after {} behind).current = (Tracker.after {} behind').current ↔
      ∀ index ahead ahead', LooksUp behind ahead index → LooksUp behind' ahead' index →
        (Declared ahead index ↔ Declared ahead' index) := by
  have hkept : ∀ line, IsMarker line → (!isFileLine line) = true := by
    intro line hline
    rw [not_isFileLine_of_isMarker hline]
    rfl
  rcases exists_markedAfter behind with hnone | ⟨ahead, marker, hmarked⟩
  case inl =>
    -- a marker at the other place would be one of the lines that both places share
    have hnone' : ∀ line ∈ behind', ¬ IsMarker line := by
      refine (exists_markedAfter behind').resolve_right ?_
      rintro ⟨ahead', marker', hmarked'⟩
      obtain ⟨ahead, hmarked⟩ := hmarked'.of_filter_eq hkept heq.symm
      exact hnone marker' hmarked.mem hmarked.1
    rw [Tracker.current_after_unmarked hnone, Tracker.current_after_unmarked hnone']
    refine iff_of_true rfl ?_
    rintro index ahead ahead' ⟨marker, number, hmarked, -⟩ -
    exact absurd hmarked.1 (hnone marker hmarked.mem)
  case inr =>
    obtain ⟨ahead', hmarked'⟩ := hmarked.of_filter_eq hkept heq
    rw [Tracker.current_after_of_markedAfter hmarked, Tracker.current_after_of_markedAfter hmarked']
    rcases hmarked.1 with ⟨position, hcomment⟩ | ⟨index, number, hrefers⟩
    · -- a comment says all by itself
      rw [Tracker.next_of_comment _ hcomment, Tracker.next_of_comment _ hcomment]
      refine iff_of_true rfl ?_
      rintro index other other' ⟨marker', number, hother, hrefers⟩ -
      obtain ⟨-, rfl⟩ := hmarked.unique hother
      exact absurd hrefers hcomment.not_refers
    · -- both places have the same last marker, but not the same lines in front of it
      have hfile : (Tracker.after {} ahead).file? index = (Tracker.after {} ahead').file? index ↔
          (Declared ahead index ↔ Declared ahead' index) :=
        file?_after_eq_iff h (List.Subset.trans hmarked.front_subset hsub)
          (List.Subset.trans hmarked'.front_subset hsub')
      rw [Tracker.next_of_refers _ hrefers, Tracker.next_of_refers _ hrefers, Option.some.injEq,
        SourcePosition.mk.injEq, and_iff_left rfl, hfile]
      constructor
      · rintro hdeclared index' other other' ⟨marker', number', hother, hrefers'⟩
          ⟨marker'', number'', hother', -⟩
        obtain ⟨rfl, rfl⟩ := hmarked.unique hother
        obtain ⟨rfl, rfl⟩ := hmarked'.unique hother'
        obtain ⟨rfl, -⟩ := hrefers.eq hrefers'
        exact hdeclared
      · intro hdeclared
        exact hdeclared index ahead ahead' ⟨marker, number, hmarked, hrefers⟩
          ⟨marker, number, hmarked', hrefers⟩

variable {text moved : String} {front back front' back' : List Text} {raw raw' : Text}

/-- **Which lines keep their source when the table is moved**: the last marker in front of a line
looks up the number of its file among the lines in front of the marker. The line keeps its source
just if the number is found at both places or at neither; it shows the same text in any case. -/
theorem source_of_moved_table
    (htable : TableMoved filters.binary (Text.lines text.toList) (Text.lines moved.toList))
    (hfiles : Unambiguous (readLines filters.binary text.toList))
    (hplace : Text.lines text.toList = front ++ raw :: back)
    (hplace' : Text.lines moved.toList = front' ++ raw' :: back')
    (hraw : isFileLine (Text.trim (readLine filters.binary raw)) = false)
    (hraw' : isFileLine (Text.trim (readLine filters.binary raw')) = false)
    (hfront : (besidesTable filters.binary front).length =
      (besidesTable filters.binary front').length) :
    raw = raw' ∧
    (shownAt? filters text.toList front.length).map (·.text) =
      (shownAt? filters moved.toList front'.length).map (·.text) ∧
    ∀ shown shown', shownAt? filters text.toList front.length = some shown →
      shownAt? filters moved.toList front'.length = some shown' →
      (shown.source = shown'.source ↔
        (Attributed (Text.trim (readLine filters.binary raw)) → ∀ index ahead ahead',
          LooksUp (trimmedLines filters.binary (front ++ [raw])) ahead index →
          LooksUp (trimmedLines filters.binary (front' ++ [raw])) ahead' index →
          (Declared ahead index ↔ Declared ahead' index))) := by
  -- with as many other lines in front, the two lines are the same one
  have hbesides := htable.besides_eq
  rw [hplace, hplace', besidesTable_place hraw, besidesTable_place hraw'] at hbesides
  obtain ⟨hfronts, hbehind⟩ := List.append_inj hbesides hfront
  obtain ⟨rfl, -⟩ := List.cons.inj hbehind
  have hline : (Text.lines text.toList)[front.length]? = some raw := by simp [hplace]
  have hline' : (Text.lines moved.toList)[front'.length]? = some raw := by simp [hplace']
  have hsub : front ++ [raw] ⊆ Text.lines text.toList := by simp [hplace]
  have hsub' : front' ++ [raw] ⊆ Text.lines text.toList := by
    have hmoved : front' ++ [raw] ⊆ Text.lines moved.toList := by simp [hplace']
    exact List.Subset.trans hmoved htable.perm.symm.subset
  refine ⟨rfl, text_shownAt?_of_perm htable.perm hline hline', ?_⟩
  intro shown shown' hshown hshown'
  by_cases hattributed : Attributed (Text.trim (readLine filters.binary raw))
  case neg =>
    rw [source_of_not_attributed hshown hline hattributed,
      source_of_not_attributed hshown' hline' hattributed]
    exact iff_of_true rfl fun h => absurd h hattributed
  case pos =>
    rw [source_of_place hplace hshown hattributed, source_of_place hplace' hshown' hattributed,
      imp_iff_right hattributed]
    refine current_after_eq_iff hfiles (List.map_subset _ hsub) (List.map_subset _ hsub') ?_
    rw [filter_trimmedLines, filter_trimmedLines, besidesTable_place hraw, besidesTable_place hraw,
      hfronts]

/-- A table that is moved behind an instruction, but not behind the directive that uses it. -/
theorem source_of_moved_table_one_line :
    let text := ".file 1 \"a.cu\"\nadd;\n.loc 1 4 0\nret;\n"
    let moved := "add;\n.file 1 \"a.cu\"\n.loc 1 4 0\nret;\n"
    ∃ shown shown', shownAt? {} text.toList 3 = some shown ∧
      shownAt? {} moved.toList 3 = some shown' ∧ shown.source = shown'.source := by
  intro text moved
  let filters : Filters := {}
  obtain ⟨shown, hshown⟩ : ∃ shown, shownAt? filters text.toList 3 = some shown :=
    Option.isSome_iff_exists.mp (by decide)
  obtain ⟨shown', hshown'⟩ : ∃ shown, shownAt? filters moved.toList 3 = some shown :=
    Option.isSome_iff_exists.mp (by decide)
  let table : Text := ".file 1 \"a.cu\"".toList
  let marker : Text := ".loc 1 4 0".toList
  have hdeclares : Declares table 1 "a.cu" := ⟨_, _, _, rfl, by decide, by decide⟩
  have hrefers : Refers marker 1 4 := ⟨_, _, _, rfl, by decide, by decide⟩
  have hadd : ¬ IsMarker "add;".toList := fun h => absurd (head?_words_of_isMarker h) (by decide)
  have hret : ¬ IsMarker "ret;".toList := fun h => absurd (head?_words_of_isMarker h) (by decide)
  have hbehind : ∀ line ∈ ["ret;".toList], ¬ IsMarker line := by
    intro line hline
    obtain rfl := List.mem_singleton.mp hline
    exact hret
  have htable : TableMoved filters.binary (Text.lines text.toList) (Text.lines moved.toList) :=
    { perm := by decide
      besides_eq := by decide }
  have hfiles : Unambiguous (readLines filters.binary text.toList) := by
    have hlines : readLines filters.binary text.toList =
        [table, "add;".toList, marker, "ret;".toList] := by decide
    rw [hlines]
    refine (declaredOnce_cons hdeclares (by decide) ?_).unambiguous
    intro other hother index number hother'
    simp only [List.mem_cons, List.not_mem_nil, or_false] at hother
    rcases hother with rfl | rfl | rfl
    · exact absurd hother'.isMarker hadd
    · exact (hother'.eq hrefers).1
    · exact absurd hother'.isMarker hret
  have hplace : Text.lines text.toList =
      [table, "add;".toList, marker] ++ "ret;".toList :: [] := by decide
  have hplace' : Text.lines moved.toList =
      ["add;".toList, table, marker] ++ "ret;".toList :: [] := by decide
  have hraw : isFileLine (Text.trim (readLine filters.binary "ret;".toList)) = false := by decide
  obtain ⟨-, -, hsource⟩ :=
    source_of_moved_table htable hfiles hplace hplace' hraw hraw (by decide)
  -- the marker is behind the table at both places
  have hmarked : MarkedAfter
      (trimmedLines filters.binary ([table, "add;".toList, marker] ++ ["ret;".toList]))
      [table, "add;".toList] marker := ⟨hrefers.isMarker, ["ret;".toList], by decide, hbehind⟩
  have hmarked' : MarkedAfter
      (trimmedLines filters.binary (["add;".toList, table, marker] ++ ["ret;".toList]))
      ["add;".toList, table] marker := ⟨hrefers.isMarker, ["ret;".toList], by decide, hbehind⟩
  refine ⟨shown, shown', hshown, hshown', (hsource shown shown' hshown hshown').mpr ?_⟩
  rintro - index ahead ahead' ⟨other, number, hother, hindex⟩ ⟨other', number', hother', -⟩
  obtain ⟨rfl, rfl⟩ := hmarked.unique hother
  obtain ⟨rfl, rfl⟩ := hmarked'.unique hother'
  obtain ⟨rfl, -⟩ := hrefers.eq hindex
  exact iff_of_true ⟨table, by simp, "a.cu", hdeclares⟩ ⟨table, by simp, "a.cu", hdeclares⟩

/-- A table that is moved behind the directive that uses it. -/
theorem table_behind_use_loses_file :
    ¬ ∀ (filters : Filters) (text moved : String) (front back front' back' : List Text)
      (raw : Text) (shown shown' : Line),
      TableMoved filters.binary (Text.lines text.toList) (Text.lines moved.toList) →
      DeclaredOnce (readLines filters.binary text.toList) →
      Text.lines text.toList = front ++ raw :: back →
      Text.lines moved.toList = front' ++ raw :: back' →
      isFileLine (Text.trim (readLine filters.binary raw)) = false →
      (besidesTable filters.binary front).length = (besidesTable filters.binary front').length →
      shownAt? filters text.toList front.length = some shown →
      shownAt? filters moved.toList front'.length = some shown' →
      shown.source = shown'.source := by
  intro hsame
  have hdeclares : Declares ".file 1 \"a.cu\"".toList 1 "a.cu" :=
    ⟨_, _, _, rfl, by decide, by decide⟩
  have hrefers : Refers ".loc 1 4 0".toList 1 4 := ⟨_, _, _, rfl, by decide, by decide⟩
  have htable : TableMoved false (Text.lines ".file 1 \"a.cu\"\n.loc 1 4 0\nret;\n".toList)
      (Text.lines ".loc 1 4 0\nret;\n.file 1 \"a.cu\"\n".toList) :=
    { perm := by decide
      besides_eq := by decide }
  have honce : DeclaredOnce (readLines false ".file 1 \"a.cu\"\n.loc 1 4 0\nret;\n".toList) := by
    have hlines : readLines false ".file 1 \"a.cu\"\n.loc 1 4 0\nret;\n".toList =
        [".file 1 \"a.cu\"".toList, ".loc 1 4 0".toList, "ret;".toList] := by decide
    rw [hlines]
    refine declaredOnce_cons hdeclares (by decide) ?_
    intro other hother index number hother'
    rcases List.mem_cons.mp hother with rfl | hother
    · exact (hother'.eq hrefers).1
    · obtain rfl := List.mem_singleton.mp hother
      exact absurd (head?_words_of_isMarker hother'.isMarker) (by decide)
  have hlost := hsame {} ".file 1 \"a.cu\"\n.loc 1 4 0\nret;\n"
    ".loc 1 4 0\nret;\n.file 1 \"a.cu\"\n" [".file 1 \"a.cu\"".toList, ".loc 1 4 0".toList] []
    [".loc 1 4 0".toList] [".file 1 \"a.cu\"".toList] "ret;".toList
    { text := "ret;", source := some { file := some "a.cu", line := 4 } }
    { text := "ret;", source := some { file := none, line := 4 } }
    htable honce (by decide) (by decide) (by decide) (by decide) (by decide) (by decide)
  exact absurd hlost (by decide)

end AsmInspect.Listing

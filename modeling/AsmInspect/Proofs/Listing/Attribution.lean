import AsmInspect.Proofs.Listing.Positions

/-!
# Lines behind markers

A line that is neither blank nor a label comes from where the tracker stands behind it. What a line
does to the tracker is known from its kind, and a line that is no marker leaves the position in
force. So what matters of the lines in front of a line is the last marker among them, and the files
that were known there; a list of lines has at most one last marker.

## Main definitions

* `Listing.trimmedLines`: lines as they are read
* `Listing.Attributed`: a line that comes from somewhere
* `Listing.MarkedAfter`: the last marker of some lines and the lines in front of it

## Main results

* `Listing.source_of_place`: where a line comes from is where the tracker stands behind it
* `Listing.Tracker.current_after_unmarked`: lines without markers leave the position in force
* `Listing.MarkedAfter.unique`: there is one last marker
-/

namespace AsmInspect.Listing

/-- Lines as they are read, without blanks around them. -/
def trimmedLines (binary : Bool) (raws : List Text) : List Text :=
  raws.map fun raw => Text.trim (readLine binary raw)

/-- A line that comes from somewhere, given without blanks around it: neither a blank line nor one
that defines a label. -/
structure Attributed (line : Text) : Prop where
  ne_nil : line ≠ []
  unlabelled : ∀ name, ¬ DefinesLabel line name

/-- **The last marker of some lines**, and the lines in front of it. -/
def MarkedAfter (lines front : List Text) (marker : Text) : Prop :=
  IsMarker marker ∧ ∃ rest, lines = front ++ marker :: rest ∧ ∀ line ∈ rest, ¬ IsMarker line

variable {lines front front' : List Text} {line marker marker' raw text : Text}
  {position : SourcePosition} {index number : Nat} {name : String} {filters : Filters}
  {shown : Line}

/-- The first word of a marker is one of two. -/
theorem head?_words_of_isMarker (h : IsMarker line) :
    (Text.words line).head? = some "//##".toList ∨
      (Text.words line).head? = some ".loc".toList := by
  rcases h with ⟨position, hmarks⟩ | ⟨index, number, first, second, rest, hwords, -⟩
  · obtain ⟨rest, hwords⟩ := hmarks.exists_words
    exact .inl (congrArg List.head? hwords)
  · exact .inr (congrArg List.head? hwords)

theorem trimmedLines_append (binary : Bool) (raws more : List Text) :
    trimmedLines binary (raws ++ more) = trimmedLines binary raws ++ trimmedLines binary more :=
  List.map_append

theorem Entry.source_of_attributed {entry : Entry} (h : Attributed entry.core) :
    entry.source = entry.position := by
  have hlabel : label? entry.core = none := label?_eq_none_iff.mpr h.unlabelled
  simp [Entry.source, hlabel, h.ne_nil]

/-- Blank lines and labels come from nowhere. -/
theorem Entry.source_of_not_attributed {entry : Entry} (h : ¬ Attributed entry.core) :
    entry.source = none := by
  refine if_pos ?_
  by_contra hnot
  rw [Bool.or_eq_true, not_or, List.isEmpty_iff] at hnot
  refine h ⟨hnot.2, label?_eq_none_iff.mp ?_⟩
  simpa using hnot.1

/-- A line that is shown has the source of its entry. -/
theorem exists_entry_of_shownAt? (hshown : shownAt? filters text number = some shown)
    (hraw : (Text.lines text)[number]? = some raw) :
    ∃ entry : Entry, entry.core = Text.trim (readLine filters.binary raw) ∧
      entry.position =
        (Tracker.after {} ((readLines filters.binary text).take (number + 1))).current ∧
      shown.source = entry.source := by
  obtain ⟨entry, hentry, -, rfl⟩ := shownAt?_eq_some_iff.mp hshown
  obtain ⟨hraw', hread, hposition⟩ := entry_of_getElem? hentry
  obtain rfl := Option.some.inj (hraw.symm.trans hraw')
  exact ⟨entry, congrArg Text.trim hread, hposition, rfl⟩

theorem source_of_not_attributed (hshown : shownAt? filters text number = some shown)
    (hraw : (Text.lines text)[number]? = some raw)
    (hline : ¬ Attributed (Text.trim (readLine filters.binary raw))) : shown.source = none := by
  obtain ⟨entry, hcore, -, hsource⟩ := exists_entry_of_shownAt? hshown hraw
  rw [← hcore] at hline
  rw [hsource, Entry.source_of_not_attributed hline]

/-- **Where a line comes from** is where the tracker stands behind it. -/
theorem source_of_place {back : List Text} (hplace : Text.lines text = front ++ raw :: back)
    (hshown : shownAt? filters text front.length = some shown)
    (hline : Attributed (Text.trim (readLine filters.binary raw))) :
    shown.source = (Tracker.after {} (trimmedLines filters.binary (front ++ [raw]))).current := by
  have hraw : (Text.lines text)[front.length]? = some raw := by simp [hplace]
  have htake : (Text.lines text).take (front.length + 1) = front ++ [raw] := by
    rw [hplace, ← List.singleton_append, ← List.append_assoc]
    exact List.take_left' (by simp)
  obtain ⟨entry, hcore, hposition, hsource⟩ := exists_entry_of_shownAt? hshown hraw
  rw [← hcore] at hline
  rw [hsource, Entry.source_of_attributed hline, hposition, readLines, ← List.map_take, htake,
    trimmedLines]

/-! ### The tracker -/

namespace Tracker

variable (tracker : Tracker)

theorem after_append (lines more : List Text) :
    tracker.after (lines ++ more) = (tracker.after lines).after more := List.foldl_append

theorem next_of_comment (h : IsMarkerComment line position) :
    tracker.next line = { tracker with current := some position } := by
  have hcases := next_cases tracker line
  generalize tracker.next line = next at hcases ⊢
  cases hcases with
  | comment hmarks => rw [h.position_eq hmarks]
  | refers hrefers => exact absurd hrefers h.not_refers
  | declares hdeclares => exact absurd hdeclares h.not_declares
  | other hmarks => exact absurd h (hmarks position)

theorem next_of_refers (h : Refers line index number) :
    tracker.next line = { tracker with
      current := some { file := tracker.file? index, line := number.toUInt32 } } := by
  have hcases := next_cases tracker line
  generalize tracker.next line = next at hcases ⊢
  cases hcases with
  | comment hmarks => exact absurd h hmarks.not_refers
  | refers hrefers =>
    obtain ⟨rfl, rfl⟩ := h.eq hrefers
    rfl
  | declares hdeclares => exact absurd hdeclares h.not_declares
  | other _ hrefers => exact absurd h (hrefers index number)

theorem next_of_declares (h : Declares line index name) :
    tracker.next line = { tracker with files := (index, name) :: tracker.files } := by
  have hcases := next_cases tracker line
  generalize tracker.next line = next at hcases ⊢
  cases hcases with
  | comment hmarks => exact absurd h hmarks.not_declares
  | refers hrefers => exact absurd h hrefers.not_declares
  | declares hdeclares =>
    obtain ⟨rfl, rfl⟩ := h.eq hdeclares
    rfl
  | other _ _ hdeclares => exact absurd h (hdeclares index name)

variable {tracker}

/-- A line that is no marker leaves the position in force. -/
theorem current_next_of_not_isMarker (h : ¬ IsMarker line) :
    (tracker.next line).current = tracker.current := by
  have hcases := next_cases tracker line
  generalize tracker.next line = next at hcases ⊢
  cases hcases with
  | comment hmarks => exact absurd hmarks.isMarker h
  | refers hrefers => exact absurd hrefers.isMarker h
  | declares => rfl
  | other => rfl

/-- **Lines without markers** leave the position in force. -/
theorem current_after_unmarked (h : ∀ line ∈ lines, ¬ IsMarker line) :
    (tracker.after lines).current = tracker.current := by
  induction lines generalizing tracker with
  | nil => rfl
  | cons line rest ih =>
    have hrest : ((tracker.next line).after rest).current = (tracker.next line).current :=
      ih fun other hother => h other (List.mem_cons_of_mem _ hother)
    exact hrest.trans (current_next_of_not_isMarker (h line (List.mem_cons_self ..)))

/-- The position in force after some lines is the one behind the last marker. -/
theorem current_after_of_markedAfter (h : MarkedAfter lines front marker) :
    (tracker.after lines).current = ((tracker.after front).next marker).current := by
  obtain ⟨-, rest, rfl, hrest⟩ := h
  rw [after_append]
  exact current_after_unmarked hrest

end Tracker

/-! ### The last marker -/

/-- There is a last marker, or no line is a marker. -/
theorem exists_markedAfter (lines : List Text) :
    (∀ line ∈ lines, ¬ IsMarker line) ∨ ∃ front marker, MarkedAfter lines front marker := by
  induction lines with
  | nil => exact .inl fun line hline => absurd hline List.not_mem_nil
  | cons line rest ih =>
    rcases ih with hnone | ⟨front, marker, hmarker, behind, rfl, hbehind⟩
    · by_cases hline : IsMarker line
      · exact .inr ⟨[], line, hline, rest, rfl, hnone⟩
      · exact .inl (List.forall_mem_cons.mpr ⟨hline, hnone⟩)
    · exact .inr ⟨line :: front, marker, hmarker, behind, rfl, hbehind⟩

theorem MarkedAfter.mem (h : MarkedAfter lines front marker) : marker ∈ lines := by
  obtain ⟨-, rest, rfl, -⟩ := h
  exact List.mem_append_right _ (List.mem_cons_self ..)

theorem MarkedAfter.front_subset (h : MarkedAfter lines front marker) : front ⊆ lines := by
  obtain ⟨-, rest, rfl, -⟩ := h
  exact List.subset_append_left ..

/-- **There is one last marker.** -/
theorem MarkedAfter.unique (h : MarkedAfter lines front marker)
    (h' : MarkedAfter lines front' marker') : front = front' ∧ marker = marker' := by
  obtain ⟨hmarker, rest, rfl, hrest⟩ := h
  obtain ⟨hmarker', rest', hlines, hrest'⟩ := h'
  -- the marker that is further behind would be among the lines behind the other one
  rcases List.append_eq_append_iff.mp hlines with ⟨gap, rfl, hgap⟩ | ⟨gap, rfl, hgap⟩
  · cases gap with
    | nil =>
      rw [List.nil_append] at hgap
      exact ⟨(List.append_nil front).symm, (List.cons.inj hgap).1⟩
    | cons line gap =>
      obtain ⟨-, rfl⟩ := List.cons.inj hgap
      exact absurd hmarker' (hrest marker' (by simp))
  · cases gap with
    | nil =>
      rw [List.nil_append] at hgap
      exact ⟨List.append_nil front', (List.cons.inj hgap).1.symm⟩
    | cons line gap =>
      obtain ⟨-, rfl⟩ := List.cons.inj hgap
      exact absurd hmarker (hrest' marker (by simp))

end AsmInspect.Listing

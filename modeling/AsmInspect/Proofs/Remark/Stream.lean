import AsmInspect.Proofs.Remark.Printed

/-!
# Records as streams of documents

A record can be read line by line with no more at hand than the remarks that are done, the one that
is being read and whether its argument list is. Nothing of a document gets into the next one that
way, however the document ends: by the line that closes it, by the line that opens the next one, or
not at all. So two records one behind the other are read as what each of them is read as, a record
has one remark for each line that opens a document, and text that is in no document has no effect.

The induction is on the lines still to be read, with any progress made so far: of what is at hand
only the open document goes on, up to the first line that opens or closes one.

## Main definitions

* `Remark.Record.Progress`: a record that is being read line by line
* `Remark.Record.remaining`: the lines of an open document that are still to come
* `Remark.Record.Begins`, `Remark.Record.Names`: a text that goes on with a document, and the kind
  that a document names

## Main results

* `Remark.Record.Progress.remarks_after`: what is read from some lines, whatever has been read before
* `Remark.ofRecord_eq_remarks`: the remarks of a record, read line by line
* `Remark.Record.next_cases`: what a line does to the remark that is being read
* `Remark.Record.forall₂_opening`: a remark for each line that opens a document
* `Remark.documents_independent`: documents do not depend on each other
-/

namespace AsmInspect.Remark

namespace Record

/-! ### One line after the other -/

/-- Whether a line ends the document that is open. -/
def bounds (line : Text) : Bool := documentOpen.isPrefixOf line || closes line

/-- The lines of an open document that are still to come. -/
def remaining (lines : List Text) : List Text := lines.takeWhile (!bounds ·)

/-- **A record that is being read line by line**: the remarks that are done, and the one that is
being read. -/
structure Progress where
  done : List Remark := []
  current : Option Draft := none

namespace Progress

/-- The remarks, if nothing follows. -/
def remarks (progress : Progress) : List Remark :=
  progress.done ++ progress.current.toList.map (·.remark)

/-- What one more line does. -/
def next (progress : Progress) (line : Text) : Progress :=
  match Text.after? documentOpen line with
  | some tag => { done := progress.remarks, current := some { remark := { kind := kindOf tag } } }
  | none =>
    match progress.current with
    | none => progress
    | some draft =>
      if closes line then { done := progress.remarks }
      else { progress with current := some (draft.next line) }

/-- What some more lines do. -/
def after (progress : Progress) (lines : List Text) : Progress := lines.foldl next progress

end Progress

variable {line tag : Text} {lines : List Text}

theorem isPrefixOf_opening (tag : Text) : documentOpen.isPrefixOf (documentOpen ++ tag) = true :=
  List.isPrefixOf_iff_prefix.mpr (List.prefix_append ..)

theorem after?_eq_none_iff : Text.after? documentOpen line = none ↔ ¬ documentOpen <+: line := by
  rw [← List.isPrefixOf_iff_prefix, Text.after?]
  split
  case isTrue h => exact iff_of_false (by simp) (not_not.mpr h)
  case isFalse h => exact iff_of_true rfl h

/-- A line opens a document, or it is passed on to the open one. -/
theorem opening_or_not (line : Text) :
    (∃ tag, line = documentOpen ++ tag) ∨ Text.after? documentOpen line = none := by
  cases h : Text.after? documentOpen line with
  | none => exact .inr rfl
  | some tag => exact .inl ⟨tag, Text.after?_eq_some_iff.mp h⟩

/-- A line that opens no document is pending. -/
theorem cutDocuments_cons (h : Text.after? documentOpen line = none) (rest : List Text) :
    cutDocuments (line :: rest) = (line :: (cutDocuments rest).1, (cutDocuments rest).2) :=
  cutDocuments_append (fun _ hmem => List.mem_singleton.mp hmem ▸ h) rest

/-- The lines of a document end where the next one is opened, and are read up to the line that
closes it. -/
theorem takeWhile_cutDocuments (lines : List Text) :
    (cutDocuments lines).1.takeWhile (!closes ·) = remaining lines := by
  induction lines with
  | nil => rfl
  | cons line rest ih =>
    rcases opening_or_not line with ⟨tag, rfl⟩ | hline
    · have hbounds : bounds (documentOpen ++ tag) = true := by
        rw [bounds, isPrefixOf_opening, Bool.true_or]
      rw [cutDocuments_open, remaining, List.takeWhile_cons, hbounds]
      rfl
    · have hbounds : bounds line = closes line := by
        rw [bounds, Bool.eq_false_iff.mpr fun h =>
          after?_eq_none_iff.mp hline (List.isPrefixOf_iff_prefix.mp h), Bool.false_or]
      rw [cutDocuments_cons hline, List.takeWhile_cons, ih, remaining, remaining,
        List.takeWhile_cons, hbounds]

namespace Progress

variable {progress : Progress}

theorem next_opening (progress : Progress) (tag : Text) : progress.next (documentOpen ++ tag) =
    { done := progress.remarks, current := some { remark := { kind := kindOf tag } } } := by
  rw [next, Text.after?_append]

/-- **What is read from some lines**: the open document goes on as far as it reaches, and the
documents opened there are read as if they stood alone. -/
theorem remarks_after (progress : Progress) (lines : List Text) :
    (progress.after lines).remarks = progress.done ++
      (progress.current.toList.map fun draft => ((remaining lines).foldl Draft.next draft).remark) ++
      (documents lines).map read := by
  induction lines generalizing progress with
  | nil => exact (List.append_nil _).symm
  | cons line rest ih =>
    have hafter : progress.after (line :: rest) = (progress.next line).after rest := rfl
    rw [hafter, ih]
    rcases opening_or_not line with ⟨tag, rfl⟩ | hline
    · -- what was open is done, and the new document goes on
      have hremaining : remaining ((documentOpen ++ tag) :: rest) = [] := by
        rw [← takeWhile_cutDocuments, cutDocuments_open]
        rfl
      rw [next_opening, hremaining, documents, documents, cutDocuments_open, List.map_cons, read,
        takeWhile_cutDocuments]
      simp [remarks]
    · have hdocuments : documents (line :: rest) = documents rest := by
        rw [documents, cutDocuments_cons hline, documents]
      have hremaining : remaining (line :: rest) =
          if closes line then [] else line :: remaining rest := by
        rw [← takeWhile_cutDocuments, cutDocuments_cons hline, List.takeWhile_cons,
          takeWhile_cutDocuments]
        cases closes line <;> rfl
      rw [hdocuments, hremaining, next, hline]
      cases hcurrent : progress.current with
      | none => simp [hcurrent]
      | some draft => cases closes line <;> simp [remarks, hcurrent]

/-- Lines that open no document change nothing if none is open. -/
theorem after_of_idle (hcurrent : progress.current = none)
    (h : ∀ line ∈ lines, ¬ documentOpen <+: line) : progress.after lines = progress := by
  induction lines with
  | nil => rfl
  | cons line rest ih =>
    have hnext : progress.next line = progress := by
      rw [next, after?_eq_none_iff.mpr (h line (List.mem_cons_self ..)), hcurrent]
    have hrest := ih fun l hl => h l (List.mem_cons_of_mem _ hl)
    rw [after, List.foldl_cons, hnext]
    exact hrest

/-- No document is open behind a line that closes one. -/
theorem current_next_of_closes (h : closes line = true) : (progress.next line).current = none := by
  -- such a line opens none, since its first character that is no blank is a dot
  have hnone : Text.after? documentOpen line = none := by
    refine (opening_or_not line).resolve_left ?_
    rintro ⟨tag, rfl⟩
    have hdots : Text.trim (documentOpen ++ tag) = ['.', '.', '.'] := by simpa [closes] using h
    have hmem : '!' ∈ Text.trim (documentOpen ++ tag) := by
      rw [Text.mem_trim_iff (by decide)]
      exact List.mem_append_left _ (by decide)
    rw [hdots] at hmem
    exact absurd hmem (by decide)
  rw [next, hnone]
  cases hcurrent : progress.current with
  | none => exact hcurrent
  | some draft =>
    dsimp only
    rw [if_pos h]

theorem after_append (progress : Progress) (first second : List Text) :
    progress.after (first ++ second) = (progress.after first).after second := List.foldl_append

end Progress

/-! ### Documents one behind the other -/

/-- A text that goes on with a document, if it goes on at all. -/
def Begins (text : Text) : Prop := text = [] ∨ documentOpen <+: text

instance (text : Text) : Decidable (Begins text) := inferInstanceAs (Decidable (_ ∨ _))

/-- Of a text that goes on with a document nothing belongs to the one before. -/
theorem remaining_of_begins {text : Text} (h : Begins text) : remaining (Text.lines text) = [] := by
  rcases h with rfl | ⟨rest, rfl⟩
  · rfl
  · obtain ⟨tag, others, hlines⟩ :=
      Text.exists_lines_eq_cons (show documentOpen ≠ [] by decide) (by decide) (by decide) rest
    rw [hlines, ← takeWhile_cutDocuments, cutDocuments_open]
    rfl

/-- **A text that goes on with a document** adds its own remarks to those that were read before. -/
theorem Progress.remarks_after_of_begins (progress : Progress) {text : Text} (h : Begins text) :
    (progress.after (Text.lines text)).remarks =
      progress.remarks ++ (Progress.after {} (Text.lines text)).remarks := by
  rw [remarks_after, remarks_after, remaining_of_begins h]
  rfl

/-! ### Kinds -/

/-- **The kind that a document names**: the one with this name, or else another one. -/
def Names (tag : Text) (kind : Kind) : Prop :=
  Text.trim tag = kind.tag ∨ kind = .other ∧ ∀ named : Kind, Text.trim tag ≠ named.tag

theorem names_kindOf (tag : Text) : Names tag (kindOf tag) := by
  unfold kindOf
  dsimp only
  split
  case isTrue h => exact .inl (eq_of_beq h)
  case isFalse hpassed =>
    split
    case isTrue h => exact .inl (eq_of_beq h)
    case isFalse hmissed =>
      split
      case isTrue h => exact .inl (eq_of_beq h)
      case isFalse hanalysis =>
        by_cases hother : Text.trim tag = Kind.other.tag
        · exact .inl hother
        · refine .inr ⟨rfl, fun named => ?_⟩
          cases named with
          | passed => exact fun h => hpassed (beq_iff_eq.mpr h)
          | missed => exact fun h => hmissed (beq_iff_eq.mpr h)
          | analysis => exact fun h => hanalysis (beq_iff_eq.mpr h)
          | other => exact hother

/-- **What a line does to a draft**: it adds to the message, or it is read as a field once the
argument list is over. -/
theorem next_cases (draft : Draft) (line : Text) :
    (∃ added, draft.next line = draft.saying added) ∨
      draft.next line = { draft with inArgs := false }.withField line := by
  unfold Draft.next
  split
  case isTrue =>
    split
    case h_1 item _ => exact .inl ⟨argument item, rfl⟩
    case h_2 =>
      split
      · exact .inl ⟨"", draft.saying_empty.symm⟩
      · exact .inr rfl
  case isFalse hargs =>
    obtain ⟨remark, inArgs⟩ := draft
    obtain rfl : inArgs = false := by simpa using hargs
    exact .inr rfl

/-- No field changes the kind. -/
theorem kind_withField (draft : Draft) (line : Text) :
    (draft.withField line).remark.kind = draft.remark.kind := by
  unfold Draft.withField
  split
  · rfl
  · dsimp only
    split_ifs <;> rfl

theorem kind_next (draft : Draft) (line : Text) :
    (draft.next line).remark.kind = draft.remark.kind := by
  rcases next_cases draft line with ⟨added, hnext⟩ | hnext
  · rw [hnext]
    rfl
  · rw [hnext, kind_withField]

theorem kind_foldl_next (draft : Draft) (lines : List Text) :
    (lines.foldl Draft.next draft).remark.kind = draft.remark.kind := by
  induction lines generalizing draft with
  | nil => rfl
  | cons line rest ih => rw [List.foldl_cons, ih, kind_next]

/-- **A remark for each line that opens a document**, in their order, of the kind that it names. -/
theorem forall₂_opening (lines : List Text) :
    List.Forall₂ (fun line remark => ∃ tag, line = documentOpen ++ tag ∧ Names tag remark.kind)
      (lines.filter (documentOpen.isPrefixOf ·)) ((documents lines).map read) := by
  induction lines with
  | nil => exact .nil
  | cons line rest ih =>
    rcases opening_or_not line with ⟨tag, rfl⟩ | hline
    · rw [List.filter_cons, isPrefixOf_opening, if_pos rfl, documents, cutDocuments_open]
      refine .cons ⟨tag, rfl, ?_⟩ ih
      have hkind : (read (tag, (cutDocuments rest).1)).kind = kindOf tag := kind_foldl_next ..
      exact hkind ▸ names_kindOf tag
    · have hprefix : documentOpen.isPrefixOf line = false :=
        Bool.eq_false_iff.mpr fun h => after?_eq_none_iff.mp hline (List.isPrefixOf_iff_prefix.mp h)
      rw [List.filter_cons, hprefix, if_neg Bool.false_ne_true, documents, cutDocuments_cons hline]
      exact ih

end Record

/-- **The remarks of a record**, read line by line. -/
theorem ofRecord_eq_remarks (text : String) :
    ofRecord text = (Record.Progress.after {} (Text.lines text.toList)).remarks := by
  rw [Record.Progress.remarks_after]
  rfl

open Record in
/-- **Documents do not depend on each other.** Read line by line, with no more at hand than the
document that is open, a record has the same remarks. Two records one behind the other, the first of
which ends its last line, have the remarks of the first and then those of the second, if that goes
on with a document. There is one remark for each line that opens a document, in their order, and of
the kind that it names. What stands in front of the first document, or between a line of three dots
and the next document, has no effect. -/
theorem documents_independent :
    (∀ text : String, ofRecord text = (Progress.after {} (Text.lines text.toList)).remarks) ∧
    (∀ first second : String, Text.Ended first.toList → Begins second.toList →
      ofRecord (first ++ second) = ofRecord first ++ ofRecord second) ∧
    (∀ text : String, List.Forall₂
      (fun line remark => ∃ tag, line = documentOpen ++ tag ∧ Names tag remark.kind)
      ((Text.lines text.toList).filter (documentOpen.isPrefixOf ·)) (ofRecord text)) ∧
    ∀ idle rest : String, Text.Ended idle.toList → Begins rest.toList →
      (∀ line ∈ Text.lines idle.toList, ¬ documentOpen <+: line) →
      ofRecord (idle ++ rest) = ofRecord rest ∧
      ∀ front dots : String, Text.Ended front.toList → '\n' ∉ dots.toList →
        Text.trim dots.toList = "...".toList →
        ofRecord (front ++ dots ++ "\n" ++ idle ++ rest) = ofRecord (front ++ dots ++ "\n" ++ rest) := by
  refine ⟨ofRecord_eq_remarks, fun first second hfirst hsecond => ?_,
    fun text => forall₂_opening _, fun idle rest hidle hrest hnone => ⟨?_, ?_⟩⟩
  · rw [ofRecord_eq_remarks, ofRecord_eq_remarks, ofRecord_eq_remarks, String.toList_append,
      Text.lines_append hfirst, Progress.after_append, Progress.remarks_after_of_begins _ hsecond]
  · rw [ofRecord_eq_remarks, ofRecord_eq_remarks, String.toList_append, Text.lines_append hidle,
      Progress.after_append, Progress.after_of_idle rfl hnone]
  · intro front dots hfront hdots hcloses
    have hbehind (behind : String) :
        ofRecord (front ++ dots ++ "\n" ++ behind) =
          ((((Progress.after {} (Text.lines front.toList)).next
            (Text.dropReturn dots.toList)).after (Text.lines behind.toList)).remarks) := by
      have htext : (front ++ dots ++ "\n" ++ behind).toList =
          front.toList ++ (dots.toList ++ '\n' :: behind.toList) := by
        simp
      rw [ofRecord_eq_remarks, htext, Text.lines_append hfront, Text.lines_cons hdots,
        Progress.after_append]
      rfl
    have hclosed : closes (Text.dropReturn dots.toList) = true := by
      rw [closes, ← Text.trim_trimEnd, Text.trimEnd_dropReturn, Text.trim_trimEnd, hcloses]
      rfl
    have hidleRest : front ++ dots ++ "\n" ++ idle ++ rest = front ++ dots ++ "\n" ++ (idle ++ rest) :=
      String.append_assoc
    rw [hidleRest, hbehind, hbehind, String.toList_append,
      Text.lines_append hidle, Progress.after_append,
      Progress.after_of_idle (Progress.current_next_of_closes hclosed) hnone]

/-- An argument list that is still open where the next document begins does not get into it, nor
does a field that stands behind a line of three dots. -/
theorem documents_independent_unclosed :
    let first := "--- !Missed\nPass: a\nArgs:\n  - x: 'b'\n"
    let second := "--- ! Passed\t\n- x: 'c'\n"
    let idle := "Pass: d\n...\n - x: e\n"
    ofRecord (first ++ second) =
        [{ kind := .missed, pass := "a", displayString := "b" }, { kind := .passed }] ∧
      ofRecord (idle ++ second) = [{ kind := .passed }] ∧
      ofRecord (first ++ " ...\r" ++ "\n" ++ idle ++ second) =
        ofRecord (first ++ " ...\r" ++ "\n" ++ second) := by
  intro first second idle
  obtain ⟨-, happend, -, hidle⟩ := documents_independent
  have hfirst : ofRecord first = [{ kind := .missed, pass := "a", displayString := "b" }] := by decide
  have hsecond : ofRecord second = [{ kind := .passed }] := by decide
  obtain ⟨hfront, hdots⟩ := hidle idle second (by decide) (by decide) (by decide)
  refine ⟨?_, hfront.trans hsecond, hdots first " ...\r" (by decide) (by decide) (by decide)⟩
  rw [happend first second (by decide) (by decide), hfirst, hsecond]
  rfl

end AsmInspect.Remark

import AsmInspect.Proofs.Remark.Stream
import Mathlib.Data.List.Forall2

/-!
# Values with quotes of their own

In a record a value in single quotes has its own single quotes written twice. The reader takes off
the quotes that stand around the value and leaves what stands between them as it is. So every value
is read with its single quotes doubled, wherever it stands: in a field, as the file of a place or as
a part of the message. It is read as it was just if it has no single quote.

This is said of any record in which a document is open at some point. The line with the value stands
there, and no line that is still to come of the document sets the same field again; a part of the
message stands where the argument list of the document is being read. What a line does to a field is
said once for all fields: a line that does not begin with the key of a field leaves it alone, and
one that does sets it, in an argument list or outside of one.

## Main definitions

* `Remark.scalar`, `Remark.scalarPlace`: a value, and a place with it, as they are written
* `Remark.Record.Field`: the fields of a remark that a key sets
* `Remark.Record.OpenAt`: a text at whose end a document is open
* `Remark.Record.InArguments`: lines at whose end an argument list is being read
* `Remark.everywhere`: a document with one value in every place

## Main results

* `Remark.Record.Field.get_next_key`, `Remark.Record.Field.get_next_of_not_prefix`: what a line does
  to a field
* `Remark.Record.foldl_next_preceded`: what has been said before does not matter to what follows
* `Remark.Record.OpenAt.exists_kind`: the remark of a document that is open
* `Remark.Record.OpenAt.get_of_field`, `Remark.Record.OpenAt.exists_message`: what a field and an item
  come to in it
* `Remark.quoted_values_doubled`: every value is read with its single quotes doubled
* `Remark.apostrophe_read_twice`: a record whose values have a quote is not read back
-/

namespace AsmInspect.Remark

/-! ### Values as they are written -/

/-- **A value as it is written**: in single quotes, its own single quotes written twice. -/
def scalar (value : String) : Text := quoted (doubled value)

/-- A place as it is written, with such a value for its file. -/
def scalarPlace (place : DebugLoc) : Text := DebugLoc.print { place with file := doubled place.file }

example : scalarPlace { file := "it's,.cu", line := 4, column := 15 } =
    "\x7b File: 'it''s,.cu', Line: 4, Column: 15 \x7d".toList := by decide

theorem newline_not_mem_doubled {value : String} (h : '\n' ∉ value.toList) :
    '\n' ∉ (doubled value).toList := by
  rw [doubled, String.toList_ofList, doubledText, List.mem_flatMap]
  rintro ⟨c, hc, hmem⟩
  split at hmem
  · exact absurd hmem (by decide)
  · exact h (List.mem_singleton.mp hmem ▸ hc)

namespace Record

/-! ### Fields -/

/-- **The fields of a remark that a key sets.** -/
inductive Field where
  | pass
  | name
  | function
  | debugLoc

namespace Field

/-- The key of a field. -/
def key : Field → Text
  | pass => "Pass".toList
  | name => "Name".toList
  | function => "Function".toList
  | debugLoc => "DebugLoc".toList

/-- What a field holds. -/
def Value : Field → Type
  | debugLoc => Option DebugLoc
  | _ => String

/-- What a field of a remark holds. -/
def get : (f : Field) → Remark → f.Value
  | pass => Remark.pass
  | name => Remark.name
  | function => Remark.function
  | debugLoc => Remark.debugLoc

/-- What is read of the text behind the key. -/
def read : (f : Field) → Text → f.Value
  | pass => fun value => String.ofList (unquote value)
  | name => fun value => String.ofList (unquote value)
  | function => fun value => String.ofList (unquote value)
  | debugLoc => DebugLoc.ofText?

variable {f : Field} {line : Text}

theorem colon_not_mem_key (f : Field) : ':' ∉ f.key := by
  cases f <;> decide

/-- A line with the key of a field sets it. -/
theorem get_withField_key (f : Field) (draft : Draft) (value : Text) :
    f.get (draft.withField (field f.key value)).remark = f.read (' ' :: value) := by
  rw [Draft.withField, cutAt?_field f.colon_not_mem_key]
  cases f <;> rfl

/-- A line that does not begin with the key of a field leaves it alone. -/
theorem get_withField_of_not_prefix (h : ¬ f.key ++ [':'] <+: line) (draft : Draft) :
    f.get (draft.withField line).remark = f.get draft.remark := by
  unfold Draft.withField
  split
  case h_1 => rfl
  case h_2 key value hcut =>
    -- the key in front of the first colon is another one
    have hne : key ≠ f.key := by
      rintro rfl
      refine h ⟨value, ?_⟩
      rw [(Text.cutAt?_eq_some_iff.mp hcut).1]
      simp
    dsimp only
    split_ifs with hpass hname hfunction hdebugLoc
    · cases f <;> first | rfl | exact absurd (eq_of_beq hpass) hne
    · cases f <;> first | rfl | exact absurd (eq_of_beq hname) hne
    · cases f <;> first | rfl | exact absurd (eq_of_beq hfunction) hne
    · cases f <;> first | rfl | exact absurd (eq_of_beq hdebugLoc) hne
    · rfl
    · rfl

end Field

variable {draft : Draft} {line : Text} {lines : List Text}

/-- A line that begins with no blank and no dash is read as a field. -/
theorem next_of_head {c : Char} {rest : Text} (hblank : Text.isBlank c = false) (hdash : c ≠ '-')
    (draft : Draft) :
    draft.next (c :: rest) = { draft with inArgs := false }.withField (c :: rest) := by
  have hitem : Text.after? ['-', ' '] (Text.trimStart (c :: rest)) = none := by
    rw [Text.trimStart_of_head rest hblank, Text.after?]
    simp [List.isPrefixOf, Ne.symm hdash]
  have hindent : ((c :: rest).head? == some ' ') = false := by
    rw [List.head?_cons, beq_eq_false_iff_ne]
    rintro ⟨rfl⟩
    cases hblank
  -- an argument list that is open ends here, since the line is neither an item nor indented
  cases hargs : draft.inArgs with
  | true => rw [Draft.next, hargs, if_pos rfl, hitem, hindent, if_neg Bool.false_ne_true]
  | false =>
    rw [Draft.next, hargs, if_neg Bool.false_ne_true]
    obtain ⟨remark, inArgs⟩ := draft
    obtain rfl : inArgs = false := hargs
    rfl

namespace Field

variable {f : Field}

/-- **A line that does not begin with the key of a field leaves it alone.** -/
theorem get_next_of_not_prefix (h : ¬ f.key ++ [':'] <+: line) (draft : Draft) :
    f.get (draft.next line).remark = f.get draft.remark := by
  rcases next_cases draft line with ⟨added, hnext⟩ | hnext
  · rw [hnext]
    cases f <;> rfl
  · rw [hnext, get_withField_of_not_prefix h]

theorem get_foldl_next_of_not_prefix (h : ∀ line ∈ lines, ¬ f.key ++ [':'] <+: line)
    (draft : Draft) : f.get (lines.foldl Draft.next draft).remark = f.get draft.remark := by
  induction lines generalizing draft with
  | nil => rfl
  | cons line rest ih =>
    rw [List.foldl_cons, ih fun l hl => h l (List.mem_cons_of_mem _ hl),
      get_next_of_not_prefix (h line (List.mem_cons_self ..))]

/-- **A line with the key of a field sets it**, in an argument list as well, which it ends. -/
theorem get_next_key (f : Field) (draft : Draft) (value : Text) :
    f.get (draft.next (field f.key value)).remark = f.read (' ' :: value) := by
  have hnext : draft.next (field f.key value) =
      { draft with inArgs := false }.withField (field f.key value) := by
    cases f <;> exact next_of_head (by decide) (by decide) draft
  rw [hnext, get_withField_key]

end Field

/-! ### The message -/

/-- The draft with something in front of its message. -/
def Draft.preceded (said : String) (draft : Draft) : Draft :=
  { draft with remark := { draft.remark with displayString := said ++ draft.remark.displayString } }

theorem withField_preceded (said : String) (draft : Draft) (line : Text) :
    (draft.preceded said).withField line = (draft.withField line).preceded said := by
  unfold Draft.withField
  split
  · rfl
  · dsimp only
    split_ifs <;> rfl

theorem next_preceded (said : String) (draft : Draft) (line : Text) :
    (draft.preceded said).next line = (draft.next line).preceded said := by
  have hargs : (draft.preceded said).inArgs = draft.inArgs := rfl
  unfold Draft.next
  rw [hargs]
  split
  · split
    · simp [Draft.preceded, String.append_assoc]
    · split
      · rfl
      · exact withField_preceded said { draft with inArgs := false } line
  · exact withField_preceded said draft line

/-- **What has been said before does not matter to what follows.** -/
theorem foldl_next_preceded (said : String) (draft : Draft) (lines : List Text) :
    lines.foldl Draft.next (draft.preceded said) = (lines.foldl Draft.next draft).preceded said := by
  induction lines generalizing draft with
  | nil => rfl
  | cons line rest ih => rw [List.foldl_cons, next_preceded, ih, List.foldl_cons]

/-- The message of a document that goes on with some lines: what has been said, and what they add. -/
theorem exists_later (draft : Draft) (lines : List Text) : ∃ later, ∀ added,
    (lines.foldl Draft.next (draft.saying added)).remark.displayString =
      draft.remark.displayString ++ added ++ later := by
  -- what they add is the message of the document with nothing said before
  refine ⟨(lines.foldl Draft.next
    { draft with remark := { draft.remark with displayString := "" } }).remark.displayString, ?_⟩
  intro added
  have hsaying : draft.saying added = Draft.preceded (draft.remark.displayString ++ added)
      { draft with remark := { draft.remark with displayString := "" } } := by
    simp [Draft.saying, Draft.preceded]
  rw [hsaying, foldl_next_preceded]
  rfl

/-! ### Argument lists -/

/-- **Lines at whose end an argument list is being read**: the line that opens it, and then items and
indented lines. -/
def InArguments (body : List Text) : Prop :=
  ∃ before args items, body = before ++ args :: items ∧ "Args:".toList <+: args ∧
    ∀ item ∈ items, ['-', ' '] <+: Text.trimStart item ∨ item.head? = some ' '

theorem inArgs_next (hargs : draft.inArgs = true)
    (h : ['-', ' '] <+: Text.trimStart line ∨ line.head? = some ' ') :
    (draft.next line).inArgs = true := by
  rw [Draft.next, hargs, if_pos rfl]
  split
  case h_1 => rfl
  case h_2 hnone =>
    have hindent : line.head? = some ' ' := by
      refine h.resolve_left ?_
      rintro ⟨item, hitem⟩
      rw [← hitem, Text.after?_append] at hnone
      cases hnone
    rw [hindent, beq_self_eq_true, if_pos rfl]
    exact hargs

theorem inArgs_of_inArguments {body : List Text} (h : InArguments body) (draft : Draft) :
    (body.foldl Draft.next draft).inArgs = true := by
  obtain ⟨before, args, items, rfl, ⟨rest, rfl⟩, hitems⟩ := h
  -- the line that opens the list is read as a field, be a list open before or not
  have hopen (draft : Draft) : (draft.next ("Args:".toList ++ rest)).inArgs = true := by
    have hnext : draft.next ("Args:".toList ++ rest) =
        { draft with inArgs := false }.withField ("Args".toList ++ ':' :: rest) :=
      next_of_head (by decide) (by decide) draft
    rw [hnext, Draft.withField, Text.cutAt?_append (by decide)]
    rfl
  have hstay {draft : Draft} (hargs : draft.inArgs = true) :
      (items.foldl Draft.next draft).inArgs = true := by
    induction items generalizing draft with
    | nil => exact hargs
    | cons item items ih =>
      exact ih (fun i hi => hitems i (List.mem_cons_of_mem _ hi))
        (inArgs_next hargs (hitems item (List.mem_cons_self ..)))
  rw [List.foldl_append, List.foldl_cons]
  exact hstay (hopen _)

/-! ### Open documents -/

/-- **A text at whose end a document is open**, with as many documents before it as the number says
and with the lines of it that stand in the text. -/
structure OpenAt (front : Text) (number : Nat) (body : List Text) : Prop where
  ended : Text.Ended front
  lines : ∃ before tag, Text.lines front = before ++ (documentOpen ++ tag) :: body ∧
    (before.filter (documentOpen.isPrefixOf ·)).length = number
  inside : ∀ line ∈ body, bounds line = false

theorem Progress.next_of_inside {progress : Progress} (hcurrent : progress.current = some draft)
    (h : bounds line = false) :
    progress.next line = { progress with current := some (draft.next line) } := by
  rw [bounds, Bool.or_eq_false_iff] at h
  have hnone : Text.after? documentOpen line = none :=
    after?_eq_none_iff.mpr fun hopens => by
      rw [List.isPrefixOf_iff_prefix.mpr hopens] at h
      cases h.1
  rw [next, hnone, hcurrent]
  dsimp only
  rw [h.2, if_neg Bool.false_ne_true]

/-- Lines inside of a document go on with it. -/
theorem Progress.after_of_inside {progress : Progress} (hcurrent : progress.current = some draft)
    (h : ∀ line ∈ lines, bounds line = false) :
    progress.after lines = { progress with current := some (lines.foldl Draft.next draft) } := by
  induction lines generalizing progress draft with
  | nil => rw [after, List.foldl_nil, List.foldl_nil, ← hcurrent]
  | cons line rest ih =>
    have hnext := next_of_inside hcurrent (h line (List.mem_cons_self ..))
    rw [after, List.foldl_cons, hnext]
    exact ih rfl fun l hl => h l (List.mem_cons_of_mem _ hl)

variable {front : Text} {number : Nat} {body : List Text}

/-- **The remark of a document that is open**: what follows it goes on with it as far as it
reaches. -/
theorem OpenAt.exists_kind (h : OpenAt front number body) : ∃ kind, ∀ behind : Text,
    (ofRecord (String.ofList (front ++ behind)))[number]? =
      some ((remaining (Text.lines behind)).foldl Draft.next
        (body.foldl Draft.next { remark := { kind } })).remark := by
  obtain ⟨before, tag, hlines, hnumber⟩ := h.lines
  refine ⟨kindOf tag, fun behind => ?_⟩
  -- the documents in front are done, so that the open one comes at their number
  have hdone : (Progress.after {} before).remarks.length = number := by
    rw [Progress.remarks_after, ← hnumber, (forall₂_opening before).length_eq]
    rfl
  have hfront : Progress.after {} (Text.lines front) =
      { done := (Progress.after {} before).remarks
        current := some (body.foldl Draft.next { remark := { kind := kindOf tag } }) } := by
    have hopening : (Progress.after {} before).next (documentOpen ++ tag) = _ :=
      Progress.next_opening _ tag
    rw [hlines, Progress.after_append, Progress.after, List.foldl_cons, hopening]
    exact Progress.after_of_inside rfl h.inside
  rw [ofRecord_eq_remarks, String.toList_ofList, Text.lines_append h.ended, Progress.after_append,
    hfront, Progress.remarks_after, List.append_assoc, ← hdone, List.getElem?_append_right le_rfl,
    Nat.sub_self]
  rfl

/-- Blanks that end no line. -/
structure Padding (gap : Text) : Prop where
  blank : Text.Blank gap
  oneLine : '\n' ∉ gap

instance (gap : Text) : Decidable (Padding gap) :=
  decidable_of_iff (Text.Blank gap ∧ '\n' ∉ gap) ⟨fun h => ⟨h.1, h.2⟩, fun h => ⟨h.1, h.2⟩⟩

/-- **A line of an open document** with a key and a value is read where it stands. -/
theorem remaining_field {start key gap value : Text} {last : Char} (hkey : '\n' ∉ start ++ key)
    (hgap : Padding gap) (hvalue : '\n' ∉ value) (hlast : value.getLast? = some last)
    (hreturn : last ≠ '\r')
    (h : documentOpen.isPrefixOf (start ++ field key (gap ++ value)) = false) (rest : Text) :
    remaining (Text.lines (start ++ field key (gap ++ value) ++ '\n' :: rest)) =
      (start ++ field key (gap ++ value)) :: remaining (Text.lines rest) := by
  have honeLine : '\n' ∉ gap ++ value := List.not_mem_append hgap.oneLine hvalue
  have hend : (gap ++ value).getLast? = some last := by
    rw [List.getLast?_append, hlast]
    rfl
  have hbounds : bounds (start ++ field key (gap ++ value)) = false := by
    rw [bounds, h, Bool.false_or]
    exact closes_eq_false_of_colon (by simp [field])
  rw [Text.lines_cons (newline_not_mem_field hkey honeLine), Text.dropReturn_eq_self_iff.mpr,
    remaining, List.takeWhile_cons, hbounds]
  · rfl
  · rw [getLast?_field hend]
    exact fun h => hreturn (Option.some.inj h)

/-- **What is read of a field** in a document that is open, if nothing sets the field again. -/
theorem OpenAt.get_of_field (hopen : OpenAt front number body) {rest : Text} {f : Field}
    (hrest : ∀ line ∈ remaining (Text.lines rest), ¬ f.key ++ [':'] <+: line) {gap value : Text}
    {last : Char} (hgap : Padding gap) (hvalue : '\n' ∉ value) (hlast : value.getLast? = some last)
    (hreturn : last ≠ '\r') :
    ((ofRecord (String.ofList (front ++ field f.key (gap ++ value) ++ '\n' :: rest)))[number]?).map
      f.get = some (f.read (' ' :: (gap ++ value))) := by
  obtain ⟨kind, hremark⟩ := hopen.exists_kind
  have hkey : '\n' ∉ [] ++ f.key := by cases f <;> decide
  have hopens : documentOpen.isPrefixOf ([] ++ field f.key (gap ++ value)) = false := by
    cases f <;> rfl
  have hremaining : remaining (Text.lines (field f.key (gap ++ value) ++ '\n' :: rest)) = _ :=
    remaining_field hkey hgap hvalue hlast hreturn hopens rest
  rw [List.append_assoc, hremark, hremaining, Option.map_some, List.nil_append, List.foldl_cons,
    Field.get_foldl_next_of_not_prefix hrest, Field.get_next_key]

theorem newline_not_mem_scalar {value : String} (h : '\n' ∉ value.toList) : '\n' ∉ scalar value :=
  newline_not_mem_quoted (newline_not_mem_doubled h)

theorem unquote_scalar {gap : Text} (hgap : Text.Blank gap) (value : String) :
    String.ofList (unquote (' ' :: (gap ++ scalar value))) = doubled value := by
  have hblank : Text.Blank (' ' :: gap) := List.forall_mem_cons.mpr ⟨by decide, hgap⟩
  rw [scalar, ← List.cons_append, unquote_append_quoted hblank, String.ofList_toList]

theorem ofText?_scalarPlace {gap : Text} (hgap : Text.Blank gap) (place : DebugLoc) :
    DebugLoc.ofText? (' ' :: (gap ++ scalarPlace place)) =
      some { place with file := doubled place.file } := by
  have hblank : Text.Blank (' ' :: gap) := List.forall_mem_cons.mpr ⟨by decide, hgap⟩
  rw [scalarPlace, ← List.cons_append]
  exact DebugLoc.ofText?_append_print hblank (shut_quoted_doubled ',' place.file)

/-- No document opens at an item, however far it is indented. -/
theorem isPrefixOf_item {indent : Text} (hindent : Text.Blank indent) (item : Text) :
    documentOpen.isPrefixOf (indent ++ "- ".toList ++ item) = false := by
  cases indent with
  | nil => rfl
  | cons c indent =>
    have hc : Text.isBlank c = true := hindent c (List.mem_cons_self ..)
    have hdash : ('-' == c) = false := by
      rw [beq_eq_false_iff_ne]
      rintro rfl
      cases hc
    -- what opens a document begins with a dash
    change (('-' == c) && _) = false
    rw [hdash, Bool.false_and]

/-- **What is read of an item** in a document that is open and whose argument list is being read: the
message has the value between what stands in front of the item and what stands behind it, with the
single quotes doubled. -/
theorem OpenAt.exists_message (hopen : OpenAt front number body) (hargs : InArguments body)
    (rest : Text) : ∃ said later,
      (ofRecord (String.ofList front))[number]?.map (·.displayString) = some said ∧
      (ofRecord (String.ofList (front ++ rest)))[number]?.map (·.displayString) =
        some (said ++ later) ∧
      ∀ {value : String} {gap indent key : Text}, '\n' ∉ value.toList → Padding gap →
        Padding indent → '\n' ∉ key → ':' ∉ key → Text.trim key ≠ "DebugLoc".toList →
        ((ofRecord (String.ofList (front ++ (indent ++ "- ".toList ++
          field key (gap ++ scalar value)) ++ '\n' :: rest)))[number]?).map (·.displayString) =
          some (said ++ doubled value ++ later) := by
  obtain ⟨kind, hremark⟩ := hopen.exists_kind
  have hinside := inArgs_of_inArguments hargs { remark := { kind } }
  obtain ⟨later, hlater⟩ := exists_later (body.foldl Draft.next { remark := { kind } })
    (remaining (Text.lines rest))
  refine ⟨(body.foldl Draft.next { remark := { kind } }).remark.displayString, later, ?_, ?_, ?_⟩
  · have hfront := hremark []
    rw [List.append_nil] at hfront
    rw [hfront]
    rfl
  · have hsilent := hlater ""
    rw [Draft.saying_empty, String.append_empty] at hsilent
    rw [hremark, Option.map_some, hsilent]
  · intro value gap indent key hvalue hgap hindent hkey hcolon hplace
    have honeLine : '\n' ∉ indent ++ "- ".toList ++ key := by
      have hdash : '\n' ∉ "- ".toList := by decide
      simp only [List.mem_append, not_or]
      exact ⟨⟨hindent.oneLine, hdash⟩, hkey⟩
    have hremaining := remaining_field honeLine hgap (newline_not_mem_scalar hvalue)
      (getLast?_quoted _) (by decide) (isPrefixOf_item hindent.blank _) rest
    rw [List.append_assoc front, hremark, hremaining, Option.map_some, List.foldl_cons, scalar,
      next_item hinside hindent.blank hcolon hplace hgap.blank, hlater]

end Record

open Record in
/-- **Every value is read with its single quotes doubled**, as a field, as the file of a place and as
a part of the message, in any record in which a document is open where the line with the value
stands, as long as no line behind it sets the field again. So a value comes back just if it has no
single quote. -/
theorem quoted_values_doubled {front : Text} {number : Nat} {body : List Text}
    (hopen : OpenAt front number body) (rest : Text) :
    let remark (line : Text) := (ofRecord (String.ofList (front ++ line ++ '\n' :: rest)))[number]?
    let Unset (f : Field) := ∀ line ∈ remaining (Text.lines rest), ¬ f.key ++ [':'] <+: line
    (∀ value gap, '\n' ∉ value.toList → Padding gap →
      (Unset .pass → (remark (field "Pass".toList (gap ++ scalar value))).map (·.pass) =
        some (doubled value)) ∧
      (Unset .name → (remark (field "Name".toList (gap ++ scalar value))).map (·.name) =
        some (doubled value)) ∧
      (Unset .function → (remark (field "Function".toList (gap ++ scalar value))).map (·.function) =
        some (doubled value))) ∧
    (∀ place gap, '\n' ∉ place.file.toList → Padding gap → Unset .debugLoc →
      (remark (field "DebugLoc".toList (gap ++ scalarPlace place))).map (·.debugLoc) =
        some (some { place with file := doubled place.file })) ∧
    (InArguments body → ∃ said later,
      (ofRecord (String.ofList front))[number]?.map (·.displayString) = some said ∧
      (ofRecord (String.ofList (front ++ rest)))[number]?.map (·.displayString) =
        some (said ++ later) ∧
      ∀ value gap indent key, '\n' ∉ value.toList → Padding gap → Padding indent → '\n' ∉ key →
        ':' ∉ key → Text.trim key ≠ "DebugLoc".toList →
        (remark (indent ++ "- ".toList ++ field key (gap ++ scalar value))).map (·.displayString) =
          some (said ++ doubled value ++ later)) ∧
    ∀ value : String, doubled value = value ↔ '\'' ∉ value.toList := by
  intro remark Unset
  refine ⟨fun value gap hvalue hgap => ?_, fun place gap hfile hgap hrest => ?_, fun hargs => ?_,
    fun value => doubled_eq_self_iff⟩
  · have hread : some (String.ofList (unquote (' ' :: (gap ++ scalar value)))) =
        some (doubled value) := congrArg some (unquote_scalar hgap.blank value)
    have hline : '\n' ∉ scalar value := newline_not_mem_scalar hvalue
    have hlast : (scalar value).getLast? = some '\'' := getLast?_quoted _
    exact ⟨fun hrest => (hopen.get_of_field hrest hgap hline hlast (by decide)).trans hread,
      fun hrest => (hopen.get_of_field hrest hgap hline hlast (by decide)).trans hread,
      fun hrest => (hopen.get_of_field hrest hgap hline hlast (by decide)).trans hread⟩
  · have hline : '\n' ∉ scalarPlace place := newline_not_mem_print (newline_not_mem_doubled hfile)
    have hlast : (scalarPlace place).getLast? = some '\x7d' := getLast?_print _
    have hread := hopen.get_of_field hrest hgap hline hlast (by decide)
    exact hread.trans (congrArg some (ofText?_scalarPlace hgap.blank place))
  · obtain ⟨said, later, hsaid, hsilent, hmessage⟩ := hopen.exists_message hargs rest
    exact ⟨said, later, hsaid, hsilent, fun _ _ _ _ hvalue hgap hindent hkey hcolon hplace =>
      hmessage hvalue hgap hindent hkey hcolon hplace⟩

/-- In the second document of a record, a field ends the argument list that is open there, and an
item goes on with it. -/
theorem quoted_values_doubled_second_document :
    let front := "--- !Passed\n...\n--- !Missed\nArgs:\n  - A: 'x'\n"
    let rest := "  - B: y\nName: n\n...\n"
    let remark (line : String) := (ofRecord (front ++ line ++ "\n" ++ rest))[1]?
    (remark "Pass: 'it''s'").map (·.pass) = some "it''s" ∧
      (remark "DebugLoc: \x7b File: 'it''s,.cu', Line: 4, Column: 15 \x7d").map (·.debugLoc) =
        some (some { file := "it''s,.cu", line := 4, column := 15 }) ∧
      (remark "  - C:  'it''s'").map (·.displayString) = some "xit''sy" ∧
      doubled "its" = "its" := by
  intro front rest remark
  have hopen : Record.OpenAt front.toList 1 ["Args:".toList, "  - A: 'x'".toList] :=
    ⟨by decide, ⟨["--- !Passed".toList, "...".toList], "Missed".toList, by decide, by decide⟩,
      by decide⟩
  have hargs : Record.InArguments ["Args:".toList, "  - A: 'x'".toList] :=
    ⟨[], _, _, rfl, List.prefix_rfl, by decide⟩
  have hremark (line : String) : remark line =
      (ofRecord (String.ofList (front.toList ++ line.toList ++ '\n' :: rest.toList)))[1]? := by
    have htext : front ++ line ++ "\n" ++ rest =
        String.ofList (front.toList ++ line.toList ++ '\n' :: rest.toList) := by
      simp [← String.toList_inj]
    rw [← htext]
  obtain ⟨hfields, hplaces, hitems, hsame⟩ := quoted_values_doubled hopen rest.toList
  have hpass := (hfields "it's" [] (by decide) (by decide)).1 (by decide)
  have hplace := hplaces { file := "it's,.cu", line := 4, column := 15 } [] (by decide) (by decide)
    (by decide)
  obtain ⟨said, later, hsaid, hsilent, hmessage⟩ := hitems hargs
  have hitem := hmessage "it's" [' '] "  ".toList "C".toList (by decide) (by decide) (by decide)
    (by decide) (by decide) (by decide)
  have hx : (ofRecord (String.ofList front.toList))[1]?.map (·.displayString) = some "x" := by
    rw [ofRecord, String.toList_ofList]
    decide +kernel
  have hxy : (ofRecord (String.ofList (front.toList ++ rest.toList)))[1]?.map (·.displayString) =
      some "xy" := by
    rw [ofRecord, String.toList_ofList]
    decide +kernel
  obtain rfl : said = "x" := Option.some.inj (hsaid.symm.trans hx)
  obtain rfl : later = "y" := String.append_right_inj "x" |>.mp
    (Option.some.inj (hsilent.symm.trans hxy))
  refine ⟨?_, ?_, ?_, (hsame "its").mpr (by decide)⟩
  · rw [hremark]
    exact hpass
  · rw [hremark]
    exact hplace
  · rw [hremark]
    exact hitem

/-- A document with one value in every place, as it is written there. -/
def everywhere (value : String) : Document :=
  { kind := .missed
    pass := doubled value
    name := doubled value
    debugLoc := some { file := doubled value, line := 4, column := 5 }
    function := doubled value
    arguments := [{ key := "String", value := doubled value }] }

/-- **Two quotes are not read as one**: a record with the value `it's` in every place is not read
back. -/
theorem apostrophe_read_twice :
    (everywhere "it's").lines =
      ["--- !Missed".toList, "Pass: 'it''s'".toList, "Name: 'it''s'".toList,
        "DebugLoc: \x7b File: 'it''s', Line: 4, Column: 5 \x7d".toList,
        "Function: 'it''s'".toList, "Args:".toList, "  - String: 'it''s'".toList,
        "...".toList] ∧
    ¬ ∀ value : String, '\n' ∉ value.toList →
      ofRecord (Record.print [everywhere value]) =
        [{ kind := .missed
           pass := value
           name := value
           debugLoc := some { file := value, line := 4, column := 5 }
           function := value
           displayString := value }] := by
  refine ⟨by decide +kernel, fun hread => ?_⟩
  have hwrong := hread "it's" (by decide)
  rw [ofRecord, Record.print, String.toList_ofList] at hwrong
  revert hwrong
  decide +kernel

end AsmInspect.Remark

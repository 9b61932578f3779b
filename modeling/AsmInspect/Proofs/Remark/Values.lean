import AsmInspect.Proofs.Text.Blanks
import AsmInspect.Proofs.Text.Lines
import AsmInspect.Proofs.Text.Numbers
import AsmInspect.Remark.Record

/-!
# Values of a record

A value in single quotes is read back whatever else stands in it: blanks at its ends are not
trimmed, since the quotes stand around them, and a comma in it separates nothing. The second is a
fact about where quotes are open: a part that closes all quotes that it opens, and has no separator
outside of them, is passed over as a whole. A single quote of the value itself can be written twice;
the comma behind it then still separates nothing, but both quotes are read.

## Main definitions

* `Remark.quoted`, `Remark.Quotable`: a value in single quotes, and the values that they can hold
* `Remark.doubled`: a value with its single quotes written twice
* `Remark.field`: a key with its value
* `Remark.Shut`: a part that is passed over when a text is cut at separators
* `Remark.DebugLoc.print`: a place as it is written

## Main results

* `Remark.unquote_quoted`: a quoted value is read back
* `Remark.splitUnquoted_join`: so are parts with separators between them
* `Remark.DebugLoc.ofText?_print`: so is a place
-/

namespace AsmInspect.Remark

/-! ### Quoted values -/

/-- A value in single quotes. -/
def quoted (value : String) : Text := '\'' :: (value.toList ++ ['\''])

/-- A key with its value. -/
def field (key value : Text) : Text := key ++ ':' :: ' ' :: value

/-- **A value that single quotes can hold**: it stands on one line and has no single quote. -/
structure Quotable (value : String) : Prop where
  oneLine : '\n' ∉ value.toList
  noQuote : '\'' ∉ value.toList

theorem quotable_iff {value : String} :
    Quotable value ↔ '\n' ∉ value.toList ∧ '\'' ∉ value.toList :=
  ⟨fun h => ⟨h.oneLine, h.noQuote⟩, fun h => ⟨h.1, h.2⟩⟩

instance (value : String) : Decidable (Quotable value) := decidable_of_iff _ quotable_iff.symm

/-- A text with its single quotes written twice. -/
def doubledText (text : Text) : Text :=
  text.flatMap fun c => if c = '\'' then ['\'', '\''] else [c]

theorem doubledText_cons (c : Char) (text : Text) :
    doubledText (c :: text) = (if c = '\'' then ['\'', '\''] else [c]) ++ doubledText text :=
  List.flatMap_cons

theorem length_doubledText (text : Text) :
    (doubledText text).length = text.length + text.count '\'' := by
  induction text with
  | nil => rfl
  | cons c text ih =>
    rw [doubledText_cons, List.length_append, ih, List.length_cons, List.count_cons]
    by_cases hc : c = '\''
    · simp [hc]
      omega
    · simp [hc]
      omega

theorem doubledText_of_not_mem {text : Text} (h : '\'' ∉ text) : doubledText text = text := by
  induction text with
  | nil => rfl
  | cons c text ih =>
    rw [List.mem_cons, not_or] at h
    rw [doubledText_cons, if_neg (Ne.symm h.1), ih h.2]
    rfl

/-- A value with its single quotes written twice, as it stands in single quotes. -/
def doubled (value : String) : String := String.ofList (doubledText value.toList)

/-- **A value is written as it is** just if it has no single quote. -/
theorem doubled_eq_self_iff {value : String} : doubled value = value ↔ '\'' ∉ value.toList := by
  constructor
  · intro h
    have hlength := length_doubledText value.toList
    have htext : doubledText value.toList = value.toList := by
      rw [← String.toList_ofList (l := doubledText value.toList)]
      exact congrArg String.toList h
    rw [htext] at hlength
    rw [← List.count_eq_zero]
    omega
  · intro h
    rw [doubled, doubledText_of_not_mem h, String.ofList_toList]

theorem between?_quoted (value : String) : between? '\'' (quoted value) = some value.toList := by
  simp [between?, quoted]

/-- **A quoted value is read back**, whatever blanks stand in front of it. -/
theorem unquote_append_quoted {gap : Text} (hgap : Text.Blank gap) (value : String) :
    unquote (gap ++ quoted value) = value.toList := by
  have htrim : Text.trim (gap ++ quoted value) = quoted value := by
    have happend := Text.trim_append hgap .nil (quoted value)
    rw [List.append_nil] at happend
    rw [happend]
    exact Text.trim_of_ends (by decide) (by decide)
  unfold unquote
  dsimp only
  rw [htrim, between?_quoted, Option.some_or, Option.getD_some]

theorem unquote_quoted (value : String) : unquote (' ' :: quoted value) = value.toList :=
  unquote_append_quoted (show Text.Blank [' '] by decide) value

/-- The value of a field is what stands behind the first colon. -/
theorem cutAt?_field {key : Text} (h : ':' ∉ key) (value : Text) :
    Text.cutAt? ':' (field key value) = some (key, ' ' :: value) :=
  Text.cutAt?_append h _

/-! ### Separators outside of quotes -/

/-- **A part that is passed over** when a text is cut: no separator stands outside of quotes in it,
and no quote is open at its end. -/
def Shut (separator : Char) (part : Text) : Prop :=
  ∀ rest, splitOutside separator none (part ++ rest) =
    (splitOutside separator none rest).modifyHead (part ++ ·)

variable {separator : Char} {part : Text}

theorem Shut.append {first second : Text} (hfirst : Shut separator first)
    (hsecond : Shut separator second) : Shut separator (first ++ second) := by
  intro rest
  rw [List.append_assoc, hfirst, hsecond, List.modifyHead_modifyHead]
  congr 1
  funext piece
  exact (List.append_assoc ..).symm

/-- A text without quotes and separators is passed over. -/
theorem shut_of_all (h : (part.all fun c => !isQuote c && c != separator) = true) :
    Shut separator part := by
  intro rest
  induction part with
  | nil =>
    have hid : (([] : Text) ++ ·) = id := funext List.nil_append
    rw [List.nil_append, hid, List.modifyHead_id, id]
  | cons c part ih =>
    rw [List.all_cons, Bool.and_eq_true, Bool.and_eq_true, Bool.not_eq_true', bne_iff_ne] at h
    obtain ⟨⟨hquote, hseparator⟩, hpart⟩ := h
    have hsame : (c == separator) = false := beq_eq_false_iff_ne.mpr hseparator
    rw [List.cons_append, splitOutside, hquote, if_neg Bool.false_ne_true, hsame,
      if_neg Bool.false_ne_true, ih hpart, List.modifyHead_modifyHead]
    rfl

/-- Inside quotes everything is passed over up to the quote that closes them, and two quotes side by
side close nothing: the second opens again what the first has closed. -/
theorem splitOutside_doubled (inner rest : Text) :
    splitOutside separator (some '\'') (doubledText inner ++ '\'' :: rest) =
      (splitOutside separator none rest).modifyHead (doubledText inner ++ '\'' :: ·) := by
  induction inner with
  | nil => simp [doubledText, splitOutside]
  | cons c inner ih =>
    rw [doubledText_cons, List.append_assoc]
    by_cases hc : c = '\''
    case pos =>
      have hquote : isQuote '\'' = true := by decide
      rw [if_pos hc, List.cons_append, splitOutside, beq_self_eq_true, if_pos rfl,
        List.singleton_append, splitOutside, hquote, if_pos rfl, ih, List.modifyHead_modifyHead,
        List.modifyHead_modifyHead]
      rfl
    case neg =>
      have hne : (c == '\'') = false := beq_eq_false_iff_ne.mpr hc
      rw [if_neg hc, List.singleton_append, splitOutside, hne, if_neg Bool.false_ne_true, ih,
        List.modifyHead_modifyHead]
      rfl

/-- **A quoted value is passed over** if its own single quotes are written twice. -/
theorem shut_quoted_doubled (separator : Char) (value : String) :
    Shut separator (quoted (doubled value)) := by
  intro rest
  rw [quoted, doubled, String.toList_ofList, List.cons_append, List.append_assoc,
    List.singleton_append, splitOutside, if_pos (by decide), splitOutside_doubled,
    List.modifyHead_modifyHead]
  congr 1
  funext piece
  simp

theorem shut_quoted {value : String} (h : Quotable value) : Shut separator (quoted value) := by
  have hshut := shut_quoted_doubled separator value
  rwa [doubled_eq_self_iff.mpr h.noQuote] at hshut

/-- **Parts with separators between them are read back.** -/
theorem splitUnquoted_join (hseparator : isQuote separator = false) {parts : List Text}
    (hne : parts ≠ []) (h : ∀ part ∈ parts, Shut separator part) :
    splitUnquoted separator (Text.join [separator] parts) = parts := by
  unfold splitUnquoted
  induction parts with
  | nil => exact absurd rfl hne
  | cons first others ih =>
    have hfirst := h first (List.mem_cons_self ..)
    cases others with
    | nil =>
      have hend := hfirst []
      rw [List.append_nil] at hend
      rw [Text.join, hend, splitOutside, List.modifyHead_cons, List.append_nil]
    | cons second others =>
      have hothers := ih (List.cons_ne_nil _ _) fun part hp => h part (List.mem_cons_of_mem _ hp)
      rw [Text.join_cons_cons, List.append_assoc, List.singleton_append, hfirst, splitOutside,
        hseparator, if_neg Bool.false_ne_true, if_pos (beq_self_eq_true _), hothers,
        List.modifyHead_cons, List.append_nil]

/-! ### Places -/

/-- The digits of a number. -/
def digits (n : UInt32) : Text := Nat.toDigits 10 n.toNat

/-- **A number of 32 bits is read back**, whatever blanks stand around it. -/
theorem word32?_digits (n : UInt32) {before after : Text} (hbefore : Text.Blank before)
    (hafter : Text.Blank after) : word32? (before ++ digits n ++ after) = some n := by
  have hword : Text.IsWord (digits n) :=
    { ne_nil := Nat.toDigits_ne_nil
      noBlank := fun c hc => Text.not_blank_of_isDigit (Text.isDigit_of_mem_toDigits hc) }
  have hbound : n.toNat ≤ maxWord32 := Nat.le_of_lt_succ n.toNat_lt
  rw [word32?, Text.trim_append hbefore hafter, hword.trim_eq, digits,
    Text.unsigned?_toDigits hbound, Option.map_some]
  exact congrArg some (UInt32.ofNat_toNat)

namespace DebugLoc

/-- The fields of a place as they are written, each with the blanks around it. -/
def fields (place : DebugLoc) : List Text :=
  [' ' :: field "File".toList (quoted place.file), ' ' :: field "Line".toList (digits place.line),
    ' ' :: field "Column".toList (digits place.column ++ [' '])]

/-- A place as it is written. -/
def print (place : DebugLoc) : Text :=
  '\x7b' :: (Text.join [','] place.fields ++ ['\x7d'])

example : print { file := "a,b.cu", line := 4, column := 15 } =
    "\x7b File: 'a,b.cu', Line: 4, Column: 15 \x7d".toList := by decide

variable {place : DebugLoc}

theorem shut_digits (n : UInt32) : Shut ',' (digits n) := by
  apply shut_of_all
  rw [List.all_eq_true]
  intro c hc
  have hdigit : c.isDigit = true := Text.isDigit_of_mem_toDigits hc
  rw [Bool.and_eq_true, Bool.not_eq_true', isQuote, Bool.or_eq_false_iff, beq_eq_false_iff_ne,
    beq_eq_false_iff_ne, bne_iff_ne]
  refine ⟨⟨?_, ?_⟩, ?_⟩
  all_goals
    rintro rfl
    cases hdigit

theorem shut_fields (h : Shut ',' (quoted place.file)) : ∀ part ∈ place.fields, Shut ',' part := by
  have hfield {key value : Text} (hkey : Shut ',' (' ' :: (key ++ [':', ' '])))
      (hvalue : Shut ',' value) : Shut ',' (' ' :: field key value) := by
    have happend := hkey.append hvalue
    rw [field]
    simpa using happend
  have hspace : Shut ',' [' '] := shut_of_all (by decide)
  intro part hpart
  rw [fields, List.mem_cons, List.mem_cons, List.mem_singleton] at hpart
  rcases hpart with rfl | rfl | rfl
  · exact hfield (shut_of_all (by decide)) h
  · exact hfield (shut_of_all (by decide)) (shut_digits place.line)
  · exact hfield (shut_of_all (by decide)) ((shut_digits place.column).append hspace)

/-- What a field that follows a blank does to a place. -/
theorem withField_field (place : DebugLoc) {key : Text} (hcolon : ':' ∉ ' ' :: key)
    (hkey : Text.trim (' ' :: key) = key) (value : Text) :
    place.withField (' ' :: field key value) =
      if key == "File".toList then
        some { place with file := String.ofList (unquote (' ' :: value)) }
      else if key == "Line".toList then
        (word32? (' ' :: value)).map fun line => { place with line }
      else if key == "Column".toList then
        (word32? (' ' :: value)).map fun column => { place with column }
      else some place := by
  have hcut : Text.cutAt? ':' (' ' :: field key value) = some (' ' :: key, ' ' :: value) :=
    cutAt?_field hcolon value
  unfold withField
  rw [hcut, Option.bind_eq_bind, Option.bind_some]
  dsimp only
  rw [hkey]
  cases word32? (' ' :: value) <;> rfl

/-- **The fields of a place are read back** one after the other. -/
theorem foldlM_withField_fields (place : DebugLoc) :
    place.fields.foldlM withField {} = some place := by
  have hblank : Text.Blank [' '] := by decide
  have hline := word32?_digits place.line hblank .nil
  have hcolumn := word32?_digits place.column hblank hblank
  rw [List.append_nil, List.singleton_append] at hline
  rw [List.singleton_append, List.cons_append] at hcolumn
  have hfirst : withField {} (' ' :: field "File".toList (quoted place.file)) =
      some { file := place.file } := by
    rw [withField_field _ (by decide) (by decide), if_pos (by decide), unquote_quoted,
      String.ofList_toList]
  have hsecond : withField { file := place.file } (' ' :: field "Line".toList (digits place.line)) =
      some { file := place.file, line := place.line } := by
    rw [withField_field _ (by decide) (by decide), if_neg (by decide), if_pos (by decide), hline]
    rfl
  have hthird : withField { file := place.file, line := place.line }
      (' ' :: field "Column".toList (digits place.column ++ [' '])) = some place := by
    rw [withField_field _ (by decide) (by decide), if_neg (by decide), if_neg (by decide),
      if_pos (by decide), hcolumn]
    rfl
  rw [fields, List.foldlM_cons, hfirst, Option.bind_eq_bind, Option.bind_some, List.foldlM_cons,
    hsecond, Option.bind_eq_bind, Option.bind_some, List.foldlM_cons, hthird]
  rfl

/-- **A place is read back**, whatever blanks stand in front of it. -/
theorem ofText?_append_print {gap : Text} (hgap : Text.Blank gap)
    (h : Shut ',' (quoted place.file)) : ofText? (gap ++ place.print) = some place := by
  have htrim : Text.trim (gap ++ place.print) = place.print := by
    have happend := Text.trim_append hgap .nil place.print
    rw [List.append_nil] at happend
    rw [happend]
    exact Text.trim_of_ends (by decide) (by decide)
  have hopen : Text.after? ['\x7b'] place.print =
      some (Text.join [','] place.fields ++ ['\x7d']) := Text.after?_append ['\x7b'] _
  have hclose : Text.before? ['\x7d'] (Text.join [','] place.fields ++ ['\x7d']) =
      some (Text.join [','] place.fields) := Text.before?_eq_some_iff.mpr rfl
  have hsplit : splitUnquoted ',' (Text.join [','] place.fields) = place.fields :=
    splitUnquoted_join (by decide) (List.cons_ne_nil _ _) (shut_fields h)
  unfold ofText?
  rw [htrim, hopen, Option.bind_eq_bind, Option.bind_some, hclose, Option.bind_some, hsplit]
  exact foldlM_withField_fields place

theorem ofText?_print (h : Quotable place.file) : ofText? (' ' :: place.print) = some place := by
  rw [← List.singleton_append]
  exact ofText?_append_print (show Text.Blank [' '] by decide) (shut_quoted h)

end DebugLoc

end AsmInspect.Remark

import AsmInspect.Proofs.Remark.Values

/-!
# Records as they are printed

A record is printed as one document for each remark, a document as one line for each field of its
remark and one or two for each of its arguments. Reading it again gives the remarks back. The reader
knows a document by how its lines begin and end, so what counts is that no line of a body looks like
the line that opens a document or the one that closes it. This is so because every line of a body
has a colon and does not begin with a dash, whatever the values are that stand in it.

## Main definitions

* `Remark.Argument`, `Remark.Document`: a remark before it is printed, its message in parts
* `Remark.Document.remark`: the remark of a document
* `Remark.Document.lines`, `Remark.Record.print`: documents as they are written
* `Remark.Document.Printable`: the documents that can be written
* `Remark.Record.BodyLine`: a line that neither opens nor closes a document

## Main results

* `Remark.Record.documents_print`: the documents of a record are found again
* `Remark.Record.read_document`: a document is read as its remark
* `Remark.ofRecord_print`: **reading undoes printing**
-/

namespace AsmInspect.Remark

/-! ### Printing -/

/-- A part of a message under the name of what it says, and the place that it speaks of. -/
structure Argument where
  key : String
  value : String
  place : Option DebugLoc := none

/-- A remark before it is printed. -/
structure Document where
  kind : Kind
  pass : String
  name : String
  debugLoc : Option DebugLoc := none
  function : String
  arguments : List Argument := []

/-- The remark of a document; the values of its arguments together are the message. -/
def Document.remark (document : Document) : Remark :=
  { kind := document.kind
    pass := document.pass
    name := document.name
    function := document.function
    debugLoc := document.debugLoc
    displayString := String.join (document.arguments.map (·.value)) }

/-- The name of a kind. -/
def Kind.tag : Kind → Text
  | .passed => "Passed".toList
  | .missed => "Missed".toList
  | .analysis => "Analysis".toList
  | .other => "Other".toList

/-- The lines of an argument: its value, and its place if it has one. -/
def Argument.lines (argument : Argument) : List Text :=
  ("  - ".toList ++ field argument.key.toList (quoted argument.value)) ::
    argument.place.toList.map fun place => "    ".toList ++ field "DebugLoc".toList place.print

namespace Document

/-- The lines of a document between the one that opens it and the one that closes it. -/
def body (document : Document) : List Text :=
  field "Pass".toList (quoted document.pass) :: field "Name".toList (quoted document.name) ::
    (document.debugLoc.toList.map fun place => field "DebugLoc".toList place.print) ++
    field "Function".toList (quoted document.function) :: "Args:".toList ::
    document.arguments.flatMap Argument.lines

/-- The lines of a document. -/
def lines (document : Document) : List Text :=
  ("--- !".toList ++ document.kind.tag) :: (document.body ++ ["...".toList])

end Document

/-- **A record as it is printed**: the lines of its documents, each with a line feed behind it. -/
def Record.print (documents : List Document) : String :=
  String.ofList ((documents.flatMap Document.lines).flatMap (· ++ ['\n']))

/-- **An argument that can be printed**: its key ends at the first colon of its line and is not that
of a place. -/
structure Argument.Printable (argument : Argument) : Prop where
  oneLine : '\n' ∉ argument.key.toList
  noColon : ':' ∉ argument.key.toList
  noPlace : Text.trim argument.key.toList ≠ "DebugLoc".toList
  value : Quotable argument.value
  place : ∀ place ∈ argument.place, Quotable place.file

theorem Argument.printable_iff {argument : Argument} :
    argument.Printable ↔ '\n' ∉ argument.key.toList ∧ ':' ∉ argument.key.toList ∧
      Text.trim argument.key.toList ≠ "DebugLoc".toList ∧ Quotable argument.value ∧
      ∀ place ∈ argument.place, Quotable place.file :=
  ⟨fun h => ⟨h.oneLine, h.noColon, h.noPlace, h.value, h.place⟩,
    fun ⟨oneLine, noColon, noPlace, value, place⟩ => ⟨oneLine, noColon, noPlace, value, place⟩⟩

instance (argument : Argument) : Decidable argument.Printable :=
  decidable_of_iff _ Argument.printable_iff.symm

/-- **A document that can be printed**: its values are such that single quotes can hold them. -/
structure Document.Printable (document : Document) : Prop where
  pass : Quotable document.pass
  name : Quotable document.name
  function : Quotable document.function
  debugLoc : ∀ place ∈ document.debugLoc, Quotable place.file
  arguments : ∀ argument ∈ document.arguments, argument.Printable

theorem Document.printable_iff {document : Document} :
    document.Printable ↔ Quotable document.pass ∧ Quotable document.name ∧
      Quotable document.function ∧ (∀ place ∈ document.debugLoc, Quotable place.file) ∧
      ∀ argument ∈ document.arguments, argument.Printable :=
  ⟨fun h => ⟨h.pass, h.name, h.function, h.debugLoc, h.arguments⟩,
    fun ⟨pass, name, function, debugLoc, arguments⟩ => ⟨pass, name, function, debugLoc, arguments⟩⟩

instance (document : Document) : Decidable document.Printable :=
  decidable_of_iff _ Document.printable_iff.symm

namespace Record

/-! ### The lines of a body -/

/-- **A line that neither opens nor closes a document**, and is read as it is written. -/
structure BodyLine (line : Text) : Prop where
  oneLine : '\n' ∉ line
  noReturn : line.getLast? ≠ some '\r'
  noDash : line.head? ≠ some '-'
  colon : ':' ∈ line

theorem BodyLine.not_opens {line : Text} (h : BodyLine line) :
    Text.after? documentOpen line = none := by
  cases hafter : Text.after? documentOpen line with
  | none => rfl
  | some tag =>
    have hhead : line.head? = some '-' := by rw [Text.after?_eq_some_iff.mp hafter]; rfl
    exact absurd hhead h.noDash

/-- A line with a colon is none that closes a document. -/
theorem closes_eq_false_of_colon {line : Text} (h : ':' ∈ line) : closes line = false := by
  have hcolon : ':' ∈ Text.trim line := (Text.mem_trim_iff (by decide)).mpr h
  refine beq_eq_false_iff_ne.mpr fun hdots => ?_
  rw [hdots] at hcolon
  exact absurd hcolon (by decide)

theorem BodyLine.not_closes {line : Text} (h : BodyLine line) : closes line = false :=
  closes_eq_false_of_colon h.colon

theorem newline_not_mem_field {indent key value : Text} (hkey : '\n' ∉ indent ++ key)
    (hvalue : '\n' ∉ value) : '\n' ∉ indent ++ field key value := by
  simp only [field, List.mem_append, List.mem_cons, not_or] at hkey ⊢
  exact ⟨hkey.1, hkey.2, by decide, by decide, hvalue⟩

/-- A line with a key and a value ends as the value does. -/
theorem getLast?_field {value : Text} {last : Char} (h : value.getLast? = some last)
    (indent key : Text) : (indent ++ field key value).getLast? = some last := by
  rw [field, List.getLast?_append, List.getLast?_append, List.getLast?_cons, List.getLast?_cons, h]
  rfl

/-- A line with a key and a value is a line of a body. -/
theorem bodyLine_field {indent key value : Text} {last : Char} (hkey : '\n' ∉ indent ++ key)
    (hhead : (indent ++ (key ++ [':'])).head? ≠ some '-') (hvalue : '\n' ∉ value)
    (hlast : value.getLast? = some last) (hne : last ≠ '\r') :
    BodyLine (indent ++ field key value) := by
  refine ⟨newline_not_mem_field hkey hvalue, ?_, ?_, by simp [field]⟩
  · rw [getLast?_field hlast]
    exact fun h => hne (Option.some.inj h)
  · have hline : indent ++ field key value = indent ++ (key ++ [':']) ++ ' ' :: value := by
      simp [field]
    rw [hline, List.head?_append]
    cases hfirst : (indent ++ (key ++ [':'])).head? with
    | none => simp at hfirst
    | some first =>
      rw [hfirst] at hhead
      exact hhead

theorem newline_not_mem_quoted {value : String} (h : '\n' ∉ value.toList) : '\n' ∉ quoted value := by
  simp [quoted, h]

theorem getLast?_quoted (value : String) : (quoted value).getLast? = some '\'' := by
  rw [quoted, ← List.cons_append, List.getLast?_concat]

theorem bodyLine_quoted (indent key : Text) {value : String} (hkey : '\n' ∉ indent ++ key)
    (hhead : (indent ++ (key ++ [':'])).head? ≠ some '-') (h : Quotable value) :
    BodyLine (indent ++ field key (quoted value)) :=
  bodyLine_field hkey hhead (newline_not_mem_quoted h.oneLine) (getLast?_quoted value) (by decide)

theorem newline_not_mem_digits (n : UInt32) : '\n' ∉ digits n := by
  intro hmem
  have hdigit := Text.isDigit_of_mem_toDigits hmem
  cases hdigit

theorem newline_not_mem_print {place : DebugLoc} (h : '\n' ∉ place.file.toList) :
    '\n' ∉ place.print := by
  have hline := newline_not_mem_digits place.line
  have hcolumn := newline_not_mem_digits place.column
  simp [DebugLoc.print, DebugLoc.fields, Text.join, field, quoted, h, hline, hcolumn]

theorem getLast?_print (place : DebugLoc) : place.print.getLast? = some '\x7d' := by
  rw [DebugLoc.print, ← List.cons_append, List.getLast?_concat]

theorem bodyLine_place (indent key : Text) {place : DebugLoc} (hkey : '\n' ∉ indent ++ key)
    (hhead : (indent ++ (key ++ [':'])).head? ≠ some '-') (h : Quotable place.file) :
    BodyLine (indent ++ field key place.print) :=
  bodyLine_field hkey hhead (newline_not_mem_print h.oneLine) (getLast?_print place) (by decide)

theorem bodyLine_argument {argument : Argument} (h : argument.Printable) :
    ∀ line ∈ argument.lines, BodyLine line := by
  intro line hline
  rw [Argument.lines, List.mem_cons, List.mem_map] at hline
  rcases hline with rfl | ⟨place, hplace, rfl⟩
  · have hkey : '\n' ∉ "  - ".toList ++ argument.key.toList := by
      rw [List.mem_append, not_or]
      exact ⟨by decide, h.oneLine⟩
    exact bodyLine_quoted _ _ hkey (by simp) h.value
  · exact bodyLine_place _ _ (by decide) (by decide) (h.place place (by simpa using hplace))

/-- **Every line of a body neither opens nor closes a document.** -/
theorem bodyLine_of_mem_body {document : Document} (h : document.Printable) :
    ∀ line ∈ document.body, BodyLine line := by
  intro line hline
  simp only [Document.body, List.cons_append, List.mem_cons, List.mem_append, List.mem_map,
    List.mem_flatMap] at hline
  rcases hline with rfl | rfl | ⟨place, hplace, rfl⟩ | rfl | rfl | ⟨argument, hargument, hline⟩
  · exact bodyLine_quoted [] "Pass".toList (by decide) (by decide) h.pass
  · exact bodyLine_quoted [] "Name".toList (by decide) (by decide) h.name
  · exact bodyLine_place [] "DebugLoc".toList (by decide) (by decide)
      (h.debugLoc place (by simpa using hplace))
  · exact bodyLine_quoted [] "Function".toList (by decide) (by decide) h.function
  · exact ⟨by decide, by decide, by decide, by decide⟩
  · exact bodyLine_argument (h.arguments argument hargument) line hline

/-! ### The documents of a record -/

/-- Lines that are read as they are written are the lines of their text. -/
theorem lines_flatMap {lines : List Text}
    (h : ∀ line ∈ lines, '\n' ∉ line ∧ line.getLast? ≠ some '\r') :
    Text.lines (lines.flatMap (· ++ ['\n'])) = lines := by
  induction lines with
  | nil => rfl
  | cons line rest ih =>
    obtain ⟨honeLine, hnoReturn⟩ := h line (List.mem_cons_self ..)
    rw [List.flatMap_cons, List.append_assoc, List.singleton_append, Text.lines_cons honeLine,
      Text.dropReturn_eq_self_iff.mpr hnoReturn, ih fun l hl => h l (List.mem_cons_of_mem _ hl)]

/-- Lines that open no document are pending. -/
theorem cutDocuments_append {front : List Text}
    (h : ∀ line ∈ front, Text.after? documentOpen line = none) (rest : List Text) :
    cutDocuments (front ++ rest) = (front ++ (cutDocuments rest).1, (cutDocuments rest).2) := by
  induction front with
  | nil => rfl
  | cons line front ih =>
    have hline := h line (List.mem_cons_self ..)
    have hfront := ih fun l hl => h l (List.mem_cons_of_mem _ hl)
    rw [cutDocuments] at hfront ⊢
    rw [List.cons_append, List.foldr_cons, hfront, hline]
    rfl

/-- The line that opens a document takes what is pending. -/
theorem cutDocuments_open (tag : Text) (rest : List Text) :
    cutDocuments ((documentOpen ++ tag) :: rest) =
      ([], (tag, (cutDocuments rest).1) :: (cutDocuments rest).2) := by
  have hopens : Text.after? documentOpen (documentOpen ++ tag) = some tag :=
    Text.after?_append documentOpen tag
  rw [cutDocuments, List.foldr_cons, hopens]
  rfl

theorem cutDocuments_lines {documents : List Document}
    (h : ∀ document ∈ documents, document.Printable) :
    cutDocuments (documents.flatMap Document.lines) =
      ([], documents.map fun document =>
        (document.kind.tag, document.body ++ ["...".toList])) := by
  induction documents with
  | nil => rfl
  | cons document rest ih =>
    have hdocument := h document (List.mem_cons_self ..)
    have hrest := ih fun d hd => h d (List.mem_cons_of_mem _ hd)
    have hnone : ∀ line ∈ document.body ++ ["...".toList],
        Text.after? documentOpen line = none := by
      intro line hline
      rcases List.mem_append.mp hline with hline | hline
      · exact (bodyLine_of_mem_body hdocument line hline).not_opens
      · rw [List.mem_singleton.mp hline]
        decide
    rw [List.flatMap_cons, Document.lines, List.cons_append]
    refine (cutDocuments_open _ _).trans ?_
    rw [cutDocuments_append hnone, hrest, List.append_nil]
    rfl

/-- A document is printed in lines that are read as they are written. -/
theorem plain_of_mem_lines {document : Document} (h : document.Printable) :
    ∀ line ∈ document.lines, '\n' ∉ line ∧ line.getLast? ≠ some '\r' := by
  intro line hline
  rw [Document.lines, List.mem_cons, List.mem_append, List.mem_singleton] at hline
  rcases hline with rfl | hline | rfl
  · cases document.kind <;> decide
  · have hbody := bodyLine_of_mem_body h line hline
    exact ⟨hbody.oneLine, hbody.noReturn⟩
  · decide

/-- **The documents of a record are found again.** -/
theorem documents_print {records : List Document}
    (h : ∀ document ∈ records, document.Printable) :
    documents (Text.lines (print records).toList) =
      records.map fun document => (document.kind.tag, document.body ++ ["...".toList]) := by
  have hplain : ∀ line ∈ records.flatMap Document.lines,
      '\n' ∉ line ∧ line.getLast? ≠ some '\r' := by
    intro line hline
    obtain ⟨document, hdocument, hmem⟩ := List.mem_flatMap.mp hline
    exact plain_of_mem_lines (h document hdocument) line hmem
  rw [print, String.toList_ofList, lines_flatMap hplain, documents, cutDocuments_lines h]

/-! ### The remark of a document -/

/-- What a line with a key and a value does to a remark. -/
theorem next_field {draft : Draft} (hargs : draft.inArgs = false) {key : Text}
    (hcolon : ':' ∉ key) (value : Text) :
    draft.next (field key value) =
      if key == "Pass".toList then
        { draft with remark := { draft.remark with pass := String.ofList (unquote (' ' :: value)) } }
      else if key == "Name".toList then
        { draft with remark := { draft.remark with name := String.ofList (unquote (' ' :: value)) } }
      else if key == "Function".toList then
        { draft with remark := { draft.remark with
            function := String.ofList (unquote (' ' :: value)) } }
      else if key == "DebugLoc".toList then
        { draft with remark := { draft.remark with debugLoc := DebugLoc.ofText? (' ' :: value) } }
      else if key == "Args".toList then { draft with inArgs := true }
      else draft := by
  have hnext : draft.next (field key value) = draft.withField (field key value) := by
    rw [Draft.next, hargs, if_neg Bool.false_ne_true]
  rw [hnext, Draft.withField, cutAt?_field hcolon]

/-- What an argument adds to the message. -/
theorem argument_append_quoted {key gap : Text} (hcolon : ':' ∉ key)
    (hplace : Text.trim key ≠ "DebugLoc".toList) (hgap : Text.Blank gap) (value : String) :
    argument (field key (gap ++ quoted value)) = value := by
  have hne : (Text.trim key == "DebugLoc".toList) = false := beq_eq_false_iff_ne.mpr hplace
  have hblank : Text.Blank (' ' :: gap) := List.forall_mem_cons.mpr ⟨by decide, hgap⟩
  rw [argument, cutAt?_field hcolon]
  dsimp only
  rw [hne, if_neg Bool.false_ne_true, ← List.cons_append, unquote_append_quoted hblank,
    String.ofList_toList]

/-- The draft with more of its message. -/
def Draft.saying (draft : Draft) (text : String) : Draft :=
  { draft with remark := { draft.remark with
      displayString := draft.remark.displayString ++ text } }

theorem Draft.saying_empty (draft : Draft) : draft.saying "" = draft := by
  simp [saying]

theorem Draft.saying_saying (draft : Draft) (first second : String) :
    (draft.saying first).saying second = draft.saying (first ++ second) := by
  simp [saying, String.append_assoc]

/-- **An item of an argument list** adds its value to the message. -/
theorem next_item {draft : Draft} (hargs : draft.inArgs = true) {indent key gap : Text}
    (hindent : Text.Blank indent) (hcolon : ':' ∉ key) (hplace : Text.trim key ≠ "DebugLoc".toList)
    (hgap : Text.Blank gap) (value : String) :
    draft.next (indent ++ "- ".toList ++ field key (gap ++ quoted value)) = draft.saying value := by
  have hitem : Text.after? ['-', ' '] (Text.trimStart
      (indent ++ "- ".toList ++ field key (gap ++ quoted value))) =
        some (field key (gap ++ quoted value)) := by
    rw [List.append_assoc, Text.trimStart_append hindent]
    exact Text.after?_append ['-', ' '] _
  rw [Draft.next, hargs, if_pos rfl, hitem]
  dsimp only
  rw [argument_append_quoted hcolon hplace hgap, Draft.saying, hargs]

/-- **An argument is read**: its value is added to the message, and its place is passed over. -/
theorem foldl_next_argument {draft : Draft} (hargs : draft.inArgs = true) {part : Argument}
    (h : part.Printable) : part.lines.foldl Draft.next draft = draft.saying part.value := by
  have hindent : Text.Blank "  ".toList := by decide
  have hvalue : draft.next ("  - ".toList ++ field part.key.toList (quoted part.value)) =
      draft.saying part.value := next_item hargs hindent h.noColon h.noPlace .nil part.value
  have hplace (draft : Draft) (hargs : draft.inArgs = true) (place : DebugLoc) :
      draft.next ("    ".toList ++ field "DebugLoc".toList place.print) = draft := by
    have hnone : Text.after? ['-', ' '] (Text.trimStart
        ("    ".toList ++ field "DebugLoc".toList place.print)) = none := by
      rw [Text.trimStart_append (show Text.Blank "    ".toList by decide)]
      rfl
    rw [Draft.next, hargs, if_pos rfl, hnone]
    rfl
  rw [Argument.lines, List.foldl_cons, hvalue]
  cases part.place with
  | none => rfl
  | some place => exact hplace (draft.saying part.value) hargs place

/-- The arguments of a message are read one after the other. -/
theorem foldl_next_arguments {draft : Draft} (hargs : draft.inArgs = true) {parts : List Argument}
    (h : ∀ part ∈ parts, part.Printable) :
    (parts.flatMap Argument.lines).foldl Draft.next draft =
      draft.saying (String.join (parts.map (·.value))) := by
  induction parts generalizing draft with
  | nil => exact draft.saying_empty.symm
  | cons part rest ih =>
    have hpart := foldl_next_argument hargs (h part (List.mem_cons_self ..))
    have hsaying : (draft.saying part.value).inArgs = true := hargs
    have hrest := ih hsaying fun p hp => h p (List.mem_cons_of_mem _ hp)
    rw [List.flatMap_cons, List.foldl_append, hpart, hrest, Draft.saying_saying, List.map_cons,
      String.join_cons]

/-- **The body of a document is read** field by field. -/
theorem foldl_next_body {document : Document} (h : document.Printable) :
    document.body.foldl Draft.next { remark := { kind := document.kind } } =
      { remark := document.remark, inArgs := true } := by
  obtain ⟨kind, pass, name, place, function, parts⟩ := document
  have hpass : Draft.next { remark := { kind } } (field "Pass".toList (quoted pass)) =
      { remark := { kind, pass } } := by
    rw [next_field rfl (by decide), if_pos (by decide), unquote_quoted, String.ofList_toList]
  have hname : Draft.next { remark := { kind, pass } } (field "Name".toList (quoted name)) =
      { remark := { kind, pass, name } } := by
    rw [next_field rfl (by decide), if_neg (by decide), if_pos (by decide), unquote_quoted,
      String.ofList_toList]
  have hplace : (place.toList.map fun place => field "DebugLoc".toList place.print).foldl
      Draft.next { remark := { kind, pass, name } } =
        { remark := { kind, pass, name, debugLoc := place } } := by
    cases place with
    | none => rfl
    | some place =>
      have hread := DebugLoc.ofText?_print (h.debugLoc place rfl)
      rw [Option.toList_some, List.map_singleton, List.foldl_cons, List.foldl_nil,
        next_field rfl (by decide), if_neg (by decide), if_neg (by decide), if_neg (by decide),
        if_pos (by decide), hread]
  have hfunction : Draft.next { remark := { kind, pass, name, debugLoc := place } }
      (field "Function".toList (quoted function)) =
        { remark := { kind, pass, name, debugLoc := place, function } } := by
    rw [next_field rfl (by decide), if_neg (by decide), if_neg (by decide), if_pos (by decide),
      unquote_quoted, String.ofList_toList]
  have hargs (remark : Remark) :
      Draft.next { remark } "Args:".toList = { remark, inArgs := true } := rfl
  rw [Document.body, List.cons_append, List.cons_append, List.foldl_cons, hpass, List.foldl_cons,
    hname, List.foldl_append, hplace, List.foldl_cons, hfunction, List.foldl_cons, hargs,
    foldl_next_arguments rfl h.arguments, Document.remark, Draft.saying, String.empty_append]

theorem kindOf_tag (kind : Kind) : kindOf kind.tag = kind := by
  cases kind <;> decide

/-- **A document is read as its remark.** -/
theorem read_document {document : Document} (h : document.Printable) :
    read (document.kind.tag, document.body ++ ["...".toList]) = document.remark := by
  have hbody : (document.body ++ ["...".toList]).takeWhile (!closes ·) = document.body := by
    have hopen : ∀ line ∈ document.body, (!closes line) = true := by
      intro line hline
      rw [(bodyLine_of_mem_body h line hline).not_closes, Bool.not_false]
    have hdots : ["...".toList].takeWhile (!closes ·) = [] := by decide
    rw [List.takeWhile_append_of_pos hopen, hdots, List.append_nil]
  unfold read
  dsimp only
  rw [hbody, kindOf_tag, foldl_next_body h]

end Record

/-- **Reading undoes printing**: the remarks of a printed record are those of its documents, in
their order. -/
theorem ofRecord_print {records : List Document} (h : ∀ document ∈ records, document.Printable) :
    ofRecord (Record.print records) = records.map Document.remark := by
  rw [ofRecord, Record.documents_print h, List.map_map]
  apply List.map_congr_left
  intro document hdocument
  exact Record.read_document (h document hdocument)

/-- Two remarks with values that look like parts of a record. -/
def awkwardDocuments : List Document :=
  [{ kind := .missed
     pass := "in: line"
     name := " NoDefinition "
     debugLoc := some { file := "a,\"b\x7d.cu", line := 4, column := 4294967295 }
     function := "..."
     arguments :=
      [{ key := "Callee", value := "- Args:", place := some { file := "b.cu", line := 2 } },
        { key := " - ", value := "--- !Passed" }] },
    { kind := .other, pass := "", name := "\"x\"", function := "main" }]

/-- Such remarks are read back from their record. -/
theorem ofRecord_print_awkward :
    Record.print awkwardDocuments =
      "--- !Missed\nPass: 'in: line'\nName: ' NoDefinition '\n" ++
      "DebugLoc: \x7b File: 'a,\"b\x7d.cu', Line: 4, Column: 4294967295 \x7d\nFunction: '...'\n" ++
      "Args:\n  - Callee: '- Args:'\n    DebugLoc: \x7b File: 'b.cu', Line: 2, Column: 0 \x7d\n" ++
      "  -  - : '--- !Passed'\n...\n" ++
      "--- !Other\nPass: ''\nName: '\"x\"'\nFunction: 'main'\nArgs:\n...\n" ∧
    ofRecord (Record.print awkwardDocuments) =
      [{ kind := .missed
         pass := "in: line"
         name := " NoDefinition "
         function := "..."
         debugLoc := some { file := "a,\"b\x7d.cu", line := 4, column := 4294967295 }
         displayString := "- Args:--- !Passed" },
        { kind := .other, name := "\"x\"", function := "main" }] := by
  refine ⟨by decide +kernel, ?_⟩
  rw [ofRecord_print (by decide)]
  decide

end AsmInspect.Remark

import AsmInspect.Listing.Position
import AsmInspect.Proofs.Listing.Notice
import AsmInspect.Proofs.Text.Blanks
import AsmInspect.Proofs.Text.Lines

/-!
# Marker lines

Three kinds of lines say something about the positions of the lines behind them: a comment that
names a file and a line, a directive that names a line of a file with a number, and a directive that
gives a file its number. No line is of two kinds, since the first words differ. A line of no kind,
such as one whose number is missing or does not fit in 32 bits, leaves the tracker as it is.

## Main definitions

* `Listing.IsMarkerComment`: a comment `//## File "name", line 12`
* `Listing.Refers`: a directive `.loc 1 12`
* `Listing.Declares`: a directive `.file 1 "name"`

## Main results

* `Listing.isMarkerComment_printed`: the comments that a disassembler prints are markers
* `Listing.markerComment?_eq_some_iff`: which comments are read as markers
* `Listing.Tracker.next_cases`: what a line does to the tracker
-/

namespace AsmInspect

namespace Listing

/-- **A comment that names a source position**: the name of the file in double quotes, and the
number of the line after the word `line`. Commas and blanks may stand between them, and after the
number whatever is no digit. -/
inductive IsMarkerComment : Text → SourcePosition → Prop
  | intro {name commas gap space digits tail : Text} {line : UInt32}
      (quoteless : '"' ∉ name) (commas_eq : ∀ c ∈ commas, c = ',') (blank_gap : Text.Blank gap)
      (blank_space : Text.Blank space) (isDigit : ∀ c ∈ digits, c.isDigit = true)
      (number : Text.unsigned? maxWord32 digits = some line.toNat)
      (ends : ∀ c, tail.head? = some c → c.isDigit = false) :
      IsMarkerComment
        ("//## File \"".toList ++ (name ++ '"' ::
          (commas ++ (gap ++ ("line".toList ++ (space ++ (digits ++ tail)))))))
        { file := some (String.ofList name), line }

/-- The comments that a disassembler prints name a source position. -/
theorem isMarkerComment_printed {name digits : Text} {line : UInt32} (quoteless : '"' ∉ name)
    (isDigit : ∀ c ∈ digits, c.isDigit = true)
    (number : Text.unsigned? maxWord32 digits = some line.toNat) :
    IsMarkerComment ("//## File \"".toList ++ name ++ "\", line ".toList ++ digits)
      { file := some (String.ofList name), line } := by
  have hcomma : ∀ c ∈ [','], c = ',' := by simp
  have hblank : Text.Blank [' '] := by decide
  have hcomment := IsMarkerComment.intro quoteless hcomma hblank hblank isDigit number
    (fun c (h : [].head? = some c) => by cases h)
  simpa using hcomment

/-- A directive that names a line of the file with a number. -/
def Refers (line : Text) (index number : Nat) : Prop :=
  ∃ first second rest, Text.words line = ".loc".toList :: first :: second :: rest ∧
    Text.unsigned? maxWord32 first = some index ∧ Text.unsigned? maxWord32 second = some number

/-- A directive that gives a file a number. The name is without the quotes around it. -/
def Declares (line : Text) (index : Nat) (name : String) : Prop :=
  ∃ first second rest, Text.words line = ".file".toList :: first :: second :: rest ∧
    Text.unsigned? maxWord32 first = some index ∧
    name = String.ofList (Text.trimBoth (· == '"') second)

variable {line : Text} {position : SourcePosition}

/-! ### Comments -/

/-- Digits are taken up to the first character that is none. -/
theorem takeWhile_isDigit {digits tail : Text} (hdigits : ∀ c ∈ digits, c.isDigit = true)
    (htail : ∀ c, tail.head? = some c → c.isDigit = false) :
    (digits ++ tail).takeWhile Char.isDigit = digits := by
  rw [List.takeWhile_append_of_pos hdigits]
  cases tail with
  | nil => simp
  | cons c rest => simp [htail c rfl]

theorem markerComment?_of_isMarkerComment (h : IsMarkerComment line position) :
    markerComment? line = some position := by
  cases h with
  | @intro name commas gap space digits tail number hquoteless hcommas hgap hspace hdigits hnumber
      hends =>
  have hne : digits ≠ [] := by
    rintro rfl
    exact Option.some_ne_none _ (hnumber.symm.trans (Text.unsigned?_nil maxWord32))
  have hblank {c : Char} (hc : c ∈ digits) : Text.isBlank c = false :=
    Text.not_blank_of_isDigit (hdigits c hc)
  -- behind the commas stands a blank or the word
  have hdrop : (commas ++ (gap ++ ("line".toList ++ (space ++ (digits ++ tail))))).dropWhile
      (· == ',') = gap ++ ("line".toList ++ (space ++ (digits ++ tail))) := by
    rw [List.dropWhile_append_of_pos (by simpa using hcommas)]
    cases gap with
    | nil => rfl
    | cons c gap =>
      have hc : (c == ',') = false := by
        rw [beq_eq_false_iff_ne]
        rintro rfl
        exact absurd (hgap ',' (List.mem_cons_self ..)) (by decide)
      rw [List.cons_append, List.dropWhile_cons, hc, if_neg Bool.false_ne_true]
  have hword : Text.trim (gap ++ ("line".toList ++ (space ++ (digits ++ tail)))) =
      "line".toList ++ (space ++ (digits ++ Text.trimEnd tail)) := by
    have hgapless := Text.trim_append hgap .nil ("line".toList ++ (space ++ (digits ++ tail)))
    rw [List.append_nil] at hgapless
    have hshape (rest : Text) : "line".toList ++ (space ++ (digits ++ rest)) =
        ("line".toList ++ space ++ digits) ++ rest := by simp only [List.append_assoc]
    rw [hgapless, hshape, hshape]
    refine Text.trim_append_of_ends (by simp) ?_ ?_ tail
    · intro c hc
      obtain rfl : 'l' = c := by simpa using hc
      decide
    · intro c hc
      rw [List.getLast?_append_of_ne_nil _ hne] at hc
      exact hblank (List.mem_of_mem_getLast? hc)
  have hcounted : Text.trim (space ++ (digits ++ Text.trimEnd tail)) =
      digits ++ Text.trimEnd (Text.trimEnd tail) := by
    have hspaceless := Text.trim_append hspace .nil (digits ++ Text.trimEnd tail)
    rw [List.append_nil] at hspaceless
    refine hspaceless.trans (Text.trim_append_of_ends hne ?_ ?_ _)
    · exact fun c hc => hblank (List.mem_of_mem_head? hc)
    · exact fun c hc => hblank (List.mem_of_mem_getLast? hc)
  have htaken : (digits ++ Text.trimEnd (Text.trimEnd tail)).takeWhile Char.isDigit = digits :=
    takeWhile_isDigit hdigits fun c hc =>
      hends c (Text.head?_of_head?_trimEnd (Text.head?_of_head?_trimEnd hc))
  unfold markerComment?
  rw [Text.after?_append, Option.bind_eq_bind, Option.bind_some, Text.cutAt?_append hquoteless,
    Option.bind_eq_bind, Option.bind_some]
  dsimp only
  rw [hdrop, hword, Text.after?_append, Option.bind_eq_bind, Option.bind_some, hcounted, htaken,
    hnumber, Option.bind_some]
  have hline : number.toNat.toUInt32 = number := by simp
  rw [hline]
  rfl

theorem isMarkerComment_of_markerComment? (h : markerComment? line = some position) :
    IsMarkerComment line position := by
  unfold markerComment? at h
  obtain ⟨named, hnamed, h⟩ := Option.bind_eq_some_iff.mp h
  obtain ⟨⟨name, rest⟩, hname, h⟩ := Option.bind_eq_some_iff.mp h
  obtain ⟨counted, hcounted, h⟩ := Option.bind_eq_some_iff.mp h
  obtain ⟨number, hnumber, h⟩ := Option.bind_eq_some_iff.mp h
  rw [Text.after?_eq_some_iff] at hnamed hcounted
  obtain ⟨hname, hquoteless⟩ := Text.cutAt?_eq_some_iff.mp hname
  obtain rfl := Option.some.inj h
  -- what stands around the word and around the number is blank
  obtain ⟨gap, after, hgap, hafter, hword⟩ := Text.exists_trim (rest.dropWhile (· == ','))
  obtain ⟨space, behind, hspace, hbehind, hdigits⟩ := Text.exists_trim counted
  have hnondigit := List.head?_dropWhile_not Char.isDigit (Text.trim counted)
  have hmore : Text.trim counted = (Text.trim counted).takeWhile Char.isDigit ++
      (Text.trim counted).dropWhile Char.isDigit := List.takeWhile_append_dropWhile.symm
  have htaken : ∀ c ∈ (Text.trim counted).takeWhile Char.isDigit, c.isDigit = true :=
    fun _ hc => List.mem_takeWhile_imp hc
  generalize (Text.trim counted).takeWhile Char.isDigit = digits at hnumber hmore htaken
  generalize (Text.trim counted).dropWhile Char.isDigit = more at hnondigit hmore
  have hrest : rest = rest.takeWhile (· == ',') ++
      (gap ++ ("line".toList ++ (space ++ (digits ++ (more ++ (behind ++ after)))))) := by
    conv_lhs => rw [← List.takeWhile_append_dropWhile (p := (· == ',')) (l := rest), hword,
      hcounted, hdigits, hmore]
    simp only [List.append_assoc]
  have hends : ∀ c, (more ++ (behind ++ after)).head? = some c → c.isDigit = false := by
    intro c hc
    cases more with
    | cons d more =>
      obtain rfl : d = c := by simpa using hc
      exact hnondigit
    | nil =>
      -- a blank is no digit
      have hmem : c ∈ behind ++ after := List.mem_of_mem_head? (by simpa using hc)
      have hblank : Text.isBlank c = true :=
        (List.mem_append.mp hmem).elim (hbehind c) (hafter c)
      by_contra hdigit
      rw [Text.not_blank_of_isDigit (by simpa using hdigit)] at hblank
      cases hblank
  rw [hnamed, hname, hrest]
  refine .intro hquoteless (fun c hc => ?_) hgap hspace htaken ?_ hends
  · simpa using List.mem_takeWhile_imp hc
  · rw [Text.toNat_toUInt32_of_unsigned? hnumber]
    exact hnumber

/-- **Which comments are read as markers.** -/
theorem markerComment?_eq_some_iff :
    markerComment? line = some position ↔ IsMarkerComment line position :=
  ⟨isMarkerComment_of_markerComment?, markerComment?_of_isMarkerComment⟩

/-! ### Kinds of lines -/

section Words

variable {word first second : Text} {rest : List Text} {index number : Nat} {name : String}

/-- Which lines of three words or more name a line of a file. -/
theorem refers_iff (hwords : Text.words line = word :: first :: second :: rest) :
    Refers line index number ↔ word = ".loc".toList ∧
      Text.unsigned? maxWord32 first = some index ∧
      Text.unsigned? maxWord32 second = some number := by
  constructor
  · rintro ⟨first', second', rest', hwords', hindex, hnumber⟩
    rw [hwords, List.cons.injEq, List.cons.injEq, List.cons.injEq] at hwords'
    obtain ⟨hword, rfl, rfl, -⟩ := hwords'
    exact ⟨hword, hindex, hnumber⟩
  · rintro ⟨rfl, hindex, hnumber⟩
    exact ⟨first, second, rest, hwords, hindex, hnumber⟩

/-- Which lines of three words or more give a file a number. -/
theorem declares_iff (hwords : Text.words line = word :: first :: second :: rest) :
    Declares line index name ↔ word = ".file".toList ∧
      Text.unsigned? maxWord32 first = some index ∧
      name = String.ofList (Text.trimBoth (· == '"') second) := by
  constructor
  · rintro ⟨first', second', rest', hwords', hindex, hname⟩
    rw [hwords, List.cons.injEq, List.cons.injEq, List.cons.injEq] at hwords'
    obtain ⟨hword, rfl, rfl, -⟩ := hwords'
    exact ⟨hword, hindex, hname⟩
  · rintro ⟨rfl, hindex, hname⟩
    exact ⟨first, second, rest, hwords, hindex, hname⟩

end Words

variable {index index' number number' : Nat} {name name' : String}

/-- The first word of a marker comment is no directive. -/
theorem IsMarkerComment.exists_words (h : IsMarkerComment line position) :
    ∃ rest, Text.words line = "//##".toList :: rest := by
  cases h with
  | intro =>
    have hword : Text.IsWord "//##".toList := by decide
    exact ⟨_, Text.words_append_cons hword (c := ' ') (by decide) _⟩

theorem IsMarkerComment.word_eq (h : IsMarkerComment line position) {word : Text}
    {rest : List Text} (hwords : Text.words line = word :: rest) : word = "//##".toList := by
  obtain ⟨others, hcomment⟩ := h.exists_words
  exact (List.cons.inj (hwords.symm.trans hcomment)).1

theorem IsMarkerComment.not_refers (h : IsMarkerComment line position) :
    ¬ Refers line index number := by
  rintro ⟨first, second, rest, hwords, -⟩
  exact absurd (h.word_eq hwords) (by decide)

theorem IsMarkerComment.not_declares (h : IsMarkerComment line position) :
    ¬ Declares line index name := by
  rintro ⟨first, second, rest, hwords, -⟩
  exact absurd (h.word_eq hwords) (by decide)

theorem IsMarkerComment.position_eq {other : SourcePosition} (h : IsMarkerComment line position)
    (h' : IsMarkerComment line other) : position = other :=
  Option.some.inj ((markerComment?_of_isMarkerComment h).symm.trans
    (markerComment?_of_isMarkerComment h'))

theorem Refers.not_declares (h : Refers line index number) : ¬ Declares line index' name := by
  obtain ⟨first, second, rest, hwords, -⟩ := h
  rw [declares_iff hwords]
  rintro ⟨hword, -⟩
  exact absurd hword (by decide)

/-- A directive names one line of one file. -/
theorem Refers.eq (h : Refers line index number) (h' : Refers line index' number') :
    index = index' ∧ number = number' := by
  obtain ⟨first, second, rest, hwords, hindex, hnumber⟩ := h
  obtain ⟨-, hindex', hnumber'⟩ := (refers_iff hwords).mp h'
  exact ⟨Option.some.inj (hindex.symm.trans hindex'),
    Option.some.inj (hnumber.symm.trans hnumber')⟩

/-- A directive gives a number to one file. -/
theorem Declares.eq (h : Declares line index name) (h' : Declares line index' name') :
    index = index' ∧ name = name' := by
  obtain ⟨first, second, rest, hwords, hindex, rfl⟩ := h
  obtain ⟨-, hindex', rfl⟩ := (declares_iff hwords).mp h'
  exact ⟨Option.some.inj (hindex.symm.trans hindex'), rfl⟩

/-! ### The tracker -/

namespace Tracker

/-- **What a line does to the tracker**, for each kind of line. -/
inductive NextCase (tracker : Tracker) (line : Text) : Tracker → Prop
  | comment {position : SourcePosition} (marks : IsMarkerComment line position) :
      NextCase tracker line { tracker with current := some position }
  | refers {index number : Nat} (refers : Refers line index number) :
      NextCase tracker line
        { tracker with current := some { file := tracker.file? index, line := number.toUInt32 } }
  | declares {index : Nat} {name : String} (declares : Declares line index name) :
      NextCase tracker line { tracker with files := (index, name) :: tracker.files }
  | other (unmarked : ∀ position, ¬ IsMarkerComment line position)
      (unreferring : ∀ index number, ¬ Refers line index number)
      (undeclaring : ∀ index name, ¬ Declares line index name) : NextCase tracker line tracker

/-- What the words of a line that is no comment do to the tracker. -/
theorem directive_cases (tracker : Tracker)
    (unmarked : ∀ position, ¬ IsMarkerComment line position) :
    NextCase tracker line (tracker.directive (Text.words line)) := by
  unfold directive
  split
  case h_1 word first second rest hwords =>
    have hrefers {i n : Nat} := @refers_iff line word first second rest i n hwords
    have hdeclares {i : Nat} {name : String} :=
      @declares_iff line word first second rest i name hwords
    split
    case isTrue hfile =>
      obtain rfl : word = ".file".toList := by simpa using hfile
      split
      case h_1 index hindex => exact .declares (hdeclares.mpr ⟨rfl, hindex, rfl⟩)
      case h_2 hindex =>
        exact .other unmarked (by simp [hrefers]) (by simp [hdeclares, hindex])
    case isFalse hfile =>
      split
      case isTrue hloc =>
        obtain rfl : word = ".loc".toList := by simpa using hloc
        split
        case h_1 index number hindex hnumber =>
          exact .refers (hrefers.mpr ⟨rfl, hindex, hnumber⟩)
        case h_2 hnumbers =>
          refine .other unmarked (fun index number h => ?_) (by simp [hdeclares])
          obtain ⟨-, hindex, hnumber⟩ := hrefers.mp h
          exact hnumbers _ _ hindex hnumber
      case isFalse hloc =>
        rw [beq_iff_eq] at hfile hloc
        exact .other unmarked (fun _ _ h => hloc (hrefers.mp h).1) fun _ _ h =>
          hfile (hdeclares.mp h).1
  case h_2 hshort =>
    refine .other unmarked ?_ ?_
    · rintro index number ⟨first, second, rest, hwords, -⟩
      exact hshort _ _ _ _ hwords
    · rintro index name ⟨first, second, rest, hwords, -⟩
      exact hshort _ _ _ _ hwords

theorem next_cases (tracker : Tracker) (line : Text) :
    NextCase tracker line (tracker.next line) := by
  unfold next
  cases hmarker : markerComment? line with
  | some position =>
    have hmarks := markerComment?_eq_some_iff.mp hmarker
    obtain ⟨rest, hwords⟩ := hmarks.exists_words
    rw [hwords]
    dsimp only
    rw [directive_eq _ (by decide) (by decide)]
    exact .comment hmarks
  | none =>
    refine directive_cases tracker fun position hmarks => ?_
    rw [markerComment?_eq_some_iff.mpr hmarks] at hmarker
    cases hmarker

end Tracker

end Listing

end AsmInspect

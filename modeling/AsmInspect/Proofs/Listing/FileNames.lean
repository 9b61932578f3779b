import AsmInspect.Proofs.Listing.Attribution
import AsmInspect.Proofs.Listing.Encodings

/-!
# Names of files in markers

A comment says in one line which file and line the next instructions come from; two directives say
the same, the first of which gives the file a number. The comment is read up to the closing quote of
the name. The directive is read word by word, and the name is one word with its quotes taken off: a
name with a blank is cut off there, and if the time and the size of the file follow the name, the
comma in front of them is a part of the word and keeps the closing quote from being taken off. So
the two kinds of markers agree about a file just if its name has no blank and nothing follows it.
This is said of the lines that are shown, which make up the listing (`Listing.lines_ofText`).

## Main definitions

* `Listing.fileComment`, `Listing.fileDirective`, `Listing.lineDirective`: the markers as they are
  printed
* `Listing.declaredName`: the name that a directive gives the file
* `Listing.Behind`: a line behind some markers

## Main results

* `Text.words_eq_cons`: the first word of a text
* `Listing.isMarkerComment_read`, `Listing.declares_read`, `Listing.refers_read`: what is read in
  the markers
* `Listing.declaredName_eq_iff`: which names are read in a directive as they are written
* `Listing.markers_agree_iff`: when the two kinds of markers agree
-/

namespace AsmInspect

namespace Text

variable {p : Char → Bool} {text : Text} {c : Char}

theorem mem_of_mem_trimBoth (h : c ∈ trimBoth p text) : c ∈ text := by
  rw [trimBoth, dropEndWhile, List.mem_reverse] at h
  have hstart := (List.dropWhile_suffix p).subset h
  exact (List.dropWhile_suffix p).subset (List.mem_reverse.mp hstart)

/-- Characters that are not taken off are as many as before. -/
theorem count_trimBoth (hc : p c = false) (text : Text) :
    (trimBoth p text).count c = text.count c := by
  have hdrop (text : Text) : (text.dropWhile p).count c = text.count c := by
    conv_rhs => rw [← List.takeWhile_append_dropWhile (p := p) (l := text), List.count_append]
    have hnone : (text.takeWhile p).count c = 0 := by
      refine List.count_eq_zero.mpr fun hmem => ?_
      rw [List.mem_takeWhile_imp hmem] at hc
      cases hc
    rw [hnone, Nat.zero_add]
  rw [trimBoth, dropEndWhile, List.count_reverse, hdrop, List.count_reverse, hdrop]

/-- A text between two characters that are taken off, without any of them inside. -/
theorem trimBoth_between (hc : p c = true) (h : ∀ d ∈ text, p d = false) :
    trimBoth p (c :: (text ++ [c])) = text := by
  rw [trimBoth, dropEndWhile, List.dropWhile_cons, if_pos hc]
  rcases List.eq_nil_or_concat text with rfl | ⟨front, last, htext⟩
  · simp [hc]
  -- the text starts and ends with a character that stays
  · obtain ⟨first, more, hfirst⟩ : ∃ first more, text = first :: more :=
      List.exists_cons_of_ne_nil (by simp [htext])
    have hhead : p first = false := h first (hfirst ▸ List.mem_cons_self ..)
    have hlast : p last = false := h last (by simp [htext])
    rw [hfirst, List.cons_append, List.dropWhile_cons, if_neg (by simp [hhead]), ← List.cons_append,
      ← hfirst, htext]
    simp [hc, hlast]

/-- **The first word of a text** that starts with no blank. -/
theorem words_eq_cons (hc : isBlank c = false) (text : Text) :
    words (c :: text) = (c :: text).takeWhile (!isBlank ·) ::
      words ((c :: text).dropWhile (!isBlank ·)) := by
  have hword : IsWord ((c :: text).takeWhile (!isBlank ·)) := by
    refine ⟨by simp [hc], fun d hd => ?_⟩
    simpa using List.mem_takeWhile_imp hd
  conv_lhs => rw [← List.takeWhile_append_dropWhile (p := (!isBlank ·)) (l := c :: text)]
  -- behind the word stands a blank, if anything
  cases hrest : (c :: text).dropWhile (!isBlank ·) with
  | nil => rw [List.append_nil, words_of_isWord hword]; rfl
  | cons d rest =>
    have hd : isBlank d = true := by
      have hhead := List.head?_dropWhile_not (!isBlank ·) (c :: text)
      rw [hrest] at hhead
      simpa using hhead
    have hblank : Blank [d] := by simpa [Blank] using hd
    rw [words_append_cons hword hd]
    exact congrArg _ (words_blank_append hblank rest).symm

end Text

namespace Listing

/-! ### Markers as they are printed -/

/-- The digits of a number. -/
def decimal (number : UInt32) : Text := Nat.toDigits 10 number.toNat

/-- A comment that names a line of a file. -/
def fileComment (name : Text) (line : UInt32) : Text :=
  "//## File ".toList ++ '"' :: (name ++ '"' :: (", line ".toList ++ decimal line))

/-- What may follow the name of a file: when it was changed, and how large it is. -/
def stampText : Option (Nat × Nat) → Text
  | none => []
  | some (time, size) =>
    ", ".toList ++ Nat.toDigits 10 time ++ ", ".toList ++ Nat.toDigits 10 size

/-- A directive that gives a file its number. -/
def fileDirective (index : UInt32) (name : Text) (stamp : Option (Nat × Nat)) : Text :=
  Text.join [' '] [".file".toList, decimal index, '"' :: (name ++ '"' :: stampText stamp)]

/-- A directive that names a line of the file with a number. -/
def lineDirective (index line : UInt32) : Text :=
  Text.join [' '] [".loc".toList, decimal index, decimal line, "0".toList]

/-- The name of a file without the encodings that are taken out of the listing of a binary. -/
def bareName (binary : Bool) (name : Text) : Text := if binary then dropEncodings name else name

/-- The name that a directive gives the file: the word in which it begins, without quotes at either
end. -/
def declaredName (name : Text) (stamp : Option (Nat × Nat)) : Text :=
  Text.trimBoth (· == '"') (('"' :: (name ++ '"' :: stampText stamp)).takeWhile (!Text.isBlank ·))

/-- A line behind some markers, with no other marker in between. -/
def Behind (binary : Bool) (raws markers : List Text) (number : Nat) (raw : Text) : Prop :=
  ∃ front between back, raws = front ++ (markers ++ (between ++ raw :: back)) ∧
    number = (front ++ markers ++ between).length ∧
    ∀ other ∈ between ++ [raw], ¬ IsMarker (Text.trim (readLine binary other))

variable {binary : Bool} {name : Text} {index line : UInt32} {stamp : Option (Nat × Nat)}

theorem isDigit_of_mem_decimal {c : Char} (h : c ∈ decimal line) : c.isDigit = true :=
  Text.isDigit_of_mem_toDigits h

theorem isWord_decimal : Text.IsWord (decimal line) :=
  ⟨Nat.toDigits_ne_nil, fun _ hc => Text.not_blank_of_isDigit (isDigit_of_mem_decimal hc)⟩

theorem unsigned?_decimal : Text.unsigned? maxWord32 (decimal line) = some line.toNat :=
  Text.unsigned?_toDigits (Nat.le_of_lt_succ line.toNat_lt)

/-! ### Markers as they are read -/

theorem mem_of_mem_bareName {c : Char} (h : c ∈ bareName binary name) : c ∈ name := by
  cases binary with
  | false => exact h
  | true => exact mem_of_mem_dropEncodings h

/-- A name without blanks holds no encoding. -/
theorem bareName_of_unspaced (h : ∀ c ∈ name, Text.isBlank c = false) :
    bareName binary name = name := by
  cases binary with
  | false => rfl
  | true =>
    refine dropEncodings_of_not_carries fun hcarries => ?_
    cases h ' ' hcarries.space_mem

/-- Blanks and encodings do not matter to what stands between quotes. -/
theorem trim_readLine_quoted {before after : Text}
    (hbefore : Text.cut? encodingOpen before = none) (hslash : '/' ∉ after) :
    Text.trim (readLine binary (before ++ '"' :: (name ++ '"' :: after))) =
      Text.trim (before ++ '"' :: (bareName binary name ++ '"' :: after)) := by
  cases binary with
  | false => rfl
  | true =>
    -- no encoding reaches over a quote, so each part of the line is read by itself
    have hopen : Text.cut? encodingOpen after = none := cut?_eq_none_of_not_mem (by decide) hslash
    have hclose : Text.cut? commentClose after = none := cut?_eq_none_of_not_mem (by decide) hslash
    have hdrop : dropEncodings (before ++ '"' :: (name ++ '"' :: after)) =
        before ++ '"' :: (bareName true name ++ '"' :: after) :=
      dropEncodings_quoted hbefore hopen hclose name
    calc Text.trim (readLine true (before ++ '"' :: (name ++ '"' :: after)))
      _ = Text.trim (Text.trimEnd (before ++ '"' :: (bareName true name ++ '"' :: after))) :=
        congrArg (fun line => Text.trim (Text.trimEnd line)) hdrop
      _ = Text.trim (before ++ '"' :: (bareName true name ++ '"' :: after)) := Text.trim_trimEnd _

/-- A line without a slash holds no encoding. -/
theorem trim_readLine_of_not_mem {raw : Text} (hslash : '/' ∉ raw) :
    Text.trim (readLine binary raw) = Text.trim raw := by
  cases binary with
  | false => rfl
  | true =>
    have hdrop : dropEncodings raw = raw :=
      dropEncodings_of_unopened (cut?_eq_none_of_not_mem (by decide) hslash)
    rw [readLine, if_pos rfl, stripEncodings, hdrop, Text.trim_trimEnd]

theorem slash_not_mem_toDigits {n : Nat} : '/' ∉ Nat.toDigits 10 n :=
  fun h => absurd (Text.isDigit_of_mem_toDigits h) (by decide)

/-- **What a comment says**: the name between the quotes, but for encodings. -/
theorem isMarkerComment_read (hquote : '"' ∉ name) :
    IsMarkerComment (Text.trim (readLine binary (fileComment name line)))
      { file := some (String.ofList (bareName binary name)), line } := by
  have hslash : '/' ∉ ", line ".toList ++ decimal line := by
    rw [List.mem_append, not_or]
    exact ⟨by decide, slash_not_mem_toDigits⟩
  -- the slashes in front of the name open no encoding
  have hopen : Text.cut? encodingOpen "//## File ".toList = none := by decide
  have hshape : "//## File ".toList ++
      '"' :: (bareName binary name ++ '"' :: (", line ".toList ++ decimal line)) =
        "//## File \"".toList ++ bareName binary name ++ "\", line ".toList ++ decimal line := by
    simp
  have hread : Text.trim (readLine binary (fileComment name line)) =
      "//## File \"".toList ++ bareName binary name ++ "\", line ".toList ++ decimal line := by
    refine (trim_readLine_quoted hopen hslash).trans ((congrArg Text.trim hshape).trans ?_)
    refine Text.trim_eq_self (fun c hc => ?_) fun c hc => ?_
    · obtain rfl : '/' = c := by simpa using hc
      decide
    · rw [List.getLast?_append_of_ne_nil _ isWord_decimal.ne_nil] at hc
      exact Text.not_blank_of_isDigit (isDigit_of_mem_decimal (List.mem_of_mem_getLast? hc))
  rw [hread]
  exact isMarkerComment_printed (fun h => hquote (mem_of_mem_bareName h))
    (fun _ => isDigit_of_mem_decimal) unsigned?_decimal

/-- **What a directive says about a file**: its number, and the word in which its name begins. -/
theorem declares_read :
    Declares (Text.trim (readLine binary (fileDirective index name stamp))) index.toNat
      (String.ofList (declaredName (bareName binary name) stamp)) := by
  let before : Text := ".file".toList ++ ' ' :: (decimal index ++ [' '])
  have hshape (rest : Text) :
      before ++ rest = ".file".toList ++ ' ' :: (decimal index ++ ' ' :: rest) := by
    simp only [before, List.append_assoc, List.cons_append, List.nil_append]
  have hdirective : fileDirective index name stamp =
      before ++ '"' :: (name ++ '"' :: stampText stamp) := by
    simp only [fileDirective, Text.join, before, List.append_assoc, List.cons_append,
      List.nil_append]
  have hbefore : '/' ∉ before := by
    simp only [before, List.mem_append, List.mem_cons, not_or]
    exact ⟨by decide, by decide, slash_not_mem_toDigits, by decide⟩
  have hopen : Text.cut? encodingOpen before = none := cut?_eq_none_of_not_mem (by decide) hbefore
  have hslash : '/' ∉ stampText stamp := by
    cases stamp with
    | none => exact List.not_mem_nil
    | some stamp =>
      simp only [stampText, List.mem_append, not_or]
      exact ⟨⟨⟨by decide, slash_not_mem_toDigits⟩, by decide⟩, slash_not_mem_toDigits⟩
  have hblank : Text.isBlank ' ' = true := by decide
  have hquote : Text.isBlank '"' = false := by decide
  have hword : Text.IsWord ".file".toList := by decide
  have hwords : Text.words (Text.trim (readLine binary (fileDirective index name stamp))) =
      ".file".toList :: decimal index :: Text.words
        ('"' :: (bareName binary name ++ '"' :: stampText stamp)) := by
    rw [hdirective, trim_readLine_quoted hopen hslash, Text.words_trim, hshape,
      Text.words_append_cons hword hblank, Text.words_append_cons isWord_decimal hblank]
  rw [Text.words_eq_cons hquote] at hwords
  exact ⟨decimal index, _, _, hwords, unsigned?_decimal, rfl⟩

/-- **What a directive says about a line**: the number of the file, and that of the line. -/
theorem refers_read :
    Refers (Text.trim (readLine binary (lineDirective index line))) index.toNat line.toNat := by
  have hword : Text.IsWord ".loc".toList := by decide
  have hzero : Text.IsWord "0".toList := by decide
  have hparts : ∀ part ∈ [".loc".toList, decimal index, decimal line, "0".toList],
      Text.IsWord part := by
    intro part hpart
    simp only [List.mem_cons, List.not_mem_nil, or_false] at hpart
    rcases hpart with rfl | rfl | rfl | rfl
    exacts [hword, isWord_decimal, isWord_decimal, hzero]
  have hslash : '/' ∉ lineDirective index line := by
    simp only [lineDirective, Text.join, List.mem_append, not_or]
    exact ⟨⟨by decide, by decide⟩, ⟨slash_not_mem_toDigits, by decide⟩,
      ⟨slash_not_mem_toDigits, by decide⟩, by decide⟩
  refine ⟨decimal index, decimal line, ["0".toList], ?_, unsigned?_decimal, unsigned?_decimal⟩
  rw [trim_readLine_of_not_mem hslash, Text.words_trim, lineDirective, Text.words_join hparts]

/-! ### Names as they are read -/

/-- There is no blank in a name that a directive gives. -/
theorem not_blank_of_mem_declaredName {c : Char} (h : c ∈ declaredName name stamp) :
    Text.isBlank c = false := by
  simpa using List.mem_takeWhile_imp (Text.mem_of_mem_trimBoth h)

theorem declaredName_none (hquote : '"' ∉ name) (hname : ∀ c ∈ name, Text.isBlank c = false) :
    declaredName name none = name := by
  have hmark : Text.isBlank '"' = false := by decide
  have hword : ('"' :: (name ++ '"' :: stampText none)).takeWhile (!Text.isBlank ·) =
      '"' :: (name ++ ['"']) := by
    refine List.takeWhile_eq_self_iff.mpr ?_
    simpa [hmark, stampText, or_imp, forall_and] using hname
  rw [declaredName, hword]
  refine Text.trimBoth_between (by decide) fun c hc => ?_
  rw [beq_eq_false_iff_ne]
  rintro rfl
  exact hquote hc

/-- The comma in front of a time is read as a part of the name. -/
theorem count_declaredName_some (hname : ∀ c ∈ name, Text.isBlank c = false) (stamp : Nat × Nat) :
    (declaredName name (some stamp)).count ',' = name.count ',' + 1 := by
  have hmark : Text.isBlank '"' = false := by decide
  have hcomma : Text.isBlank ',' = false := by decide
  have hspace : Text.isBlank ' ' = true := by decide
  let word := '"' :: (name ++ ['"', ','])
  have hunspaced : ∀ c ∈ word, (!Text.isBlank c) = true := by
    simpa [word, or_imp, forall_and, hmark, hcomma] using hname
  have hshape : '"' :: (name ++ '"' :: stampText (some stamp)) =
      word ++ ' ' :: (Nat.toDigits 10 stamp.1 ++ ", ".toList ++ Nat.toDigits 10 stamp.2) := by
    simp [word, stampText]
  -- the word ends in front of the time, so its last character is the comma and no quote
  have hword : ('"' :: (name ++ '"' :: stampText (some stamp))).takeWhile (!Text.isBlank ·) =
      word := by
    rw [hshape, List.takeWhile_append_of_pos hunspaced]
    simp [hspace]
  rw [declaredName, hword, Text.count_trimBoth (by decide)]
  simp [word]

/-- **Which names are read in a directive as they are written**: those without blanks, if nothing
follows them. -/
theorem declaredName_eq_iff (hquote : '"' ∉ name) :
    declaredName name stamp = name ↔ stamp = none ∧ ∀ c ∈ name, Text.isBlank c = false := by
  constructor
  · intro hname
    have hunspaced : ∀ c ∈ name, Text.isBlank c = false := by
      intro c hc
      rw [← hname] at hc
      exact not_blank_of_mem_declaredName hc
    refine ⟨?_, hunspaced⟩
    cases stamp with
    | none => rfl
    | some stamp =>
      -- a name that is read as it is written has no more commas than it is written with
      have hcount := count_declaredName_some hunspaced stamp
      rw [hname] at hcount
      omega
  · rintro ⟨rfl, hunspaced⟩
    exact declaredName_none hquote hunspaced

/-! ### Lines behind markers -/

variable {filters : Filters} {text text' : String} {number number' : Nat} {raw : Text}
  {shown shown' : Line}

/-- Where a line behind some markers comes from is a matter of these markers and the lines in front
of them. -/
theorem source_of_behind {text : Text} {markers : List Text}
    (h : Behind filters.binary (Text.lines text) markers number raw)
    (hraw : Attributed (Text.trim (readLine filters.binary raw)))
    (hshown : shownAt? filters text number = some shown) :
    ∃ tracker : Tracker,
      shown.source = (tracker.after (trimmedLines filters.binary markers)).current := by
  obtain ⟨front, between, back, hlines, rfl, hbetween⟩ := h
  have hplace : Text.lines text = (front ++ markers ++ between) ++ raw :: back := by
    simpa only [List.append_assoc] using hlines
  refine ⟨Tracker.after {} (trimmedLines filters.binary front), ?_⟩
  rw [source_of_place hplace hshown hraw, List.append_assoc, List.append_assoc, trimmedLines_append,
    trimmedLines_append, Tracker.after_append, Tracker.after_append]
  -- nothing between the markers and the line moves the position in force
  refine Tracker.current_after_unmarked ?_
  simpa only [trimmedLines, List.forall_mem_map] using hbetween

/-- **When the two kinds of markers agree**: behind a comment a line comes from the file whose name
stands between the quotes, and behind the directives from the one whose name is the first word of
it. So both name the file just if its name has no blank and nothing follows it. -/
theorem markers_agree_iff (hquote : '"' ∉ name)
    (hdirectives : Behind filters.binary (Text.lines text.toList)
      [fileDirective index name stamp, lineDirective index line] number raw)
    (hcomment : Behind filters.binary (Text.lines text'.toList) [fileComment name line] number' raw)
    (hraw : Attributed (Text.trim (readLine filters.binary raw)))
    (hshown : shownAt? filters text.toList number = some shown)
    (hshown' : shownAt? filters text'.toList number' = some shown') :
    shown.source = some
        { file := some (String.ofList (declaredName (bareName filters.binary name) stamp)), line } ∧
      shown'.source = some { file := some (String.ofList (bareName filters.binary name)), line } ∧
      (shown.source = shown'.source ↔
        stamp = none ∧ ∀ c ∈ bareName filters.binary name, Text.isBlank c = false) ∧
      (shown.source = shown'.source ∧
          shown'.source = some { file := some (String.ofList name), line } ↔
        stamp = none ∧ ∀ c ∈ name, Text.isBlank c = false) := by
  have hsource : shown.source = some
      { file := some (String.ofList (declaredName (bareName filters.binary name) stamp))
        line } := by
    obtain ⟨tracker, hsource⟩ := source_of_behind hdirectives hraw hshown
    rw [hsource, trimmedLines, List.map_cons, List.map_singleton, Tracker.after, List.foldl_cons,
      List.foldl_cons, List.foldl_nil, Tracker.next_of_declares _ declares_read,
      Tracker.next_of_refers _ refers_read]
    simp [Tracker.file?]
  have hsource' : shown'.source =
      some { file := some (String.ofList (bareName filters.binary name)), line } := by
    obtain ⟨tracker, hsource⟩ := source_of_behind hcomment hraw hshown'
    rw [hsource, trimmedLines, List.map_singleton, Tracker.after, List.foldl_cons, List.foldl_nil,
      Tracker.next_of_comment _ (isMarkerComment_read hquote)]
  have hagree : shown.source = shown'.source ↔
      stamp = none ∧ ∀ c ∈ bareName filters.binary name, Text.isBlank c = false := by
    rw [← declaredName_eq_iff fun h => hquote (mem_of_mem_bareName h), hsource, hsource']
    simp [String.ofList_inj]
  refine ⟨hsource, hsource', hagree, ?_⟩
  rw [hagree, hsource']
  constructor
  · rintro ⟨⟨rfl, hblank⟩, hname⟩
    have hbare : bareName filters.binary name = name := by simpa [String.ofList_inj] using hname
    exact ⟨rfl, hbare ▸ hblank⟩
  · rintro ⟨rfl, hblank⟩
    rw [bareName_of_unspaced hblank]
    exact ⟨⟨rfl, hblank⟩, rfl⟩

/-- A comma inside a name does no harm. -/
theorem markers_agree_iff_comma :
    let text := ".file 1 \"a,b.cu\"\n.loc 1 7 0\nret;\n"
    let text' := "//## File \"a,b.cu\", line 7\nret;\n"
    ∃ shown shown', shownAt? {} text.toList 2 = some shown ∧
      shownAt? {} text'.toList 1 = some shown' ∧ shown.source = shown'.source ∧
      shown'.source = some { file := some "a,b.cu", line := 7 } := by
  intro text text'
  obtain ⟨shown, hshown⟩ : ∃ shown, shownAt? {} text.toList 2 = some shown :=
    Option.isSome_iff_exists.mp (by decide)
  obtain ⟨shown', hshown'⟩ : ∃ shown, shownAt? {} text'.toList 1 = some shown :=
    Option.isSome_iff_exists.mp (by decide)
  have hret : ∀ other ∈ [] ++ ["ret;".toList], ¬ IsMarker (Text.trim (readLine false other)) := by
    intro other hother hmarker
    obtain rfl := List.mem_singleton.mp hother
    exact absurd (head?_words_of_isMarker hmarker) (by decide)
  have hdirectives : Behind false (Text.lines text.toList)
      [fileDirective 1 "a,b.cu".toList none, lineDirective 1 7] 2 "ret;".toList :=
    ⟨[], [], [], by decide, rfl, hret⟩
  have hcomment : Behind false (Text.lines text'.toList) [fileComment "a,b.cu".toList 7] 1
      "ret;".toList := ⟨[], [], [], by decide, rfl, hret⟩
  have hraw : Attributed (Text.trim (readLine false "ret;".toList)) :=
    ⟨by decide, label?_eq_none_iff.mp (by decide)⟩
  have hname : Text.IsWord "a,b.cu".toList := by decide
  obtain ⟨-, -, -, hagree⟩ :=
    markers_agree_iff (by decide) hdirectives hcomment hraw hshown hshown'
  exact ⟨shown, shown', hshown, hshown', hagree.mpr ⟨rfl, hname.noBlank⟩⟩

/-- A blank inside a name cuts it off in one kind of markers only. -/
theorem markers_disagree_blank :
    ¬ ∀ (name : Text) (index line : UInt32) (stamp : Option (Nat × Nat)) (filters : Filters)
      (text text' : String) (number number' : Nat) (raw : Text) (shown shown' : Line),
      '"' ∉ name → '\n' ∉ name →
      Behind filters.binary (Text.lines text.toList)
        [fileDirective index name stamp, lineDirective index line] number raw →
      Behind filters.binary (Text.lines text'.toList) [fileComment name line] number' raw →
      Attributed (Text.trim (readLine filters.binary raw)) →
      shownAt? filters text.toList number = some shown →
      shownAt? filters text'.toList number' = some shown' →
      shown.source = shown'.source ∧
        shown'.source = some { file := some (String.ofList name), line } := by
  intro hagree
  have hret : ∀ other ∈ [] ++ ["ret;".toList], ¬ IsMarker (Text.trim (readLine false other)) := by
    intro other hother hmarker
    obtain rfl := List.mem_singleton.mp hother
    exact absurd (head?_words_of_isMarker hmarker) (by decide)
  have hraw : Attributed (Text.trim (readLine false "ret;".toList)) :=
    ⟨by decide, label?_eq_none_iff.mp (by decide)⟩
  have hsame := hagree "my kernel.cu".toList 1 7 none {}
    ".file 1 \"my kernel.cu\"\n.loc 1 7 0\nret;\n" "//## File \"my kernel.cu\", line 7\nret;\n"
    2 1 "ret;".toList { text := "ret;", source := some { file := some "my", line := 7 } }
    { text := "ret;", source := some { file := some "my kernel.cu", line := 7 } }
    (by decide) (by decide) ⟨[], [], [], by decide, rfl, hret⟩ ⟨[], [], [], by decide, rfl, hret⟩
    hraw (by decide) (by decide)
  exact absurd hsame (by decide)

end Listing

end AsmInspect

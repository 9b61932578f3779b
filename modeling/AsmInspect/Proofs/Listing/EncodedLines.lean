import AsmInspect.Proofs.Listing.Encodings
import AsmInspect.Proofs.Listing.UsedLabels
import AsmInspect.Proofs.Text.Lines

/-!
# Lines with encodings among other text

A line with any number of encodings, in which no other text opens one, is left with the other text
alone, and without blanks at its end. What opens an encoding begins with a slash and has no other,
so it does not reach from the text in front of it into the comment, and the comment has no star
before the one that closes it. So each search finds the comment that stands next in the line, and
the text behind it is gone on with. In the listing of a binary a line is not shown if nothing but
blanks is left of it, whereas a line that is blank in the text stays unless `trim` hides it.

## Main definitions

* `Listing.Encoding`, `Listing.Encoding.comment`: an encoding as it is printed
* `Listing.EncodedLine`: a line with encodings among other text
* `Listing.EncodedLine.text`, `Listing.EncodedLine.bare`: the line, and its other text

## Main results

* `Listing.isEncoding_iff`: what the inside of a comment has to be
* `Listing.dropEncodings_comment`: the first encoding of a line is taken out
* `Listing.EncodedLine.stripEncodings_text`: the other text is left
* `Listing.encodings_removed`: what is shown of such a line, and of a blank one
-/

namespace AsmInspect.Listing

/-! ### Encodings as they are printed -/

/-- **An encoding**: hexadecimal digits between blanks. -/
structure Encoding where
  before : Text
  digits : Text
  after : Text
  blank_before : Text.Blank before
  hex_digits : ∀ c ∈ digits, isHexDigit c = true
  blank_after : Text.Blank after

namespace Encoding

variable (encoding : Encoding)

/-- What stands in the comment of an encoding. -/
def inside : Text := encoding.before ++ encoding.digits ++ encoding.after

/-- The comment of an encoding. -/
def comment : Text := encodingOpen ++ encoding.inside ++ commentClose

/-- Neither blanks nor hexadecimal digits are stars. -/
theorem star_not_mem_inside : '*' ∉ encoding.inside := by
  intro h
  rw [inside, List.mem_append, List.mem_append] at h
  rcases h with (h | h) | h
  · exact absurd (encoding.blank_before _ h) (by decide)
  · exact absurd (encoding.hex_digits _ h) (by decide)
  · exact absurd (encoding.blank_after _ h) (by decide)

theorem not_blank_comment : ¬ Text.Blank encoding.comment := fun h =>
  absurd (h '/' (by simp [comment, encodingOpen])) (by decide)

end Encoding

/-- **What the inside of a comment has to be.** -/
theorem isEncoding_iff {inside : Text} :
    isEncoding inside = true ↔ ∃ encoding : Encoding, encoding.inside = inside := by
  rw [isEncoding, List.all_eq_true]
  constructor
  · intro h
    obtain ⟨before, after, hbefore, hafter, hinside⟩ := Text.exists_trim inside
    exact ⟨⟨before, Text.trim inside, after, hbefore, h, hafter⟩, hinside.symm⟩
  · rintro ⟨encoding, rfl⟩ c hc
    rw [Encoding.inside, Text.trim_append encoding.blank_before encoding.blank_after] at hc
    exact encoding.hex_digits c (Text.mem_of_mem_trim hc)

/-! ### Lines with encodings -/

/-- **A line with encodings**: plain text, and more of it behind each encoding. -/
structure EncodedLine where
  first : Text
  others : List (Encoding × Text)
  plain_first : ¬ encodingOpen <:+: first
  plain_others : ∀ part ∈ others, ¬ encodingOpen <:+: part.2

namespace EncodedLine

/-- The line as it is printed. -/
def text (line : EncodedLine) : Text :=
  line.first ++ line.others.flatMap fun part => part.1.comment ++ part.2

/-- The plain text of the line. -/
def bare (line : EncodedLine) : Text := line.first ++ line.others.flatMap (·.2)

end EncodedLine

variable {plain rest : Text}

theorem not_carries_of_plain (h : ¬ encodingOpen <:+: plain) : ¬ CarriesEncoding plain := by
  rintro ⟨before, inside, after, rfl, -⟩
  exact h ⟨before, inside ++ commentClose ++ after, by simp only [List.append_assoc]⟩

/-- **The first encoding of a line is taken out**, and what follows it is gone on with. -/
theorem dropEncodings_comment (h : ¬ encodingOpen <:+: plain) (encoding : Encoding) (rest : Text) :
    dropEncodings (plain ++ (encoding.comment ++ rest)) = plain ++ dropEncodings rest := by
  have hline : plain ++ (encoding.comment ++ rest) =
      plain ++ encodingOpen ++ (encoding.inside ++ commentClose ++ rest) := by
    simp only [Encoding.comment, List.append_assoc]
  -- the plain text does not reach into what opens the comment, and the inside has no star
  have hopened : Text.cut? encodingOpen (plain ++ (encoding.comment ++ rest)) =
      some (plain, encoding.inside ++ commentClose ++ rest) := by
    rw [hline]
    exact Text.cut?_append (by decide) h _
  have hclosed : Text.cut? commentClose (encoding.inside ++ commentClose ++ rest) =
      some (encoding.inside, rest) := by
    refine Text.cut?_append (by decide) (fun hclose => ?_) rest
    exact encoding.star_not_mem_inside (hclose.subset (List.mem_cons_self ..))
  rw [dropEncodings_of_closed hopened hclosed, if_pos (isEncoding_iff.mpr ⟨encoding, rfl⟩)]

theorem dropEncodings_comments {others : List (Encoding × Text)} (hplain : ¬ encodingOpen <:+: plain)
    (hothers : ∀ part ∈ others, ¬ encodingOpen <:+: part.2) :
    dropEncodings (plain ++ others.flatMap fun part => part.1.comment ++ part.2) =
      plain ++ others.flatMap (·.2) := by
  induction others generalizing plain with
  | nil =>
    rw [List.flatMap_nil, List.flatMap_nil, List.append_nil]
    exact dropEncodings_of_not_carries (not_carries_of_plain hplain)
  | cons part others ih =>
    have hpart := hothers part (List.mem_cons_self ..)
    have hrest := ih hpart fun p hp => hothers p (List.mem_cons_of_mem _ hp)
    rw [List.flatMap_cons, List.flatMap_cons, List.append_assoc, dropEncodings_comment hplain, hrest]

namespace EncodedLine

variable (line : EncodedLine)

/-- **Of a line with encodings the plain text is left**, without blanks at its end. -/
theorem stripEncodings_text : stripEncodings line.text = Text.trimEnd line.bare :=
  congrArg Text.trimEnd (dropEncodings_comments line.plain_first line.plain_others)

/-- A line with an encoding is not blank. -/
theorem not_blank_text (h : line.others ≠ []) : ¬ Text.Blank line.text := by
  obtain ⟨part, others, hparts⟩ := List.exists_cons_of_ne_nil h
  intro hblank
  refine part.1.not_blank_comment fun c hc => hblank c ?_
  rw [text, hparts, List.flatMap_cons]
  simp [hc]

end EncodedLine

/-! ### What is shown -/

variable {filters : Filters} {text : Text} {number : Nat} {raw : Text}

/-- A line of a binary's listing as it is read. -/
theorem exists_binary_entry (hbinary : filters.binary = true)
    (hraw : (Text.lines text)[number]? = some raw) :
    ∃ entry, (entries filters.binary text)[number]? = some entry ∧ entry.raw = raw ∧
      entry.line = stripEncodings raw := by
  rw [hbinary]
  exact exists_entry_of_getElem? hraw

/-- In the listing of a binary a line of which nothing is left is not shown. -/
theorem shownAt?_of_emptied (hbinary : filters.binary = true)
    (hraw : (Text.lines text)[number]? = some raw) (hfull : ¬ Text.Blank raw)
    (hempty : Text.Blank (stripEncodings raw)) : shownAt? filters text number = none := by
  obtain ⟨entry, hentry, rfl, hline⟩ := exists_binary_entry hbinary hraw
  have hcore : entry.core = [] := by
    rw [Entry.core, hline]
    exact Text.trim_eq_nil_iff.mpr hempty
  have hraw : Text.trim entry.raw ≠ [] := mt Text.trim_eq_nil_iff.mp hfull
  have hhidden : entry.hidden filters (referenced text) = true := by
    simp [Entry.hidden, Entry.isEmptied, hbinary, hcore, hraw]
  rw [shownAt?_of_getElem? hentry, hhidden, if_pos rfl]

/-- A blank line has no encoding, and nothing is left of it without its blanks. -/
theorem stripEncodings_of_blank (h : Text.Blank raw) : stripEncodings raw = [] := by
  have hplain : ¬ encodingOpen <:+: raw := fun hopens =>
    absurd (h '/' (hopens.subset (by decide))) (by decide)
  rw [stripEncodings, dropEncodings_of_not_carries (not_carries_of_plain hplain),
    Text.trimEnd_of_blank h]

/-- In the listing of a binary a blank line stays, empty and without a source position, unless `trim`
hides it. -/
theorem shownAt?_of_blank (hbinary : filters.binary = true)
    (hraw : (Text.lines text)[number]? = some raw) (hblank : Text.Blank raw) :
    shownAt? filters text number = if filters.trim then none else some { text := "" } := by
  obtain ⟨entry, hentry, rfl, hline⟩ := exists_binary_entry hbinary hraw
  -- an empty line is no marker, no label and no comment, so that only `trim` can hide it
  rw [stripEncodings_of_blank hblank] at hline
  have hcore : entry.core = [] := by
    rw [Entry.core, hline]
    rfl
  have hlabel : label? [] = none := rfl
  have hraw : Text.trim entry.raw = [] := Text.trim_eq_nil_iff.mpr hblank
  have hhidden : entry.hidden filters (referenced text) = filters.trim := by
    simp [Entry.hidden, Entry.isEmptied, isCommentOnly, hcore, hraw, hlabel]
  rw [shownAt?_of_getElem? hentry, hhidden]
  cases htrim : filters.trim with
  | true => rfl
  | false => simp [Entry.toLine, Entry.shown, Entry.source, htrim, hline, hcore]

/-- What a line is shown as in the listing of a binary, if it is shown. -/
theorem text_of_shownAt? (hbinary : filters.binary = true)
    (hraw : (Text.lines text)[number]? = some raw) {line : Line}
    (hshown : shownAt? filters text number = some line) :
    line.text.toList =
      if filters.trim then squash (stripEncodings raw) else stripEncodings raw := by
  obtain ⟨entry, hentry, rfl, hline⟩ := exists_binary_entry hbinary hraw
  obtain ⟨other, hother, -, rfl⟩ := shownAt?_eq_some_iff.mp hshown
  obtain rfl := Option.some.inj (hentry.symm.trans hother)
  rw [Entry.toLine, Entry.shown, hline]
  exact String.toList_ofList

/-- **Encodings are removed and nothing else is.** Of a line with any number of encodings the plain
text is left without blanks at its end, and in the listing of a binary it is what is shown of the
line. If the plain text is blank and there is an encoding, the line is not shown at all; but a line
that is blank in the text is, unless `trim` hides it. -/
theorem encodings_removed :
    (∀ line : EncodedLine, stripEncodings line.text = Text.trimEnd line.bare) ∧
    ∀ (text : String) (filters : Filters), filters.binary = true →
      (ofText text filters).lines =
        (List.range (Text.lines text.toList).length).filterMap (shownAt? filters text.toList) ∧
      ∀ number raw, (Text.lines text.toList)[number]? = some raw →
        (∀ line : EncodedLine, line.text = raw →
          (line.others ≠ [] → Text.Blank line.bare → shownAt? filters text.toList number = none) ∧
          ∀ shown, shownAt? filters text.toList number = some shown →
            shown.text.toList = if filters.trim then squash (Text.trimEnd line.bare)
              else Text.trimEnd line.bare) ∧
        (Text.Blank raw → shownAt? filters text.toList number =
          if filters.trim then none else some { text := "" }) := by
  refine ⟨EncodedLine.stripEncodings_text, fun text filters hbinary => ⟨lines_ofText text filters, ?_⟩⟩
  intro number raw hraw
  refine ⟨?_, shownAt?_of_blank hbinary hraw⟩
  rintro line rfl
  refine ⟨fun hothers hblank => ?_, fun shown hshown => ?_⟩
  · apply shownAt?_of_emptied hbinary hraw (line.not_blank_text hothers)
    rw [line.stripEncodings_text, Text.trimEnd_of_blank hblank]
    exact Text.Blank.nil
  · rw [text_of_shownAt? hbinary hraw hshown, line.stripEncodings_text]

/-- An encoding with blanks around its digits. -/
def paddedEncoding : Encoding :=
  ⟨[' '], "0aF".toList, ['\t'], by decide, List.all_eq_true.mp (by decide), by decide⟩

/-- A comment that is no encoding, stars and slashes between two encodings that touch each other. -/
def crowdedLine : EncodedLine :=
  ⟨"/*10*/ /*/* 0".toList, [(paddedEncoding, []), (paddedEncoding, "x */ /".toList)], by decide,
    by decide⟩

/-- Two encodings with nothing but a blank between them. -/
def hollowLine : EncodedLine :=
  ⟨[], [(paddedEncoding, [' ']), (paddedEncoding, [])], by decide, by decide⟩

/-- Such lines in the listing of a binary, and a blank line behind them. -/
theorem encodings_removed_crowded :
    let text := "/*10*/ /*/* 0/* 0x 0aF\t*//* 0x 0aF\t*/x */ /\n/* 0x 0aF\t*/ /* 0x 0aF\t*/\n \n"
    let filters : Filters := { binary := true }
    (shownAt? filters text.toList 0).map (·.text) = some "/*10*/ /*/* 0x */ /" ∧
      shownAt? filters text.toList 1 = none ∧
      shownAt? filters text.toList 2 = some { text := "" } := by
  intro text filters
  obtain ⟨-, h⟩ := encodings_removed
  obtain ⟨-, hlines⟩ := h text filters rfl
  obtain ⟨hcrowded, -⟩ := hlines 0 crowdedLine.text (by decide)
  obtain ⟨hhollow, -⟩ := hlines 1 hollowLine.text (by decide)
  obtain ⟨-, hblank⟩ := hlines 2 [' '] (by decide)
  have hkept : (shownAt? filters text.toList 0).isSome = true := by decide +kernel
  obtain ⟨shown, hshown⟩ := Option.isSome_iff_exists.mp hkept
  have htext := (hcrowded crowdedLine rfl).2 shown hshown
  refine ⟨?_, (hhollow hollowLine rfl).1 (by decide) (by decide), hblank (by decide)⟩
  rw [hshown, Option.map_some, ← String.ofList_toList (s := shown.text), htext]
  rfl

end AsmInspect.Listing

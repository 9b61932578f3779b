import AsmInspect.Listing.Encoding
import AsmInspect.Proofs.Text.Blanks
import Mathlib.Data.List.Infix
import Mathlib.Data.List.TakeWhile

/-!
# Lines and what stands beside a word

Lines put together with line feeds are read as these lines, but for an empty line at the end, since
a line feed ends a line and nothing behind the last one is no line, and but for a carriage return
right before a line feed. Looking for a word at the start or at the end of a text, or for a
character in it, says exactly what stands beside it.

## Main definitions

* `Text.Ended`: a text whose last line is ended

## Main results

* `Text.lines_append`: the lines of two texts one behind the other
* `Text.lines_join`: lines with line feeds between them
* `Text.pieces_join`: the pieces of parts that have been put together
* `Text.splitAt_eq_iff`: the pieces of a text between separators
* `Text.after?_eq_some_iff`, `Text.before?_eq_some_iff`, `Text.cutAt?_eq_some_iff`
* `Text.cut?_append`: where a word is found
-/

namespace AsmInspect.Text

variable {text : Text}

/-! ### Beside a word -/

theorem after?_eq_some_iff {start rest : Text} :
    after? start text = some rest ↔ text = start ++ rest := by
  unfold after?
  constructor
  · intro h
    split at h
    case isTrue hstart =>
      obtain ⟨tail, rfl⟩ := List.isPrefixOf_iff_prefix.mp hstart
      rw [List.drop_left] at h
      rw [Option.some.inj h]
    case isFalse => cases h
  · rintro rfl
    rw [if_pos (List.isPrefixOf_iff_prefix.mpr (List.prefix_append ..)), List.drop_left]

theorem after?_append (start rest : Text) : after? start (start ++ rest) = some rest :=
  after?_eq_some_iff.mpr rfl

theorem before?_eq_some_iff {finish front : Text} :
    before? finish text = some front ↔ text = front ++ finish := by
  unfold before?
  constructor
  · intro h
    split at h
    case isTrue hfinish =>
      obtain ⟨head, rfl⟩ := List.isSuffixOf_iff_suffix.mp hfinish
      rw [List.length_append, Nat.add_sub_cancel, List.take_left] at h
      rw [Option.some.inj h]
    case isFalse => cases h
  · rintro rfl
    rw [if_pos (List.isSuffixOf_iff_suffix.mpr (List.suffix_append ..)), List.length_append,
      Nat.add_sub_cancel, List.take_left]

/-- A word whose first character does not come again in it is not found before it stands there. -/
theorem cut?.go_append {c : Char} {tail seen before : Text} (hc : c ∉ tail)
    (h : ¬ c :: tail <:+: before) (rest : Text) :
    cut?.go (c :: tail) seen (before ++ c :: tail ++ rest) = some (seen.reverse ++ before, rest) := by
  induction before generalizing seen with
  | nil =>
    have hprefix : List.isPrefixOf (c :: tail) (c :: (tail ++ rest)) = true :=
      List.isPrefixOf_iff_prefix.mpr (List.prefix_append (c :: tail) rest)
    rw [List.nil_append, List.cons_append, cut?.go, hprefix, if_pos rfl]
    simp
  | cons d before ih =>
    have hrest : ¬ c :: tail <:+: before := fun hoccurs =>
      h (hoccurs.trans (List.suffix_cons d before).isInfix)
    -- an occurrence here would reach into the word behind, and have its first character again
    have hne : List.isPrefixOf (c :: tail) (d :: (before ++ c :: tail ++ rest)) = false := by
      rw [← Bool.not_eq_true, List.isPrefixOf_iff_prefix]
      intro hword
      have hbehind : d :: before <+: d :: (before ++ c :: tail ++ rest) := by simp
      rcases List.prefix_or_prefix_of_prefix hword hbehind with hhere | ⟨more, hmore⟩
      · exact h hhere.isInfix
      · rw [List.cons_append] at hmore
        obtain ⟨rfl, rfl⟩ := List.cons.inj hmore
        cases more with
        | nil => exact h (by simp)
        | cons e more =>
          simp only [List.append_assoc, List.cons_append, List.cons_prefix_cons,
            List.prefix_append_right_inj, true_and] at hword
          exact hc (by simp [hword.1])
    rw [List.cons_append, List.cons_append, cut?.go, hne, if_neg Bool.false_ne_true, ih hrest]
    simp

/-- **A word whose first character does not come again in it is found where it stands first.** -/
theorem cut?_append {c : Char} {tail before : Text} (hc : c ∉ tail) (h : ¬ c :: tail <:+: before)
    (rest : Text) : cut? (c :: tail) (before ++ c :: tail ++ rest) = some (before, rest) :=
  cut?.go_append hc h rest

/-- What has been passed while looking for a character does not have it. -/
theorem cut?.not_mem_of_go {c : Char} {seen before rest : Text}
    (h : cut?.go [c] seen text = some (before, rest)) (hseen : c ∉ seen) : c ∉ before := by
  induction text generalizing seen with
  | nil => cases h
  | cons d text ih =>
    unfold cut?.go at h
    split at h
    case isTrue =>
      obtain ⟨rfl, -⟩ := Prod.mk.inj (Option.some.inj h)
      rwa [List.mem_reverse]
    case isFalse hd =>
      refine ih h ?_
      rw [List.mem_cons, not_or]
      exact ⟨by simpa using hd, hseen⟩

theorem cutAt?_eq_some_iff {c : Char} {before rest : Text} :
    cutAt? c text = some (before, rest) ↔ text = before ++ c :: rest ∧ c ∉ before := by
  constructor
  · intro h
    have htext := eq_of_cut? h
    rw [List.append_assoc] at htext
    exact ⟨htext, cut?.not_mem_of_go h List.not_mem_nil⟩
  · rintro ⟨rfl, hc⟩
    have hbefore : ¬ [c] <:+: before := by rwa [List.singleton_infix_iff]
    have hcut : cut? [c] (before ++ [c] ++ rest) = some (before, rest) :=
      cut?_append List.not_mem_nil hbefore rest
    rwa [List.append_assoc] at hcut

theorem cutAt?_append {c : Char} {before : Text} (h : c ∉ before) (rest : Text) :
    cutAt? c (before ++ c :: rest) = some (before, rest) :=
  cutAt?_eq_some_iff.mpr ⟨rfl, h⟩

/-! ### Lines -/

/-- Which lines are left as they are. -/
theorem dropReturn_eq_self_iff {line : Text} :
    dropReturn line = line ↔ line.getLast? ≠ some '\r' := by
  unfold dropReturn
  split
  case h_1 hlast =>
    refine iff_of_false (fun h => ?_) (not_not.mpr hlast)
    have hpos := List.length_pos_of_mem (List.mem_of_mem_getLast? hlast)
    have hlength := congrArg List.length h
    rw [List.length_dropLast] at hlength
    omega
  case h_2 hlast => exact iff_of_true rfl hlast

/-- The carriage return is a blank. -/
theorem trimEnd_dropReturn (line : Text) : trimEnd (dropReturn line) = trimEnd line := by
  unfold dropReturn
  split
  case h_1 hlast =>
    have hreturn : Blank ['\r'] := by decide
    conv_rhs => rw [← List.dropLast_append_getLast? '\r' hlast, trimEnd_append hreturn]
  case h_2 => rfl

theorem mem_of_mem_dropReturn {line : Text} {c : Char} (h : c ∈ dropReturn line) : c ∈ line := by
  unfold dropReturn at h
  split at h
  case h_1 => exact List.dropLast_subset _ h
  case h_2 => exact h

/-- No line has a line feed. -/
theorem newline_not_mem_of_mem_lines {line : Text} (h : line ∈ lines text) : '\n' ∉ line := by
  have hpiece {piece : Text} (hp : piece ∈ splitAt '\n' text) : '\n' ∉ piece := by
    intro hc
    have hne := eq_false_of_mem_pieces hp hc
    simp at hne
  rcases List.mem_append.mp h with h | h
  · obtain ⟨piece, hp, rfl⟩ := List.mem_map.mp h
    exact fun hc => hpiece (List.dropLast_subset _ hp) (mem_of_mem_dropReturn hc)
  · rw [Option.mem_toList, Option.filter_eq_some_iff] at h
    exact hpiece (List.mem_of_mem_getLast? h.1)

/-- A line feed ends the lines in front of it. -/
theorem lines_append_newline (front rest : Text) :
    lines (front ++ '\n' :: rest) = (splitAt '\n' front).map dropReturn ++ lines rest := by
  have hsplit : splitAt '\n' (front ++ '\n' :: rest) = splitAt '\n' front ++ splitAt '\n' rest :=
    pieces_append_separator front (by decide) rest
  have hne : splitAt '\n' rest ≠ [] := pieces_ne_nil
  obtain ⟨last, hlast⟩ : ∃ last, (splitAt '\n' rest).getLast? = some last :=
    ⟨_, List.getLast?_eq_some_getLast hne⟩
  unfold lines
  dsimp only
  rw [hsplit, List.dropLast_append_of_ne_nil hne, List.map_append, List.getLast?_append, hlast,
    Option.some_or, List.append_assoc]

/-- The first line ends at the first line feed. -/
theorem lines_cons {line : Text} (h : '\n' ∉ line) (rest : Text) :
    lines (line ++ '\n' :: rest) = dropReturn line :: lines rest := by
  rw [lines_append_newline, splitAt_of_not_mem h, List.map_singleton, List.singleton_append]

/-- A text whose last line is ended by a line feed. -/
def Ended (text : Text) : Prop := text = [] ∨ text.getLast? = some '\n'

instance (text : Text) : Decidable (Ended text) := inferInstanceAs (Decidable (_ ∨ _))

/-- **The lines of two texts** one behind the other. -/
theorem lines_append {front : Text} (h : Ended front) (rest : Text) :
    lines (front ++ rest) = lines front ++ lines rest := by
  rcases h with rfl | h
  · rfl
  · obtain ⟨before, rfl⟩ := List.getLast?_eq_some_iff.mp h
    have hlines (rest : Text) : lines (before ++ '\n' :: rest) = _ := lines_append_newline before rest
    have hnil : lines [] = [] := rfl
    rw [List.append_assoc, List.singleton_append, hlines, hlines, hnil, List.append_nil]

theorem dropReturn_append {front : Text} (h : front.getLast? ≠ some '\r') (line : Text) :
    dropReturn (front ++ line) = front ++ dropReturn line := by
  rcases List.eq_nil_or_concat line with rfl | ⟨before, last, rfl⟩
  · have hnil : dropReturn [] = [] := rfl
    rw [hnil, List.append_nil]
    exact dropReturn_eq_self_iff.mpr h
  · rw [List.concat_eq_append, ← List.append_assoc]
    by_cases hlast : last = '\r'
    · subst hlast
      simp [dropReturn]
    · rw [dropReturn_eq_self_iff.mpr (by simpa using hlast),
        dropReturn_eq_self_iff.mpr (by simpa using hlast), List.append_assoc]

/-- What a text begins with begins its first line. -/
theorem exists_lines_eq_cons {start : Text} (hne : start ≠ []) (hline : '\n' ∉ start)
    (hreturn : start.getLast? ≠ some '\r') (rest : Text) :
    ∃ line others, lines (start ++ rest) = (start ++ line) :: others := by
  rcases unseparated_or_exists_separator (· == '\n') rest with hnone | ⟨line, c, more, hfirst, hc, rfl⟩
  · have hrest : '\n' ∉ start ++ rest := by
      rw [List.mem_append, not_or]
      exact ⟨hline, fun hmem => absurd (hnone _ hmem) (by decide)⟩
    exact ⟨rest, [], lines_of_not_mem (by simp [hne]) hrest⟩
  · obtain rfl : c = '\n' := by simpa using hc
    have hfront : '\n' ∉ start ++ line := by
      rw [List.mem_append, not_or]
      exact ⟨hline, fun hmem => absurd (hfirst _ hmem) (by decide)⟩
    exact ⟨dropReturn line, lines more, by
      rw [← List.append_assoc, lines_cons hfront, dropReturn_append hreturn]⟩

/-- Parts without a separator, put together with separators, are the pieces between them. -/
theorem pieces_join {p : Char → Bool} {c : Char} (hc : p c = true) {parts : List Text}
    (hne : parts ≠ []) (h : ∀ part ∈ parts, ∀ d ∈ part, p d = false) :
    pieces p (join [c] parts) = parts := by
  induction parts with
  | nil => exact absurd rfl hne
  | cons first rest ih =>
    have hfirst := h first (List.mem_cons_self ..)
    cases rest with
    | nil => exact pieces_of_forall hfirst
    | cons second rest =>
      have hrest := ih (List.cons_ne_nil _ _) fun part hp => h part (List.mem_cons_of_mem _ hp)
      rw [join_cons_cons, List.append_assoc, List.singleton_append, pieces_append_cons hfirst hc,
        hrest]

theorem splitAt_join {separator : Char} {parts : List Text} (hne : parts ≠ [])
    (h : ∀ part ∈ parts, separator ∉ part) :
    splitAt separator (join [separator] parts) = parts := by
  refine pieces_join (p := (· == separator)) (beq_self_eq_true separator) hne ?_
  intro part hpart d hd
  rw [beq_eq_false_iff_ne]
  rintro rfl
  exact h part hpart hd

/-- The pieces between separators, put together with the separators, are the text. -/
theorem join_splitAt (separator : Char) (text : Text) :
    join [separator] (splitAt separator text) = text := by
  induction text with
  | nil => rfl
  | cons c rest ih =>
    rw [splitAt] at ih ⊢
    obtain ⟨first, others, hpieces⟩ := exists_pieces (· == separator) rest
    rw [hpieces] at ih
    rw [pieces_cons, hpieces]
    split
    case isTrue hc =>
      rw [join_cons_cons, ih, List.nil_append, beq_iff_eq.mp hc, List.singleton_append]
    case isFalse => rw [List.modifyHead_cons, join_cons_head, ih]

/-- **The pieces between separators**: the parts without a separator that make up the text. -/
theorem splitAt_eq_iff {separator : Char} {text : Text} {parts : List Text} :
    splitAt separator text = parts ↔
      parts ≠ [] ∧ (∀ part ∈ parts, separator ∉ part) ∧ join [separator] parts = text := by
  constructor
  · rintro rfl
    refine ⟨pieces_ne_nil, fun part hpart hmem => ?_, join_splitAt separator text⟩
    exact absurd (beq_self_eq_true separator) (by rw [eq_false_of_mem_pieces hpart hmem]; decide)
  · rintro ⟨hne, hparts, rfl⟩
    exact splitAt_join hne hparts

/-- A second character of the separator, seen as the first one of what follows. -/
theorem join_pair (c d : Char) (first : Text) (rest : List Text) :
    join [c, d] (first :: rest) = join [c] (first :: rest.map (d :: ·)) := by
  induction rest generalizing first with
  | nil => rfl
  | cons second rest ih =>
    rw [join_cons_cons, ih second, List.map_cons, join_cons_cons, join_cons_head]
    simp

/-- **Parts are known from what they make up** with two characters between them, if no part is empty
and none has the first of the two. -/
theorem join_pair_inj {c d : Char} (hcd : c ≠ d) {parts others : List Text}
    (h : ∀ part ∈ parts, part ≠ [] ∧ c ∉ part) (h' : ∀ part ∈ others, part ≠ [] ∧ c ∉ part) :
    join [c, d] parts = join [c, d] others ↔ parts = others := by
  refine ⟨fun he => ?_, congrArg _⟩
  -- what has parts is not empty
  have hnil {first : Text} {rest : List Text} (hfirst : first ≠ []) :
      join [c, d] (first :: rest) ≠ [] := fun hempty =>
    hfirst (List.prefix_nil.mp (hempty ▸ prefix_join [c, d] first rest))
  have hsplit {first : Text} {rest : List Text}
      (hparts : ∀ part ∈ first :: rest, part ≠ [] ∧ c ∉ part) :
      splitAt c (join [c, d] (first :: rest)) = first :: rest.map (d :: ·) := by
    rw [join_pair]
    refine splitAt_join (List.cons_ne_nil _ _) fun part hpart => ?_
    rcases List.mem_cons.mp hpart with rfl | hpart
    · exact (hparts _ (List.mem_cons_self ..)).2
    · obtain ⟨part, hmem, rfl⟩ := List.mem_map.mp hpart
      rw [List.mem_cons, not_or]
      exact ⟨hcd, (hparts part (List.mem_cons_of_mem _ hmem)).2⟩
  match parts, others with
  | [], [] => rfl
  | [], first :: rest => exact absurd he.symm (hnil (h' first (List.mem_cons_self ..)).1)
  | first :: rest, [] => exact absurd he (hnil (h first (List.mem_cons_self ..)).1)
  | first :: rest, first' :: rest' =>
    have hboth : first :: rest.map (d :: ·) = first' :: rest'.map (d :: ·) := by
      rw [← hsplit h, he, hsplit h']
    obtain ⟨rfl, hrest⟩ := List.cons.inj hboth
    rw [List.map_injective_iff.mpr (List.cons_injective (a := d)) hrest]

/-- **Lines with line feeds between them** are read without a carriage return before a line feed,
and without an empty line at the end. -/
theorem lines_join {parts : List Text} {last : Text} (h : ∀ part ∈ parts ++ [last], '\n' ∉ part) :
    lines (join ['\n'] (parts ++ [last])) =
      parts.map dropReturn ++ if last = [] then [] else [last] := by
  rw [lines, splitAt_join (by simp) h]
  simp only [List.dropLast_concat, List.getLast?_concat]
  split
  case isTrue hlast => simp [hlast]
  case isFalse hlast => simp [hlast]

/-- Lines put together with line feeds, as characters. -/
theorem toList_intercalate_newline (texts : List String) :
    ("\n".intercalate texts).toList = join ['\n'] (texts.map String.toList) := by
  induction texts with
  | nil => simp [join]
  | cons first rest ih =>
    cases rest with
    | nil => simp [join]
    | cons second rest =>
      rw [String.intercalate_cons_cons, String.toList_append, String.toList_append, ih]
      rfl

end AsmInspect.Text

import AsmInspect.Listing.Reader
import AsmInspect.Proofs.Text.Lines
import AsmInspect.Proofs.Text.Occurrences
import Mathlib.Data.List.DropRight

/-!
# The normal form of a disassembler's output

The output of a disassembler is normalized before it is read. What counts of a text are its lines
between line feeds, without the blanks at their ends, and of these lines not the empty ones at the
end: two texts have one normal form just if they agree in this. The three steps that deal with line
ends come to the same. A carriage return in front of a line feed is a blank at the end of its line,
be it replaced, taken off by the reader of lines or trimmed; and a line feed at the end of the text
only adds an empty line.

The normal form determines the lines that it has been put together from, since no line has a line
feed and the last one is not empty.

## Main definitions

* `Listing.bareLines`: the lines between line feeds, without blanks at their ends
* `Listing.AgreeButEnd`: lines that agree but for empty ones at the end
* `Listing.significant`: the lines up to the last one that is not empty

## Main results

* `Listing.agreeButEnd_iff`: lines agree just if the same lines are left of them
* `Listing.bareLines_replaceAll_returns`: a carriage return in front of a line feed does not matter
* `Listing.toList_normalize`: the normal form, from the lines of a text
* `Listing.significant_bareLines_normalize`: the lines that it has been put together from
* `Listing.normalize_canonical`: what the normal form keeps, and nothing else
-/

namespace AsmInspect.Listing

/-! ### Lines without empty ones at the end -/

/-- The lines between line feeds, without blanks at their ends. -/
def bareLines (text : Text) : List Text := (Text.splitAt '\n' text).map Text.trimEnd

/-- **Lines that agree** but for empty ones at the end. -/
def AgreeButEnd (first second : List Text) : Prop :=
  ∃ lines m n, first = lines ++ List.replicate m [] ∧ second = lines ++ List.replicate n []

/-- The lines up to the last one that is not empty. -/
def significant (lines : List Text) : List Text := lines.rdropWhile (·.isEmpty)

variable {lines first second : List Text} {text : Text}

theorem significant_append_replicate (lines : List Text) (n : Nat) :
    significant (lines ++ List.replicate n []) = significant lines := by
  induction n with
  | zero => rw [List.replicate_zero, List.append_nil]
  | succ n ih =>
    rw [List.replicate_succ', ← List.append_assoc, significant, List.rdropWhile_concat_pos _ _ _ rfl]
    exact ih

/-- Lines are the significant ones and empty ones behind them. -/
theorem exists_eq_significant_append (lines : List Text) :
    ∃ n, lines = significant lines ++ List.replicate n [] := by
  have hempty : ∀ line ∈ lines.rtakeWhile (·.isEmpty), line = [] := fun line hline =>
    List.isEmpty_iff.mp (List.mem_rtakeWhile_imp hline)
  refine ⟨(lines.rtakeWhile (·.isEmpty)).length, ?_⟩
  rw [← List.eq_replicate_of_mem hempty, significant, List.rdropWhile_append_rtakeWhile]

/-- **Lines agree** but for empty ones at the end just if the same lines are left of them. -/
theorem agreeButEnd_iff : AgreeButEnd first second ↔ significant first = significant second := by
  constructor
  · rintro ⟨lines, m, n, rfl, rfl⟩
    rw [significant_append_replicate, significant_append_replicate]
  · intro h
    obtain ⟨m, hfirst⟩ := exists_eq_significant_append first
    obtain ⟨n, hsecond⟩ := exists_eq_significant_append second
    exact ⟨significant first, m, n, hfirst, h ▸ hsecond⟩

theorem getLast?_significant_ne (lines : List Text) : (significant lines).getLast? ≠ some [] := by
  intro h
  have hlast : (lines.rdropWhile (·.isEmpty)).getLast? = some [] := h
  obtain ⟨front, hfront⟩ := List.getLast?_eq_some_iff.mp hlast
  have hne : lines.rdropWhile (·.isEmpty) ≠ [] := by simp [hfront]
  have hfull := List.rdropWhile_last_not _ lines hne
  rw [List.getLast?_eq_some_getLast hne, Option.some.injEq] at hlast
  rw [hlast] at hfull
  exact hfull rfl

theorem significant_eq_self (h : lines.getLast? ≠ some []) : significant lines = lines := by
  rw [significant, List.rdropWhile_eq_self_iff]
  intro hne hempty
  rw [List.getLast?_eq_some_getLast hne] at h
  exact h (congrArg some (List.isEmpty_iff.mp hempty))

/-! ### Line ends -/

/-- A character in front of a text ends a line in front of it or is the first of its first line. -/
theorem bareLines_cons (c : Char) (text : Text) : bareLines (c :: text) =
    if c = '\n' then [] :: bareLines text
    else (bareLines text).modifyHead fun line => Text.trimEnd (c :: line) := by
  rw [bareLines, Text.splitAt, Text.pieces_cons]
  by_cases hc : c = '\n'
  case pos =>
    rw [if_pos (by simpa using hc), if_pos hc]
    rfl
  case neg =>
    rw [if_neg (by simpa using hc), if_neg hc, bareLines, Text.splitAt]
    cases Text.pieces (· == '\n') text with
    | nil => rfl
    | cons line rest => simp [Text.trimEnd_cons_trimEnd]

/-- A carriage return in front of a line feed is a blank at the end of a line. -/
theorem bareLines_return (rest : Text) :
    bareLines ('\r' :: '\n' :: rest) = bareLines ('\n' :: rest) := by
  rw [bareLines_cons, if_neg (by decide), bareLines_cons, if_pos rfl]
  rfl

theorem bareLines_append_return (front rest : Text) :
    bareLines (front ++ '\r' :: '\n' :: rest) = bareLines (front ++ '\n' :: rest) := by
  induction front with
  | nil => exact bareLines_return rest
  | cons c front ih => rw [List.cons_append, List.cons_append, bareLines_cons, bareLines_cons, ih]

/-- **A carriage return in front of a line feed does not matter**, so taking it away changes no
line. -/
theorem bareLines_replaceAll_returns (text : Text) :
    bareLines (Text.replaceAll ['\r', '\n'] ['\n'] text) = bareLines text := by
  induction hlength : text.length using Nat.strong_induction_on generalizing text with
  | _ n ih =>
    by_cases hprefix : ['\r', '\n'] <+: text
    case pos =>
      obtain ⟨rest, rfl⟩ := hprefix
      have hrest := ih rest.length (by simp at hlength; omega) rest rfl
      rw [Text.replaceAll_append (by decide), List.singleton_append, bareLines_cons, hrest]
      exact ((bareLines_return rest).trans (bareLines_cons '\n' rest)).symm
    case neg =>
      cases text with
      | nil => rfl
      | cons c rest =>
        have hrest := ih rest.length (by simp at hlength; omega) rest rfl
        rw [Text.replaceAll_cons hprefix, bareLines_cons, bareLines_cons, hrest]

/-- The lines that a reader of lines finds are the lines between line feeds, but for an empty one at
the end and blanks at their ends. -/
theorem significant_lines (text : Text) :
    significant ((Text.lines text).map Text.trimEnd) = significant (bareLines text) := by
  obtain ⟨front, last, hsplit⟩ : ∃ front last, Text.splitAt '\n' text = front ++ [last] := by
    obtain ⟨front, last, h⟩ := (List.eq_nil_or_concat (Text.splitAt '\n' text)).resolve_left
      Text.pieces_ne_nil
    exact ⟨front, last, by rw [h, List.concat_eq_append]⟩
  have hfront : (front.map Text.dropReturn).map Text.trimEnd = front.map Text.trimEnd := by
    rw [List.map_map]
    exact List.map_congr_left fun line _ => Text.trimEnd_dropReturn line
  -- only the last line is read in another way: it is left out if it is empty
  rw [Text.lines, bareLines, hsplit]
  simp only [List.dropLast_concat, List.getLast?_concat, List.map_append, hfront]
  cases last with
  | nil =>
    have hnone : ((some []).filter fun line : Text => !line.isEmpty).toList = [] := rfl
    rw [hnone, List.map_nil, List.append_nil]
    exact (significant_append_replicate _ 1).symm
  | cons c last => rfl

/-! ### The normal form -/

/-- **The normal form** is put together from the significant lines. -/
theorem toList_normalize (text : String) :
    (normalize text).toList = Text.join ['\n'] (significant (bareLines text.toList)) := by
  rw [normalize, String.toList_ofList, ← bareLines_replaceAll_returns, ← significant_lines]
  rfl

/-- A line between line feeds has none and no blank at its end. -/
theorem of_mem_bareLines {line : Text} (h : line ∈ bareLines text) :
    '\n' ∉ line ∧ Text.trimEnd line = line := by
  obtain ⟨piece, hpiece, rfl⟩ := List.mem_map.mp h
  refine ⟨fun hc => ?_, Text.trimEnd_trimEnd piece⟩
  obtain ⟨after, -, htext⟩ := Text.exists_trimEnd piece
  have hmem : '\n' ∈ piece := htext ▸ List.mem_append_left after hc
  exact absurd (Text.eq_false_of_mem_pieces hpiece hmem) (by decide)

theorem of_mem_significant {line : Text} (h : line ∈ significant (bareLines text)) :
    '\n' ∉ line ∧ Text.trimEnd line = line :=
  of_mem_bareLines ((List.rdropWhile_prefix _ _).subset h)

/-- The lines of the normal form are the significant ones, or there are none and it is empty. -/
theorem splitAt_normalize (text : String) :
    Text.splitAt '\n' (normalize text).toList =
      if significant (bareLines text.toList) = [] then [[]]
      else significant (bareLines text.toList) := by
  rw [toList_normalize]
  split
  case isTrue h =>
    rw [h]
    rfl
  case isFalse h => exact Text.splitAt_join h fun line hline => (of_mem_significant hline).1

theorem significant_splitAt_normalize (text : String) :
    significant (Text.splitAt '\n' (normalize text).toList) =
      significant (bareLines text.toList) := by
  rw [splitAt_normalize]
  split
  case isTrue h =>
    rw [h]
    rfl
  case isFalse => exact significant_eq_self (getLast?_significant_ne _)

/-- No line of the normal form has a blank at its end. -/
theorem trimEnd_of_mem_normalize {text : String} {line : Text}
    (h : line ∈ Text.splitAt '\n' (normalize text).toList) : Text.trimEnd line = line := by
  rw [splitAt_normalize] at h
  split at h
  case isTrue =>
    obtain rfl := List.mem_singleton.mp h
    rfl
  case isFalse => exact (of_mem_significant h).2

/-- **The significant lines of the normal form** are those that it has been put together from. -/
theorem significant_bareLines_normalize (text : String) :
    significant (bareLines (normalize text).toList) = significant (bareLines text.toList) := by
  have hbare : bareLines (normalize text).toList = Text.splitAt '\n' (normalize text).toList := by
    refine (List.map_congr_left fun line hline => ?_).trans (List.map_id _)
    exact trimEnd_of_mem_normalize hline
  rw [hbare, significant_splitAt_normalize]

theorem normalize_eq_iff {s t : String} :
    normalize s = normalize t ↔ AgreeButEnd (bareLines s.toList) (bareLines t.toList) := by
  rw [agreeButEnd_iff]
  constructor
  · intro h
    rw [← significant_bareLines_normalize s, h, significant_bareLines_normalize]
  · intro h
    apply String.toList_injective
    rw [toList_normalize, toList_normalize, h]

/-- The normal form ends in no line feed, since its last line is not empty. -/
theorem getLast?_normalize_ne (text : String) : (normalize text).toList.getLast? ≠ some '\n' := by
  intro hlast
  obtain ⟨front, hfront⟩ := List.getLast?_eq_some_iff.mp hlast
  have hsplit : Text.splitAt '\n' (normalize text).toList = Text.splitAt '\n' front ++ [[]] := by
    rw [hfront]
    exact Text.pieces_append_separator front (by decide) []
  rw [splitAt_normalize] at hsplit
  split at hsplit
  case isTrue =>
    -- there are no lines, so that the normal form is a single empty one
    have hlength := congrArg List.length hsplit
    have hpos : 0 < (Text.splitAt '\n' front).length :=
      List.length_pos_of_ne_nil Text.pieces_ne_nil
    simp only [List.length_append, List.length_singleton] at hlength
    omega
  case isFalse =>
    refine getLast?_significant_ne (bareLines text.toList) ?_
    rw [hsplit, List.getLast?_concat]

/-- **The normal form** is one for all texts with the same lines between line feeds, blanks at the
ends of lines and empty lines at the end apart, and for no others; so it is all the same whether a
line feed has a carriage return in front of it. It is its own normal form. No line of it has a blank
at its end, it does not end in a line feed, and its lines are those of the text up to the blanks at
their ends. -/
theorem normalize_canonical :
    (∀ s t, normalize s = normalize t ↔ AgreeButEnd (bareLines s.toList) (bareLines t.toList)) ∧
    (∀ front rest : Text, normalize (String.ofList (front ++ '\r' :: '\n' :: rest)) =
      normalize (String.ofList (front ++ '\n' :: rest))) ∧
    (∀ s, normalize (normalize s) = normalize s) ∧
    ∀ s, (∀ line ∈ Text.splitAt '\n' (normalize s).toList, line.getLast?.any Text.isBlank = false) ∧
      (normalize s).toList.getLast? ≠ some '\n' ∧
      AgreeButEnd (Text.splitAt '\n' (normalize s).toList) (bareLines s.toList) := by
  refine ⟨fun s t => normalize_eq_iff, fun front rest => ?_, fun s => ?_, fun s => ⟨?_, ?_, ?_⟩⟩
  · rw [normalize_eq_iff, agreeButEnd_iff, String.toList_ofList, String.toList_ofList,
      bareLines_append_return]
  · rw [normalize_eq_iff, agreeButEnd_iff, significant_bareLines_normalize]
  · intro line hline
    rw [Option.any_eq_false]
    intro c hc
    rw [← trimEnd_of_mem_normalize hline] at hc
    simpa using Text.isBlank_getLast_trimEnd hc
  · exact getLast?_normalize_ne s
  · rw [agreeButEnd_iff, significant_splitAt_normalize]

/-- A text with mixed line ends, blanks in front of them and blank lines at its end. -/
theorem normalize_canonical_mixed :
    normalize "\ta \r\n\r\nb\r\r\n \n" = normalize "\ta\n\nb" ∧
      "\ta".toList ∈ Text.splitAt '\n' (normalize "\ta \r\n\r\nb\r\r\n \n").toList ∧
      "\ta".toList.getLast?.any Text.isBlank = false := by
  obtain ⟨hsame, -, -, hlines⟩ := normalize_canonical
  have hmem : "\ta".toList ∈
      Text.splitAt '\n' (normalize "\ta \r\n\r\nb\r\r\n \n").toList := by decide
  refine ⟨(hsame _ _).mpr ⟨["\ta".toList, [], ['b']], 2, 0, ?_, ?_⟩, hmem, (hlines _).1 _ hmem⟩
  · decide
  · decide

end AsmInspect.Listing

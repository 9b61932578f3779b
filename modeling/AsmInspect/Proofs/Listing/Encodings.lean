import AsmInspect.Listing.Encoding

/-!
# Lines with encodings taken out

Taking the encodings out of a line leaves a line without any as it is and adds nothing to the
others. A character that stands neither in what opens an encoding nor in what closes it, such as a
quote, keeps what is in front of it apart from what is behind it. So encodings are taken out of what
stands between two quotes just as if it stood alone, be it the name of a file.

## Main definitions

* `Listing.CarriesEncoding`: a line with an instruction encoding

## Main results

* `Text.cut?_append_of_eq_none`, `Text.cut?_of_eq_none_behind`: looking for a word at either side of
  a character that it does not have
* `Listing.dropEncodings_of_not_carries`: a line without encodings is left as it is
* `Listing.dropEncodings_quoted`: encodings between quotes
-/

namespace AsmInspect

namespace Text

variable {word : Text} {c : Char}

/-! ### Words that do not have a character -/

/-- A word that does not have a character does not reach past it. -/
theorem isPrefixOf_append_cons (hc : c ∉ word) (before rest : Text) :
    word.isPrefixOf (before ++ c :: rest) = word.isPrefixOf before := by
  induction word generalizing before with
  | nil => simp
  | cons d word ih =>
    rw [List.mem_cons, not_or] at hc
    cases before with
    | nil =>
      have hne : (d == c) = false := by simpa using Ne.symm hc.1
      simp [List.isPrefixOf, hne]
    | cons e before =>
      rw [List.cons_append, List.isPrefixOf, List.isPrefixOf, ih hc.2]

/-- Looking for a word keeps what has been seen before. -/
theorem cut?.go_eq_map (word seen text : Text) :
    cut?.go word seen text =
      (cut? word text).map fun parts => (seen.reverse ++ parts.1, parts.2) := by
  have hgo (front : Text) : cut?.go word (front ++ seen) text =
      (cut?.go word front text).map fun parts => (seen.reverse ++ parts.1, parts.2) := by
    induction text generalizing front with
    | nil => unfold cut?.go; split <;> simp
    | cons d text ih =>
      unfold cut?.go
      split
      · simp
      · exact ih (d :: front)
  exact hgo []

/-- A word is looked for in front of a character that it does not have, and then behind it. -/
theorem cut?.go_append_cons (hne : word ≠ []) (hc : c ∉ word) (seen before rest : Text) :
    cut?.go word seen (before ++ c :: rest) =
      match cut?.go word seen before with
      | some (front, behind) => some (front, behind ++ c :: rest)
      | none => cut?.go word (c :: (before.reverse ++ seen)) rest := by
  have hempty : word.isEmpty = false := by simpa using hne
  induction before generalizing seen with
  | nil =>
    have hprefix : word.isPrefixOf (c :: rest) = word.isPrefixOf [] :=
      isPrefixOf_append_cons hc [] rest
    have hnil : word.isPrefixOf [] = false := by
      obtain ⟨d, tail, rfl⟩ := List.exists_cons_of_ne_nil hne
      rfl
    have hbehind : cut?.go word seen (c :: rest) = cut?.go word (c :: seen) rest := by
      rw [cut?.go, hprefix, hnil]
      rfl
    have hfront : cut?.go word seen [] = none := by
      rw [cut?.go, hempty]
      rfl
    rw [List.nil_append, hbehind, hfront]
    rfl
  | cons d before ih =>
    have hprefix : word.isPrefixOf (d :: (before ++ c :: rest)) = word.isPrefixOf (d :: before) :=
      isPrefixOf_append_cons hc (d :: before) rest
    rw [List.cons_append, cut?.go, hprefix, cut?.go]
    by_cases hhere : word.isPrefixOf (d :: before) = true
    case pos =>
      have hlength := (List.isPrefixOf_iff_prefix.mp hhere).length_le
      rw [if_pos hhere, if_pos hhere, ← List.cons_append, List.drop_append_of_le_length hlength]
    case neg =>
      rw [if_neg hhere, if_neg hhere, ih, List.reverse_cons, List.append_assoc,
        List.singleton_append]

/-- A word that is not in front of a character which it does not have is looked for behind it. -/
theorem cut?_append_of_eq_none (hne : word ≠ []) (hc : c ∉ word) {before : Text}
    (h : cut? word before = none) (rest : Text) :
    cut? word (before ++ c :: rest) =
      (cut? word rest).map fun parts => (before ++ c :: parts.1, parts.2) := by
  have hgo : cut?.go word [] before = none := h
  rw [cut?, cut?.go_append_cons hne hc, hgo]
  dsimp only
  rw [cut?.go_eq_map]
  simp

/-- A word that is not behind a character which it does not have is looked for in front of it. -/
theorem cut?_of_eq_none_behind (hne : word ≠ []) (hc : c ∉ word) {rest : Text}
    (h : cut? word rest = none) (before : Text) :
    cut? word (before ++ c :: rest) =
      (cut? word before).map fun parts => (parts.1, parts.2 ++ c :: rest) := by
  rw [cut?, cut?.go_append_cons hne hc, cut?]
  cases cut?.go word [] before with
  | some parts => rfl
  | none =>
    dsimp only
    rw [cut?.go_eq_map, h]
    rfl

end Text

namespace Listing

/-- A line with an instruction encoding. -/
def CarriesEncoding (line : Text) : Prop :=
  ∃ before inside after, line = before ++ encodingOpen ++ inside ++ commentClose ++ after ∧
    isEncoding inside = true

variable {line before opened inside rest : Text} {c : Char}

/-! ### A line and its first comment -/

theorem dropEncodings_of_unopened (h : Text.cut? encodingOpen line = none) :
    dropEncodings line = line := by
  rw [dropEncodings]
  split
  case h_1 => rfl
  case h_2 hopened => exact absurd (h.symm.trans hopened) (by simp)

theorem dropEncodings_of_unclosed (hopened : Text.cut? encodingOpen line = some (before, opened))
    (hclosed : Text.cut? commentClose opened = none) : dropEncodings line = line := by
  rw [dropEncodings]
  split
  case h_1 => rfl
  case h_2 hopened' =>
    obtain ⟨rfl, rfl⟩ := Prod.mk.inj (Option.some.inj (hopened.symm.trans hopened'))
    split
    case h_1 => rfl
    case h_2 hclosed' => exact absurd (hclosed.symm.trans hclosed') (by simp)

theorem dropEncodings_of_closed (hopened : Text.cut? encodingOpen line = some (before, opened))
    (hclosed : Text.cut? commentClose opened = some (inside, rest)) :
    dropEncodings line =
      if isEncoding inside then before ++ dropEncodings rest
      else before ++ encodingOpen ++ inside ++ commentClose ++ dropEncodings rest := by
  rw [dropEncodings]
  split
  case h_1 hopened' => exact absurd (hopened.symm.trans hopened') (by simp)
  case h_2 hopened' =>
    obtain ⟨rfl, rfl⟩ := Prod.mk.inj (Option.some.inj (hopened.symm.trans hopened'))
    split
    case h_1 hclosed' => exact absurd (hclosed.symm.trans hclosed') (by simp)
    case h_2 hclosed' =>
      obtain ⟨rfl, rfl⟩ := Prod.mk.inj (Option.some.inj (hclosed.symm.trans hclosed'))
      rfl

/-! ### Lines without encodings -/

theorem mem_of_mem_dropEncodings (h : c ∈ dropEncodings line) : c ∈ line := by
  fun_induction dropEncodings line with
  | case1 => exact h
  | case2 => exact h
  | case3 line before opened hopened inside rest hclosed hlt hencoding ih =>
    rw [Text.eq_of_cut? hopened, Text.eq_of_cut? hclosed]
    rcases List.mem_append.mp h with h | h
    · simp only [List.mem_append, h, true_or]
    · simp only [List.mem_append, ih h, or_true]
  | case4 line before opened hopened inside rest hclosed hlt hencoding ih =>
    rw [Text.eq_of_cut? hopened, Text.eq_of_cut? hclosed]
    simp only [List.mem_append] at h ⊢
    rcases h with (((h | h) | h) | h) | h
    · exact .inl (.inl h)
    · exact .inl (.inr h)
    · exact .inr (.inl (.inl h))
    · exact .inr (.inl (.inr h))
    · exact .inr (.inr (ih h))

theorem CarriesEncoding.append_left (h : CarriesEncoding line) (front : Text) :
    CarriesEncoding (front ++ line) := by
  obtain ⟨before, inside, after, rfl, hinside⟩ := h
  exact ⟨front ++ before, inside, after, by simp only [List.append_assoc], hinside⟩

/-- What opens an encoding has a blank, and so has a line with an encoding. -/
theorem CarriesEncoding.space_mem (h : CarriesEncoding line) : ' ' ∈ line := by
  obtain ⟨before, inside, after, rfl, -⟩ := h
  simp [encodingOpen]

/-- **A line without encodings is left as it is.** -/
theorem dropEncodings_of_not_carries (h : ¬ CarriesEncoding line) : dropEncodings line = line := by
  fun_induction dropEncodings line with
  | case1 => rfl
  | case2 => rfl
  | case3 line before opened hopened inside rest hclosed hlt hencoding ih =>
    refine absurd ⟨before, inside, rest, ?_, hencoding⟩ h
    rw [Text.eq_of_cut? hopened, Text.eq_of_cut? hclosed]
    simp only [List.append_assoc]
  | case4 line before opened hopened inside rest hclosed hlt hencoding ih =>
    have hline : line = before ++ encodingOpen ++ inside ++ commentClose ++ rest := by
      rw [Text.eq_of_cut? hopened, Text.eq_of_cut? hclosed]
      simp only [List.append_assoc]
    rw [ih fun hrest => h (hline ▸ hrest.append_left _), ← hline]

/-! ### Encodings between quotes -/

/-- Nothing is taken out in front of a quote if no encoding is opened there. -/
theorem dropEncodings_append_quote (h : Text.cut? encodingOpen before = none) (rest : Text) :
    dropEncodings (before ++ '"' :: rest) = before ++ '"' :: dropEncodings rest := by
  have hcut : Text.cut? encodingOpen (before ++ '"' :: rest) = _ :=
    Text.cut?_append_of_eq_none (by decide) (by decide) h rest
  cases hopened : Text.cut? encodingOpen rest with
  | none =>
    rw [hopened] at hcut
    rw [dropEncodings_of_unopened hopened, dropEncodings_of_unopened hcut]
  | some parts =>
    obtain ⟨front, opened⟩ := parts
    rw [hopened] at hcut
    cases hclosed : Text.cut? commentClose opened with
    | none =>
      rw [dropEncodings_of_unclosed hopened hclosed, dropEncodings_of_unclosed hcut hclosed]
    | some parts =>
      rw [dropEncodings_of_closed hopened hclosed, dropEncodings_of_closed hcut hclosed]
      split <;> simp

/-- Nothing is taken out behind a quote if no encoding is opened or closed there. -/
theorem dropEncodings_quote_append (hopen : Text.cut? encodingOpen rest = none)
    (hclose : Text.cut? commentClose rest = none) (line : Text) :
    dropEncodings (line ++ '"' :: rest) = dropEncodings line ++ '"' :: rest := by
  have hopened (front : Text) : Text.cut? encodingOpen (front ++ '"' :: rest) = _ :=
    Text.cut?_of_eq_none_behind (by decide) (by decide) hopen front
  have hclosed (front : Text) : Text.cut? commentClose (front ++ '"' :: rest) = _ :=
    Text.cut?_of_eq_none_behind (by decide) (by decide) hclose front
  fun_induction dropEncodings line with
  | case1 line hnone =>
    have hcut := hopened line
    rw [hnone] at hcut
    exact dropEncodings_of_unopened hcut
  | case2 line before opened hsome hnone =>
    have hcut := hopened line
    have hcut' := hclosed opened
    rw [hsome] at hcut
    rw [hnone] at hcut'
    exact dropEncodings_of_unclosed hcut hcut'
  | case3 line before opened hsome inside rest' hsome' hlt hencoding ih =>
    have hcut := hopened line
    have hcut' := hclosed opened
    rw [hsome] at hcut
    rw [hsome'] at hcut'
    rw [dropEncodings_of_closed hcut hcut', if_pos hencoding, ih, List.append_assoc]
  | case4 line before opened hsome inside rest' hsome' hlt hencoding ih =>
    have hcut := hopened line
    have hcut' := hclosed opened
    rw [hsome] at hcut
    rw [hsome'] at hcut'
    rw [dropEncodings_of_closed hcut hcut', if_neg hencoding, ih]
    simp only [List.append_assoc]

/-- **Encodings between quotes** are taken out as if what stands there stood alone. -/
theorem dropEncodings_quoted (hbefore : Text.cut? encodingOpen before = none)
    (hopen : Text.cut? encodingOpen rest = none) (hclose : Text.cut? commentClose rest = none)
    (name : Text) :
    dropEncodings (before ++ '"' :: (name ++ '"' :: rest)) =
      before ++ '"' :: (dropEncodings name ++ '"' :: rest) := by
  rw [dropEncodings_append_quote hbefore, dropEncodings_quote_append hopen hclose]

end Listing

end AsmInspect

import AsmInspect.Proofs.Remark.Values

/-!
# Separators outside of quoted stretches

A text is cut at the separators that stand outside of quotes. Which quotes count is said here
without reading the text from left to right: a quote opens a stretch unless it stands in one that
has been opened before it, and a stretch reaches to the next quote of the same kind, or to the end
of the text if there is none. A quote of the other kind inside of a stretch is a character like any
other.

The reader only remembers which quote is open. At every position this is the quote of the one
stretch that has been opened and not closed before, if there is one: that is kept by each character,
and so holds behind every front of the text.

## Main definitions

* `Remark.Opens`: a quote that opens a stretch
* `Remark.InStretch`: a position in a stretch
* `Remark.IsCut`: a position at which parts have been cut
* `Remark.openQuote`: what the reader remembers

## Main results

* `Remark.openAt_openQuote`: what the reader remembers is the quote of the open stretch
* `Remark.isCut_splitOutside_iff`: where the reader cuts
* `Remark.splitUnquoted_cuts`: a text is cut at the separators outside of all stretches
-/

namespace AsmInspect.Remark

variable {separator c : Char} {quote : Option Char} {text rest : Text} {position : Nat}

/-! ### Stretches -/

/-- The quote at a position comes again before another position. -/
def ClosedBefore (text : Text) (opening position : Nat) : Prop :=
  ∃ closing, opening < closing ∧ closing < position ∧ text[closing]? = text[opening]?

/-- **A quote that opens a stretch**: all stretches that have been opened before it are closed. -/
def Opens (text : Text) (position : Nat) : Prop :=
  (∃ c, text[position]? = some c ∧ isQuote c = true) ∧
    ∀ opening, opening < position → Opens text opening → ClosedBefore text opening position
termination_by position

/-- **A position in a stretch**, both its quotes included. -/
def InStretch (text : Text) (position : Nat) : Prop :=
  ∃ opening ≤ position, Opens text opening ∧ ¬ ClosedBefore text opening position

theorem ClosedBefore.mono {opening later : Nat} (h : ClosedBefore text opening position)
    (hle : position ≤ later) : ClosedBefore text opening later := by
  obtain ⟨closing, hopening, hposition, hsame⟩ := h
  exact ⟨closing, hopening, Nat.lt_of_lt_of_le hposition hle, hsame⟩

/-- One position further, the character at the position may close a stretch as well. -/
theorem closedBefore_succ_iff {opening : Nat} (hopening : opening < position)
    (hc : text[position]? = some c) : ClosedBefore text opening (position + 1) ↔
      ClosedBefore text opening position ∨ text[opening]? = some c := by
  constructor
  · rintro ⟨closing, hfirst, hlast, hsame⟩
    rcases Nat.lt_succ_iff_lt_or_eq.mp hlast with hbefore | rfl
    · exact .inl ⟨closing, hfirst, hbefore, hsame⟩
    · exact .inr (hsame.symm.trans hc)
  · rintro (hclosed | hsame)
    · exact hclosed.mono (Nat.le_succ position)
    · exact ⟨position, hopening, Nat.lt_succ_self position, hc.trans hsame.symm⟩

/-- Nothing is closed right behind the quote that opens it. -/
theorem not_closedBefore_succ : ¬ ClosedBefore text position (position + 1) := by
  rintro ⟨closing, hfirst, hlast, -⟩
  omega

/-! ### What the reader remembers -/

/-- The quote that is open behind a character, by the one that is open in front of it. -/
def nextQuote (quote : Option Char) (c : Char) : Option Char :=
  match quote with
  | some q => if c == q then none else some q
  | none => if isQuote c then some c else none

/-- **What the reader remembers** behind a text: the quote that is open. -/
def openQuote (quote : Option Char) (text : Text) : Option Char := text.foldl nextQuote quote

/-- The stretch that is open at a position, by its quote. -/
def OpenAt (text : Text) (position : Nat) : Option Char → Prop
  | some q => ∃ opening < position,
      Opens text opening ∧ text[opening]? = some q ∧ ¬ ClosedBefore text opening position
  | none => ∀ opening < position, Opens text opening → ClosedBefore text opening position

/-- No two stretches are open at one position. -/
theorem opening_unique {first second : Nat} (hfirst : Opens text first)
    (hsecond : Opens text second) (hopen : ¬ ClosedBefore text first position)
    (hopen' : ¬ ClosedBefore text second position) (hlt : first < position)
    (hlt' : second < position) : first = second := by
  -- the later one would not have been opened in the earlier one
  rw [Opens] at hfirst hsecond
  rcases Nat.lt_trichotomy first second with hless | rfl | hless
  · have hclosed := hsecond.2 first hless (by rwa [Opens])
    exact absurd (hclosed.mono (Nat.le_of_lt hlt')) hopen
  · rfl
  · have hclosed := hfirst.2 second hless (by rwa [Opens])
    exact absurd (hclosed.mono (Nat.le_of_lt hlt)) hopen'

/-- **Each character keeps it**: what is open behind it is what the reader then remembers. -/
theorem OpenAt.step (h : OpenAt text position quote) (hc : text[position]? = some c) :
    OpenAt text (position + 1) (nextQuote quote c) := by
  cases quote with
  | none =>
    by_cases hquote : isQuote c = true
    case pos =>
      have hopens : Opens text position := by
        rw [Opens]
        exact ⟨⟨c, hc, hquote⟩, h⟩
      rw [nextQuote, if_pos hquote]
      exact ⟨position, Nat.lt_succ_self position, hopens, hc, not_closedBefore_succ⟩
    case neg =>
      rw [nextQuote, if_neg hquote]
      intro opening hlt hopens
      rcases Nat.lt_succ_iff_lt_or_eq.mp hlt with hbefore | rfl
      · exact (h opening hbefore hopens).mono (Nat.le_succ position)
      · rw [Opens] at hopens
        obtain ⟨⟨d, hd, hquote'⟩, -⟩ := hopens
        obtain rfl := Option.some.inj (hc.symm.trans hd)
        exact absurd hquote' hquote
  | some q =>
    obtain ⟨opening, hlt, hopens, hq, hopen⟩ := h
    by_cases hsame : c = q
    case pos =>
      -- the open stretch is closed here, and there is no other
      subst hsame
      rw [nextQuote, if_pos (beq_self_eq_true c)]
      intro other hlt' hopens'
      rcases Nat.lt_succ_iff_lt_or_eq.mp hlt' with hbefore | rfl
      · rw [closedBefore_succ_iff hbefore hc]
        by_contra hneither
        rw [not_or] at hneither
        obtain rfl := opening_unique hopens' hopens hneither.1 hopen hbefore hlt
        exact hneither.2 hq
      · rw [Opens] at hopens'
        exact absurd (hopens'.2 opening hlt hopens) hopen
    case neg =>
      rw [nextQuote, if_neg (by simpa using hsame)]
      refine ⟨opening, Nat.lt_succ_of_lt hlt, hopens, hq, ?_⟩
      rw [closedBefore_succ_iff hlt hc, not_or]
      exact ⟨hopen, fun he => hsame (Option.some.inj (he.symm.trans hq))⟩

/-- **What the reader remembers is the quote of the open stretch**, behind every front of a text. -/
theorem openAt_openQuote (h : position ≤ text.length) :
    OpenAt text position (openQuote none (text.take position)) := by
  induction position with
  | zero =>
    intro opening hlt
    exact absurd hlt (Nat.not_lt_zero opening)
  | succ position ih =>
    have hc : text[position]? = some text[position] := List.getElem?_eq_getElem h
    have hstep := (ih (Nat.le_of_succ_le h)).step hc
    rwa [openQuote, List.take_add_one, hc, List.foldl_append]

/-- A position is in a stretch if one is open there, or if a quote stands there. -/
theorem inStretch_iff (hc : text[position]? = some c) :
    InStretch text position ↔
      openQuote none (text.take position) ≠ none ∨ isQuote c = true := by
  have hopen : OpenAt text position (openQuote none (text.take position)) :=
    openAt_openQuote (Nat.le_of_lt (List.getElem?_eq_some_iff.mp hc).1)
  cases hquote : openQuote none (text.take position) with
  | some q =>
    rw [hquote] at hopen
    obtain ⟨opening, hlt, hopens, -, hnot⟩ := hopen
    exact iff_of_true ⟨opening, Nat.le_of_lt hlt, hopens, hnot⟩ (.inl (Option.some_ne_none q))
  | none =>
    rw [hquote] at hopen
    constructor
    · rintro ⟨opening, hle, hopens, hnot⟩
      rcases Nat.lt_or_eq_of_le hle with hlt | rfl
      · exact absurd (hopen opening hlt hopens) hnot
      · rw [Opens] at hopens
        obtain ⟨⟨d, hd, hd'⟩, -⟩ := hopens
        obtain rfl := Option.some.inj (hc.symm.trans hd)
        exact .inr hd'
    · rintro (hne | hquote')
      · exact absurd rfl hne
      · refine ⟨position, Nat.le_refl position, ?_, ?_⟩
        · rw [Opens]
          exact ⟨⟨c, hc, hquote'⟩, hopen⟩
        · exact fun hclosed => not_closedBefore_succ (hclosed.mono (Nat.le_succ position))

/-! ### Cuts -/

/-- **A position at which parts have been cut**: some of them, put together, reach up to it, and
there are more behind it. -/
def IsCut (separator : Char) (parts : List Text) (position : Nat) : Prop :=
  ∃ k < parts.length, 0 < k ∧ (Text.join [separator] (parts.take k)).length = position

instance (separator : Char) (parts : List Text) (position : Nat) :
    Decidable (IsCut separator parts position) := inferInstanceAs (Decidable (∃ k < _, _))

variable {parts : List Text}

theorem isCut_cons_head_iff {first : Text} {others : List Text} :
    IsCut separator ((c :: first) :: others) position ↔
      ∃ before, position = before + 1 ∧ IsCut separator (first :: others) before := by
  have hlength {k : Nat} (hk : 0 < k) :
      (Text.join [separator] (((c :: first) :: others).take k)).length =
        (Text.join [separator] ((first :: others).take k)).length + 1 := by
    obtain ⟨j, rfl⟩ := Nat.exists_eq_succ_of_ne_zero (Nat.pos_iff_ne_zero.mp hk)
    rw [List.take_succ_cons, List.take_succ_cons, Text.join_cons_head, List.length_cons]
  constructor
  · rintro ⟨k, hlt, hk, rfl⟩
    exact ⟨_, hlength hk, k, hlt, hk, rfl⟩
  · rintro ⟨_, rfl, k, hlt, hk, rfl⟩
    exact ⟨k, hlt, hk, hlength hk⟩

theorem isCut_nil_cons_iff {first : Text} {others : List Text} :
    IsCut separator ([] :: first :: others) position ↔
      position = 0 ∨
        ∃ before, position = before + 1 ∧ IsCut separator (first :: others) before := by
  have hlength (k : Nat) :
      (Text.join [separator] (([] :: first :: others).take (k + 2))).length =
        (Text.join [separator] ((first :: others).take (k + 1))).length + 1 := by
    rw [List.take_succ_cons, List.take_succ_cons, Text.join_cons_cons, List.nil_append,
      List.singleton_append, List.length_cons]
  constructor
  · rintro ⟨k, hlt, hk, rfl⟩
    match k with
    | 1 => exact .inl rfl
    | k + 2 => exact .inr ⟨_, hlength k, k + 1, Nat.lt_of_succ_lt_succ hlt, Nat.succ_pos k, rfl⟩
  · rintro (rfl | ⟨_, rfl, k, hlt, hk, rfl⟩)
    · exact ⟨1, by simp, Nat.one_pos, rfl⟩
    · obtain ⟨j, rfl⟩ := Nat.exists_eq_succ_of_ne_zero (Nat.pos_iff_ne_zero.mp hk)
      exact ⟨j + 2, Nat.succ_lt_succ hlt, Nat.succ_pos _, hlength j⟩

/-- What the reader does with a character: it cuts at a separator outside of quotes, and otherwise
the character belongs to the next part. -/
theorem splitOutside_cons (separator : Char) (quote : Option Char) (c : Char) (rest : Text) :
    splitOutside separator quote (c :: rest) =
      if quote = none ∧ isQuote c = false ∧ c = separator then
        [] :: splitOutside separator none rest
      else (splitOutside separator (nextQuote quote c) rest).modifyHead (c :: ·) := by
  cases quote with
  | some q => simp [splitOutside, nextQuote]
  | none =>
    cases hquote : isQuote c with
    | true => simp [splitOutside, nextQuote, hquote]
    | false =>
      by_cases hc : c = separator
      case pos =>
        subst hc
        simp [splitOutside, hquote]
      case neg => simp [splitOutside, nextQuote, hquote, hc]

/-- There is a first part. -/
theorem exists_splitOutside (separator : Char) (quote : Option Char) (text : Text) :
    ∃ first others, splitOutside separator quote text = first :: others := by
  induction text generalizing quote with
  | nil => exact ⟨[], [], rfl⟩
  | cons c rest ih =>
    rw [splitOutside_cons]
    split
    · exact ⟨[], _, rfl⟩
    · obtain ⟨first, others, hparts⟩ := ih (nextQuote quote c)
      rw [hparts]
      exact ⟨c :: first, others, rfl⟩

/-- **The parts put together are the text.** -/
theorem join_splitOutside : Text.join [separator] (splitOutside separator quote text) = text := by
  induction text generalizing quote with
  | nil => rfl
  | cons c rest ih =>
    rw [splitOutside_cons]
    split
    case isTrue hcut =>
      obtain ⟨first, others, hparts⟩ := exists_splitOutside separator none rest
      rw [hparts, Text.join_cons_cons, ← hparts, ih, hcut.2.2]
      rfl
    case isFalse =>
      obtain ⟨first, others, hparts⟩ := exists_splitOutside separator (nextQuote quote c) rest
      rw [hparts, List.modifyHead_cons, Text.join_cons_head, ← hparts, ih]

/-- **Where the reader cuts**: at each separator in front of which no quote is open, unless the
separator is a quote itself. -/
theorem isCut_splitOutside_iff : IsCut separator (splitOutside separator quote text) position ↔
    text[position]? = some separator ∧ openQuote quote (text.take position) = none ∧
      isQuote separator = false := by
  induction text generalizing quote position with
  | nil =>
    refine iff_of_false ?_ (by simp)
    rintro ⟨k, hlt, hk, -⟩
    rw [splitOutside, List.length_singleton] at hlt
    omega
  | cons c rest ih =>
    rw [splitOutside_cons]
    split
    case isTrue hcut =>
      obtain ⟨rfl, hquote, rfl⟩ := hcut
      obtain ⟨first, others, hparts⟩ := exists_splitOutside c none rest
      rw [hparts, isCut_nil_cons_iff, ← hparts]
      cases position with
      | zero => simp [openQuote, hquote]
      | succ before => simp [ih, openQuote, nextQuote, hquote]
    case isFalse hcut =>
      obtain ⟨first, others, hparts⟩ := exists_splitOutside separator (nextQuote quote c) rest
      rw [hparts, List.modifyHead_cons, isCut_cons_head_iff, ← hparts]
      cases position with
      | zero =>
        refine iff_of_false (by simp) ?_
        rintro ⟨hc, hnone, hquote⟩
        obtain rfl : c = separator := by simpa using hc
        exact hcut ⟨hnone, hquote, rfl⟩
      | succ before => simp [ih, openQuote]

/-- **A text is cut at the separators outside of all stretches**, and nowhere else. There is at
least one part, and the parts with the separator between them are the text.

A separator that is a quote is always in a stretch, so nothing is cut at it. -/
theorem splitUnquoted_cuts (separator : Char) (text : Text) :
    splitUnquoted separator text ≠ [] ∧
    Text.join [separator] (splitUnquoted separator text) = text ∧
    ∀ position, IsCut separator (splitUnquoted separator text) position ↔
      text[position]? = some separator ∧ ¬ InStretch text position := by
  obtain ⟨first, others, hparts⟩ := exists_splitOutside separator none text
  have hne : splitUnquoted separator text ≠ [] := by
    rw [splitUnquoted, hparts]
    exact List.cons_ne_nil first others
  refine ⟨hne, join_splitOutside, fun position => ?_⟩
  rw [splitUnquoted, isCut_splitOutside_iff]
  constructor
  · rintro ⟨hc, hnone, hquote⟩
    rw [inStretch_iff hc, hnone, hquote]
    exact ⟨hc, by simp⟩
  · rintro ⟨hc, hnot⟩
    rw [inStretch_iff hc, not_or, not_not, Bool.not_eq_true] at hnot
    exact ⟨hc, hnot⟩

/-- Quotes of the other kind, and a stretch that is not closed. -/
example : splitUnquoted ',' "a,'\",',b,\"c',d".toList =
    ["a".toList, "'\",'".toList, "b".toList, "\"c',d".toList] := by decide

end AsmInspect.Remark

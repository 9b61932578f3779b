import AsmInspect.Proofs.Listing.Encodings
import AsmInspect.Proofs.Listing.Labels

/-!
# Labels that nothing refers to

The filter for labels hides the labels that no other line mentions. What a line mentions are its
longest stretches of name characters, so a label is not mentioned by a longer name that it is a part
of. The lines are looked through as they stand in the text, before anything is hidden or stripped,
and a label line mentions nothing, not even itself. With an encoding behind its colon a label line
is one only once it is stripped, and so it would mention the label that it defines; if no label line
carries an encoding, the two readings of a line agree about which labels there are.

## Main definitions

* `Text.IsRun`: a longest stretch of characters of a class
* `Listing.Mentions`: the names that some lines mention

## Main results

* `Text.mem_pieces_iff`: what stands between separators
* `Listing.mem_referenced_iff`: the names that a text is found to mention
* `Listing.definesLabel_readLine_iff`: a line without an encoding defines what it is read to define
* `Listing.unused_labels_hidden`: the filter for labels hides the labels that nothing mentions
-/

namespace AsmInspect

namespace Text

variable {p : Char → Bool} {text piece : Text}

/-- **A longest stretch of characters of a class** in a line. -/
structure IsRun (p : Char → Bool) (line run : Text) : Prop where
  ne_nil : run ≠ []
  inside : ∀ c ∈ run, p c = true
  longest : ∃ before after, line = before ++ run ++ after ∧
    (∀ c, before.getLast? = some c → p c = false) ∧ ∀ c, after.head? = some c → p c = false

/-- Between separators stand stretches without any, with separators or nothing at either side. -/
theorem mem_pieces_of_stretch {before after : Text} (hpiece : ∀ c ∈ piece, p c = false)
    (hbefore : ∀ c, before.getLast? = some c → p c = true)
    (hafter : ∀ c, after.head? = some c → p c = true) :
    piece ∈ pieces p (before ++ piece ++ after) := by
  have hfront : piece ∈ pieces p (piece ++ after) := by
    cases after with
    | nil => rw [List.append_nil, pieces_of_forall hpiece]; exact List.mem_singleton_self piece
    | cons c after =>
      rw [pieces_append_cons hpiece (hafter c rfl)]
      exact List.mem_cons_self ..
  rw [List.append_assoc]
  rcases List.eq_nil_or_concat before with rfl | ⟨front, last, rfl⟩
  · exact hfront
  · rw [List.concat_eq_append] at hbefore ⊢
    rw [List.append_assoc, List.singleton_append,
      pieces_append_separator front (hbefore last List.getLast?_concat)]
    exact List.mem_append_right _ hfront

/-- **What stands between separators.** -/
theorem mem_pieces_iff : piece ∈ pieces p text ↔ ∃ before after,
    text = before ++ piece ++ after ∧ (∀ c ∈ piece, p c = false) ∧
      (∀ c, before.getLast? = some c → p c = true) ∧
      ∀ c, after.head? = some c → p c = true := by
  constructor
  · intro h
    -- the induction is on what is left behind the first separator
    induction hlength : text.length using Nat.strong_induction_on generalizing text with
    | _ n ih =>
      rcases unseparated_or_exists_separator p text with hnone | ⟨first, c, rest, hfirst, hc, rfl⟩
      · rw [pieces_of_forall hnone] at h
        obtain rfl := List.mem_singleton.mp h
        exact ⟨[], [], by simp, hnone, by simp, by simp⟩
      · rw [pieces_append_cons hfirst hc] at h
        rcases List.mem_cons.mp h with rfl | h
        · refine ⟨[], c :: rest, rfl, hfirst, by simp, fun d hd => ?_⟩
          obtain rfl : c = d := by simpa using hd
          exact hc
        · have hlt : rest.length < n := by
            rw [← hlength, List.length_append, List.length_cons]
            omega
          obtain ⟨before, after, rfl, hpiece, hbefore, hafter⟩ := ih _ hlt h rfl
          refine ⟨first ++ c :: before, after, by simp, hpiece, fun d hd => ?_, hafter⟩
          rw [List.getLast?_append_of_ne_nil _ (List.cons_ne_nil c before),
            List.getLast?_cons] at hd
          cases hlast : before.getLast? with
          | none =>
            rw [hlast] at hd
            obtain rfl : c = d := by simpa using hd
            exact hc
          | some last =>
            rw [hlast] at hd
            obtain rfl : last = d := by simpa using hd
            exact hbefore last hlast
  · rintro ⟨before, after, rfl, hpiece, hbefore, hafter⟩
    exact mem_pieces_of_stretch hpiece hbefore hafter

theorem isRun_iff_mem_pieces {line run : Text} :
    IsRun p line run ↔ run ∈ pieces (!p ·) line ∧ run ≠ [] := by
  simp only [mem_pieces_iff, Bool.not_eq_false', Bool.not_eq_true']
  constructor
  · rintro ⟨hne, hinside, before, after, hline, hbefore, hafter⟩
    exact ⟨⟨before, after, hline, hinside, hbefore, hafter⟩, hne⟩
  · rintro ⟨⟨before, after, hline, hinside, hbefore, hafter⟩, hne⟩
    exact ⟨hne, hinside, before, after, hline, hbefore, hafter⟩

end Text

namespace Listing

/-- The names that some lines mention. A line that defines a label mentions nothing. -/
def Mentions (lines : List Text) (name : Text) : Prop :=
  ∃ line ∈ lines, (∀ other, ¬ DefinesLabel line other) ∧ Text.IsRun isNameChar line name

variable {text line raw name : Text} {entry : Entry} {filters : Filters} {binary : Bool}
  {used : List Text} {number : Nat}

/-! ### What a text mentions -/

/-- **The names that a text is found to mention.** -/
theorem mem_referenced_iff : name ∈ referenced text ↔ Mentions (Text.lines text) name := by
  simp only [referenced, Mentions, List.mem_flatMap, List.mem_filter, Option.isNone_iff_eq_none,
    label?_eq_none_iff, Text.isRun_iff_mem_pieces, Bool.not_eq_true', List.isEmpty_eq_false_iff,
    and_assoc]

/-! ### Lines without encodings -/

/-- The characters of a label line are name characters, colons and blanks. -/
theorem DefinesLabel.slash_not_mem (h : DefinesLabel line name) : '/' ∉ line := by
  obtain ⟨before, after, hbefore, hafter, hline⟩ := Text.exists_trim line
  have hblank {gap : Text} (hgap : Text.Blank gap) : '/' ∉ gap := fun hc =>
    absurd (hgap _ hc) (by decide)
  have hname : '/' ∉ name := fun hc => absurd (h.nameChars _ hc) (by decide)
  rw [hline, h.trim_eq]
  simp only [List.mem_append, not_or]
  exact ⟨⟨hblank hbefore, hname, by decide⟩, hblank hafter⟩

theorem DefinesLabel.not_carriesEncoding (h : DefinesLabel line name) : ¬ CarriesEncoding line := by
  rintro ⟨before, inside, after, rfl, -⟩
  exact h.slash_not_mem (by simp [commentClose])

/-- Blanks at the end do not matter to the label that a line defines. -/
theorem definesLabel_trimEnd : DefinesLabel (Text.trimEnd line) name ↔ DefinesLabel line name := by
  obtain ⟨after, hafter, hline⟩ := Text.exists_trimEnd line
  conv_rhs => rw [hline]
  rw [definesLabel_iff_words, definesLabel_iff_words, Text.words_append_blank hafter]

/-- **A line without an encoding defines the label that it is read to define.** -/
theorem definesLabel_readLine_iff
    (h : ∀ other, DefinesLabel (readLine binary raw) other → ¬ CarriesEncoding raw) :
    DefinesLabel (readLine binary raw) name ↔ DefinesLabel raw name := by
  cases binary with
  | false => exact Iff.rfl
  | true =>
    have hread (hcarries : ¬ CarriesEncoding raw) : readLine true raw = Text.trimEnd raw :=
      congrArg Text.trimEnd (dropEncodings_of_not_carries hcarries)
    constructor
    · intro hname
      rw [hread (h name hname)] at hname
      exact definesLabel_trimEnd.mp hname
    · intro hname
      rw [hread hname.not_carriesEncoding]
      exact definesLabel_trimEnd.mpr hname

/-! ### What the filter hides -/

/-- The first character of a label line is one of its name. -/
theorem DefinesLabel.exists_cons (h : DefinesLabel line name) :
    ∃ first rest, Text.trim line = first :: rest ∧ isNameChar first = true := by
  obtain ⟨first, rest, rfl⟩ := List.exists_cons_of_ne_nil h.ne_nil
  exact ⟨first, rest ++ [':'], h.trim_eq, h.nameChars first (List.mem_cons_self ..)⟩

/-- **Only the filter for labels hides a label line.** -/
theorem hidden_of_label (h : DefinesLabel entry.line name) :
    entry.hidden filters used = (filters.labels && !used.contains name) := by
  obtain ⟨first, rest, hcore, hfirst⟩ := h.exists_cons
  have hlabel : label? entry.core = some name := label?_eq_some_iff.mpr (definesLabel_trim.mpr h)
  have hcore : entry.core = first :: rest := hcore
  have hcomment : isCommentOnly entry.core = false := by
    rw [hcore]
    unfold isCommentOnly
    split
    case h_1 heq => rw [(List.cons.inj heq).1] at hfirst; exact absurd hfirst (by decide)
    case h_2 heq => rw [(List.cons.inj heq).1] at hfirst; exact absurd hfirst (by decide)
    case h_3 heq => rw [(List.cons.inj heq).1] at hfirst; exact absurd hfirst (by decide)
    case h_4 => rfl
  have hempty : entry.core.isEmpty = false := by rw [hcore]; rfl
  simp [Entry.hidden, Entry.isEmptied, hlabel, hcomment, hempty]

/-- The filter for labels hides nothing but labels. -/
theorem hidden_of_not_label (h : ∀ name, ¬ DefinesLabel entry.line name) :
    entry.hidden filters used = entry.hidden { filters with labels := false } used := by
  have hlabel : label? entry.core = none :=
    label?_eq_none_iff.mpr fun name hname => h name (definesLabel_trim.mp hname)
  simp [Entry.hidden, hlabel]

theorem shownAt?_of_getElem? (h : (entries filters.binary text)[number]? = some entry) :
    shownAt? filters text number =
      if entry.hidden filters (referenced text) then none else some (entry.toLine filters) := by
  rw [shownAt?, h]
  cases hhidden : entry.hidden filters (referenced text) with
  | true => simp [Option.filter, hhidden]
  | false => simp [Option.filter, hhidden]

/-- **The filter for labels hides the labels that nothing mentions**, and nothing else. A mention
counts wherever it stands in the text, and whatever else is hidden. -/
theorem unused_labels_hidden (text : String) (filters : Filters) (hlabels : filters.labels = true)
    (hencodings : ∀ raw ∈ Text.lines text.toList, ∀ name,
      DefinesLabel (readLine filters.binary raw) name → ¬ CarriesEncoding raw) :
    (ofText text filters).lines =
      (List.range (Text.lines text.toList).length).filterMap (shownAt? filters text.toList) ∧
    ∀ number raw, (Text.lines text.toList)[number]? = some raw →
      (∀ name, DefinesLabel (readLine filters.binary raw) name ↔ DefinesLabel raw name) ∧
      (∀ name, DefinesLabel raw name → (shownAt? filters text.toList number = none ↔
        ¬ Mentions (Text.lines text.toList) name)) ∧
      ((∀ name, ¬ DefinesLabel raw name) → shownAt? filters text.toList number =
        shownAt? { filters with labels := false } text.toList number) := by
  refine ⟨lines_ofText text filters, fun number raw hraw => ?_⟩
  have hread {name : Text} :
      DefinesLabel (readLine filters.binary raw) name ↔ DefinesLabel raw name :=
    definesLabel_readLine_iff fun name => hencodings raw (List.mem_of_getElem? hraw) name
  obtain ⟨entry, hentry, rfl, hline⟩ := exists_entry_of_getElem? hraw
  refine ⟨fun name => hread, fun name hname => ?_, fun hname => ?_⟩
  · rw [shownAt?_of_getElem? hentry, hidden_of_label (hline ▸ hread.mpr hname), hlabels,
      ← mem_referenced_iff]
    simp
  · have hunlabelled : ∀ name, ¬ DefinesLabel entry.line name := fun name h =>
      hname name (hread.mp (hline ▸ h))
    have hunfiltered : shownAt? { filters with labels := false } text.toList number = _ :=
      shownAt?_of_getElem? hentry
    rw [shownAt?_of_getElem? hentry, hunfiltered, hidden_of_not_label hunlabelled]
    rfl

/-- A directive that is hidden mentions a label in front of it, and a longer name mentions none. -/
theorem unused_labels_hidden_longer_name :
    let text := "a:\n\t.word a\nb:\n\tbra ab\n".toList
    let filters : Filters := { labels := true, directives := true }
    shownAt? filters text 0 ≠ none ∧ shownAt? filters text 1 = none ∧
      shownAt? filters text 2 = none := by
  intro text filters
  obtain ⟨-, hlines⟩ := unused_labels_hidden "a:\n\t.word a\nb:\n\tbra ab\n" filters rfl
    fun _ _ _ hname => hname.not_carriesEncoding
  have hfirst : DefinesLabel "a:".toList "a".toList := label?_eq_some_iff.mp (by decide)
  have hsecond : DefinesLabel "b:".toList "b".toList := label?_eq_some_iff.mp (by decide)
  obtain ⟨-, ha, -⟩ := hlines 0 "a:".toList (by decide)
  obtain ⟨-, hb, -⟩ := hlines 2 "b:".toList (by decide)
  have hmentioned : Mentions (Text.lines text) "a".toList := mem_referenced_iff.mp (by decide)
  have hunused : ¬ Mentions (Text.lines text) "b".toList :=
    fun h => absurd (mem_referenced_iff.mpr h) (by decide)
  exact ⟨fun h => (ha _ hfirst).mp h hmentioned, by decide, (hb _ hsecond).mpr hunused⟩

end Listing

end AsmInspect

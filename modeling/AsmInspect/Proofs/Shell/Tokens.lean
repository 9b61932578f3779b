import AsmInspect.Proofs.Shell.Words

/-!
# How a script is split into tokens

`ReadsTokens` says what a scan of a text ends in, with a rule for each thing that may stand at the
start of the text: a blank, a comment, the end of a line, an operator or a word. As for words, the
reader may take a step for each character.

## Main definitions

* `Shell.ReadsTokens`: what a scan ends in
* `Shell.wordTokens`: words on one line

## Main results

* `Shell.ReadsTokens.word`: a word is one token, and the lines that it holds count
* `Shell.ReadsTokens.plainWords`: words with single blanks between them
* `Shell.scan?_of_readsTokens`: the tokens of a script
-/

namespace AsmInspect.Shell

/-- A scan that stands at the start of the text ends as `result`. -/
def ReadsTokens (scan : Scan) (text : Text) (result : Scan) : Prop :=
  ∀ most, text.length < most → scanFrom? most scan text = some result

/-- The word that a text without quotes and values is. -/
def plainWord (text : Text) : Word := [.literal text false]

/-- Whether a character can start a word, whatever follows it. -/
def startsWord (c : Char) : Bool := !endsWord c && !(['#', '\\'].contains c) && !c.isDigit

/-- Whether a text is a word that stands for itself, wherever it stands. -/
def isPlainWord (text : Text) : Bool := text.head?.any startsWord && text.all isPlain

theorem startsWord_of_isPlainWord {text : Text} (h : isPlainWord text = true) :
    text.head?.any startsWord = true :=
  (Bool.and_eq_true_iff.mp h).1

theorem forall_isPlain_of_isPlainWord {text : Text} (h : isPlainWord text = true) :
    ∀ c ∈ text, isPlain c = true :=
  List.all_eq_true.mp (Bool.and_eq_true_iff.mp h).2

theorem ne_nil_of_isPlainWord {text : Text} (h : isPlainWord text = true) : text ≠ [] := by
  rintro rfl
  cases h

/-- A line feed is not plain. -/
theorem count_newline_of_isPlainWord {text : Text} (h : isPlainWord text = true) :
    text.count '\n' = 0 := by
  rw [List.count_eq_zero]
  intro hmem
  exact absurd (forall_isPlain_of_isPlainWord h _ hmem) (by decide)

/-- Words on one line. -/
def wordTokens (line : Nat) (words : List Word) : List (Nat × Token) :=
  words.map fun word => (line, .word word)

/-- The scan some lines further down. -/
def Scan.pass (scan : Scan) (lines : Nat) : Scan := { scan with line := scan.line + lines }

theorem Scan.pass_zero (scan : Scan) : scan.pass 0 = scan := rfl

namespace ReadsTokens

variable {scan result : Scan} {text : Text}

/-- A rule of the reader, which may take a step for each character that it passes. -/
theorem of_step {before after : Text} {scan' : Scan} (hlength : after.length < before.length)
    (hstep : ∀ most, scanFrom? (most + 1) scan before = scanFrom? most scan' after)
    (h : ReadsTokens scan' after result) : ReadsTokens scan before result := by
  intro most hmost
  cases most with
  | zero => exact absurd hmost (Nat.not_lt_zero _)
  | succ most =>
    rw [hstep most]
    exact h most (by omega)

theorem done (scan : Scan) : ReadsTokens scan [] scan := by
  intro most hmost
  cases most with
  | zero => exact absurd hmost (Nat.not_lt_zero _)
  | succ most => rw [scanFrom?]

theorem blank (h : ReadsTokens scan text result) : ReadsTokens scan (' ' :: text) result := by
  refine of_step (Nat.lt_succ_self _) (fun most => ?_) h
  rw [scanFrom?, if_pos (by decide)]

/-- A comment goes on to the end of its line. -/
theorem comment {remark : Text} (hremark : '\n' ∉ remark)
    (h : ReadsTokens scan ('\n' :: text) result) :
    ReadsTokens scan ('#' :: remark ++ '\n' :: text) result := by
  refine of_step ?_ (fun most => ?_) h
  · simp only [List.cons_append, List.length_cons, List.length_append]
    omega
  · have hskip : (remark ++ '\n' :: text).dropWhile (· != '\n') = '\n' :: text := by
      rw [List.dropWhile_append_of_pos, List.dropWhile_cons_of_neg (by decide)]
      intro c hc
      rw [bne_iff_ne]
      rintro rfl
      exact hremark hc
    rw [List.cons_append, scanFrom?, if_neg (by decide), if_neg (by simp), if_pos rfl, hskip]

/-- A line feed ends a command, if no text after the line has been announced. -/
theorem newline (hstops : scan.stops = [])
    (h : ReadsTokens ((scan.add (.operator ['\n'])).pass 1) text result) :
    ReadsTokens scan ('\n' :: text) result := by
  refine of_step (Nat.lt_succ_self _) (fun most => ?_) h
  conv => lhs; unfold scanFrom?
  rw [if_neg (by decide), if_neg (by simp), if_neg (by decide), if_pos rfl, hstops, hereTexts?]
  simp [Scan.add, Scan.pass, hstops]

/-- A bar stands between the commands of a pipeline. -/
theorem bar (h : ReadsTokens (scan.add (.operator ['|'])) (' ' :: text) result) :
    ReadsTokens scan ('|' :: ' ' :: text) result := by
  refine of_step (Nat.lt_succ_self _) (fun most => ?_) h
  have hoperator : scanOperator? scan none ('|' :: ' ' :: text) =
      some (scan.add (.operator ['|']), ' ' :: text) := rfl
  conv => lhs; unfold scanFrom?
  rw [if_neg (by decide), if_neg (by simp), if_neg (by decide), if_neg (by decide),
    if_pos (by decide), hoperator, Option.bind_eq_bind, Option.bind_some]

/-- A word, which may hold line feeds. -/
theorem word {front : Text} {word : Word} (hstart : front.head?.any startsWord = true)
    (hword : ReadsWord [] (front ++ text) word text)
    (h : ReadsTokens ((scan.add (.word word)).pass (front.count '\n')) text result) :
    ReadsTokens scan (front ++ text) result := by
  cases front with
  | nil => cases hstart
  | cons c front =>
    -- what starts with a digit might be the number of a redirection, so the first one matters
    simp only [List.head?_cons, Option.any_some, startsWord, Bool.and_eq_true, Bool.not_eq_true',
      List.contains_cons, Bool.or_eq_false_iff, beq_eq_false_iff_ne] at hstart
    obtain ⟨⟨hends, hcomment, hescape, -⟩, hdigit⟩ := hstart
    have hne {d : Char} (hd : endsWord d = true) : c ≠ d := by
      rintro rfl
      rw [hends] at hd
      cases hd
    refine of_step ?_ (fun most => ?_) h
    · simp only [List.cons_append, List.length_cons, List.length_append]
      omega
    · have hdigits : (c :: (front ++ text)).takeWhile Char.isDigit = [] :=
        List.takeWhile_cons_of_neg (by simp [hdigit])
      have hscan := hword ((front ++ text).length + 2) (by simp)
      have hpassed : (c :: (front ++ text)).take ((front ++ text).length + 1 - text.length) =
          c :: front := by
        have hlength : (front ++ text).length + 1 - text.length = (c :: front).length := by
          simp only [List.length_append, List.length_cons]
          omega
        rw [hlength, ← List.cons_append, List.take_left]
      rw [List.cons_append] at hscan ⊢
      conv => lhs; unfold scanFrom?
      rw [if_neg (by simp [hne (d := ' ') (by decide), hne (d := '\t') (by decide)]),
        if_neg (by simp [hescape]), if_neg hcomment, if_neg (hne (by decide)),
        if_neg (by simp [hends]), hdigits]
      dsimp only
      rw [List.isEmpty_nil, Bool.not_true, Bool.false_and, if_neg Bool.false_ne_true, hscan,
        Option.bind_eq_bind, Option.bind_some]
      dsimp only
      rw [hpassed]
      rfl

/-- A word in which nothing is quoted or replaced. -/
theorem plain {front : Text} {c : Char} (hfront : isPlainWord front = true)
    (hc : endsWord c = true)
    (h : ReadsTokens (scan.add (.word (plainWord front))) (c :: text) result) :
    ReadsTokens scan (front ++ c :: text) result := by
  have hword : ReadsWord [] (front ++ c :: text) (plainWord front) (c :: text) := by
    apply ReadsWord.plains (ne_nil_of_isPlainWord hfront) (forall_isPlain_of_isPlainWord hfront)
    exact ReadsWord.done hc _ text
  apply word (startsWord_of_isPlainWord hfront) hword
  rwa [count_newline_of_isPlainWord hfront, Scan.pass_zero]

/-- A value in double quotes is a word of its own. -/
theorem value {source : Text} {part : Part} {c : Char} (hc : endsWord c = true)
    (hsource : '\n' ∉ source)
    (hpart : dollar? true (source ++ '"' :: c :: text) = some (part, '"' :: c :: text))
    (h : ReadsTokens (scan.add (.word [.literal [] true, part])) (c :: text) result) :
    ReadsTokens scan ('"' :: '$' :: source ++ '"' :: c :: text) result := by
  have hword : ReadsWord [] ('"' :: '$' :: source ++ '"' :: c :: text)
      [.literal [] true, part] (c :: text) := by
    apply ReadsWord.value hpart
    exact ReadsWord.done hc _ text
  -- the word has no line feed, so the line of the scan stays
  have hlines : ('"' :: '$' :: (source ++ ['"'])).count '\n' = 0 := by
    rw [List.count_eq_zero]
    simpa using hsource
  have htext : '"' :: '$' :: source ++ '"' :: c :: text =
      '"' :: '$' :: (source ++ ['"']) ++ c :: text := by simp
  rw [htext] at hword ⊢
  apply word rfl hword
  rwa [hlines, Scan.pass_zero]

/-- Plain words with single blanks between them. -/
theorem plainWords {words : List Text} (hwords : ∀ word ∈ words, isPlainWord word = true)
    (h : ReadsTokens
      { scan with tokens := (wordTokens scan.line (words.map plainWord)).reverse ++ scan.tokens }
      ('\n' :: text) result) :
    ReadsTokens scan (Text.join [' '] words ++ '\n' :: text) result := by
  induction words generalizing scan with
  | nil => exact h
  | cons first rest ih =>
    have hfirst := hwords first (List.mem_cons_self ..)
    cases rest with
    | nil =>
      apply plain hfirst rfl
      exact h
    | cons second rest =>
      have hjoin : Text.join [' '] (first :: second :: rest) ++ '\n' :: text =
          first ++ ' ' :: (Text.join [' '] (second :: rest) ++ '\n' :: text) := by
        simp [Text.join]
      rw [hjoin]
      apply plain hfirst rfl
      apply blank
      apply ih (fun word hword => hwords word (List.mem_cons_of_mem _ hword))
      simpa [wordTokens, Scan.add] using h

end ReadsTokens

/-- The tokens of a whole script. -/
theorem scan?_of_readsTokens {text : Text} {result : Scan} (h : ReadsTokens {} text result) :
    scan? text = some (result.tokens.reverse, result.texts) := by
  rw [scan?, h _ (Nat.lt_succ_self _), Option.bind_eq_bind, Option.bind_some]
  rfl

end AsmInspect.Shell

import AsmInspect.Shell.Script
import AsmInspect.Proofs.Shell.Tokens

/-!
# How the commands of a script are read

A line that starts with a word in which something is quoted or replaced is never taken for the start
of a choice, a loop or a definition: it is a pipeline of simple commands. This module has one lemma
for each function that reads a part of such a line, from the words of a simple command to the lines
of a script, so that the commands of a script of such lines are found line by line.

## Main definitions

* `Shell.NamesProgram`: a word that names a program and is not written out

## Main results

* `Shell.simple?_wordTokens`: the words of a simple command
* `Shell.command?_program`, `Shell.command?_assignment`: the commands that a line can start with
* `Shell.conjunction?_line`: a pipeline that makes up a line
* `Shell.list?_line`, `Shell.list?_last`: a line with others behind it, and the last one
* `Shell.list?_assignment`, `Shell.list?_pipe`: an assignment and a pipeline as such lines
-/

namespace AsmInspect.Shell

/-! ### Simple commands -/

section Simple

variable {texts : Texts} {start line : Nat} {assignments : List (Text × Word)} {words : List Word}
  {redirects : List Redirect} {word : Word} {operator : Text} {tokens : Tokens} {most : Nat}

theorem redirect?_word : redirect? texts ((line, .word word) :: tokens) = none := rfl

theorem redirect?_operator : redirect? texts ((line, .operator operator) :: tokens) = none := rfl

/-- An operator ends a simple command. -/
theorem simple?_operator (h : assignments ≠ [] ∨ words ≠ []) :
    simple? texts (most + 1) start assignments words redirects
        ((line, .operator operator) :: tokens) =
      some (.simple start assignments words redirects, (line, .operator operator) :: tokens) := by
  have hsome : (assignments.isEmpty && words.isEmpty && redirects.isEmpty) = false := by
    rcases h with h | h
    · rw [List.isEmpty_eq_false_iff.mpr h, Bool.false_and, Bool.false_and]
    · rw [List.isEmpty_eq_false_iff.mpr h, Bool.and_false, Bool.false_and]
  unfold simple?
  rw [redirect?_operator]
  dsimp only
  rw [hsome, if_neg Bool.false_ne_true]

/-- Behind a first word no word is an assignment. -/
theorem simple?_word (h : words ≠ [] ∨ assignment? word = none) :
    simple? texts (most + 1) start assignments words redirects ((line, .word word) :: tokens) =
      simple? texts most start assignments (words ++ [word]) redirects tokens := by
  have hnone : (if words.isEmpty then assignment? word else none) = none := by
    rcases h with h | h
    · rw [List.isEmpty_eq_false_iff.mpr h, if_neg Bool.false_ne_true]
    · rw [h, ite_self]
  conv => lhs; unfold simple?
  rw [redirect?_word]
  dsimp only
  rw [hnone]

theorem simple?_assignment {assignment : Text × Word} (h : assignment? word = some assignment) :
    simple? texts (most + 1) start assignments [] redirects ((line, .word word) :: tokens) =
      simple? texts most start (assignments ++ [assignment]) [] redirects tokens := by
  conv => lhs; unfold simple?
  rw [redirect?_word]
  dsimp only
  rw [List.isEmpty_nil, if_pos rfl, h]

/-- The words of a simple command go on to the next operator. -/
theorem simple?_wordTokens (more : List Word) (hwords : words ≠ []) (hmost : more.length < most) :
    simple? texts most start assignments words redirects
        (wordTokens line more ++ (line, .operator operator) :: tokens) =
      some (.simple start assignments (words ++ more) redirects,
        (line, .operator operator) :: tokens) := by
  induction more generalizing words most with
  | nil =>
    cases most with
    | zero => exact absurd hmost (Nat.not_lt_zero _)
    | succ most =>
      rw [List.append_nil]
      exact simple?_operator (Or.inr hwords)
  | cons word more ih =>
    cases most with
    | zero => exact absurd hmost (Nat.not_lt_zero _)
    | succ most =>
      have hsome : words ++ [word] ≠ [] := by simp
      have hnext := ih hsome (Nat.lt_of_succ_lt_succ hmost)
      rw [List.append_assoc, List.singleton_append] at hnext
      rw [← hnext]
      exact simple?_word (Or.inl hwords)

end Simple

/-! ### Commands that start with a word in which something is quoted or replaced -/

section Commands

variable {texts : Texts} {line last : Nat} {word : Word} {operator : Text} {tokens after : Tokens}
  {first command : Command}

/-- Such a word is none of the words that are special where a command starts. -/
theorem compound?_of_plain?_eq_none (hplain : word.plain? = none)
    (htokens : operatorHead? tokens ≠ some ['(']) (most : Nat) :
    compound? texts (most + 1) ((line, .word word) :: tokens) = some none := by
  have hhead : plainHead? ((line, .word word) :: tokens) = none := hplain
  unfold compound?
  split
  case h_1 heq => cases heq
  case h_2 heq =>
    -- in the definition of a function a bracket follows the name
    obtain ⟨-, rfl⟩ := List.cons.inj heq
    exact absurd rfl htokens
  case h_3 =>
    rw [hhead]
    rfl

theorem ends_of_plain?_eq_none (hplain : word.plain? = none) :
    ends ((line, .word word) :: tokens) = false := by
  show (word.plain?).any _ = false
  rw [hplain]
  rfl

theorem skipLines_word : skipLines ((line, .word word) :: tokens) = (line, .word word) :: tokens :=
  rfl

theorem expect?_of_plain?_eq_none (hplain : word.plain? = none) (text : String) :
    expect? text ((line, .word word) :: tokens) = none := by
  have hhead : plainHead? ((line, .word word) :: tokens) = none := hplain
  rw [expect?, hhead]
  rfl

theorem command?_of_plain?_eq_none (hplain : word.plain? = none)
    (htokens : operatorHead? tokens ≠ some ['(']) (most : Nat) :
    command? texts (most + 2) ((line, .word word) :: tokens) =
      simple? texts (tokens.length + 2) line [] [] [] ((line, .word word) :: tokens) := by
  rw [command?, compound?_of_plain?_eq_none hplain htokens]
  rfl

/-- **A word that names a program** and in which something is quoted or replaced: it is no special
word, and it assigns nothing. -/
structure NamesProgram (word : Word) : Prop where
  notPlain : word.plain? = none
  notAssignment : assignment? word = none

/-- A program with its arguments. -/
theorem command?_program (hword : NamesProgram word) (arguments : List Word)
    (hoperator : operator ≠ ['(']) (most : Nat) :
    command? texts (most + 2) ((line, .word word) ::
        (wordTokens line arguments ++ (line, .operator operator) :: tokens)) =
      some (.simple line [] (word :: arguments) [], (line, .operator operator) :: tokens) := by
  have hhead : operatorHead? (wordTokens line arguments ++ (line, .operator operator) :: tokens) ≠
      some ['('] := by
    cases arguments with
    | nil =>
      intro h
      exact hoperator (Option.some.inj h)
    | cons => simp [wordTokens, operatorHead?]
  have hlength : (wordTokens line arguments ++ (line, .operator operator) :: tokens).length =
      arguments.length + (tokens.length + 1) := by
    rw [List.length_append, wordTokens, List.length_map, List.length_cons]
  rw [command?_of_plain?_eq_none hword.notPlain hhead, simple?_word (Or.inr hword.notAssignment),
    simple?_wordTokens arguments (by simp) (by omega)]
  rfl

theorem command?_assignment (hplain : word.plain? = none) {assignment : Text × Word}
    (hword : assignment? word = some assignment) (hoperator : operator ≠ ['(']) (most : Nat) :
    command? texts (most + 2) ((line, .word word) :: (last, .operator operator) :: tokens) =
      some (.simple line [assignment] [] [], (last, .operator operator) :: tokens) := by
  have hhead : operatorHead? ((last, .operator operator) :: tokens) ≠ some ['('] := by
    intro h
    exact hoperator (Option.some.inj h)
  rw [command?_of_plain?_eq_none hplain hhead, simple?_assignment hword,
    simple?_operator (Or.inl (by simp))]
  rfl

/-- A line feed ends a pipeline. -/
theorem pipelineFrom?_newline (most : Nat) :
    pipelineFrom? texts (most + 1) first ((last, .operator ['\n']) :: after) =
      some (first, (last, .operator ['\n']) :: after) := by
  rw [pipelineFrom?]
  rfl

/-- What follows a bar reads what the commands in front of it print. -/
theorem pipelineFrom?_bar {second : Command} {most : Nat}
    (hsecond : command? texts most ((line, .word word) :: tokens) = some (second, after)) :
    pipelineFrom? texts (most + 1) first ((last, .operator ['|']) :: (line, .word word) :: tokens) =
      pipelineFrom? texts most (.pipe first second) after := by
  conv => lhs; unfold pipelineFrom?
  show (command? texts most ((line, .word word) :: tokens)).bind _ = _
  rw [hsecond]
  rfl

/-- A pipeline that makes up a line. -/
theorem conjunction?_line (hplain : word.plain? = none) {middle : Tokens} {most : Nat}
    (hfirst : command? texts (most + 1) ((line, .word word) :: tokens) = some (first, middle))
    (hmore : pipelineFrom? texts (most + 1) first middle =
      some (command, (last, .operator ['\n']) :: after)) :
    conjunction? texts (most + 3) ((line, .word word) :: tokens) =
      some (command, (last, .operator ['\n']) :: after) := by
  have hpipeline : pipeline? texts (most + 2) ((line, .word word) :: tokens) =
      some (command, (last, .operator ['\n']) :: after) := by
    rw [pipeline?, expect?_of_plain?_eq_none hplain]
    show (command? texts (most + 1) _).bind _ = _
    rw [hfirst]
    exact hmore
  rw [conjunction?, hpipeline, Option.bind_eq_bind, Option.bind_some]
  rfl

/-- The last line of a script. -/
theorem list?_last (hplain : word.plain? = none) {most : Nat}
    (hline : conjunction? texts (most + 1) ((line, .word word) :: tokens) =
      some (command, [(last, .operator ['\n'])])) :
    list? texts (most + 2) ((line, .word word) :: tokens) = some (command, []) := by
  rw [list?, skipLines_word, ends_of_plain?_eq_none hplain, if_neg Bool.false_ne_true, hline]
  rfl

/-- A line with others behind it. -/
theorem list?_line (hplain : word.plain? = none) {others : Command} (hothers : others ≠ .nothing)
    {left : Tokens} {most : Nat}
    (hline : conjunction? texts most ((line, .word word) :: tokens) =
      some (command, (last, .operator ['\n']) :: after))
    (hafter : list? texts most after = some (others, left)) :
    list? texts (most + 1) ((line, .word word) :: tokens) =
      some (.sequence command others, left) := by
  rw [list?, skipLines_word, ends_of_plain?_eq_none hplain, if_neg Bool.false_ne_true, hline]
  show (list? texts most after).bind _ = _
  rw [hafter]
  -- nothing behind a line would leave the line alone
  cases others with
  | nothing => exact absurd rfl hothers
  | _ => rfl

/-- Line feeds in front of a list of commands are skipped. -/
theorem list?_newline (most : Nat) :
    list? texts most ((last, .operator ['\n']) :: tokens) = list? texts most tokens := by
  cases most with
  | zero => rfl
  | succ most =>
    have hskip : skipLines ((last, .operator ['\n']) :: tokens) = skipLines tokens := by
      rw [skipLines, if_pos (by decide)]
    rw [list?, list?, hskip]

/-- An assignment that makes up a line, with others behind it. -/
theorem list?_assignment (hplain : word.plain? = none) {assignment : Text × Word}
    (hword : assignment? word = some assignment) {others : Command} (hothers : others ≠ .nothing)
    {left : Tokens} {most : Nat} (hafter : list? texts (most + 4) after = some (others, left)) :
    list? texts (most + 5) ((line, .word word) :: (last, .operator ['\n']) :: after) =
      some (.sequence (.simple line [assignment] [] []) others, left) := by
  have hcommand : command? texts (most + 2)
      ((line, .word word) :: (last, .operator ['\n']) :: after) =
        some (.simple line [assignment] [] [], (last, .operator ['\n']) :: after) :=
    command?_assignment hplain hword (by decide) most
  have hline := conjunction?_line hplain hcommand (pipelineFrom?_newline (most + 1))
  exact list?_line hplain hothers hline hafter

/-- Two programs with a bar between them that make up the last line. -/
theorem list?_pipe {source target : Word} (hsource : NamesProgram source)
    (htarget : NamesProgram target) (given taken : List Word) (most : Nat) :
    list? texts (most + 6)
        ((line, .word source) :: (wordTokens line given ++ (line, .operator ['|']) ::
          (line, .word target) :: (wordTokens line taken ++ [(line, .operator ['\n'])]))) =
      some (.pipe (.simple line [] (source :: given) []) (.simple line [] (target :: taken) []),
        []) := by
  have hsecond : command? texts (most + 2)
      ((line, .word target) :: (wordTokens line taken ++ [(line, .operator ['\n'])])) =
        some (.simple line [] (target :: taken) [], [(line, .operator ['\n'])]) :=
    command?_program htarget taken (by decide) most
  have hfirst (tokens : Tokens) : command? texts (most + 3)
      ((line, .word source) :: (wordTokens line given ++ (line, .operator ['|']) :: tokens)) =
        some (.simple line [] (source :: given) [], (line, .operator ['|']) :: tokens) :=
    command?_program hsource given (by decide) (most + 1)
  have hmore (first : Command) : pipelineFrom? texts (most + 3) first ((line, .operator ['|']) ::
      (line, .word target) :: (wordTokens line taken ++ [(line, .operator ['\n'])])) =
        some (.pipe first (.simple line [] (target :: taken) []), [(line, .operator ['\n'])]) := by
    rw [pipelineFrom?_bar hsecond]
    exact pipelineFrom?_newline (most + 1)
  have hline := conjunction?_line hsource.notPlain (hfirst _) (hmore _)
  exact list?_last hsource.notPlain hline

end Commands

end AsmInspect.Shell

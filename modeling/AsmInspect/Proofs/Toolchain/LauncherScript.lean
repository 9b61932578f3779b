import AsmInspect.Toolchain.Launcher
import AsmInspect.Proofs.Shell.Commands

/-!
# What the shell makes of the launcher

The launcher of the external parser is a text that the shell reads again, with the paths of two
tools in it. Whatever characters the paths have, they are read as the values that are assigned and
as nothing else: a path in single quotes stands for itself up to a single quote in it, and such a
quote is written outside of the quotes, behind a backslash.

## Main definitions

* `Launcher.quoteChar`: a character inside a quoted text
* `Launcher.assigned`, `Launcher.valueWord`: the words in which a value is assigned and used
* `Launcher.tokens`, `Launcher.command`: what the launcher is split into, and the command that it is

## Main results

* `Launcher.ofString_quote`: the spelling of a quoted text is the quoted spelling
* `Launcher.readsWord_quote`: a quoted text is read as the text
* `Launcher.scan?_script`: the tokens of the launcher
* `Launcher.ofText?_script`: the launcher is read as two assignments and a pipeline
-/

namespace AsmInspect.Launcher

open Shell

/-! ### Quoting -/

/-- A character inside a quoted text. -/
def quoteChar (c : Char) : Text := if c = '\'' then ['\'', '\\', '\'', '\''] else [c]

theorem quote_eq_flatMap (text : Text) : quote text = '\'' :: text.flatMap quoteChar ++ ['\''] := by
  rw [quote, Text.replaceAll_singleton]
  rfl

theorem quoteChar_of_ne {c : Char} (h : c ≠ '\'') : quoteChar c = [c] := if_neg h

/-- A single quote is a byte of no other character, so quoting does not mind the spelling. -/
theorem flatMap_spelling_quoteChar (c : Char) :
    (quoteChar c).flatMap spelling = (spelling c).flatMap quoteChar := by
  by_cases hc : c = '\''
  · subst hc
    rfl
  · have hother : ∀ d ∈ spelling c, quoteChar d = [d] := by
      intro d hd
      apply quoteChar_of_ne
      rintro rfl
      exact hc (eq_of_mem_spelling (by decide) hd).symm
    rw [quoteChar_of_ne hc, List.flatMap_singleton, List.flatMap_congr hother,
      List.flatMap_singleton']

theorem ofString_quote (s : String) :
    ofString (String.ofList (quote s.toList)) = quote (ofString s) := by
  have hquote : spelling '\'' = ['\''] := spelling_of_ascii (by decide)
  rw [quote_eq_flatMap, quote_eq_flatMap, ofString_eq_flatMap, ofString_eq_flatMap,
    String.toList_ofList, List.cons_append, List.flatMap_cons, List.flatMap_append,
    List.flatMap_assoc, List.flatMap_assoc, List.flatMap_singleton, hquote]
  simp only [flatMap_spelling_quoteChar]
  rfl

/-- Quoting adds no line feeds. -/
theorem count_newline_quote (text : Text) : (quote text).count '\n' = text.count '\n' := by
  have hchars : (text.flatMap quoteChar).count '\n' = text.count '\n' := by
    induction text with
    | nil => rfl
    | cons c rest ih =>
      rw [List.flatMap_cons, List.count_append, ih]
      by_cases hc : c = '\''
      · subst hc
        rw [List.count_cons_of_ne (by decide)]
        exact Nat.zero_add _
      · rw [quoteChar_of_ne hc, ← List.count_append, List.singleton_append]
  rw [quote_eq_flatMap, List.cons_append, List.count_cons_of_ne (by decide), List.count_append,
    hchars]
  rfl

variable {parts : List Part} {text rest : Text} {word : Word}

/-- Inside the quotes: `inner` has been passed since they were opened. -/
theorem readsWord_flatMap_quoteChar {inner : Text} (hinner : '\'' ∉ inner) (value : Text)
    (h : ReadsWord (push (.literal (inner ++ value) true) parts) text word rest) :
    ReadsWord parts ('\'' :: inner ++ (value.flatMap quoteChar ++ '\'' :: text)) word rest := by
  -- a quote in the value closes the quotes, so what has been passed since then has to be general
  induction value generalizing inner parts with
  | nil =>
    rw [List.append_nil] at h
    exact ReadsWord.single hinner h
  | cons c value ih =>
    by_cases hc : c = '\''
    · -- the quotes end, a quote stands behind a backslash, and new quotes start
      subst hc
      apply ReadsWord.single hinner
      apply ReadsWord.escaped (by decide)
      apply ih List.not_mem_nil
      rwa [push_push, push_push, List.nil_append, List.singleton_append]
    · have hpassed : '\'' ∉ inner ++ [c] := by simp [hinner, Ne.symm hc]
      have hnext : ReadsWord parts
          ('\'' :: (inner ++ [c]) ++ (value.flatMap quoteChar ++ '\'' :: text)) word rest := by
        apply ih hpassed
        rwa [List.append_assoc]
      rw [List.flatMap_cons, quoteChar_of_ne hc]
      simpa using hnext

/-- **A quoted text** is read as the text, whatever characters it has. -/
theorem readsWord_quote (value : Text)
    (h : ReadsWord (push (.literal value true) parts) text word rest) :
    ReadsWord parts (quote value ++ text) word rest := by
  have hquote := readsWord_flatMap_quoteChar List.not_mem_nil value h
  rw [quote_eq_flatMap]
  simpa using hquote

/-! ### Lines of the launcher -/

/-- The word that assigns a value in quotes to a variable. -/
def assigned (name value : Text) : Word := [.literal (name ++ ['=']) false, .literal value true]

theorem assignment?_assigned {name : Text} (hname : isName name = true) (hequals : '=' ∉ name)
    (value : Text) : assignment? (assigned name value) = some (name, [.literal value true]) := by
  have hcut : Text.cutAt? '=' (name ++ ['=']) = some (name, []) := Text.cutAt?_append hequals []
  rw [assigned, assignment?, hcut, Option.bind_eq_bind, Option.bind_some]
  dsimp only
  rw [hname]
  rfl

/-- A line that assigns a quoted value. -/
theorem readsTokens_assigned {name value text : Text} {scan result : Scan}
    (hname : isPlainWord (name ++ ['=']) = true) (hstops : scan.stops = [])
    (h : ReadsTokens ((((scan.add (.word (assigned name value))).pass (value.count '\n')).add
      (.operator ['\n'])).pass 1) text result) :
    ReadsTokens scan (name ++ ['='] ++ quote value ++ '\n' :: text) result := by
  have hne : name ++ ['='] ≠ [] := by simp
  have hlines : (name ++ ['='] ++ quote value).count '\n' = value.count '\n' := by
    rw [List.count_append, count_newline_of_isPlainWord hname, count_newline_quote, Nat.zero_add]
  have hword : ReadsWord [] (name ++ ['='] ++ quote value ++ '\n' :: text) (assigned name value)
      ('\n' :: text) := by
    rw [List.append_assoc (name ++ ['='])]
    apply ReadsWord.plains hne (forall_isPlain_of_isPlainWord hname)
    apply readsWord_quote
    exact ReadsWord.done (by decide) _ text
  have hstart : (name ++ ['='] ++ quote value).head?.any startsWord = true := by
    rw [List.head?_append_of_ne_nil _ hne]
    exact startsWord_of_isPlainWord hname
  apply ReadsTokens.word hstart hword
  rw [hlines]
  exact ReadsTokens.newline hstops h

/-- The value of a parameter in double quotes. -/
def valueWord (name : Text) : Word := [.literal [] true, .parameter name [] [] true]

section Script

variable (objdumper parser : String) (filters : Filters)

/-- The line of the second assignment: a path may go on over many lines. -/
def secondLine : Nat := 2 + (ofString objdumper).count '\n' + 1

/-- The line of the pipeline. -/
def thirdLine : Nat := secondLine objdumper + (ofString parser).count '\n' + 1

/-- The flags of the parser as words. -/
def flagWords : List Word := ((parserFlags filters true).map String.toList).map plainWord

/-- The pipeline: the disassembler with all arguments of the script, and the parser. -/
def pipeline (line : Nat) : Shell.Command :=
  .pipe (.simple line [] [valueWord "OBJDUMP".toList, valueWord ['@']] [])
    (.simple line [] (valueWord "ASMPARSER".toList :: flagWords filters) [])

/-- The command that the launcher is. -/
def command : Shell.Command :=
  .sequence (.simple 2 [("OBJDUMP".toList, [.literal (ofString objdumper) true])] [] [])
    (.sequence
      (.simple (secondLine objdumper) [("ASMPARSER".toList, [.literal (ofString parser) true])] []
        [])
      (pipeline filters (thirdLine objdumper parser)))

/-- The text of the pipeline, with what follows it. -/
def pipelineText : Text :=
  '"' :: '$' :: "OBJDUMP".toList ++ '"' :: ' ' :: ('"' :: '$' :: ['@'] ++ '"' :: ' ' :: '|' ::
    ' ' :: ('"' :: '$' :: "ASMPARSER".toList ++ '"' :: ' ' ::
      (Text.join [' '] ((parserFlags filters true).map String.toList) ++ ['\n'])))

/-- What all flags have in common holds for the flags of any filters. -/
theorem forall_mem_parserFlags {p : String → Bool}
    (h : ["-stdin", "-binary", "-unused_labels", "-directives", "-comment_only", "-whitespace",
      "-library_functions"].all p = true) (fromStdin : Bool) :
    ∀ flag ∈ parserFlags filters fromStdin, p flag = true := by
  intro flag hflag
  obtain ⟨⟨wanted, name⟩, hmem, hname⟩ := List.mem_filterMap.mp hflag
  have heq : name = flag := by
    cases wanted with
    | false => cases hname
    | true => exact Option.some.inj hname
  subst heq
  apply List.all_eq_true.mp h
  exact List.mem_map_of_mem (f := Prod.snd) hmem

theorem ofString_flags :
    ofString (" ".intercalate (parserFlags filters true)) =
      Text.join [' '] ((parserFlags filters true).map String.toList) := by
  have hflags : (parserFlags filters true).map ofString =
      (parserFlags filters true).map String.toList := by
    apply List.map_congr_left
    intro flag hflag
    exact ofString_eq_of_ascii
      (forall_mem_parserFlags filters (p := fun flag => flag.toList.all (·.toNat < 128))
        (by decide) true flag hflag)
  rw [ofString_intercalate, hflags]
  rfl

theorem ofString_script :
    ofString (script objdumper parser filters) =
      '#' :: "!/bin/sh".toList ++ '\n' ::
        ("OBJDUMP".toList ++ ['='] ++ quote (ofString objdumper) ++ '\n' ::
          ("ASMPARSER".toList ++ ['='] ++ quote (ofString parser) ++ '\n' ::
            pipelineText filters)) := by
  have hstart : ofString "#!/bin/sh\nOBJDUMP=" =
      '#' :: "!/bin/sh".toList ++ '\n' :: ("OBJDUMP".toList ++ ['=']) := by decide
  have hnext : ofString "\nASMPARSER=" = '\n' :: ("ASMPARSER".toList ++ ['=']) := by decide
  have hend : ofString "\n" = ['\n'] := by decide
  have hpipe : ofString "\"$OBJDUMP\" \"$@\" | \"$ASMPARSER\" " =
      '"' :: '$' :: "OBJDUMP".toList ++ '"' :: ' ' :: ('"' :: '$' :: ['@'] ++ '"' :: ' ' ::
        '|' :: ' ' :: ('"' :: '$' :: "ASMPARSER".toList ++ ['"', ' '])) := by decide
  unfold script pipelineText
  dsimp only [toString]
  simp only [ofString_append, ofString_quote, ofString_flags, hstart, hnext, hend, hpipe]
  simp

/-- The tokens of the pipeline. -/
def pipelineTokens (line : Nat) : Tokens :=
  (line, .word (valueWord "OBJDUMP".toList)) ::
    (line, .word (valueWord ['@'])) ::
    (line, .operator ['|']) ::
    (line, .word (valueWord "ASMPARSER".toList)) ::
    (wordTokens line (flagWords filters) ++ [(line, .operator ['\n'])])

/-- The tokens of the launcher. -/
def tokens : Tokens :=
  (1, .operator ['\n']) ::
    (2, .word (assigned "OBJDUMP".toList (ofString objdumper))) ::
    (2 + (ofString objdumper).count '\n', .operator ['\n']) ::
    (secondLine objdumper, .word (assigned "ASMPARSER".toList (ofString parser))) ::
    (secondLine objdumper + (ofString parser).count '\n', .operator ['\n']) ::
    pipelineTokens filters (thirdLine objdumper parser)

theorem scan?_script :
    scan? (ofString (script objdumper parser filters)) =
      some (tokens objdumper parser filters, []) := by
  have hflags : ∀ flag ∈ (parserFlags filters true).map String.toList,
      isPlainWord flag = true := by
    intro word hword
    obtain ⟨flag, hflag, rfl⟩ := List.mem_map.mp hword
    exact forall_mem_parserFlags filters (p := fun flag => isPlainWord flag.toList) (by decide) true
      flag hflag
  have hread : ReadsTokens {} (ofString (script objdumper parser filters))
      { tokens := (tokens objdumper parser filters).reverse
        line := thirdLine objdumper parser + 1 } := by
    rw [ofString_script, pipelineText]
    apply ReadsTokens.comment (by decide)
    apply ReadsTokens.newline rfl
    -- the assignments, each with its line feed
    apply readsTokens_assigned (by decide) rfl
    apply readsTokens_assigned (by decide) rfl
    -- the disassembler with all arguments
    apply ReadsTokens.value (by decide) (by decide) (dollar?_name (by decide) (by decide) true _)
    apply ReadsTokens.blank
    apply ReadsTokens.value (by decide) (by decide) (dollar?_special (by decide) true _)
    apply ReadsTokens.blank
    -- the parser with its flags
    apply ReadsTokens.bar
    apply ReadsTokens.blank
    apply ReadsTokens.value (by decide) (by decide) (dollar?_name (by decide) (by decide) true _)
    apply ReadsTokens.blank
    apply ReadsTokens.plainWords hflags
    apply ReadsTokens.newline rfl
    convert ReadsTokens.done _ using 1
    simp [tokens, pipelineTokens, flagWords, secondLine, thirdLine, Scan.add, Scan.pass, valueWord]
  rw [scan?_of_readsTokens hread, List.reverse_reverse]

/-- Each line is a command: the line feeds of a path do not end one, since they are no tokens. -/
theorem list?_tokens (most : Nat) :
    list? [] (most + 16) (tokens objdumper parser filters) =
      some (command objdumper parser filters, []) := by
  have hassigned (name value : Text) : (assigned name value).plain? = none := rfl
  have hprogram (name : Text) : NamesProgram (valueWord name) := ⟨rfl, rfl⟩
  have hobjdumper : assignment? (assigned "OBJDUMP".toList (ofString objdumper)) =
      some ("OBJDUMP".toList, [.literal (ofString objdumper) true]) :=
    assignment?_assigned (by decide) (by decide) _
  have hparser : assignment? (assigned "ASMPARSER".toList (ofString parser)) =
      some ("ASMPARSER".toList, [.literal (ofString parser) true]) :=
    assignment?_assigned (by decide) (by decide) _
  unfold tokens command
  rw [list?_newline]
  apply list?_assignment (hassigned _ _) hobjdumper (by simp)
  apply list?_assignment (hassigned _ _) hparser (by simp [pipeline])
  exact list?_pipe (hprogram _) (hprogram _) [valueWord ['@']] (flagWords filters) _

/-- **The launcher cannot be subverted by the paths of the tools.** Whatever characters they have,
the shell reads a comment and then exactly three commands: the two assignments, each of the path and
nothing else, and a pipeline whose last words are the flags of the parser. -/
theorem ofText?_script :
    (ofString (script objdumper parser filters)).takeWhile (· != '\n') = "#!/bin/sh".toList ∧
      Shell.Command.ofText? (ofString (script objdumper parser filters)) =
        some (command objdumper parser filters) := by
  constructor
  · have hcomment : ('#' :: "!/bin/sh".toList).all (· != '\n') = true := by decide
    rw [ofString_script, List.takeWhile_append_of_pos (List.all_eq_true.mp hcomment),
      List.takeWhile_cons_of_neg (by decide)]
    rfl
  · rw [Shell.Command.ofText?, scan?_script, Option.bind_eq_bind, Option.bind_some]
    dsimp only
    rw [list?_tokens]
    rfl

end Script

end AsmInspect.Launcher

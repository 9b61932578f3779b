import AsmInspect.Proofs.Listing.Demangled
import AsmInspect.Proofs.Tool.Capture

/-!
# Demangler output that is cut off

What a demangler prints is used if it has as many lines as the listing, whether or not all of it has
been kept. Of output that is cut off the lines are those of its beginning, the last of them perhaps
broken, and then the mark on a line of its own. If the cut falls into the line before the last there
are as many lines as before, and the mark is shown in place of the last line of the listing. At any
other place the lines do not add up, and the listing stays as it is.

## Main definitions

* `Listing.keptLines`: the lines that are read from cut-off output

## Main results

* `Listing.length_keptLines`: how many they are
* `Listing.demangled_cutOff`: a listing after a demangler whose output is cut off
* `Listing.cut_off_output_shown`: when the lines of cut-off output are shown
-/

namespace AsmInspect.Listing

variable {listing : Listing} {filters : Filters} {tool : String} {options : ToolOptions}
  {run : ToolResult} {limit : Nat} {chunks : List (List UInt8)}
  {answers : (query : Query) → query.Answer}

/-- **The lines of cut-off output**: those of its beginning, and the mark. -/
def keptLines (limit : Nat) (chunks : List (List UInt8)) : List Text :=
  (Text.splitAt '\n' (Capture.beginning limit chunks)).map Text.dropReturn ++
    ["[Truncated]".toList]

/-- There are two lines more than line feeds in what is kept: the line that has been broken off, and
the mark. -/
theorem length_keptLines :
    (keptLines limit chunks).length = (Capture.beginning limit chunks).count '\n' + 2 := by
  rw [keptLines, List.length_append, List.length_map, Text.length_splitAt, List.length_singleton]

theorem lines_cutOff (h : run.CutOff limit chunks) :
    Text.lines run.stdout.toList = keptLines limit chunks := by
  have hmark : Capture.truncationMark = '\n' :: "[Truncated]".toList := rfl
  have hword : Text.lines "[Truncated]".toList = ["[Truncated]".toList] :=
    Text.lines_of_not_mem (by decide) (by decide)
  rw [h.toList_stdout, hmark, Text.lines_append_newline, hword]
  rfl

/-- **A listing after a demangler whose output is cut off** stays as it is, unless the demangler was
content and the cut falls into the line before the last. -/
theorem demangled_cutOff (h : run.CutOff limit chunks)
    (hplace : ¬(run.success = true ∧
      (Capture.beginning limit chunks).count '\n' + 2 = listing.lines.length)) :
    listing.demangled run = listing := by
  unfold demangled
  split
  case isFalse => rfl
  case isTrue hsuccess =>
    have hlength : (keptLines limit chunks).length ≠ listing.lines.length := by
      rw [length_keptLines]
      exact fun hcount => hplace ⟨hsuccess, hcount⟩
    rw [lines_cutOff h, withTexts?, if_neg hlength]
    rfl

/-- If the cut falls into the line before the last, the lines that have been kept are shown. -/
theorem texts_demangled_cutOff (h : run.CutOff limit chunks) (hsuccess : run.success = true)
    (hcount : (Capture.beginning limit chunks).count '\n' + 2 = listing.lines.length) :
    (listing.demangled run).lines.map (·.text.toList) = keptLines limit chunks := by
  have hlength : (keptLines limit chunks).length = listing.lines.length := by
    rw [length_keptLines, hcount]
  obtain ⟨after, hafter⟩ : ∃ after, listing.withTexts? (keptLines limit chunks) = some after :=
    ⟨_, if_pos hlength⟩
  rw [demangled, if_pos hsuccess, lines_cutOff h, hafter, Option.getD_some]
  exact texts_of_withTexts? hafter

/-- The result when no demangler is asked for, or there is nothing to demangle. -/
theorem evaluate_demangle_idle (h : filters.demangle = false ∨ listing.lines = []) :
    (listing.demangle filters (some tool) options).run.evaluate answers =
      .ok { listing with okToCache := filters.demangle } := by
  have hidle : (filters.demangle && !listing.lines.isEmpty) = false := by
    rcases h with h | h
    · rw [h, Bool.false_and]
    · rw [h, List.isEmpty_nil, Bool.not_true, Bool.and_false]
  unfold demangle
  dsimp only
  rw [hidle]
  rfl

/-- **When the lines of cut-off output are shown**: if the demangler was content and what is kept of
its output has two line feeds less than the listing has lines. Whatever else is kept, the texts of
the listing stay as they were. -/
theorem cut_off_output_shown
    (hanswer : answers (.runTool (listing.demanglerCall tool options)) = .ok run)
    (hrun : run.CutOff options.maxOutput.toNat chunks) :
    let kept := Capture.beginning options.maxOutput.toNat chunks
    let shown := filters.demangle = true ∧ run.success = true ∧
      kept.count '\n' + 2 = listing.lines.length
    let result := (listing.demangle filters (some tool) options).run.evaluate answers
    (¬shown → result = .ok { listing with okToCache := filters.demangle }) ∧
    (shown → ∃ after, result = .ok after ∧ after.lines.map (·.text.toList) =
      (Text.splitAt '\n' kept).map Text.dropReturn ++ ["[Truncated]".toList]) := by
  intro kept shown result
  constructor
  · intro hshown
    by_cases hidle : filters.demangle = false ∨ listing.lines = []
    · exact evaluate_demangle_idle hidle
    · rw [not_or, Bool.not_eq_false] at hidle
      obtain ⟨hdemangle, hne⟩ := hidle
      have hresult : result = .ok ({ listing with okToCache := true }.demangled run) :=
        evaluate_demangle hdemangle hne hanswer
      have hplace : ¬(run.success = true ∧ kept.count '\n' + 2 = listing.lines.length) :=
        fun hplace => hshown ⟨hdemangle, hplace⟩
      rw [hresult, hdemangle]
      exact congrArg Except.ok (demangled_cutOff hrun hplace)
  · rintro ⟨hdemangle, hsuccess, hcount⟩
    have hne : listing.lines ≠ [] := by
      rw [← List.length_pos_iff, ← hcount]
      omega
    have hresult : result = .ok ({ listing with okToCache := true }.demangled run) :=
      evaluate_demangle hdemangle hne hanswer
    exact ⟨_, hresult, texts_demangled_cutOff hrun hsuccess hcount⟩

/-- Two demangled symbols, each on a line. -/
def twoSymbols : List (List UInt8) := [Utf8.encode "f()\ng()\n".toList]

/-- A run that prints two symbols, of which only the first is kept. -/
def printedTwo : ToolResult :=
  { stdout := (Capture.ofChunks 3 twoSymbols).text, truncated := true }

theorem cutOff_printedTwo : printedTwo.CutOff 3 twoSymbols := ⟨rfl, by decide⟩

/-- The answers of a machine on which each tool prints these symbols. -/
def printingTwo : (query : Query) → query.Answer
  | .runTool _ => .ok printedTwo
  | query => Toolchain.quiet [] query

/-- The symbols of three lines stay as they are when the output is cut off in its first line. -/
theorem cut_off_output_shown_not_first_line :
    ((ofText "_Z1fv\n_Z1gv\nret\n" { demangle := true }).demangle { demangle := true }
      (some "c++filt") { stage := .disassembly, maxOutput := 3 }).run.evaluate printingTwo =
        .ok
          { lines := [{ text := "_Z1fv" }, { text := "_Z1gv" }, { text := "ret" }]
            okToCache := true } := by
  obtain ⟨hkept, -⟩ := @cut_off_output_shown (ofText "_Z1fv\n_Z1gv\nret\n" { demangle := true })
    { demangle := true } "c++filt" { stage := .disassembly, maxOutput := 3 } _ _ printingTwo rfl
    cutOff_printedTwo
  rw [hkept (by decide)]
  exact congrArg Except.ok (by decide)

/-- With two lines the mark is shown in place of the second symbol. -/
theorem cut_off_output_replaces_line :
    ¬ ∀ (listing : Listing) (filters : Filters) (tool : String) (options : ToolOptions)
        (answers : (query : Query) → query.Answer) (run : ToolResult) (chunks : List (List UInt8)),
      answers (.runTool (listing.demanglerCall tool options)) = .ok run →
      run.CutOff options.maxOutput.toNat chunks →
      ∃ after, (listing.demangle filters (some tool) options).run.evaluate answers = .ok after ∧
        after.lines.map (·.text.toList) = listing.lines.map (·.text.toList) := by
  intro h
  let listing := { ofText "_Z1fv\n_Z1gv\n" { demangle := true } with okToCache := true }
  obtain ⟨after, hafter, htexts⟩ := h listing { demangle := true } "c++filt"
    { stage := .disassembly, maxOutput := 3 } printingTwo _ _ rfl cutOff_printedTwo
  have hresult := @evaluate_demangle listing { demangle := true } "c++filt"
    { stage := .disassembly, maxOutput := 3 } _ printingTwo rfl (by decide) rfl
  obtain rfl := Except.ok.inj (hresult.symm.trans hafter)
  -- the output is cut off in the line before the last
  have hshown : (listing.demangled printedTwo).lines.map (·.text.toList) =
      keptLines 3 twoSymbols := texts_demangled_cutOff cutOff_printedTwo rfl (by decide)
  exact absurd (htexts.symm.trans hshown) (by decide)

end AsmInspect.Listing

import AsmInspect.Listing.Demangling
import AsmInspect.Proofs.Flow.Sequential
import AsmInspect.Proofs.Listing.Encodings
import AsmInspect.Proofs.Listing.Kept
import AsmInspect.Proofs.Text.Blanks
import AsmInspect.Proofs.Text.Lines
import AsmInspect.Proofs.Toolchain.FanOut

/-!
# The lines that a demangler reaches

The lines of a listing go through the demangler as one text, with line feeds between them and none
behind the last one. What it prints is read as lines again, each of which a line feed ends, so
nothing behind the last line feed is no line. The two ways to count do not agree about a listing
with nothing on its last line: the demangler then seems to have lost a line, and the listing stays
as it is, though each of its lines has been worked on alone.

## Main definitions

* `Text.linewise`: a text with each of its lines changed
* `Listing.mapTexts`: a listing with the text of each line changed
* `Listing.demanglerCall`, `Listing.WorksLinewise`: the run of a demangler that works line by line

## Main results

* `Listing.newline_not_mem_texts`: no line of a listing has a line feed
* `Listing.demangled_linewise`: a listing after a demangler that works line by line
* `Listing.demangle_reaches_lines`: when the demangler reaches every line
-/

namespace AsmInspect

/-- A text with each piece between line feeds changed. -/
def Text.linewise (f : Text → Text) (text : Text) : Text :=
  join ['\n'] ((splitAt '\n' text).map f)

namespace Listing

/-- A line with its text changed. -/
def Line.mapText (f : Text → Text) (line : Line) : Line :=
  { line with text := String.ofList (f line.text.toList) }

/-- The listing with the text of each line changed. -/
def mapTexts (f : Text → Text) (listing : Listing) : Listing :=
  { listing with lines := listing.lines.map (·.mapText f) }

/-- How the demangler is run on a listing. -/
def demanglerCall (listing : Listing) (tool : String) (options : ToolOptions) : ToolCall :=
  { program := tool
    args := []
    options := { options with stage := .disassembly, input := some listing.text } }

/-- **A demangler that has worked line by line** on its input. -/
structure WorksLinewise (d : Text → Text) (input : String) (run : ToolResult) : Prop where
  success : run.success = true
  stdout : run.stdout.toList = Text.linewise d input.toList
  unbroken : ∀ line, '\n' ∉ line → '\n' ∉ d line

variable {listing : Listing} {filters : Filters} {tool : String} {options : ToolOptions}
  {d : Text → Text} {run : ToolResult} {front : List Line} {last : Line}
  {answers : (query : Query) → query.Answer}

/-! ### Line feeds -/

theorem newline_not_mem_readLine {binary : Bool} {raw : Text} (h : '\n' ∉ raw) :
    '\n' ∉ readLine binary raw := by
  cases binary with
  | false => exact h
  | true =>
    intro hmem
    obtain ⟨gap, -, htrim⟩ := Text.exists_trimEnd (dropEncodings raw)
    refine h (mem_of_mem_dropEncodings ?_)
    rw [htrim]
    exact List.mem_append_left _ hmem

theorem newline_not_mem_squash (line : Text) : '\n' ∉ squash line := by
  have hjoin : '\n' ∉ Text.join [' '] (Text.words line) := by
    intro hmem
    rcases Text.mem_join hmem with hmem | ⟨word, hword, hmem⟩
    · exact absurd hmem (by decide)
    · exact absurd ((Text.isWord_of_mem_words hword).noBlank _ hmem) (by decide)
  unfold squash
  dsimp only
  split
  · simpa using hjoin
  · exact hjoin

/-- **No line of a listing has a line feed.** -/
theorem newline_not_mem_texts {text : String} {line : Line}
    (h : line ∈ (ofText text filters).lines) : '\n' ∉ line.text.toList := by
  rw [lines_ofText, List.mem_filterMap] at h
  obtain ⟨number, -, hshown⟩ := h
  obtain ⟨entry, hentry, -, rfl⟩ := shownAt?_eq_some_iff.mp hshown
  obtain ⟨hraw, hline, -⟩ := entry_of_getElem? hentry
  have hunbroken : '\n' ∉ entry.line := by
    rw [hline]
    exact newline_not_mem_readLine (Text.newline_not_mem_of_mem_lines (List.mem_of_getElem? hraw))
  rw [Entry.toLine, String.toList_ofList, Entry.shown]
  split
  · exact newline_not_mem_squash entry.line
  · exact hunbroken

/-! ### What the demangler prints -/

/-- The texts of a listing with new texts. -/
theorem texts_of_withTexts? {texts : List Text} {after : Listing}
    (h : listing.withTexts? texts = some after) : after.lines.map (·.text.toList) = texts := by
  unfold withTexts? at h
  split at h
  case isFalse => cases h
  case isTrue hlength =>
    obtain rfl := Option.some.inj h
    have hsecond := List.map_snd_zip hlength.le
    rw [List.zip, List.map_zipWith] at hsecond
    rw [List.map_zipWith]
    simpa only [String.toList_ofList] using hsecond

/-- The lines that are read from what a demangler prints that works line by line. -/
theorem lines_stdout (hlines : listing.lines = front ++ [last])
    (hunbroken : ∀ line ∈ listing.lines, '\n' ∉ line.text.toList)
    (hrun : WorksLinewise d listing.text run) :
    Text.lines run.stdout.toList =
      (front.map fun line => Text.dropReturn (d line.text.toList)) ++
        if d last.text.toList = [] then [] else [d last.text.toList] := by
  have htexts : listing.text.toList =
      Text.join ['\n'] (listing.lines.map fun line => line.text.toList) := by
    rw [text, Text.toList_intercalate_newline, List.map_map]
    rfl
  have hsplit : Text.splitAt '\n' listing.text.toList =
      listing.lines.map fun line => line.text.toList := by
    rw [htexts]
    refine Text.splitAt_join (by simp [hlines]) fun part hpart => ?_
    obtain ⟨line, hline, rfl⟩ := List.mem_map.mp hpart
    exact hunbroken line hline
  rw [hrun.stdout, Text.linewise, hsplit, hlines, List.map_map, List.map_append, List.map_singleton,
    Text.lines_join, List.map_map]
  · rfl
  · intro part hpart
    have hmem : part ∈ listing.lines.map fun line => d line.text.toList := by
      rw [hlines, List.map_append]
      exact hpart
    obtain ⟨line, hline, rfl⟩ := List.mem_map.mp hmem
    exact hrun.unbroken _ (hunbroken line hline)

/-- **A listing after a demangler that works line by line**: its lines without a carriage return at
the end if there is something on the last one, and else the lines that it had. -/
theorem demangled_linewise (hlines : listing.lines = front ++ [last])
    (hunbroken : ∀ line ∈ listing.lines, '\n' ∉ line.text.toList)
    (hrun : WorksLinewise d listing.text run) :
    listing.demangled run =
      if d last.text.toList = [] then listing
      else { listing with
        lines := (front.map (·.mapText (Text.dropReturn ∘ d))) ++ [last.mapText d] } := by
  have hprinted := lines_stdout hlines hunbroken hrun
  rw [demangled, if_pos hrun.success, hprinted, withTexts?]
  split
  case isTrue hlast =>
    -- one line is missing
    rw [if_neg (by simp [hlines])]
    rfl
  case isFalse hlast =>
    rw [if_pos (by simp [hlines]), Option.getD_some, hlines, List.zipWith_append (by simp),
      List.zipWith_map_right, List.zipWith_self]
    rfl

/-! ### The run of the demangler -/

/-- The result when the demangler has been run. -/
theorem evaluate_demangle (hdemangle : filters.demangle = true) (hne : listing.lines ≠ [])
    (hanswer : answers (.runTool (listing.demanglerCall tool options)) = .ok run) :
    (listing.demangle filters (some tool) options).run.evaluate answers =
      .ok ({ listing with okToCache := true }.demangled run) := by
  have hcall : (Work.runTool tool [] { options with
      stage := .disassembly
      input := some { listing with okToCache := true }.text }).run.evaluate answers = .ok run :=
    hanswer
  unfold demangle
  dsimp only
  rw [hdemangle, if_pos (by simp [hne])]
  exact Flow.evaluate_work_bind_ok hcall

theorem Line.mapText_eq_iff {f g : Text → Text} {line : Line} :
    line.mapText f = line.mapText g ↔ f line.text.toList = g line.text.toList := by
  rw [mapText, mapText, Line.mk.injEq, String.ofList_inj]
  exact and_iff_left rfl

theorem withLines_eq_mapTexts_iff {lines : List Line} :
    { listing with lines } = listing.mapTexts d ↔ lines = listing.lines.map (·.mapText d) :=
  ⟨congrArg Listing.lines, fun h => by rw [h]; rfl⟩

/-- Which listings a change of each text leaves as they are. -/
theorem eq_mapTexts_iff :
    listing = listing.mapTexts d ↔
      ∀ line ∈ listing.lines, d line.text.toList = line.text.toList := by
  have hid : listing.lines.map (·.mapText id) = listing.lines := by simp [Line.mapText]
  have hlines : listing = listing.mapTexts d ↔ listing.lines = listing.lines.map (·.mapText d) :=
    withLines_eq_mapTexts_iff
  have hmap : listing.lines.map (·.mapText d) = listing.lines.map (·.mapText id) ↔
      ∀ line ∈ listing.lines, d line.text.toList = line.text.toList := by
    rw [List.map_eq_map_iff]
    exact forall₂_congr fun line _ => Line.mapText_eq_iff
  rw [hlines, eq_comm, ← hmap, hid]

/-- **When the demangler reaches every line**: a demangler that works line by line does if there is
something on the last line afterwards, and no other line then ends in a carriage return. With
nothing on the last line the listing stays as it is, which is the same only if there was nothing to
change. -/
theorem demangle_reaches_lines {text : String} (hdemangle : filters.demangle = true)
    (hlines : (ofText text filters).lines = front ++ [last])
    (hanswer : answers (.runTool ((ofText text filters).demanglerCall tool options)) = .ok run)
    (hrun : WorksLinewise d (ofText text filters).text run) :
    let listing := { ofText text filters with okToCache := true }
    let result := ((ofText text filters).demangle filters (some tool) options).run.evaluate answers
    (result = .ok (listing.mapTexts d) ↔
      d last.text.toList ≠ [] ∧
          (∀ line ∈ front, (d line.text.toList).getLast? ≠ some '\r') ∨
        d last.text.toList = [] ∧
          ∀ line ∈ front ++ [last], d line.text.toList = line.text.toList) ∧
    (d last.text.toList = [] → result = .ok listing) := by
  intro listing result
  have hresult : result = .ok (listing.demangled run) :=
    evaluate_demangle hdemangle (by simp [hlines]) hanswer
  have hlisting : listing.lines = front ++ [last] := hlines
  have hdemangled := demangled_linewise hlisting (fun line hline => newline_not_mem_texts hline)
    hrun
  rw [hresult, hdemangled, Except.ok.injEq]
  by_cases hlast : d last.text.toList = []
  case pos =>
    rw [if_pos hlast, eq_mapTexts_iff, hlisting]
    simp [hlast]
  case neg =>
    have hkept : ((front.map (·.mapText (Text.dropReturn ∘ d))) ++ [last.mapText d] =
        listing.lines.map (·.mapText d)) ↔
          ∀ line ∈ front, (d line.text.toList).getLast? ≠ some '\r' := by
      rw [hlisting, List.map_append, List.map_singleton, List.append_left_inj,
        List.map_eq_map_iff]
      refine forall₂_congr fun line _ => ?_
      rw [Line.mapText_eq_iff, Function.comp_apply, Text.dropReturn_eq_self_iff]
    rw [if_neg hlast, withLines_eq_mapTexts_iff, hkept]
    simp [hlast]

/-- A demangler that knows one symbol. -/
def demangleOne (line : Text) : Text := if line = "_Z1fv".toList then "f()".toList else line

/-- The answers of a machine on which each tool prints its input with one symbol demangled. -/
def demanglingOne : (query : Query) → query.Answer
  | .runTool call => .ok
    { stdout := String.ofList (Text.linewise demangleOne (call.options.input.getD "").toList) }
  | query => Toolchain.quiet [] query

theorem worksLinewise_demangleOne (input : String) : WorksLinewise demangleOne input
    { stdout := String.ofList (Text.linewise demangleOne input.toList) } where
  success := rfl
  stdout := String.toList_ofList
  unbroken line h := by
    unfold demangleOne
    split
    · decide
    · exact h

/-- A symbol is demangled in front of a blank line and an instruction. -/
theorem demangle_reaches_lines_symbol :
    ((ofText "_Z1fv\n\nret\n" { demangle := true }).demangle { demangle := true }
      (some "c++filt") { stage := .disassembly, maxOutput := 4096 }).run.evaluate demanglingOne =
        .ok
          { lines := [{ text := "f()" }, { text := "" }, { text := "ret" }]
            okToCache := true } := by
  have hlines : (ofText "_Z1fv\n\nret\n" { demangle := true }).lines =
      [{ text := "_Z1fv" }, { text := "" }] ++ [{ text := "ret" }] := by decide
  have hrun := worksLinewise_demangleOne (ofText "_Z1fv\n\nret\n" { demangle := true }).text
  have hanswer : demanglingOne (.runTool
      ((ofText "_Z1fv\n\nret\n" { demangle := true }).demanglerCall "c++filt"
        { stage := .disassembly, maxOutput := 4096 })) = .ok _ := rfl
  obtain ⟨hreached, -⟩ := demangle_reaches_lines rfl hlines hanswer hrun
  rw [hreached.mpr (.inl ⟨by decide, by decide⟩)]
  exact congrArg Except.ok (by decide)

/-- With a blank line at the end a demangler that works line by line does not reach the symbol. -/
theorem demangle_misses_blank_end :
    ¬ ∀ (text : String) (filters : Filters) (tool : String) (options : ToolOptions)
        (answers : (query : Query) → query.Answer) (d : Text → Text) (run : ToolResult),
      filters.demangle = true → (ofText text filters).lines ≠ [] → d [] = [] →
      answers (.runTool ((ofText text filters).demanglerCall tool options)) = .ok run →
      WorksLinewise d (ofText text filters).text run →
      ((ofText text filters).demangle filters (some tool) options).run.evaluate answers =
        .ok ({ ofText text filters with okToCache := true }.mapTexts d) := by
  intro h
  have hlines : { ofText "_Z1fv\n\n" { demangle := true } with okToCache := true }.lines =
      [{ text := "_Z1fv" }] ++ [{ text := "" }] := by decide
  have hrun := worksLinewise_demangleOne (ofText "_Z1fv\n\n" { demangle := true }).text
  have hanswer : demanglingOne (.runTool
      ((ofText "_Z1fv\n\n" { demangle := true }).demanglerCall "c++filt"
        { stage := .disassembly, maxOutput := 4096 })) = .ok _ := rfl
  have hreached := h _ { demangle := true } _ _ _ _ _ rfl (by decide) rfl hanswer hrun
  -- the last line is empty, so the listing stays as it is
  have hkept := demangled_linewise hlines (fun line hline => newline_not_mem_texts hline) hrun
  have hempty : demangleOne "".toList = [] := by decide
  rw [if_pos hempty] at hkept
  have hresult := @evaluate_demangle _ { demangle := true } _ _ _ _ rfl (by decide) hanswer
  have hsame := hkept.symm.trans (Except.ok.inj (hresult.symm.trans hreached))
  exact absurd (congrArg (·.lines.map (·.text)) hsame) (by decide)

end Listing

end AsmInspect

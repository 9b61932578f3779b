import AsmInspect.Proofs.Flow.Yields
import AsmInspect.Proofs.Listing.Demangled

/-!
# Demangled altogether or not at all

A demangler gets a whole listing and prints a whole listing, so its lines can be shown only if there
is one for each line of the listing; with one line more or less they would stand beside the source
positions of other lines. Nothing in between is shown: either all texts are those of the demangler,
or all are as they were. Whatever the demangler prints, no position, no label and no time changes.

## Main definitions

* `Listing.Retexted`: a listing with nothing but the texts of its lines changed

## Main results

* `Listing.demangled_cases`: a listing after a demangler has run
* `Listing.demangle_run_idle`, `Listing.demangle_run_tool`: when a demangler is run
* `Listing.demangled_all_or_nothing`: how the demangling of a listing may go
-/

namespace AsmInspect.Listing

open AsmInspect.Flow

/-- **A listing with nothing but the texts of its lines changed**, and whether it may be kept. -/
structure Retexted (listing after : Listing) : Prop where
  length_eq : after.lines.length = listing.lines.length
  sources_eq : after.lines.map (·.source) = listing.lines.map (·.source)
  labelDefinitions_eq : after.labelDefinitions = listing.labelDefinitions
  objdumpTimeMs_eq : after.objdumpTimeMs = listing.objdumpTimeMs

variable {listing after : Listing} {filters : Filters} {demangler : Option String}
  {options : ToolOptions} {run : ToolResult} {texts : List Text} {events : List Event}
  {result : Except Failure Listing}

/-! ### After the demangler -/

/-- New texts for the lines of a listing change nothing else. -/
theorem retexted_of_withTexts? (h : listing.withTexts? texts = some after) :
    Retexted listing after ∧ after.okToCache = listing.okToCache := by
  unfold withTexts? at h
  split at h
  case isFalse => cases h
  case isTrue hlength =>
    obtain rfl := Option.some.inj h
    refine ⟨⟨?_, ?_, rfl, rfl⟩, rfl⟩
    · rw [List.length_zipWith, hlength, Nat.min_self]
    · -- the source of a line stays beside its text
      have hfirst := List.map_fst_zip hlength.ge
      have hsources := congrArg (List.map Line.source) hfirst
      rw [List.zip, List.map_zipWith, List.map_zipWith] at hsources
      rw [List.map_zipWith]
      exact hsources

/-- **A listing after a demangler has run**: with the lines that have been printed, if the demangler
was content and there is one for each line of the listing, and else as it was. -/
theorem demangled_cases (listing : Listing) (run : ToolResult) :
    (run.success = true ∧ (Text.lines run.stdout.toList).length = listing.lines.length ∧
      Retexted listing (listing.demangled run) ∧
      (listing.demangled run).okToCache = listing.okToCache ∧
      (listing.demangled run).lines.map (·.text.toList) = Text.lines run.stdout.toList) ∨
    (¬(run.success = true ∧ (Text.lines run.stdout.toList).length = listing.lines.length) ∧
      listing.demangled run = listing) := by
  by_cases hsuccess : run.success = true
  case neg =>
    refine .inr ⟨fun h => hsuccess h.1, ?_⟩
    rw [demangled, if_neg hsuccess]
  case pos =>
    rw [demangled, if_pos hsuccess]
    by_cases hlength : (Text.lines run.stdout.toList).length = listing.lines.length
    case neg =>
      refine .inr ⟨fun h => hlength h.2, ?_⟩
      rw [withTexts?, if_neg hlength]
      rfl
    case pos =>
      obtain ⟨after, hafter⟩ :
          ∃ after, listing.withTexts? (Text.lines run.stdout.toList) = some after :=
        ⟨_, if_pos hlength⟩
      obtain ⟨hretexted, hcache⟩ := retexted_of_withTexts? hafter
      rw [hafter, Option.getD_some]
      exact .inl ⟨hsuccess, hlength, hretexted, hcache, texts_of_withTexts? hafter⟩

/-! ### The run of the demangler -/

/-- Nothing is run if it is not asked for, if there is no demangler, or nothing to demangle. -/
theorem demangle_run_idle
    (h : filters.demangle = false ∨ demangler = none ∨ listing.lines = []) :
    (listing.demangle filters demangler options).run =
      .done (.ok { listing with okToCache := filters.demangle }) := by
  unfold demangle
  dsimp only
  split
  case h_1 => rfl
  case h_2 tool =>
    have hidle : (filters.demangle && !listing.lines.isEmpty) = false := by
      rcases h with h | h | h
      · rw [h, Bool.false_and]
      · cases h
      · rw [h, List.isEmpty_nil, Bool.not_true, Bool.and_false]
    rw [hidle]
    rfl

/-- Otherwise the demangler is run once, and its answer is all there is to wait for. -/
theorem demangle_run_tool (hdemangle : filters.demangle = true) (hne : listing.lines ≠ [])
    (tool : String) :
    (listing.demangle filters (some tool) options).run =
      .ask (.runTool (listing.demanglerCall tool options)) fun answer =>
        .done (answer.map { listing with okToCache := true }.demangled) := by
  have hwanted : (filters.demangle && !listing.lines.isEmpty) = true := by simp [hdemangle, hne]
  unfold demangle
  dsimp only
  rw [if_pos hwanted, hdemangle]
  refine congrArg (Flow.ask _) (funext fun answer => ?_)
  cases answer <;> rfl

/-- **How the demangling of a listing may go.** Unless it is asked for, there is a demangler, and
the listing has lines, nothing happens. Otherwise the demangler is run once, for the stage of
disassembly, and the demangling fails just if that run does. Nothing but the texts of the lines
changes: if the demangler has exited with zero and printed as many lines as the listing has, they
are all shown, and else all texts are as they were. -/
theorem demangled_all_or_nothing
    (hrun : Run (listing.demangle filters demangler options).run events (.done result)) :
    ((filters.demangle = false ∨ demangler = none ∨ listing.lines = []) ∧ events = [] ∧
      result = .ok { listing with okToCache := filters.demangle }) ∨
    ∃ tool call answer, filters.demangle = true ∧ demangler = some tool ∧ listing.lines ≠ [] ∧
      call.program = tool ∧ call.options.stage = .disassembly ∧
      events = [([], .answered (.runTool call) answer)] ∧
      (∀ failure, answer = .error failure → result = .error failure) ∧
      ∀ run, answer = .ok run → ∃ after, result = .ok after ∧ Retexted listing after ∧
        after.okToCache = filters.demangle ∧
        after.lines.map (·.text.toList) =
          if run.code = 0 ∧ (Text.lines run.stdout.toList).length = listing.lines.length then
            Text.lines run.stdout.toList
          else listing.lines.map (·.text.toList) := by
  by_cases hidle : filters.demangle = false ∨ demangler = none ∨ listing.lines = []
  case pos =>
    rw [demangle_run_idle hidle] at hrun
    obtain ⟨hevents, hresult⟩ := hrun.of_done
    exact .inl ⟨hidle, hevents, Flow.done.inj hresult⟩
  case neg =>
    simp only [not_or, Bool.not_eq_false] at hidle
    obtain ⟨hdemangle, hsome, hne⟩ := hidle
    obtain ⟨tool, rfl⟩ := Option.ne_none_iff_exists'.mp hsome
    rw [demangle_run_tool hdemangle hne] at hrun
    obtain ⟨answer, later, rfl, hlater⟩ := hrun.of_ask
    obtain ⟨rfl, hdone⟩ := hlater.of_done
    have hresult := Flow.done.inj hdone
    refine .inr ⟨tool, listing.demanglerCall tool options, answer, hdemangle, rfl, hne, rfl, rfl,
      rfl, ?_, ?_⟩
    · rintro failure rfl
      exact hresult
    · rintro run rfl
      refine ⟨_, hresult, ?_⟩
      rw [hdemangle]
      rcases demangled_cases { listing with okToCache := true } run with
        ⟨hsuccess, hlength, hretexted, hcache, htexts⟩ | ⟨hkept, hsame⟩
      · rw [if_pos ⟨by simpa [ToolResult.success] using hsuccess, hlength⟩]
        obtain ⟨hlines, hsources, hlabels, htime⟩ := hretexted
        exact ⟨⟨hlines, hsources, hlabels, htime⟩, hcache, htexts⟩
      · rw [hsame, if_neg fun h => hkept ⟨by simpa [ToolResult.success] using h.1, h.2⟩]
        exact ⟨⟨rfl, rfl, rfl, rfl⟩, rfl, rfl⟩

/-- Two lines, of which the first comes from somewhere. -/
def twoLines : Listing :=
  { lines := [{ text := "_Z1fv", source := some { file := none, line := 3 } }, { text := "ret" }] }

/-- A demangler that prints two lines changes two lines, and not where they come from. -/
theorem demangled_all_or_nothing_two_lines :
    let options : ToolOptions := { stage := .primaryCompile, maxOutput := 4096 }
    ∃ events after,
      Run (twoLines.demangle { demangle := true } (some "c++filt") options).run events
        (.done (.ok after)) ∧
      after.lines.map (·.source) = [some { file := none, line := 3 }, none] ∧
      after.lines.map (·.text.toList) = ["f()".toList, "ret".toList] := by
  intro options
  have hrun : Run (twoLines.demangle { demangle := true } (some "c++filt") options).run
      [([], .answered (.runTool (twoLines.demanglerCall "c++filt" options))
        (.ok { stdout := "f()\nret\n" }))]
      (.done (.ok ({ twoLines with okToCache := true }.demangled { stdout := "f()\nret\n" }))) :=
    .single (.answer (.runTool _) _ _)
  rcases demangled_all_or_nothing hrun with ⟨-, hnone, -⟩ |
      ⟨tool, call, answer, -, -, -, -, -, hevents, -, hok⟩
  · cases hnone
  · obtain ⟨-, rfl⟩ : twoLines.demanglerCall "c++filt" options = call ∧
        .ok { stdout := "f()\nret\n" } = answer := by simpa using hevents
    obtain ⟨after, hresult, hretexted, -, htexts⟩ := hok _ rfl
    obtain rfl := Except.ok.inj hresult
    exact ⟨_, _, hrun, hretexted.sources_eq, htexts.trans (by decide)⟩

end AsmInspect.Listing

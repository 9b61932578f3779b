import AsmInspect.Proofs.Machine.Answers
import AsmInspect.Proofs.Toolchain.Registry

/-!
# What a job comes to

A job that has ended has either been refused its directory or its source, or its compiler has been
run and the rest depends on that. A compiler that rejects the source is followed by nothing but the
clock and the states of the job, so there is no way for such a job to fail. If the compiler accepts
the source, the job comes to what its two branches come to.

## Main definitions

* `rejectedEnd`: what happens after a compiler has rejected the source

## Main results

* `opening_or_refused`: how a job comes to its end
* `opening_of_primary`: the one run of the compiler
* `rejected_run_iff`, `run_of_rejected`: a job whose compiler rejects the source
* `branches_of_accepted`: a job whose compiler accepts the source
* `shown_of_answered`: what a result shows of the compiler's run
* `compilationOptions_of_answered`: the command line that a result shows
* `Driver.opening_of_answers`: how a request is answered in time
-/

namespace AsmInspect

open AsmInspect.Flow

namespace Flow

theorem toolRuns_append (events more : List Event) :
    toolRuns (events ++ more) = toolRuns events ++ toolRuns more := List.filterMap_append

theorem Told.of_before {before later : List Event} {query : Query} {answer : query.Answer}
    (h : Told before query answer) : Told (before ++ later) query answer := by
  obtain ⟨position, hmem⟩ := h
  exact ⟨position, List.mem_append_left _ hmem⟩

theorem Told.of_later {before later : List Event} {query : Query} {answer : query.Answer}
    (h : Told later query answer) : Told (before ++ later) query answer := by
  obtain ⟨position, hmem⟩ := h
  exact ⟨position, List.mem_append_right _ hmem⟩

end Flow

/-- A tool is content exactly if its exit code says so. -/
theorem ToolResult.success_iff {run : ToolResult} : run.success = true ↔ run.code = 0 := by
  simp [success]

namespace Toolchain

variable {toolchain : Toolchain} {request : BuildRequest} {events : List Event}
  {result : Except Failure CompilationResult}

/-- **How a job comes to its end**: its compiler has been run and the rest followed, or its
directory or its source could not be written. -/
theorem opening_or_refused (hrun : Run (toolchain.compileJob request).run events (.done result)) :
    (∃ started jobDir answer later,
      events = toolchain.opening request started jobDir answer ++ later ∧
        Run (toolchain.answered request started jobDir answer) later (.done result)) ∨
    ∃ failure, result = .error failure ∧
      ((∃ cause, Told events (.jobDirectory toolchain.sandbox.root) (.error cause)) ∨
        ∃ path cause, Told events (.writeText path request.source false) (.error cause)) :=
  (opening_or_idle hrun).imp_right fun h => h.2 result rfl

variable (toolchain request) in
/-- The directory of a job and the end of its compiler's run are told. -/
theorem told_opening (started : UInt64) (jobDir : String) (answer : Except Failure ToolResult)
    (later : List Event) :
    Told (toolchain.opening request started jobDir answer ++ later)
        (.jobDirectory toolchain.sandbox.root) (.ok jobDir) ∧
      Told (toolchain.opening request started jobDir answer ++ later)
        (.runTool (toolchain.primaryCall request jobDir)) answer := by
  constructor <;> exact ⟨[], List.mem_append_left _ (by simp [opening])⟩

theorem toolRuns_opening (started : UInt64) (jobDir : String)
    (answer : Except Failure ToolResult) :
    toolRuns (toolchain.opening request started jobDir answer) =
      [toolchain.primaryCall request jobDir] := rfl

/-! ### The run of the compiler -/

variable (toolchain request) in
/-- After its compiler has been run, a job does not run it again. -/
theorem answered_throughout (started : UInt64) (jobDir : String)
    (answer : Except Failure ToolResult) :
    (toolchain.answered request started jobDir answer).Throughout (·.isPrimary = false)
      fun _ _ => True := by
  have hgiveUp (failure : Failure) : (giveUp failure : Flow (Except Failure CompilationResult)
      ).Throughout (·.isPrimary = false) fun _ _ => True := ⟨rfl, fun _ => trivial⟩
  cases answer with
  | error failure => exact hgiveUp failure
  | ok run =>
    by_cases hsuccess : run.success = true
    case neg =>
      rw [answered_of_not_success _ _ hsuccess]
      exact ⟨rfl, fun _ => ⟨rfl, fun _ => ⟨rfl, fun _ => trivial⟩⟩⟩
    case pos =>
      rw [answered_of_success _ _ hsuccess]
      have hhost : (toolchain.hostBranch request (toolchain.compiledIn request jobDir run)
          ).Throughout (·.isPrimary = false) fun _ _ => True :=
        hostBranch_throughout toolchain request (fun _ => Query.isPrimary_of_isSideWork) _
      have hdevices : (toolchain.deviceBranch request (toolchain.compiledIn request jobDir run)
          ).Throughout (·.isPrimary = false) fun _ _ => True :=
        deviceBranch_throughout toolchain request (fun _ => Query.isPrimary_of_isSideWork)
          (fun _ => rfl) (fun _ => trivial) _
      refine ⟨rfl, fun _ => ⟨rfl, fun _ => ⟨rfl, fun collecting => ⟨hhost, hdevices, ?_⟩⟩⟩⟩
      -- the branches have ended, with or without a failure
      rintro ⟨host | host, devices | devices⟩
      · exact hgiveUp _
      · exact hgiveUp _
      · exact hgiveUp _
      · exact ⟨rfl, fun _ => ⟨rfl, fun _ => trivial⟩⟩

/-- **The run of the compiler** is the one at the end of the opening, and there is no other. -/
theorem opening_of_primary {flow : Flow (Except Failure CompilationResult)}
    (hrun : Run (toolchain.compileJob request).run events flow) {call : ToolCall}
    (hprimary : call.options.stage = .primaryCompile) {answer : Except Failure ToolResult}
    (htold : Told events (.runTool call) answer) :
    ∃ started jobDir later, call = toolchain.primaryCall request jobDir ∧
      events = toolchain.opening request started jobDir answer ++ later ∧
      Run (toolchain.answered request started jobDir answer) later flow := by
  obtain ⟨position, hmem⟩ := htold
  rcases opening_or_idle hrun with ⟨started, jobDir, first, later, rfl, hlater⟩ | ⟨hidle, -⟩
  · rcases List.mem_append.mp hmem with hopening | hrest
    · simp only [opening, List.mem_cons, Prod.mk.injEq, Act.answered.injEq, reduceCtorEq,
        Query.runTool.injEq, false_and, and_false, false_or, List.not_mem_nil, or_false] at hopening
      obtain ⟨-, rfl, hanswer⟩ := hopening
      obtain rfl := eq_of_heq hanswer
      exact ⟨started, jobDir, later, rfl, rfl, hlater⟩
    · -- what follows the opening asks for other tools only
      have hthroughout := answered_throughout toolchain request started jobDir first
      have hother := hthroughout.answered_run stable_true hlater hrest
      simp [Query.isPrimary, hprimary] at hother
  · have hruns : call ∈ toolRuns events := List.mem_filterMap.mpr ⟨_, hmem, rfl⟩
    rw [hidle] at hruns
    cases hruns

/-! ### Compilers that reject the source -/

theorem answered_of_code_ne {run : ToolResult} (hcode : run.code ≠ 0) (started : UInt64)
    (jobDir : String) : toolchain.answered request started jobDir (.ok run) =
      toolchain.rejected request started jobDir run :=
  answered_of_not_success _ _ (fun h => hcode (ToolResult.success_iff.mp h)) started jobDir

/-- What happens in a job after its compiler has rejected the source. -/
def rejectedEnd (finished : UInt64) : List Event :=
  [([], .answered (.enter .compileFailed) ()), ([], .answered .clock finished),
    ([], .answered (.enter .done) ())]

/-- **After a compiler has rejected the source**, nothing can fail any more. -/
theorem rejected_run_iff {started : UInt64} {jobDir : String} {run : ToolResult} :
    Run (toolchain.rejected request started jobDir run) events (.done result) ↔
      ∃ finished, events = rejectedEnd finished ∧
        result = .ok (toolchain.rejection request jobDir run (finished - started)) := by
  constructor
  · intro hrun
    obtain ⟨_, _, rfl, hfailed⟩ := hrun.of_ask
    obtain ⟨finished, _, rfl, hfinished⟩ := hfailed.of_ask
    obtain ⟨_, _, rfl, hdone⟩ := hfinished.of_ask
    obtain ⟨rfl, hended⟩ := hdone.of_done
    exact ⟨finished, rfl, Flow.done.inj hended⟩
  · rintro ⟨finished, rfl, rfl⟩
    refine .step (.answer (.enter .compileFailed) _ ()) ?_
    refine .step (.answer .clock _ finished) ?_
    exact .step (.answer (.enter .done) _ ()) (.refl _)

/-- A job whose compiler has rejected the source can always end. -/
theorem run_of_rejected {run : ToolResult} (hcode : run.code ≠ 0) (started : UInt64)
    (jobDir : String) (finished : UInt64) :
    Run (toolchain.compileJob request).run
      (toolchain.opening request started jobDir (.ok run) ++ rejectedEnd finished)
      (.done (.ok (toolchain.rejection request jobDir run (finished - started)))) := by
  refine (toolchain.opening_run request started jobDir (.ok run)).append ?_
  rw [answered_of_code_ne hcode]
  exact rejected_run_iff.mpr ⟨finished, rfl, rfl⟩

/-! ### Compilers that accept the source -/

/-- **A job whose compiler accepts the source** comes to what its branches come to. -/
theorem branches_of_accepted {started : UInt64} {jobDir : String} {run : ToolResult}
    (hrun : Run (toolchain.accepted request started jobDir run) events (.done result)) :
    ∃ host devices,
      (toolchain.hostBranch request (toolchain.compiledIn request jobDir run)).Yields (Told events)
        host ∧
      (toolchain.deviceBranch request (toolchain.compiledIn request jobDir run)).Yields
        (Told events) devices ∧
      ((∃ failure, joined (host, devices) = .error failure ∧ result = .error failure) ∨
        ∃ output listings postProcessMs totalMs, host = .ok output ∧ devices = .ok listings ∧
          result = .ok
            (toolchain.collection request jobDir run output listings postProcessMs totalMs)) := by
  obtain ⟨_, -, _, -, collecting, -, host, devices, hhost, hdevices, h⟩ := hrun.yields
  refine ⟨host, devices, hhost, hdevices, ?_⟩
  cases host with
  | error failure =>
    obtain ⟨_, -, h⟩ := h
    exact .inl ⟨failure, rfl, h⟩
  | ok output =>
    cases devices with
    | error failure =>
      obtain ⟨_, -, h⟩ := h
      exact .inl ⟨failure, rfl, h⟩
    | ok listings =>
      obtain ⟨finished, -, _, -, h⟩ := h
      exact .inr ⟨output, listings, _, _, rfl, rfl, h⟩

/-- **A result shows the run of the compiler**, whatever came of it: its code, what it printed, and
the command line. -/
theorem shown_of_answered {started : UInt64} {jobDir : String}
    {answer : Except Failure ToolResult} {shown : CompilationResult}
    (hrun : Run (toolchain.answered request started jobDir answer) events (.done (.ok shown))) :
    ∃ run, answer = .ok run ∧ shown.code = run.code ∧
      shown.stdout = toolchain.sandbox.maskText run.stdout ∧
      shown.stderr = toolchain.sandbox.maskText run.stderr ∧
      shown.compilationOptions =
        (toolchain.commandLine request jobDir).map toolchain.sandbox.maskPath := by
  cases answer with
  | error failure =>
    obtain ⟨_, -, h⟩ := hrun.yields
    cases h
  | ok run =>
    refine ⟨run, rfl, ?_⟩
    by_cases hcode : run.code = 0
    case pos =>
      rw [answered_of_success _ _ (ToolResult.success_iff.mpr hcode)] at hrun
      obtain ⟨_, _, -, -, ⟨_, -, he⟩ | ⟨_, _, _, _, -, -, he⟩⟩ := branches_of_accepted hrun
      · cases he
      · obtain rfl := Except.ok.inj he
        exact ⟨rfl, rfl, rfl, rfl⟩
    case neg =>
      rw [answered_of_code_ne hcode] at hrun
      obtain ⟨finished, -, he⟩ := rejected_run_iff.mp hrun
      obtain rfl := Except.ok.inj he
      exact ⟨rfl, rfl, rfl, rfl⟩

/-- **A result shows the command line** that the compiler was called with, whatever it said. -/
theorem compilationOptions_of_answered {started : UInt64} {jobDir : String}
    {answer : Except Failure ToolResult} {shown : CompilationResult}
    (hrun : Run (toolchain.answered request started jobDir answer) events (.done (.ok shown))) :
    shown.compilationOptions =
      (toolchain.commandLine request jobDir).map toolchain.sandbox.maskPath := by
  obtain ⟨_, -, -, -, -, hcommand⟩ := shown_of_answered hrun
  exact hcommand

end Toolchain

/-! ### Requests -/

namespace Driver

/-- **How a request is answered in time**: if its directory and its source can be written, its
compiler has been run, and the rest followed. -/
theorem opening_of_answers {config : Config} {driver : Driver} {request : BuildRequest}
    {events : List Event} {result : Except Failure CompilationResult}
    (hdriver : Driver.ofConfig config = .ok driver)
    (hconfigured : ∃ compiler ∈ config.compilers, compiler.id = request.compilerId)
    (hanswer : driver.Answers request events result)
    (hintime : result ≠ .error (.cancelled config.limits.jobTimeoutMs))
    (hdirectory : ∀ answer, Told events (.jobDirectory config.sandbox.root) answer →
      ∃ jobDir, answer = .ok jobDir)
    (hsource : ∀ path answer, Told events (.writeText path request.source false) answer →
      answer = .ok ()) :
    ∃ toolchain started jobDir answer later,
      driver.registry.find request.compilerId = .ok toolchain ∧
      toolchain.compiler ∈ config.compilers ∧ toolchain.sandbox = config.sandbox ∧
      events = toolchain.opening request started jobDir answer ++ later ∧
      Run (toolchain.answered request started jobDir answer) later (.done result) := by
  obtain ⟨hconfig, hregistry⟩ := of_ofConfig hdriver
  obtain ⟨toolchain, hfound⟩ := Registry.find_of_mem hregistry hconfigured
  obtain ⟨hmem, -, -, hsandbox⟩ := of_find hdriver hfound
  cases hanswer with
  | refused hunknown => cases hfound.symm.trans hunknown
  | overdue _ _ _ => exact absurd (by rw [hconfig]) hintime
  | ended hown hrun =>
    obtain rfl := Except.ok.inj (hfound.symm.trans hown)
    rcases Toolchain.opening_or_refused hrun with ⟨started, jobDir, answer, later, rfl, hlater⟩ |
      ⟨-, -, ⟨cause, hrefused⟩ | ⟨path, cause, hrefused⟩⟩
    · exact ⟨toolchain, started, jobDir, answer, later, hfound, hmem, hsandbox, rfl, hlater⟩
    -- a directory or a source that is refused is not given
    · rw [hsandbox] at hrefused
      obtain ⟨jobDir, he⟩ := hdirectory _ hrefused
      cases he
    · cases hsource _ _ hrefused

/-! ### A configuration with one compiler -/

/-- A configuration with one compiler for the host. -/
def hostConfig : Config :=
  { sandbox := { root := "/srv/jobs", maskRoot := some "/app" }
    compilers := [{ id := "gcc", kind := .generic, exe := "g++" }] }

/-- The toolchain of its compiler. -/
def hostToolchain : Toolchain :=
  { compiler := { id := "gcc", kind := .generic, exe := "g++" }, sandbox := hostConfig.sandbox }

/-- The driver of the configuration. -/
def hostDriver : Driver :=
  { config := hostConfig, registry := { toolchains := Dict.ofList [("gcc", hostToolchain)] } }

end Driver

end AsmInspect

import AsmInspect.Proofs.Job.Results

/-!
# Sources that the compiler rejects

A source that the compiler rejects is no failure of the job. The job ends there, with a result that
says what the compiler said and shows nothing else: no other tool is run, and whatever the compiler
has left in the directory is not looked at. A result says that the compiler was content exactly if
it was.

## Main definitions

* `CompilationResult.IsRejection`: a result that says what the compiler said, and nothing else

## Main results

* `Toolchain.isRejection_rejection`: the result of a job whose compiler rejects the source
* `Driver.rejected_source_ends_job`: a source that the compiler rejects is a result and ends the job
-/

namespace AsmInspect

open AsmInspect.Flow

/-- A result that says what the compiler said, as users may see it, and shows nothing else. -/
structure CompilationResult.IsRejection (sandbox : Sandbox) (run : ToolResult)
    (shown : CompilationResult) : Prop where
  code : shown.code = run.code
  stdout : shown.stdout = sandbox.maskText run.stdout
  stderr : shown.stderr = sandbox.maskText run.stderr
  asm : shown.asm = .text "<Compilation failed>"
  remarks : shown.optOutput = []
  devices : shown.devices = {}
  objdumpMs : shown.timings.objdumpMs = none

namespace Toolchain

variable {toolchain : Toolchain} {request : BuildRequest} {started : UInt64} {jobDir : String}
  {run : ToolResult} {later : List Event} {result : Except Failure CompilationResult}

theorem isRejection_rejection (totalMs : UInt64) :
    (toolchain.rejection request jobDir run totalMs).IsRejection toolchain.sandbox run :=
  ⟨rfl, rfl, rfl, rfl, rfl, rfl, rfl⟩

/-- What follows a compiler that has rejected the source. -/
theorem of_answered_rejected (hcode : run.code ≠ 0)
    (hlater : Run (toolchain.answered request started jobDir (.ok run)) later (.done result)) :
    toolRuns later = [] ∧ ∃ shown, result = .ok shown ∧
      shown.IsRejection toolchain.sandbox run := by
  rw [answered_of_code_ne hcode] at hlater
  obtain ⟨finished, rfl, rfl⟩ := rejected_run_iff.mp hlater
  exact ⟨rfl, _, rfl, isRejection_rejection _⟩

/-- What follows a compiler that has accepted the source says so. -/
theorem code_of_answered_accepted (hcode : run.code = 0) {shown : CompilationResult}
    (hlater : Run (toolchain.answered request started jobDir (.ok run)) later
      (.done (.ok shown))) : shown.code = 0 := by
  obtain ⟨accepted, he, hshown, -⟩ := shown_of_answered hlater
  obtain rfl := Except.ok.inj he
  exact hshown.trans hcode

end Toolchain

namespace Driver

/-- **A source that the compiler rejects is a result and ends the job.** A request to a configured
compiler, whose directory and source can be written and whose compiler can be run, comes to the end
of the compiler's run unless it is overdue. If the compiler has exited with another code than zero,
the request is answered with a result that says what the compiler said and shows nothing else, and
no other tool has been run; and whenever it exits so, the job can end. If it has exited with zero,
so does every result. -/
theorem rejected_source_ends_job (config : Config) (driver : Driver) (request : BuildRequest)
    (events : List Event) (result : Except Failure CompilationResult)
    (hdriver : Driver.ofConfig config = .ok driver)
    (hconfigured : ∃ compiler ∈ config.compilers, compiler.id = request.compilerId)
    (hanswer : driver.Answers request events result)
    (hintime : result ≠ .error (.cancelled config.limits.jobTimeoutMs))
    (hdirectory : ∀ answer, Told events (.jobDirectory config.sandbox.root) answer →
      ∃ jobDir, answer = .ok jobDir)
    (hsource : ∀ path answer, Told events (.writeText path request.source false) answer →
      answer = .ok ())
    (hcompiler : ∀ call answer, call.options.stage = .primaryCompile →
      Told events (.runTool call) answer → ∃ run, answer = .ok run) :
    ∃ toolchain, driver.registry.find request.compilerId = .ok toolchain ∧
      toolchain.compiler ∈ config.compilers ∧
      (∃ jobDir run, Told events (.runTool (toolchain.primaryCall request jobDir)) (.ok run) ∧
        (run.code ≠ 0 → (∃ shown, result = .ok shown ∧ shown.IsRejection config.sandbox run) ∧
          toolRuns events = [toolchain.primaryCall request jobDir]) ∧
        (run.code = 0 → ∀ shown, result = .ok shown → shown.code = 0)) ∧
      ∀ started jobDir run, run.code ≠ 0 → ∃ later shown,
        driver.Answers request (toolchain.opening request started jobDir (.ok run) ++ later)
          (.ok shown) ∧ shown.IsRejection config.sandbox run := by
  obtain ⟨toolchain, started, jobDir, answer, later, hfound, hmem, hsandbox, rfl, hlater⟩ :=
    opening_of_answers hdriver hconfigured hanswer hintime hdirectory hsource
  refine ⟨toolchain, hfound, hmem, ?_, ?_⟩
  · obtain ⟨-, htold⟩ := toolchain.told_opening request started jobDir answer later
    obtain ⟨run, rfl⟩ := hcompiler _ _ rfl htold
    refine ⟨jobDir, run, htold, ?_, ?_⟩
    · intro hcode
      obtain ⟨hnone, hshown⟩ := Toolchain.of_answered_rejected hcode hlater
      refine ⟨hsandbox ▸ hshown, ?_⟩
      rw [toolRuns_append, Toolchain.toolRuns_opening, hnone]
      rfl
    · rintro hcode shown rfl
      exact Toolchain.code_of_answered_accepted hcode hlater
  · intro started jobDir run hcode
    exact ⟨_, _, .ended hfound (Toolchain.run_of_rejected hcode started jobDir 0),
      hsandbox ▸ Toolchain.isRejection_rejection _⟩

/-- A compiler that complains about a file. -/
theorem rejected_source_ends_job_complaint :
    ∃ events shown, hostDriver.Answers { compilerId := "gcc" } events (.ok shown) ∧
      shown.IsRejection hostConfig.sandbox { code := 1, stderr := "/srv/jobs/1/example.cpp:1" } ∧
      toolRuns events = [hostToolchain.primaryCall { compilerId := "gcc" } "/srv/jobs/1"] := by
  let run : ToolResult := { code := 1, stderr := "/srv/jobs/1/example.cpp:1" }
  have hcode : run.code ≠ 0 := by decide
  have hfound : hostDriver.registry.find "gcc" = .ok hostToolchain := rfl
  have hanswer : hostDriver.Answers { compilerId := "gcc" } _ _ :=
    .ended hfound (Toolchain.run_of_rejected hcode 0 "/srv/jobs/1" 0)
  obtain ⟨toolchain, hown, -, ⟨jobDir, answer, htold, hrejected, -⟩, -⟩ :=
    rejected_source_ends_job hostConfig hostDriver { compilerId := "gcc" } _ _ rfl
      ⟨_, List.mem_singleton_self _, rfl⟩ hanswer (by simp)
      (by simp [Told, Toolchain.opening, Toolchain.rejectedEnd])
      (by simp [Told, Toolchain.opening, Toolchain.rejectedEnd])
      (by simp +contextual [Told, Toolchain.opening, Toolchain.rejectedEnd])
  -- only one tool run has ended, and it is that of the compiler
  obtain rfl := Except.ok.inj (hfound.symm.trans hown)
  obtain ⟨hcall, rfl⟩ : hostToolchain.primaryCall { compilerId := "gcc" } jobDir =
      hostToolchain.primaryCall { compilerId := "gcc" } "/srv/jobs/1" ∧ answer = run := by
    simpa [Told, Toolchain.opening, Toolchain.rejectedEnd] using htold
  obtain ⟨⟨shown, hshown, hsays⟩, hruns⟩ := hrejected hcode
  obtain rfl := Except.ok.inj hshown
  exact ⟨_, _, hanswer, hsays, hcall ▸ hruns⟩

end Driver

end AsmInspect

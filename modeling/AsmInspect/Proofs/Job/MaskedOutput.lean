import AsmInspect.Proofs.Job.Results
import AsmInspect.Proofs.Mask

/-!
# What a compiler says of the sandbox

A compiler runs in the sandbox and names the files that it complains about by their real paths. The
root of the sandbox is masked wherever it stands in what the compiler prints, and users see nothing
but what has been masked. The only way in which the root could come up again is that the mask and
the text beside it make it up, or that two masks do; a mask that has nothing in common with the root
where the two could meet leaves no such way.

The place of the root in a text does not matter here. Paths are masked at their front only; what
that leaves of the real directory in a command line is another matter.

## Main results

* `Driver.output_of_answers`: what a result shows of the compiler's output
* `Driver.masked_output_names_no_root`: neither a masked text nor a result names the root
-/

namespace AsmInspect

open AsmInspect.Flow

namespace Driver

variable {config : Config} {driver : Driver} {request : BuildRequest} {events : List Event}
  {shown : CompilationResult}

/-- **What a result shows of the compiler's output** is what the compiler has printed, masked. -/
theorem output_of_answers (hdriver : Driver.ofConfig config = .ok driver)
    (hanswer : driver.Answers request events (.ok shown)) :
    ∃ call run, Told events (.runTool call) (.ok run) ∧
      shown.stdout = config.sandbox.maskText run.stdout ∧
      shown.stderr = config.sandbox.maskText run.stderr := by
  cases hanswer with
  | ended found run =>
    obtain ⟨-, -, -, hsandbox⟩ := of_find hdriver found
    rcases Toolchain.opening_or_refused run with ⟨started, jobDir, answer, later, rfl, hlater⟩ |
      ⟨failure, he, -⟩
    case inr => cases he
    case inl =>
      obtain ⟨ended, rfl, -, hstdout, hstderr, -⟩ := Toolchain.shown_of_answered hlater
      obtain ⟨-, htold⟩ := Toolchain.told_opening _ request started jobDir (.ok ended) later
      rw [hsandbox] at hstdout hstderr
      exact ⟨_, ended, htold, hstdout, hstderr⟩

/-- **What has been masked does not name the root.** The root and the mask have nothing in common
where they could meet. Then in every text the root gives way to the mask wherever it stands, and
what comes of that has no root in it, so that masking it again changes nothing; a text without the
root is left as it is. So neither what a compiler has printed nor what it has complained about names
the root in any result. -/
theorem masked_output_names_no_root (sandbox : Sandbox) (mask : String)
    (hmasked : sandbox.maskRoot = some mask)
    (apart : Text.Apart sandbox.bareRoot (Text.dropSlashes mask.toList)) :
    (∀ text : String,
      (∃ parts, (∀ part ∈ parts, ¬ sandbox.bareRoot <:+: part) ∧
        text.toList = Text.join sandbox.bareRoot parts ∧
        (sandbox.maskText text).toList = Text.join (Text.dropSlashes mask.toList) parts) ∧
      ¬ sandbox.bareRoot <:+: (sandbox.maskText text).toList ∧
      sandbox.maskText (sandbox.maskText text) = sandbox.maskText text ∧
      (¬ sandbox.bareRoot <:+: text.toList → sandbox.maskText text = text)) ∧
    ∀ (config : Config) (driver : Driver) (request : BuildRequest) (events : List Event)
      (shown : CompilationResult), config.sandbox = sandbox →
      Driver.ofConfig config = .ok driver → driver.Answers request events (.ok shown) →
      ¬ sandbox.bareRoot <:+: shown.stdout.toList ∧
        ¬ sandbox.bareRoot <:+: shown.stderr.toList := by
  have hfree (text : String) : ¬ sandbox.bareRoot <:+: (sandbox.maskText text).toList :=
    Sandbox.not_occurs_maskText hmasked apart text
  constructor
  · intro text
    refine ⟨Sandbox.exists_join_maskText hmasked apart text, hfree text, ?_, ?_⟩
    · exact Sandbox.maskText_of_not_occurs hmasked apart (hfree text)
    · exact Sandbox.maskText_of_not_occurs hmasked apart
  · rintro config driver request events shown rfl hdriver hanswer
    obtain ⟨call, run, -, hstdout, hstderr⟩ := output_of_answers hdriver hanswer
    rw [hstdout, hstderr]
    exact ⟨hfree run.stdout, hfree run.stderr⟩

/-- Two roots side by side, and a compiler that complains about a file. -/
theorem masked_output_names_no_root_twice :
    ¬ "/srv/jobs".toList <:+:
      (hostConfig.sandbox.maskText "/srv/srv/jobs/srv/jobs/jobs").toList ∧
    ∃ events shown, hostDriver.Answers { compilerId := "gcc" } events (.ok shown) ∧
      shown.stderr = "/app/1/example.cpp:1" ∧ ¬ "/srv/jobs".toList <:+: shown.stderr.toList := by
  have hbare : hostConfig.sandbox.bareRoot = "/srv/jobs".toList := by decide
  let run : ToolResult := { code := 1, stderr := "/srv/jobs/1/example.cpp:1" }
  have hcode : run.code ≠ 0 := by decide
  have hfound : hostDriver.registry.find "gcc" = .ok hostToolchain := rfl
  have hanswer : hostDriver.Answers { compilerId := "gcc" } _ (.ok _) :=
    .ended hfound (Toolchain.run_of_rejected hcode 0 "/srv/jobs/1" 0)
  obtain ⟨htexts, hresults⟩ := masked_output_names_no_root hostConfig.sandbox "/app" rfl (by decide)
  obtain ⟨-, hfree, -, -⟩ := htexts "/srv/srv/jobs/srv/jobs/jobs"
  obtain ⟨-, hstderr⟩ := hresults hostConfig hostDriver _ _ _ rfl rfl hanswer
  rw [hbare] at hfree hstderr
  exact ⟨hfree, _, _, hanswer, by decide, hstderr⟩

end Driver

end AsmInspect

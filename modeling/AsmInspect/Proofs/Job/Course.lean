import AsmInspect.Proofs.Flow.Yields
import AsmInspect.Proofs.Toolchain.Questions

/-!
# The course of a job

A compile job written out question by question. It prepares its directory and runs the compiler
there; what follows depends on the compiler. If it rejects the source, the job is done with that. If
it accepts the source, the host's side and the device's side are collected in two branches, and the
job goes on when both have ended. A job that cannot go on says so and ends with its failure.

The job itself is put together from smaller jobs that may fail, which is how it is run and how its
parts are reused. What happens in it, and when, is easier to read off the course.

## Main definitions

* `primaryCall`: the run of the compiler
* `hostBranch`, `deviceBranch`, `joined`: the two branches, and what they come to together
* `giveUp`, `rejected`, `accepted`: the ways in which a job goes on to its end
* `opening`: what happens up to the end of the compiler's run
* `toolRuns`: the tools that have been run

## Main results

* `compileJob_run_eq`: a job and its course
* `opening_run`: a job runs to the end of its compiler
* `opening_or_idle`: how far a job has come
* `hostBranch_throughout`, `deviceBranch_throughout`: what the branches ask
-/

namespace AsmInspect

namespace Flow

/-- The tool whose run ends, if one does. -/
def toolRun? : Act → Option ToolCall
  | .answered (.runTool call) _ => some call
  | _ => none

/-- The tools that have been run, in the order in which their runs have ended. -/
def toolRuns (events : List Event) : List ToolCall := events.filterMap (toolRun? ·.2)

end Flow

namespace Toolchain

open AsmInspect.Flow

variable (toolchain : Toolchain) (request : BuildRequest)

/-- The run of the compiler. -/
def primaryCall (jobDir : String) : ToolCall :=
  { program := toolchain.compiler.exe
    args := toolchain.commandLine request jobDir
    options :=
      { toolchain.options .primaryCompile toolchain.limits.maxOutput with cwd := some jobDir } }

/-- What a compiler run that went well has left in the directory of a job. -/
def compiledIn (jobDir : String) (run : ToolResult) : Compiled :=
  { run := { run with dirPath := some (run.dirPath.getD (.text jobDir)) }
    outputPath := Path.join jobDir outputFileName
    recordPath := toolchain.recordPath? request (Path.join jobDir outputFileName) }

/-! ### The branches -/

/-- The branch that collects what is shown of the host's side. -/
def hostBranch (compiled : Compiled) : Flow (Except Failure HostOutput) :=
  (toolchain.hostOutput compiled request.filters request.dialect).run

/-- The branch that collects the device listings, if the compiler has any. -/
def deviceBranch (compiled : Compiled) : Flow (Except Failure DeviceMap) :=
  (if toolchain.compiler.supportsDeviceAsmView then
    toolchain.deviceListings compiled.run request.filters else pure {} : Work DeviceMap).run

/-- What the two branches come to together: a failure of the host's side goes first. -/
def joined : Except Failure HostOutput × Except Failure DeviceMap →
    Except Failure (HostOutput × DeviceMap)
  | (.error failure, _) => .error failure
  | (.ok _, .error failure) => .error failure
  | (.ok host, .ok devices) => .ok (host, devices)

theorem collect_run_eq (compiled : Compiled) :
    (toolchain.collect compiled request).run =
      .both (toolchain.hostBranch request compiled) (toolchain.deviceBranch request compiled)
        fun results => .done (joined results) := by
  unfold collect
  rw [run_bind_eq, run_lift_eq]
  show Flow.both _ _ _ = _
  unfold hostBranch deviceBranch
  congr 1
  funext ⟨host, devices⟩
  cases host <;> cases devices <;> rfl

section Branches

variable {asks : Query → Prop} {crews : CrewCondition}
  (ha : ∀ query : Query, query.isSideWork = true → asks query)

include ha

theorem hostBranch_throughout (compiled : Compiled) :
    (toolchain.hostBranch request compiled).Throughout asks crews :=
  hostOutput_throughout toolchain ha _ _ _

theorem deviceBranch_throughout (hl : ∀ path, asks (.listNames path))
    (hcrew : ∀ {β : Type} {n : Nat} (members : Fin n → Flow (Except Failure β)),
      crews { free := toolchain.limits.maxDeviceTasks.toNat } members) (compiled : Compiled) :
    (toolchain.deviceBranch request compiled).Throughout asks crews := by
  unfold deviceBranch
  split
  · exact deviceListings_throughout toolchain ha hl hcrew _ _
  · exact (composable_throughout asks crews).work_pure _

end Branches

/-! ### The job -/

/-- A job that cannot go on. -/
def giveUp {α : Type} (failure : Failure) : Flow (Except Failure α) :=
  .ask (.enter .failed) fun _ => .done (.error failure)

/-- The result of a job whose compiler rejects the source. -/
def rejection (jobDir : String) (run : ToolResult) (totalMs : UInt64) : CompilationResult :=
  { toolchain.shownRun run (toolchain.commandLine request jobDir) with
    asm := .text rejectedText
    timings := { compileMs := run.execTimeMs, totalMs } }

/-- The result of a job whose compiler accepts the source. -/
def collection (jobDir : String) (run : ToolResult) (host : HostOutput) (devices : DeviceMap)
    (postProcessMs totalMs : UInt64) : CompilationResult :=
  { toolchain.shownRun run (toolchain.commandLine request jobDir) with
    asm := host.asm
    optOutput := host.remarks
    devices
    timings :=
      { compileMs := run.execTimeMs, objdumpMs := host.objdumpTimeMs, postProcessMs, totalMs } }

/-- A job whose compiler has rejected the source. -/
def rejected (started : UInt64) (jobDir : String) (run : ToolResult) :
    Flow (Except Failure CompilationResult) :=
  .ask (.enter .compileFailed) fun _ =>
  .ask .clock fun finished =>
  .ask (.enter .done) fun _ =>
  .done (.ok (toolchain.rejection request jobDir run (finished - started)))

/-- A job whose branches have ended. -/
def concluded (started collecting : UInt64) (jobDir : String) (run : ToolResult) :
    Except Failure (HostOutput × DeviceMap) → Flow (Except Failure CompilationResult)
  | .error failure => giveUp failure
  | .ok (host, devices) =>
    .ask .clock fun finished =>
    .ask (.enter .done) fun _ =>
    .done (.ok (toolchain.collection request jobDir run host devices (finished - collecting)
      (finished - started)))

/-- A job whose compiler has accepted the source. -/
def accepted (started : UInt64) (jobDir : String) (run : ToolResult) :
    Flow (Except Failure CompilationResult) :=
  .ask (.enter .succeeded) fun _ =>
  .ask (.enter .postProcessing) fun _ =>
  .ask .clock fun collecting =>
  .both (toolchain.hostBranch request (toolchain.compiledIn request jobDir run))
    (toolchain.deviceBranch request (toolchain.compiledIn request jobDir run))
    fun results => toolchain.concluded request started collecting jobDir run (joined results)

/-- A job whose compiler has run, or could not be run. -/
def answered (started : UInt64) (jobDir : String) :
    Except Failure ToolResult → Flow (Except Failure CompilationResult)
  | .error failure => giveUp failure
  | .ok run =>
    if run.success = true then toolchain.accepted request started jobDir run
    else toolchain.rejected request started jobDir run

theorem answered_of_success {run : ToolResult} (h : run.success = true) (started : UInt64)
    (jobDir : String) : toolchain.answered request started jobDir (.ok run) =
      toolchain.accepted request started jobDir run := if_pos h

theorem answered_of_not_success {run : ToolResult} (h : ¬ run.success = true) (started : UInt64)
    (jobDir : String) : toolchain.answered request started jobDir (.ok run) =
      toolchain.rejected request started jobDir run := if_neg h

/-- **The course of a job.** -/
theorem compileJob_run_eq :
    (toolchain.compileJob request).run =
      .ask .clock fun started =>
      .ask (.jobDirectory toolchain.sandbox.root) fun
        | .error cause => giveUp (.file .primaryCompile toolchain.sandbox.root cause)
        | .ok jobDir =>
          let sourcePath := Path.join jobDir toolchain.compiler.sourceFileName
          .ask (.writeText sourcePath request.source false) fun
            | .error cause => giveUp (.file .primaryCompile sourcePath cause)
            | .ok _ =>
              .ask (.enter .argsBuilt) fun _ =>
              .ask (.enter .executing) fun _ =>
              .ask (.runTool (toolchain.primaryCall request jobDir))
                (toolchain.answered request started jobDir) := by
  unfold compileJob
  rw [run_tryCatch_eq]
  unfold compile
  -- the questions are the same one by one, and so are the ways to go on after each
  show Flow.ask .clock _ = _
  congr 1
  funext started
  show Flow.ask (.jobDirectory _) _ = _
  congr 1
  funext directory
  cases directory with
  | error cause => rfl
  | ok jobDir =>
    show Flow.ask (.writeText ..) _ = _
    congr 1
    funext written
    cases written with
    | error cause => rfl
    | ok _ =>
      show Flow.ask (.enter .argsBuilt) (fun _ => Flow.ask (.enter .executing) fun _ =>
        Flow.ask (.runTool (toolchain.primaryCall request jobDir)) _) = _
      congr 3
      funext _
      congr 1
      funext _
      congr 1
      funext answer
      cases answer with
      | error failure => rfl
      | ok run =>
        show Flow.bind (ExceptT.run (if (!run.success) = true then _ else _)) _ =
          if run.success = true then _ else _
        by_cases hsuccess : run.success = true
        case neg =>
          rw [if_neg hsuccess, if_pos (by simpa using hsuccess)]
          rfl
        case pos =>
          rw [if_pos hsuccess, if_neg (by simpa using hsuccess)]
          show Flow.ask (.enter .succeeded) (fun _ => Flow.ask (.enter .postProcessing) fun _ =>
            Flow.ask .clock fun collecting => Flow.bind (Flow.bind
              (toolchain.collect (toolchain.compiledIn request jobDir run) request).run _) _) = _
          rw [collect_run_eq]
          unfold accepted
          congr 1
          funext _
          congr 1
          funext _
          congr 1
          funext collecting
          show Flow.both _ _ _ = Flow.both _ _ _
          congr 1
          funext results
          rcases results with ⟨host | host, devices | devices⟩ <;> rfl

/-! ### The opening -/

/-- What happens in a job up to the end of its compiler's run, if nothing fails before. -/
def opening (started : UInt64) (jobDir : String) (answer : Except Failure ToolResult) :
    List Event :=
  [([], .answered .clock started),
    ([], .answered (.jobDirectory toolchain.sandbox.root) (.ok jobDir)),
    ([], .answered (.writeText (Path.join jobDir toolchain.compiler.sourceFileName) request.source
      false) (.ok ())),
    ([], .answered (.enter .argsBuilt) ()),
    ([], .answered (.enter .executing) ()),
    ([], .answered (.runTool (toolchain.primaryCall request jobDir)) answer)]

theorem opening_run (started : UInt64) (jobDir : String) (answer : Except Failure ToolResult) :
    Run (toolchain.compileJob request).run (toolchain.opening request started jobDir answer)
      (toolchain.answered request started jobDir answer) := by
  rw [compileJob_run_eq]
  refine .step (.answer .clock _ started) ?_
  refine .step (.answer (.jobDirectory _) _ (.ok jobDir)) ?_
  refine .step (.answer (.writeText ..) _ (.ok ())) ?_
  refine .step (.answer (.enter .argsBuilt) _ ()) ?_
  refine .step (.answer (.enter .executing) _ ()) ?_
  exact .step (.answer (.runTool _) _ answer) (.refl _)

/-! ### How far a job has come -/

section Progress

variable {toolchain request} {events : List Event}
  {flow : Flow (Except Failure CompilationResult)}

/-- A job that has given up runs no more tools, and ends with its failure. -/
theorem idle_of_giveUp {failure : Failure} (h : Run (giveUp failure) events flow) :
    toolRuns events = [] ∧ ∀ result, flow = .done result → result = .error failure := by
  rcases Run.ask_cases h with ⟨rfl, rfl⟩ | ⟨_, _, rfl, hended⟩
  · exact ⟨rfl, nofun⟩
  · obtain ⟨rfl, rfl⟩ := hended.of_done
    exact ⟨rfl, fun result h => (Flow.done.inj h).symm⟩

/-- **What has happened to a job**: its compiler has been run and more may have followed, or no tool
has been run. If the job has ended then, its directory or its source could not be written. -/
theorem opening_or_idle (hrun : Run (toolchain.compileJob request).run events flow) :
    (∃ started jobDir answer later,
      events = toolchain.opening request started jobDir answer ++ later ∧
        Run (toolchain.answered request started jobDir answer) later flow) ∨
    (toolRuns events = [] ∧ ∀ result, flow = .done result →
      ∃ failure, result = .error failure ∧
        ((∃ cause, Told events (.jobDirectory toolchain.sandbox.root) (.error cause)) ∨
          ∃ path cause, Told events (.writeText path request.source false) (.error cause))) := by
  have hasking {query : Query} {next : query.Answer → Flow (Except Failure CompilationResult)}
      {p : Except Failure CompilationResult → Prop} (result : Except Failure CompilationResult)
      (h : Flow.ask query next = .done result) : p result := by cases h
  rw [compileJob_run_eq] at hrun
  -- the questions of the opening come one by one, and only the last is a tool run
  rcases hrun.ask_cases with ⟨rfl, rfl⟩ | ⟨started, _, rfl, hstarted⟩
  case inl => exact .inr ⟨rfl, hasking⟩
  rcases hstarted.ask_cases with ⟨rfl, rfl⟩ | ⟨directory, _, rfl, hmade⟩
  case inl => exact .inr ⟨rfl, hasking⟩
  cases directory with
  | error cause =>
    obtain ⟨hidle, hends⟩ := idle_of_giveUp hmade
    exact .inr ⟨hidle, fun result h => ⟨_, hends result h, .inl ⟨cause, [], by simp⟩⟩⟩
  | ok jobDir =>
    rcases hmade.ask_cases with ⟨rfl, rfl⟩ | ⟨written, _, rfl, hwritten⟩
    case inl => exact .inr ⟨rfl, hasking⟩
    cases written with
    | error cause =>
      obtain ⟨hidle, hends⟩ := idle_of_giveUp hwritten
      exact .inr ⟨hidle, fun result h => ⟨_, hends result h,
        .inr ⟨Path.join jobDir toolchain.compiler.sourceFileName, cause, [], by simp⟩⟩⟩
    | ok _ =>
      rcases hwritten.ask_cases with ⟨rfl, rfl⟩ | ⟨_, _, rfl, hbuilt⟩
      case inl => exact .inr ⟨rfl, hasking⟩
      rcases hbuilt.ask_cases with ⟨rfl, rfl⟩ | ⟨_, _, rfl, hexecuting⟩
      case inl => exact .inr ⟨rfl, hasking⟩
      rcases hexecuting.ask_cases with ⟨rfl, rfl⟩ | ⟨answer, later, rfl, hlater⟩
      case inl => exact .inr ⟨rfl, hasking⟩
      exact .inl ⟨started, jobDir, answer, later, rfl, hlater⟩

end Progress

end Toolchain

end AsmInspect

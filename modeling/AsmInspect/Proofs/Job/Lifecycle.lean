import AsmInspect.Proofs.Flow.Watch
import AsmInspect.Proofs.Job.Course
import AsmInspect.Proofs.Toolchain.FanOut

/-!
# The states of a job

A job says which states it goes into. Whatever its tools and files answer, and in whatever order its
branches go on, each of these is a step that its state allows; the last one is a state in which the
job is over, and it tells a job with a result from one without; and how the compiler has exited can
be read off the states in between.

The states are gone into at moments at which nothing else of the job is going on. So they are in one
order, and a watch that notes them can pass over the two branches.

## Main definitions

* `entered`, `exits`: the states that a job goes into, and the exit codes of its compiler
* `lifecycle`: the watch that notes both

## Main results

* `compileJob_keeps`: a job keeps the watch
* `lifecycle_respected`: the states of a job on every run
-/

namespace AsmInspect

open AsmInspect.Flow

/-- The state that a job goes into. -/
def Flow.Act.state? : Act → Option JobState
  | .answered (.enter state) _ => some state
  | _ => none

/-- The states that a job goes into, in their order. -/
def entered (events : List Event) : List JobState := events.filterMap (·.2.state?)

/-! ### Steps of a job -/

section Steps

variable {job job' : Job} {state : JobState}

theorem foldlM_advance_cons {states : List JobState} :
    (state :: states).foldlM Job.advance job = .ok job' ↔
      job.state.canAdvanceTo state = true ∧
        states.foldlM Job.advance { job with state } = .ok job' := by
  rw [List.foldlM_cons, Job.advance]
  by_cases h : job.state.canAdvanceTo state = true
  · rw [if_pos h]
    exact ⟨fun hrest => ⟨h, hrest⟩, fun hrest => hrest.2⟩
  · rw [if_neg h]
    refine ⟨fun hrest => ?_, fun hrest => absurd hrest.1 h⟩
    cases hrest

/-- One more state that is allowed. -/
theorem foldlM_advance_concat {states : List JobState}
    (h : states.foldlM Job.advance job = .ok job') (hnext : job'.state.canAdvanceTo state = true) :
    (states ++ [state]).foldlM Job.advance job = .ok { job' with state } := by
  rw [List.foldlM_append, h]
  exact foldlM_advance_cons.mpr ⟨hnext, rfl⟩

/-- A job that is not over may fail. -/
theorem canAdvanceTo_failed (h : state.isTerminal = false) : state.canAdvanceTo .failed = true := by
  cases state with
  | done => cases h
  | failed => cases h
  | _ => rfl

theorem canAdvanceTo_of_isTerminal (h : state.isTerminal = true) (next : JobState) :
    state.canAdvanceTo next = false := by
  cases state with
  | done => cases next <;> rfl
  | failed => cases next <;> rfl
  | _ => cases h

/-- A job that is over goes into no other state. -/
theorem eq_nil_of_isTerminal {before after : List JobState}
    (h : (before ++ state :: after).foldlM Job.advance job = .ok job')
    (hover : state.isTerminal = true) : after = [] := by
  induction before generalizing job with
  | nil =>
    cases after with
    | nil => rfl
    | cons next rest =>
      have hnext := (foldlM_advance_cons.mp (foldlM_advance_cons.mp h).2).1
      rw [canAdvanceTo_of_isTerminal hover next] at hnext
      cases hnext
  | cons first before ih => exact ih (foldlM_advance_cons.mp h).2

end Steps

namespace Toolchain

variable (toolchain : Toolchain)

/-- Whether a tool run is one of the compiler on the source of a job. -/
def runsCompiler (call : ToolCall) : Prop :=
  call.program = toolchain.compiler.exe ∧ call.options.stage = .primaryCompile

instance (call : ToolCall) : Decidable (toolchain.runsCompiler call) :=
  inferInstanceAs (Decidable (_ ∧ _))

/-- The exit code of the compiler, if this is the end of a run of it. -/
def exit? : Act → Option Int32
  | .answered (.runTool call) (.ok run) =>
    if toolchain.runsCompiler call then some run.code else none
  | _ => none

/-- The exit codes of the compiler, in the order of its runs. -/
def exits (events : List Event) : List Int32 := events.filterMap (toolchain.exit? ·.2)

/-- The compiler has run, and has exited with such a code. -/
def Exited (p : Int32 → Prop) (events : List Event) : Prop :=
  ∃ position call run, toolchain.runsCompiler call ∧ p run.code ∧
    (position, .answered (.runTool call) (.ok run)) ∈ events

theorem exited_iff {p : Int32 → Prop} {events : List Event} :
    toolchain.Exited p events ↔ ∃ code ∈ toolchain.exits events, p code := by
  simp only [exits, List.mem_filterMap]
  constructor
  · rintro ⟨position, call, run, hruns, hp, hmem⟩
    exact ⟨_, ⟨_, hmem, if_pos hruns⟩, hp⟩
  · rintro ⟨code, ⟨⟨position, act⟩, hmem, hact⟩, hp⟩
    -- a code comes from the end of a tool run and from nothing else
    cases act with
    | answered query answer =>
      cases query with
      | runTool call =>
        cases answer with
        | ok run =>
          obtain ⟨hruns, rfl⟩ : toolchain.runsCompiler call ∧ run.code = code := by
            simpa [exit?] using hact
          exact ⟨position, call, run, hruns, hp, hmem⟩
        | error => cases hact
      | _ => cases hact
    | _ => cases hact

/-! ### The watch -/

/-- What is noted of a job. -/
structure Diary where
  states : List JobState := []
  exits : List Int32 := []

/-- What is noted of a job so far is in order: each state was allowed after the one before, and
the states between the first and the last go with how the compiler has exited. -/
structure Diary.Sound (diary : Diary) (job : Job) : Prop where
  allowed : ∃ job', diary.states.foldlM Job.advance job = .ok job'
  rejected : .compileFailed ∈ diary.states → ∃ code ∈ diary.exits, code ≠ 0
  accepted : .postProcessing ∈ diary.states → 0 ∈ diary.exits

/-- What is noted of a job that has ended is complete. -/
structure Diary.Complete (diary : Diary) (job : Job) (result : Except Failure CompilationResult) :
    Prop where
  last : ∃ job', diary.states.foldlM Job.advance job = .ok job' ∧
    job'.state = if result.isOk then .done else .failed
  rejected : (∃ code ∈ diary.exits, code ≠ 0) → .compileFailed ∈ diary.states
  accepted : 0 ∈ diary.exits → .postProcessing ∈ diary.states

/-- The states that a job goes into, and how its compiler exits. -/
def lifecycle (job : Job) : Watch Diary where
  note diary query answer :=
    { states := diary.states ++ (Act.answered query answer).state?.toList
      exits := diary.exits ++ (toolchain.exit? (.answered query answer)).toList }
  sound diary := diary.Sound job

theorem lifecycle_after (job : Job) (diary : Diary) (event : Event) :
    (toolchain.lifecycle job).after diary event =
      { states := diary.states ++ event.2.state?.toList
        exits := diary.exits ++ (toolchain.exit? event.2).toList } := by
  obtain ⟨position, act⟩ := event
  cases act with
  | answered query answer => rfl
  | _ => simp [Watch.after, Act.state?, exit?]

/-- What has been noted when some things have happened. -/
theorem lifecycle_foldl (job : Job) (diary : Diary) (events : List Event) :
    events.foldl (toolchain.lifecycle job).after diary =
      { states := diary.states ++ entered events
        exits := diary.exits ++ toolchain.exits events } := by
  induction events generalizing diary with
  | nil => simp [entered, exits]
  | cons event events ih =>
    rw [List.foldl_cons, ih, lifecycle_after]
    cases hs : event.2.state? <;> cases he : toolchain.exit? event.2 <;>
      simp [entered, exits, hs, he]

/-- Nothing is noted of what the branches of a job ask. -/
theorem lifecycle_ignores (job : Job) {query : Query} (h : query.isSideWork = true) :
    (toolchain.lifecycle job).Ignores query := by
  intro diary answer
  cases query with
  | runTool call =>
    have hother : ¬ toolchain.runsCompiler call := fun hruns => by
      simp [Query.isSideWork, hruns.2] at h
    cases answer <;> simp [lifecycle, Act.state?, exit?, hother]
  | readText => simp [lifecycle, Act.state?, exit?]
  | writeText => simp [lifecycle, Act.state?, exit?]
  | _ => cases h

/-! ### The course of a job under the watch -/

section Course

variable {toolchain} {request : BuildRequest}

/-- A job that cannot go on is over with its failure, if it was not over before. -/
theorem giveUp_keeps {job job' : Job} {diary : Diary} (hsound : diary.Sound job)
    (hjob : diary.states.foldlM Job.advance job = .ok job') (hopen : job'.state.isTerminal = false)
    (hr : (∃ code ∈ diary.exits, code ≠ 0) → .compileFailed ∈ diary.states)
    (ha : 0 ∈ diary.exits → .postProcessing ∈ diary.states) (failure : Failure) :
    (toolchain.lifecycle job).Keeps (fun diary result => diary.Complete job result) diary
      (giveUp failure) := by
  have hlast := foldlM_advance_concat hjob (canAdvanceTo_failed hopen)
  have hnote : (toolchain.lifecycle job).note diary (.enter .failed) () =
      { diary with states := diary.states ++ [.failed] } := by
    simp [lifecycle, Act.state?, exit?]
  refine ⟨hsound, fun _ => ?_⟩
  rw [hnote]
  exact ⟨⟨⟨_, hlast⟩, by simpa using hsound.rejected, by simpa using hsound.accepted⟩,
    ⟨⟨_, hlast, rfl⟩, by simpa using hr, by simpa using ha⟩⟩

theorem rejected_keeps (started : UInt64) (jobDir : String) (run : ToolResult)
    (hcode : run.code ≠ 0) {id : Nat} {compiler : String} :
    (toolchain.lifecycle { id, compiler }).Keeps
      (fun diary result => diary.Complete { id, compiler } result)
      { states := [.argsBuilt, .executing], exits := [run.code] }
      (toolchain.rejected request started jobDir run) := by
  have hexit : ∃ code ∈ [run.code], code ≠ 0 := ⟨_, List.mem_singleton_self _, hcode⟩
  refine ⟨⟨⟨_, rfl⟩, by simp, by simp⟩, fun _ => ?_⟩
  show (toolchain.lifecycle _).Keeps _
    { states := [.argsBuilt, .executing, .compileFailed], exits := [run.code] } _
  have hsound : Diary.Sound ⟨[.argsBuilt, .executing, .compileFailed], [run.code]⟩
      { id, compiler } := ⟨⟨_, rfl⟩, fun _ => hexit, by simp⟩
  refine ⟨hsound, fun finished => ⟨hsound, fun _ => ?_⟩⟩
  show (toolchain.lifecycle _).Keeps _
    { states := [.argsBuilt, .executing, .compileFailed, .done], exits := [run.code] } _
  exact ⟨⟨⟨_, rfl⟩, fun _ => hexit, by simp⟩,
    ⟨⟨_, rfl, rfl⟩, by simp, fun hzero => absurd (List.mem_singleton.mp hzero).symm hcode⟩⟩

theorem accepted_keeps (started : UInt64) (jobDir : String) (run : ToolResult)
    (hcode : run.code = 0) {id : Nat} {compiler : String} :
    (toolchain.lifecycle { id, compiler }).Keeps
      (fun diary result => diary.Complete { id, compiler } result)
      { states := [.argsBuilt, .executing], exits := [run.code] }
      (toolchain.accepted request started jobDir run) := by
  have hignored {query : Query} (h : query.isSideWork = true) :=
    lifecycle_ignores toolchain { id, compiler } h
  have hzero : 0 ∈ [run.code] := List.mem_singleton.mpr hcode.symm
  have hnonzero : ¬ ∃ code ∈ [run.code], code ≠ 0 := by simp [hcode]
  refine ⟨⟨⟨_, rfl⟩, by simp, by simp⟩, fun _ => ?_⟩
  show (toolchain.lifecycle _).Keeps _
    { states := [.argsBuilt, .executing, .succeeded], exits := [run.code] } _
  refine ⟨⟨⟨_, rfl⟩, by simp, fun _ => hzero⟩, fun _ => ?_⟩
  show (toolchain.lifecycle _).Keeps _
    { states := [.argsBuilt, .executing, .succeeded, .postProcessing], exits := [run.code] } _
  have hsound : Diary.Sound ⟨[.argsBuilt, .executing, .succeeded, .postProcessing], [run.code]⟩
      { id, compiler } := ⟨⟨_, rfl⟩, by simp, fun _ => hzero⟩
  -- nothing is noted while the branches go on, and both their ends are looked at together
  refine ⟨hsound, fun collecting => ⟨hsound, ?_, ?_, fun results => ?_⟩⟩
  · exact hostBranch_throughout toolchain request (fun _ => hignored) _
  · exact deviceBranch_throughout toolchain request (fun _ => hignored)
      (fun path diary answer => by simp [lifecycle, Act.state?, exit?]) (fun _ => trivial) _
  · show (toolchain.lifecycle _).Keeps _
      ⟨[.argsBuilt, .executing, .succeeded, .postProcessing], [run.code]⟩
      (toolchain.concluded request started collecting jobDir run (joined results))
    cases joined results with
    | error failure => exact giveUp_keeps hsound rfl rfl (absurd · hnonzero) (by simp) failure
    | ok collected =>
      refine ⟨hsound, fun _ => ⟨hsound, fun _ => ?_⟩⟩
      show (toolchain.lifecycle _).Keeps _ { states :=
        [.argsBuilt, .executing, .succeeded, .postProcessing, .done], exits := [run.code] } _
      exact ⟨⟨⟨_, rfl⟩, by simp, fun _ => hzero⟩,
        ⟨⟨_, rfl, rfl⟩, (absurd · hnonzero), by simp⟩⟩

/-- **A job keeps the watch on its states.** -/
theorem compileJob_keeps (id : Nat) (compiler : String) :
    (toolchain.lifecycle { id, compiler }).Keeps
      (fun diary result => diary.Complete { id, compiler } result) {}
      (toolchain.compileJob request).run := by
  have hempty : Diary.Sound {} { id, compiler } := ⟨⟨_, rfl⟩, by simp, by simp⟩
  have hgiveUp (failure : Failure) : (toolchain.lifecycle { id, compiler }).Keeps
      (fun diary result => diary.Complete { id, compiler } result) {} (giveUp failure) :=
    giveUp_keeps hempty rfl rfl (by simp) (by simp) failure
  rw [compileJob_run_eq]
  refine ⟨hempty, fun started => ⟨hempty, fun directory => ?_⟩⟩
  cases directory with
  | error cause => exact hgiveUp _
  | ok jobDir =>
    refine ⟨hempty, fun written => ?_⟩
    cases written with
    | error cause => exact hgiveUp _
    | ok _ =>
      -- the first state is noted once the source is there
      refine ⟨hempty, fun _ => ?_⟩
      show (toolchain.lifecycle _).Keeps _ { states := [.argsBuilt] } _
      refine ⟨⟨⟨_, rfl⟩, by simp, by simp⟩, fun _ => ?_⟩
      show (toolchain.lifecycle _).Keeps _ { states := [.argsBuilt, .executing] } _
      have hsound : Diary.Sound { states := [.argsBuilt, .executing] } { id, compiler } :=
        ⟨⟨_, rfl⟩, by simp, by simp⟩
      refine ⟨hsound, fun answer => ?_⟩
      cases answer with
      | error failure => exact giveUp_keeps hsound rfl rfl (by simp) (by simp) failure
      | ok run =>
        have hruns : toolchain.runsCompiler (toolchain.primaryCall request jobDir) := ⟨rfl, rfl⟩
        have hnote : (toolchain.lifecycle { id, compiler }).note
            { states := [.argsBuilt, .executing] }
            (.runTool (toolchain.primaryCall request jobDir)) (.ok run) =
            { states := [.argsBuilt, .executing], exits := [run.code] } := by
          simp [lifecycle, Act.state?, exit?, hruns]
        rw [hnote]
        by_cases hsuccess : run.success = true
        · rw [answered_of_success _ _ hsuccess]
          exact accepted_keeps started jobDir run (by simpa [ToolResult.success] using hsuccess)
        · rw [answered_of_not_success _ _ hsuccess]
          exact rejected_keeps started jobDir run (by simpa [ToolResult.success] using hsuccess)

end Course

/-- **The states of a job.** On every run, to its end or not: each state that the job goes into is
one that it may step to, and none is left once the job is over. At the end it is done if it has a
result, and has failed if it has a failure; and it has been through the state of a rejected source,
or the one of collecting, exactly if the compiler has run and exited with another code than zero, or
with zero. -/
theorem lifecycle_respected (toolchain : Toolchain) (request : BuildRequest) (id : Nat)
    (events : List Event) (flow : Flow (Except Failure CompilationResult))
    (hrun : Run (toolchain.compileJob request).run events flow) :
    (∃ job, (entered events).foldlM Job.advance { id, compiler := request.compilerId } = .ok job ∧
      (∀ result, flow = .done (.ok result) → job.state = .done) ∧
      ∀ failure, flow = .done (.error failure) → job.state = .failed) ∧
    (∀ before state after, entered events = before ++ state :: after →
      state.isTerminal = true → after = []) ∧
    ∀ result, flow = .done result →
      (.compileFailed ∈ entered events ↔ toolchain.Exited (· ≠ 0) events) ∧
      (.postProcessing ∈ entered events ↔ toolchain.Exited (· = 0) events) := by
  have hkeeps := (compileJob_keeps id request.compilerId).run hrun
  rw [lifecycle_foldl] at hkeeps
  simp only [List.nil_append] at hkeeps
  obtain ⟨⟨job, hjob⟩, hrejected, haccepted⟩ := hkeeps.sound
  have hlast (result : Except Failure CompilationResult) (hdone : flow = .done result) :
      job.state = if result.isOk then .done else .failed := by
    subst hdone
    obtain ⟨last, hlast, hstate⟩ := hkeeps.2.last
    obtain rfl : job = last := Except.ok.inj (hjob.symm.trans hlast)
    exact hstate
  refine ⟨⟨job, hjob, fun _ h => hlast _ h, fun _ h => hlast _ h⟩, ?_, ?_⟩
  · intro before state after hsplit hover
    rw [hsplit] at hjob
    exact eq_nil_of_isTerminal hjob hover
  · rintro result rfl
    rw [exited_iff, exited_iff]
    refine ⟨⟨hrejected, hkeeps.2.rejected⟩, ⟨fun h => ⟨0, haccepted h, rfl⟩, ?_⟩⟩
    rintro ⟨_, hmem, rfl⟩
    exact hkeeps.2.accepted hmem

/-- A job whose compiler rejects the source. -/
theorem lifecycle_respected_rejected_source :
    ∃ events result, Run (plainNvcc.compileJob {}).run events (.done result) ∧
      entered events = [.argsBuilt, .executing, .compileFailed, .done] ∧
      plainNvcc.Exited (· ≠ 0) events := by
  have hrejected : Run (plainNvcc.answered {} 0 "job" (.ok { code := 1 }))
      [([], .answered (.enter .compileFailed) ()), ([], .answered .clock (0 : UInt64)),
        ([], .answered (.enter .done) ())]
      (.done (.ok (plainNvcc.rejection {} "job" { code := 1 } 0))) := by
    show Run (plainNvcc.rejected {} 0 "job" { code := 1 }) _ _
    refine .step (.answer (.enter .compileFailed) _ ()) ?_
    refine .step (.answer .clock _ (0 : UInt64)) ?_
    exact .step (.answer (.enter .done) _ ()) (.refl _)
  have hrun := (plainNvcc.opening_run {} 0 "job" _).append hrejected
  obtain ⟨hcompileFailed, -⟩ := (lifecycle_respected plainNvcc {} 0 _ _ hrun).2.2 _ rfl
  exact ⟨_, _, hrun, rfl, hcompileFailed.mp (by decide)⟩

end Toolchain

end AsmInspect

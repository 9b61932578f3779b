import AsmInspect.Proofs.Job.Faults
import AsmInspect.Proofs.Machine.Conservation
import AsmInspect.Proofs.Machine.Faithful

/-!
# How a driver answers

A request is answered by the result of its job, unless there is no such compiler or the job takes
too long. In the last two cases it is answered by a failure of the driver itself. What a session
answers, however many requests come to it at the same time, is such an answer for each of them. It
answers nothing if a job crashes, but none does as long as the compilers are configured with no more
places for artifacts than there can be.

So every failure that a driver answers with has come up at one point, and it is known which: the
stage of the failure names it, and the message starts with the stage.

## Main definitions

* `Driver.Answers`: the answers that a request may get, and what has happened before
* `Driver.Fault`: what happens at a point, and the failure it leads to

## Main results

* `Session.compile_answers`: a session answers in such a way
* `Session.exists_answers`: a session that does answer
* `Driver.failure_names_stage`: the stage of a failure says where it has come up
-/

namespace AsmInspect

open AsmInspect.Flow

namespace Driver

variable (driver : Driver) (request : BuildRequest)

/-- **The answers that a request may get**, and what has happened before. -/
inductive Answers : List Event → Except Failure CompilationResult → Prop
  /-- There is no such compiler. -/
  | refused {failure : Failure}
      (unknown : driver.registry.find request.compilerId = .error failure) :
      Answers [] (.error failure)
  | ended {toolchain : Toolchain} {events : List Event} {result : Except Failure CompilationResult}
      (found : driver.registry.find request.compilerId = .ok toolchain)
      (run : Run (toolchain.compileJob request).run events (.done result)) : Answers events result
  /-- The job has not ended in time, and is dropped. -/
  | overdue {toolchain : Toolchain} {events : List Event}
      {flow : Flow (Except Failure CompilationResult)}
      (found : driver.registry.find request.compilerId = .ok toolchain)
      (run : Run (toolchain.compileJob request).run events flow)
      (unfinished : flow.result? = none) :
      Answers events (.error (.cancelled driver.config.limits.jobTimeoutMs))

/-- **What happens to a request, and the failure it leads to.** -/
inductive Fault (events : List Event) : FaultPoint → Failure → Prop
  | unknownCompiler (unknown : driver.registry.toolchains.get? request.compilerId = none) :
      Fault events .unknownCompiler (.unknownCompiler request.compilerId)
  | job {toolchain : Toolchain} {point : FaultPoint} {failure : Failure}
      (found : driver.registry.find request.compilerId = .ok toolchain)
      (fault : toolchain.Fault request (Told events) point failure) : Fault events point failure
  | overrunningTimeLimit {toolchain : Toolchain} {flow : Flow (Except Failure CompilationResult)}
      (found : driver.registry.find request.compilerId = .ok toolchain)
      (run : Run (toolchain.compileJob request).run events flow)
      (unfinished : flow.result? = none) :
      Fault events .overrunningTimeLimit (.cancelled driver.config.limits.jobTimeoutMs)

variable {driver request} {events : List Event} {failure : Failure}

theorem exists_fault (h : driver.Answers request events (.error failure)) :
    ∃ point, driver.Fault request events point failure := by
  cases h with
  | refused unknown =>
    unfold Registry.find at unknown
    split at unknown
    case h_1 => cases unknown
    case h_2 hnone =>
      obtain rfl := Except.error.inj unknown
      exact ⟨_, .unknownCompiler hnone⟩
  | ended found run =>
    obtain ⟨point, fault⟩ := Toolchain.exists_fault run.yields
    exact ⟨point, .job found fault⟩
  | overdue found run unfinished => exact ⟨_, .overrunningTimeLimit found run unfinished⟩

theorem Fault.stage_eq (hrunner : Toolchain.ToldByStage (Told events)) {point : FaultPoint}
    (fault : driver.Fault request events point failure) : failure.stage = point.stage := by
  cases fault with
  | unknownCompiler => rfl
  | job _ fault => exact fault.stage_eq hrunner
  | overrunningTimeLimit => rfl

/-- **A failure says where it has come up.** If the tools that fail report so in the name of the
stage that they are run for, a request is answered with a failure of a stage exactly if one of the
points of that stage has led to it. No failure is one of the optimizer's remarks, and every message
starts with the name of the stage. -/
theorem failure_names_stage (driver : Driver) (request : BuildRequest) (events : List Event)
    (failure : Failure) (hanswer : driver.Answers request events (.error failure))
    (hrunner : Toolchain.ToldByStage (Told events)) :
    (∀ stage, failure.stage = stage ↔
      ∃ point, point.stage = stage ∧ driver.Fault request events point failure) ∧
    failure.stage ≠ .optimizationReport ∧
    ∃ rest, failure.message = failure.stage.name ++ ": " ++ rest := by
  obtain ⟨point, fault⟩ := exists_fault hanswer
  refine ⟨fun stage => ⟨?_, ?_⟩, ?_, failure.message_eq⟩
  · rintro rfl
    exact ⟨point, (fault.stage_eq hrunner).symm, fault⟩
  · rintro ⟨other, rfl, hother⟩
    exact hother.stage_eq hrunner
  · rw [fault.stage_eq hrunner]
    cases point <;> decide

/-- A driver with one compiler. -/
def nvccDriver : Driver :=
  { config := {}, registry := { toolchains := Dict.ofList [("nvcc", Toolchain.plainNvcc)] } }

/-- A compiler that is not there is a failure of the stage that it is run for. -/
theorem failure_names_stage_missing_compiler :
    ∃ events, nvccDriver.Answers { compilerId := "nvcc" } events
        (.error (.spawn .primaryCompile "nvcc" .notFound)) ∧
      ∃ point, point.stage = .primaryCompile ∧
        nvccDriver.Fault { compilerId := "nvcc" } events point
          (.spawn .primaryCompile "nvcc" .notFound) := by
  have hfailed : Run (Toolchain.giveUp (.spawn .primaryCompile "nvcc" .notFound))
      [([], .answered (.enter .failed) ())]
      (.done (.error (.spawn .primaryCompile "nvcc" .notFound)) :
        Flow (Except Failure CompilationResult)) := .step (.answer (.enter .failed) _ ()) (.refl _)
  have hrun := (Toolchain.plainNvcc.opening_run { compilerId := "nvcc" } 0 "job"
    (.error (.spawn .primaryCompile "nvcc" .notFound))).append hfailed
  have hanswer : nvccDriver.Answers { compilerId := "nvcc" } _ _ := .ended rfl hrun
  refine ⟨_, hanswer, ?_⟩
  refine ((failure_names_stage nvccDriver _ _ _ hanswer ?_).1 _).mp rfl
  -- only the compiler has been run
  rintro call failure ⟨position, hmem⟩
  simp only [Toolchain.opening, List.cons_append, List.nil_append, List.mem_cons, Prod.mk.injEq,
    Act.answered.injEq, Query.runTool.injEq, reduceCtorEq, false_and, and_false, false_or,
    List.not_mem_nil, or_false] at hmem
  obtain ⟨-, rfl, hfailure⟩ := hmem
  obtain rfl := Except.error.inj (eq_of_heq hfailure)
  rfl

end Driver

/-! ### Sessions -/

/-- **The results of the jobs that are over**: each is one that the job may come to, or it is that
of a job that works too long. -/
theorem Agenda.results_run {α : Type} (terms : Terms α) (most : Nat) (machine : Machine)
    (slots : Slots Nat) (arrivals : List (Arrival α)) (htidy : ∀ a ∈ arrivals, a.flow.Tidy) :
    List.Forall₂ (fun arrival found => ∀ result, found = some result →
        (∃ events, Run arrival.flow events (.done result)) ∨
          ∃ limitMs, terms.limit = some (limitMs, result))
      arrivals (Agenda.run terms most (Agenda.ofArrivals machine slots arrivals)).results := by
  obtain ⟨actions, hactions⟩ := Reaches.run terms most (ofArrivals machine slots arrivals)
  have hlength := (follows_foldl terms (ofArrivals machine slots arrivals) actions).length
  rw [hactions, results, List.forall₂_map_right_iff, List.forall₂_iff_get]
  refine ⟨?_, fun i hi hphase result hresult => ?_⟩
  · rw [hlength]
    simp [ofArrivals]
  -- there is a result only of a job that is over
  split at hresult
  case h_1 last hlast =>
    obtain rfl := Option.some.inj hresult
    have hover : (actions.foldl (act terms) (ofArrivals machine slots arrivals)).phases[i]? =
        some (.over last) := by
      rw [← hlast]
      exact List.getElem?_eq_getElem hphase
    exact run_of_over (List.getElem?_eq_getElem hi) (htidy _ (List.getElem_mem hi)) hover
  case h_2 => cases hresult

namespace Session

/-- The jobs of some requests; one to an unknown compiler has none. -/
def jobs (registry : Registry) (requests : List BuildRequest) :
    List (Priority × Work CompilationResult) :=
  ((requests.map fun request => registry.find request.compilerId).zip requests).filterMap fun
    | (.ok toolchain, request) => some (Driver.priority request, toolchain.compileJob request)
    | _ => none

/-- Each of these jobs is that of a request to a compiler that is found. -/
theorem of_mem_jobs {registry : Registry} {requests : List BuildRequest}
    {job : Priority × Work CompilationResult} (h : job ∈ jobs registry requests) :
    ∃ request toolchain, registry.find request.compilerId = .ok toolchain ∧
      job = (Driver.priority request, toolchain.compileJob request) := by
  obtain ⟨⟨found, request⟩, hmem, hjob⟩ := List.mem_filterMap.mp h
  -- what is found stands beside the request that it is found for
  have hfound : registry.find request.compilerId = found := by
    obtain ⟨i, hi, he⟩ := List.getElem_of_mem hmem
    rw [List.getElem_zip, List.getElem_map] at he
    obtain ⟨hfound, rfl⟩ := Prod.mk.inj he
    exact hfound
  cases found with
  | error failure => cases hjob
  | ok toolchain => exact ⟨request, toolchain, hfound, (Option.some.inj hjob).symm⟩

theorem tidy_of_mem_jobs {registry : Registry} {requests : List BuildRequest}
    {job : Priority × Work CompilationResult} (h : job ∈ jobs registry requests) :
    job.2.run.Tidy := by
  obtain ⟨request, toolchain, -, rfl⟩ := of_mem_jobs h
  exact (toolchain.compileJob_abreast request).tidy

/-- The result of a job that comes to a session: one that it may come to, or it is overdue. -/
def Settles (session : Session) (job : Priority × Work CompilationResult)
    (result : Except Failure CompilationResult) : Prop :=
  (∃ events, Run job.2.run events (.done result)) ∨ result = .error session.overdue

/-- **The jobs that come to a session have such results**, unless one of them crashes. -/
theorem runAll_settles (session : Session) {jobs : List (Priority × Work CompilationResult)}
    {results : List (Except Failure CompilationResult)} (htidy : ∀ job ∈ jobs, job.2.run.Tidy)
    (h : (session.runAll jobs).2 = some results) : List.Forall₂ session.Settles jobs results := by
  have hall := Agenda.results_run session.terms Agenda.patience session.machine session.slots
    (jobs.map fun (priority, work) => { due := session.machine.now, priority, flow := work.run })
    fun arrival harrival => by
      obtain ⟨job, hjob, rfl⟩ := List.mem_map.mp harrival
      exact htidy job hjob
  rw [List.forall₂_map_left_iff] at hall
  obtain ⟨-, he⟩ := Option.ite_none_left_eq_some.mp h
  obtain rfl := Option.some.inj he
  rw [List.forall₂_map_right_iff]
  refine hall.imp fun job found hfound => ?_
  cases found with
  | none => exact .inr rfl
  | some result =>
    rcases hfound result rfl with hrun | ⟨limitMs, hlimit⟩
    · exact .inl hrun
    · exact .inr (Prod.mk.inj (Option.some.inj hlimit)).2.symm

/-- Jobs that have no more places than there can be have results. -/
theorem exists_results (session : Session) {jobs : List (Priority × Work CompilationResult)}
    (htidy : ∀ job ∈ jobs, job.2.run.Tidy) (hroomy : ∀ job ∈ jobs, job.2.run.Roomy) :
    ∃ results, (session.runAll jobs).2 = some results := by
  obtain ⟨actions, hactions⟩ := Agenda.Reaches.run session.terms Agenda.patience
    (Agenda.ofArrivals session.machine session.slots (jobs.map fun (priority, work) =>
      { due := session.machine.now, priority, flow := work.run }))
  have hcrashed := congrArg Agenda.crashed hactions
  rw [Agenda.crashed_foldl] at hcrashed
  · exact ⟨_, if_neg (Bool.eq_false_iff.mp hcrashed)⟩
  · intro arrival harrival
    obtain ⟨job, hjob, rfl⟩ := List.mem_map.mp harrival
    exact htidy job hjob
  · intro arrival harrival
    obtain ⟨job, hjob, rfl⟩ := List.mem_map.mp harrival
    exact hroomy job hjob

/-- The results of jobs in their places among the requests. -/
theorem fillIn_forall₂ {session : Session} {requests : List BuildRequest}
    {results : List (Except Failure CompilationResult)}
    (h : List.Forall₂ session.Settles (jobs session.driver.registry requests) results) :
    List.Forall₂ (fun request result => ∃ events, session.driver.Answers request events result)
      requests (fillIn (requests.map fun request => session.driver.registry.find request.compilerId)
        results) := by
  induction requests generalizing results with
  | nil => exact .nil
  | cons request requests ih =>
    cases hfind : session.driver.registry.find request.compilerId with
    | error failure =>
      rw [jobs, List.map_cons, hfind] at h
      rw [List.map_cons, hfind]
      exact .cons ⟨_, .refused hfind⟩ (ih h)
    | ok toolchain =>
      rw [jobs, List.map_cons, hfind] at h
      rw [List.map_cons, hfind]
      obtain ⟨result, rest, hresult, hrest, rfl⟩ := List.forall₂_cons_left_iff.mp h
      refine .cons ?_ (ih hrest)
      rcases hresult with ⟨events, hrun⟩ | rfl
      · exact ⟨events, .ended hfind hrun⟩
      -- nothing is known of an overdue job but that it has begun
      · refine ⟨[], .overdue hfind (.refl _) ?_⟩
        rw [Toolchain.compileJob_run_eq]
        rfl

/-- **What a session answers**: each request gets an answer of the driver, unless a job crashes. -/
theorem compile_answers {session : Session} {requests : List BuildRequest}
    {results : List (Except Failure CompilationResult)}
    (h : (session.compile requests).2 = some results) :
    List.Forall₂ (fun request result => ∃ events, session.driver.Answers request events result)
      requests results := by
  obtain ⟨found, hfound, rfl⟩ := Option.map_eq_some_iff.mp h
  exact fillIn_forall₂ (runAll_settles session (fun _ => tidy_of_mem_jobs) hfound)

/-- **A session answers all requests** if its compilers are configured with no more places for
artifacts than there can be. -/
theorem exists_answers {session : Session} {requests : List BuildRequest}
    (hroom : ∀ id toolchain, session.driver.registry.find id = .ok toolchain →
      1 ≤ toolchain.limits.maxDeviceTasks.toNat ∧
        toolchain.limits.maxDeviceTasks.toNat ≤ Rota.mostPlaces) :
    ∃ results, (session.compile requests).2 = some results := by
  obtain ⟨results, hresults⟩ := session.exists_results (fun _ => tidy_of_mem_jobs)
    fun job (hjob : job ∈ jobs session.driver.registry requests) => by
      obtain ⟨request, toolchain, hfound, rfl⟩ := of_mem_jobs hjob
      obtain ⟨hk, hmost⟩ := hroom _ _ hfound
      exact toolchain.compileJob_roomy request hk hmost
  exact ⟨_, congrArg (Option.map _) hresults⟩

end Session

end AsmInspect

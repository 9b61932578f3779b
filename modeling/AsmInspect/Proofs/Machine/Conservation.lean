import AsmInspect.Machine.Session
import AsmInspect.Proofs.Machine.Placement
import AsmInspect.Proofs.Machine.ToolRuns
import AsmInspect.Proofs.Machine.Undertaking
import Mathlib.Algebra.BigOperators.Group.Finset.Piecewise
import Mathlib.Algebra.Order.BigOperators.Group.Finset

/-!
# Jobs do not lose slots

Jobs are put in the queue, look for a slot, go on, get answers, end, run out of time, crash and are
dropped, in any order, and others ask for slots beside them. Whatever the order, every slot is free
or held by exactly one of them, and no more jobs are at work than there are slots. The tools that
run on the machine belong to the jobs at work, and each of these runs its compiler alone, so no more
compilers run than there are slots: none goes on for a job that has left its slot to another.

The machine's own order is one of these orders (`Reaches.run`), so what is said here of all orders
is said of what the machine does.

## Main definitions

* `Task`: what is put in the queue
* `Agenda.afterActions`: the agenda after what has happened
* `Agenda.jobsAtWork`: the jobs at work
* `Agenda.toolsFor`, `Agenda.compilersAtWork`: the tools and the compilers that they run
* `Session.agendaAfter`: the agenda of a driver that answers requests

## Main results

* `Settled.card_jobsAtWork_le`, `compilersAtWork_le`: jobs at work hold slots, and run their
  compilers alone
* `perm_toolsFor`: the tools of the jobs at work, those of requests and the others
* `slots_conserved`: no slot is lost, and no slot is held twice
* `Session.compile_slots`, `Session.compile_conserves`: what this says of a driver that answers
  requests
-/

namespace AsmInspect

variable {α : Type}

/-- What is put in the queue. -/
inductive Task (α : Type) : Type 1 where
  /-- The job of a request, whose result is handed on. -/
  | compile (toolchain : Toolchain) (request : BuildRequest)
      (finish : Except Failure CompilationResult → α)
  /-- Any other job. -/
  | other (flow : Flow α)

/-- The flow of a task. -/
def Task.flow : Task α → Flow α
  | compile toolchain request finish =>
    (toolchain.compileJob request).run.bind fun result => .done (finish result)
  | other flow => flow

/-- Whether a task is the job of a request. -/
def Task.isRequest : Task α → Bool
  | compile .. => true
  | other _ => false

namespace Agenda

/-- The arrivals of tasks that come at some times. -/
def arrivals (tasks : List (Nat × Priority × Task α)) : List (Arrival α) :=
  tasks.map fun (due, priority, task) => { due, priority, flow := task.flow }

/-- The agenda after some actions, when there were `slots` free slots and nobody had come. -/
def afterActions (terms : Terms α) (machine : Machine) (slots : Nat)
    (tasks : List (Nat × Priority × Task α)) (actions : List (Action α)) : Agenda α :=
  actions.foldl (act terms) (ofArrivals machine { available := slots } (arrivals tasks))

/-- Whether a job is at work. -/
def isWorking (agenda : Agenda α) (job : Nat) : Bool :=
  match agenda.phases[job]? with
  | some (.working _) => true
  | _ => false

/-- The jobs at work. -/
def jobsAtWork (agenda : Agenda α) : Finset Nat :=
  (Finset.range agenda.phases.length).filter fun job => agenda.isWorking job

/-- The tool runs that a job at work has asked for, if its task is wanted. -/
def runsFor (wanted : Task α → Bool) : Option (Nat × Priority × Task α) → Option (Phase α) →
    List ToolCall
  | some (_, _, task), some phase => if wanted task then phase.tools else []
  | _, _ => []

/-- The tool runs that the jobs at work have asked for, of all tasks that are wanted. -/
def toolsFor (wanted : Task α → Bool) (tasks : List (Nat × Priority × Task α))
    (agenda : Agenda α) : List ToolCall :=
  (List.range agenda.phases.length).flatMap fun job =>
    runsFor wanted tasks[job]? agenda.phases[job]?

/-- How many compilers run for requests. -/
def compilersAtWork (tasks : List (Nat × Priority × Task α)) (agenda : Agenda α) : Nat :=
  (agenda.toolsFor Task.isRequest tasks).countP (·.isPrimary)

/-! ### The compilers -/

/-- The job of a request runs its compiler alone, whatever has happened. -/
theorem lone_of_compile {terms : Terms α} {machine : Machine} {slots job : Nat} {phase : Phase α}
    {tasks : List (Nat × Priority × Task α)} {actions : List (Action α)} {due : Nat}
    {priority : Priority} {toolchain : Toolchain} {request : BuildRequest}
    {finish : Except Failure CompilationResult → α}
    (htask : tasks[job]? = some (due, priority, .compile toolchain request finish))
    (hphase : (afterActions terms machine slots tasks actions).phases[job]? = some phase) :
    phase.Lone := by
  obtain ⟨first, hfirst, hlater⟩ := (follows_foldl terms _ actions).goes job phase hphase
  refine lone_of_later ?_ hlater
  simp only [ofArrivals, arrivals, List.getElem?_map, htask, Option.map_some,
    Option.some.injEq] at hfirst
  subst hfirst
  exact (toolchain.compileJob_abreast request).bind fun _ => trivial

/-! ### Counting -/

section Counting

variable {terms : Terms α} {total : Nat} {agenda : Agenda α}

theorem mem_jobsAtWork {job : Nat} :
    job ∈ agenda.jobsAtWork ↔ ∃ work, agenda.phases[job]? = some (.working work) := by
  rw [jobsAtWork, Finset.mem_filter, Finset.mem_range, isWorking]
  constructor
  · rintro ⟨-, hworks⟩
    split at hworks
    · next work hphase => exact ⟨work, hphase⟩
    · cases hworks
  · rintro ⟨work, hphase⟩
    refine ⟨(List.getElem?_eq_some_iff.mp hphase).1, ?_⟩
    rw [hphase]

/-- **No more jobs are at work than hold slots.** -/
theorem Settled.card_jobsAtWork_le (h : agenda.Settled total) :
    agenda.jobsAtWork.card ≤ agenda.slots.holders.length := by
  -- each job at work is found among the holders
  have hsub : agenda.jobsAtWork ⊆ agenda.slots.holders.toFinset := by
    intro job hjob
    obtain ⟨work, hphase⟩ := mem_jobsAtWork.mp hjob
    exact (h.stands job _ hphase).holders.mpr rfl
  exact (Finset.card_le_card hsub).trans (List.toFinset_card_le _)

/-- **No more compilers run than jobs are at work**, since each job runs its compiler alone. -/
theorem compilersAtWork_le {tasks : List (Nat × Priority × Task α)}
    (hlone : ∀ (job : Nat) due priority toolchain request finish (phase : Phase α),
      tasks[job]? = some (due, priority, Task.compile toolchain request finish) →
        agenda.phases[job]? = some phase → phase.Lone) :
    agenda.compilersAtWork tasks ≤ agenda.jobsAtWork.card := by
  -- both are sums over the jobs, and the one is below the other at each job
  rw [jobsAtWork, Finset.card_filter, compilersAtWork, toolsFor, List.countP_flatMap]
  show ∑ job ∈ Finset.range agenda.phases.length,
    (runsFor Task.isRequest tasks[job]? agenda.phases[job]?).countP (·.isPrimary) ≤ _
  refine Finset.sum_le_sum fun job _ => ?_
  unfold runsFor
  split
  case h_1 due priority task phase htask hphase =>
    cases task with
    | other => exact Nat.zero_le _
    | compile toolchain request finish =>
      rw [Task.isRequest, if_pos rfl]
      cases phase with
      | working work =>
        have hworks : agenda.isWorking job = true := by simp [isWorking, hphase]
        rw [if_pos hworks, Phase.tools, work.countP_toolsOf]
        exact (hlone job _ _ _ _ _ _ htask hphase).most
      | _ => exact Nat.zero_le _
  case h_2 => exact Nat.zero_le _

/-- **The tools of the jobs at work** are those of requests and those of other tasks. -/
theorem perm_toolsFor {tasks : List (Nat × Priority × Task α)}
    (hlength : agenda.phases.length = tasks.length) :
    agenda.toolsAtWork.Perm (agenda.toolsFor Task.isRequest tasks ++
      agenda.toolsFor (!·.isRequest) tasks) := by
  refine .trans ?_ (List.flatMap_append_perm ..).symm
  -- each job has a task, so its tools are on one of the two sides
  have hphases : (List.range agenda.phases.length).map (agenda.phases[·]?) =
      agenda.phases.map some := by
    refine List.ext_getElem (by simp) fun job hjob _ => ?_
    simp at hjob ⊢
  have hall : agenda.toolsAtWork =
      (agenda.phases.map some).flatMap fun phase => (phase.map Phase.tools).getD [] := by
    rw [toolsAtWork, List.flatMap_map]
    rfl
  rw [hall, ← hphases, List.flatMap_map]
  refine .of_eq (List.flatMap_congr fun job hjob => ?_)
  have hlt := List.mem_range.mp hjob
  obtain ⟨phase, hphase⟩ : ∃ phase, agenda.phases[job]? = some phase :=
    ⟨_, List.getElem?_eq_getElem hlt⟩
  obtain ⟨⟨due, priority, task⟩, htask⟩ : ∃ task, tasks[job]? = some task :=
    ⟨_, List.getElem?_eq_getElem (hlength ▸ hlt)⟩
  rw [hphase, htask, runsFor, runsFor]
  cases task.isRequest <;> simp

/-- The urgent waiters are as many as the number that is kept says. -/
theorem Settled.highWaiting_eq (h : agenda.Settled total) :
    agenda.slots.highWaiting = (agenda.slots.waitingIds .high).card := by
  have hnodup : ((agenda.slots.waiters.filter (·.priority == .high)).map (·.id)).Nodup :=
    h.balanced.waiters_nodup.sublist (List.filter_sublist.map _)
  rw [h.balanced.counted, Slots.urgent, Slots.waitingIds, List.toFinset_card_of_nodup hnodup,
    List.length_map, List.countP_eq_length_filter, Nat.add_zero]

end Counting

section AfterActions

variable (terms : Terms α) (machine : Machine) (slots : Nat)
  (tasks : List (Nat × Priority × Task α)) (actions : List (Action α))

/-- Jobs stand where their phases say, whatever has happened. -/
theorem settled_afterActions : (afterActions terms machine slots tasks actions).Settled slots :=
  settled_foldl (settled_ofArrivals machine slots (arrivals tasks)) actions

/-- The tools that run are those that ran before, and those of the jobs at work. -/
theorem perm_running_afterActions :
    (afterActions terms machine slots tasks actions).machine.running.Perm (machine.running ++
      ((afterActions terms machine slots tasks actions).toolsFor Task.isRequest tasks ++
        (afterActions terms machine slots tasks actions).toolsFor (!·.isRequest) tasks)) := by
  have haccount : (afterActions terms machine slots tasks actions).Accounted machine.running :=
    accounted_foldl (accounted_ofArrivals ..) actions
  refine haccount.trans ((perm_toolsFor ?_).append_left _)
  rw [afterActions, (follows_foldl terms _ actions).length]
  simp [ofArrivals, arrivals]

/-- **No more compilers run for requests than there are slots.** -/
theorem compilersAtWork_afterActions_le :
    (afterActions terms machine slots tasks actions).compilersAtWork tasks ≤ slots := by
  let agenda := afterActions terms machine slots tasks actions
  have hsettled : agenda.Settled slots := settled_afterActions ..
  have hcompilers : agenda.compilersAtWork tasks ≤ agenda.jobsAtWork.card :=
    compilersAtWork_le fun job _ _ _ _ _ _ htask hphase => lone_of_compile htask hphase
  have hconserved := hsettled.balanced.conserved
  have hjobs := hsettled.card_jobsAtWork_le
  show agenda.compilersAtWork tasks ≤ slots
  omega

/-- **No more compilers run than there are slots**, apart from those that ran before and those that
tasks run which are no requests. -/
theorem countP_running_le :
    (afterActions terms machine slots tasks actions).machine.running.countP (·.isPrimary) ≤
      machine.running.countP (·.isPrimary) + slots +
        ((afterActions terms machine slots tasks actions).toolsFor (!·.isRequest) tasks).countP
          (·.isPrimary) := by
  have hmost := compilersAtWork_afterActions_le terms machine slots tasks actions
  have hcount := (perm_running_afterActions terms machine slots tasks actions).countP_eq
    (·.isPrimary)
  rw [List.countP_append, List.countP_append] at hcount
  rw [compilersAtWork] at hmost
  omega

end AfterActions

/-- **No slot is lost, and none is held twice.** After any actions of jobs and of others, in any
order: each slot is free or held by exactly one of them; the urgent waiters are counted; the holders
and the waiters among the jobs are those at work and those that wait; no number goes below zero or
above its bound; no more jobs are at work than there are slots; and the tools that run on the
machine are those that ran before and those of the jobs at work, so that no more compilers run for
requests than there are slots. -/
theorem slots_conserved (terms : Terms α) (machine : Machine) (slots : Nat)
    (tasks : List (Nat × Priority × Task α)) (actions : List (Action α)) :
    let agenda := afterActions terms machine slots tasks actions
    (agenda.slots.available + agenda.slots.holders.length = slots ∧ agenda.slots.holders.Nodup) ∧
    (agenda.slots.highWaiting = (agenda.slots.waitingIds .high).card ∧
      agenda.slots.highWaiting ≤ agenda.slots.waiters.length) ∧
    (∀ job phase, agenda.phases[job]? = some phase →
      (job ∈ agenda.slots.holders ↔ ∃ work, phase = .working work) ∧
      ∀ priority, job ∈ agenda.slots.waitingIds priority ↔
        ∃ arrival, phase = .waiting arrival ∧ arrival.priority = priority) ∧
    (∀ holder ∈ agenda.slots.holders, agenda.slots.available < slots) ∧
    (∀ w ∈ agenda.slots.waiters, w.priority = .high → 0 < agenda.slots.highWaiting) ∧
    (agenda.slots.holders = [] → agenda.slots.available = slots) ∧
    agenda.jobsAtWork.card ≤ slots ∧
    agenda.machine.running.Perm (machine.running ++ (agenda.toolsFor Task.isRequest tasks ++
      agenda.toolsFor (!·.isRequest) tasks)) ∧
    agenda.compilersAtWork tasks ≤ slots ∧
    agenda.machine.running.countP (·.isPrimary) ≤ machine.running.countP (·.isPrimary) + slots +
      (agenda.toolsFor (!·.isRequest) tasks).countP (·.isPrimary) := by
  intro agenda
  have hsettled : agenda.Settled slots := settled_afterActions ..
  have hconserved := hsettled.balanced.conserved
  have hjobs := hsettled.card_jobsAtWork_le
  have hhigh := hsettled.highWaiting_eq
  refine ⟨⟨hconserved, (List.nodup_append.mp hsettled.balanced.distinct).1⟩, ⟨hhigh, ?_⟩, ?_, ?_,
    ?_, ?_, by omega, perm_running_afterActions .., compilersAtWork_afterActions_le ..,
    countP_running_le ..⟩
  · rw [hsettled.balanced.counted]
    exact List.countP_le_length
  · intro job phase hphase
    have hstands := hsettled.stands job phase hphase
    refine ⟨List.mem_toFinset.symm.trans (hstands.holders.trans ?_), fun priority =>
      (hstands.waiting priority).trans ?_⟩
    · cases phase <;> simp [Phase.standing]
    · cases phase <;> simp [Phase.standing]
  · intro holder hholder
    have hpos := List.length_pos_of_mem hholder
    omega
  · intro w hw hp
    rw [hhigh, Finset.card_pos]
    exact ⟨w.id, Slots.mem_waitingIds.mpr ⟨w, hw, hp, rfl⟩⟩
  · intro hnone
    rw [hnone] at hconserved
    simpa using hconserved

end Agenda

/-! ### Sessions -/

namespace Session

variable (session : Session) (requests : List BuildRequest)

/-- The tasks of some requests; one to an unknown compiler has none. -/
def tasks : List (Nat × Priority × Task (Except Failure CompilationResult)) :=
  let found := requests.map fun request => session.driver.registry.find request.compilerId
  (found.zip requests).filterMap fun
    | (.ok toolchain, request) =>
      some (session.machine.now, Driver.priority request, .compile toolchain request id)
    | _ => none

/-- What the jobs of a session work under. -/
def terms : Terms (Except Failure CompilationResult) :=
  { tools := session.tools
    limit := some (session.driver.config.limits.jobTimeoutMs.toNat, .error session.overdue) }

/-- The agenda of a session after so many things have happened to some requests. -/
def agendaAfter (most : Nat) : Agenda (Except Failure CompilationResult) :=
  Agenda.run session.terms most
    (Agenda.ofArrivals session.machine session.slots (Agenda.arrivals (session.tasks requests)))

/-- The slots of a session come from its agenda. -/
theorem compile_slots :
    (session.compile requests).1.slots = (session.agendaAfter requests Agenda.patience).slots := by
  have harrivals : Agenda.arrivals (session.tasks requests) =
      (((requests.map fun request => session.driver.registry.find request.compilerId).zip
        requests).filterMap fun
          | (.ok toolchain, request) =>
            some (Driver.priority request, toolchain.compileJob request)
          | _ => none).map fun (priority, work) =>
            { due := session.machine.now, priority, flow := work.run } := by
    simp only [Agenda.arrivals, tasks, List.map_filterMap]
    congr 1
    funext (result, request)
    cases result with
    | error failure => rfl
    | ok toolchain =>
      simp only [Option.map_some, Task.flow, id]
      rw [Flow.bind_done]
  simp only [compile, runAll, agendaAfter, harrivals]
  rfl

/-- All tasks of a session are requests. -/
theorem toolsFor_tasks (agenda : Agenda (Except Failure CompilationResult)) :
    agenda.toolsFor (!·.isRequest) (session.tasks requests) = [] := by
  refine List.flatMap_eq_nil_iff.mpr fun job _ => ?_
  unfold Agenda.runsFor
  split
  case h_1 due priority task phase htask _ =>
    obtain ⟨⟨found, request⟩, -, hfound⟩ := List.mem_filterMap.mp (List.mem_of_getElem? htask)
    cases found with
    | error failure => cases hfound
    | ok toolchain =>
      obtain ⟨-, -, rfl⟩ := Prod.mk.inj (Option.some.inj hfound)
      rfl
  case h_2 => rfl

/-- **While a driver answers requests, no slot is lost**, and no more compilers run on the machine
than the configuration allows, apart from those that it ran before. -/
theorem compile_conserves (driver : Driver) (tools : Tools) (machine : Machine) (most : Nat) :
    let session := ofDriver driver tools machine
    let limit := driver.config.limits.maxConcurrentJobs.toNat
    let agenda := session.agendaAfter requests most
    agenda.slots.available + agenda.slots.holders.length = limit ∧
      agenda.machine.running.countP (·.isPrimary) ≤
        machine.running.countP (·.isPrimary) + limit := by
  intro session limit agenda
  obtain ⟨actions, hactions⟩ := Agenda.Reaches.run session.terms most
    (Agenda.ofArrivals machine { available := limit } (Agenda.arrivals (session.tasks requests)))
  have hagenda : agenda =
      Agenda.afterActions session.terms machine limit (session.tasks requests) actions := hactions
  rw [hagenda]
  refine ⟨(Agenda.settled_afterActions ..).balanced.conserved, ?_⟩
  have hmost :=
    Agenda.countP_running_le session.terms machine limit (session.tasks requests) actions
  rwa [session.toolsFor_tasks requests, List.countP_nil, Nat.add_zero] at hmost

end Session

end AsmInspect

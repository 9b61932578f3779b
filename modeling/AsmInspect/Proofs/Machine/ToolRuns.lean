import AsmInspect.Proofs.Machine.Phases
import Mathlib.Data.List.Perm.Basic
import Mathlib.Data.List.Count

/-!
# Tools run for jobs at work

The machine runs no tool that nobody waits for: whatever jobs do, its tool runs are those that were
there before any of them came, and those that the jobs at work have asked for. A job that ends, that
runs out of time, crashes or is dropped takes its tool runs with it, and a question that a job has
given up takes its own.

The tool runs are kept by the machine and the questions by the jobs, each for itself. That they
agree is an invariant of every action, which one job at a time may change.

## Main definitions

* `Agenda.toolsAtWork`: the tool runs that the jobs at work have asked for
* `Agenda.Accounted`: the tool runs of the machine are these and some others

## Main results

* `passAll_runs`: what a job that asks all its questions does to the tool runs
* `accounted_act`, `accounted_foldl`: every action keeps the account
-/

namespace AsmInspect

variable {α : Type}

/-! ### Tool runs that are over -/

/-- What is left of the tool runs when some of them are over. -/
theorem Machine.perm_leave {machine : Machine} {kept calls : List ToolCall}
    (h : machine.running.Perm (kept ++ calls)) : (machine.leave calls).running.Perm kept := by
  show (calls.foldl List.erase machine.running).Perm kept
  -- the same run may be there more than once, so it is counted how often each is left
  rw [← List.diff_eq_foldl, List.perm_iff_count]
  intro call
  rw [List.count_diff, h.count_eq, List.count_append, Nat.add_sub_cancel]

@[simp] theorem Machine.foldl_removeDirectory_running (machine : Machine) (paths : List String) :
    (paths.foldl Machine.removeDirectory machine).running = machine.running := by
  induction paths generalizing machine with
  | nil => rfl
  | cons path paths ih => rw [List.foldl_cons, ih, Machine.removeDirectory]

namespace Undertaking

theorem toolsOf_append (questions more : List (Flow.Position × Query)) :
    toolsOf (questions ++ more) = toolsOf questions ++ toolsOf more := List.flatMap_append

theorem toolsOf_singleton (p : Flow.Position) (query : Query) :
    toolsOf [(p, query)] = query.tools := List.flatMap_singleton ..

/-- The tool runs among some questions are those of one of them and of the others. -/
theorem perm_toolsOf_erase {questions : List (Flow.Position × Query)} {p : Flow.Position}
    {query : Query} (h : (p, query) ∈ questions) :
    (toolsOf questions).Perm (toolsOf (questions.erase (p, query)) ++ query.tools) :=
  ((List.perm_cons_erase h).flatMap_right _).trans List.perm_append_comm

end Undertaking

namespace Agenda

open Undertaking

/-! ### The tool runs of a job -/

section Job

variable (terms : Terms α) (job : Nat) {others : List ToolCall} {agenda : Agenda α}
  {work : Undertaking α}

/-- **A new question** starts a tool run if it asks for one; a run that takes no time is over. -/
theorem pass_runs {p : Flow.Position} {query : Query} (hnew : (p, query) ∉ work.asked)
    (h : agenda.machine.running.Perm (others ++ toolsOf work.asked)) :
    (pass terms job agenda work p query).1.machine.running.Perm
      (others ++ toolsOf (pass terms job agenda work p query).2.asked) := by
  have hanswered : work.asked.erase (p, query) = work.asked := List.erase_of_not_mem hnew
  have hkept (hidle : query.tools = []) : agenda.machine.running.Perm
      (others ++ toolsOf (work.asked ++ [(p, query)])) := by
    rwa [toolsOf_append, toolsOf_singleton, hidle, List.append_nil]
  cases query with
  | runTool call =>
    have hbegun : (agenda.machine.begin terms.tools call).1.running.Perm
        ((others ++ toolsOf work.asked) ++ [call]) :=
      (h.cons call).trans (List.perm_append_singleton ..).symm
    simp only [pass]
    split
    · show (Machine.leave _ [call]).running.Perm (others ++ toolsOf (work.asked.erase _))
      rw [hanswered]
      exact Machine.perm_leave hbegun
    · show (agenda.machine.begin terms.tools call).1.running.Perm _
      rwa [toolsOf_append, toolsOf_singleton, Query.tools, ← List.append_assoc]
  | clock | enter =>
    show agenda.machine.running.Perm (others ++ toolsOf (work.asked.erase _))
    rwa [hanswered]
  | readText | writeText | listNames | fileExists | jobDirectory => exact hkept rfl

/-- What nobody asks any more is forgotten, and its tool runs are over. -/
theorem forget_runs (h : agenda.machine.running.Perm (others ++ toolsOf work.asked)) :
    (abandon work.stale agenda.machine).running.Perm
      (others ++ toolsOf (work.asked.filter (!work.stale.contains ·))) := by
  refine Machine.perm_leave (h.trans ?_)
  -- a question that is asked is stale or is kept
  have hstale : work.asked.filter (work.stale.contains ·) = work.stale := by
    refine List.filter_congr fun question hmem => ?_
    simp [stale, hmem]
  have hsplit := (List.filter_append_perm (work.stale.contains ·) work.asked).symm
  rw [hstale] at hsplit
  rw [List.append_assoc, ← toolsOf_append]
  exact ((hsplit.trans List.perm_append_comm).flatMap_right _).append_left others

/-- **A job that asks all its questions** keeps the account of its tool runs. -/
theorem passAll_runs (most : Nat) (agenda : Agenda α) (work : Undertaking α)
    (h : agenda.machine.running.Perm (others ++ toolsOf work.asked)) :
    (passAll terms job most agenda work).1.machine.running.Perm
      (others ++ toolsOf (passAll terms job most agenda work).2.asked) := by
  -- each turn forgets what is stale before it passes a question on, and both keep the account
  induction most generalizing agenda work with
  | zero => exact h
  | succ most ih =>
    simp only [passAll]
    split
    · exact forget_runs h
    · next p query rest hfresh =>
      have hnew := (mem_fresh.mp (hfresh ▸ List.mem_cons_self)).2
      exact ih _ _ (pass_runs terms job hnew (forget_runs h))

end Job

/-! ### The tool runs of all jobs -/

/-- The tool runs that a job has asked for. -/
def Phase.tools : Phase α → List ToolCall
  | .working work => toolsOf work.asked
  | _ => []

theorem Phase.Ended.tools {phase : Phase α} (h : phase.Ended) : phase.tools = [] := by
  cases phase with
  | coming | waiting | working => cases h
  | _ => rfl

/-- The tool runs that the jobs at work have asked for. -/
def toolsAtWork (agenda : Agenda α) : List ToolCall := agenda.phases.flatMap Phase.tools

/-- Those that all jobs but one have asked for. -/
def toolsBut (agenda : Agenda α) (job : Nat) : List ToolCall :=
  (agenda.phases.eraseIdx job).flatMap Phase.tools

/-- **The tool runs of the machine** are those that the jobs at work have asked for, and some
others. -/
def Accounted (others : List ToolCall) (agenda : Agenda α) : Prop :=
  agenda.machine.running.Perm (others ++ agenda.toolsAtWork)

section Account

variable {terms : Terms α} {others : List ToolCall} {agenda next : Agenda α} {job : Nat}
  {phase : Phase α}

theorem perm_toolsAtWork (hphase : agenda.phases[job]? = some phase) :
    agenda.toolsAtWork.Perm (agenda.toolsBut job ++ phase.tools) := by
  obtain ⟨hjob, rfl⟩ := List.getElem?_eq_some_iff.mp hphase
  exact ((List.getElem_cons_eraseIdx_perm hjob).symm.flatMap_right _).trans List.perm_append_comm

/-- The account, with one job set apart from the others. -/
theorem accounted_iff (hphase : agenda.phases[job]? = some phase) :
    agenda.Accounted others ↔
      agenda.machine.running.Perm ((others ++ agenda.toolsBut job) ++ phase.tools) := by
  rw [Accounted, List.append_assoc]
  exact ((perm_toolsAtWork hphase).append_left others).congr_right _

/-- **What one job does** to its own tool runs keeps the account. -/
theorem Accounted.set (phase' : Phase α) (hphase : agenda.phases[job]? = some phase)
    (hphases : next.phases = agenda.phases.set job phase')
    (h : next.machine.running.Perm ((others ++ agenda.toolsBut job) ++ phase'.tools)) :
    next.Accounted others := by
  have hjob := (List.getElem?_eq_some_iff.mp hphase).1
  have hnext : next.phases[job]? = some phase' := by
    rw [hphases, List.getElem?_set_self hjob]
  have hbut : next.toolsBut job = agenda.toolsBut job := by
    rw [toolsBut, hphases, List.eraseIdx_set_eq, toolsBut]
  rwa [accounted_iff hnext, hbut]

/-- A job that stops takes its tool runs with it. -/
theorem stop_runs {work : Undertaking α} {phase : Phase α}
    (h : agenda.machine.running.Perm (others ++ toolsOf work.asked)) :
    (agenda.stop job work phase).machine.running.Perm others := by
  rw [stop, withSlots_machine]
  show (work.directories.foldl Machine.removeDirectory
    (abandon work.asked agenda.machine)).running.Perm others
  rw [Machine.foldl_removeDirectory_running]
  exact Machine.perm_leave h

/-- A job goes on. -/
theorem Accounted.goOn (h : agenda.Accounted others) (hphase : agenda.phases[job]? = some phase)
    {work : Undertaking α} (hwork : toolsOf work.asked = phase.tools) :
    (agenda.goOn terms job work).Accounted others := by
  have hasked := passAll_runs terms job patience agenda work
    (hwork ▸ (accounted_iff hphase).mp h)
  obtain ⟨-, hphases⟩ := passAll_frame agenda terms job patience work
  rcases goOn_cases terms job agenda work with he | ⟨record, phase', hended, -, he⟩
  · rw [he]
    refine .set (.working (asked terms job agenda work).2) hphase ?_ hasked
    rw [setPhase_phases, asked, hphases]
  · rw [he]
    refine .set phase' hphase ?_ ?_
    · rw [stop_phases]
      exact congrArg (·.set job phase') hphases
    · rw [hended.tools, List.append_nil]
      exact stop_runs hasked

/-- A job with a slot begins with nothing asked, and one without waits. -/
theorem Accounted.startOrWait (h : agenda.Accounted others)
    (hphase : agenda.phases[job]? = some phase) (hidle : phase.tools = []) (arrival : Arrival α) :
    (agenda.startOrWait terms job arrival).Accounted others := by
  unfold Agenda.startOrWait
  split
  · obtain ⟨record, timers, he⟩ := start_frame terms job agenda arrival
    have hrecorded : Accounted others { agenda with record } := h
    have hgoes : Accounted others (Agenda.goOn terms { agenda with record } job
      (opening terms agenda arrival)) := hrecorded.goOn hphase hidle.symm
    rw [he]
    exact hgoes
  · refine .set (.waiting arrival) hphase rfl ?_
    have hrunning := (accounted_iff hphase).mp h
    rwa [hidle] at hrunning

/-- **Every action keeps the account.** -/
theorem accounted_act (h : agenda.Accounted others) (action : Action α) :
    (agenda.act terms action).Accounted others := by
  -- slots are given and taken without any tool
  have hslots (slots : Slots Nat) : (agenda.withSlots slots).Accounted others := by
    rwa [Accounted, toolsAtWork, withSlots_machine, withSlots_phases]
  cases action with
  | look job =>
    simp only [act, look]
    split
    · next arrival hphase =>
      split
      · exact (hslots _).startOrWait (by rwa [withSlots_phases]) rfl arrival
      · exact h
    · next arrival hphase => exact (hslots _).startOrWait (by rwa [withSlots_phases]) rfl arrival
    · next work hphase => exact h.goOn hphase rfl
    · exact h
  | deliver job p query answering =>
    simp only [act, deliver]
    split
    · next work hphase =>
      split
      · next hasked =>
        -- the question was asked, so its tool run is one of the job's
        have hmem : (p, query) ∈ work.asked := by simpa using hasked
        refine .set (.working (work.resume p query _)) hphase (wake_phases ..) ?_
        rw [wake_machine]
        show (answering.answer agenda.machine).1.running.Perm
          (others ++ agenda.toolsBut job ++ toolsOf (work.asked.erase (p, query)))
        rw [answering.running]
        refine Machine.perm_leave (((accounted_iff hphase).mp h).trans ?_)
        rw [List.append_assoc _ _ query.tools]
        exact (perm_toolsOf_erase hmem).append_left _
      · exact h
    · exact h
  | drop job =>
    simp only [act, drop]
    split
    · next hphase => exact .set .dropped hphase rfl ((accounted_iff hphase).mp h)
    · next hphase =>
      refine .set .dropped hphase (withSlots_phases ..) ?_
      rw [withSlots_machine]
      exact (accounted_iff hphase).mp h
    · next work hphase =>
      refine .set .dropped hphase (stop_phases ..) ?_
      show (agenda.stop job work .dropped).machine.running.Perm
        (others ++ agenda.toolsBut job ++ [])
      rw [List.append_nil]
      exact stop_runs ((accounted_iff hphase).mp h)
    · exact h
  | outside operation =>
    simp only [act]
    split
    · exact hslots _
    · exact h
  | meanwhile other => exact h

theorem accounted_foldl (h : agenda.Accounted others) (actions : List (Action α)) :
    (actions.foldl (act terms) agenda).Accounted others := by
  induction actions generalizing agenda with
  | nil => exact h
  | cons action rest ih => exact ih (accounted_act h action)

end Account

/-- Before anybody comes, the tool runs are those that are there. -/
theorem accounted_ofArrivals (machine : Machine) (slots : Slots Nat) (arrivals : List (Arrival α)) :
    (ofArrivals machine slots arrivals).Accounted machine.running := by
  have hidle : (ofArrivals machine slots arrivals).toolsAtWork = [] := by
    rw [toolsAtWork, List.flatMap_eq_nil_iff]
    intro phase hphase
    obtain ⟨arrival, -, rfl⟩ := List.mem_map.mp hphase
    rfl
  rw [Accounted, hidle, List.append_nil]
  exact .refl _

end Agenda

end AsmInspect

import AsmInspect.Machine.Agenda
import AsmInspect.Proofs.Slots.Conservation
import Mathlib.Logic.Relation

/-!
# What jobs go through

A job comes, waits, begins, asks questions, gets answers, and ends; its time may run out, it may
crash, and it may be dropped anywhere. This is said once, as a relation between phases
(`Phase.Next`), and whatever the machine or anybody else does takes each job along this relation.
What is kept along it is kept by all of that, whatever the order.

The answers may be any, but not the way to them: a tool run that is answered is over from then on,
and no other is (`Answering`). Without this the machine could run tools that no job has asked for.

## Main definitions

* `Agenda.Answering`: a way to an answer, and what it does to the tool runs
* `Agenda.Action`, `Agenda.act`: what may happen on a machine, in any order
* `Phase.Next`: what a job may go through next
* `Follows`: each job has gone on along `Phase.Next`
* `Reaches`: one agenda comes to another by actions

## Main results

* `goOn_cases`: what going on comes to
* `follows_foldl`: actions take jobs along `Phase.Next`
* `Reaches.run`: the machine's own order is one of all orders
-/

namespace AsmInspect

variable {α : Type}

/-- A question is new if the machine does not work on it. -/
theorem Undertaking.mem_fresh {work : Undertaking α} {p : Flow.Position} {query : Query} :
    (p, query) ∈ work.fresh ↔ (p, query) ∈ work.flow.opened ∧ (p, query) ∉ work.asked := by
  simp [fresh]

namespace Agenda

/-! ### What the parts of an action leave alone -/

section Frames

variable (agenda : Agenda α) (terms : Terms α) (job : Nat)

@[simp] theorem setPhase_phases (phase : Phase α) :
    (agenda.setPhase job phase).phases = agenda.phases.set job phase := rfl

@[simp] theorem wake_slots : (agenda.wake job).slots = agenda.slots := by
  unfold wake
  split <;> rfl

@[simp] theorem wake_phases : (agenda.wake job).phases = agenda.phases := by
  unfold wake
  split <;> rfl

@[simp] theorem wake_machine : (agenda.wake job).machine = agenda.machine := by
  unfold wake
  split <;> rfl

@[simp] theorem foldl_wake_slots (jobs : List Nat) :
    (jobs.foldl wake agenda).slots = agenda.slots := by
  induction jobs generalizing agenda with
  | nil => rfl
  | cons job jobs ih => rw [List.foldl_cons, ih, wake_slots]

@[simp] theorem foldl_wake_phases (jobs : List Nat) :
    (jobs.foldl wake agenda).phases = agenda.phases := by
  induction jobs generalizing agenda with
  | nil => rfl
  | cons job jobs ih => rw [List.foldl_cons, ih, wake_phases]

@[simp] theorem foldl_wake_machine (jobs : List Nat) :
    (jobs.foldl wake agenda).machine = agenda.machine := by
  induction jobs generalizing agenda with
  | nil => rfl
  | cons job jobs ih => rw [List.foldl_cons, ih, wake_machine]

@[simp] theorem withSlots_slots (slots : Slots Nat) : (agenda.withSlots slots).slots = slots := by
  rw [withSlots, foldl_wake_slots]

@[simp] theorem withSlots_phases (slots : Slots Nat) :
    (agenda.withSlots slots).phases = agenda.phases := by
  rw [withSlots, foldl_wake_phases]

@[simp] theorem withSlots_machine (slots : Slots Nat) :
    (agenda.withSlots slots).machine = agenda.machine := by
  rw [withSlots, foldl_wake_machine]

theorem pass_frame (work : Undertaking α) (p : Flow.Position) (query : Query) :
    (pass terms job agenda work p query).1.slots = agenda.slots ∧
      (pass terms job agenda work p query).1.phases = agenda.phases := by
  cases query with
  | runTool call =>
    simp only [pass]
    split <;> exact ⟨rfl, rfl⟩
  | _ => exact ⟨rfl, rfl⟩

/-- A job that asks all its questions leaves the slots and the phases as they are. -/
theorem passAll_frame (most : Nat) (work : Undertaking α) :
    (passAll terms job most agenda work).1.slots = agenda.slots ∧
      (passAll terms job most agenda work).1.phases = agenda.phases := by
  induction most generalizing agenda work with
  | zero => exact ⟨rfl, rfl⟩
  | succ most ih =>
    simp only [passAll]
    split
    · exact ⟨rfl, rfl⟩
    · obtain ⟨hslots, hphases⟩ := ih _ _
      obtain ⟨hslots', hphases'⟩ := pass_frame _ terms job _ _ _
      exact ⟨hslots.trans hslots', hphases.trans hphases'⟩

@[simp] theorem stop_slots (work : Undertaking α) (phase : Phase α) :
    (agenda.stop job work phase).slots = agenda.slots.release job := by simp [stop]

@[simp] theorem stop_phases (work : Undertaking α) (phase : Phase α) :
    (agenda.stop job work phase).phases = agenda.phases.set job phase := by simp [stop]

end Frames

/-! ### What a job goes through -/

/-- **What a job may go through next.** -/
inductive Phase.Next (terms : Terms α) : Phase α → Phase α → Prop
  | waits (arrival : Arrival α) : Next terms (.coming arrival) (.waiting arrival)
  | begins (arrival : Arrival α) (deadline : Option Nat) :
      Next terms (.waiting arrival) (.working { flow := arrival.flow.settle, deadline })
  | asks (work : Undertaking α) (p : Flow.Position) (query : Query)
      (fresh : (p, query) ∈ work.fresh) :
      Next terms (.working work) (.working { work with asked := work.asked ++ [(p, query)] })
  | forgets (work : Undertaking α) (asked : List (Flow.Position × Query))
      (sub : asked.Sublist work.asked) : Next terms (.working work) (.working { work with asked })
  | resumes (work : Undertaking α) (p : Flow.Position) (query : Query) (answer : query.Answer) :
      Next terms (.working work) (.working (work.resume p query answer))
  | ends (work : Undertaking α) (result : α) (done : work.flow.result? = some result) :
      Next terms (.working work) (.over result)
  | expires (work : Undertaking α) (limitMs : Nat) (result : α)
      (limit : terms.limit = some (limitMs, result)) : Next terms (.working work) (.over result)
  | crashes (work : Undertaking α) (crashed : work.flow.crashed = true) :
      Next terms (.working work) .crashed
  | drops (phase : Phase α) : Next terms phase .dropped

/-- A job that is through, one way or another. -/
def Phase.Ended : Phase α → Prop
  | .over _ | .crashed | .dropped => True
  | _ => False

/-- Several of them, one after the other. -/
abbrev Phase.Later (terms : Terms α) : Phase α → Phase α → Prop :=
  Relation.ReflTransGen (Phase.Next terms)

section Jobs

variable (terms : Terms α) (job : Nat)

theorem pass_later (agenda : Agenda α) (work : Undertaking α) {p : Flow.Position} {query : Query}
    (hfresh : (p, query) ∈ work.fresh) :
    Phase.Later terms (.working work) (.working (pass terms job agenda work p query).2) := by
  have hasks : Phase.Later terms (.working work)
      (.working { work with asked := work.asked ++ [(p, query)] }) :=
    .single (.asks work p query hfresh)
  have hresumes (answer : query.Answer) :
      Phase.Later terms (.working work) (.working (work.resume p query answer)) :=
    .single (.resumes work p query answer)
  cases query with
  | runTool call =>
    simp only [pass]
    split
    · exact hresumes _
    · exact hasks
  | clock => exact hresumes _
  | enter state => exact hresumes _
  | _ => exact hasks

/-- A job that asks all its questions forgets those that nobody asks any more, and gets some answers
at once. -/
theorem passAll_later (most : Nat) (agenda : Agenda α) (work : Undertaking α) :
    Phase.Later terms (.working work) (.working (passAll terms job most agenda work).2) := by
  induction most generalizing agenda work with
  | zero => exact .refl
  | succ most ih =>
    simp only [passAll]
    -- what nobody asks any more is forgotten before a new question is looked for
    refine .head (.forgets work _ (List.filter_sublist (p := (!work.stale.contains ·)))) ?_
    split
    · exact .refl
    · next p query rest hfresh =>
      exact (pass_later terms job _ _ (hfresh ▸ List.mem_cons_self)).trans (ih _ _)

/-- A job that goes on asks all its questions first. -/
def asked (agenda : Agenda α) (work : Undertaking α) : Agenda α × Undertaking α :=
  passAll terms job patience agenda work

/-- **What going on comes to**: the job is still at work, or it stops for good. -/
theorem goOn_cases (agenda : Agenda α) (work : Undertaking α) :
    (agenda.goOn terms job work = (asked terms job agenda work).1.setPhase job
      (.working (asked terms job agenda work).2)) ∨
    ∃ record phase, phase.Ended ∧
      Phase.Next terms (.working (asked terms job agenda work).2) phase ∧
      agenda.goOn terms job work = { (asked terms job agenda work).1 with record }.stop job
        (asked terms job agenda work).2 phase := by
  unfold asked goOn
  simp only
  split
  -- a result counts even when the time is up, so it is looked for first
  · next result hresult => exact .inr ⟨_, .over result, trivial, .ends _ result hresult, rfl⟩
  · split
    · next hcrashed => exact .inr ⟨_, .crashed, trivial, .crashes _ hcrashed, rfl⟩
    · split
      · next limitMs result _ hlimit _ =>
        split
        · exact .inr ⟨_, .over result, trivial, .expires _ limitMs result hlimit, rfl⟩
        · exact .inl rfl
      · exact .inl rfl

/-- The work of a job that begins. -/
def opening (agenda : Agenda α) (arrival : Arrival α) : Undertaking α :=
  { flow := arrival.flow.settle
    deadline := terms.limit.map fun (limitMs, _) => agenda.machine.now + limitMs }

/-- A job that begins goes on as far as it can. It is recorded first, and afterwards it is noted
when its time will be up. -/
theorem start_frame (agenda : Agenda α) (arrival : Arrival α) :
    ∃ record timers, agenda.start terms job arrival =
      { ({ agenda with record }.goOn terms job (opening terms agenda arrival) : Agenda α) with
        timers } := by
  refine ⟨.started job :: agenda.record, ?_⟩
  unfold start opening
  simp only
  split <;> exact ⟨_, rfl⟩

end Jobs

/-! ### What may happen on a machine -/

/-- A way to an answer: the tool run that is answered is over, and the others go on. -/
structure Answering (query : Query) where
  answer : Machine → Machine × query.Answer
  running : ∀ machine, (answer machine).1.running = (machine.leave query.tools).running

/-- The end of a tool run is a way to its answer. -/
def Answering.ofToolRun (run : ToolRun) : Answering (.runTool run.call) where
  answer machine := machine.finish run
  running _ := rfl

/-- Files are a way to the answers about them. -/
def Answering.ofFiles (question : FileQuery) : Answering question where
  answer machine := machine.answer question
  running machine := by
    obtain ⟨query, hfiles⟩ := question
    cases query with
    | readText | listNames | fileExists => rfl
    | writeText path text executable =>
      simp only [Machine.answer, Machine.writeText]
      split <;> rfl
    | jobDirectory root =>
      simp only [Machine.answer, Machine.makeJobDirectory]
      split <;> rfl
    | runTool | clock | enter => cases hfiles

/-- What may happen. -/
inductive Action (α : Type) : Type 1 where
  /-- A job looks at what has changed: it asks for a slot, looks again at the slots, begins, goes
  on, ends, or finds that its time is up. -/
  | look (job : Nat)
  /-- A job gets an answer, if it waits for it. -/
  | deliver (job : Nat) (position : Flow.Position) (query : Query) (answering : Answering query)
  /-- A job is dropped, wherever it is. -/
  | drop (job : Nat)
  /-- Somebody who is no job does something with the slots. -/
  | outside (operation : Slots.Operation Nat)
  /-- Everything but the slots, the jobs and the tool runs becomes something else: the clock, the
  files, and what the machine is about to do. -/
  | meanwhile (other : Agenda α)

/-- The agenda after an action. -/
def act (terms : Terms α) (agenda : Agenda α) : Action α → Agenda α
  | .look job => agenda.look terms job
  | .deliver job position query answering => agenda.deliver job position query answering.answer
  | .drop job => agenda.drop job
  | .outside operation =>
    if agenda.phases.length ≤ operation.id then
      agenda.withSlots (agenda.slots.perform operation)
    else agenda
  | .meanwhile other =>
    { other with
      slots := agenda.slots
      phases := agenda.phases
      machine := { other.machine with running := agenda.machine.running } }

/-- Each job has gone on along the way of jobs. -/
structure Follows (terms : Terms α) (phases later : List (Phase α)) : Prop where
  length : later.length = phases.length
  goes : ∀ (job : Nat) (phase' : Phase α), later[job]? = some phase' →
    ∃ phase, phases[job]? = some phase ∧ Phase.Later terms phase phase'

namespace Follows

variable {terms : Terms α}

theorem refl (phases : List (Phase α)) : Follows terms phases phases :=
  ⟨rfl, fun _ phase hphase => ⟨phase, hphase, .refl⟩⟩

theorem trans {phases later latest : List (Phase α)} (h : Follows terms phases later)
    (k : Follows terms later latest) : Follows terms phases latest where
  length := k.length.trans h.length
  goes job phase'' hphase := by
    obtain ⟨phase', hphase', hlater'⟩ := k.goes job phase'' hphase
    obtain ⟨phase, hphase, hlater⟩ := h.goes job phase' hphase'
    exact ⟨phase, hphase, hlater.trans hlater'⟩

/-- One job goes on. -/
theorem set {phases : List (Phase α)} {job : Nat} {phase phase' : Phase α}
    (hphase : phases[job]? = some phase) (hlater : Phase.Later terms phase phase') :
    Follows terms phases (phases.set job phase') where
  length := List.length_set
  goes other later hother := by
    by_cases hne : job = other
    · subst hne
      rw [List.getElem?_set_self', hphase] at hother
      obtain rfl : phase' = later := by simpa using hother
      exact ⟨phase, hphase, hlater⟩
    · rw [List.getElem?_set_ne hne] at hother
      exact ⟨later, hother, .refl⟩

end Follows

section Actions

variable (terms : Terms α) {agenda : Agenda α} {job : Nat} {phase : Phase α}

theorem follows_goOn (hphase : agenda.phases[job]? = some phase) {work : Undertaking α}
    (hlater : Phase.Later terms phase (.working work)) :
    Follows terms agenda.phases (agenda.goOn terms job work).phases := by
  have hasks := hlater.trans (passAll_later terms job patience agenda work)
  obtain ⟨-, hphases⟩ := passAll_frame agenda terms job patience work
  rcases goOn_cases terms job agenda work with he | ⟨record, phase', -, hends, he⟩
  · rw [he, setPhase_phases, asked, hphases]
    exact .set hphase hasks
  · rw [he, stop_phases]
    show Follows terms _ ((asked terms job agenda work).1.phases.set job phase')
    rw [asked, hphases]
    exact .set hphase (hasks.tail hends)

theorem follows_startOrWait (hphase : agenda.phases[job]? = some phase) {arrival : Arrival α}
    (hlater : Phase.Later terms phase (.waiting arrival)) :
    Follows terms agenda.phases (agenda.startOrWait terms job arrival).phases := by
  unfold startOrWait
  split
  · obtain ⟨record, timers, he⟩ := start_frame terms job agenda arrival
    have hrecorded : { agenda with record }.phases[job]? = some phase := hphase
    rw [he]
    exact follows_goOn terms hrecorded (hlater.tail (.begins arrival _))
  · exact .set hphase hlater

/-- **An action takes jobs along their way.** -/
theorem follows_act (agenda : Agenda α) (action : Action α) :
    Follows terms agenda.phases (agenda.act terms action).phases := by
  cases action with
  | look job =>
    simp only [act, look]
    split
    · next arrival hphase =>
      split
      · rw [← withSlots_phases agenda (agenda.slots.acquire job arrival.priority)]
        exact follows_startOrWait terms (by rwa [withSlots_phases]) (.single (.waits arrival))
      · exact .refl _
    · next arrival hphase =>
      rw [← withSlots_phases agenda (agenda.slots.poll job)]
      exact follows_startOrWait terms (by rwa [withSlots_phases]) .refl
    · next work hphase => exact follows_goOn terms hphase .refl
    · exact .refl _
  | deliver job p query answering =>
    simp only [act, deliver]
    split
    · next work hphase =>
      split
      · rw [wake_phases]
        exact .set hphase (.single (.resumes work p query _))
      · exact .refl _
    · exact .refl _
  | drop job =>
    simp only [act, drop]
    split
    · next hphase => exact .set hphase (.single (.drops _))
    · next hphase =>
      rw [withSlots_phases]
      exact .set hphase (.single (.drops _))
    · next hphase =>
      rw [stop_phases]
      exact .set hphase (.single (.drops _))
    · exact .refl _
  | outside operation =>
    simp only [act]
    split
    · rw [withSlots_phases]
      exact .refl _
    · exact .refl _
  | meanwhile other => exact .refl _

theorem follows_foldl (agenda : Agenda α) (actions : List (Action α)) :
    Follows terms agenda.phases (actions.foldl (act terms) agenda).phases := by
  induction actions generalizing agenda with
  | nil => exact .refl _
  | cons action rest ih => exact (follows_act terms agenda action).trans (ih _)

end Actions

/-! ### The machine's own order -/

/-- One agenda comes to another by some actions. -/
def Reaches (terms : Terms α) (agenda next : Agenda α) : Prop :=
  ∃ actions : List (Action α), next = actions.foldl (act terms) agenda

namespace Reaches

variable {terms : Terms α} {agenda next last : Agenda α}

theorem refl (agenda : Agenda α) : Reaches terms agenda agenda := ⟨[], rfl⟩

theorem single (action : Action α) : Reaches terms agenda (agenda.act terms action) :=
  ⟨[action], rfl⟩

theorem trans (h : Reaches terms agenda next) (k : Reaches terms next last) :
    Reaches terms agenda last := by
  obtain ⟨actions, rfl⟩ := h
  obtain ⟨more, rfl⟩ := k
  exact ⟨actions ++ more, List.foldl_append.symm⟩

/-- What leaves the slots, the jobs and the tool runs alone is an action. -/
theorem of_frame (hslots : next.slots = agenda.slots) (hphases : next.phases = agenda.phases)
    (hrunning : next.machine.running = agenda.machine.running) : Reaches terms agenda next :=
  ⟨[.meanwhile next], by simp [act, ← hslots, ← hphases, ← hrunning]⟩

theorem deliver (agenda : Agenda α) (job : Nat) (p : Flow.Position) {query : Query}
    (answering : Answering query) :
    Reaches terms agenda (agenda.deliver job p query answering.answer) :=
  single (.deliver job p query answering)

theorem fire (agenda : Agenda α) (timer : Timer) : Reaches terms agenda (agenda.fire timer) := by
  unfold Agenda.fire
  split
  · exact of_frame (wake_slots ..) (wake_phases ..) (congrArg _ (wake_machine ..))
  · next position run _ => exact deliver agenda timer.job position (.ofToolRun run)

theorem foldl_fire (agenda : Agenda α) (timers : List Timer) :
    Reaches terms agenda (timers.foldl Agenda.fire agenda) := by
  induction timers generalizing agenda with
  | nil => exact refl _
  | cons timer rest ih => exact (fire agenda timer).trans (ih _)

/-- The next thing that happens on a machine is made of actions. -/
theorem of_step? (h : agenda.step? terms = some next) : Reaches terms agenda next := by
  cases hready : agenda.ready with
  | cons job ready =>
    -- a job that is ready goes before files, and files before the clock
    obtain rfl : _ = next := by simpa [step?, hready] using h
    have hmid : Reaches terms agenda { agenda with ready } := of_frame rfl rfl rfl
    exact hmid.trans (single (.look job))
  | nil =>
    cases hfiles : agenda.files with
    | cons question files =>
      obtain ⟨job, position, question⟩ := question
      obtain rfl : _ = next := by simpa [step?, hready, hfiles] using h
      refine Reaches.trans ?_ (deliver _ job position (.ofFiles question))
      exact of_frame rfl rfl rfl
    | nil =>
      cases htimers : agenda.timers with
      | nil => simp [step?, hready, hfiles, htimers] at h
      | cons first rest =>
        simp only [step?, hready, hfiles, htimers, Option.some.injEq] at h
        subst h
        refine Reaches.trans ?_ (foldl_fire _ _)
        exact of_frame rfl rfl rfl

/-- **The machine's own order is one of all orders.** -/
theorem run (terms : Terms α) (most : Nat) (agenda : Agenda α) :
    Reaches terms agenda (agenda.run terms most) := by
  induction most generalizing agenda with
  | zero => exact refl _
  | succ most ih =>
    unfold Agenda.run
    split
    · next next hnext => exact (of_step? hnext).trans (ih next)
    · exact refl _

end Reaches

end Agenda

end AsmInspect

import AsmInspect.Proofs.Machine.Phases
import AsmInspect.Proofs.Slots.Standing

/-!
# Jobs and their slots

A job at work holds a slot, a job that waits is among the waiters with its urgency, and any other
job has nothing to do with the slots. This holds between any two actions of a job; in the middle of
one the job may already hold the slot of a phase that it is about to enter, while all others stand
where their phases say.

So an action of a job is looked at in two halves: what it does with the slots, which leaves the
other jobs where they are, and the phase that it enters, which must agree with what it has done.

## Main definitions

* `Agenda.Phase.standing`: what a phase says about the slots
* `Agenda.Settled`, `Agenda.SettledBut`: jobs stand where their phases say, all or all but one

## Main results

* `Settled.look`, `Settled.deliver`, `Settled.drop`: the actions of a job
* `settled_foldl`: the invariant holds after all actions
-/

namespace AsmInspect.Agenda

variable {α : Type}

/-! ### Where the phases say that jobs stand -/

/-- What a phase says about the slots. -/
def Phase.standing : Phase α → Slots.Standing
  | .waiting arrival => .waiting arrival.priority
  | .working _ => .holding
  | _ => .absent

theorem Phase.Ended.standing {phase : Phase α} (h : phase.Ended) : phase.standing = .absent := by
  cases phase with
  | coming | waiting | working => cases h
  | _ => rfl

/-- The slots are in order, and all jobs but one stand where their phases say. -/
structure SettledBut (job : Nat) (total : Nat) (agenda : Agenda α) : Prop where
  balanced : Slots.Balanced total 0 agenda.slots
  others : ∀ other phase, other ≠ job → agenda.phases[other]? = some phase →
    (agenda.slots.census total).Stands other phase.standing

/-- **The slots are in order, and jobs stand where their phases say.** -/
structure Settled (total : Nat) (agenda : Agenda α) : Prop where
  balanced : Slots.Balanced total 0 agenda.slots
  stands : ∀ job phase, agenda.phases[job]? = some phase →
    (agenda.slots.census total).Stands job phase.standing

variable {total job : Nat} {agenda next : Agenda α} {phase : Phase α}

theorem Settled.but (h : agenda.Settled total) (job : Nat) : agenda.SettledBut job total :=
  ⟨h.balanced, fun other phase _ hphase => h.stands other phase hphase⟩

/-- What a job does with the slots leaves the other jobs where they are. -/
theorem SettledBut.perform (h : agenda.SettledBut job total) (operation : Slots.Operation Nat)
    (hid : operation.id = job) (hslots : next.slots = agenda.slots.perform operation)
    (hphases : next.phases = agenda.phases) : next.SettledBut job total where
  balanced := hslots ▸ h.balanced.perform operation
  others other phase hne hphase := by
    rw [hslots, Slots.census_perform h.balanced]
    have hother := h.others other phase hne (hphases ▸ hphase)
    exact hother.of_ne (by rw [hid]; exact hne.symm)

/-- A job enters a phase that says where it stands. -/
theorem SettledBut.enter (h : agenda.SettledBut job total) (hslots : next.slots = agenda.slots)
    (hphases : next.phases = agenda.phases.set job phase)
    (hstands : (agenda.slots.census total).Stands job phase.standing) : next.Settled total where
  balanced := hslots ▸ h.balanced
  stands other phase' hphase := by
    rw [hslots]
    by_cases hne : other = job
    · subst hne
      rw [hphases, List.getElem?_set_self'] at hphase
      obtain ⟨_, -, rfl⟩ := Option.map_eq_some_iff.mp hphase
      exact hstands
    · rw [hphases, List.getElem?_set_ne (Ne.symm hne)] at hphase
      exact h.others other phase' hne hphase

/-- A job does something with the slots and enters a phase that agrees with it. -/
theorem Settled.act (h : agenda.Settled total) (operation : Slots.Operation Nat)
    (phase : Phase α) (hid : operation.id = job)
    (hslots : next.slots = agenda.slots.perform operation)
    (hphases : next.phases = agenda.phases.set job phase)
    (hstands : ((agenda.slots.census total).perform operation).Stands job phase.standing) :
    next.Settled total := by
  have hmid : ({ agenda with slots := next.slots } : Agenda α).SettledBut job total :=
    (h.but job).perform operation hid hslots rfl
  refine hmid.enter rfl hphases ?_
  show (next.slots.census total).Stands job phase.standing
  rwa [hslots, Slots.census_perform h.balanced]

/-! ### The actions of a job -/

section Actions

variable (terms : Terms α)

/-- A job with a slot goes on, and keeps it until it is over. -/
theorem SettledBut.goOn (h : agenda.SettledBut job total)
    (hholds : (agenda.slots.census total).Stands job .holding) (work : Undertaking α) :
    (agenda.goOn terms job work).Settled total := by
  obtain ⟨hslots, hphases⟩ := passAll_frame agenda terms job patience work
  rcases goOn_cases terms job agenda work with he | ⟨record, phase, hended, -, he⟩
  · have hset : (agenda.goOn terms job work).phases =
        agenda.phases.set job (.working (asked terms job agenda work).2) := by
      rw [he, setPhase_phases, asked, hphases]
    exact h.enter (by rw [he]; exact hslots) hset hholds
  -- the job stops: it stands nowhere once its slot is free, and its phase says the same
  · have hrelease : (agenda.slots.release job).census total =
        (agenda.slots.census total).perform (.release job) := Slots.census_release h.balanced job
    let released : Agenda α := { agenda with slots := agenda.slots.release job }
    have hmid : released.SettledBut job total := h.perform (.release job) rfl rfl rfl
    have hset : (agenda.goOn terms job work).phases = released.phases.set job phase := by
      rw [he, stop_phases]
      exact congrArg (·.set job phase) hphases
    refine hmid.enter ?_ hset ?_
    · rw [he, stop_slots]
      exact congrArg (Slots.release · job) hslots
    · show ((agenda.slots.release job).census total).Stands job phase.standing
      rw [hrelease, hended.standing]
      exact hholds.release

/-- A job that has got a slot begins, and one that has not waits. -/
theorem SettledBut.startOrWait (h : agenda.SettledBut job total) (arrival : Arrival α)
    (hstands : (agenda.slots.census total).Stands job .holding ∨
      (agenda.slots.census total).Stands job (.waiting arrival.priority)) :
    (agenda.startOrWait terms job arrival).Settled total := by
  have hstatus : agenda.slots.status job = .holding ↔
      job ∈ (agenda.slots.census total).holders := by
    rw [Slots.status_eq_holding_iff]
    exact List.mem_toFinset.symm
  unfold Agenda.startOrWait
  rcases hstands with hholds | hwaits
  · rw [if_pos (hstatus.mpr (hholds.holders.mpr rfl))]
    -- what is recorded of a job that begins shows neither in the slots nor in the phases
    obtain ⟨record, timers, he⟩ := start_frame terms job agenda arrival
    have hrecorded : SettledBut job total { agenda with record } := ⟨h.balanced, h.others⟩
    have hgoes := hrecorded.goOn terms hholds (opening terms agenda arrival)
    rw [he]
    exact ⟨hgoes.balanced, hgoes.stands⟩
  · have hnot : agenda.slots.status job ≠ .holding := by
      rw [Ne, hstatus, hwaits.holders]
      simp
    rw [if_neg hnot]
    exact h.enter rfl rfl hwaits

/-- **A job that looks** at what has changed: it asks for a slot, looks again at the slots, or goes
on with its work. -/
theorem Settled.look (h : agenda.Settled total) (job : Nat) :
    (agenda.look terms job).Settled total := by
  have hbut (operation : Slots.Operation Nat) (hid : operation.id = job) :
      (agenda.withSlots (agenda.slots.perform operation)).SettledBut job total :=
    (h.but job).perform operation hid (withSlots_slots ..) (withSlots_phases ..)
  have hcensus (operation : Slots.Operation Nat) :
      (agenda.withSlots (agenda.slots.perform operation)).slots.census total =
        (agenda.slots.census total).perform operation := by
    rw [withSlots_slots, Slots.census_perform h.balanced]
  unfold Agenda.look
  split
  · next arrival hphase =>
    have hstands := h.stands job _ hphase
    split
    · refine (hbut (.acquire job arrival.priority) rfl).startOrWait terms arrival ?_
      rw [hcensus]
      exact hstands.acquire arrival.priority
    · exact ⟨h.balanced, h.stands⟩
  · next arrival hphase =>
    have hstands := h.stands job _ hphase
    refine (hbut (.poll job) rfl).startOrWait terms arrival ?_
    rw [hcensus]
    exact hstands.poll
  · next work hphase => exact (h.but job).goOn terms (h.stands job _ hphase) work
  · exact h

/-- An answer changes nothing about the slots. -/
theorem Settled.deliver (h : agenda.Settled total) (job : Nat) (p : Flow.Position) (query : Query)
    (answer : Machine → Machine × query.Answer) :
    (agenda.deliver job p query answer).Settled total := by
  unfold Agenda.deliver
  split
  · next work hphase =>
    split
    · have hholds : (agenda.slots.census total).Stands job .holding := h.stands job _ hphase
      exact (h.but job).enter (wake_slots ..) (wake_phases ..) hholds
    · exact h
  · exact h

/-- **A job that is dropped**, wherever it is, has nothing to do with the slots any more. -/
theorem Settled.drop (h : agenda.Settled total) (job : Nat) : (agenda.drop job).Settled total := by
  unfold Agenda.drop
  split
  · next arrival hphase =>
    have hstands : (agenda.slots.census total).Stands job .absent := h.stands job _ hphase
    exact (h.but job).enter rfl rfl hstands
  · next arrival hphase =>
    exact h.act (.cancel job) .dropped rfl (withSlots_slots ..) (withSlots_phases ..)
      (h.stands job _ hphase).cancel
  · next work hphase =>
    exact h.act (.release job) .dropped rfl (stop_slots ..) (stop_phases ..)
      (h.stands job _ hphase).release
  · exact h

end Actions

/-- Nobody has come yet. -/
theorem settled_ofArrivals (machine : Machine) (slots : Nat) (arrivals : List (Arrival α)) :
    (ofArrivals machine { available := slots } arrivals).Settled slots where
  balanced := .empty slots
  stands job phase hphase := by
    obtain ⟨arrival, -, rfl⟩ := List.mem_map.mp (List.mem_of_getElem? hphase)
    exact Slots.Census.stands_empty slots job

/-- **Every action keeps the slots in order.** -/
theorem settled_act {terms : Terms α} {total : Nat} {agenda : Agenda α} (h : agenda.Settled total)
    (action : Action α) : (agenda.act terms action).Settled total := by
  cases action with
  | look job => exact h.look terms job
  | deliver job p query answering => exact h.deliver job p query answering.answer
  | drop job => exact h.drop job
  | outside operation =>
    simp only [act]
    split
    · next hout =>
      refine ⟨by simpa using h.balanced.perform operation, fun job phase hphase => ?_⟩
      rw [withSlots_phases] at hphase
      rw [withSlots_slots, Slots.census_perform h.balanced]
      -- whoever it is, it is none of the jobs
      have hjob := (List.getElem?_eq_some_iff.mp hphase).1
      exact (h.stands job phase hphase).of_ne (by omega)
    · exact h
  | meanwhile other => exact ⟨h.balanced, h.stands⟩

theorem settled_foldl {terms : Terms α} {total : Nat} {agenda : Agenda α} (h : agenda.Settled total)
    (actions : List (Action α)) : (actions.foldl (act terms) agenda).Settled total := by
  induction actions generalizing agenda with
  | nil => exact h
  | cons action rest ih => exact ih (settled_act h action)

end AsmInspect.Agenda

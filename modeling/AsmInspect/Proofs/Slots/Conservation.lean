import AsmInspect.Slots
import Mathlib.Data.List.Nodup
import Mathlib.Data.List.Perm.Basic

/-!
# Slots are conserved

Whatever is done with the slots, by anybody and in any order, a slot is free or held by somebody,
the number of urgent waiters is right, and a waiter that has not been told of a change could not
take a slot now.

The last of these is what keeps a waiter from being forgotten: a waiter looks again only when it has
been told. It rests on the other two, since what a waiter may do is decided from the numbers alone.

## Main definitions

* `Operation`, `perform`, `after`: what may be done with the slots, and the slots afterwards
* `Balanced`: the invariant, with room for urgent jobs that are registered and do not wait

## Main results

* `Balanced.perform`: every operation keeps the invariant
* `balanced_after`: the invariant holds after all operations
-/

namespace AsmInspect.Slots

variable {ι : Type}

/-- What somebody does with the slots. -/
inductive Operation (ι : Type) where
  | acquire (id : ι) (priority : Priority)
  | poll (id : ι)
  | cancel (id : ι)
  | release (id : ι)

/-- Who does it. -/
def Operation.id : Operation ι → ι
  | acquire id _ | poll id | cancel id | release id => id

/-- How much a job adds to the number of urgent ones. -/
def weight : Priority → Nat
  | .high => 1
  | .normal => 0

/-- The number of urgent jobs among the waiters. -/
def urgent (slots : Slots ι) : Nat := slots.waiters.countP (·.priority == .high)

/-- **The invariant of the slots**, with `extra` urgent jobs that are registered and do not wait. -/
structure Balanced (total extra : Nat) (slots : Slots ι) : Prop where
  /-- Each slot is free or held. -/
  conserved : slots.available + slots.holders.length = total
  /-- The urgent jobs are counted. -/
  counted : slots.highWaiting = slots.urgent + extra
  /-- Nobody holds two slots, waits twice, or waits while holding one. -/
  distinct : (slots.holders ++ slots.waiters.map (·.id)).Nodup
  /-- A waiter that has not been told of a change could not take a slot. -/
  parked : ∀ w ∈ slots.waiters, w.notified = false → slots.admits w.priority = false

/-! ### Admission -/

theorem admits_iff (slots : Slots ι) (priority : Priority) :
    slots.admits priority = true ↔
      0 < slots.available ∧ (priority = .high ∨ slots.highWaiting = 0) := by
  simp only [admits, Bool.and_eq_true, Bool.or_eq_true, beq_iff_eq, decide_eq_true_eq]
  exact and_comm

/-- Fewer free slots and more urgent waiters let nobody in. -/
theorem admits_eq_false_of_le {s t : Slots ι} {priority : Priority} (ha : t.available ≤ s.available)
    (hh : s.highWaiting ≤ t.highWaiting) (hs : s.admits priority = false) :
    t.admits priority = false := by
  rw [Bool.eq_false_iff, Ne, admits_iff] at hs ⊢
  rintro ⟨hpos, hp | hz⟩
  · exact hs ⟨by omega, .inl hp⟩
  · exact hs ⟨by omega, .inr (by omega)⟩

/-! ### The parts of the operations -/

@[simp] theorem notify_available (slots : Slots ι) : slots.notify.available = slots.available := rfl

@[simp] theorem notify_highWaiting (slots : Slots ι) :
    slots.notify.highWaiting = slots.highWaiting := rfl

@[simp] theorem notify_holders (slots : Slots ι) : slots.notify.holders = slots.holders := rfl

@[simp] theorem notify_ids (slots : Slots ι) :
    slots.notify.waiters.map (·.id) = slots.waiters.map (·.id) := by
  simp [notify, Function.comp_def]

@[simp] theorem notify_urgent (slots : Slots ι) : slots.notify.urgent = slots.urgent := by
  simp [notify, urgent, List.countP_map, Function.comp_def]

theorem notified_of_mem_notify {slots : Slots ι} {w : Waiter ι} (h : w ∈ slots.notify.waiters) :
    w.notified = true := by
  obtain ⟨v, -, rfl⟩ := List.mem_map.mp h
  rfl

namespace Balanced

variable {total extra : Nat} {slots : Slots ι}

/-- The invariant holds as long as nobody has come. -/
theorem empty (total : Nat) : Balanced total 0 ({ available := total } : Slots ι) where
  conserved := rfl
  counted := rfl
  distinct := List.nodup_nil
  parked w hw := by simp at hw

/-- Telling everybody keeps the invariant, however the numbers have changed. -/
theorem notify (hc : slots.available + slots.holders.length = total)
    (hu : slots.highWaiting = slots.urgent + extra)
    (hd : (slots.holders ++ slots.waiters.map (·.id)).Nodup) :
    Balanced total extra slots.notify where
  conserved := by simpa using hc
  counted := by simpa using hu
  distinct := by simpa using hd
  parked w hw hn := by simp [notified_of_mem_notify hw] at hn

/-- A job that is about to wait or to take a slot is registered. -/
theorem register (h : Balanced total 0 slots) (priority : Priority) :
    Balanced total (weight priority) (slots.register priority) := by
  cases priority with
  | normal => exact h
  | high =>
    refine ⟨h.conserved, ?_, h.distinct, ?_⟩
    · have hu := h.counted
      simp only [Slots.register, urgent, weight] at hu ⊢
      omega
    · intro w hw hn
      -- one more urgent waiter lets nobody in who was kept out before
      exact admits_eq_false_of_le (s := slots) (Nat.le_refl _) (Nat.le_succ _) (h.parked w hw hn)

/-- A registered job that does not wait is taken off the books. -/
theorem unregister {priority : Priority} (h : Balanced total (weight priority) slots) :
    Balanced total 0 (slots.unregister priority) := by
  cases priority with
  | normal => exact h
  | high =>
    refine notify h.conserved ?_ h.distinct
    have hu := h.counted
    simp only [urgent, weight] at hu ⊢
    omega

/-- A registered job that may take a slot gets one. -/
theorem grant {id : ι} {priority : Priority} (h : Balanced total (weight priority) slots)
    (hid : id ∉ slots.holders ++ slots.waiters.map (·.id)) (hpos : 0 < slots.available) :
    Balanced total 0 (slots.grant id priority) := by
  refine unregister ⟨?_, h.counted, ?_, ?_⟩
  · have hc := h.conserved
    simp only [List.length_cons]
    omega
  · exact List.nodup_cons.mpr ⟨hid, h.distinct⟩
  · intro w hw hn
    -- one free slot less lets nobody in who was kept out before
    exact admits_eq_false_of_le (Nat.sub_le _ _) (Nat.le_refl _) (h.parked w hw hn)

/-- A registered job that may not take a slot waits behind the others. -/
theorem enqueue {w : Waiter ι} (h : Balanced total (weight w.priority) slots)
    (hid : w.id ∉ slots.holders ++ slots.waiters.map (·.id))
    (hw : slots.admits w.priority = false) :
    Balanced total 0 { slots with waiters := slots.waiters ++ [w] } := by
  refine ⟨h.conserved, ?_, ?_, ?_⟩
  · have hu := h.counted
    cases hp : w.priority <;>
      simp only [urgent, weight, hp, List.countP_append, List.countP_singleton] at hu ⊢ <;>
      simpa using hu
  · simp only [List.map_append, List.map_singleton, ← List.append_assoc]
    exact List.nodup_append_comm.mp (List.nodup_cons.mpr ⟨hid, h.distinct⟩)
  · intro v hv hn
    rcases List.mem_append.mp hv with hv | hv
    · exact h.parked v hv hn
    -- the new waiter has been kept out just now
    · obtain rfl := List.mem_singleton.mp hv
      exact hw

theorem waiters_nodup (h : Balanced total extra slots) : (slots.waiters.map (·.id)).Nodup :=
  (List.nodup_append.mp h.distinct).2.1

theorem not_mem_holders (h : Balanced total extra slots) {w : Waiter ι} (hw : w ∈ slots.waiters) :
    w.id ∉ slots.holders := fun hh =>
  (List.nodup_append.mp h.distinct).2.2 _ hh _ (List.mem_map_of_mem hw) rfl

end Balanced

section Others

variable [DecidableEq ι]

@[simp] theorem admits_withoutWaiter (slots : Slots ι) (id : ι) (priority : Priority) :
    (slots.withoutWaiter id).admits priority = slots.admits priority := rfl

/-- The waiters are any one of them and the others. -/
theorem perm_cons_filter {w : Waiter ι} {waiters : List (Waiter ι)}
    (hn : (waiters.map (·.id)).Nodup) (hw : w ∈ waiters) :
    waiters.Perm (w :: waiters.filter (·.id != w.id)) := by
  induction waiters with
  | nil => simp at hw
  | cons v rest ih =>
    obtain ⟨hv, hr⟩ := List.nodup_cons.mp hn
    rcases List.mem_cons.mp hw with rfl | hw
    · have hrest : rest.filter (·.id != w.id) = rest := by
        refine List.filter_eq_self.mpr fun u hu => ?_
        have hne : u.id ≠ w.id := fun he => hv (List.mem_map.mpr ⟨u, hu, he⟩)
        simpa using hne
      simp [hrest]
    · have hne : v.id ≠ w.id := fun he => hv (List.mem_map.mpr ⟨w, hw, he.symm⟩)
      rw [List.filter_cons_of_pos (by simpa using hne)]
      exact ((ih hr hw).cons v).trans (.swap ..)

namespace Balanced

variable {total extra : Nat} {slots : Slots ι}

/-- A waiter is found by its id. -/
theorem find_waiter (h : Balanced total extra slots) {w : Waiter ι} (hw : w ∈ slots.waiters) :
    slots.waiters.find? (·.id == w.id) = some w := by
  have hs : (slots.waiters.find? (·.id == w.id)).isSome := by
    rw [List.find?_isSome]
    exact ⟨w, hw, by simp⟩
  obtain ⟨v, hv⟩ := Option.isSome_iff_exists.mp hs
  have hid : v.id = w.id := by simpa using List.find?_some hv
  rw [hv, List.inj_on_of_nodup_map h.waiters_nodup (List.mem_of_find?_eq_some hv) hw hid]

/-- A waiter that waits no more is still registered, and it does not occur elsewhere. -/
theorem withoutWaiter (h : Balanced total 0 slots) {w : Waiter ι} (hw : w ∈ slots.waiters) :
    Balanced total (weight w.priority) (slots.withoutWaiter w.id) ∧
      w.id ∉ slots.holders ++ (slots.withoutWaiter w.id).waiters.map (·.id) := by
  have hp := perm_cons_filter h.waiters_nodup hw
  -- both counts are taken over the waiter in front of the others
  have hd : (w.id :: (slots.holders ++ (slots.withoutWaiter w.id).waiters.map (·.id))).Nodup :=
    ((hp.map (·.id)).append_left slots.holders |>.trans List.perm_middle).nodup_iff.mp h.distinct
  obtain ⟨hid, hrest⟩ := List.nodup_cons.mp hd
  refine ⟨⟨h.conserved, ?_, hrest, ?_⟩, hid⟩
  · have hu := h.counted
    rw [urgent, hp.countP_eq, List.countP_cons] at hu
    cases hq : w.priority <;> simp [hq, weight, urgent, Slots.withoutWaiter] at hu ⊢ <;> exact hu
  · intro v hv hn
    exact h.parked v (List.mem_of_mem_filter hv) hn

end Balanced

end Others

/-! ### The operations -/

section Operations

variable [DecidableEq ι]

/-- The slots after an operation. -/
def perform (slots : Slots ι) : Operation ι → Slots ι
  | .acquire id priority => slots.acquire id priority
  | .poll id => slots.poll id
  | .cancel id => slots.cancel id
  | .release id => slots.release id

/-- The slots after some operations, when there were `total` of them and nobody had come. -/
def after (total : Nat) (operations : List (Operation ι)) : Slots ι :=
  operations.foldl perform { available := total }

theorem status_eq_holding_iff {slots : Slots ι} {id : ι} :
    slots.status id = .holding ↔ id ∈ slots.holders := by
  unfold status
  split
  · next hh => simpa using hh
  · next hh =>
    split <;> simpa using hh

theorem status_eq_absent_iff {slots : Slots ι} {id : ι} :
    slots.status id = .absent ↔ id ∉ slots.holders ++ slots.waiters.map (·.id) := by
  unfold status
  split
  · next hh => simp_all
  · next hh => split <;> simp_all

namespace Balanced

variable {total : Nat} {slots : Slots ι}

/-- What a first poll does: nothing for a job that is there already, and otherwise it gives a slot
to the job or makes it wait. -/
theorem acquire (h : Balanced total 0 slots) (id : ι) (priority : Priority) :
    Balanced total 0 (slots.acquire id priority) := by
  unfold Slots.acquire
  cases hs : slots.status id with
  | holding => exact h
  | waiting => exact h
  | absent =>
    have hid := status_eq_absent_iff.mp hs
    -- the job is registered before it is let in or kept out
    have hr := h.register priority
    have hid' : id ∉ (slots.register priority).holders ++
        (slots.register priority).waiters.map (·.id) := by cases priority <;> exact hid
    simp only
    split
    · next ha => exact hr.grant hid' ((admits_iff _ _).mp ha).1
    · next ha => exact hr.enqueue (w := { id, priority }) hid' (by simpa using ha)

theorem poll (h : Balanced total 0 slots) (id : ι) : Balanced total 0 (slots.poll id) := by
  unfold Slots.poll
  split
  · next w hf =>
    obtain rfl : w.id = id := by simpa using List.find?_some hf
    obtain ⟨hb, hid⟩ := h.withoutWaiter (List.mem_of_find?_eq_some hf)
    split
    · exact h
    · split
      · next ha => exact hb.grant hid ((admits_iff _ _).mp ha).1
      · next ha => exact hb.enqueue (w := { w with notified := false }) hid (by simpa using ha)
  · exact h

theorem cancel (h : Balanced total 0 slots) (id : ι) : Balanced total 0 (slots.cancel id) := by
  unfold Slots.cancel
  split
  · next w hf =>
    obtain rfl : w.id = id := by simpa using List.find?_some hf
    exact (h.withoutWaiter (List.mem_of_find?_eq_some hf)).1.unregister
  · exact h

theorem release (h : Balanced total 0 slots) (id : ι) : Balanced total 0 (slots.release id) := by
  unfold Slots.release
  split
  · next hh =>
    have hmem : id ∈ slots.holders := by simpa using hh
    -- everybody is told, so only the numbers have to be right
    refine notify ?_ h.counted (h.distinct.sublist (List.erase_sublist.append_right _))
    have hc := h.conserved
    have hlen := List.length_erase_of_mem hmem
    have hpos := List.length_pos_of_mem hmem
    simp only
    omega
  · exact h

/-- **Every operation keeps the invariant.** -/
theorem perform (h : Balanced total 0 slots) (operation : Operation ι) :
    Balanced total 0 (slots.perform operation) := by
  cases operation with
  | acquire id priority => exact h.acquire id priority
  | poll id => exact h.poll id
  | cancel id => exact h.cancel id
  | release id => exact h.release id

theorem foldl (h : Balanced total 0 slots) (operations : List (Operation ι)) :
    Balanced total 0 (operations.foldl Slots.perform slots) := by
  induction operations generalizing slots with
  | nil => exact h
  | cons operation rest ih => exact ih (h.perform operation)

end Balanced

/-- **The invariant holds after all operations.** -/
theorem balanced_after (total : Nat) (operations : List (Operation ι)) :
    Balanced total 0 (after total operations) :=
  (Balanced.empty total).foldl operations

end Operations

end AsmInspect.Slots

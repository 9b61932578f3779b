import AsmInspect.Proofs.Slots.Admission

/-!
# Where somebody stands

Somebody holds a slot, waits for one, or has nothing to do with the slots. What one of them does
changes where he stands himself, and nobody else: the others may be told to look again, but they do
not move until they look.

## Main definitions

* `Standing`, `Census.Stands`: the three cases, with the urgency of those that wait

## Main results

* `Census.Stands.of_ne`: an operation of somebody else changes nothing
* `Census.Stands.acquire`, `Census.Stands.poll`, `Census.Stands.cancel`, `Census.Stands.release`:
  what an operation changes
-/

namespace AsmInspect.Slots

/-- What somebody has to do with the slots. -/
inductive Standing where
  | absent
  | waiting (priority : Priority)
  | holding
  deriving DecidableEq, Repr

namespace Census

variable {ι : Type} {census : Census ι} {id : ι}

/-- Somebody stands somewhere, and nowhere else. -/
structure Stands (census : Census ι) (id : ι) (standing : Standing) : Prop where
  holders : id ∈ census.holders ↔ standing = .holding
  waiting : ∀ priority, id ∈ census.waiting priority ↔ standing = .waiting priority

theorem stands_empty (total : Nat) (id : ι) : Stands { total } id .absent := by
  constructor <;> simp

variable [DecidableEq ι]

theorem status_of_absent (h : census.Stands id .absent) : census.status id = .absent := by
  have hh : id ∉ census.holders := by simp [h.holders]
  have hw (q : Priority) : id ∉ census.waiting q := by simp [h.waiting]
  simp [status, hh, hw]

namespace Stands

variable {standing : Standing}

/-- A waiter that takes a slot, or stays where it is, leaves the others where they are. -/
theorem retry_of_ne {other : ι} (h : census.Stands id standing) (hne : other ≠ id)
    (priority : Priority) : (census.retry other priority).Stands id standing := by
  unfold retry
  split
  · refine ⟨?_, fun q => ?_⟩
    -- the other one is a holder now, and no waiter
    · rw [← h.holders, hold, Finset.mem_insert]
      exact ⟨fun hm => hm.resolve_left hne.symm, .inr⟩
    · rw [← h.waiting q]
      exact Finset.mem_erase.trans ⟨fun hm => hm.2, fun hm => ⟨hne.symm, hm⟩⟩
  · exact h

/-- **What one of them does changes nothing for the others.** -/
theorem of_ne (h : census.Stands id standing) {operation : Operation ι}
    (hne : operation.id ≠ id) : (census.perform operation).Stands id standing := by
  cases operation with
  | acquire other priority =>
    have hne : id ≠ other := Ne.symm hne
    simp only [perform]
    split
    · split
      · exact ⟨by simp [hold, hne, h.holders], h.waiting⟩
      · refine ⟨h.holders, fun q => ?_⟩
        simp only [wait]
        split <;> simp [hne, h.waiting]
    · exact h
  | poll other =>
    simp only [perform]
    split
    · exact h.retry_of_ne hne .high
    · split
      · exact h.retry_of_ne hne .normal
      · exact h
  | cancel other =>
    have hne : id ≠ other := Ne.symm hne
    exact ⟨h.holders, fun q => by simp [perform, leave, hne, h.waiting]⟩
  | release other =>
    have hne : id ≠ other := Ne.symm hne
    exact ⟨by simp [perform, hne, h.holders], h.waiting⟩

/-- Who asks for a slot holds one or waits. -/
theorem acquire (h : census.Stands id .absent) (priority : Priority) :
    (census.perform (.acquire id priority)).Stands id .holding ∨
      (census.perform (.acquire id priority)).Stands id (.waiting priority) := by
  rw [perform, if_pos (status_of_absent h)]
  split
  · exact .inl ⟨by simp [hold], fun q => by simp [hold, h.waiting]⟩
  · refine .inr ⟨by simp [wait, h.holders], fun q => ?_⟩
    simp only [wait]
    split
    -- it waits at the urgency it has asked at, and at no other
    · next hq => simp [hq]
    · next hq => simp [h.waiting, Ne.symm hq]

/-- A waiter that looks again holds a slot afterwards, or waits as before. -/
theorem poll {priority : Priority} (h : census.Stands id (.waiting priority)) :
    (census.perform (.poll id)).Stands id .holding ∨
      (census.perform (.poll id)).Stands id (.waiting priority) := by
  have hretry : census.perform (.poll id) = census.retry id priority := by
    cases priority <;> simp [perform, h.waiting]
  rw [hretry, retry]
  split
  · exact .inl ⟨by simp [hold], fun q => by simp [hold, leave]⟩
  · exact .inr h

/-- A waiter that gives up has nothing to do with the slots any more. -/
theorem cancel {priority : Priority} (h : census.Stands id (.waiting priority)) :
    (census.perform (.cancel id)).Stands id .absent :=
  ⟨by simp [perform, leave, h.holders], fun q => by simp [perform, leave]⟩

/-- Who gives his slot back has nothing to do with the slots any more. -/
theorem release (h : census.Stands id .holding) :
    (census.perform (.release id)).Stands id .absent :=
  ⟨by simp [perform], fun q => by simp [perform, h.waiting]⟩

end Stands

end Census

end AsmInspect.Slots

import AsmInspect.Proofs.Slots.Conservation
import Mathlib.Data.Finset.Card
import Mathlib.Data.Finset.Dedup
import Mathlib.Data.Finset.Insert

/-!
# No waiter is forgotten

A waiter looks again only when it has been told that something has changed. That is as good as
looking every time: the slots behave as a census does that has no counters and no marks, and
decides at every look from the holders and the waiters alone whether a job may take a slot.

## Main definitions

* `Admissible`: a job of some urgency may take a slot now
* `Census`, `Census.perform`: who holds a slot and who waits, and what operations do to it

## Main results

* `poll_cases`: a look gives a slot exactly when the job may take one
* `census_perform`: each operation does to the slots what it does to their census
* `census_after`: and so do all operations together
* `told_of_free_slot`: while a slot is free some waiter has been told and can take it
* `no_wakeup_lost`: no waiter is forgotten
-/

namespace AsmInspect.Slots

variable {ι : Type}

/-- A job may take a slot: there is a free one, and no urgent job waits unless it is urgent itself.
-/
def Admissible (slots : Slots ι) (priority : Priority) : Prop :=
  0 < slots.available ∧ (priority = .high ∨ ∀ w ∈ slots.waiters, w.priority ≠ .high)

section Decisions

variable {total : Nat} {slots : Slots ι}

/-- The number of urgent waiters says whether there is one. -/
theorem Balanced.highWaiting_eq_zero_iff (h : Balanced total 0 slots) :
    slots.highWaiting = 0 ↔ ∀ w ∈ slots.waiters, w.priority ≠ .high := by
  rw [h.counted, Nat.add_zero, urgent, List.countP_eq_zero]
  simp

theorem Balanced.admits_iff_admissible (h : Balanced total 0 slots) (priority : Priority) :
    slots.admits priority = true ↔ slots.Admissible priority := by
  rw [admits_iff, h.highWaiting_eq_zero_iff]
  rfl

/-- A job that registers does not stand in its own way. -/
theorem Balanced.admits_register_iff (h : Balanced total 0 slots) (priority : Priority) :
    (slots.register priority).admits priority = true ↔ slots.Admissible priority := by
  cases priority with
  | normal => exact h.admits_iff_admissible .normal
  | high =>
    rw [admits_iff]
    simp only [Admissible, true_or, and_true]
    rfl

variable [DecidableEq ι]

/-- Nobody asks for a second slot. -/
theorem acquire_eq_self {id : ι} (hid : slots.status id ≠ .absent) (priority : Priority) :
    slots.acquire id priority = slots := by
  unfold acquire
  split
  · next ha => exact absurd ha hid
  · rfl

/-- A first look gives a slot exactly when the job may take one; otherwise the job waits. -/
theorem Balanced.acquire_cases (h : Balanced total 0 slots) {id : ι}
    (hid : slots.status id = .absent) (priority : Priority) :
    (slots.Admissible priority ∧
        slots.acquire id priority = (slots.register priority).grant id priority) ∨
      (¬ slots.Admissible priority ∧ slots.acquire id priority =
        { slots.register priority with
          waiters := (slots.register priority).waiters ++ [{ id, priority }] }) := by
  have ha := h.admits_register_iff priority
  by_cases hp : slots.Admissible priority
  · exact .inl ⟨hp, by simp [Slots.acquire, hid, ha.mpr hp]⟩
  · exact .inr ⟨hp, by simp [Slots.acquire, hid, mt ha.mp hp]⟩

/-- **A look gives a slot exactly when the job may take one**, whether or not the waiter has been
told of a change: one that has not been told could not take a slot. -/
theorem Balanced.poll_cases (h : Balanced total 0 slots) {w : Waiter ι} (hw : w ∈ slots.waiters) :
    (slots.Admissible w.priority ∧ w.notified = true ∧
        slots.poll w.id = (slots.withoutWaiter w.id).grant w.id w.priority) ∨
      (¬ slots.Admissible w.priority ∧ (slots.poll w.id = slots ∨ slots.poll w.id =
        { slots.withoutWaiter w.id with
          waiters := (slots.withoutWaiter w.id).waiters ++ [{ w with notified := false }] })) := by
  have ha := h.admits_iff_admissible w.priority
  have hf := h.find_waiter hw
  cases hn : w.notified with
  | false =>
    have hp : ¬ slots.Admissible w.priority := by
      -- nothing is looked at, and rightly so: a waiter that has not been told may not take a slot
      rw [← ha, h.parked w hw hn]
      simp
    exact .inr ⟨hp, .inl (by simp [Slots.poll, hf, hn])⟩
  | true =>
    by_cases hp : slots.Admissible w.priority
    · exact .inl ⟨hp, rfl, by simp [Slots.poll, hf, hn, ha.mpr hp]⟩
    · exact .inr ⟨hp, .inr (by simp [Slots.poll, hf, hn, mt ha.mp hp])⟩

end Decisions

/-! ### The census -/

/-- Who holds one of `total` slots, and who waits for one. -/
@[ext] structure Census (ι : Type) where
  total : Nat
  holders : Finset ι := ∅
  waiting : Priority → Finset ι := fun _ => ∅

namespace Census

variable [DecidableEq ι]

/-- A job may take a slot: not all are held, and no urgent job waits unless it is urgent itself. -/
def Admits (census : Census ι) (priority : Priority) : Prop :=
  census.holders.card < census.total ∧ (priority = .high ∨ census.waiting .high = ∅)

instance (census : Census ι) (priority : Priority) : Decidable (census.Admits priority) :=
  inferInstanceAs (Decidable (_ ∧ _))

/-- A job is no longer among the waiters. -/
def leave (census : Census ι) (id : ι) : Census ι :=
  { census with waiting := fun priority => (census.waiting priority).erase id }

/-- A job holds a slot. -/
def hold (census : Census ι) (id : ι) : Census ι :=
  { census with holders := insert id census.holders }

/-- A job is among the waiters. -/
def wait (census : Census ι) (id : ι) (priority : Priority) : Census ι :=
  { census with waiting := fun q =>
      if q = priority then insert id (census.waiting q) else census.waiting q }

/-- A waiter takes a slot if it may. -/
def retry (census : Census ι) (id : ι) (priority : Priority) : Census ι :=
  if census.Admits priority then (census.leave id).hold id else census

/-- What a job has to do with the slots. -/
def status (census : Census ι) (id : ι) : Status :=
  if id ∈ census.holders then .holding
  else if id ∈ census.waiting .high ∨ id ∈ census.waiting .normal then .waiting
  else .absent

/-- The census after an operation. -/
def perform (census : Census ι) : Operation ι → Census ι
  | .acquire id priority =>
    if census.status id = .absent then
      if census.Admits priority then census.hold id else census.wait id priority
    else census
  | .poll id =>
    if id ∈ census.waiting .high then census.retry id .high
    else if id ∈ census.waiting .normal then census.retry id .normal
    else census
  | .cancel id => census.leave id
  | .release id => { census with holders := census.holders.erase id }

/-- The census after some operations, when there were `total` slots and nobody had come. -/
def after (total : Nat) (operations : List (Operation ι)) : Census ι :=
  operations.foldl perform { total }

/-- Nobody gets a slot but by asking for it. -/
theorem mem_holders_of_perform {census : Census ι} {operation : Operation ι} {id : ι}
    (h : id ∈ (census.perform operation).holders) :
    id ∈ census.holders ∨ operation = .poll id ∨ ∃ priority, operation = .acquire id priority := by
  have hretry {i : ι} {priority : Priority} (h : id ∈ (census.retry i priority).holders) :
      id ∈ census.holders ∨ i = id := by
    unfold retry at h
    split at h
    · exact (Finset.mem_insert.mp h).symm.imp_right Eq.symm
    · exact .inl h
  cases operation with
  | acquire i priority =>
    simp only [perform] at h
    split at h
    · split at h
      · rcases Finset.mem_insert.mp h with rfl | h
        · exact .inr (.inr ⟨priority, rfl⟩)
        · exact .inl h
      · exact .inl h
    · exact .inl h
  | poll i =>
    have hi : id ∈ census.holders ∨ i = id := by
      simp only [perform] at h
      split at h
      · exact hretry h
      · split at h
        · exact hretry h
        · exact .inl h
    exact hi.imp_right fun he => .inl (by rw [he])
  | cancel i => exact .inl h
  | release i => exact .inl (Finset.mem_of_mem_erase h)

end Census

section View

variable [DecidableEq ι]

/-- The waiters of some urgency. -/
def waitingIds (slots : Slots ι) (priority : Priority) : Finset ι :=
  ((slots.waiters.filter (·.priority == priority)).map (·.id)).toFinset

/-- Who holds one of `total` slots, and who waits for one. -/
def census (slots : Slots ι) (total : Nat) : Census ι :=
  { total, holders := slots.holders.toFinset, waiting := slots.waitingIds }

theorem mem_waitingIds {slots : Slots ι} {priority : Priority} {id : ι} :
    id ∈ slots.waitingIds priority ↔ ∃ w ∈ slots.waiters, w.priority = priority ∧ w.id = id := by
  simp [waitingIds, and_assoc]

variable (slots : Slots ι) (total : Nat)

@[simp] theorem waitingIds_notify (priority : Priority) :
    slots.notify.waitingIds priority = slots.waitingIds priority := by
  ext id
  simp [mem_waitingIds, Slots.notify]

@[simp] theorem census_unregister (priority : Priority) :
    (slots.unregister priority).census total = slots.census total := by
  cases priority with
  | normal => rfl
  | high => exact Census.ext rfl rfl (funext fun q => waitingIds_notify _ q)

@[simp] theorem census_register (priority : Priority) :
    (slots.register priority).census total = slots.census total := by
  cases priority <;> rfl

@[simp] theorem census_grant (id : ι) (priority : Priority) :
    (slots.grant id priority).census total = (slots.census total).hold id := by
  rw [grant, census_unregister]
  exact Census.ext rfl (List.toFinset_cons ..) rfl

@[simp] theorem census_withoutWaiter (id : ι) :
    (slots.withoutWaiter id).census total = (slots.census total).leave id := by
  refine Census.ext rfl rfl (funext fun q => Finset.ext fun i => ?_)
  simp only [census, Census.leave, mem_waitingIds, Finset.mem_erase, withoutWaiter,
    List.mem_filter, bne_iff_ne]
  constructor
  · rintro ⟨w, ⟨hw, hne⟩, hp, rfl⟩
    exact ⟨hne, w, hw, hp, rfl⟩
  · rintro ⟨hne, w, hw, hp, rfl⟩
    exact ⟨w, ⟨hw, hne⟩, hp, rfl⟩

theorem census_enqueue (w : Waiter ι) :
    ({ slots with waiters := slots.waiters ++ [w] } : Slots ι).census total =
      (slots.census total).wait w.id w.priority := by
  refine Census.ext rfl rfl (funext fun q => Finset.ext fun i => ?_)
  simp only [census, Census.wait, mem_waitingIds, List.mem_append, List.mem_singleton]
  split <;> simp only [Finset.mem_insert, mem_waitingIds] <;> aesop

variable {slots} {total} (h : Balanced total 0 slots)

include h

/-- A waiter waits at its own urgency only. -/
theorem mem_waitingIds_iff {w : Waiter ι} (hw : w ∈ slots.waiters) {priority : Priority} :
    w.id ∈ slots.waitingIds priority ↔ priority = w.priority := by
  rw [mem_waitingIds]
  constructor
  · rintro ⟨v, hv, rfl, hid⟩
    rw [List.inj_on_of_nodup_map h.waiters_nodup hv hw hid]
  · rintro rfl
    exact ⟨w, hw, rfl, rfl⟩

theorem census_admits_iff (priority : Priority) :
    (slots.census total).Admits priority ↔ slots.Admissible priority := by
  -- nobody holds two slots, so counting holders is counting names
  have hcard : slots.holders.toFinset.card = slots.holders.length :=
    List.toFinset_card_of_nodup (List.nodup_append.mp h.distinct).1
  have hfree : slots.holders.toFinset.card < total ↔ 0 < slots.available := by
    rw [hcard, ← h.conserved]
    omega
  have hnone : slots.waitingIds .high = ∅ ↔ ∀ w ∈ slots.waiters, w.priority ≠ .high := by
    simp only [Finset.eq_empty_iff_forall_notMem, mem_waitingIds]
    constructor
    · intro hi w hw hp
      exact hi w.id ⟨w, hw, hp, rfl⟩
    · rintro hi i ⟨w, hw, hp, -⟩
      exact hi w hw hp
  exact and_congr hfree (or_congr_right hnone)

omit h in
theorem census_status (id : ι) : (slots.census total).status id = slots.status id := by
  have hw : (id ∈ slots.waitingIds .high ∨ id ∈ slots.waitingIds .normal) ↔
      slots.waiters.any (·.id == id) = true := by
    simp only [mem_waitingIds, List.any_eq_true, beq_iff_eq]
    constructor
    · rintro (⟨w, hw, -, hid⟩ | ⟨w, hw, -, hid⟩) <;> exact ⟨w, hw, hid⟩
    · rintro ⟨w, hw, hid⟩
      cases hp : w.priority
      · exact .inr ⟨w, hw, hp, hid⟩
      · exact .inl ⟨w, hw, hp, hid⟩
  simp [Census.status, Slots.status, census, hw]

/-- A waiter that goes to the end of the queue waits as before. -/
theorem census_requeue {w : Waiter ι} (hw : w ∈ slots.waiters) :
    ((slots.census total).leave w.id).wait w.id w.priority = slots.census total := by
  refine Census.ext rfl rfl (funext fun q => Finset.ext fun i => ?_)
  have hi : w.id ∈ slots.waitingIds q ↔ q = w.priority := mem_waitingIds_iff h hw
  simp only [census, Census.leave, Census.wait]
  split
  · next hq =>
    rw [Finset.insert_erase (hi.mpr hq)]
  · next hq =>
    rw [Finset.erase_eq_of_notMem (mt hi.mp hq)]

theorem census_acquire (id : ι) (priority : Priority) :
    (slots.acquire id priority).census total =
      (slots.census total).perform (.acquire id priority) := by
  rw [Census.perform, census_status]
  split
  · next hid =>
    rcases h.acquire_cases hid priority with ⟨hp, he⟩ | ⟨hp, he⟩
    · rw [if_pos ((census_admits_iff h _).mpr hp), he, census_grant, census_register]
    · rw [if_neg (mt (census_admits_iff h _).mp hp), he, census_enqueue, census_register]
  · next hid => rw [acquire_eq_self hid]

theorem census_poll (id : ι) :
    (slots.poll id).census total = (slots.census total).perform (.poll id) := by
  by_cases hex : ∃ w ∈ slots.waiters, w.id = id
  · obtain ⟨w, hw, rfl⟩ := hex
    have hm {q : Priority} : w.id ∈ slots.waitingIds q ↔ q = w.priority := mem_waitingIds_iff h hw
    have hretry : (slots.census total).perform (.poll w.id) =
        (slots.census total).retry w.id w.priority := by
      simp only [Census.perform, census, hm]
      cases w.priority <;> simp
    rw [hretry, Census.retry]
    -- a waiter takes its slot, stays, or stays at the end of the queue
    rcases h.poll_cases hw with ⟨hp, -, he⟩ | ⟨hp, he⟩
    · rw [if_pos ((census_admits_iff h _).mpr hp), he, census_grant, census_withoutWaiter]
    · rw [if_neg (mt (census_admits_iff h _).mp hp)]
      rcases he with he | he
      · rw [he]
      · rw [he, census_enqueue, census_withoutWaiter, census_requeue h hw]
  · have hno {q : Priority} : id ∉ slots.waitingIds q := by
      rw [mem_waitingIds]
      rintro ⟨w, hw, -, hid⟩
      exact hex ⟨w, hw, hid⟩
    -- nobody of this name waits
    have hf : slots.waiters.find? (·.id == id) = none := by
      simpa using fun w hw hid => hex ⟨w, hw, hid⟩
    simp [Census.perform, census, hno, Slots.poll, hf]

omit h in
theorem census_cancel (id : ι) :
    (slots.cancel id).census total = (slots.census total).perform (.cancel id) := by
  unfold cancel
  split
  · next w hf => rw [census_unregister, census_withoutWaiter, Census.perform]
  · next hf =>
    have hno {q : Priority} : id ∉ slots.waitingIds q := by
      rw [mem_waitingIds]
      rintro ⟨w, hw, -, hid⟩
      simpa [hid] using List.find?_eq_none.mp hf w hw
    exact Census.ext rfl rfl (funext fun q => (Finset.erase_eq_of_notMem hno).symm)

theorem census_release (id : ι) :
    (slots.release id).census total = (slots.census total).perform (.release id) := by
  have hn : slots.holders.Nodup := (List.nodup_append.mp h.distinct).1
  unfold release
  split
  · next hh =>
    refine Census.ext rfl (Finset.ext fun i => ?_) (funext fun q => waitingIds_notify _ q)
    simp [census, Census.perform, hn.mem_erase_iff]
  · next hh =>
    have hh' : id ∉ slots.holders.toFinset := by simpa using hh
    exact Census.ext rfl (Finset.erase_eq_of_notMem hh').symm rfl

/-- **Each operation does to the slots what it does to their census.** -/
theorem census_perform (operation : Operation ι) :
    (slots.perform operation).census total = (slots.census total).perform operation := by
  cases operation with
  | acquire id priority => exact census_acquire h id priority
  | poll id => exact census_poll h id
  | cancel id => exact census_cancel id
  | release id => exact census_release h id

end View

/-! ### Looks -/

@[simp] theorem grant_holders (slots : Slots ι) (id : ι) (priority : Priority) :
    (slots.grant id priority).holders = id :: slots.holders := by
  cases priority <;> rfl

@[simp] theorem register_holders (slots : Slots ι) (priority : Priority) :
    (slots.register priority).holders = slots.holders := by
  cases priority <;> rfl

section Looks

variable [DecidableEq ι] {total : Nat} {slots : Slots ι} (h : Balanced total 0 slots)

include h

theorem acquire_holding_iff {id : ι} (hid : slots.status id = .absent) (priority : Priority) :
    (slots.acquire id priority).status id = .holding ↔ slots.Admissible priority := by
  have hno : id ∉ slots.holders := fun hh => by simp [status_eq_holding_iff.mpr hh] at hid
  rcases h.acquire_cases hid priority with ⟨hp, he⟩ | ⟨hp, he⟩
  · simp [he, status_eq_holding_iff, hp]
  · simp [he, status_eq_holding_iff, hp, hno]

theorem poll_holding_iff {w : Waiter ι} (hw : w ∈ slots.waiters) :
    (slots.poll w.id).status w.id = .holding ↔ slots.Admissible w.priority := by
  have hno := h.not_mem_holders hw
  rcases h.poll_cases hw with ⟨hp, -, he⟩ | ⟨hp, he | he⟩
  · simp [he, status_eq_holding_iff, hp]
  · simp [he, status_eq_holding_iff, hp, hno]
  · rw [he, status_eq_holding_iff]
    exact iff_of_false hno hp

/-- Whatever is done, a waiter that may not take a slot gets none. -/
theorem not_holding_of_not_admissible {w : Waiter ι} (hw : w ∈ slots.waiters)
    (hp : ¬ slots.Admissible w.priority) (operation : Operation ι) :
    (slots.perform operation).status w.id ≠ .holding := by
  intro hid
  have hno := h.not_mem_holders hw
  have hmem : w.id ∈ ((slots.census total).perform operation).holders := by
    rw [← census_perform h]
    simpa [census] using status_eq_holding_iff.mp hid
  -- it held a slot before, or has looked, or has asked once more
  rcases Census.mem_holders_of_perform hmem with hh | rfl | ⟨priority, rfl⟩
  · exact hno (by simpa [census] using hh)
  · exact hp ((poll_holding_iff h hw).mp hid)
  · have habs : slots.status w.id ≠ .absent := by
      rw [Ne, status_eq_absent_iff, not_not]
      exact List.mem_append_right _ (List.mem_map_of_mem hw)
    rw [perform, acquire_eq_self habs] at hid
    exact hno (status_eq_holding_iff.mp hid)

/-- **While a slot is free and somebody waits, some waiter has been told and can take a slot**: an
urgent one if there is any, and else each. -/
theorem told_of_free_slot (hpos : 0 < slots.available) (hne : slots.waiters ≠ []) :
    ∃ w ∈ slots.waiters, w.notified = true ∧ (slots.poll w.id).status w.id = .holding := by
  -- an urgent waiter may take the slot, and without one anybody may
  obtain ⟨w, hw, hp⟩ : ∃ w ∈ slots.waiters, slots.Admissible w.priority := by
    by_cases hu : ∃ w ∈ slots.waiters, w.priority = .high
    · obtain ⟨w, hw, hp⟩ := hu
      exact ⟨w, hw, hpos, .inl hp⟩
    · obtain ⟨w, hw⟩ := List.exists_mem_of_ne_nil _ hne
      exact ⟨w, hw, hpos, .inr fun v hv hp => hu ⟨v, hv, hp⟩⟩
  rcases h.poll_cases hw with ⟨-, hn, -⟩ | ⟨hno, -⟩
  · exact ⟨w, hw, hn, (poll_holding_iff h hw).mpr hp⟩
  · exact absurd hp hno

end Looks

/-! ### Runs -/

section Runs

variable [DecidableEq ι]

/-- **The slots after some operations are those that the census says.** -/
theorem census_after (total : Nat) (operations : List (Operation ι)) :
    (after total operations).census total = Census.after total operations := by
  suffices hfold : ∀ (slots : Slots ι) (census : Census ι), Balanced total 0 slots →
      slots.census total = census →
      (operations.foldl perform slots).census total = operations.foldl Census.perform census from
    hfold _ _ (Balanced.empty total) (Census.ext rfl rfl rfl)
  induction operations with
  | nil => exact fun _ _ _ hc => hc
  | cons operation rest ih =>
    intro slots census h hc
    exact ih _ _ (h.perform operation) (by rw [census_perform h, hc])

/-- **No waiter is forgotten**, whoever does whatever in whichever order. The slots are those of
the census, in which every look decides anew. A first look and a later one give a slot exactly when
the job may take one; no ordinary waiter gets one while an urgent one waits; and while a slot is
free and somebody waits, some waiter has been told of it and gets a slot when it looks. -/
theorem no_wakeup_lost (total : Nat) (operations : List (Operation ι)) :
    let slots := after total operations
    (slots.census total = Census.after total operations ∧
      ∀ id, slots.status id = (Census.after total operations).status id) ∧
    (∀ id priority, slots.status id = .absent →
      ((slots.acquire id priority).status id = .holding ↔ slots.Admissible priority)) ∧
    (∀ w ∈ slots.waiters,
      ((slots.poll w.id).status w.id = .holding ↔ slots.Admissible w.priority)) ∧
    (∀ w ∈ slots.waiters, w.priority = .normal → (∃ v ∈ slots.waiters, v.priority = .high) →
      ∀ operation, (slots.perform operation).status w.id ≠ .holding) ∧
    (0 < slots.available → slots.waiters ≠ [] →
      ∃ w ∈ slots.waiters, w.notified = true ∧ (slots.poll w.id).status w.id = .holding) := by
  have h := balanced_after total operations
  have hc := census_after total operations
  refine ⟨⟨hc, fun id => ?_⟩, fun id priority hid => acquire_holding_iff h hid priority,
    fun w hw => poll_holding_iff h hw, ?_, told_of_free_slot h⟩
  · rw [← hc, census_status]
  · rintro w hw hn ⟨v, hv, hp⟩
    -- the urgent waiter keeps the ordinary one out
    refine not_holding_of_not_admissible h hw ?_
    rintro ⟨-, hq | hq⟩
    · simp [hn] at hq
    · exact hq v hv hp

/-- The ordinary waiter looks first, and waits on until the urgent one has had its slot. -/
example : (after 1 [.acquire 0 .normal, .acquire 1 .normal, .acquire 2 .high, .release 0, .poll 1,
    .poll 2]).status 2 = .holding := by decide

end Runs

end AsmInspect.Slots

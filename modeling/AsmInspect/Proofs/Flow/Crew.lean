import AsmInspect.Proofs.Flow.Run
import Mathlib.Data.Fintype.Basic
import Mathlib.Data.Finset.Card
import Mathlib.Data.Fintype.Card

/-!
# Crews

The members of a crew share a number of places. Whatever the order in which they take places, go on
and give their places back, a run of the crew is made of one run of each member: a member that has
not begun stands where it stood, one that works has begun once and gone on from there, and one
whose turn is over has gone on to its end. The free places and those of the members at work are
always as many as there were.

## Main definitions

* `Rota.atWork`: the members that have a place
* `eventsAt`, `begun`, `ended`, `failed`, `busy`: what has happened to a member
* `endings`: the order in which the members have ended
* `Served`: the history of a member, as its turn says
* `Underway`: a crew in the middle of its work, after some events

## Main results

* `Underway.step`, `Underway.run`: a crew under way stays so until it is over
* `Underway.card_atWork_le`: no more members are at work than there are places
* `Underway.mem_busy_iff`: the members at work are those that have begun and not ended
* `Underway.begins_of_idle`: a crew does not get stuck
-/

namespace AsmInspect

namespace Rota

variable {n : Nat}

/-- The members that have a place. -/
def atWork (rota : Rota n) : Finset (Fin n) := Finset.univ.filter (rota.turn · = .working)

@[simp] theorem mem_atWork {rota : Rota n} {i : Fin n} :
    i ∈ rota.atWork ↔ rota.turn i = .working := by simp [atWork]

@[simp] theorem assign_turn (rota : Rota n) (i : Fin n) :
    (rota.assign i).turn = Function.update rota.turn i .working := by
  funext j
  by_cases h : j = i <;> simp [assign, h]

@[simp] theorem dismiss_turn (rota : Rota n) (i : Fin n) :
    (rota.dismiss i).turn = Function.update rota.turn i .finished := by
  funext j
  by_cases h : j = i <;> simp [dismiss, h]

/-- A member that works or waits is none of those whose turn is over. -/
theorem erase_finishers {rota : Rota n} {i : Fin n} (h : rota.turn i ≠ .finished) :
    rota.finishers.erase i = rota.finishers :=
  List.erase_of_not_mem fun hi => h ((rota.mem_finishers i).mp hi)

/-- **When the turns of all are over, each has ended once.** -/
theorem finishers_perm {rota : Rota n} (finished : ∀ i, rota.turn i = .finished) :
    rota.finishers.Perm (List.finRange n) := by
  rw [List.perm_ext_iff_of_nodup rota.nodup_finishers (List.nodup_finRange n)]
  intro i
  simp [rota.mem_finishers, finished]

/-- Values listed in the order in which the members ended are the values of all. -/
theorem map_finishers_perm {rota : Rota n} (finished : ∀ i, rota.turn i = .finished) {β : Type}
    (values : Fin n → β) : (rota.finishers.map values).Perm (List.ofFn values) := by
  rw [List.ofFn_eq_map]
  exact (finishers_perm finished).map values

/-- A member that waits takes a free place. -/
theorem places_assign {rota : Rota n} {i : Fin n} (waits : rota.turn i = .waiting)
    (free : 0 < rota.free) :
    (rota.assign i).free + (rota.assign i).atWork.card = rota.free + rota.atWork.card := by
  have hw : (rota.assign i).atWork = insert i rota.atWork := by
    ext j
    by_cases h : j = i <;> simp [h]
  rw [hw, Finset.card_insert_of_notMem (by simp [waits])]
  simp only [assign]
  omega

/-- A member at work gives its place back. -/
theorem places_dismiss {rota : Rota n} {i : Fin n} (works : rota.turn i = .working) :
    (rota.dismiss i).free + (rota.dismiss i).atWork.card = rota.free + rota.atWork.card := by
  have hw : (rota.dismiss i).atWork = rota.atWork.erase i := by
    ext j
    by_cases h : j = i <;> simp [h]
  have hi : i ∈ rota.atWork := by simp [works]
  have hpos := Finset.card_pos.mpr ⟨i, hi⟩
  rw [hw, Finset.card_erase_of_mem hi]
  simp only [dismiss]
  omega

end Rota

namespace Flow

variable {α β : Type}

/-! ### What happens to one member -/

/-- What happens to the part that `i` leads to. -/
def eventsAt (i : Nat) (events : List Event) : List Event :=
  events.filterMap fun
    | (j :: p, act) => if j = i then some (p, act) else none
    | _ => none

theorem eventsAt_append (i : Nat) (events more : List Event) :
    eventsAt i (events ++ more) = eventsAt i events ++ eventsAt i more :=
  List.filterMap_append

@[simp] theorem eventsAt_nil (i : Nat) : eventsAt i [] = [] := rfl

@[simp] theorem eventsAt_self (i : Nat) (p : Position) (act : Act) :
    eventsAt i [(i :: p, act)] = [(p, act)] := by simp [eventsAt]

@[simp] theorem eventsAt_root (i : Nat) (act : Act) : eventsAt i [([], act)] = [] := rfl

theorem eventsAt_of_ne {i j : Nat} (h : j ≠ i) (p : Position) (act : Act) :
    eventsAt i [(j :: p, act)] = [] := by simp [eventsAt, h]

/-- Whether a member has taken a place. -/
def begun (i : Nat) (events : List Event) : Bool :=
  (eventsAt i events).any fun
    | ([], .begins) => true
    | _ => false

/-- Whether a member has given its place back. -/
def ended (i : Nat) (events : List Event) : Bool :=
  (eventsAt i events).any fun
    | ([], .ends _) => true
    | _ => false

/-- Whether a member has failed. -/
def failed (i : Nat) (events : List Event) : Bool :=
  (eventsAt i events).any fun
    | ([], .ends (some _)) => true
    | _ => false

/-- The members that have given their places back, the first first. -/
def endings (events : List Event) : List Nat :=
  events.filterMap fun
    | ([i], .ends _) => some i
    | _ => none

theorem endings_append (events more : List Event) :
    endings (events ++ more) = endings events ++ endings more := List.filterMap_append

/-- The members of a crew of `n` that have taken a place and not given it back. -/
def busy (n : Nat) (events : List Event) : Finset Nat :=
  (Finset.range n).filter fun i => begun i events ∧ ¬ ended i events

/-- **The history of a member**, as its turn says: what it was, what it is, and what happened to it
in between. -/
def Served (turn : Turn) (member current : Flow (Except Failure β)) (events : List Event) : Prop :=
  match turn with
  | .waiting => events = [] ∧ current = member
  | .working => ∃ inner, events = ([], .begins) :: inner ∧ Run member inner current
  | .finished => ∃ inner result,
      events = ([], .begins) :: inner ++ [([], .ends (failure? result))] ∧
        Run member inner current ∧ current = .done result

/-- A flow itself neither begins nor ends: its parts do. -/
theorem Step.root_act {flow flow' : Flow α} {act : Act} (h : Step flow ([], act) flow') :
    act ≠ .begins ∧ ∀ failure, act ≠ .ends failure := by
  cases h <;> simp

theorem Run.root_act {flow flow' : Flow α} {events : List Event} (h : Run flow events flow')
    {act : Act} (hmem : ([], act) ∈ events) : act ≠ .begins ∧ ∀ failure, act ≠ .ends failure := by
  induction h with
  | refl => simp at hmem
  | step head _ ih =>
    rcases List.mem_cons.mp hmem with rfl | hmem
    · exact head.root_act
    · exact ih hmem

/-- What happens within a member's own flow is no end of its turn. -/
theorem endings_member {member member' : Flow α} {p : Position} {act : Act} {i : Nat}
    (h : Step member (p, act) member') : endings [(i :: p, act)] = [] := by
  cases p with
  | nil =>
    cases act with
    | ends failure => exact absurd rfl (h.root_act.2 failure)
    | _ => rfl
  | cons => rfl

/-! ### A crew under way -/

variable {n : Nat} {limit : Nat} {members current : Fin n → Flow (Except Failure β)}
  {rota : Rota n} {events : List Event} {next : Except Failure (List β) → Flow α}

/-- **A crew in the middle of its work**: it began with `limit` free places and with `members`, and
`events` have happened since. -/
structure Underway (limit : Nat) (members : Fin n → Flow (Except Failure β)) (events : List Event)
    (rota : Rota n) (current : Fin n → Flow (Except Failure β)) : Prop where
  /-- Each member has gone on by itself. -/
  served : ∀ i, Served (rota.turn i) (members i) (current i) (eventsAt i events)
  /-- No place is lost, and none comes up from nowhere. -/
  places : rota.free + rota.atWork.card = limit
  /-- The members whose turn is over stand in the order in which they ended. -/
  order : rota.finishers.map Fin.val = endings events

/-- What a crew comes to: the results of all members in the order in which they ended, or the
failure of one. -/
inductive Outcome (rota : Rota n) (current : Fin n → Flow (Except Failure β)) :
    Except Failure (List β) → Prop
  | all (results : Fin n → β) (finished : ∀ i, rota.turn i = .finished)
      (ended : ∀ i, current i = .done (.ok (results i))) :
      Outcome rota current (.ok (rota.finishers.map results))
  | one (i : Fin n) (failure : Failure) (finished : rota.turn i = .finished)
      (ended : current i = .done (.error failure)) : Outcome rota current (.error failure)

namespace Underway

/-- A crew that has not begun. -/
theorem start (limit : Nat) (members : Fin n → Flow (Except Failure β)) :
    Underway limit members [] { free := limit } members where
  served _ := ⟨rfl, rfl⟩
  places := by simp [Rota.atWork]
  order := rfl

/-- Something that happens to one member leaves the histories of the others as they are. -/
theorem extend (h : Underway limit members events rota current) {rota' : Rota n}
    {current' : Fin n → Flow (Except Failure β)} (i : Fin n) (p : Position) (act : Act)
    (hi : Served (rota'.turn i) (members i) (current' i) (eventsAt i events ++ [(p, act)]))
    (hturn : ∀ j ≠ i, rota'.turn j = rota.turn j) (hcurrent : ∀ j ≠ i, current' j = current j)
    (hplaces : rota'.free + rota'.atWork.card = rota.free + rota.atWork.card)
    (horder : rota'.finishers.map Fin.val =
      rota.finishers.map Fin.val ++ endings [(i.val :: p, act)]) :
    Underway limit members (events ++ [(i.val :: p, act)]) rota' current' where
  served j := by
    rw [eventsAt_append]
    by_cases hj : j = i
    · subst hj
      rwa [eventsAt_self]
    · have hne : i.val ≠ j.val := fun he => hj (Fin.ext he.symm)
      rw [eventsAt_of_ne hne, List.append_nil, hturn j hj, hcurrent j hj]
      exact h.served j
  places := hplaces.trans h.places
  order := by rw [horder, endings_append, h.order]

/-- **A crew under way stays so**, until it is over. -/
theorem step (h : Underway limit members events rota current) {event : Event} {last : Flow α}
    (hstep : Step (.crew rota current next) event last) :
    (∃ rota' current', last = .crew rota' current' next ∧
        Underway limit members (events ++ [event]) rota' current') ∨
      (event = ([], .joins) ∧ ∃ results, Outcome rota current results ∧ last = next results) := by
  cases hstep with
  -- a step of one member extends its history, and no other
  | begins _ _ i waits place =>
    have hs := h.served i
    rw [waits] at hs
    obtain ⟨he, hm⟩ := hs
    refine .inl ⟨_, _, rfl, h.extend i [] .begins ?_ (fun j hj => by simp [hj]) (fun _ _ => rfl)
      (Rota.places_assign waits place.1) ?_⟩
    · rw [Rota.assign_turn, Function.update_self, he, hm]
      exact ⟨[], rfl, .refl _⟩
    · show (rota.finishers.erase i).map Fin.val = _
      rw [Rota.erase_finishers (by simp [waits])]
      exact (List.append_nil _).symm
  | member _ i works hmember =>
    have hs := h.served i
    rw [works] at hs
    obtain ⟨inner, he, hrun⟩ := hs
    refine .inl ⟨_, _, rfl, h.extend i _ _ ?_ (fun _ _ => rfl)
      (fun j hj => Function.update_of_ne hj ..) rfl ?_⟩
    · rw [works, he, Function.update_self]
      exact ⟨inner ++ [_], rfl, hrun.append (.single hmember)⟩
    · rw [endings_member hmember, List.append_nil]
  | ends _ i works hended =>
    have hs := h.served i
    rw [works] at hs
    obtain ⟨inner, he, hrun⟩ := hs
    refine .inl ⟨_, _, rfl, h.extend i [] _ ?_ (fun j hj => by simp [hj]) (fun _ _ => rfl)
      (Rota.places_dismiss works) ?_⟩
    · rw [Rota.dismiss_turn, Function.update_self, he]
      exact ⟨inner, _, rfl, hrun, hended⟩
    · show (rota.finishers.erase i ++ [i]).map Fin.val = _
      rw [Rota.erase_finishers (by simp [works]), List.map_append]
      rfl
  | crew _ results _ finished hended => exact .inr ⟨rfl, _, .all results finished hended, rfl⟩
  | fails _ i finished hended => exact .inr ⟨rfl, _, .one i _ finished hended, rfl⟩

/-- **A run of a crew** is within the crew, or it takes the crew to its outcome and goes on from
there. -/
theorem run (h : Underway limit members events rota current) {more : List Event} {last : Flow α}
    (hrun : Run (.crew rota current next) more last) :
    (∃ rota' current', last = .crew rota' current' next ∧
        Underway limit members (events ++ more) rota' current') ∨
      ∃ before later rota' current' results, more = before ++ ([], .joins) :: later ∧
        Underway limit members (events ++ before) rota' current' ∧
        Outcome rota' current' results ∧ Run (next results) later last := by
  generalize hf : Flow.crew rota current next = first at hrun
  induction hrun generalizing events rota current with
  | refl => exact .inl ⟨rota, current, hf.symm, by simpa using h⟩
  | @step _ second last event more head tail ih =>
    subst hf
    rcases h.step head with ⟨rota', current', rfl, h'⟩ | ⟨rfl, results, hout, rfl⟩
    · rcases ih h' rfl with ⟨rota'', current'', rfl, h''⟩ |
        ⟨before, later, rota'', current'', results, rfl, h'', hout, hlater⟩
      · exact .inl ⟨rota'', current'', rfl, by simpa using h''⟩
      · exact .inr ⟨event :: before, later, rota'', current'', results, rfl, by simpa using h'',
          hout, hlater⟩
    · exact .inr ⟨[], more, rota, current, results, rfl, by simpa using h, hout, tail⟩

/-- A run of a crew whose outcome is made into a result: it is within the crew, or it has come to
the end. What has happened to the members stays what it was. -/
theorem run_done (h : Underway limit members events rota current)
    {f : Except Failure (List β) → α} {more : List Event} {last : Flow α}
    (hrun : Run (.crew rota current fun results => .done (f results)) more last) :
    ∃ rota' current', Underway limit members (events ++ more) rota' current' ∧
      (last = .crew rota' current' (fun results => .done (f results)) ∨
        ∃ results, Outcome rota' current' results ∧ last = .done (f results)) := by
  rcases h.run hrun with ⟨rota', current', rfl, h'⟩ |
    ⟨before, later, rota', current', results, rfl, h', hout, hlater⟩
  · exact ⟨rota', current', h', .inl rfl⟩
  · obtain ⟨rfl, rfl⟩ := hlater.of_done
    -- the last event is none of a member, so the histories are the same with it
    refine ⟨rota', current', ⟨fun i => ?_, h'.places, ?_⟩, .inr ⟨results, hout, rfl⟩⟩
    · rw [← List.append_assoc, eventsAt_append, eventsAt_root, List.append_nil]
      exact h'.served i
    · rw [← List.append_assoc, endings_append, h'.order]
      exact (List.append_nil _).symm

/-! ### What the events say -/

/-- **No more members are at work than there are places.** -/
theorem card_atWork_le (h : Underway limit members events rota current) :
    rota.atWork.card ≤ limit := by
  have := h.places
  omega

theorem begun_eq (h : Underway limit members events rota current) (i : Fin n) :
    begun i events = decide (rota.turn i ≠ .waiting) := by
  have hs := h.served i
  unfold begun
  cases ht : rota.turn i <;> rw [ht] at hs
  · simp [hs.1]
  · obtain ⟨inner, he, -⟩ := hs
    simp [he]
  · obtain ⟨inner, result, he, -⟩ := hs
    simp [he]

/-- Within a run of a member's own flow the member neither begins nor ends. -/
theorem any_inner {member member' : Flow (Except Failure β)} {inner : List Event}
    (h : Run member inner member') {p : Event → Bool}
    (hp : ∀ event, p event = true → event = ([], .begins) ∨ ∃ f, event = ([], .ends f)) :
    inner.any p = false := by
  rw [List.any_eq_false]
  intro event hmem htrue
  rcases hp event htrue with rfl | ⟨f, rfl⟩
  · exact (h.root_act hmem).1 rfl
  · exact (h.root_act hmem).2 f rfl

theorem ended_eq (h : Underway limit members events rota current) (i : Fin n) :
    ended i events = decide (rota.turn i = .finished) := by
  have hs := h.served i
  unfold ended
  cases ht : rota.turn i <;> rw [ht] at hs
  · simp [hs.1]
  · obtain ⟨inner, he, hrun⟩ := hs
    -- what happens inside the member's flow is no end of its turn
    rw [he, List.any_cons, any_inner hrun (by rintro ⟨_ | _, _ | _ | _ | _⟩ <;> simp)]
    rfl
  · obtain ⟨inner, result, he, -⟩ := hs
    simp [he]

/-- A member has failed when its turn is over and it has come to a failure. -/
theorem failed_iff (h : Underway limit members events rota current) (i : Fin n) :
    failed i events = true ↔
      rota.turn i = .finished ∧ ∃ failure, current i = .done (.error failure) := by
  have hs := h.served i
  unfold failed
  cases ht : rota.turn i <;> rw [ht] at hs
  · simp [hs.1]
  · obtain ⟨inner, he, hrun⟩ := hs
    rw [he, List.any_cons, any_inner hrun (by rintro ⟨_ | _, _ | _ | ⟨_ | _⟩ | _⟩ <;> simp)]
    simp
  · obtain ⟨inner, result, he, hrun, hc⟩ := hs
    have hinner := any_inner hrun (p := fun | ([], .ends (some _)) => true | _ => false)
      (by rintro ⟨_ | _, _ | _ | ⟨_ | _⟩ | _⟩ <;> simp)
    rw [he, List.any_append, List.any_cons, hinner, hc]
    cases result <;> simp

/-- **The members at work are those that have begun and not ended.** -/
theorem mem_atWork_iff (h : Underway limit members events rota current) (i : Fin n) :
    i ∈ rota.atWork ↔ begun i events ∧ ¬ ended i events := by
  rw [h.begun_eq, h.ended_eq, Rota.mem_atWork]
  cases rota.turn i <;> simp

theorem busy_eq (h : Underway limit members events rota current) :
    busy n events = rota.atWork.map Fin.valEmbedding := by
  ext j
  rw [busy, Finset.mem_filter, Finset.mem_range, Finset.mem_map]
  constructor
  · rintro ⟨hj, hbusy⟩
    exact ⟨⟨j, hj⟩, (h.mem_atWork_iff ⟨j, hj⟩).mpr hbusy, rfl⟩
  · rintro ⟨i, hi, rfl⟩
    exact ⟨i.isLt, (h.mem_atWork_iff i).mp hi⟩

theorem mem_busy_iff (h : Underway limit members events rota current) (i : Fin n) :
    i.val ∈ busy n events ↔ rota.turn i = .working := by
  rw [h.busy_eq, ← Rota.mem_atWork]
  exact Finset.mem_map' Fin.valEmbedding

/-- **No more members are busy than there are places.** -/
theorem card_busy_le (h : Underway limit members events rota current) :
    (busy n events).card ≤ limit := by
  rw [h.busy_eq, Finset.card_map]
  exact h.card_atWork_le

/-- **When nobody is busy, a member that has not ended can take a place.** -/
theorem begins_of_idle (h : Underway limit members events rota current) (hlimit : 1 ≤ limit)
    (hmost : limit ≤ Rota.mostPlaces) (hidle : busy n events = ∅) {j : Nat} (hj : j < n)
    (hunfinished : ended j events = false) (next : Except Failure (List β) → Flow α) :
    begun j events = false ∧ ∃ flow, Step (.crew rota current next) ([j], .begins) flow := by
  let i : Fin n := ⟨j, hj⟩
  -- nobody has a place, so all are free
  have hcard : rota.atWork.card = 0 := by
    rw [← Finset.card_map Fin.valEmbedding, ← h.busy_eq, hidle, Finset.card_empty]
  have hplaces := h.places
  have hnot : rota.turn i ≠ .working := by
    rw [Ne, ← h.mem_busy_iff, hidle]
    simp
  have hended := h.ended_eq i
  rw [hunfinished] at hended
  have waits : rota.turn i = .waiting := by
    cases ht : rota.turn i with
    | waiting => rfl
    | working => exact absurd ht hnot
    | finished => simp [ht] at hended
  refine ⟨?_, _, .begins _ _ i waits ⟨by omega, by omega⟩⟩
  rw [h.begun_eq i, waits]
  rfl

/-- If no member has failed, a crew that has come to its outcome has the results of all. -/
theorem all_of_outcome (h : Underway limit members events rota current)
    (hnone : ∀ i < n, failed i events = false) {results : Except Failure (List β)}
    (hout : Outcome rota current results) :
    ∃ values : Fin n → β, results = .ok (rota.finishers.map values) ∧
      (∀ i, rota.turn i = .finished) ∧ ∀ i, current i = .done (.ok (values i)) := by
  cases hout with
  | all values finished hended => exact ⟨values, rfl, finished, hended⟩
  | one i failure finished hended =>
    have hfailed := (h.failed_iff i).mpr ⟨finished, failure, hended⟩
    rw [hnone i i.isLt] at hfailed
    cases hfailed

end Underway

end Flow

end AsmInspect

import AsmInspect.Flow.Step
import Mathlib.Logic.Function.Basic

/-!
# Runs of a flow

A flow may go on in many ways: the parts that go on side by side take their steps in any order, the
members of a crew take their places in any order, and a crew that has failed may notice it at once
or later. A run is any one of these ways, with everything that happens in it; the answers are
whatever the machine gives. Nothing happens to a crew with more places than there can be, so no run
of it comes to an end: the job crashes there.

The functions that a machine uses to drive a flow make one of these ways (`quietly_settle` and
`resume_step`); a statement about all runs does not depend on which.

## Main definitions

* `Act`, `Event`: what happens, and where
* `Step`: one thing that may happen
* `Run`: some things that may happen, one after the other

## Main results

* `Run.append`: runs are put together
* `Run.left`, `Run.right`, `Run.member`: a part may go on while the others stand still
* `run_bind`: a run of a flow followed by another is a run of the first, and then one of the second
-/

namespace AsmInspect

/-- The failure of a result, if it is one. -/
def failure? {β : Type} : Except Failure β → Option Failure
  | .ok _ => none
  | .error failure => some failure

@[simp] theorem failure?_ok {β : Type} (b : β) : failure? (.ok b : Except Failure β) = none := rfl

@[simp] theorem failure?_error {β : Type} (failure : Failure) :
    failure? (.error failure : Except Failure β) = some failure := rfl

namespace Flow

/-- What happens to a flow. -/
inductive Act where
  /-- A question is answered. -/
  | answered (query : Query) (answer : query.Answer)
  /-- A member of a crew takes a place. -/
  | begins
  /-- A member of a crew that has ended gives its place back, with its failure if it failed. -/
  | ends (failure : Option Failure)
  /-- The flow goes on after parts that went on side by side. -/
  | joins

/-- What happens to a flow, and at which position. -/
abbrev Event := Position × Act

/-- **One thing that may happen to a flow.** -/
inductive Step : {α : Type} → Flow α → Event → Flow α → Prop
  | answer {α : Type} (query : Query) (next : query.Answer → Flow α) (answer : query.Answer) :
      Step (.ask query next) ([], .answered query answer) (next answer)
  | left {α β γ : Type} {left left' : Flow β} {p : Position} {act : Act} (right : Flow γ)
      (next : β × γ → Flow α) (step : Step left (p, act) left') :
      Step (.both left right next) (0 :: p, act) (.both left' right next)
  | right {α β γ : Type} {right right' : Flow γ} {p : Position} {act : Act} (left : Flow β)
      (next : β × γ → Flow α) (step : Step right (p, act) right') :
      Step (.both left right next) (1 :: p, act) (.both left right' next)
  | both {α β γ : Type} (b : β) (c : γ) (next : β × γ → Flow α) :
      Step (.both (.done b) (.done c) next) ([], .joins) (next (b, c))
  | begins {α β : Type} {n : Nat} {rota : Rota n} (members : Fin n → Flow (Except Failure β))
      (next : Except Failure (List β) → Flow α) (i : Fin n) (waits : rota.turn i = .waiting)
      (place : rota.HasPlace) :
      Step (.crew rota members next) ([i.val], .begins) (.crew (rota.assign i) members next)
  | member {α β : Type} {n : Nat} {rota : Rota n} {members : Fin n → Flow (Except Failure β)}
      (next : Except Failure (List β) → Flow α) (i : Fin n) (works : rota.turn i = .working)
      {p : Position} {act : Act} {member : Flow (Except Failure β)}
      (step : Step (members i) (p, act) member) :
      Step (.crew rota members next) (i.val :: p, act)
        (.crew rota (Function.update members i member) next)
  | ends {α β : Type} {n : Nat} {rota : Rota n} {members : Fin n → Flow (Except Failure β)}
      (next : Except Failure (List β) → Flow α) (i : Fin n) (works : rota.turn i = .working)
      {result : Except Failure β} (ended : members i = .done result) :
      Step (.crew rota members next) ([i.val], .ends (failure? result))
        (.crew (rota.dismiss i) members next)
  | crew {α β : Type} {n : Nat} {rota : Rota n} {members : Fin n → Flow (Except Failure β)}
      (next : Except Failure (List β) → Flow α) (results : Fin n → β)
      (possible : rota.free ≤ Rota.mostPlaces) (finished : ∀ i, rota.turn i = .finished)
      (ended : ∀ i, members i = .done (.ok (results i))) :
      Step (.crew rota members next) ([], .joins) (next (.ok (rota.finishers.map results)))
  | fails {α β : Type} {n : Nat} {rota : Rota n} {members : Fin n → Flow (Except Failure β)}
      (next : Except Failure (List β) → Flow α) (i : Fin n) (finished : rota.turn i = .finished)
      {failure : Failure} (ended : members i = .done (.error failure)) :
      Step (.crew rota members next) ([], .joins) (next (.error failure))

/-- **Some things that may happen to a flow**, one after the other. -/
inductive Run {α : Type} : Flow α → List Event → Flow α → Prop
  | refl (flow : Flow α) : Run flow [] flow
  | step {first second last : Flow α} {event : Event} {events : List Event}
      (head : Step first event second) (tail : Run second events last) :
      Run first (event :: events) last

variable {α β γ : Type}

namespace Run

theorem single {first last : Flow α} {event : Event} (h : Step first event last) :
    Run first [event] last := .step h (.refl last)

theorem append {first second last : Flow α} {events more : List Event}
    (h : Run first events second) (k : Run second more last) : Run first (events ++ more) last := by
  induction h with
  | refl => exact k
  | step head _ ih => exact .step head (ih k)

/-- Nothing happens to a flow that has ended. -/
theorem of_done {r : α} {events : List Event} {last : Flow α} (h : Run (.done r) events last) :
    events = [] ∧ last = .done r := by
  cases h with
  | refl => exact ⟨rfl, rfl⟩
  | step head _ => cases head

/-- A question is answered before anything else happens. -/
theorem of_ask {query : Query} {next : query.Answer → Flow α} {events : List Event} {r : α}
    (h : Run (.ask query next) events (.done r)) :
    ∃ answer later, events = ([], .answered query answer) :: later ∧
      Run (next answer) later (.done r) := by
  cases h with
  | step head tail =>
    cases head with
    | answer _ _ answer => exact ⟨answer, _, rfl, tail⟩

/-- A question is still open, or its answer is the first thing that happens. -/
theorem ask_cases {query : Query} {next : query.Answer → Flow α} {events : List Event}
    {last : Flow α} (h : Run (.ask query next) events last) :
    (events = [] ∧ last = .ask query next) ∨
      ∃ answer later, events = ([], .answered query answer) :: later ∧
        Run (next answer) later last := by
  cases h with
  | refl => exact .inl ⟨rfl, rfl⟩
  | step head tail =>
    cases head with
    | answer _ _ answer => exact .inr ⟨answer, _, rfl, tail⟩

/-! ### Parts of a flow -/

theorem left {l l' : Flow β} {events : List Event} (h : Run l events l') (r : Flow γ)
    (next : β × γ → Flow α) :
    Run (.both l r next) (events.map fun (p, act) => (0 :: p, act)) (.both l' r next) := by
  induction h with
  | refl => exact .refl _
  | step head _ ih => exact .step (.left r next head) ih

theorem right {r r' : Flow γ} {events : List Event} (h : Run r events r') (l : Flow β)
    (next : β × γ → Flow α) :
    Run (.both l r next) (events.map fun (p, act) => (1 :: p, act)) (.both l r' next) := by
  induction h with
  | refl => exact .refl _
  | step head _ ih => exact .step (.right l next head) ih

theorem member {n : Nat} {rota : Rota n} {members : Fin n → Flow (Except Failure β)} {i : Fin n}
    {m : Flow (Except Failure β)} {events : List Event} (h : Run (members i) events m)
    (works : rota.turn i = .working) (next : Except Failure (List β) → Flow α) :
    Run (.crew rota members next) (events.map fun (p, act) => (i.val :: p, act))
      (.crew rota (Function.update members i m) next) := by
  generalize hf : members i = f at h
  induction h generalizing members with
  | refl => rw [← hf, Function.update_eq_self]; exact .refl _
  | @step _ second _ _ _ head _ ih =>
    have hself : Function.update members i second i = second := Function.update_self ..
    have hrest := ih hself
    rw [Function.update_idem] at hrest
    exact .step (.member next i works (hf ▸ head)) hrest

end Run

/-! ### One flow after another -/

/-- Nothing follows. -/
theorem bind_done (flow : Flow α) : flow.bind .done = flow := by
  induction flow with
  | done a => rfl
  | ask query next ih =>
    rw [bind]
    exact congrArg _ (funext ih)
  | both left right next _ _ ih =>
    rw [bind]
    exact congrArg _ (funext ih)
  | crew rota members next _ ih =>
    rw [bind]
    exact congrArg _ (funext ih)

/-- What may happen to a flow that another one follows happens to the first of them that has not
ended. -/
theorem step_bind {flow : Flow α} {g : α → Flow β} {event : Event} {last : Flow β}
    (h : Step (flow.bind g) event last) :
    (∃ flow', Step flow event flow' ∧ last = flow'.bind g) ∨
      ∃ a, flow = .done a ∧ Step (g a) event last := by
  cases flow with
  | done a => exact .inr ⟨a, rfl, h⟩
  | ask query next =>
    cases h
    exact .inl ⟨_, .answer .., rfl⟩
  | both left right next =>
    left
    cases h with
    | left _ _ step => exact ⟨_, .left _ _ step, rfl⟩
    | right _ _ step => exact ⟨_, .right _ _ step, rfl⟩
    | both b c => exact ⟨_, .both .., rfl⟩
  | crew rota members next =>
    left
    cases h with
    | begins _ _ i waits place => exact ⟨_, .begins _ _ i waits place, rfl⟩
    | member _ i works step => exact ⟨_, .member _ i works step, rfl⟩
    | ends _ i works ended => exact ⟨_, .ends _ i works ended, rfl⟩
    | crew _ results possible finished ended =>
      exact ⟨_, .crew _ results possible finished ended, rfl⟩
    | fails _ i finished ended => exact ⟨_, .fails _ i finished ended, rfl⟩

/-- **A run of a flow that another one follows** is within the first, or it is a whole run of the
first and then one of the second. -/
theorem run_bind {flow : Flow α} {g : α → Flow β} {events : List Event} {last : Flow β}
    (h : Run (flow.bind g) events last) :
    (∃ flow', Run flow events flow' ∧ last = flow'.bind g) ∨
      ∃ before later a, events = before ++ later ∧ Run flow before (.done a) ∧
        Run (g a) later last := by
  generalize hf : flow.bind g = first at h
  induction h generalizing flow with
  | refl => exact .inl ⟨flow, .refl flow, hf.symm⟩
  | @step first second last event events head tail ih =>
    subst hf
    rcases step_bind head with ⟨flow', hstep, rfl⟩ | ⟨a, rfl, hstep⟩
    · rcases ih rfl with ⟨flow'', hrun, rfl⟩ | ⟨before, later, a, rfl, hrun, hlater⟩
      · exact .inl ⟨flow'', .step hstep hrun, rfl⟩
      · exact .inr ⟨event :: before, later, a, rfl, .step hstep hrun, hlater⟩
    · exact .inr ⟨[], event :: events, a, rfl, .refl _, .step hstep tail⟩

end Flow

end AsmInspect

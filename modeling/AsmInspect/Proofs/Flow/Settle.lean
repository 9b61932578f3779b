import AsmInspect.Proofs.Flow.Progress

/-!
# The way a machine drives a flow

A machine answers a question of a flow and lets it settle: whatever needs no answer happens at
once, and members of crews take places in their order. That is one of the runs of the flow, so what
holds of all runs holds of what a machine does.

## Main definitions

* `Silent`, `Quietly`: nothing is answered, and a flow comes to another without an answer

## Main results

* `quietly_settle`: a flow settles by a run without answers
* `resume_step`: an answer to an open question is a step
-/

namespace AsmInspect.Flow

variable {α β γ : Type}

/-- Nothing is answered. -/
def Silent (events : List Event) : Prop :=
  ∀ position query answer, (position, .answered query answer) ∉ events

/-- A flow comes to another without an answer. -/
def Quietly (first last : Flow α) : Prop := ∃ events, Run first events last ∧ Silent events

/-- Where something happens does not matter for whether it is an answer. -/
theorem Silent.map {events : List Event} (h : Silent events) (i : Nat) :
    Silent (events.map fun (p, act) => (i :: p, act)) := by
  intro p q a hm
  obtain ⟨⟨p', act⟩, hmem, he⟩ := List.mem_map.mp hm
  obtain ⟨-, rfl⟩ := Prod.mk.inj he
  exact h p' q a hmem

namespace Quietly

theorem refl (flow : Flow α) : Quietly flow flow := ⟨[], .refl flow, by simp [Silent]⟩

theorem trans {first second last : Flow α} (h : Quietly first second) (k : Quietly second last) :
    Quietly first last := by
  obtain ⟨events, hrun, hs⟩ := h
  obtain ⟨more, hrun', hs'⟩ := k
  refine ⟨events ++ more, hrun.append hrun', fun p q a hm => ?_⟩
  rcases List.mem_append.mp hm with hm | hm
  · exact hs p q a hm
  · exact hs' p q a hm

theorem single {first last : Flow α} {position : Position} {act : Act}
    (h : Step first (position, act) last) (hact : ∀ query answer, act ≠ .answered query answer) :
    Quietly first last := by
  refine ⟨_, .single h, fun p q a hm => ?_⟩
  obtain ⟨-, rfl⟩ := Prod.mk.inj (List.mem_singleton.mp hm)
  exact hact q a rfl

theorem left {l l' : Flow β} (h : Quietly l l') (r : Flow γ) (next : β × γ → Flow α) :
    Quietly (.both l r next) (.both l' r next) := by
  obtain ⟨events, hrun, hs⟩ := h
  exact ⟨_, hrun.left r next, hs.map 0⟩

theorem right {r r' : Flow γ} (h : Quietly r r') (l : Flow β) (next : β × γ → Flow α) :
    Quietly (.both l r next) (.both l r' next) := by
  obtain ⟨events, hrun, hs⟩ := h
  exact ⟨_, hrun.right l next, hs.map 1⟩

theorem member {n : Nat} {rota : Rota n} {members : Fin n → Flow (Except Failure β)} {i : Fin n}
    {m : Flow (Except Failure β)} (h : Quietly (members i) m) (works : rota.turn i = .working)
    (next : Except Failure (List β) → Flow α) :
    Quietly (.crew rota members next) (.crew rota (Function.update members i m) next) := by
  obtain ⟨events, hrun, hs⟩ := h
  exact ⟨_, hrun.member works next, hs.map i⟩

end Quietly

theorem eq_done_of_result? {flow : Flow α} {r : α} (h : flow.result? = some r) :
    flow = .done r := by
  cases flow <;> simp_all [result?]

/-! ### A crew settles -/

section Crew

variable {n : Nat} {members settled : Fin n → Flow (Except Failure β)}
  {next : Except Failure (List β) → Flow α} {rota : Rota n}

/-- The members that have begun, settled, and the others as they are. -/
def settledBegun (members settled : Fin n → Flow (Except Failure β)) (rota : Rota n) :
    Fin n → Flow (Except Failure β) :=
  fun i => if rota.turn i = .waiting then members i else settled i

/-- The members at work settle. -/
theorem quietly_members (hm : ∀ i, Quietly (members i) (settled i))
    (hover : ∀ i, rota.turn i = .finished → settled i = members i)
    (next : Except Failure (List β) → Flow α) :
    Quietly (crew rota members next) (crew rota (settledBegun members settled rota) next) := by
  -- those of a set of members settle, one after the other
  let partly (s : Finset (Fin n)) : Fin n → Flow (Except Failure β) :=
    fun i => if i ∈ s ∧ rota.turn i = .working then settled i else members i
  have hset : ∀ s, Quietly (crew rota members next) (crew rota (partly s) next) := by
    intro s
    induction s using Finset.induction_on with
    | empty => simpa [partly] using Quietly.refl _
    | insert i s hi ih =>
      refine ih.trans ?_
      by_cases works : rota.turn i = .working
      · have hmember : Quietly (partly s i) (settled i) := by simpa [partly, hi] using hm i
        convert! hmember.member works next using 2
        funext j
        by_cases hj : j = i <;> simp [partly, hj, works]
      · convert! Quietly.refl _ using 2
        funext j
        by_cases hj : j = i <;> simp [partly, hj, works]
  convert! hset Finset.univ using 2
  funext i
  cases ht : rota.turn i <;> simp [partly, settledBegun, ht, hover]

/-- A member that has ended gives its place back. -/
theorem quietly_retire (i : Fin n) :
    Quietly (crew rota (settledBegun members settled rota) next)
      (crew (rota.retire (fun i => (settled i).result?.isSome) i)
        (settledBegun members settled (rota.retire (fun i => (settled i).result?.isSome) i))
        next) := by
  unfold Rota.retire
  split
  · next h =>
    obtain ⟨works, hsome⟩ := h
    obtain ⟨result, hresult⟩ := Option.isSome_iff_exists.mp hsome
    have hdone : settledBegun members settled rota i = .done result := by
      simp [settledBegun, works, eq_done_of_result? hresult]
    have hsame : settledBegun members settled (rota.dismiss i) =
        settledBegun members settled rota := by
      funext j
      by_cases hj : j = i <;> simp [settledBegun, hj, works]
    rw [hsame]
    exact .single (.ends next i works hdone) (by simp)
  · exact .refl _

/-- A member that waits takes a free place, settles, and gives the place back if it has ended. -/
theorem quietly_enlist (hm : ∀ i, Quietly (members i) (settled i)) (i : Fin n) :
    Quietly (crew rota (settledBegun members settled rota) next)
      (crew (rota.enlist (fun i => (settled i).result?.isSome) i)
        (settledBegun members settled (rota.enlist (fun i => (settled i).result?.isSome) i))
        next) := by
  unfold Rota.enlist
  split
  · next h =>
    obtain ⟨waits, place⟩ := h
    -- it takes the place, settles at work, and may give the place back at once
    refine Quietly.trans ?_ (quietly_retire i)
    have hbegins : Quietly (crew rota (settledBegun members settled rota) next)
        (crew (rota.assign i) (settledBegun members settled rota) next) :=
      .single (.begins _ next i waits place) (by simp)
    have hmember : Quietly (settledBegun members settled rota i) (settled i) := by
      simpa [settledBegun, waits] using hm i
    have works : (rota.assign i).turn i = .working := by simp
    refine hbegins.trans ?_
    convert! hmember.member works next using 2
    funext j
    by_cases hj : j = i <;> simp [settledBegun, hj]
  · exact .refl _

theorem quietly_foldl (f : Rota n → Fin n → Rota n)
    (hf : ∀ rota i, Quietly (crew rota (settledBegun members settled rota) next)
      (crew (f rota i) (settledBegun members settled (f rota i)) next))
    (l : List (Fin n)) (rota : Rota n) :
    Quietly (crew rota (settledBegun members settled rota) next)
      (crew (l.foldl f rota) (settledBegun members settled (l.foldl f rota)) next) := by
  induction l generalizing rota with
  | nil => exact .refl _
  | cons i l ih => exact (hf rota i).trans (ih (f rota i))

/-- The places go round. -/
theorem quietly_advance (hm : ∀ i, Quietly (members i) (settled i)) :
    Quietly (crew rota (settledBegun members settled rota) next)
      (crew (rota.advance fun i => (settled i).result?.isSome)
        (settledBegun members settled (rota.advance fun i => (settled i).result?.isSome)) next) :=
  (quietly_foldl _ (fun _ i => quietly_retire i) _ _).trans
    (quietly_foldl _ (fun _ i => quietly_enlist hm i) _ _)

theorem eq_of_failureOf? {i : Fin n} {failure : Failure}
    (h : failureOf? rota (fun i => (settled i).result?) i = some failure) :
    rota.turn i = .finished ∧ settled i = .done (.error failure) := by
  unfold failureOf? at h
  split at h
  · next hturn hresult =>
    cases h
    exact ⟨hturn, eq_done_of_result? hresult⟩
  · cases h

theorem eq_of_valueOf? {i : Fin n} {b : β}
    (h : valueOf? rota (fun i => (settled i).result?) i = some b) :
    rota.turn i = .finished ∧ settled i = .done (.ok b) := by
  unfold valueOf? at h
  split at h
  · next hturn hresult =>
    cases h
    exact ⟨hturn, eq_done_of_result? hresult⟩
  · cases h

/-- The result of a crew is one that it may come to. -/
theorem step_of_crewResult? {results : Except Failure (List β)}
    (h : crewResult? rota (fun i => (settled i).result?) = some results) :
    Step (crew rota (settledBegun members settled rota) next) ([], .joins) (next results) := by
  unfold crewResult? at h
  split at h
  · next failure hfind =>
    -- the failure of the member that ended first is one that may be noticed
    obtain rfl : Except.error failure = results := by simpa using h
    obtain ⟨i, -, hi⟩ := List.exists_of_findSome?_eq_some hfind
    obtain ⟨finished, hdone⟩ := eq_of_failureOf? hi
    exact .fails next i finished (by simp [settledBegun, finished, hdone])
  · split at h
    · next hall =>
      have hvalue := fun i => eq_of_valueOf? (Option.some_get (hall.2 i)).symm
      cases h
      exact .crew next _ hall.1 (fun i => (hvalue i).1) fun i => by
        simpa [settledBegun, (hvalue i).1] using (hvalue i).2
    · cases h

end Crew

/-- **A flow settles by a run without answers.** -/
theorem quietly_settle {flow : Flow α} (h : flow.Tidy) : Quietly flow flow.settle := by
  induction flow with
  | done r => exact .refl _
  | ask query next => exact .refl _
  | both left right next ihl ihr ihn =>
    have hboth := ((ihl h.1).left right next).trans ((ihr h.2.1).right left.settle next)
    simp only [settle]
    split
    · next b c hb hc =>
      refine hboth.trans (.trans ?_ (ihn (b, c) (h.2.2 _)))
      rw [eq_done_of_result? hb, eq_done_of_result? hc]
      exact .single (.both b c next) (by simp)
    · exact hboth
  | crew rota members next ihm ihn =>
    have hm := fun i => ihm i (h.2.1 i)
    -- a member whose turn is over is at its end, and stays as it is
    have hover : ∀ i, rota.turn i = .finished → (members i).settle = members i := by
      intro i hi
      obtain ⟨result, hr⟩ := h.1 i hi
      rw [hr, settle]
    have hcrew := (quietly_members hm hover next).trans (quietly_advance hm)
    simp only [settle]
    split
    · next results hresults =>
      exact hcrew.trans (.trans (.single (step_of_crewResult? hresults) (by simp))
        (ihn results (h.2.2 _)))
    · exact hcrew

/-- **An answer to an open question is a step**; an answer to another question changes nothing. -/
theorem resume_step (query : Query) (answer : query.Answer) (position : Position)
    (flow : Flow α) :
    flow.resume query answer position = flow ∨
      Step flow (position, .answered query answer) (flow.resume query answer position) := by
  induction flow generalizing position with
  | done r => exact .inl (by cases position <;> simp [resume])
  | ask asked next =>
    cases position with
    | nil =>
      simp only [resume]
      split
      · next h =>
        subst h
        exact .inr (.answer ..)
      · exact .inl rfl
    | cons => exact .inl (by simp [resume])
  | both left right next ihl ihr =>
    match position with
    | [] => exact .inl (by simp [resume])
    | 0 :: p =>
      simp only [resume]
      exact (ihl p).imp (fun h => by rw [h]) (.left right next)
    | 1 :: p =>
      simp only [resume]
      exact (ihr p).imp (fun h => by rw [h]) (.right left next)
    | (k + 2) :: p => exact .inl (by simp [resume])
  | @crew _ _ n rota members next ihm =>
    cases position with
    | nil => exact .inl (by simp [resume])
    | cons k p =>
      simp only [resume]
      by_cases hk : ∃ i : Fin n, i.val = k ∧ rota.turn i = .working
      · obtain ⟨i, rfl, works⟩ := hk
        have hupdate : (fun j => if j.val = i.val ∧ rota.turn j = .working
            then (members j).resume query answer p else members j) =
            Function.update members i ((members i).resume query answer p) := by
          funext j
          by_cases hj : j = i
          · subst hj
            simp [works]
          · have hne : j.val ≠ i.val := fun he => hj (Fin.ext he)
            simp [hj, hne]
        rw [hupdate]
        rcases ihm i p with h | h
        · exact .inl (by rw [h, Function.update_eq_self])
        · exact .inr (.member next i works h)
      · refine .inl ?_
        have hnone : (fun j => if j.val = k ∧ rota.turn j = .working
            then (members j).resume query answer p else members j) = members := by
          funext j
          rw [if_neg fun hj => hk ⟨j, hj⟩]
        rw [hnone]

/-- **What a machine does with an answer is a run**: the answer, if it is one to an open question,
and then what needs none. -/
theorem run_resume_settle {flow : Flow α} (h : flow.Tidy) (query : Query) (answer : query.Answer)
    (position : Position) :
    ∃ events, Run flow events (flow.resume query answer position).settle := by
  rcases resume_step query answer position flow with he | hstep
  · obtain ⟨events, hrun, -⟩ := quietly_settle h
    exact ⟨events, by rwa [he]⟩
  · obtain ⟨events, hrun, -⟩ := quietly_settle (h.step tidyCrew_stable hstep)
    exact ⟨_, .step hstep hrun⟩

end AsmInspect.Flow

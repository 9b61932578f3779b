import AsmInspect.Proofs.Flow.Settle
import AsmInspect.Proofs.Machine.Phases
import AsmInspect.Proofs.Toolchain.Questions

/-!
# Jobs at work

The machine works on some of the questions that a job asks. It may still work on one that nobody
asks any more, and it may get an answer too late; still a job that runs its compiler alone has at
most one run of it on the machine, since a question that is asked alone stays the question of the
job until it is answered.

## Main definitions

* `Undertaking.primaries`: the compiler runs among the questions that the machine works on
* `Undertaking.Lone`: the invariant of a job that runs its compiler alone

## Main results

* `Undertaking.Lone.resume`, `Undertaking.Lone.keep`: an answer and a new question keep the
  invariant
* `Agenda.lone_of_later`: so does everything that a job goes through
-/

namespace AsmInspect

open AsmInspect.Flow

variable {α : Type}

namespace Undertaking

/-- The runs of the compiler among the questions that the machine works on. -/
def primaries (work : Undertaking α) : List (Position × Query) :=
  work.asked.filter (·.2.isPrimary)

/-- **A job that runs its compiler alone.** The run that the machine works on, if there is one, is
what the job waits for. -/
structure Lone (work : Undertaking α) : Prop where
  abreast : work.flow.Abreast (·.isPrimary = false) TidyCrew
  most : work.primaries.length ≤ 1
  current : ∀ p query, (p, query) ∈ work.asked → query.isPrimary = true →
    p = [] ∧ ∃ next, work.flow = .ask query next

theorem mem_primaries {work : Undertaking α} {p : Position} {query : Query} :
    (p, query) ∈ work.primaries ↔ (p, query) ∈ work.asked ∧ query.isPrimary = true := by
  simp [primaries]

/-- They are the runs of the compiler among its tool runs. -/
theorem countP_toolsOf (work : Undertaking α) :
    (toolsOf work.asked).countP (·.isPrimary) = work.primaries.length := by
  rw [primaries, ← List.countP_eq_length_filter]
  induction work.asked with
  | nil => rfl
  | cons question questions ih =>
    obtain ⟨p, query⟩ := question
    have htools : query.tools.countP (·.isPrimary) = if query.isPrimary then 1 else 0 := by
      cases query with
      | runTool call => exact List.countP_singleton
      | _ => rfl
    rw [toolsOf, List.flatMap_cons, List.countP_append, List.countP_cons, ← ih, htools,
      Nat.add_comm]
    rfl

namespace Lone

variable {work : Undertaking α}

/-- A flow goes on and settles. -/
theorem abreast_settle {flow : Flow α} (h : flow.Abreast (·.isPrimary = false) TidyCrew) :
    flow.settle.Abreast (·.isPrimary = false) TidyCrew := by
  obtain ⟨events, hrun, -⟩ := quietly_settle h.tidy
  exact h.run tidyCrew_stable hrun

theorem abreast_resume {flow : Flow α} (h : flow.Abreast (·.isPrimary = false) TidyCrew)
    (query : Query) (answer : query.Answer) (p : Position) :
    (flow.resume query answer p).settle.Abreast (·.isPrimary = false) TidyCrew := by
  obtain ⟨events, hrun⟩ := run_resume_settle h.tidy query answer p
  exact h.run tidyCrew_stable hrun

/-- A job that begins. -/
theorem start {flow : Flow α} (h : flow.Abreast (·.isPrimary = false) TidyCrew)
    (deadline : Option Nat) : Lone { flow := flow.settle, deadline } where
  abreast := abreast_settle h
  most := Nat.zero_le _
  current p query hmem := by simp at hmem

/-- The machine stops working on some questions. -/
theorem forget (h : work.Lone) {asked : List (Position × Query)}
    (hsub : asked.Sublist work.asked) : Lone { work with asked } where
  abreast := h.abreast
  most := (hsub.filter _).length_le.trans h.most
  current p query hmem := h.current p query (hsub.subset hmem)

/-- An answer to another question than the one that a flow asks changes nothing. -/
theorem resume_ask_of_ne {asked query : Query} {next : asked.Answer → Flow α} {p : Position}
    (hne : (p, query) ≠ ([], asked)) (answer : query.Answer) :
    ((Flow.ask asked next).resume query answer p).settle = .ask asked next := by
  cases p with
  | nil =>
    have hquery : query ≠ asked := fun he => hne (by rw [he])
    rw [Flow.resume, dif_neg hquery, Flow.settle]
  | cons i p => rw [Flow.resume, Flow.settle] <;> simp

/-- **An answer keeps the invariant**, whether or not the job still waits for it. -/
theorem resume (h : work.Lone) (p : Position) (query : Query) (answer : query.Answer) :
    (work.resume p query answer).Lone := by
  have hsub : (work.asked.erase (p, query)).Sublist work.asked := List.erase_sublist
  refine ⟨abreast_resume h.abreast query answer p, ((hsub.filter _).length_le).trans h.most, ?_⟩
  intro p' primary hmem hprimary
  have hasked := hsub.subset hmem
  obtain ⟨rfl, next, hflow⟩ := h.current p' primary hasked hprimary
  -- the run that is left is not the one that was answered, or it would have been there twice
  have hne : (p, query) ≠ ([], primary) := by
    rintro he
    have htwice : [([], primary), ([], primary)].Sublist work.primaries := by
      have hcount : 2 ≤ work.primaries.count ([], primary) := by
        have hone : 1 ≤ (work.asked.erase (p, query)).count ([], primary) :=
          List.one_le_count_iff.mpr hmem
        rw [he, List.count_erase_self] at hone
        rw [primaries, List.count_filter (by simpa using hprimary)]
        omega
      exact List.replicate_sublist_iff.mpr hcount
    have := htwice.length_le.trans h.most
    simp at this
  refine ⟨rfl, next, ?_⟩
  show (work.flow.resume query answer p).settle = _
  rw [hflow]
  exact resume_ask_of_ne hne answer

/-- **A new question keeps the invariant.** -/
theorem keep (h : work.Lone) {p : Position} {query : Query} (hmem : (p, query) ∈ work.fresh) :
    Lone { work with asked := work.asked ++ [(p, query)] } := by
  obtain ⟨hopen, hnew⟩ := mem_fresh.mp hmem
  cases hq : query.isPrimary with
  | false =>
    have hprimaries : (work.asked ++ [(p, query)]).filter (·.2.isPrimary) = work.primaries := by
      simp [primaries, hq]
    refine ⟨h.abreast, by rw [primaries, hprimaries]; exact h.most, ?_⟩
    intro p' primary hasked hprimary
    rcases List.mem_append.mp hasked with hasked | hasked
    · exact h.current p' primary hasked hprimary
    · obtain ⟨-, rfl⟩ := Prod.mk.inj (List.mem_singleton.mp hasked)
      simp [hq] at hprimary
  | true =>
    obtain ⟨rfl, next, hflow⟩ := h.abreast.opened_eq hopen (by simp [hq])
    -- a run that is there already would be the same question
    have hnone : work.primaries = [] := by
      refine List.eq_nil_iff_forall_not_mem.mpr ?_
      rintro ⟨p', primary⟩ hprimary
      obtain ⟨hasked, hprimary⟩ := mem_primaries.mp hprimary
      obtain ⟨rfl, next', hflow'⟩ := h.current p' primary hasked hprimary
      obtain ⟨rfl, -⟩ := Flow.ask.inj (hflow.symm.trans hflow')
      exact hnew hasked
    refine ⟨h.abreast, ?_, ?_⟩
    · rw [primaries] at hnone ⊢
      rw [List.filter_append, hnone]
      exact List.length_filter_le _ _
    · intro p' primary hasked hprimary
      rcases List.mem_append.mp hasked with hasked | hasked
      · exact h.current p' primary hasked hprimary
      · obtain ⟨rfl, rfl⟩ := Prod.mk.inj (List.mem_singleton.mp hasked)
        exact ⟨rfl, next, hflow⟩

end Lone

end Undertaking

/-! ### What jobs go through -/

namespace Agenda

/-- A job that runs its compiler alone, if it runs at all. -/
def Phase.Lone : Phase α → Prop
  | .coming arrival | .waiting arrival => arrival.flow.Abreast (·.isPrimary = false) TidyCrew
  | .working work => work.Lone
  | _ => True

/-- **A job that runs its compiler alone goes on doing so.** -/
theorem lone_of_later {terms : Terms α} {phase later : Phase α} (h : phase.Lone)
    (hlater : Phase.Later terms phase later) : later.Lone := by
  induction hlater with
  | refl => exact h
  | tail _ hnext ih =>
    cases hnext with
    | waits arrival => exact ih
    | begins arrival deadline => exact .start ih deadline
    | asks work p query fresh => exact ih.keep fresh
    | forgets work asked sub => exact ih.forget sub
    | resumes work p query answer => exact ih.resume p query answer
    | ends | expires | crashes | drops => trivial

end Agenda

end AsmInspect

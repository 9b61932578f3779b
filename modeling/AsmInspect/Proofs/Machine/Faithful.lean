import AsmInspect.Proofs.Flow.Settle
import AsmInspect.Proofs.Machine.Phases

/-!
# A machine runs its jobs

What a machine does with a job is one of the runs of its flow, whatever else happens on the
machine. So a result of a job is one that the flow may come to, unless it is the one that stands
for a job that has taken too long; and what is said of all runs of a flow is said of what machines
do with it.

## Main definitions

* `Agenda.Phase.Along`: a phase of a job is one of a run of its flow

## Main results

* `Agenda.along_of_later`: so is every phase after it
* `Agenda.run_of_over`: the result of a job
* `Agenda.crashed_foldl`: the jobs that do not crash
* `Machine.run_of_result`: the result of a flow that a machine works on alone
-/

namespace AsmInspect

open AsmInspect.Flow

variable {α : Type}

namespace Agenda

/-- A phase of a job is one of a run of its flow. -/
def Phase.Along (terms : Terms α) (flow : Flow α) : Phase α → Prop
  | .coming arrival | .waiting arrival => arrival.flow = flow
  | .working work => ∃ events, Run flow events work.flow
  | .over result =>
    (∃ events, Run flow events (.done result)) ∨ ∃ limitMs, terms.limit = some (limitMs, result)
  | .crashed => ∃ events last, Run flow events last ∧ last.crashed = true
  | .dropped => True

/-- **What a job goes through is a run of its flow.** -/
theorem along_of_later {terms : Terms α} {flow : Flow α} (ht : flow.Tidy) {phase later : Phase α}
    (h : phase.Along terms flow) (hlater : Phase.Later terms phase later) :
    later.Along terms flow := by
  induction hlater with
  | refl => exact h
  | tail _ hnext ih =>
    cases hnext with
    | waits arrival => exact ih
    | begins arrival deadline =>
      obtain rfl : arrival.flow = flow := ih
      obtain ⟨events, hrun, -⟩ := quietly_settle ht
      exact ⟨events, hrun⟩
    | asks work p query fresh => exact ih
    | forgets work asked sub => exact ih
    | resumes work p query answer =>
      -- an answer, and what needs none after it
      obtain ⟨events, hrun⟩ := ih
      obtain ⟨more, hmore⟩ := run_resume_settle (ht.run tidyCrew_stable hrun) query answer p
      exact ⟨events ++ more, hrun.append hmore⟩
    | ends work result done =>
      obtain ⟨events, hrun⟩ := ih
      rw [eq_done_of_result? done] at hrun
      exact .inl ⟨events, hrun⟩
    | expires work limitMs result limit => exact .inr ⟨limitMs, limit⟩
    | crashes work crashed =>
      obtain ⟨events, hrun⟩ := ih
      exact ⟨events, work.flow, hrun, crashed⟩
    | drops => trivial

section AfterActions

variable {terms : Terms α} {machine : Machine} {slots : Slots Nat} {arrivals : List (Arrival α)}
  {actions : List (Action α)} {job : Nat} {arrival : Arrival α}

/-- Whatever has happened on the machine, a job is in a phase of a run of its flow. -/
theorem along_foldl (harrival : arrivals[job]? = some arrival) (ht : arrival.flow.Tidy)
    {phase : Phase α}
    (hphase : (actions.foldl (act terms) (ofArrivals machine slots arrivals)).phases[job]? =
      some phase) : phase.Along terms arrival.flow := by
  obtain ⟨first, hfirst, hlater⟩ := (follows_foldl terms _ actions).goes job _ hphase
  have hcoming : first = .coming arrival := by
    simp only [ofArrivals, List.getElem?_map, harrival, Option.map_some,
      Option.some.injEq] at hfirst
    exact hfirst.symm
  subst hcoming
  have halong : (Phase.coming arrival).Along terms arrival.flow := rfl
  exact along_of_later ht halong hlater

/-- **The result of a job** is one that its flow may come to, or that of a job that takes too long,
whatever has happened on the machine. -/
theorem run_of_over {result : α} (harrival : arrivals[job]? = some arrival)
    (ht : arrival.flow.Tidy)
    (hover : (actions.foldl (act terms) (ofArrivals machine slots arrivals)).phases[job]? =
      some (.over result)) :
    (∃ events, Run arrival.flow events (.done result)) ∨
      ∃ limitMs, terms.limit = some (limitMs, result) :=
  along_foldl harrival ht hover

/-- **Jobs with no more places than there can be do not crash**, whatever happens on the machine. -/
theorem crashed_foldl (ht : ∀ arrival ∈ arrivals, arrival.flow.Tidy)
    (hr : ∀ arrival ∈ arrivals, arrival.flow.Roomy) :
    (actions.foldl (act terms) (ofArrivals machine slots arrivals)).crashed = false := by
  have hlength := (follows_foldl terms (ofArrivals machine slots arrivals) actions).length
  rw [crashed, List.any_eq_false]
  intro phase hmem
  obtain ⟨job, hjob, rfl⟩ := List.getElem_of_mem hmem
  have hlt : job < arrivals.length := hjob.trans_eq (hlength.trans (by simp [ofArrivals]))
  have halong := along_foldl (List.getElem?_eq_getElem hlt) (ht _ (List.getElem_mem hlt))
    (List.getElem?_eq_getElem hjob)
  split
  case h_1 hcrashed =>
    -- the flow would have come to a crew that it cannot come to
    rw [hcrashed] at halong
    obtain ⟨events, last, hrun, hlast⟩ := halong
    have hroomy := (hr _ (List.getElem_mem hlt)).run roomyCrew_stable hrun
    cases hlast.symm.trans (crashed_eq_false hroomy)
  case h_2 => simp

end AfterActions

end Agenda

/-- **The result of a flow that a machine works on alone** is one that the flow may come to. -/
theorem Machine.run_of_result {machine : Machine} {tools : Tools} {flow : Flow α} {result : α}
    (ht : flow.Tidy) (h : (machine.run tools flow).2 = some result) :
    ∃ events, Run flow events (.done result) := by
  obtain ⟨actions, hactions⟩ := Agenda.Reaches.run ({ tools } : Terms α) Agenda.patience
    (Agenda.ofArrivals machine { available := 1 } [{ flow }])
  have hover : (actions.foldl (Agenda.act { tools })
      (Agenda.ofArrivals machine { available := 1 } [{ flow }])).phases[0]? =
        some (.over result) := by
    rw [← hactions]
    simp only [Machine.run, Machine.perform, Agenda.results, List.head?_map,
      Option.join_eq_some_iff, Option.map_eq_some_iff] at h
    obtain ⟨phase, hphase, hresult⟩ := h
    cases phase <;> simp at hresult
    subst hresult
    rw [← List.head?_eq_getElem?, hphase]
  let arrival : Arrival α := { flow }
  have harrival : [arrival][0]? = some arrival := rfl
  rcases Agenda.run_of_over harrival ht hover with hrun | ⟨limitMs, hlimit⟩
  · exact hrun
  · cases hlimit

end AsmInspect

import AsmInspect.Proofs.Flow.Throughout
import Mathlib.Data.DFinsupp.WellFounded

/-!
# Every run comes to an end

No flow goes on for ever, whatever it is told and whichever of its parts goes on first, since every
step takes it deeper into itself. And a flow does not get stuck, as long as each crew in it has a
place for its members, and no more than there can be, and no member has left its place before its
end.

## Main definitions

* `Leads`: one flow comes to another in one step
* `AnsweredBy`: the answers in a run are those of a function

## Main results

* `acc_step`: no run goes on for ever
* `progress`: a flow that has not ended can go on
* `exists_end`: every flow can be run to its end
-/

namespace AsmInspect.Flow

variable {α β : Type}

/-! ### Termination -/

/-- One flow comes to another in one step. -/
def Leads (later earlier : Flow α) : Prop := ∃ event, Step earlier event later

theorem acc_both {γ : Type} {left : Flow β} {right : Flow γ} {next : β × γ → Flow α}
    (hl : Acc Leads left) (hr : Acc Leads right) (hn : ∀ results, Acc Leads (next results)) :
    Acc Leads (both left right next) := by
  induction hl generalizing right with
  | intro left hleft ihl =>
    induction hr with
    | intro right hright ihr =>
      refine .intro _ ?_
      rintro later ⟨event, hstep⟩
      cases hstep with
      | left _ _ step => exact ihl _ ⟨_, step⟩ (.intro _ hright)
      | right _ _ step => exact ihr _ ⟨_, step⟩
      | both b c => exact hn _

/-- How far a member is from the end of its turn. -/
def rank : Turn → Nat
  | .waiting => 2
  | .working => 1
  | .finished => 0

/-- A member that goes on for some time only, with its turn. -/
abbrev Finite (β : Type) := Turn × { flow : Flow β // Acc Leads flow }

/-- A member comes closer to its end: its turn advances, or it takes a step. -/
def Closer : Finite β → Finite β → Prop :=
  Prod.Lex (fun t u => rank t < rank u) fun f g => Leads f.val g.val

theorem wellFounded_closer : WellFounded (Closer (β := β)) := by
  have hturn : WellFounded fun t u => rank t < rank u := InvImage.wf rank Nat.lt_wfRel.wf
  have hflow : WellFounded
      (InvImage Leads (Subtype.val : { flow : Flow β // Acc Leads flow } → Flow β)) :=
    ⟨fun f => InvImage.accessible Subtype.val f.property⟩
  exact hturn.prod_lex hflow

/-- A crew comes to an end if its members do: each step of it is one of one member. -/
theorem acc_crew {n : Nat} {members : Fin n → Flow (Except Failure β)}
    {next : Except Failure (List β) → Flow α} (hm : ∀ i, Acc Leads (members i))
    (hn : ∀ results, Acc Leads (next results)) (rota : Rota n) :
    Acc Leads (crew rota members next) := by
  -- one member comes closer to its end and the others stay, so the members as a whole do
  have hwf := Pi.Lex.wellFounded (· < · : Fin n → Fin n → Prop)
    fun _ => wellFounded_closer (β := Except Failure β)
  suffices hall : ∀ (state : Fin n → Finite (Except Failure β)) (rota : Rota n),
      rota.turn = (fun i => (state i).1) →
        Acc Leads (crew rota (fun i => (state i).2.val) next) from
    hall (fun i => (rota.turn i, ⟨members i, hm i⟩)) rota rfl
  intro state
  induction state using hwf.induction with
  | h state ih =>
  intro rota hstate
  -- a step of the member at `i` that brings it closer to its end leads to a crew that ends
  have hcloser : ∀ (i : Fin n) (x : Finite (Except Failure β)), Closer x (state i) →
      ∀ rota' current, rota'.turn = Function.update rota.turn i x.1 →
        current = Function.update (fun j => (state j).2.val) i x.2.val →
        Acc Leads (crew rota' current next) := by
    intro i x hx rota' current hturn hcurrent
    have hlex : Pi.Lex (· < ·) (fun {_} => Closer) (Function.update state i x) state :=
      ⟨i, fun j hj => Function.update_of_ne (Fin.ne_of_lt hj) .., by
        rwa [Function.update_self]⟩
    have ht : rota'.turn = fun j => (Function.update state i x j).1 := by
      funext j
      rw [hturn, hstate]
      by_cases hj : j = i <;> simp [hj]
    have hc : current = fun j => (Function.update state i x j).2.val := by
      funext j
      rw [hcurrent]
      by_cases hj : j = i <;> simp [hj]
    have hacc := ih _ hlex rota' ht
    rwa [← hc] at hacc
  refine .intro _ ?_
  rintro later ⟨event, hstep⟩
  cases hstep with
  | begins _ _ i waits =>
    have hwaits : (state i).1 = .waiting := by rw [← waits, hstate]
    refine hcloser i (.working, (state i).2) (.left _ _ ?_) _ _ (Rota.assign_turn ..) ?_
    · simp [hwaits, rank]
    · exact (Function.update_eq_self ..).symm
  | @member _ _ _ _ _ _ i _ _ _ m step =>
    have hacc : Acc Leads m := (state i).2.property.inv ⟨_, step⟩
    refine hcloser i ((state i).1, ⟨m, hacc⟩) (.right _ ⟨_, step⟩) _ _ ?_ rfl
    rw [hstate]
    exact (Function.update_eq_self ..).symm
  | ends _ i works =>
    have hworks : (state i).1 = .working := by rw [← works, hstate]
    refine hcloser i (.finished, (state i).2) (.left _ _ ?_) _ _ (Rota.dismiss_turn ..) ?_
    · simp [hworks, rank]
    · exact (Function.update_eq_self ..).symm
  | crew => exact hn _
  | fails => exact hn _

/-- **No run goes on for ever.** -/
theorem acc_step (flow : Flow α) : Acc Leads flow := by
  induction flow with
  | done r =>
    refine .intro _ ?_
    rintro later ⟨event, hstep⟩
    cases hstep
  | ask query next ih =>
    refine .intro _ ?_
    rintro later ⟨event, hstep⟩
    cases hstep
    exact ih _
  | both left right next ihl ihr ihn => exact acc_both ihl ihr ihn
  | crew rota members next ihm ihn => exact acc_crew ihm ihn rota

/-! ### Progress -/

/-- The answers in a run are those of a function. -/
def AnsweredBy (answers : (query : Query) → query.Answer) (events : List Event) : Prop :=
  ∀ position query answer, (position, .answered query answer) ∈ events → answer = answers query

variable {answers : (query : Query) → query.Answer}

theorem AnsweredBy.nil : AnsweredBy answers [] := by simp [AnsweredBy]

theorem answeredBy_append {events more : List Event} :
    AnsweredBy answers (events ++ more) ↔ AnsweredBy answers events ∧ AnsweredBy answers more := by
  simp only [AnsweredBy, List.mem_append]
  constructor
  · intro h
    exact ⟨fun p q a hm => h p q a (.inl hm), fun p q a hm => h p q a (.inr hm)⟩
  · rintro ⟨h₁, h₂⟩ p q a (hm | hm)
    · exact h₁ p q a hm
    · exact h₂ p q a hm

theorem answeredBy_cons {event : Event} {events : List Event} :
    AnsweredBy answers (event :: events) ↔
      AnsweredBy answers [event] ∧ AnsweredBy answers events := by
  rw [← List.singleton_append, answeredBy_append]

/-- Where something happens does not matter for who answers. -/
theorem answeredBy_single {position : Position} {act : Act} :
    AnsweredBy answers [(position, act)] ↔
      ∀ query answer, act = .answered query answer → answer = answers query := by
  constructor
  · rintro h query answer rfl
    exact h position query answer (List.mem_singleton.mpr rfl)
  · rintro h p query answer hm
    obtain ⟨-, rfl⟩ := Prod.mk.inj (List.mem_singleton.mp hm)
    exact h query answer rfl

/-- **A flow that has not ended can go on**, with any answers. -/
theorem progress (answers : (query : Query) → query.Answer) {flow : Flow α} (ht : flow.Tidy)
    (hr : flow.Roomy) :
    (∃ r, flow = .done r) ∨
      ∃ event later, Step flow event later ∧ AnsweredBy answers [event] := by
  induction flow with
  | done r => exact .inl ⟨r, rfl⟩
  | ask query next =>
    refine .inr ⟨_, _, .answer query next (answers query), answeredBy_single.mpr ?_⟩
    rintro q a h
    cases h
    rfl
  | both left right next ihl ihr =>
    right
    rcases ihl ht.1 hr.1 with ⟨b, rfl⟩ | ⟨⟨p, act⟩, later, hstep, ha⟩
    · rcases ihr ht.2.1 hr.2.1 with ⟨c, rfl⟩ | ⟨⟨p, act⟩, later, hstep, ha⟩
      · exact ⟨_, _, .both b c next, answeredBy_single.mpr (by simp)⟩
      · exact ⟨_, _, .right _ next hstep, answeredBy_single.mpr (answeredBy_single.mp ha)⟩
    · exact ⟨_, _, .left _ next hstep, answeredBy_single.mpr (answeredBy_single.mp ha)⟩
  | @crew _ β n rota members next ihm =>
    right
    by_cases hover : ∀ i, rota.turn i = .finished
    · by_cases hok : ∀ i, ∃ b, members i = .done (.ok b)
      · choose results hresults using hok
        -- the places are all free again, and they are no more than there can be
        have possible : rota.free ≤ Rota.mostPlaces := (Nat.le_add_right ..).trans hr.1.2
        exact ⟨_, _, .crew next results possible hover hresults, answeredBy_single.mpr (by simp)⟩
      · obtain ⟨i, hi⟩ := not_forall.mp hok
        obtain ⟨result, hresult⟩ := ht.1 i (hover i)
        cases result with
        | ok b => exact absurd ⟨b, hresult⟩ hi
        | error failure =>
          exact ⟨_, _, .fails next i (hover i) hresult, answeredBy_single.mpr (by simp)⟩
    · by_cases hwork : ∃ i, rota.turn i = .working
      · obtain ⟨i, works⟩ := hwork
        rcases ihm i (ht.2.1 i) (hr.2.1 i) with ⟨result, hdone⟩ | ⟨⟨p, act⟩, later, hstep, ha⟩
        · exact ⟨_, _, .ends next i works hdone, answeredBy_single.mpr (by simp)⟩
        · exact ⟨_, _, .member next i works hstep, answeredBy_single.mpr (answeredBy_single.mp ha)⟩
      · -- nobody works, so there is a free place, and somebody waits for it
        obtain ⟨i, hi⟩ := not_forall.mp hover
        have waits : rota.turn i = .waiting := by
          cases h : rota.turn i with
          | waiting => rfl
          | working => exact absurd ⟨i, h⟩ hwork
          | finished => exact absurd h hi
        have hnone : rota.atWork = ∅ := by
          rw [Finset.eq_empty_iff_forall_notMem]
          exact fun j hj => hwork ⟨j, Rota.mem_atWork.mp hj⟩
        have place : rota.HasPlace := by simpa [RoomyCrew, hnone] using hr.1
        exact ⟨_, _, .begins members next i waits place, answeredBy_single.mpr (by simp)⟩

/-- **Every flow can be run to its end**, with any answers. -/
theorem exists_end (answers : (query : Query) → query.Answer) {flow : Flow α} (ht : flow.Tidy)
    (hr : flow.Roomy) :
    ∃ events result, Run flow events (.done result) ∧ AnsweredBy answers events := by
  induction acc_step flow with
  | intro flow _ ih =>
    rcases progress answers ht hr with ⟨r, rfl⟩ | ⟨event, later, hstep, ha⟩
    · exact ⟨[], r, .refl _, .nil⟩
    · obtain ⟨events, result, hrun, has⟩ := ih later ⟨event, hstep⟩ (ht.step tidyCrew_stable hstep)
        (hr.step roomyCrew_stable hstep)
      exact ⟨event :: events, result, .step hstep hrun, answeredBy_cons.mpr ⟨ha, has⟩⟩

end AsmInspect.Flow

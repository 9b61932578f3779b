import AsmInspect.Proofs.Flow.Composable

/-!
# What a flow may come to

The results that a flow may come to are those of a machine that answers each of its questions in one
of the ways that have been told, and of a crew that ends with the values of all its members or with
the failure of any one. This leaves out how the parts of the flow take turns, and so it is looked up
in the flow from its beginning to its end, part by part.

Every run ends with such a result. So if all that a flow may come to is known, then so is what its
runs end with, and which answers have brought it about.

## Main definitions

* `Telling`, `Told`: the answers that a question may get, and those that it got in a run
* `Yields`: what a flow may come to

## Main results

* `Run.yields`: a run ends with what its flow may come to
* `yields_bind`: one flow after another
* `yields_work_bind_error`: how work fails that is done in steps
-/

namespace AsmInspect.Flow

variable {α β : Type}

/-- Which answers the questions may get. -/
abbrev Telling := (query : Query) → query.Answer → Prop

/-- What has been answered in a run. -/
def Told (events : List Event) : Telling := fun query answer =>
  ∃ position, (position, .answered query answer) ∈ events

/-- **What a flow may come to.** -/
def Yields (told : Telling) {α : Type} : Flow α → α → Prop
  | done r, result => result = r
  | ask query next, result => ∃ answer, told query answer ∧ (next answer).Yields told result
  | both left right next, result =>
    ∃ b c, left.Yields told b ∧ right.Yields told c ∧ (next (b, c)).Yields told result
  | crew _ members next, result =>
    (∃ values listed, (∀ i, (members i).Yields told (.ok (values i))) ∧
      List.Perm listed (List.ofFn values) ∧ (next (.ok listed)).Yields told result) ∨
    ∃ i failure, (members i).Yields told (.error failure) ∧
      (next (.error failure)).Yields told result

variable {told : Telling}

/-! ### Runs -/

/-- What a flow comes to after a step, it may come to before it. -/
theorem Yields.of_step {flow flow' : Flow α} {event : Event} (hstep : Step flow event flow')
    (htold : ∀ query answer, event.2 = .answered query answer → told query answer) {result : α}
    (h : flow'.Yields told result) : flow.Yields told result := by
  induction hstep with
  | answer query next answer => exact ⟨answer, htold query answer rfl, h⟩
  | left right next step ih =>
    obtain ⟨b, c, hb, hc, hnext⟩ := h
    exact ⟨b, c, ih htold hb, hc, hnext⟩
  | right left next step ih =>
    obtain ⟨b, c, hb, hc, hnext⟩ := h
    exact ⟨b, c, hb, ih htold hc, hnext⟩
  | both b c next => exact ⟨b, c, rfl, rfl, h⟩
  | begins => exact h
  | @member _ _ _ _ members next i works _ _ m step ih =>
    -- the member that took the step may come to what it comes to now; the others stay
    have hmember (j) (own) (hown : (Function.update members i m j).Yields told own) :
        (members j).Yields told own := by
      by_cases hj : j = i
      · subst hj
        rw [Function.update_self] at hown
        exact ih htold hown
      · rwa [Function.update_of_ne hj] at hown
    rcases h with ⟨values, listed, hvalues, hlisted, hnext⟩ | ⟨j, failure, hfailure, hnext⟩
    · exact .inl ⟨values, listed, fun j => hmember j _ (hvalues j), hlisted, hnext⟩
    · exact .inr ⟨j, failure, hmember j _ hfailure, hnext⟩
  | ends => exact h
  | crew next results possible finished ended =>
    refine .inl ⟨results, _, fun i => ?_, Rota.map_finishers_perm finished results, h⟩
    rw [ended i]
    rfl
  | fails next i finished ended =>
    refine .inr ⟨i, _, ?_, h⟩
    rw [ended]
    rfl

/-- **A run ends with what its flow may come to.** -/
theorem Run.yields {flow : Flow α} {events : List Event} {result : α}
    (h : Run flow events (.done result)) : flow.Yields (Told events) result := by
  suffices hall : ∀ {last : Flow α} {told : Telling}, Run flow events last →
      (∀ query answer, Told events query answer → told query answer) →
      last.Yields told result → flow.Yields told result from
    hall h (fun _ _ => id) rfl
  -- the induction shortens the run, while the answers that may be told stay the same
  intro last told hrun htold hlast
  clear h
  induction hrun with
  | refl => exact hlast
  | step head _ ih =>
    refine .of_step head (fun query answer he => ?_) (ih (fun query answer hmem => ?_) hlast)
    · exact htold query answer ⟨_, List.mem_cons.mpr (.inl (Prod.ext rfl he.symm))⟩
    · obtain ⟨position, hmem⟩ := hmem
      exact htold query answer ⟨position, List.mem_cons_of_mem _ hmem⟩

/-! ### Parts put together -/

/-- One flow after another. -/
theorem yields_bind {flow : Flow α} {g : α → Flow β} {result : β} :
    (flow.bind g).Yields told result ↔ ∃ a, flow.Yields told a ∧ (g a).Yields told result := by
  induction flow with
  | done a => simp [Flow.bind, Yields]
  | ask query next ih =>
    simp only [Flow.bind, Yields, ih]
    constructor
    · rintro ⟨answer, htold, a, ha, hg⟩
      exact ⟨a, ⟨answer, htold, ha⟩, hg⟩
    · rintro ⟨a, ⟨answer, htold, ha⟩, hg⟩
      exact ⟨answer, htold, a, ha, hg⟩
  | both left right next _ _ ih =>
    simp only [Flow.bind, Yields, ih]
    constructor
    · rintro ⟨b, c, hb, hc, a, ha, hg⟩
      exact ⟨a, ⟨b, c, hb, hc, ha⟩, hg⟩
    · rintro ⟨a, ⟨b, c, hb, hc, ha⟩, hg⟩
      exact ⟨b, c, hb, hc, a, ha, hg⟩
  | crew rota members next _ ih =>
    simp only [Flow.bind, Yields, ih]
    constructor
    · rintro (⟨values, listed, hvalues, hlisted, a, ha, hg⟩ | ⟨i, failure, hi, a, ha, hg⟩)
      · exact ⟨a, .inl ⟨values, listed, hvalues, hlisted, ha⟩, hg⟩
      · exact ⟨a, .inr ⟨i, failure, hi, ha⟩, hg⟩
    · rintro ⟨a, ⟨values, listed, hvalues, hlisted, ha⟩ | ⟨i, failure, hi, ha⟩, hg⟩
      · exact .inl ⟨values, listed, hvalues, hlisted, a, ha, hg⟩
      · exact .inr ⟨i, failure, hi, a, ha, hg⟩

section Work

variable {failure : Failure} {result : Except Failure α}

theorem yields_work_pure {a : α} :
    (pure a : Work α).run.Yields told result ↔ result = .ok a := Iff.rfl

theorem yields_work_throw :
    (throw failure : Work α).run.Yields told result ↔ result = .error failure := Iff.rfl

/-- Work that is done in steps fails if the first step does, or what follows it. -/
theorem yields_work_bind_error {x : Work α} {f : α → Work β} :
    (x >>= f).run.Yields told (.error failure) ↔ x.run.Yields told (.error failure) ∨
      ∃ a, x.run.Yields told (.ok a) ∧ (f a).run.Yields told (.error failure) := by
  rw [run_bind_eq, yields_bind]
  constructor
  · rintro ⟨first | a, hx, hf⟩
    · obtain rfl : failure = first := Except.error.inj hf
      exact .inl hx
    · exact .inr ⟨a, hx, hf⟩
  · rintro (hx | ⟨a, hx, hf⟩)
    · exact ⟨_, hx, rfl⟩
    · exact ⟨_, hx, hf⟩

/-- A question, and how the work goes on with the answer. -/
theorem yields_query_bind {query : Query} {f : query.Answer → Work α} :
    (Work.query query >>= f).run.Yields told result ↔
      ∃ answer, told query answer ∧ (f answer).run.Yields told result := Iff.rfl

theorem yields_work_lift {flow : Flow α} :
    (ExceptT.lift flow : Work α).run.Yields told result ↔
      ∃ a, flow.Yields told a ∧ result = .ok a := by
  rw [run_lift_eq, yields_bind]
  rfl

theorem yields_work_ofExcept {outcome : Except Failure α} :
    (Work.ofExcept outcome).run.Yields told result ↔ result = outcome := by
  cases outcome <;> rfl

theorem yields_orFail_error {stage : Stage} {path : String} {answer : Except FileError α} :
    (Work.orFail stage path answer).run.Yields told (.error failure) ↔
      ∃ cause, answer = .error cause ∧ failure = .file stage path cause := by
  cases answer with
  | ok a =>
    constructor
    · intro h
      cases yields_work_pure.mp h
    · rintro ⟨cause, h, -⟩
      cases h
  | error cause =>
    constructor
    · exact fun h => ⟨cause, rfl, Except.error.inj h⟩
    · rintro ⟨_, h, rfl⟩
      cases h
      rfl

theorem yields_readText_error {stage : Stage} {path : String} :
    (Work.readText stage path).run.Yields told (.error failure) ↔
      ∃ cause, told (.readText path) (.error cause) ∧ failure = .file stage path cause := by
  rw [Work.readText, yields_query_bind]
  simp only [yields_orFail_error]
  constructor
  · rintro ⟨_, htold, cause, rfl, rfl⟩
    exact ⟨cause, htold, rfl⟩
  · rintro ⟨cause, htold, rfl⟩
    exact ⟨_, htold, cause, rfl, rfl⟩

theorem yields_writeText_error {stage : Stage} {path text : String} {executable : Bool} :
    (Work.writeText stage path text executable).run.Yields told (.error failure) ↔
      ∃ cause, told (.writeText path text executable) (.error cause) ∧
        failure = .file stage path cause := by
  rw [Work.writeText, yields_query_bind]
  simp only [yields_orFail_error]
  constructor
  · rintro ⟨_, htold, cause, rfl, rfl⟩
    exact ⟨cause, htold, rfl⟩
  · rintro ⟨cause, htold, rfl⟩
    exact ⟨_, htold, cause, rfl, rfl⟩

theorem yields_runTool {program : String} {args : List String} {options : ToolOptions}
    {result : Except Failure ToolResult} :
    (Work.runTool program args options).run.Yields told result ↔
      told (.runTool { program, args, options }) result := by
  constructor
  · rintro ⟨answer, htold, rfl⟩
    exact htold
  · exact fun htold => ⟨result, htold, rfl⟩

end Work

end AsmInspect.Flow

import AsmInspect.Proofs.Flow.Composable

/-!
# Two runs side by side

Two machines may answer the same question in different ways. Two flows are twins if, however they
are answered, they go on asking the same and come to results that are related. What the answers
may differ in, and how results are then related, is up to the statement.

Two runs are compared that are paired: the same happens in both, at the same position and to the
same members, and only the answers may differ. Any run of one of the twins has a run of the other
that is paired with it, whatever the other machine answers within the limits. So nothing that the
answers differ in decides on what happens, when it happens, or on the part of the result that is
the same for all related ones.

## Main definitions

* `Likeness`, `Matches`: how answers and outcomes may differ
* `Twins`: flows that ask the same and come to related results
* `PairedStep`, `PairedRun`: the same happens to two flows

## Main results

* `PairedRun.runs`: paired runs are runs
* `Twins.pairedRun`: what twins come to in paired runs are twins
* `Twins.exists_pairedRun`: a run of one of the twins is paired with one of the other
* `Twins.bind`, `Twins.work_bind`: twins are put together
-/

namespace AsmInspect.Flow

variable {α β γ : Type}

/-- How the answers of two machines may differ. -/
abbrev Likeness := (query : Query) → query.Answer → query.Answer → Prop

/-- Two outcomes match: both are values that are related, or both are the same failure. -/
inductive Matches (own : β → β → Prop) : Except Failure β → Except Failure β → Prop
  | ok {b b' : β} (related : own b b') : Matches own (.ok b) (.ok b')
  | error (failure : Failure) : Matches own (.error failure) (.error failure)

/-- Outcomes that match fail alike. -/
theorem Matches.failure?_eq {own : β → β → Prop} {result result' : Except Failure β}
    (h : Matches own result result') : failure? result = failure? result' := by
  cases h <;> rfl

/-- **Flows that ask the same** when they get answers that are alike, and come to related
results. -/
inductive Twins (like : Likeness) : {α : Type} → (α → α → Prop) → Flow α → Flow α → Prop
  | done {α : Type} {post : α → α → Prop} {result result' : α} (related : post result result') :
      Twins like post (.done result) (.done result')
  | ask {α : Type} {post : α → α → Prop} (query : Query) {next next' : query.Answer → Flow α}
      (follow : ∀ answer answer', like query answer answer' →
        Twins like post (next answer) (next' answer')) :
      Twins like post (.ask query next) (.ask query next')
  | both {α β γ : Type} {post : α → α → Prop} {postLeft : β → β → Prop} {postRight : γ → γ → Prop}
      {left left' : Flow β} {right right' : Flow γ} {next next' : β × γ → Flow α}
      (lefts : Twins like postLeft left left') (rights : Twins like postRight right right')
      (follow : ∀ b b' c c', postLeft b b' → postRight c c' →
        Twins like post (next (b, c)) (next' (b', c'))) :
      Twins like post (.both left right next) (.both left' right' next')
  | crew {α β : Type} {n : Nat} {post : α → α → Prop} {own : β → β → Prop} (rota : Rota n)
      {members members' : Fin n → Flow (Except Failure β)}
      {next next' : Except Failure (List β) → Flow α}
      (each : ∀ i, Twins like (Matches own) (members i) (members' i))
      (follow : ∀ results results', Matches (List.Forall₂ own) results results' →
        Twins like post (next results) (next' results')) :
      Twins like post (.crew rota members next) (.crew rota members' next')

/-! ### Paired runs -/

/-- **The same happens to two flows**, with answers that are alike. -/
inductive PairedStep (like : Likeness) :
    {α : Type} → Flow α → Flow α → Event → Event → Flow α → Flow α → Prop
  | answer {α : Type} {query : Query} (next next' : query.Answer → Flow α)
      {answer answer' : query.Answer} (alike : like query answer answer') :
      PairedStep like (.ask query next) (.ask query next') ([], .answered query answer)
        ([], .answered query answer') (next answer) (next' answer')
  | left {α β γ : Type} {left left' last last' : Flow β} {p : Position} {act act' : Act}
      (right right' : Flow γ) (next next' : β × γ → Flow α)
      (step : PairedStep like left left' (p, act) (p, act') last last') :
      PairedStep like (.both left right next) (.both left' right' next') (0 :: p, act)
        (0 :: p, act') (.both last right next) (.both last' right' next')
  | right {α β γ : Type} {right right' last last' : Flow γ} {p : Position} {act act' : Act}
      (left left' : Flow β) (next next' : β × γ → Flow α)
      (step : PairedStep like right right' (p, act) (p, act') last last') :
      PairedStep like (.both left right next) (.both left' right' next') (1 :: p, act)
        (1 :: p, act') (.both left last next) (.both left' last' next')
  | both {α β γ : Type} (b b' : β) (c c' : γ) (next next' : β × γ → Flow α) :
      PairedStep like (.both (.done b) (.done c) next) (.both (.done b') (.done c') next')
        ([], .joins) ([], .joins) (next (b, c)) (next' (b', c'))
  | begins {α β : Type} {n : Nat} {rota : Rota n}
      (members members' : Fin n → Flow (Except Failure β))
      (next next' : Except Failure (List β) → Flow α) (i : Fin n) (waits : rota.turn i = .waiting)
      (place : rota.HasPlace) :
      PairedStep like (.crew rota members next) (.crew rota members' next') ([i.val], .begins)
        ([i.val], .begins) (.crew (rota.assign i) members next)
        (.crew (rota.assign i) members' next')
  | member {α β : Type} {n : Nat} {rota : Rota n}
      {members members' : Fin n → Flow (Except Failure β)}
      (next next' : Except Failure (List β) → Flow α) (i : Fin n) (works : rota.turn i = .working)
      {p : Position} {act act' : Act} {member member' : Flow (Except Failure β)}
      (step : PairedStep like (members i) (members' i) (p, act) (p, act') member member') :
      PairedStep like (.crew rota members next) (.crew rota members' next') (i.val :: p, act)
        (i.val :: p, act') (.crew rota (Function.update members i member) next)
        (.crew rota (Function.update members' i member') next')
  | ends {α β : Type} {n : Nat} {rota : Rota n} {members members' : Fin n → Flow (Except Failure β)}
      (next next' : Except Failure (List β) → Flow α) (i : Fin n) (works : rota.turn i = .working)
      {result result' : Except Failure β} (ended : members i = .done result)
      (ended' : members' i = .done result') :
      PairedStep like (.crew rota members next) (.crew rota members' next')
        ([i.val], .ends (failure? result)) ([i.val], .ends (failure? result'))
        (.crew (rota.dismiss i) members next) (.crew (rota.dismiss i) members' next')
  | crew {α β : Type} {n : Nat} {rota : Rota n} {members members' : Fin n → Flow (Except Failure β)}
      (next next' : Except Failure (List β) → Flow α) (results results' : Fin n → β)
      (possible : rota.free ≤ Rota.mostPlaces) (finished : ∀ i, rota.turn i = .finished)
      (ended : ∀ i, members i = .done (.ok (results i)))
      (ended' : ∀ i, members' i = .done (.ok (results' i))) :
      PairedStep like (.crew rota members next) (.crew rota members' next') ([], .joins)
        ([], .joins) (next (.ok (rota.finishers.map results)))
        (next' (.ok (rota.finishers.map results')))
  | fails {α β : Type} {n : Nat} {rota : Rota n}
      {members members' : Fin n → Flow (Except Failure β)}
      (next next' : Except Failure (List β) → Flow α) (i : Fin n)
      (finished : rota.turn i = .finished) {failure failure' : Failure}
      (ended : members i = .done (.error failure))
      (ended' : members' i = .done (.error failure')) :
      PairedStep like (.crew rota members next) (.crew rota members' next') ([], .joins)
        ([], .joins) (next (.error failure)) (next' (.error failure'))

/-- **The same happens to two flows again and again**. -/
inductive PairedRun (like : Likeness) {α : Type} :
    Flow α → Flow α → List Event → List Event → Flow α → Flow α → Prop
  | refl (flow flow' : Flow α) : PairedRun like flow flow' [] [] flow flow'
  | step {first first' second second' last last' : Flow α} {event event' : Event}
      {events events' : List Event}
      (head : PairedStep like first first' event event' second second')
      (tail : PairedRun like second second' events events' last last') :
      PairedRun like first first' (event :: events) (event' :: events') last last'

/-- Two things that may happen are alike: they happen at the same position, and are the same but for
answers that are alike. -/
inductive AlikeEvents (like : Likeness) : Event → Event → Prop
  | answered (p : Position) (query : Query) {answer answer' : query.Answer}
      (alike : like query answer answer') :
      AlikeEvents like (p, .answered query answer) (p, .answered query answer')
  | begins (p : Position) : AlikeEvents like (p, .begins) (p, .begins)
  | ends (p : Position) (failure : Option Failure) :
      AlikeEvents like (p, .ends failure) (p, .ends failure)
  | joins (p : Position) : AlikeEvents like (p, .joins) (p, .joins)

/-- Whatever happens is like itself, if every answer is. -/
theorem AlikeEvents.refl {like : Likeness} (h : ∀ query answer, like query answer answer)
    (event : Event) : AlikeEvents like event event := by
  obtain ⟨p, act⟩ := event
  cases act with
  | answered query answer => exact .answered p query (h query answer)
  | begins => exact .begins p
  | ends failure => exact .ends p failure
  | joins => exact .joins p

/-- What happens within a part is alike for the part. -/
theorem AlikeEvents.of_cons {like : Likeness} {i : Nat} {p : Position} {act : Act} {event : Event}
    (h : AlikeEvents like (i :: p, act) event) :
    ∃ act', event = (i :: p, act') ∧ AlikeEvents like (p, act) (p, act') := by
  cases h with
  | answered _ query alike => exact ⟨_, rfl, .answered p query alike⟩
  | begins => exact ⟨_, rfl, .begins p⟩
  | ends _ failure => exact ⟨_, rfl, .ends p failure⟩
  | joins => exact ⟨_, rfl, .joins p⟩

variable {like : Likeness} {post : α → α → Prop} {flow flow' last last' : Flow α}
  {event event' : Event} {events events' : List Event}

/-- A paired step is one of each flow. -/
theorem PairedStep.steps (h : PairedStep like flow flow' event event' last last') :
    Step flow event last ∧ Step flow' event' last' := by
  induction h with
  | answer next next' alike => exact ⟨.answer .., .answer ..⟩
  | left right right' next next' _ ih => exact ⟨.left _ _ ih.1, .left _ _ ih.2⟩
  | right left left' next next' _ ih => exact ⟨.right _ _ ih.1, .right _ _ ih.2⟩
  | both b b' c c' next next' => exact ⟨.both .., .both ..⟩
  | begins members members' next next' i waits place =>
    exact ⟨.begins _ _ i waits place, .begins _ _ i waits place⟩
  | member next next' i works _ ih => exact ⟨.member _ i works ih.1, .member _ i works ih.2⟩
  | ends next next' i works ended ended' => exact ⟨.ends _ i works ended, .ends _ i works ended'⟩
  | crew next next' results results' possible finished ended ended' =>
    exact ⟨.crew _ results possible finished ended, .crew _ results' possible finished ended'⟩
  | fails next next' i finished ended ended' =>
    exact ⟨.fails _ i finished ended, .fails _ i finished ended'⟩

/-- Paired runs are runs. -/
theorem PairedRun.runs (h : PairedRun like flow flow' events events' last last') :
    Run flow events last ∧ Run flow' events' last' := by
  induction h with
  | refl => exact ⟨.refl _, .refl _⟩
  | step head _ ih => exact ⟨.step head.steps.1 ih.1, .step head.steps.2 ih.2⟩

namespace Twins

/-- **What twins come to in a paired step are twins.** -/
theorem pairedStep (h : Twins like post flow flow')
    (hstep : PairedStep like flow flow' event event' last last') : Twins like post last last' := by
  -- a step of a part is one within the parts that are twins, and the results of parts that have
  -- ended are related
  induction hstep with
  | answer next next' alike =>
    cases h with
    | ask _ follow => exact follow _ _ alike
  | left right right' next next' _ ih =>
    cases h with
    | both lefts rights follow => exact .both (ih lefts) rights follow
  | right left left' next next' _ ih =>
    cases h with
    | both lefts rights follow => exact .both lefts (ih rights) follow
  | both b b' c c' next next' =>
    cases h with
    | both lefts rights follow =>
      cases lefts with
      | done hleft =>
        cases rights with
        | done hright => exact follow _ _ _ _ hleft hright
  | begins members members' next next' i waits place =>
    cases h with
    | crew _ each follow => exact .crew _ each follow
  | @member _ _ _ _ members members' next next' i works _ _ _ m m' _ ih =>
    cases h with
    | crew _ each follow =>
      refine .crew _ (fun j => ?_) follow
      -- the member that took the step is a twin of the other's again, and so are those that stayed
      by_cases hj : j = i
      · subst hj
        rw [Function.update_self, Function.update_self]
        exact ih (each j)
      · rw [Function.update_of_ne hj, Function.update_of_ne hj]
        exact each j
  | ends next next' i works ended ended' =>
    cases h with
    | crew _ each follow => exact .crew _ each follow
  | crew next next' results results' possible finished ended ended' =>
    cases h with
    | crew _ each follow =>
      -- the members have ended in the same order, and the values of each are related
      apply follow _ _ (.ok ?_)
      rw [List.forall₂_map_left_iff, List.forall₂_map_right_iff, List.forall₂_same]
      intro i _
      have hown := each i
      rw [ended, ended'] at hown
      cases hown with
      | done related =>
        cases related with
        | ok related => exact related
  | fails next next' i finished ended ended' =>
    cases h with
    | crew _ each follow =>
      have hi := each i
      rw [ended, ended'] at hi
      cases hi with
      | done related =>
        cases related with
        | error => exact follow _ _ (.error _)

/-- **What twins come to in paired runs are twins.** -/
theorem pairedRun (h : Twins like post flow flow')
    (hrun : PairedRun like flow flow' events events' last last') : Twins like post last last' := by
  induction hrun with
  | refl => exact h
  | step head _ ih => exact ih (h.pairedStep head)

/-- The twin of a flow that has ended has ended. -/
theorem of_done {result : α} (h : Twins like post (.done result) flow') :
    ∃ result', flow' = .done result' ∧ post result result' := by
  cases h with
  | done related => exact ⟨_, rfl, related⟩

/-- **What happens to one of the twins may happen to the other.** -/
theorem exists_pairedStep (h : Twins like post flow flow') (hstep : Step flow event last)
    (halike : AlikeEvents like event event') :
    ∃ last', PairedStep like flow flow' event event' last last' := by
  -- the twin has the same shape, so it can take the same step with the other answer
  induction hstep generalizing event' with
  | answer query next answer =>
    cases h with
    | ask _ follow =>
      cases halike with
      | answered _ _ alike => exact ⟨_, .answer next _ alike⟩
  | left right next _ ih =>
    cases h with
    | both lefts rights follow =>
      obtain ⟨act', rfl, hinner⟩ := halike.of_cons
      obtain ⟨last', hpaired⟩ := ih lefts hinner
      exact ⟨_, .left right _ next _ hpaired⟩
  | right left next _ ih =>
    cases h with
    | both lefts rights follow =>
      obtain ⟨act', rfl, hinner⟩ := halike.of_cons
      obtain ⟨last', hpaired⟩ := ih rights hinner
      exact ⟨_, .right left _ next _ hpaired⟩
  | both b c next =>
    cases halike
    cases h with
    | both lefts rights follow =>
      obtain ⟨b', rfl, -⟩ := lefts.of_done
      obtain ⟨c', rfl, -⟩ := rights.of_done
      exact ⟨_, .both b b' c c' next _⟩
  | begins members next i waits place =>
    cases halike
    cases h with
    | crew _ each follow => exact ⟨_, .begins members _ next _ i waits place⟩
  | member next i works _ ih =>
    cases h with
    | crew _ each follow =>
      obtain ⟨act', rfl, hinner⟩ := halike.of_cons
      obtain ⟨last', hpaired⟩ := ih (each i) hinner
      exact ⟨_, .member next _ i works hpaired⟩
  | ends next i works ended =>
    cases halike
    cases h with
    | @crew _ _ _ _ _ _ _ _ _ next' each follow =>
      have hi := each i
      rw [ended] at hi
      obtain ⟨result', ended', hmatches⟩ := hi.of_done
      -- both members fail alike or not at all, so that what happens is the same
      have hpaired : PairedStep like _ _ _ _ _ _ := .ends next next' i works ended ended'
      rw [← hmatches.failure?_eq] at hpaired
      exact ⟨_, hpaired⟩
  | crew next results possible finished ended =>
    cases halike
    cases h with
    | @crew _ _ _ _ _ _ _ members' _ _ each follow =>
      have hall (i) : ∃ value, members' i = .done (.ok value) := by
        have hi := each i
        rw [ended] at hi
        obtain ⟨result', ended', hmatches⟩ := hi.of_done
        cases hmatches with
        | ok => exact ⟨_, ended'⟩
      choose results' ended' using hall
      exact ⟨_, .crew next _ results results' possible finished ended ended'⟩
  | fails next i finished ended =>
    cases halike
    cases h with
    | crew _ each follow =>
      have hi := each i
      rw [ended] at hi
      obtain ⟨result', ended', hmatches⟩ := hi.of_done
      cases hmatches with
      | error => exact ⟨_, .fails next _ i finished ended ended'⟩

/-- **What happens to one of the twins again and again may happen to the other**, with other answers
as long as they are alike. -/
theorem exists_pairedRun (h : Twins like post flow flow') (hrun : Run flow events last)
    (halike : List.Forall₂ (AlikeEvents like) events events') :
    ∃ last', PairedRun like flow flow' events events' last last' := by
  induction hrun generalizing flow' events' with
  | refl =>
    cases halike
    exact ⟨_, .refl _ _⟩
  | step head _ ih =>
    cases halike with
    | cons hhead htail =>
      obtain ⟨second', hpaired⟩ := h.exists_pairedStep head hhead
      obtain ⟨last', hrest⟩ := ih (h.pairedStep hpaired) htail
      exact ⟨last', .step hpaired hrest⟩

/-- Twins have ended both or neither. -/
theorem result?_eq_none (h : Twins like post flow flow') (hflow : flow.result? = none) :
    flow'.result? = none := by
  cases h with
  | done => cases hflow
  | ask => rfl
  | both => rfl
  | crew => rfl

/-! ### Twins put together -/

/-- **One flow after another.** -/
theorem bind {postNext : β → β → Prop} {g g' : α → Flow β} (h : Twins like post flow flow')
    (hg : ∀ a a', post a a' → Twins like postNext (g a) (g' a')) :
    Twins like postNext (flow.bind g) (flow'.bind g') := by
  induction h with
  | done related => exact hg _ _ related
  | ask query _ ih => exact .ask query fun answer answer' alike => ih answer answer' alike hg
  | both lefts rights _ _ _ ih =>
    exact .both lefts rights fun b b' c c' hb hc => ih b b' c c' hb hc hg
  | crew rota each _ _ ih =>
    exact .crew rota each fun results results' hresults => ih results results' hresults hg

/-- A question to both machines. -/
theorem query (query : Query) : Twins like (like query) (Flow.query query) (Flow.query query) :=
  .ask query fun _ _ alike => .done alike

/-- Two flows side by side. -/
theorem pair {γ : Type} {postLeft : β → β → Prop} {postRight : γ → γ → Prop} {left left' : Flow β}
    {right right' : Flow γ} (lefts : Twins like postLeft left left')
    (rights : Twins like postRight right right') :
    Twins like (fun results results' => postLeft results.1 results'.1 ∧
      postRight results.2 results'.2) (Flow.pair left right) (Flow.pair left' right') :=
  .both lefts rights fun _ _ _ _ hb hc => .done ⟨hb, hc⟩

section Work

variable {own : α → α → Prop} {ownNext : β → β → Prop}

theorem work_pure {a a' : α} (related : own a a') :
    Twins like (Matches own) (pure a : Work α).run (pure a' : Work α).run := .done (.ok related)

theorem work_throw (failure : Failure) :
    Twins like (Matches own) (throw failure : Work α).run (throw failure : Work α).run :=
  .done (.error failure)

/-- **One flow after another**, if the first does not fail. -/
theorem work_bind {x x' : Work α} {f f' : α → Work β} (hx : Twins like (Matches own) x.run x'.run)
    (hf : ∀ a a', own a a' → Twins like (Matches ownNext) (f a).run (f' a').run) :
    Twins like (Matches ownNext) (x >>= f).run (x' >>= f').run := by
  rw [run_bind_eq, run_bind_eq]
  refine hx.bind fun result result' hresults => ?_
  cases hresults with
  | ok related => exact hf _ _ related
  | error failure => exact .done (.error failure)

theorem work_lift (h : Twins like post flow flow') :
    Twins like (Matches post) (ExceptT.lift flow : Work α).run
      (ExceptT.lift flow' : Work α).run := by
  rw [run_lift_eq, run_lift_eq]
  exact h.bind fun _ _ related => .done (.ok related)

theorem work_query (query : Query) :
    Twins like (Matches (like query)) (Work.query query).run (Work.query query).run :=
  (Twins.query query).work_lift

theorem work_ofExcept {result result' : Except Failure α} (h : Matches own result result') :
    Twins like (Matches own) (Work.ofExcept result).run (Work.ofExcept result').run := by
  cases h with
  | ok related => exact work_pure related
  | error failure => exact work_throw failure

theorem work_orFail (stage : Stage) (path : String) (result : Except FileError α) :
    Twins like (Matches Eq) (Work.orFail stage path result).run
      (Work.orFail stage path result).run := by
  cases result with
  | ok a => exact work_pure rfl
  | error cause => exact work_throw _

/-- A text that both machines read alike. -/
theorem work_readText (stage : Stage) {path : String}
    (h : ∀ answer answer', like (.readText path) answer answer' → answer = answer') :
    Twins like (Matches Eq) (Work.readText stage path).run (Work.readText stage path).run := by
  refine (work_query _).work_bind fun answer answer' alike => ?_
  rw [h answer answer' alike]
  exact work_orFail stage path answer'

theorem work_writeText (stage : Stage) {path text : String} {executable : Bool}
    (h : ∀ answer answer', like (.writeText path text executable) answer answer' →
      answer = answer') :
    Twins like (Matches Eq) (Work.writeText stage path text executable).run
      (Work.writeText stage path text executable).run := by
  refine (work_query _).work_bind fun answer answer' alike => ?_
  rw [h answer answer' alike]
  exact work_orFail stage path answer'

theorem work_runTool {ownRun : ToolResult → ToolResult → Prop} (program : String)
    (args : List String) (options : ToolOptions)
    (h : ∀ answer answer', like (.runTool { program, args, options }) answer answer' →
      Matches ownRun answer answer') :
    Twins like (Matches ownRun) (Work.runTool program args options).run
      (Work.runTool program args options).run :=
  .ask _ fun answer answer' alike => .done (h answer answer' alike)

/-- Members side by side, each of which is a twin of itself. -/
theorem work_crew (limit : Nat) {members : List (Work α)}
    (h : ∀ member ∈ members, Twins like (Matches own) member.run member.run) :
    Twins like (Matches (List.Forall₂ own)) (Work.crew limit members).run
      (Work.crew limit members).run :=
  .crew _ (fun i => h _ (List.get_mem members i)) fun _ _ hresults => .done hresults

end Work

end Twins

end AsmInspect.Flow

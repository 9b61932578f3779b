import AsmInspect.Proofs.Flow.Throughout

/-!
# Watching a flow

Notes may be taken of the answers that a flow gets, in the order in which it gets them. A watch says
what is noted and what the notes have to satisfy at any time. Whether a flow keeps it is looked up
in the flow alone: each of its questions is gone through once with the notes taken before it.

Nothing is to be noted of the questions that are asked side by side, so that the notes do not depend
on the order in which these are answered. This is what lets a watch pass over a part of a flow whose
runs are many by looking at its questions only.

## Main definitions

* `Watch`, `Watch.after`, `Watch.Ignores`: what is noted
* `Watch.Keeps`: the notes stay sound, and are as they should be at the end

## Main results

* `Watch.Keeps.step`, `Watch.Keeps.run`: a flow that keeps a watch goes on to keep it
-/

namespace AsmInspect.Flow

variable {α σ : Type}

/-- What is noted of the answers that a flow gets. -/
structure Watch (σ : Type) where
  /-- The notes after an answer. -/
  note : σ → (query : Query) → query.Answer → σ
  /-- What the notes have to satisfy at any time. -/
  sound : σ → Prop

namespace Watch

variable (watch : Watch σ)

/-- The notes after something has happened. -/
def after (notes : σ) (event : Event) : σ :=
  match event.2 with
  | .answered query answer => watch.note notes query answer
  | _ => notes

/-- Nothing is noted of a question. -/
def Ignores (query : Query) : Prop := ∀ notes answer, watch.note notes query answer = notes

/-- **The flow keeps the watch**: from the notes taken so far they stay sound, whatever the flow is
told, and they satisfy `post` when it has ended. -/
def Keeps {α : Type} (post : σ → α → Prop) (notes : σ) : Flow α → Prop
  | done r => watch.sound notes ∧ post notes r
  | ask query next =>
    watch.sound notes ∧ ∀ answer, Keeps post (watch.note notes query answer) (next answer)
  | both left right next =>
    watch.sound notes ∧ left.Throughout watch.Ignores (fun _ _ => True) ∧
      right.Throughout watch.Ignores (fun _ _ => True) ∧ ∀ results, Keeps post notes (next results)
  | crew _ members next =>
    watch.sound notes ∧ (∀ i, (members i).Throughout watch.Ignores (fun _ _ => True)) ∧
      ∀ results, Keeps post notes (next results)

variable {watch} {post : σ → α → Prop} {notes : σ} {flow flow' : Flow α}

theorem Keeps.sound (h : watch.Keeps post notes flow) : watch.sound notes := by
  cases flow with
  | done => exact h.1
  | ask => exact h.1
  | both => exact h.1
  | crew => exact h.1

/-- Nothing is noted of what happens where only questions are asked that the watch ignores. -/
theorem after_of_throughout {part part' : Flow α}
    (h : part.Throughout watch.Ignores (fun _ _ => True)) {event : Event}
    (hstep : Step part event part') (notes : σ) : watch.after notes event = notes := by
  induction hstep with
  | answer query next answer => exact h.1 notes answer
  | left right next step ih => exact ih h.1
  | right left next step ih => exact ih h.2.1
  | both b c next => rfl
  | begins members next i waits place => rfl
  | member next i works step ih => exact ih (h.2.1 i)
  | ends next i works ended => rfl
  | crew next results possible finished ended => rfl
  | fails next i finished ended => rfl

/-- What happens to a flow that keeps a watch leaves one that keeps it. -/
theorem Keeps.step (h : watch.Keeps post notes flow) {event : Event}
    (hstep : Step flow event flow') : watch.Keeps post (watch.after notes event) flow' := by
  cases hstep with
  | answer query next answer => exact h.2 answer
  | left right next step =>
    have hafter : watch.after notes _ = notes := after_of_throughout h.2.1 step notes
    exact hafter.symm ▸ ⟨h.1, h.2.1.step stable_true step, h.2.2⟩
  | right left next step =>
    have hafter : watch.after notes _ = notes := after_of_throughout h.2.2.1 step notes
    exact hafter.symm ▸ ⟨h.1, h.2.1, h.2.2.1.step stable_true step, h.2.2.2⟩
  | both b c next => exact h.2.2.2 _
  | begins members next i waits place => exact ⟨h.1, h.2⟩
  | member next i works step =>
    have hafter : watch.after notes _ = notes := after_of_throughout (h.2.1 i) step notes
    exact hafter.symm ▸
      ⟨h.1, Throughout.update h.2.1 i ((h.2.1 i).step stable_true step), h.2.2⟩
  | ends next i works ended => exact ⟨h.1, h.2⟩
  | crew next results possible finished ended => exact h.2.2 _
  | fails next i finished ended => exact h.2.2 _

/-- **A flow that keeps a watch goes on to keep it**, with the notes that are taken on the way. -/
theorem Keeps.run (h : watch.Keeps post notes flow) {events : List Event}
    (hrun : Run flow events flow') : watch.Keeps post (events.foldl watch.after notes) flow' := by
  induction hrun generalizing notes with
  | refl => exact h
  | step head _ ih => exact ih (h.step head)

end Watch

end AsmInspect.Flow

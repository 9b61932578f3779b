import AsmInspect.Proofs.Flow.Crew

/-!
# What holds throughout a flow

Some conditions are about every question that a flow may come to, and every crew, wherever it is.
What happens to the flow does not spoil them, as long as what happens to a crew does not, and a
flow has them if its parts have them.

A weaker condition leaves out the questions that a flow asks while nothing goes on beside them. What
is left out is asked alone: no other question is open at the same time.

## Main definitions

* `Throughout`: what holds of every question and every crew that a flow may come to
* `Abreast`: what holds of every crew, and of every question that others may be open beside
* `Tidy`, `Roomy`: no member has left early; every crew has places, and not too many

## Main results

* `Throughout.step`, `Abreast.step`: it holds of what the flow comes to
* `Throughout.bind`, `Abreast.bind`: it holds of a flow and another after it
* `Abreast.opened_eq`: a question that is left out is asked alone
* `crashed_eq_false`: a flow with no more places than there can be has not crashed
-/

namespace AsmInspect.Flow

variable {α β : Type}

/-- A condition on the crews of a flow. -/
abbrev CrewCondition := ∀ {β : Type} {n : Nat}, Rota n → (Fin n → Flow (Except Failure β)) → Prop

/-- Each question that the flow may come to satisfies `asks`, and each crew satisfies `crews`. -/
def Throughout (asks : Query → Prop) (crews : CrewCondition) {α : Type} : Flow α → Prop
  | done _ => True
  | ask query next => asks query ∧ ∀ answer, (next answer).Throughout asks crews
  | both left right next =>
    left.Throughout asks crews ∧ right.Throughout asks crews ∧
      ∀ results, (next results).Throughout asks crews
  | crew rota members next =>
    crews rota members ∧ (∀ i, (members i).Throughout asks crews) ∧
      ∀ results, (next results).Throughout asks crews

/-- What happens to a crew does not spoil the condition. -/
structure CrewCondition.Stable (crews : CrewCondition) : Prop where
  begins {β : Type} {n : Nat} {rota : Rota n} {members : Fin n → Flow (Except Failure β)}
    {i : Fin n} : crews rota members → rota.turn i = .waiting → rota.HasPlace →
      crews (rota.assign i) members
  member {β : Type} {n : Nat} {rota : Rota n} {members : Fin n → Flow (Except Failure β)}
    {i : Fin n} (m : Flow (Except Failure β)) : crews rota members → rota.turn i = .working →
      crews rota (Function.update members i m)
  ends {β : Type} {n : Nat} {rota : Rota n} {members : Fin n → Flow (Except Failure β)}
    {i : Fin n} {result : Except Failure β} : crews rota members → rota.turn i = .working →
      members i = .done result → crews (rota.dismiss i) members

namespace Throughout

variable {asks : Query → Prop} {crews : CrewCondition}

/-- It holds of all members when it holds of what one of them comes to. -/
theorem update {n : Nat} {members : Fin n → Flow α} (h : ∀ i, (members i).Throughout asks crews)
    (i : Fin n) {m : Flow α} (hm : m.Throughout asks crews) (j : Fin n) :
    (Function.update members i m j).Throughout asks crews :=
  (Function.forall_update_iff members fun _ member => member.Throughout asks crews).mpr
    ⟨hm, fun j _ => h j⟩ j

/-- What holds throughout a flow holds throughout all that it comes to. -/
theorem step (hs : crews.Stable) {flow flow' : Flow α} {event : Event}
    (h : flow.Throughout asks crews) (hstep : Step flow event flow') :
    flow'.Throughout asks crews := by
  induction hstep with
  | answer query next answer => exact h.2 answer
  | left right next step ih => exact ⟨ih h.1, h.2⟩
  | right left next step ih => exact ⟨h.1, ih h.2.1, h.2.2⟩
  | both b c next => exact h.2.2 _
  | begins members next i waits place => exact ⟨hs.begins h.1 waits place, h.2⟩
  | member next i works step ih =>
    exact ⟨hs.member _ h.1 works, update h.2.1 i (ih (h.2.1 i)), h.2.2⟩
  | ends next i works ended => exact ⟨hs.ends h.1 works ended, h.2⟩
  | crew next results possible finished ended => exact h.2.2 _
  | fails next i finished ended => exact h.2.2 _

theorem run (hs : crews.Stable) {flow flow' : Flow α} {events : List Event}
    (h : flow.Throughout asks crews) (hrun : Run flow events flow') :
    flow'.Throughout asks crews := by
  induction hrun with
  | refl => exact h
  | step head _ ih => exact ih (h.step hs head)

/-- Only such questions are answered. -/
theorem answered_step {flow flow' : Flow α} {event : Event} (h : flow.Throughout asks crews)
    (hstep : Step flow event flow') {query : Query} {answer : query.Answer}
    (he : event.2 = .answered query answer) : asks query := by
  induction hstep with
  | answer asked next _ =>
    cases he
    exact h.1
  | left right next step ih => exact ih h.1 he
  | right left next step ih => exact ih h.2.1 he
  | member next i works step ih => exact ih (h.2.1 i) he
  | both => cases he
  | begins => cases he
  | ends => cases he
  | crew => cases he
  | fails => cases he

theorem answered_run (hs : crews.Stable) {flow flow' : Flow α} {events : List Event}
    (h : flow.Throughout asks crews) (hrun : Run flow events flow') {position : Position}
    {query : Query} {answer : query.Answer}
    (hmem : (position, .answered query answer) ∈ events) : asks query := by
  induction hrun with
  | refl => cases hmem
  | step head _ ih =>
    rcases List.mem_cons.mp hmem with rfl | hlater
    · exact h.answered_step head rfl
    · exact ih (h.step hs head) hlater

theorem bind {flow : Flow α} {g : α → Flow β} (h : flow.Throughout asks crews)
    (hg : ∀ a, (g a).Throughout asks crews) : (flow.bind g).Throughout asks crews := by
  induction flow with
  | done a => exact hg a
  | ask query next ih => exact ⟨h.1, fun answer => ih answer (h.2 answer) hg⟩
  | both left right next _ _ ih => exact ⟨h.1, h.2.1, fun x => ih x (h.2.2 x) hg⟩
  | crew rota members next _ ih => exact ⟨h.1, h.2.1, fun x => ih x (h.2.2 x) hg⟩

end Throughout

/-- A member whose turn is over has ended. -/
def TidyCrew : CrewCondition := fun rota members =>
  ∀ i, rota.turn i = .finished → ∃ result, members i = .done result

/-- A crew has places, and no more than there can be. -/
def RoomyCrew : CrewCondition := fun rota _ =>
  0 < rota.free + rota.atWork.card ∧ rota.free + rota.atWork.card ≤ Rota.mostPlaces

/-- No member of a crew leaves before its end. -/
abbrev Tidy (flow : Flow α) : Prop := flow.Throughout (fun _ => True) TidyCrew

/-- Each crew has places, and none has more than there can be. -/
abbrev Roomy (flow : Flow α) : Prop := flow.Throughout (fun _ => True) RoomyCrew

theorem stable_true : CrewCondition.Stable fun _ _ => True where
  begins _ _ _ := trivial
  member _ _ _ := trivial
  ends _ _ _ := trivial

theorem tidyCrew_stable : CrewCondition.Stable TidyCrew where
  begins {_ _ rota members i} h _ _ j hj := by
    by_cases he : j = i
    · simp [he] at hj
    · exact h j (by simpa [he] using hj)
  member {_ _ rota members i} m h works j hj := by
    have hne : j ≠ i := by
      rintro rfl
      simp [works] at hj
    obtain ⟨result, hr⟩ := h j hj
    exact ⟨result, by rw [Function.update_of_ne hne, hr]⟩
  ends {_ _ rota members i result} h _ ended j hj := by
    by_cases he : j = i
    · exact ⟨result, he ▸ ended⟩
    · exact h j (by simpa [he] using hj)

/-- A crew that has not begun has all its places. -/
theorem roomyCrew_start {n limit : Nat} (members : Fin n → Flow (Except Failure β))
    (hlimit : 1 ≤ limit) (hmost : limit ≤ Rota.mostPlaces) :
    RoomyCrew { free := limit } members := by
  have hidle : (Rota.atWork { free := limit } : Finset (Fin n)) = ∅ := by simp [Rota.atWork]
  rw [RoomyCrew, hidle]
  exact ⟨hlimit, hmost⟩

theorem roomyCrew_stable : CrewCondition.Stable RoomyCrew where
  begins h waits place := by rwa [RoomyCrew, Rota.places_assign waits place.1]
  member _ h _ := h
  ends h works _ := by rwa [RoomyCrew, Rota.places_dismiss works]

/-- **A flow with no more places than there can be has not crashed.** -/
theorem crashed_eq_false {flow : Flow α} (h : flow.Roomy) : flow.crashed = false := by
  induction flow with
  | done => rfl
  | ask => rfl
  | both left right next ihl ihr _ => rw [crashed, ihl h.1, ihr h.2.1, Bool.or_self]
  | crew rota members next ih _ =>
    -- the free places are among all places
    have hfree : ¬ Rota.mostPlaces < rota.free := by
      have hmost := h.1.2
      omega
    have hmembers (i) : (members i).crashed = false := ih i (h.2.1 i)
    simp [crashed, hfree, hmembers]

/-- What holds throughout implies what is weaker. -/
theorem Throughout.mono {asks asks' : Query → Prop} {crews : CrewCondition}
    (hasks : ∀ query, asks query → asks' query) {flow : Flow α} (h : flow.Throughout asks crews) :
    flow.Throughout asks' crews := by
  induction flow with
  | done r => trivial
  | ask query next ih => exact ⟨hasks _ h.1, fun answer => ih answer (h.2 answer)⟩
  | both left right next ihl ihr ihn => exact ⟨ihl h.1, ihr h.2.1, fun x => ihn x (h.2.2 x)⟩
  | crew rota members next ihm ihn =>
    exact ⟨h.1, fun i => ihm i (h.2.1 i), fun x => ihn x (h.2.2 x)⟩

/-- What holds of every question holds of the open ones. -/
theorem Throughout.of_opened {asks : Query → Prop} {crews : CrewCondition} {flow : Flow α}
    (h : flow.Throughout asks crews) {p : Position} {query : Query}
    (hmem : (p, query) ∈ flow.opened) : asks query := by
  induction flow generalizing p with
  | done r => simp [opened] at hmem
  | ask asked next =>
    obtain ⟨-, rfl⟩ := Prod.mk.inj (List.mem_singleton.mp hmem)
    exact h.1
  | both left right next ihl ihr =>
    simp only [opened, List.mem_append, List.mem_map, Prod.mk.injEq, Prod.exists] at hmem
    rcases hmem with ⟨q, _, hq, -, rfl⟩ | ⟨q, _, hq, -, rfl⟩
    · exact ihl h.1 hq
    · exact ihr h.2.1 hq
  | crew rota members next ihm =>
    simp only [opened, List.mem_flatMap, List.mem_map, Prod.mk.injEq, Prod.exists] at hmem
    obtain ⟨i, -, q, _, hq, -, rfl⟩ := hmem
    exact ihm i (h.2.1 i) hq

/-! ### Questions that are asked alone -/

/-- Each crew satisfies `crews`, and each question that others may be open beside satisfies `asks`.
-/
def Abreast (asks : Query → Prop) (crews : CrewCondition) {α : Type} : Flow α → Prop
  | done _ => True
  | ask _ next => ∀ answer, (next answer).Abreast asks crews
  | both left right next =>
    left.Throughout asks crews ∧ right.Throughout asks crews ∧
      ∀ results, (next results).Abreast asks crews
  | crew rota members next =>
    crews rota members ∧ (∀ i, (members i).Throughout asks crews) ∧
      ∀ results, (next results).Abreast asks crews

theorem Throughout.abreast {asks : Query → Prop} {crews : CrewCondition} {flow : Flow α}
    (h : flow.Throughout asks crews) : flow.Abreast asks crews := by
  induction flow with
  | done r => trivial
  | ask query next ih => exact fun answer => ih answer (h.2 answer)
  | both left right next _ _ ih => exact ⟨h.1, h.2.1, fun x => ih x (h.2.2 x)⟩
  | crew rota members next _ ih => exact ⟨h.1, h.2.1, fun x => ih x (h.2.2 x)⟩

namespace Abreast

variable {asks : Query → Prop} {crews : CrewCondition}

theorem step (hs : crews.Stable) {flow flow' : Flow α} {event : Event}
    (h : flow.Abreast asks crews) (hstep : Step flow event flow') : flow'.Abreast asks crews := by
  cases hstep with
  | answer query next answer => exact h answer
  | left right next step => exact ⟨h.1.step hs step, h.2⟩
  | right left next step => exact ⟨h.1, h.2.1.step hs step, h.2.2⟩
  | both b c next => exact h.2.2 _
  | begins members next i waits place => exact ⟨hs.begins h.1 waits place, h.2⟩
  | member next i works step =>
    exact ⟨hs.member _ h.1 works, Throughout.update h.2.1 i ((h.2.1 i).step hs step), h.2.2⟩
  | ends next i works ended => exact ⟨hs.ends h.1 works ended, h.2⟩
  | crew next results possible finished ended => exact h.2.2 _
  | fails next i finished ended => exact h.2.2 _

theorem run (hs : crews.Stable) {flow flow' : Flow α} {events : List Event}
    (h : flow.Abreast asks crews) (hrun : Run flow events flow') : flow'.Abreast asks crews := by
  induction hrun with
  | refl => exact h
  | step head _ ih => exact ih (h.step hs head)

theorem bind {flow : Flow α} {g : α → Flow β} (h : flow.Abreast asks crews)
    (hg : ∀ a, (g a).Abreast asks crews) : (flow.bind g).Abreast asks crews := by
  induction flow with
  | done a => exact hg a
  | ask query next ih => exact fun answer => ih answer (h answer) hg
  | both left right next _ _ ih => exact ⟨h.1, h.2.1, fun x => ih x (h.2.2 x) hg⟩
  | crew rota members next _ ih => exact ⟨h.1, h.2.1, fun x => ih x (h.2.2 x) hg⟩

/-- **A question that does not satisfy the condition is asked alone.** -/
theorem opened_eq {flow : Flow α} (h : flow.Abreast asks crews) {p : Position} {query : Query}
    (hmem : (p, query) ∈ flow.opened) (hquery : ¬ asks query) :
    p = [] ∧ ∃ next, flow = .ask query next := by
  cases flow with
  | done r => simp [opened] at hmem
  | ask asked next =>
    obtain ⟨rfl, rfl⟩ := Prod.mk.inj (List.mem_singleton.mp hmem)
    exact ⟨rfl, next, rfl⟩
  | both left right next =>
    simp only [opened, List.mem_append, List.mem_map, Prod.mk.injEq, Prod.exists] at hmem
    rcases hmem with ⟨q, _, hq, -, rfl⟩ | ⟨q, _, hq, -, rfl⟩
    · exact absurd (h.1.of_opened hq) hquery
    · exact absurd (h.2.1.of_opened hq) hquery
  | crew rota members next =>
    simp only [opened, List.mem_flatMap, List.mem_map, Prod.mk.injEq, Prod.exists] at hmem
    obtain ⟨i, -, q, _, hq, -, rfl⟩ := hmem
    exact absurd ((h.2.1 i).of_opened hq) hquery

/-- A flow without crews that somebody left early is tidy, whatever it asks. -/
theorem tidy {flow : Flow α} (h : flow.Abreast asks TidyCrew) : flow.Tidy := by
  have hmono {β : Type} {part : Flow β} (hp : part.Throughout asks TidyCrew) : part.Tidy :=
    hp.mono fun _ _ => trivial
  induction flow with
  | done r => trivial
  | ask query next ih => exact ⟨trivial, fun answer => ih answer (h answer)⟩
  | both left right next _ _ ih => exact ⟨hmono h.1, hmono h.2.1, fun x => ih x (h.2.2 x)⟩
  | crew rota members next _ ih =>
    exact ⟨h.1, fun i => hmono (h.2.1 i), fun x => ih x (h.2.2 x)⟩

end Abreast

end AsmInspect.Flow

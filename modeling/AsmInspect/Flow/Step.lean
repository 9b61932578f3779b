import AsmInspect.Flow.Basic

/-!
# Steps of a flow

A flow that waits has one or more open questions, each at a position: the way to it through the
parts that go on side by side. An answer to one of them lets the flow go on to its next questions.

## Main definitions

* `Rota.assign`, `Rota.dismiss`, `Rota.advance`: members take places and give them back
* `Flow.crashed`, `Flow.crashText`: whether a flow has come to a crew that cannot be
* `Flow.opened`: the open questions with their positions
* `Flow.settle`: the flow after everything that needs no answer
* `Flow.resume`: the flow after an answer
-/

namespace AsmInspect

namespace Rota

variable {n : Nat}

/-- A member takes a place. -/
def assign (rota : Rota n) (i : Fin n) : Rota n where
  free := rota.free - 1
  turn j := if j = i then .working else rota.turn j
  finishers := rota.finishers.erase i
  nodup_finishers := rota.nodup_finishers.erase i
  mem_finishers j := by
    rw [rota.nodup_finishers.mem_erase_iff, rota.mem_finishers]
    by_cases h : j = i <;> simp [h]

/-- A member gives its place back. -/
def dismiss (rota : Rota n) (i : Fin n) : Rota n where
  free := rota.free + 1
  turn j := if j = i then .finished else rota.turn j
  finishers := rota.finishers.erase i ++ [i]
  nodup_finishers := by
    refine List.nodup_append.mpr ⟨rota.nodup_finishers.erase i, by simp, ?_⟩
    intro j hj k hk he
    rw [rota.nodup_finishers.mem_erase_iff] at hj
    exact hj.1 (he.trans (List.mem_singleton.mp hk))
  mem_finishers j := by
    rw [List.mem_append, rota.nodup_finishers.mem_erase_iff, rota.mem_finishers]
    by_cases h : j = i <;> simp [h]

/-- A place can be taken: there is one, and there are no more than there can be. -/
abbrev HasPlace (rota : Rota n) : Prop := 0 < rota.free ∧ rota.free ≤ mostPlaces

/-- A member that has ended gives its place back. -/
def retire (ended : Fin n → Bool) (rota : Rota n) (i : Fin n) : Rota n :=
  if rota.turn i = .working ∧ ended i then rota.dismiss i else rota

/-- A member that waits takes a place if there is one; it may need it for no more than a moment. -/
def enlist (ended : Fin n → Bool) (rota : Rota n) (i : Fin n) : Rota n :=
  if rota.turn i = .waiting ∧ rota.HasPlace then (rota.assign i).retire ended i else rota

/-- All places that can be given back are, and then the members that wait take the free ones in
their order. -/
def advance (rota : Rota n) (ended : Fin n → Bool) : Rota n :=
  let members := List.finRange n
  members.foldl (enlist ended) (members.foldl (retire ended) rota)

end Rota

namespace Flow

variable {α β : Type}

/-- The way to a question through parts that go on side by side. -/
abbrev Position := List Nat

/-- The result of a flow that has ended. -/
def result? : Flow α → Option α
  | done result => some result
  | _ => none

/-- The failure of a member whose turn is over. -/
def failureOf? {n : Nat} (rota : Rota n) (results : Fin n → Option (Except Failure β))
    (i : Fin n) : Option Failure :=
  match rota.turn i, results i with
  | .finished, some (.error failure) => some failure
  | _, _ => none

/-- The value of a member whose turn is over. -/
def valueOf? {n : Nat} (rota : Rota n) (results : Fin n → Option (Except Failure β))
    (i : Fin n) : Option β :=
  match rota.turn i, results i with
  | .finished, some (.ok b) => some b
  | _, _ => none

/-- The result of a crew, if it has one: the failure of the first member that failed, or the results
of all, in the order in which they ended. -/
def crewResult? {n : Nat} (rota : Rota n) (results : Fin n → Option (Except Failure β)) :
    Option (Except Failure (List β)) :=
  match rota.finishers.findSome? (failureOf? rota results) with
  | some failure => some (.error failure)
  | none =>
    if h : rota.free ≤ Rota.mostPlaces ∧ ∀ i, (valueOf? rota results i).isSome then
      some (.ok (rota.finishers.map fun i => (valueOf? rota results i).get (h.2 i)))
    else none

/-- The flow after everything that needs no answer: what has ended is over, and members of crews
have begun where there is room. -/
def settle {α : Type} : Flow α → Flow α
  | done result => done result
  | ask query next => ask query next
  | both left right next =>
    let left := left.settle
    let right := right.settle
    match left.result?, right.result? with
    | some b, some c => (next (b, c)).settle
    | _, _ => both left right next
  | crew rota members next =>
    let settled := fun i => (members i).settle
    let rota := rota.advance fun i => (settled i).result?.isSome
    match crewResult? rota fun i => (settled i).result? with
    | some results => (next results).settle
    | none => crew rota (fun i => if rota.turn i = .waiting then members i else settled i) next

/-- Whether a flow that has settled has crashed: it has come to a crew that has more places than
there can be. -/
def crashed {α : Type} : Flow α → Bool
  | done _ => false
  | ask .. => false
  | both left right _ => left.crashed || right.crashed
  | crew (n := n) rota members _ =>
    Rota.mostPlaces < rota.free ||
      (List.finRange n).any fun i => rota.turn i = .working && (members i).crashed

/-- What is said of a job that has crashed. -/
def crashText : String :=
  s!"a semaphore may not have more than MAX_PERMITS permits ({Rota.mostPlaces})"

/-- The open questions of a flow that has settled. -/
def opened {α : Type} : Flow α → List (Position × Query)
  | done _ => []
  | ask query _ => [([], query)]
  | both left right _ =>
    left.opened.map (fun (p, q) => (0 :: p, q)) ++ right.opened.map fun (p, q) => (1 :: p, q)
  | crew (n := n) rota members _ =>
    ((List.finRange n).filter (rota.turn · = .working)).flatMap fun i =>
      (members i).opened.map fun (p, q) => (i.val :: p, q)

/-- The flow after an answer to the question at a position, before it settles. -/
def resume {α : Type} (query : Query) (answer : query.Answer) : Position → Flow α → Flow α
  | [], ask asked next => if h : query = asked then next (h ▸ answer) else ask asked next
  | 0 :: position, both left right next => both (left.resume query answer position) right next
  | 1 :: position, both left right next => both left (right.resume query answer position) next
  | i :: position, crew rota members next =>
    crew rota (fun j => if j.val = i ∧ rota.turn j = .working
      then (members j).resume query answer position else members j) next
  | _, flow => flow

end Flow

end AsmInspect

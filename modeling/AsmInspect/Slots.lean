/-!
# Slots

A fixed number of slots is shared by all jobs. A job that finds no slot waits, and looks again when
it has been notified: a slot or an urgent waiter has gone away since it last looked. As long as an
urgent job waits, no other job takes a slot.

## Main definitions

* `Priority`: how urgent a job is
* `Slots`: the free slots, the waiters and the holders
* `Slots.acquire`, `Slots.poll`, `Slots.cancel`, `Slots.release`: the steps of jobs
-/

namespace AsmInspect

/-- How urgent a job is. -/
inductive Priority where
  | normal
  | high
  deriving DecidableEq, Repr, Inhabited

/-- A job that waits for a slot. -/
structure Slots.Waiter (ι : Type) where
  id : ι
  priority : Priority
  /-- Whether something has changed since the waiter last looked. -/
  notified : Bool := false
  deriving DecidableEq, Repr

/-- The slots with the jobs that hold one or wait for one. -/
structure Slots (ι : Type) where
  available : Nat
  /-- How many urgent jobs wait. -/
  highWaiting : Nat := 0
  /-- The waiters, the first that came first. -/
  waiters : List (Slots.Waiter ι) := []
  holders : List ι := []
  deriving DecidableEq, Repr

namespace Slots

variable {ι : Type} [DecidableEq ι]

/-- What a job has to do with the slots. -/
inductive Status where
  | holding
  | waiting
  | absent
  deriving DecidableEq, Repr

/-- Whether a job holds a slot or waits for one. -/
def status (slots : Slots ι) (id : ι) : Status :=
  if slots.holders.contains id then .holding
  else if slots.waiters.any (·.id == id) then .waiting
  else .absent

/-- Every waiter is told that something has changed. -/
def notify (slots : Slots ι) : Slots ι :=
  { slots with waiters := slots.waiters.map fun waiter => { waiter with notified := true } }

/-- Whether a job of this priority may take a slot now. -/
def admits (slots : Slots ι) (priority : Priority) : Bool :=
  (priority == .high || slots.highWaiting == 0) && 0 < slots.available

/-- A job enters the number of urgent waiters, if it is urgent. -/
def register (slots : Slots ι) : Priority → Slots ι
  | .high => { slots with highWaiting := slots.highWaiting + 1 }
  | .normal => slots

/-- A job leaves the number of urgent waiters, if it was urgent; the others are told. -/
def unregister (slots : Slots ι) : Priority → Slots ι
  | .high => { slots with highWaiting := slots.highWaiting - 1 }.notify
  | .normal => slots

/-- The slots without a waiter. -/
def withoutWaiter (slots : Slots ι) (id : ι) : Slots ι :=
  { slots with waiters := slots.waiters.filter (·.id != id) }

/-- A slot goes to a job that is registered and waits no more. -/
def grant (slots : Slots ι) (id : ι) (priority : Priority) : Slots ι :=
  { slots with available := slots.available - 1, holders := id :: slots.holders }.unregister
    priority

/-- A job asks for a slot: it gets one, or it waits behind the others. -/
def acquire (slots : Slots ι) (id : ι) (priority : Priority) : Slots ι :=
  match slots.status id with
  | .absent =>
    let slots := slots.register priority
    if slots.admits priority then slots.grant id priority
    else { slots with waiters := slots.waiters ++ [{ id, priority }] }
  | _ => slots

/-- A waiter looks again if it has been notified: it gets a slot, or waits behind the others. -/
def poll (slots : Slots ι) (id : ι) : Slots ι :=
  match slots.waiters.find? (·.id == id) with
  | some waiter =>
    if !waiter.notified then slots
    else if slots.admits waiter.priority then (slots.withoutWaiter id).grant id waiter.priority
    else
      let others := slots.withoutWaiter id
      { others with waiters := others.waiters ++ [{ waiter with notified := false }] }
  | none => slots

/-- A waiter gives up. -/
def cancel (slots : Slots ι) (id : ι) : Slots ι :=
  match slots.waiters.find? (·.id == id) with
  | some waiter => (slots.withoutWaiter id).unregister waiter.priority
  | none => slots

/-- A holder gives its slot back; the waiters are told. -/
def release (slots : Slots ι) (id : ι) : Slots ι :=
  if slots.holders.contains id then
    { slots with available := slots.available + 1, holders := slots.holders.erase id }.notify
  else slots

/-- The waiters that have something to look at. -/
def notified (slots : Slots ι) : List ι := (slots.waiters.filter (·.notified)).map (·.id)

end Slots

end AsmInspect

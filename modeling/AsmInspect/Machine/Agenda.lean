import AsmInspect.Machine.Basic
import AsmInspect.Slots

/-!
# Jobs on a machine

Jobs come to a machine at given times, wait for a slot, and work under a time limit. Time passes
only when no job can go on and no question about files is open: then the clock goes to the next
moment at which a job comes, a tool ends or a time limit runs out.

## Main definitions

* `Arrival`, `Terms`: a job that comes, and what all jobs work under
* `Agenda`: the jobs in the middle of their work
* `Agenda.step`, `Agenda.run`: one thing that happens, and everything that happens
* `Agenda.results`, `Agenda.crashed`: what jobs have come to
* `Machine.run`: a single flow on a machine without a time limit
-/

namespace AsmInspect

/-- A job that comes to a machine. -/
structure Arrival (α : Type) : Type 1 where
  /-- When the job comes. -/
  due : Nat := 0
  priority : Priority := .normal
  flow : Flow α

/-- What all jobs work under. -/
structure Terms (α : Type) where
  tools : Tools
  /-- How long a job may work, and the result of one that works longer. -/
  limit : Option (Nat × α) := none

/-- A job at work. -/
structure Undertaking (α : Type) : Type 1 where
  flow : Flow α
  /-- The open questions that the machine works on. -/
  asked : List (Flow.Position × Query) := []
  /-- The directories that go away with the job. -/
  directories : List String := []
  /-- When the job has to be over. -/
  deadline : Option Nat := none

/-- How far a job has come. -/
inductive Agenda.Phase (α : Type) : Type 1 where
  | coming (arrival : Arrival α)
  | waiting (arrival : Arrival α)
  | working (work : Undertaking α)
  | over (result : α)
  /-- The job has come to something that cannot be. -/
  | crashed
  /-- Nobody wants the job any more. -/
  | dropped

/-- What happens at a moment. -/
inductive Agenda.Occasion where
  /-- A job comes, or its time is up. -/
  | look
  /-- A tool run ends. -/
  | toolEnds (position : Flow.Position) (run : ToolRun)

/-- What happens to a job at a moment. -/
structure Agenda.Timer where
  time : Nat
  job : Nat
  occasion : Agenda.Occasion

/-- An entry in the record of what jobs do. -/
inductive Agenda.Entry where
  | started (job : Nat)
  | ended (job : Nat)
  deriving DecidableEq, Repr

/-- The jobs on a machine. -/
structure Agenda (α : Type) : Type 1 where
  machine : Machine
  slots : Slots Nat
  /-- The jobs in their order. -/
  phases : List (Agenda.Phase α)
  /-- What will happen, the first first. -/
  timers : List Agenda.Timer := []
  /-- The open questions about files, the first first. -/
  files : List (Nat × Flow.Position × FileQuery) := []
  /-- The jobs that have something to look at, the first first. -/
  ready : List Nat := []
  /-- What jobs have done, the latest first. -/
  record : List Agenda.Entry := []

namespace Undertaking

variable {α : Type}

/-- The job after an answer. -/
def resume (work : Undertaking α) (position : Flow.Position) (query : Query)
    (answer : query.Answer) : Undertaking α :=
  { work with
    flow := (work.flow.resume query answer position).settle
    asked := work.asked.erase (position, query)
    directories := match query, answer with
      | .jobDirectory _, .ok path => path :: work.directories
      | _, _ => work.directories }

/-- The open questions that the machine does not work on yet. -/
def fresh (work : Undertaking α) : List (Flow.Position × Query) :=
  work.flow.opened.filter (!work.asked.contains ·)

/-- The questions that the machine works on though nobody asks them any more. -/
def stale (work : Undertaking α) : List (Flow.Position × Query) :=
  work.asked.filter (!work.flow.opened.contains ·)

/-- The tool runs among some questions. -/
def toolsOf (questions : List (Flow.Position × Query)) : List ToolCall :=
  questions.flatMap (·.2.tools)

/-- The machine without the tool runs among some questions. -/
def abandon (questions : List (Flow.Position × Query)) (machine : Machine) : Machine :=
  machine.leave (toolsOf questions)

end Undertaking

namespace Agenda

variable {α : Type}

/-- The timer put behind those of the same time. -/
def insertTimer (timer : Timer) : List Timer → List Timer
  | [] => [timer]
  | first :: rest =>
    if first.time ≤ timer.time then first :: insertTimer timer rest else timer :: first :: rest

/-- The agenda with something that will happen. -/
def schedule (agenda : Agenda α) (timer : Timer) : Agenda α :=
  { agenda with timers := insertTimer timer agenda.timers }

/-- The agenda with a job in another phase. -/
def setPhase (agenda : Agenda α) (job : Nat) (phase : Phase α) : Agenda α :=
  { agenda with phases := agenda.phases.set job phase }

/-- The agenda with a job that has something to look at. -/
def wake (agenda : Agenda α) (job : Nat) : Agenda α :=
  if agenda.ready.contains job then agenda else { agenda with ready := agenda.ready ++ [job] }

/-- The agenda with other slots; the waiters that have been told look at them. -/
def withSlots (agenda : Agenda α) (slots : Slots Nat) : Agenda α :=
  slots.notified.foldl wake { agenda with slots }

/-- A question of a job is passed to the machine. Those that take no time are answered at once. -/
def pass (terms : Terms α) (job : Nat) (agenda : Agenda α) (work : Undertaking α)
    (position : Flow.Position) (query : Query) : Agenda α × Undertaking α :=
  let kept := { work with asked := work.asked ++ [(position, query)] }
  let file (question : FileQuery) : Agenda α :=
    { agenda with files := agenda.files ++ [(job, position, question)] }
  match query with
  | .runTool call =>
    let (machine, run) := agenda.machine.begin terms.tools call
    if run.durationMs = 0 then
      let (machine, result) := machine.finish run
      ({ agenda with machine }, work.resume position (.runTool call) result)
    else
      ({ agenda with machine }.schedule
        { time := machine.now + run.durationMs, job, occasion := .toolEnds position run }, kept)
  | .clock => (agenda, work.resume position .clock agenda.machine.now.toUInt64)
  | .enter state => (agenda, work.resume position (.enter state) ())
  | .readText path => (file ⟨.readText path, rfl⟩, kept)
  | .writeText path text executable => (file ⟨.writeText path text executable, rfl⟩, kept)
  | .listNames path => (file ⟨.listNames path, rfl⟩, kept)
  | .fileExists path => (file ⟨.fileExists path, rfl⟩, kept)
  | .jobDirectory root => (file ⟨.jobDirectory root, rfl⟩, kept)

/-- All new questions of a job are passed to the machine, at most so many. -/
def passAll (terms : Terms α) (job : Nat) :
    (most : Nat) → Agenda α → Undertaking α → Agenda α × Undertaking α
  | 0, agenda, work => (agenda, work)
  | most + 1, agenda, work =>
    let stale := work.stale
    let agenda := { agenda with machine := Undertaking.abandon stale agenda.machine }
    let work := { work with asked := work.asked.filter (!stale.contains ·) }
    match work.fresh with
    | [] => (agenda, work)
    | (position, query) :: _ =>
      let (agenda, work) := pass terms job agenda work position query
      passAll terms job most agenda work

/-- A job stops working: its tools stop, its directories go away and its slot becomes free. -/
def stop (agenda : Agenda α) (job : Nat) (work : Undertaking α) (phase : Phase α) : Agenda α :=
  let machine := Undertaking.abandon work.asked agenda.machine
  let machine := work.directories.foldl Machine.removeDirectory machine
  ({ agenda with machine }.setPhase job phase).withSlots (agenda.slots.release job)

/-- A job is over. -/
def conclude (agenda : Agenda α) (job : Nat) (work : Undertaking α) (result : α) : Agenda α :=
  { agenda with record := .ended job :: agenda.record }.stop job work (.over result)

/-- A job is dropped, wherever it is. -/
def drop (agenda : Agenda α) (job : Nat) : Agenda α :=
  match agenda.phases[job]? with
  | some (.coming _) => agenda.setPhase job .dropped
  | some (.waiting _) => (agenda.setPhase job .dropped).withSlots (agenda.slots.cancel job)
  | some (.working work) => agenda.stop job work .dropped
  | _ => agenda

/-- The most questions that a job is allowed to ask at one moment. -/
def patience : Nat := 1000000

/-- A job goes on as far as it can. -/
def goOn (terms : Terms α) (agenda : Agenda α) (job : Nat) (work : Undertaking α) : Agenda α :=
  let (agenda, work) := passAll terms job patience agenda work
  match work.flow.result? with
  | some result => agenda.conclude job work result
  | none =>
    if work.flow.crashed then agenda.stop job work .crashed
    else
      match terms.limit, work.deadline with
      | some (_, result), some deadline =>
        if deadline ≤ agenda.machine.now then agenda.conclude job work result
        else agenda.setPhase job (.working work)
      | _, _ => agenda.setPhase job (.working work)

/-- A job that got a slot begins. -/
def start (terms : Terms α) (agenda : Agenda α) (job : Nat) (arrival : Arrival α) : Agenda α :=
  let deadline := terms.limit.map fun (limitMs, _) => agenda.machine.now + limitMs
  let agenda := { agenda with record := .started job :: agenda.record }
  let agenda := goOn terms agenda job { flow := arrival.flow.settle, deadline }
  match deadline with
  | some time => agenda.schedule { time, job, occasion := .look }
  | none => agenda

/-- A job with a slot begins; one without waits. -/
def startOrWait (terms : Terms α) (agenda : Agenda α) (job : Nat) (arrival : Arrival α) :
    Agenda α :=
  if agenda.slots.status job = .holding then agenda.start terms job arrival
  else agenda.setPhase job (.waiting arrival)

/-- A job looks at what has changed. -/
def look (terms : Terms α) (agenda : Agenda α) (job : Nat) : Agenda α :=
  match agenda.phases[job]? with
  | some (.coming arrival) =>
    if arrival.due ≤ agenda.machine.now then
      (agenda.withSlots (agenda.slots.acquire job arrival.priority)).startOrWait terms job arrival
    else agenda.schedule { time := arrival.due, job, occasion := .look }
  | some (.waiting arrival) =>
    (agenda.withSlots (agenda.slots.poll job)).startOrWait terms job arrival
  | some (.working work) => agenda.goOn terms job work
  | _ => agenda

/-- A job gets an answer, if it still waits for it. -/
def deliver (agenda : Agenda α) (job : Nat) (position : Flow.Position) (query : Query)
    (answer : Machine → Machine × query.Answer) : Agenda α :=
  match agenda.phases[job]? with
  | some (.working work) =>
    if work.asked.contains (position, query) then
      let (machine, result) := answer agenda.machine
      ({ agenda with machine }.setPhase job (.working (work.resume position query result))).wake job
    else agenda
  | _ => agenda

/-- What a timer does when its time has come. -/
def fire (agenda : Agenda α) (timer : Timer) : Agenda α :=
  match timer.occasion with
  | .look => agenda.wake timer.job
  | .toolEnds position run =>
    agenda.deliver timer.job position (.runTool run.call) fun machine => machine.finish run

/-- The next thing that happens, if there is one: a job goes on, a question about files is answered,
or time passes. -/
def step? (terms : Terms α) (agenda : Agenda α) : Option (Agenda α) :=
  match agenda.ready, agenda.files, agenda.timers with
  | job :: ready, _, _ => some ({ agenda with ready }.look terms job)
  | [], (job, position, question) :: files, _ =>
    some ({ agenda with files }.deliver job position question fun machine =>
      machine.answer question)
  | [], [], first :: rest =>
    let (now, later) := (first :: rest).span (·.time ≤ first.time)
    let machine := { agenda.machine with now := max agenda.machine.now first.time }
    some (now.foldl fire { agenda with machine, timers := later })
  | [], [], [] => none

/-- Everything that happens, at most so many things. -/
def run (terms : Terms α) : (most : Nat) → Agenda α → Agenda α
  | 0, agenda => agenda
  | most + 1, agenda =>
    match agenda.step? terms with
    | some next => run terms most next
    | none => agenda

/-- The agenda of jobs that come to a machine. -/
def ofArrivals (machine : Machine) (slots : Slots Nat) (arrivals : List (Arrival α)) : Agenda α :=
  { machine, slots, phases := arrivals.map .coming, ready := List.range arrivals.length }

/-- The results of the jobs that are over. -/
def results (agenda : Agenda α) : List (Option α) :=
  agenda.phases.map fun
    | .over result => some result
    | _ => none

/-- Whether a job has crashed. -/
def crashed (agenda : Agenda α) : Bool :=
  agenda.phases.any fun
    | .crashed => true
    | _ => false

end Agenda

namespace Machine

variable {α : Type}

/-- What a machine comes to with a single flow. -/
def perform (machine : Machine) (tools : Tools) (flow : Flow α) : Agenda α :=
  Agenda.run { tools } Agenda.patience (Agenda.ofArrivals machine { available := 1 } [{ flow }])

/-- The result of a single flow on a machine. -/
def run (machine : Machine) (tools : Tools) (flow : Flow α) : Machine × Option α :=
  let agenda := machine.perform tools flow
  (agenda.machine, agenda.results.head?.join)

end Machine

end AsmInspect

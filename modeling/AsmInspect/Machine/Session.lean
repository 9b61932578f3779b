import AsmInspect.Driver
import AsmInspect.Machine.Agenda

/-!
# Sessions

A driver at work on a machine.

## Main definitions

* `Session`, `Session.ofDriver`: a driver, its slots and the machine it works on
* `Session.compile`: requests answered at the same time
* `Session.health`: a health check, which goes through the slots like an urgent job
-/

namespace AsmInspect

/-- A driver at work on a machine. -/
structure Session where
  driver : Driver
  tools : Tools
  machine : Machine
  slots : Slots Nat

namespace Session

/-- A driver that begins to work on a machine. -/
def ofDriver (driver : Driver) (tools : Tools) (machine : Machine) : Session :=
  { driver, tools, machine
    slots := { available := driver.config.limits.maxConcurrentJobs.toNat } }

/-- The failure of a job that works too long. -/
def overdue (session : Session) : Failure := .cancelled session.driver.config.limits.jobTimeoutMs

/-- The results of jobs that come to the machine at the same time. If one of them crashes, so does
everything, and there are none. -/
def runAll {α : Type} (session : Session) (jobs : List (Priority × Work α)) :
    Session × Option (List (Except Failure α)) :=
  let failure : Except Failure α := .error session.overdue
  let limitMs := session.driver.config.limits.jobTimeoutMs.toNat
  let arrivals : List (Arrival (Except Failure α)) := jobs.map fun (priority, work) =>
    { due := session.machine.now, priority, flow := work.run }
  let agenda := Agenda.run { tools := session.tools, limit := some (limitMs, failure) }
    Agenda.patience (Agenda.ofArrivals session.machine session.slots arrivals)
  ({ session with machine := agenda.machine, slots := agenda.slots },
    if agenda.crashed then none else some (agenda.results.map (·.getD failure)))

/-- The results of jobs put in their places among the requests; a request without a job has failed. -/
def fillIn {α β : Type} : List (Except Failure β) → List (Except Failure α) →
    List (Except Failure α)
  | [], _ => []
  | .error failure :: found, results => .error failure :: fillIn found results
  | .ok _ :: found, result :: results => result :: fillIn found results
  | .ok _ :: _, [] => []

/-- The answers to requests that come at the same time. Those to unknown compilers fail without a
job. -/
def compile (session : Session) (requests : List BuildRequest) :
    Session × Option (List (Except Failure CompilationResult)) :=
  let found := requests.map fun request => session.driver.registry.find request.compilerId
  let jobs := (found.zip requests).filterMap fun
    | (.ok toolchain, request) => some (Driver.priority request, toolchain.compileJob request)
    | _ => none
  let (session, results) := session.runAll jobs
  (session, results.map (fillIn found))

/-- How the driver is. -/
def health (session : Session) : Session × Except Failure HealthReport :=
  let (session, _) := session.runAll [(.high, (pure () : Work Unit))]
  let (machine, report) :=
    session.machine.run session.tools (session.driver.health session.slots.available).run
  ({ session with machine }, report.getD (.error session.overdue))

end Session

end AsmInspect

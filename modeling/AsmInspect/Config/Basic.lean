import AsmInspect.Compiler
import AsmInspect.Failure

/-!
# Configuration

The limits that jobs run under, where they run, and the compilers they can use.

## Main definitions

* `Limits`, `Sandbox`, `Config`: the parts of a configuration
* `Config.validate`: the first contradiction of a configuration, if there is one
-/

namespace AsmInspect

/-- The limits that jobs run under. -/
structure Limits where
  /-- The most bytes kept of a disassembler's output. -/
  maxAsmSize : UInt64 := 67108864
  /-- The most bytes kept of a compiler's output. -/
  maxOutput : UInt64 := 1048576
  /-- The time limit of one tool run. -/
  execTimeoutMs : UInt64 := 20000
  /-- The time limit of a job. -/
  jobTimeoutMs : UInt64 := 60000
  maxConcurrentJobs : UInt64 := 2
  /-- The most device artifacts worked on at a time within one job. -/
  maxDeviceTasks : UInt64 := 4
  deriving DecidableEq, Repr, Inhabited

/-- Where jobs run. -/
structure Sandbox where
  /-- The directory that holds the directories of the jobs. -/
  root : String := "/tmp"
  /-- What is shown in place of the root. -/
  maskRoot : Option String := none
  deriving DecidableEq, Repr, Inhabited

/-- A configuration. -/
structure Config where
  limits : Limits := {}
  sandbox : Sandbox := {}
  compilers : List Compiler := []
  /-- The file that a health check serves. -/
  healthFile : Option String := none
  deriving DecidableEq, Inhabited

namespace Limits

/-- The limits by name. -/
def named (limits : Limits) : List (String × UInt64) :=
  [("max_asm_size", limits.maxAsmSize), ("max_output", limits.maxOutput),
    ("exec_timeout_ms", limits.execTimeoutMs), ("job_timeout_ms", limits.jobTimeoutMs),
    ("max_concurrent_jobs", limits.maxConcurrentJobs),
    ("max_device_tasks", limits.maxDeviceTasks)]

end Limits

/-- The first contradiction among compiler ids, where `seen` holds those before. -/
def Config.idError? (seen : List String) : List Compiler → Option ConfigError
  | [] => none
  | compiler :: rest =>
    if compiler.id.isEmpty then some (.invalid "compiler with empty id")
    else if seen.contains compiler.id then
      some (.invalid s!"duplicate compiler id '{compiler.id}'")
    else idError? (compiler.id :: seen) rest

/-- The first contradiction of a configuration: a limit of zero, or a compiler without an id of its
own. -/
def Config.validate (config : Config) : Except ConfigError Unit :=
  match config.limits.named.find? (·.2 == 0) with
  | some (name, _) => .error (.invalid s!"limits.{name} must be positive")
  | none =>
    match Config.idError? [] config.compilers with
    | some error => .error error
    | none => .ok ()

end AsmInspect

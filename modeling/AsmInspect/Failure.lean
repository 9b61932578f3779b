/-!
# Failures

What can go wrong in a job apart from a compiler that rejects its input. Every failure knows the
stage of the job it happened in, and its message starts with that stage.

## Main definitions

* `Stage`: the stages of a job
* `FileError`: why a file could not be used or a tool not be started
* `Failure`, `Failure.stage`, `Failure.message`: the failures of a job
* `ConfigError`, `ConfigError.toFailure`: the failures of a configuration
-/

namespace AsmInspect

/-- The stages of a job. -/
inductive Stage where
  | primaryCompile
  | disassembly
  | classification
  | externalParser
  | optimizationReport
  | configuration
  | scheduling
  deriving DecidableEq, Repr, Inhabited

namespace Stage

/-- All stages. -/
def all : List Stage :=
  [primaryCompile, disassembly, classification, externalParser, optimizationReport,
    configuration, scheduling]

/-- The name that messages use. -/
def name : Stage → String
  | primaryCompile => "primary compile"
  | disassembly => "disassembly"
  | classification => "device classification"
  | externalParser => "external parser"
  | optimizationReport => "optimization report"
  | configuration => "configuration"
  | scheduling => "scheduling"

/-- The stage of a name. -/
def ofName? (name : String) : Option Stage := all.find? (·.name == name)

end Stage

/-- Why a file could not be used or a tool not be started. -/
inductive FileError where
  | notFound
  | permissionDenied
  | alreadyExists
  | notDirectory
  | isDirectory
  | directoryNotEmpty
  | notExecutable
  | invalidUtf8
  /-- Any other reason, in the words of the system. -/
  | other (text : String)
  deriving DecidableEq, Repr, Inhabited

/-- The words of the system for an error. -/
def FileError.message : FileError → String
  | notFound => "No such file or directory (os error 2)"
  | notExecutable => "Exec format error (os error 8)"
  | permissionDenied => "Permission denied (os error 13)"
  | alreadyExists => "File exists (os error 17)"
  | notDirectory => "Not a directory (os error 20)"
  | isDirectory => "Is a directory (os error 21)"
  | directoryNotEmpty => "Directory not empty (os error 39)"
  | invalidUtf8 => "stream did not contain valid UTF-8"
  | other text => text

/-- The failures of a job. -/
inductive Failure where
  /-- A tool could not be started. -/
  | spawn (stage : Stage) (tool : String) (cause : FileError)
  /-- A file could not be used. -/
  | file (stage : Stage) (path : String) (cause : FileError)
  /-- The external parser printed something else than one JSON object. -/
  | protocol (tool : String) (reason : String)
  /-- A tool outlived its time limit. -/
  | timeout (stage : Stage) (tool : String) (limitMs : UInt64)
  /-- A task ended before its time. -/
  | taskAborted (stage : Stage) (reason : String)
  /-- The job outlived its time limit. -/
  | cancelled (limitMs : UInt64)
  /-- The configuration does not allow what was asked for. -/
  | config (reason : String)
  | unknownCompiler (id : String)
  deriving DecidableEq, Repr, Inhabited

namespace Failure

/-- The stage that a failure belongs to. -/
def stage : Failure → Stage
  | spawn stage .. | file stage .. | timeout stage .. | taskAborted stage _ => stage
  | protocol .. => .externalParser
  | cancelled _ => .scheduling
  | config _ | unknownCompiler _ => .configuration

/-- The message of a failure. -/
def message : Failure → String
  | spawn stage tool cause => s!"{stage.name}: failed to run {tool}: {cause.message}"
  | file stage path cause => s!"{stage.name}: I/O error on {path}: {cause.message}"
  | protocol tool reason => s!"external parser: {tool} violated the output protocol: {reason}"
  | timeout stage tool limitMs => s!"{stage.name}: {tool} exceeded {limitMs}ms"
  | taskAborted stage reason => s!"{stage.name}: {reason}"
  | cancelled limitMs => s!"scheduling: job cancelled after {limitMs}ms"
  | config reason => s!"configuration: {reason}"
  | unknownCompiler id => s!"configuration: unknown compiler '{id}'"

end Failure

/-- The failures of a configuration. -/
inductive ConfigError where
  /-- The configuration file could not be read. -/
  | read (path : String) (cause : FileError)
  /-- The text of the configuration is malformed. -/
  | parse
  /-- A variable that overrides a limit holds no number. -/
  | invalidEnv (key value : String)
  /-- The configuration contradicts itself. -/
  | invalid (reason : String)
  deriving DecidableEq, Repr, Inhabited

/-- The message of a configuration's failure. -/
def ConfigError.message : ConfigError → String
  | read path cause => s!"failed to read {path}: {cause.message}"
  | parse => "failed to parse configuration"
  | invalidEnv key value => s!"invalid value for {key}: {value}"
  | invalid reason => s!"invalid configuration: {reason}"

/-- The failure that a configuration's failure is to a job. -/
def ConfigError.toFailure (error : ConfigError) : Failure := .config error.message

end AsmInspect

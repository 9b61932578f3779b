import AsmInspect.CompileJob
import AsmInspect.Slots

/-!
# The driver

The driver answers requests with the toolchains of one configuration, and it can say how it is.

## Main definitions

* `Driver`, `Driver.ofConfig`: the toolchains of a configuration without contradictions
* `HealthReport`, `Driver.health`: how the driver is
-/

namespace AsmInspect

/-- The toolchains of a configuration without contradictions. -/
structure Driver where
  config : Config
  registry : Registry

/-- How a driver is. -/
structure HealthReport where
  compilers : Nat
  availableSlots : Nat
  /-- The configured paths at which there is nothing. -/
  missingTools : List String
  message : String
  deriving DecidableEq, Repr

namespace Driver

/-- The driver of a configuration. -/
def ofConfig (config : Config) : Except Failure Driver := do
  match config.validate with
  | .error error => throw error.toFailure
  | .ok () => return { config, registry := ← Registry.ofConfig config }

/-- How urgent a request is. -/
def priority (request : BuildRequest) : Priority :=
  if request.highPriority then .high else .normal

/-- What is said when all is well. -/
def healthyText : String := "Everything is awesome"

/-- The paths of a compiler's tools. -/
def toolPaths (compiler : Compiler) : List String :=
  compiler.exe :: [compiler.objdumper, compiler.deviceDisassembler, compiler.externalParser,
    compiler.demangler].filterMap id

/-- The paths at which there is nothing. -/
def missing : List String → Work (List String)
  | [] => pure []
  | path :: rest => do
    let there ← Work.query (.fileExists path)
    let others ← missing rest
    return if there then others else path :: others

/-- The message of a driver: the content of the file for it, which must not be empty. -/
def healthMessage (config : Config) : Work String :=
  match config.healthFile with
  | none => pure healthyText
  | some path => do
    let content ← Work.readText .configuration path
    if content.isEmpty then throw (.config s!"health file {path} is empty")
    return content

/-- How the driver is; one without compilers is not well. -/
def health (driver : Driver) (availableSlots : Nat) : Work HealthReport := do
  let compilers := driver.registry.compilers none
  if compilers.isEmpty then throw (.config "no compilers configured")
  let missingTools ← missing (compilers.flatMap toolPaths)
  let message ← healthMessage driver.config
  return { compilers := compilers.length, availableSlots, missingTools, message }

end Driver

end AsmInspect

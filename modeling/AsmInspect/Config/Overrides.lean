import AsmInspect.Config.Basic
import AsmInspect.Text.Basic

/-!
# Overrides of a configuration

Variables of the environment override single values of a configuration. They are looked at in a
fixed order; the first that holds no number ends the matter, and what was set before it stays.

## Main definitions

* `Config.overrideLimits`, `Config.override`: a configuration under an environment
-/

namespace AsmInspect.Config

/-- The variables that set a limit, with how they set it. -/
def limitVariables : List (String × (Limits → UInt64 → Limits)) :=
  [("ASMVIEW_MAX_ASM_SIZE", fun l n => { l with maxAsmSize := n }),
    ("ASMVIEW_MAX_OUTPUT", fun l n => { l with maxOutput := n }),
    ("ASMVIEW_EXEC_TIMEOUT_MS", fun l n => { l with execTimeoutMs := n }),
    ("ASMVIEW_JOB_TIMEOUT_MS", fun l n => { l with jobTimeoutMs := n }),
    ("ASMVIEW_MAX_CONCURRENT_JOBS", fun l n => { l with maxConcurrentJobs := n }),
    ("ASMVIEW_MAX_DEVICE_TASKS", fun l n => { l with maxDeviceTasks := n })]

/-- The limits under an environment, and the error of the first variable that holds no number. -/
def overrideLimits (env : Dict String) (limits : Limits) :
    List (String × (Limits → UInt64 → Limits)) → Limits × Option ConfigError
  | [] => (limits, none)
  | (key, set) :: rest =>
    match env.get? key with
    | none => overrideLimits env limits rest
    | some value =>
      match Text.unsigned? maxWord64 (Text.trim value.toList) with
      | none => (limits, some (.invalidEnv key value))
      | some n => overrideLimits env (set limits n.toUInt64) rest

/-- The configuration under an environment, and the error of the first variable that holds no
number. -/
def override (config : Config) (env : Dict String) : Config × Option ConfigError :=
  match overrideLimits env config.limits limitVariables with
  | (limits, some error) => ({ config with limits }, some error)
  | (limits, none) =>
    ({ config with
        limits
        sandbox :=
          { root := (env.get? "ASMVIEW_SANDBOX_ROOT").getD config.sandbox.root
            maskRoot := (env.get? "ASMVIEW_MASK_ROOT").or config.sandbox.maskRoot }
        healthFile := (env.get? "ASMVIEW_HEALTH_FILE").or config.healthFile }, none)

/-- The variables that override something. -/
def variableNames : List String :=
  limitVariables.map (·.1) ++ ["ASMVIEW_SANDBOX_ROOT", "ASMVIEW_MASK_ROOT", "ASMVIEW_HEALTH_FILE"]

end AsmInspect.Config

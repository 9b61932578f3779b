import AsmInspect.CommandLine.Arguments
import AsmInspect.Config.Reader
import AsmInspect.Json.Printer
import AsmInspect.Machine.Session
import AsmInspect.Wire.Result

/-!
# Running a command line

A command is run on a machine with the configuration that the command line names. What it prints and
the code it ends with are its whole effect.

## Main definitions

* `Ending`: what a command prints, and its code
* `CommandLine.run`: a command run on a machine
* `CommandLine.runArguments`: the arguments of a command line run on a machine
-/

namespace AsmInspect

/-- What a command prints, and the code it ends with. -/
structure Ending where
  code : UInt32 := 0
  stdout : String := ""
  stderr : String := ""
  deriving DecidableEq, Repr, Inhabited

namespace CommandLine

/-- The name and the version of the program. -/
def versionText : String := "asmview 0.1.0\n"

/-- How the program is used. -/
def usageText : String :=
  "Usage: asmview [OPTIONS] <COMMAND>\n\nCommands:\n" ++
    "  compile  Compile a source file and print the result as JSON\n" ++
    "  list     List configured compilers\n" ++
    "  health   Check the scheduler and configured tool paths\n"

/-- The end of a command that failed. -/
def failed (message : String) : Ending := { code := 1, stderr := s!"Error: {message}\n" }

/-- The end of a command that crashed. -/
def crash : Ending := { code := 101, stderr := Flow.crashText ++ "\n" }

/-- A text with blanks up to a width. -/
def padTo (width : Nat) (text : String) : String :=
  text ++ String.ofList (List.replicate (width - text.length) ' ')

/-- The line of a compiler in the list of all. -/
def compilerLine (compiler : Compiler) : String :=
  padTo 20 compiler.id ++ " " ++ padTo 10 compiler.instructionSet ++ " " ++
    compiler.displayName ++ "\n"

/-- What is printed of a health check. -/
def healthText (report : HealthReport) : String :=
  s!"{report.compilers} compilers, {report.availableSlots} free slots\n" ++
    String.join (report.missingTools.map fun path => s!"missing: {path}\n") ++
    report.message ++ "\n"

/-- The code that a process ends with for the code of a compiler: a byte. -/
def exitCode (code : Int32) : UInt32 := (code.toInt % 256).toNat.toUInt32

/-- The request that the options of a compilation make of a source. -/
def request (options : CompileOptions) (source : String) : BuildRequest :=
  { compilerId := options.compiler, source, userOptions := options.options
    filters := Filters.ofNames options.filters
    dialect := if options.intel then .intel else .att
    highPriority := options.highPriority }

/-- A compilation. -/
def compile (session : Session) (options : CompileOptions) : Ending :=
  match session.machine.files.readText session.machine.cwd options.source with
  | .error cause => failed cause.message
  | .ok source =>
    match (session.compile [request options source]).2 with
    | none => crash
    | some [.ok result] =>
      { code := exitCode result.code, stdout := result.toJson.pretty ++ "\n" }
    | some [.error failure] => failed failure.message
    | some _ => {}

/-- A command of a driver. -/
def runCommand (session : Session) : Command → Ending
  | .compile options => compile session options
  | .list instructionSet =>
    { stdout := String.join
        ((session.driver.registry.compilers instructionSet).map compilerLine) }
  | .health =>
    match session.health.2 with
    | .ok report => { stdout := healthText report }
    | .error failure => failed failure.message

/-- A command run on a machine with some variables. -/
def run (line : CommandLine) (machine : Machine) (tools : Tools) (env : Dict String) : Ending :=
  match Config.ofFile line.config (machine.files.readText machine.cwd line.config) env with
  | .error error => failed error.message
  | .ok config =>
    match Driver.ofConfig config with
    | .error failure => failed failure.message
    | .ok driver => runCommand (Session.ofDriver driver tools machine) line.command

/-- The paths of the files that a command line is about, once the text of its configuration is
known. -/
def paths (line : CommandLine) (configText : String) : List String :=
  let tools : List String := match Config.ofToml? configText with
    | .ok config => config.compilers.flatMap Driver.toolPaths ++ config.healthFile.toList
    | .error _ => []
  let sources : List String := match line.command with
    | .compile options => [options.source]
    | _ => []
  line.config :: sources ++ tools

/-- The code of a command line that is not understood. -/
def misuseCode : UInt32 := 2

/-- The arguments of a command line run on a machine with some variables. -/
def runArguments (args : List String) (machine : Machine) (tools : Tools) (env : Dict String) :
    Ending :=
  match ofArguments args with
  | .ok line => line.run machine tools env
  | .error .asksForVersion => { stdout := versionText }
  | .error .asksForHelp => { stdout := usageText }
  | .error .misused => { code := misuseCode, stderr := usageText }

end CommandLine

end AsmInspect

import AsmInspect.Toolchain.DeviceListings

/-!
# Compile jobs

A compile job saves the source of a request in a directory of its own, runs the compiler there and
collects what it left. A compiler that rejects the source ends the job with a result like any other.

## Main definitions

* `Toolchain.commandLine`: the arguments that the compiler is run with
* `Toolchain.compile`: the job
* `Toolchain.compileJob`: the job with its last state
-/

namespace AsmInspect.Toolchain

/-- The name of the compiler's output. -/
def outputFileName : String := "output.s"

/-- What is shown in place of the assembly when the compiler rejects the source. -/
def rejectedText : String := "<Compilation failed>"

/-- Where the compiler is asked to save its optimization record, if the user wants one. -/
def recordPath? (toolchain : Toolchain) (request : BuildRequest) (outputPath : String) :
    Option String :=
  if toolchain.compiler.supportsOptOutput && toolchain.compiler.wantsReport request.userOptions then
    some (Path.withExtension outputPath "opt.yaml")
  else none

/-- The arguments that the compiler is run with: the flags for the filters and for the record, the
user's options, and the source. -/
def commandLine (toolchain : Toolchain) (request : BuildRequest) (jobDir : String) : List String :=
  let outputPath := Path.join jobDir outputFileName
  toolchain.compiler.buildArguments request.filters outputPath ++
    ((toolchain.recordPath? request outputPath).map toolchain.compiler.reportArguments).getD [] ++
    request.userOptions ++ [Path.join jobDir toolchain.compiler.sourceFileName]

/-- The job goes into a state. -/
def enter (state : JobState) : Work Unit := Work.query (.enter state)

/-- What the user sees of a compiler run. -/
def shownRun (toolchain : Toolchain) (run : ToolResult) (args : List String) : CompilationResult :=
  { code := run.code
    stdout := toolchain.sandbox.maskText run.stdout
    stderr := toolchain.sandbox.maskText run.stderr
    compilationOptions := args.map toolchain.sandbox.maskPath }

/-- What the compiler left on the host's side and for devices, collected side by side. -/
def collect (toolchain : Toolchain) (compiled : Compiled) (request : BuildRequest) :
    Work (HostOutput × DeviceMap) := do
  let (host, devices) ← ExceptT.lift (Flow.pair
    (toolchain.hostOutput compiled request.filters request.dialect).run
    (if toolchain.compiler.supportsDeviceAsmView then
      toolchain.deviceListings compiled.run request.filters else pure {} : Work DeviceMap).run)
  let host ← Work.ofExcept host
  return (host, ← Work.ofExcept devices)

/-- The job of a request. -/
def compile (toolchain : Toolchain) (request : BuildRequest) : Work CompilationResult := do
  let started ← Work.query .clock
  let root := toolchain.sandbox.root
  let jobDir ← Work.orFail .primaryCompile root (← Work.query (.jobDirectory root))
  Work.writeText .primaryCompile (Path.join jobDir toolchain.compiler.sourceFileName) request.source
    false
  let args := toolchain.commandLine request jobDir
  enter .argsBuilt
  enter .executing
  let run ← Work.runTool toolchain.compiler.exe args
    { toolchain.options .primaryCompile toolchain.limits.maxOutput with cwd := some jobDir }
  let run := { run with dirPath := some (run.dirPath.getD (.text jobDir)) }
  let shown := toolchain.shownRun run args
  if !run.success then
    enter .compileFailed
    let finished ← Work.query .clock
    enter .done
    return { shown with
      asm := .text rejectedText
      timings := { compileMs := run.execTimeMs, totalMs := finished - started } }
  enter .succeeded
  enter .postProcessing
  let collecting ← Work.query .clock
  let outputPath := Path.join jobDir outputFileName
  let compiled : Compiled :=
    { run, outputPath, recordPath := toolchain.recordPath? request outputPath }
  let (host, devices) ← toolchain.collect compiled request
  let finished ← Work.query .clock
  enter .done
  return { shown with
    asm := host.asm
    optOutput := host.remarks
    devices
    timings :=
      { compileMs := run.execTimeMs, objdumpMs := host.objdumpTimeMs
        postProcessMs := finished - collecting, totalMs := finished - started } }

/-- The job of a request; one that cannot go on ends in the state of failure. -/
def compileJob (toolchain : Toolchain) (request : BuildRequest) : Work CompilationResult :=
  tryCatch (toolchain.compile request) fun failure => do
    enter .failed
    throw failure

end AsmInspect.Toolchain

import AsmInspect.Proofs.Flow.Yields
import AsmInspect.Proofs.Job.Course
import AsmInspect.Proofs.Toolchain.FanOut

/-!
# Where a job fails

A job fails at one of a few points: a file or a tool lets it down there, the parser says something
else than it should, or a tool that is needed is not configured. Each point belongs to one stage,
and the failure that a job ends with belongs to the stage of the point at which it failed. A tool
that fails reports so itself; that it does so in the name of the stage that it was run for is up to
the machine.

The remarks of the optimizer are no such point, though they are read from a file and have a stage of
their own: a record that cannot be read has no remarks.

## Main definitions

* `FaultPoint`, `FaultPoint.stage`: the points, and the stage of each
* `HostFault`, `ArtifactFault`, `Fault`: what happens at a point, and the failure it leads to

## Main results

* `exists_fault`: a job that fails does so at some point
* `Fault.stage_eq`: a failure belongs to the stage of the point it comes from
-/

namespace AsmInspect

open AsmInspect.Flow

/-- The points at which a request may fail. -/
inductive FaultPoint where
  | unknownCompiler
  | missingObjdumper
  | missingDeviceDisassembler
  | creatingJobDirectory
  | writingSource
  | runningCompiler
  | writingLauncher
  | runningLauncher
  | parserOutput
  | runningObjdumper
  | runningDeviceDisassembler
  | runningDemangler
  | readingHostOutput
  | listingJobDirectory
  | readingIntermediateCode
  | overrunningTimeLimit
  deriving DecidableEq, Repr

/-- The stage of a point. -/
def FaultPoint.stage : FaultPoint → Stage
  | unknownCompiler | missingObjdumper | missingDeviceDisassembler => .configuration
  | creatingJobDirectory | writingSource | runningCompiler => .primaryCompile
  | writingLauncher | runningLauncher | parserOutput => .externalParser
  | runningObjdumper | runningDeviceDisassembler | runningDemangler | readingHostOutput =>
    .disassembly
  | listingJobDirectory | readingIntermediateCode => .classification
  | overrunningTimeLimit => .scheduling

namespace Toolchain

variable (toolchain : Toolchain) (request : BuildRequest) (told : Telling)

/-! ### Faults -/

/-- What happens to the output of a compiler run, and the failure it leads to. -/
inductive HostFault (compiled : Compiled) : FaultPoint → Failure → Prop
  | writingLauncher (tools : ParserTools) (cause : FileError)
      (binary : request.filters.binary = true) (parser : toolchain.parser = some tools)
      (refused : told (.writeText (Path.join compiled.jobDir Launcher.fileName)
        (Launcher.script tools.objdumper tools.parser request.filters) true) (.error cause)) :
      HostFault compiled .writingLauncher
        (.file .externalParser (Path.join compiled.jobDir Launcher.fileName) cause)
  | runningLauncher (tools : ParserTools) (failure : Failure)
      (binary : request.filters.binary = true) (parser : toolchain.parser = some tools)
      (failed : told (.runTool (toolchain.launcherCall request compiled)) (.error failure)) :
      HostFault compiled .runningLauncher failure
  /-- The parser prints something else than one JSON object. -/
  | parserOutput (tools : ParserTools) (run : ToolResult) (reason : String)
      (binary : request.filters.binary = true) (parser : toolchain.parser = some tools)
      (printed : told (.runTool (toolchain.launcherCall request compiled)) (.ok run))
      (other : ∀ fields, Json.ofText? run.stdout ≠ some (.object fields)) :
      HostFault compiled .parserOutput (.protocol tools.parser reason)
  | missingObjdumper (binary : request.filters.binary = true) (parser : toolchain.parser = none)
      (missing : toolchain.compiler.objdumper = none) :
      HostFault compiled .missingObjdumper
        (.config s!"compiler '{toolchain.compiler.id}' has no objdumper configured")
  | runningObjdumper (tool : String) (failure : Failure) (binary : request.filters.binary = true)
      (parser : toolchain.parser = none) (objdumper : toolchain.compiler.objdumper = some tool)
      (failed : told (.runTool (toolchain.objdumpCall request tool compiled)) (.error failure)) :
      HostFault compiled .runningObjdumper failure
  /-- The output is there but cannot be read. -/
  | readingHostOutput (cause : FileError) (text : request.filters.binary = false)
      (refused : told (.readText compiled.outputPath) (.error cause)) (there : cause ≠ .notFound) :
      HostFault compiled .readingHostOutput (.file .disassembly compiled.outputPath cause)

/-- What happens to an artifact in a directory, and the failure it leads to. -/
inductive ArtifactFault (dir : String) (artifact : Artifact) : FaultPoint → Failure → Prop
  | readingIntermediateCode (cause : FileError) (kind : artifact.kind = .intermediateText)
      (refused : told (.readText (Path.join dir artifact.fileName)) (.error cause)) :
      ArtifactFault dir artifact .readingIntermediateCode
        (.file .classification (Path.join dir artifact.fileName) cause)
  | missingDeviceDisassembler (kind : artifact.kind = .binaryMachineCode)
      (missing : toolchain.compiler.deviceDisassembler = none) :
      ArtifactFault dir artifact .missingDeviceDisassembler
        (.config s!"compiler '{toolchain.compiler.id}' has no device disassembler configured")
  | runningDeviceDisassembler (tool : String) (failure : Failure)
      (kind : artifact.kind = .binaryMachineCode)
      (disassembler : toolchain.compiler.deviceDisassembler = some tool)
      (failed : told (.runTool (toolchain.deviceCall tool dir artifact)) (.error failure)) :
      ArtifactFault dir artifact .runningDeviceDisassembler failure
  | runningDemangler (tool text : String) (failure : Failure)
      (wanted : request.filters.demangle = true)
      (demangler : toolchain.compiler.demangler = some tool)
      (failed : told (.runTool (toolchain.demanglerCall tool text)) (.error failure)) :
      ArtifactFault dir artifact .runningDemangler failure

/-- The compiler accepts the source, and leaves this behind. -/
def Accepts (compiled : Compiled) : Prop :=
  ∃ jobDir run, told (.runTool (toolchain.primaryCall request jobDir)) (.ok run) ∧
    run.success = true ∧ compiled = toolchain.compiledIn request jobDir run

/-- Device listings are shown of what a compiler run left in a directory. -/
structure DeviceSide (compiled : Compiled) (dir : String) : Prop where
  view : toolchain.compiler.supportsDeviceAsmView = true
  kind : toolchain.compiler.kind = .nvcc
  inDir : compiled.run.dirPath.map SystemPath.shown = some dir

/-- **What happens to a job, and the failure it leads to.** -/
inductive Fault : FaultPoint → Failure → Prop
  | creatingJobDirectory (cause : FileError)
      (refused : told (.jobDirectory toolchain.sandbox.root) (.error cause)) :
      Fault .creatingJobDirectory (.file .primaryCompile toolchain.sandbox.root cause)
  | writingSource (jobDir : String) (cause : FileError)
      (made : told (.jobDirectory toolchain.sandbox.root) (.ok jobDir))
      (refused : told (.writeText (Path.join jobDir toolchain.compiler.sourceFileName)
        request.source false) (.error cause)) :
      Fault .writingSource
        (.file .primaryCompile (Path.join jobDir toolchain.compiler.sourceFileName) cause)
  | runningCompiler (jobDir : String) (failure : Failure)
      (made : told (.jobDirectory toolchain.sandbox.root) (.ok jobDir))
      (failed : told (.runTool (toolchain.primaryCall request jobDir)) (.error failure)) :
      Fault .runningCompiler failure
  | host {point : FaultPoint} {failure : Failure} (compiled : Compiled)
      (accepts : toolchain.Accepts request told compiled)
      (fault : toolchain.HostFault request told compiled point failure) : Fault point failure
  | listingJobDirectory (compiled : Compiled) (dir : String) (cause : FileError)
      (accepts : toolchain.Accepts request told compiled)
      (shown : toolchain.DeviceSide compiled dir) (refused : told (.listNames dir) (.error cause)) :
      Fault .listingJobDirectory (.file .classification dir cause)
  | artifact {point : FaultPoint} {failure : Failure} (compiled : Compiled) (dir : String)
      (names : List String) (artifact : Artifact)
      (accepts : toolchain.Accepts request told compiled)
      (shown : toolchain.DeviceSide compiled dir) (listed : told (.listNames dir) (.ok names))
      (found : artifact ∈ Artifact.ofNames names)
      (fault : toolchain.ArtifactFault request told dir artifact point failure) :
      Fault point failure

variable {toolchain request told} {failure : Failure}

/-! ### A job that fails does so at some point -/

/-- The parser fails if it prints something else than one JSON object. -/
theorem answer_error {tools : ParserTools} {run : ToolResult}
    (h : tools.answer run = .error failure) :
    ∃ reason, failure = .protocol tools.parser reason ∧
      ∀ fields, Json.ofText? run.stdout ≠ some (.object fields) := by
  unfold ParserTools.answer at h
  split at h
  case h_1 => cases h
  case h_2 value hother hvalue =>
    refine ⟨_, (Except.error.inj h).symm, fun fields he => ?_⟩
    rw [hvalue] at he
    exact hother fields (Option.some.inj he)
  case h_3 hnone =>
    refine ⟨_, (Except.error.inj h).symm, fun fields he => ?_⟩
    rw [hnone] at he
    cases he

theorem parseDump_fault {compiled : Compiled} {tools : ParserTools}
    (binary : request.filters.binary = true) (parser : toolchain.parser = some tools)
    (h : (toolchain.parseDump tools compiled.jobDir
      (Disassembler.objdumpArguments compiled.outputPath request.filters request.dialect)
      request.filters).run.Yields told (.error failure)) :
    ∃ point, toolchain.HostFault request told compiled point failure := by
  unfold parseDump at h
  rcases yields_work_bind_error.mp h with hwrite | ⟨_, -, h⟩
  · obtain ⟨cause, refused, rfl⟩ := yields_writeText_error.mp hwrite
    exact ⟨_, .writingLauncher tools cause binary parser refused⟩
  · rcases yields_work_bind_error.mp h with hrun | ⟨run, hrun, h⟩
    · exact ⟨_, .runningLauncher tools failure binary parser (yields_runTool.mp hrun)⟩
    · obtain ⟨reason, rfl, other⟩ := answer_error (yields_work_ofExcept.mp h).symm
      exact ⟨_, .parserOutput tools run reason binary parser (yields_runTool.mp hrun) other⟩

theorem disassemble_fault {compiled : Compiled} (binary : request.filters.binary = true)
    (h : (toolchain.disassemble compiled.outputPath compiled.jobDir request.filters
      request.dialect).run.Yields told (.error failure)) :
    ∃ point, toolchain.HostFault request told compiled point failure := by
  unfold disassemble at h
  simp only at h
  split at h
  case h_1 tools parser =>
    rcases yields_work_bind_error.mp h with hparse | ⟨_, -, h⟩
    · exact parseDump_fault binary parser hparse
    · cases yields_work_pure.mp h
  case h_2 parser =>
    split at h
    case h_1 missing =>
      obtain rfl := Except.error.inj (yields_work_throw.mp h)
      exact ⟨_, .missingObjdumper binary parser missing⟩
    case h_2 tool objdumper =>
      rcases yields_work_bind_error.mp h with hrun | ⟨_, -, h⟩
      · exact ⟨_, .runningObjdumper tool failure binary parser objdumper (yields_runTool.mp hrun)⟩
      · cases yields_work_pure.mp h

theorem writtenText_fault {path : String}
    (h : (writtenText path).run.Yields told (.error failure)) :
    ∃ cause, told (.readText path) (.error cause) ∧ cause ≠ .notFound ∧
      failure = .file .disassembly path cause := by
  obtain ⟨answer, refused, h⟩ := yields_query_bind.mp h
  split at h
  · cases yields_work_pure.mp h
  · cases yields_work_pure.mp h
  case h_3 cause there =>
    exact ⟨cause, refused, there, Except.error.inj (yields_work_throw.mp h)⟩

theorem hostAsm_fault {compiled : Compiled}
    (h : (toolchain.hostAsm compiled request.filters request.dialect).run.Yields told
      (.error failure)) :
    ∃ point, toolchain.HostFault request told compiled point failure := by
  unfold hostAsm at h
  split at h
  case isTrue binary => exact disassemble_fault binary h
  case isFalse text =>
    rcases yields_work_bind_error.mp h with hwritten | ⟨_, -, h⟩
    · obtain ⟨cause, refused, there, rfl⟩ := writtenText_fault hwritten
      exact ⟨_, .readingHostOutput cause (by simpa using text) refused there⟩
    · cases yields_work_pure.mp h

/-- **What fails on the host's side**: the remarks do not. -/
theorem hostBranch_fault {compiled : Compiled}
    (h : (toolchain.hostBranch request compiled).Yields told (.error failure)) :
    ∃ point, toolchain.HostFault request told compiled point failure := by
  unfold hostBranch hostOutput at h
  -- the pair of remarks and assembly comes to two outcomes, and is no failure itself
  rcases yields_work_bind_error.mp h with hpair | ⟨⟨remarks, asm⟩, hpair, h⟩
  · obtain ⟨_, -, he⟩ := yields_work_lift.mp hpair
    cases he
  · obtain ⟨_, ⟨_, _, -, hasm, rfl⟩, he⟩ := yields_work_lift.mp hpair
    cases he
    rcases yields_work_bind_error.mp h with hasm' | ⟨_, -, h⟩
    · obtain rfl := yields_work_ofExcept.mp hasm'
      exact hostAsm_fault hasm
    · cases yields_work_pure.mp h

theorem demangle_fault {dir : String} {artifact : Artifact} {listing : Listing} {filters : Filters}
    (hfilters : filters.demangle = request.filters.demangle)
    (h : (listing.demangle filters toolchain.compiler.demangler
      (toolchain.options .disassembly toolchain.limits.maxAsmSize)).run.Yields told
        (.error failure)) :
    toolchain.ArtifactFault request told dir artifact .runningDemangler failure := by
  unfold Listing.demangle at h
  simp only at h
  split at h
  case h_1 => cases yields_work_pure.mp h
  case h_2 tool demangler =>
    split at h
    case isTrue wanted =>
      rcases yields_work_bind_error.mp h with hrun | ⟨_, -, h⟩
      · refine .runningDemangler tool _ failure ?_ demangler (yields_runTool.mp hrun)
        rw [Bool.and_eq_true] at wanted
        rw [← hfilters, wanted.1]
      · cases yields_work_pure.mp h
    case isFalse => cases yields_work_pure.mp h

theorem artifactText_fault {dir : String} {artifact : Artifact}
    (h : (toolchain.artifactText dir artifact).run.Yields told (.error failure)) :
    ∃ point, toolchain.ArtifactFault request told dir artifact point failure := by
  unfold artifactText at h
  simp only at h
  split at h
  case h_1 kind =>
    rcases yields_work_bind_error.mp h with hread | ⟨_, -, h⟩
    · obtain ⟨cause, refused, rfl⟩ := yields_readText_error.mp hread
      exact ⟨_, .readingIntermediateCode cause kind refused⟩
    · cases yields_work_pure.mp h
  case h_2 kind =>
    unfold disassembleArtifact at h
    split at h
    case h_1 missing =>
      obtain rfl := Except.error.inj (yields_work_throw.mp h)
      exact ⟨_, .missingDeviceDisassembler kind missing⟩
    case h_2 tool disassembler =>
      rcases yields_work_bind_error.mp h with hrun | ⟨_, -, h⟩
      · exact ⟨_, .runningDeviceDisassembler tool failure kind disassembler
          (yields_runTool.mp hrun)⟩
      · cases yields_work_pure.mp h

/-- **What fails with an artifact.** -/
theorem keyedListing_fault {dir : String} {artifact : Artifact}
    (h : (toolchain.keyedListing dir request.filters artifact).run.Yields told (.error failure)) :
    ∃ point, toolchain.ArtifactFault request told dir artifact point failure := by
  rcases yields_work_bind_error.mp h with hlisting | ⟨_, -, h⟩
  · rcases yields_work_bind_error.mp hlisting with htext | ⟨_, -, hdemangle⟩
    · exact artifactText_fault htext
    · exact ⟨_, demangle_fault rfl hdemangle⟩
  · cases yields_work_pure.mp h

/-- **What fails on the device's side**: its directory cannot be listed, or an artifact fails. -/
theorem deviceBranch_error {compiled : Compiled}
    (h : (toolchain.deviceBranch request compiled).Yields told (.error failure)) :
    ∃ dir, toolchain.DeviceSide compiled dir ∧
      ((∃ cause, told (.listNames dir) (.error cause) ∧
          failure = .file .classification dir cause) ∨
        ∃ names artifact point, told (.listNames dir) (.ok names) ∧
          artifact ∈ Artifact.ofNames names ∧
          toolchain.ArtifactFault request told dir artifact point failure) := by
  unfold deviceBranch at h
  split at h
  case isFalse => cases yields_work_pure.mp h
  case isTrue view =>
    unfold deviceListings at h
    split at h
    case h_2 => cases yields_work_pure.mp h
    case h_1 dir kind inDir =>
      refine ⟨dir.shown, ⟨view, kind, congrArg (Option.map SystemPath.shown) inDir⟩, ?_⟩
      rw [directoryListings_run_eq] at h
      obtain ⟨answer, listed, h⟩ := h
      -- without names the listing itself has failed, and with names one of the artifacts has
      cases answer with
      | error cause => exact .inl ⟨cause, listed, Except.error.inj h⟩
      | ok names =>
        rcases h with ⟨values, entries, -, -, h⟩ | ⟨i, first, hmember, h⟩
        · cases h
        · obtain rfl := Except.error.inj h
          obtain ⟨point, fault⟩ := keyedListing_fault hmember
          exact .inr ⟨names, _, point, listed, List.get_mem _ i, fault⟩

theorem deviceBranch_fault {compiled : Compiled} (accepts : toolchain.Accepts request told compiled)
    (h : (toolchain.deviceBranch request compiled).Yields told (.error failure)) :
    ∃ point, toolchain.Fault request told point failure := by
  obtain ⟨dir, shown, ⟨cause, listed, rfl⟩ | ⟨names, artifact, point, listed, found, fault⟩⟩ :=
    deviceBranch_error h
  · exact ⟨_, .listingJobDirectory compiled dir cause accepts shown listed⟩
  · exact ⟨point, .artifact compiled dir names artifact accepts shown listed found fault⟩

theorem giveUp_fault {first : Failure}
    (h : (giveUp first : Flow (Except Failure CompilationResult)).Yields told (.error failure)) :
    failure = first := by
  obtain ⟨_, -, h⟩ := h
  exact Except.error.inj h

/-- **A job that fails does so at some point.** -/
theorem exists_fault (h : (toolchain.compileJob request).run.Yields told (.error failure)) :
    ∃ point, toolchain.Fault request told point failure := by
  rw [compileJob_run_eq] at h
  obtain ⟨started, -, directory, made, h⟩ := h
  cases directory with
  | error cause =>
    obtain rfl := giveUp_fault h
    exact ⟨_, .creatingJobDirectory cause made⟩
  | ok jobDir =>
    obtain ⟨written, hwritten, h⟩ := h
    cases written with
    | error cause =>
      obtain rfl := giveUp_fault h
      exact ⟨_, .writingSource jobDir cause made hwritten⟩
    | ok _ =>
      obtain ⟨_, -, _, -, answer, hanswer, h⟩ := h
      cases answer with
      | error first =>
        obtain rfl := giveUp_fault h
        exact ⟨_, .runningCompiler jobDir _ made hanswer⟩
      | ok run =>
        by_cases hsuccess : run.success = true
        case neg =>
          rw [answered_of_not_success _ _ hsuccess] at h
          obtain ⟨_, -, _, -, _, -, h⟩ := h
          cases h
        case pos =>
          rw [answered_of_success _ _ hsuccess] at h
          have accepts : toolchain.Accepts request told (toolchain.compiledIn request jobDir run) :=
            ⟨jobDir, run, hanswer, hsuccess, rfl⟩
          obtain ⟨_, -, _, -, _, -, host, devices, hhost, hdevices, h⟩ := h
          -- the job ends with the failure of a branch, if one has failed
          cases host with
          | error first =>
            obtain rfl := giveUp_fault h
            obtain ⟨point, fault⟩ := hostBranch_fault hhost
            exact ⟨point, .host _ accepts fault⟩
          | ok output =>
            cases devices with
            | error first =>
              obtain rfl := giveUp_fault h
              exact deviceBranch_fault accepts hdevices
            | ok listings =>
              obtain ⟨_, -, _, -, h⟩ := h
              cases h

/-! ### The stages of failures -/

/-- The tools that fail report so in the name of the stage that they are run for. -/
def ToldByStage (told : Telling) : Prop :=
  ∀ call failure, told (.runTool call) (.error failure) → failure.stage = call.options.stage

theorem HostFault.stage_eq (hrunner : ToldByStage told) {compiled : Compiled} {point : FaultPoint}
    (fault : toolchain.HostFault request told compiled point failure) :
    failure.stage = point.stage := by
  cases fault with
  | runningLauncher tools _ _ _ failed => exact hrunner _ _ failed
  | runningObjdumper tool _ _ _ _ failed => exact hrunner _ _ failed
  | _ => rfl

theorem ArtifactFault.stage_eq (hrunner : ToldByStage told) {dir : String} {artifact : Artifact}
    {point : FaultPoint} (fault : toolchain.ArtifactFault request told dir artifact point failure) :
    failure.stage = point.stage := by
  cases fault with
  | runningDeviceDisassembler tool _ _ _ failed => exact hrunner _ _ failed
  | runningDemangler tool text _ _ _ failed => exact hrunner _ _ failed
  | _ => rfl

/-- **A failure belongs to the stage of the point it comes from.** -/
theorem Fault.stage_eq (hrunner : ToldByStage told) {point : FaultPoint}
    (fault : toolchain.Fault request told point failure) : failure.stage = point.stage := by
  cases fault with
  | runningCompiler jobDir _ _ failed => exact hrunner _ _ failed
  | host compiled _ fault => exact fault.stage_eq hrunner
  | artifact compiled dir names artifact _ _ _ _ fault => exact fault.stage_eq hrunner
  | _ => rfl

end Toolchain

/-! ### Messages -/

/-- A message starts with the stage that its failure belongs to. -/
theorem Failure.message_eq (failure : Failure) :
    ∃ rest, failure.message = failure.stage.name ++ ": " ++ rest := by
  cases failure with
  | spawn stage tool cause =>
    refine ⟨"failed to run " ++ tool ++ ": " ++ cause.message, ?_⟩
    show stage.name ++ (": " ++ "failed to run ") ++ tool ++ ": " ++ cause.message = _
    simp only [Failure.stage, String.append_assoc]
  | file stage path cause =>
    refine ⟨"I/O error on " ++ path ++ ": " ++ cause.message, ?_⟩
    show stage.name ++ (": " ++ "I/O error on ") ++ path ++ ": " ++ cause.message = _
    simp only [Failure.stage, String.append_assoc]
  | protocol tool reason =>
    refine ⟨tool ++ " violated the output protocol: " ++ reason, ?_⟩
    show "external parser: " ++ tool ++ " violated the output protocol: " ++ reason = _
    simp only [String.append_assoc]
    rfl
  | timeout stage tool limitMs =>
    refine ⟨tool ++ " exceeded " ++ toString limitMs ++ "ms", ?_⟩
    show stage.name ++ ": " ++ tool ++ " exceeded " ++ toString limitMs ++ "ms" = _
    simp only [Failure.stage, String.append_assoc]
  | taskAborted stage reason => exact ⟨reason, rfl⟩
  | cancelled limitMs =>
    refine ⟨"job cancelled after " ++ toString limitMs ++ "ms", ?_⟩
    show ("scheduling: " ++ "job cancelled after ") ++ toString limitMs ++ "ms" = _
    simp only [String.append_assoc]
    rfl
  | config reason => exact ⟨reason, rfl⟩
  | unknownCompiler id =>
    refine ⟨"unknown compiler '" ++ id ++ "'", ?_⟩
    show ("configuration: " ++ "unknown compiler '") ++ id ++ "'" = _
    simp only [String.append_assoc]
    rfl

end AsmInspect

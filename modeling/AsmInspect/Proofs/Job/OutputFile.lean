import AsmInspect.Machine.FileTree
import AsmInspect.Proofs.Job.Results
import AsmInspect.Proofs.Toolchain.Isolation

/-!
# The compiler's output file

A compiler that is content has left a file. Whether the file holds text is decided by the flags that
it was called with, and whether it is read as text by the filters, and the two do not agree: a
program that is to be executed is linked, which no flag for text stands for, and the file is still
read as text unless the filters want a binary.

So a job fails with the output file exactly if the file is a program without being called binary,
and its bytes are no text.

## Main definitions

* `readBack`: what comes of reading some bytes as text
* `Compiler.SelectsText`: the flags of a compiler ask for text

## Main results

* `Toolchain.hostBranch_unreadable`: an output file that cannot be read
* `Toolchain.accepted_output_error`: a job that fails with the output file has read it as text
* `Driver.output_file_fails_iff`: when a request fails with the output file
-/

namespace AsmInspect

open AsmInspect.Flow

/-! ### Files with bytes -/

/-- What comes of reading a file with these bytes as text. -/
def readBack (bytes : List UInt8) : Except FileError String :=
  match Utf8.decode? bytes with
  | some text => .ok (String.ofList text)
  | none => .error .invalidUtf8

/-- Files are read so. -/
theorem FileTree.readText_eq_readBack {tree : FileTree} {cwd path : String} {bytes : List UInt8}
    (h : tree.read cwd path = .ok bytes) : tree.readText cwd path = readBack bytes := by
  unfold readText readBack
  rw [h]
  rfl

theorem readBack_eq_error {bytes : List UInt8} {cause : FileError}
    (h : readBack bytes = .error cause) : Utf8.decode? bytes = none ∧ cause = .invalidUtf8 := by
  unfold readBack at h
  split at h
  case h_1 => cases h
  case h_2 hnone => exact ⟨hnone, (Except.error.inj h).symm⟩

theorem readBack_of_invalid {bytes : List UInt8} (h : Utf8.decode? bytes = none) :
    readBack bytes = .error .invalidUtf8 := by
  unfold readBack
  rw [h]

/-! ### Flags for text -/

/-- The flags that a compiler is called with ask for text. -/
def Compiler.SelectsText (compiler : Compiler) (filters : Filters) (outputPath : String) : Prop :=
  match compiler.kind with
  | .generic => "-S" ∈ compiler.buildArguments filters outputPath
  | .nvcc => "-Xcompiler=-S" ∈ compiler.buildArguments filters outputPath

theorem Compiler.selectsText_of_not_execute {compiler : Compiler} {filters : Filters}
    (hexecute : filters.execute = false) (hbinary : filters.binary = false) (outputPath : String) :
    compiler.SelectsText filters outputPath := by
  unfold SelectsText buildArguments
  cases compiler.kind <;> simp [hexecute, hbinary]

namespace Toolchain

variable {toolchain : Toolchain} {request : BuildRequest} {told : Telling} {compiled : Compiled}

/-- No tool reports that a file let it down. -/
def ToolsOwnFailures (told : Telling) : Prop :=
  ∀ call stage path cause, ¬ told (.runTool call) (.error (.file stage path cause))

/-! ### The host's side -/

/-- **An output file that cannot be read** is what the host's side comes to, if it is text. -/
theorem hostBranch_unreadable (hbinary : request.filters.binary = false) {cause : FileError}
    (hthere : cause ≠ .notFound)
    (hread : ∀ answer, told (.readText compiled.outputPath) answer → answer = .error cause)
    {host : Except Failure HostOutput}
    (h : (toolchain.hostBranch request compiled).Yields told host) :
    host = .error (.file .disassembly compiled.outputPath cause) := by
  unfold hostBranch hostOutput at h
  rw [run_bind_eq, yields_bind] at h
  obtain ⟨pair, hpair, h⟩ := h
  obtain ⟨_, ⟨remarks, asm, -, hasm, rfl⟩, rfl⟩ := yields_work_lift.mp hpair
  -- the assembly is the text of the file, which is not to be had
  have hfailed : asm = .error (.file .disassembly compiled.outputPath cause) := by
    unfold hostAsm at hasm
    rw [if_neg (by simp [hbinary]), run_bind_eq, yields_bind] at hasm
    obtain ⟨written, hwritten, hasm⟩ := hasm
    obtain ⟨answer, htold, hwritten⟩ := yields_query_bind.mp hwritten
    obtain rfl := hread answer htold
    split at hwritten
    case h_1 he => cases he
    case h_2 he => exact absurd (Except.error.inj he) hthere
    case h_3 he =>
      obtain rfl := Except.error.inj he
      obtain rfl := yields_work_throw.mp hwritten
      exact hasm
  obtain rfl := hfailed
  exact h

/-- A failure of the host's side with the output file comes from reading it. -/
theorem hostBranch_output_error (htools : ToolsOwnFailures told) {jobDir : String} {stage : Stage}
    {cause : FileError}
    (h : (toolchain.hostBranch request compiled).Yields told
      (.error (.file stage (Path.join jobDir outputFileName) cause))) :
    stage = .disassembly ∧ request.filters.binary = false ∧
      told (.readText compiled.outputPath) (.error cause) := by
  obtain ⟨point, fault⟩ := hostBranch_fault h
  generalize hfailure : Failure.file stage (Path.join jobDir outputFileName) cause = failure
    at fault
  cases fault with
  | writingLauncher tools other _ _ _ =>
    -- the launcher is another file
    obtain ⟨-, hpath, -⟩ := Failure.file.inj hfailure
    exact absurd hpath (Path.join_ne_join (c := 's') (d := 'h') (by decide) (by decide) (by decide))
  | runningLauncher tools failure _ _ failed =>
    subst hfailure
    exact absurd failed (htools _ _ _ _)
  | parserOutput => cases hfailure
  | missingObjdumper => cases hfailure
  | runningObjdumper tool failure _ _ _ failed =>
    subst hfailure
    exact absurd failed (htools _ _ _ _)
  | readingHostOutput other text refused there =>
    obtain ⟨rfl, -, rfl⟩ := Failure.file.inj hfailure
    exact ⟨rfl, text, refused⟩

/-! ### The device's side -/

/-- The device's side does not fail with the output file. -/
theorem deviceBranch_no_output_error (htools : ToolsOwnFailures told) {jobDir : String}
    {stage : Stage} {cause : FileError} (hdir : compiled.run.dirPath = some (.text jobDir)) :
    ¬ (toolchain.deviceBranch request compiled).Yields told
      (.error (.file stage (Path.join jobDir outputFileName) cause)) := by
  intro h
  obtain ⟨dir, shown, ⟨other, -, hfailure⟩ | ⟨names, artifact, point, -, found, fault⟩⟩ :=
    deviceBranch_error h
  · -- the directory is not the file in it
    obtain ⟨-, hpath, -⟩ := Failure.file.inj hfailure
    obtain rfl : jobDir = dir := by simpa [hdir, SystemPath.shown] using shown.inDir
    exact Path.join_ne_left (by decide) (by decide) hpath
  · generalize hfailure : Failure.file stage (Path.join jobDir outputFileName) cause = failure
      at fault
    cases fault with
    | readingIntermediateCode other _ _ =>
      obtain ⟨-, hpath, -⟩ := Failure.file.inj hfailure
      obtain ⟨name, -, hname⟩ := Artifact.mem_ofNames.mp found
      rcases Artifact.getLast?_fileName hname with hlast | hlast
      · exact Path.join_ne_join (c := 's') (by decide) hlast (by decide) hpath
      · exact Path.join_ne_join (c := 's') (by decide) hlast (by decide) hpath
    | missingDeviceDisassembler => cases hfailure
    | runningDeviceDisassembler tool failure _ _ failed =>
      subst hfailure
      exact htools _ _ _ _ failed
    | runningDemangler tool text failure _ _ failed =>
      subst hfailure
      exact htools _ _ _ _ failed

/-! ### The job -/

section Accepted

variable {events : List Event} {result : Except Failure CompilationResult} {started : UInt64}
  {jobDir : String} {run : ToolResult}

/-- **A job that fails with the output file** has tried to read it as text. -/
theorem accepted_output_error (htools : ToolsOwnFailures (Told events))
    (hdir : run.dirPath = none ∨ run.dirPath = some (.text jobDir)) {stage : Stage}
    {cause : FileError}
    (hrun : Run (toolchain.accepted request started jobDir run) events
      (.done (.error (.file stage (Path.join jobDir outputFileName) cause)))) :
    stage = .disassembly ∧ request.filters.binary = false ∧
      Told events (.readText (Path.join jobDir outputFileName)) (.error cause) := by
  have hin : (toolchain.compiledIn request jobDir run).run.dirPath = some (.text jobDir) := by
    rcases hdir with hdir | hdir <;> simp [compiledIn, hdir]
  obtain ⟨host, devices, hhost, hdevices, ⟨failure, hjoined, he⟩ | ⟨_, _, _, _, -, -, he⟩⟩ :=
    branches_of_accepted hrun
  · obtain rfl := Except.error.inj he
    cases host with
    | error first =>
      obtain rfl := Except.error.inj hjoined
      exact hostBranch_output_error htools hhost
    | ok output =>
      cases devices with
      | error second =>
        obtain rfl := Except.error.inj hjoined
        exact absurd hdevices (deviceBranch_no_output_error htools hin)
      | ok listings => cases hjoined
  · cases he

/-- A job fails with the output file if it reads it as text and cannot. -/
theorem accepted_unreadable (hbinary : request.filters.binary = false) {cause : FileError}
    (hthere : cause ≠ .notFound)
    (hread : ∀ answer, Told events (.readText (Path.join jobDir outputFileName)) answer →
      answer = .error cause)
    (hrun : Run (toolchain.accepted request started jobDir run) events (.done result)) :
    result = .error (.file .disassembly (Path.join jobDir outputFileName) cause) := by
  obtain ⟨host, devices, hhost, -, hend⟩ := branches_of_accepted hrun
  obtain rfl := hostBranch_unreadable hbinary hthere hread hhost
  rcases hend with ⟨failure, hjoined, rfl⟩ | ⟨_, _, _, _, he, -⟩
  · rw [← Except.error.inj hjoined]
    rfl
  · cases he

end Accepted

end Toolchain

namespace Driver

/-! ### A linked program -/

/-- A request to link a program. -/
def programRequest : BuildRequest := { compilerId := "gcc", filters := { execute := true } }

/-- The first bytes of a program. -/
def programBytes : List UInt8 := [0x7F, 0x45, 0x4C, 0x46, 0x80, 0xFF]

/-- What happens to a job whose compiler has linked a program. -/
def programEvents : List Event :=
  hostToolchain.opening programRequest 0 "/srv/jobs/1" (.ok {}) ++
    [([], .answered (.enter .succeeded) ()), ([], .answered (.enter .postProcessing) ()),
      ([], .answered .clock (0 : UInt64)),
      ([0, 1], .answered (.readText "/srv/jobs/1/output.s") (readBack programBytes)),
      ([0], .joins), ([], .joins), ([], .answered (.enter .failed) ())]

theorem programRequest_answers : hostDriver.Answers programRequest programEvents
    (.error (.file .disassembly "/srv/jobs/1/output.s" .invalidUtf8)) := by
  have hfound : hostDriver.registry.find "gcc" = .ok hostToolchain := rfl
  have hread : readBack programBytes = .error .invalidUtf8 := readBack_of_invalid (by decide)
  refine .ended hfound
    ((hostToolchain.opening_run programRequest 0 "/srv/jobs/1" (.ok {})).append ?_)
  rw [hread]
  refine .step (.answer (.enter .succeeded) _ ()) ?_
  refine .step (.answer (.enter .postProcessing) _ ()) ?_
  refine .step (.answer .clock _ (0 : UInt64)) ?_
  refine .step (.left _ _ (.right _ _
    (.answer (.readText "/srv/jobs/1/output.s") _ (.error .invalidUtf8)))) ?_
  refine .step (.left _ _ (.both _ _ _)) ?_
  refine .step (.both _ _ _) ?_
  exact .step (.answer (.enter .failed) _ ()) (.refl _)

/-- The compiler was asked for no text. -/
theorem not_selectsText_program : ¬ hostToolchain.compiler.SelectsText programRequest.filters
    "/srv/jobs/1/output.s" := by
  show "-S" ∉ ["-g", "-o", "/srv/jobs/1/output.s"]
  decide

/-! ### Requests -/

/-- **When a request fails with the output file.** The compiler has exited with zero and left some
bytes, which are text if the flags that it was called with ask for that; nothing else goes wrong
with the directory and the source, and no tool reports that a file let it down. Then the request
fails with the output file exactly if the program is to be executed and no binary is wanted, and the
bytes are no text. The failure is that of reading text that is none. -/
theorem output_file_fails_iff (config : Config) (driver : Driver) (request : BuildRequest)
    (events : List Event) (result : Except Failure CompilationResult) (bytes : List UInt8)
    (hdriver : Driver.ofConfig config = .ok driver)
    (hconfigured : ∃ compiler ∈ config.compilers, compiler.id = request.compilerId)
    (hanswer : driver.Answers request events result)
    (hintime : result ≠ .error (.cancelled config.limits.jobTimeoutMs))
    (hdirectory : ∀ answer, Told events (.jobDirectory config.sandbox.root) answer →
      ∃ jobDir, answer = .ok jobDir)
    (hsource : ∀ path answer, Told events (.writeText path request.source false) answer →
      answer = .ok ())
    (hcompiler : ∀ call answer, call.options.stage = .primaryCompile →
      Told events (.runTool call) answer → ∃ run, answer = .ok run ∧ run.code = 0 ∧
        (run.dirPath = none ∨ run.dirPath = call.options.cwd.map .text))
    (htools : Toolchain.ToolsOwnFailures (Told events))
    (hleft : ∀ jobDir answer, Told events (.jobDirectory config.sandbox.root) (.ok jobDir) →
      Told events (.readText (Path.join jobDir "output.s")) answer → answer = readBack bytes) :
    ∃ toolchain jobDir, driver.registry.find request.compilerId = .ok toolchain ∧
      toolchain.compiler ∈ config.compilers ∧
      Told events (.jobDirectory config.sandbox.root) (.ok jobDir) ∧
      ((toolchain.compiler.SelectsText request.filters (Path.join jobDir "output.s") →
          Utf8.decode? bytes ≠ none) →
        ((∃ stage cause, result = .error (.file stage (Path.join jobDir "output.s") cause)) ↔
          request.filters.execute = true ∧ request.filters.binary = false ∧
            Utf8.decode? bytes = none) ∧
        ∀ stage cause, result = .error (.file stage (Path.join jobDir "output.s") cause) →
          stage = .disassembly ∧ cause = .invalidUtf8) := by
  obtain ⟨toolchain, started, jobDir, answer, later, hfound, hmem, hsandbox, rfl, hlater⟩ :=
    opening_of_answers hdriver hconfigured hanswer hintime hdirectory hsource
  obtain ⟨hmade, hrun⟩ :=
    toolchain.told_opening request started jobDir answer later
  rw [hsandbox] at hmade
  obtain ⟨run, rfl, hcode, hdir⟩ := hcompiler _ _ rfl hrun
  rw [Toolchain.answered_of_success _ _ (ToolResult.success_iff.mpr hcode)] at hlater
  have hlast : Toolchain.ToolsOwnFailures (Told later) :=
    fun call stage path cause htold => htools call stage path cause htold.of_later
  have hread (answer : Except FileError String)
      (htold : Told later (.readText (Path.join jobDir "output.s")) answer) :
      answer = readBack bytes := hleft jobDir answer hmade htold.of_later
  refine ⟨toolchain, jobDir, hfound, hmem, hmade, fun htext => ⟨⟨?_, ?_⟩, ?_⟩⟩
  · rintro ⟨stage, cause, rfl⟩
    obtain ⟨-, hbinary, htold⟩ := Toolchain.accepted_output_error hlast hdir hlater
    obtain ⟨hnone, -⟩ := readBack_eq_error (hread _ htold).symm
    refine ⟨?_, hbinary, hnone⟩
    -- a compiler that stops at assembly has left text
    cases hexecute : request.filters.execute with
    | true => rfl
    | false => exact absurd hnone (htext (Compiler.selectsText_of_not_execute hexecute hbinary _))
  · rintro ⟨-, hbinary, hnone⟩
    refine ⟨_, .invalidUtf8, Toolchain.accepted_unreadable hbinary (by decide) ?_ hlater⟩
    intro answer htold
    rw [hread answer htold, readBack_of_invalid hnone]
  · rintro stage cause rfl
    obtain ⟨hstage, -, htold⟩ := Toolchain.accepted_output_error hlast hdir hlater
    exact ⟨hstage, (readBack_eq_error (hread _ htold).symm).2⟩

/-- A program that is no text. -/
theorem output_file_fails_iff_program :
    (∃ result, hostDriver.Answers programRequest programEvents result ∧
      ∃ stage cause, result = .error (.file stage "/srv/jobs/1/output.s" cause)) ∧
    programRequest.filters.execute = true ∧ programRequest.filters.binary = false ∧
      Utf8.decode? programBytes = none := by
  have hfound : hostDriver.registry.find "gcc" = .ok hostToolchain := rfl
  obtain ⟨toolchain, jobDir, hown, -, hmade, hfails⟩ :=
    output_file_fails_iff hostConfig hostDriver programRequest programEvents _ programBytes rfl
      ⟨_, List.mem_singleton_self _, rfl⟩ programRequest_answers (by simp)
      (by simp [Told, programEvents, Toolchain.opening])
      (by simp [Told, programEvents, Toolchain.opening])
      (by simp +contextual [Told, programEvents, Toolchain.opening])
      (by simp [Told, programEvents, Toolchain.opening, Toolchain.ToolsOwnFailures])
      (by simp +contextual [Told, programEvents, Toolchain.opening])
  obtain rfl := Except.ok.inj (hfound.symm.trans hown)
  obtain rfl : jobDir = "/srv/jobs/1" := by
    simpa [Told, programEvents, Toolchain.opening, hostToolchain] using hmade
  obtain ⟨hiff, -⟩ := hfails fun htext => absurd htext not_selectsText_program
  exact ⟨⟨_, programRequest_answers, _, _, rfl⟩, hiff.mp ⟨_, _, rfl⟩⟩

/-- A linked program is read as text, though its compiler was asked for none. -/
theorem linked_program_fails_at_listing :
    ¬ hostToolchain.compiler.SelectsText programRequest.filters "/srv/jobs/1/output.s" ∧
    Told programEvents (.runTool (hostToolchain.primaryCall programRequest "/srv/jobs/1"))
      (.ok {}) ∧
    Told programEvents (.readText "/srv/jobs/1/output.s") (readBack programBytes) ∧
    hostDriver.Answers programRequest programEvents
      (.error (.file .disassembly "/srv/jobs/1/output.s" .invalidUtf8)) := by
  refine ⟨not_selectsText_program, ⟨[], ?_⟩, ⟨[0, 1], ?_⟩, programRequest_answers⟩
  · simp [programEvents, Toolchain.opening]
  · simp [programEvents]

end Driver

end AsmInspect

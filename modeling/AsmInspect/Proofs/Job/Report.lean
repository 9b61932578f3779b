import AsmInspect.Proofs.Job.CommandLine
import AsmInspect.Proofs.Job.OutputFile
import AsmInspect.Proofs.Toolchain.Indifference

/-!
# The report of the optimizer

A compiler that can save an optimization record is asked for one if the user's options want it. The
record is then read on the host's side, and its remarks are shown with the result. A record that is
missing or broken has no remarks and does no other harm: it is nothing that a job can fail with, and
nothing else that a job shows depends on it.

The last is a statement about two requests at once. They are answered on machines that differ in
optimization records and in time alone, while the same happens to both, in the same order. Whatever
happens to the one may happen to the other, whatever the records of its machine are; and if it does,
both are answered with the same failure, or with results that are the same but for the report.

## Main definitions

* `CompilationResult.SameButReport`: results that differ in remarks and times alone
* `Remark.ofFile`: the remarks in a file
* `Driver.PairedAnswers`: answers to a request on two machines

## Main results

* `Toolchain.compileJob_twins`: a job on two machines that differ in records
* `Toolchain.optOutput_of_accepted`: the remarks of a job
* `Driver.report_collected_harmlessly`: when a report is collected, and what it can do
-/

namespace AsmInspect

open AsmInspect.Flow

/-- Two results are the same but for the remarks and for times. -/
structure CompilationResult.SameButReport (shown shown' : CompilationResult) : Prop where
  code : shown.code = shown'.code
  stdout : shown.stdout = shown'.stdout
  stderr : shown.stderr = shown'.stderr
  asm : shown.asm = shown'.asm
  /-- Device listings say themselves how long their disassembler took. -/
  devices : shown.devices.Pointwise Listing.SameText shown'.devices
  compilationOptions : shown.compilationOptions = shown'.compilationOptions

namespace Toolchain

variable {toolchain : Toolchain} {request : BuildRequest}

/-! ### Jobs on two machines -/

section Twins

variable {run run' : ToolResult} (hrun : run.SameRun run')

/-- A job that gives up does so with its failure. -/
theorem giveUp_twins (failure : Failure) :
    Twins AlikeButRecords (Matches CompilationResult.SameButReport) (giveUp failure)
      (giveUp failure) := .ask _ fun _ _ _ => .done (.error failure)

include hrun

/-- Only the times of a rejection may differ. -/
theorem rejected_twins (started started' : UInt64) (jobDir : String) :
    Twins AlikeButRecords (Matches CompilationResult.SameButReport)
      (toolchain.rejected request started jobDir run)
      (toolchain.rejected request started' jobDir run') := by
  rw [hrun.eq]
  refine .ask _ fun _ _ _ => .ask _ fun finished finished' _ => .ask _ fun _ _ _ => ?_
  exact .done (.ok ⟨rfl, rfl, rfl, rfl, .nil, rfl⟩)

/-- Branches that match are joined alike: a failure of the host's side goes first on both. -/
theorem concluded_twins (started started' collecting collecting' : UInt64) (jobDir : String)
    {host host' : Except Failure HostOutput} (hhost : Matches HostOutput.SameAsm host host')
    {devices devices' : Except Failure DeviceMap}
    (hdevices : Matches (Dict.Pointwise Listing.SameText) devices devices') :
    Twins AlikeButRecords (Matches CompilationResult.SameButReport)
      (toolchain.concluded request started collecting jobDir run (joined (host, devices)))
      (toolchain.concluded request started' collecting' jobDir run'
        (joined (host', devices'))) := by
  cases hhost with
  | error failure => exact giveUp_twins failure
  | ok hasm =>
    cases hdevices with
    | error failure => exact giveUp_twins failure
    | ok hlistings =>
      rw [hrun.eq]
      refine .ask _ fun finished finished' _ => .ask _ fun _ _ _ => ?_
      exact .done (.ok ⟨rfl, rfl, rfl, hasm, hlistings, rfl⟩)

theorem accepted_twins (started started' : UInt64) (jobDir : String) :
    Twins AlikeButRecords (Matches CompilationResult.SameButReport)
      (toolchain.accepted request started jobDir run)
      (toolchain.accepted request started' jobDir run') := by
  -- the branches do not ask how long the compiler took
  have hhost : Twins AlikeButRecords (Matches HostOutput.SameAsm)
      (toolchain.hostBranch request (toolchain.compiledIn request jobDir run))
      (toolchain.hostBranch request (toolchain.compiledIn request jobDir run')) := by
    rw [hrun.eq]
    exact hostBranch_twins toolchain request rfl
  have hdevices : Twins AlikeButRecords (Matches (Dict.Pointwise Listing.SameText))
      (toolchain.deviceBranch request (toolchain.compiledIn request jobDir run))
      (toolchain.deviceBranch request (toolchain.compiledIn request jobDir run')) := by
    rw [hrun.eq]
    exact deviceBranch_twins toolchain request _
  refine .ask _ fun _ _ _ => .ask _ fun _ _ _ => .ask _ fun collecting collecting' _ => ?_
  exact .both hhost hdevices fun _ _ _ _ h h' => concluded_twins hrun _ _ _ _ jobDir h h'

end Twins

theorem answered_twins {answer answer' : Except Failure ToolResult}
    (h : Matches ToolResult.SameRun answer answer') (started started' : UInt64) (jobDir : String) :
    Twins AlikeButRecords (Matches CompilationResult.SameButReport)
      (toolchain.answered request started jobDir answer)
      (toolchain.answered request started' jobDir answer') := by
  cases h with
  | error failure => exact giveUp_twins failure
  | @ok run run' hrun =>
    have hsuccess : run.success = run'.success := by rw [hrun.eq]; rfl
    by_cases haccepts : run.success = true
    · rw [answered_of_success _ _ haccepts, answered_of_success _ _ (hsuccess ▸ haccepts)]
      exact accepted_twins hrun started started' jobDir
    · rw [answered_of_not_success _ _ haccepts, answered_of_not_success _ _ (hsuccess ▸ haccepts)]
      exact rejected_twins hrun started started' jobDir

variable (toolchain request) in
/-- **A job on two machines that differ in records** comes to the same but for the report. -/
theorem compileJob_twins :
    Twins AlikeButRecords (Matches CompilationResult.SameButReport)
      (toolchain.compileJob request).run (toolchain.compileJob request).run := by
  rw [compileJob_run_eq]
  refine .ask _ fun started started' _ => .ask _ fun directory directory' hdirectory => ?_
  obtain rfl : directory = directory' := hdirectory
  cases directory with
  | error cause => exact giveUp_twins _
  | ok jobDir =>
    refine .ask _ fun written written' hwritten => ?_
    obtain rfl : written = written' := hwritten
    cases written with
    | error cause => exact giveUp_twins _
    | ok _ =>
      refine .ask _ fun _ _ _ => .ask _ fun _ _ _ => .ask _ fun answer answer' hanswer => ?_
      exact answered_twins hanswer started started' jobDir

end Toolchain

/-! ### The remarks -/

/-- The remarks of a record that is read as text, or cannot be. -/
def Remark.ofReading : Except FileError String → List Remark
  | .ok text => ofRecord text
  | .error _ => []

/-- The remarks in a file of some bytes, or in a file that is not to be had. -/
def Remark.ofFile : Except FileError (List UInt8) → List Remark
  | .ok bytes => match Utf8.decode? bytes with
    | some text => ofRecord (String.ofList text)
    | none => []
  | .error _ => []

theorem Remark.ofReading_readBack (left : Except FileError (List UInt8)) :
    ofReading (left.bind readBack) = ofFile left := by
  cases left with
  | error cause => rfl
  | ok bytes =>
    show ofReading (readBack bytes) = ofFile (.ok bytes)
    unfold readBack ofFile
    simp only
    cases Utf8.decode? bytes <;> rfl

namespace Toolchain

variable {toolchain : Toolchain} {request : BuildRequest} {told : Telling}

/-- What the part of the host's side for the record comes to. -/
theorem yields_remarks {recordPath : Option String} {found : List Remark}
    (h : (remarks recordPath).Yields told found) :
    (recordPath = none ∧ found = []) ∨ ∃ path reading, recordPath = some path ∧
      told (.readText path) reading ∧ found = Remark.ofReading reading := by
  cases recordPath with
  | none => exact .inl ⟨rfl, h⟩
  | some path =>
    obtain ⟨reading, htold, hfound⟩ := h
    refine .inr ⟨path, reading, rfl, htold, ?_⟩
    cases reading <;> exact hfound

/-- The remarks that the host's side shows are those of the record. -/
theorem remarks_of_hostBranch {compiled : Compiled} {output : HostOutput}
    (h : (toolchain.hostBranch request compiled).Yields told (.ok output)) :
    (remarks compiled.recordPath).Yields told output.remarks := by
  unfold hostBranch hostOutput at h
  rw [run_bind_eq, yields_bind] at h
  obtain ⟨pair, hpair, h⟩ := h
  obtain ⟨_, ⟨found, asm, hfound, -, rfl⟩, rfl⟩ := yields_work_lift.mp hpair
  cases asm with
  | error failure => cases h
  | ok asm =>
    obtain rfl := Except.ok.inj h
    exact hfound

/-- **The remarks of a job** whose compiler has accepted the source. -/
theorem optOutput_of_accepted {started : UInt64} {jobDir : String} {run : ToolResult}
    {later : List Event} {shown : CompilationResult}
    (hrun : Run (toolchain.accepted request started jobDir run) later (.done (.ok shown)))
    {reading : Except FileError String}
    (hreading : ∀ answer, Told later (.readText (Path.join jobDir "output.opt.yaml")) answer →
      answer = reading) :
    shown.optOutput = if toolchain.AsksReport request then Remark.ofReading reading else [] := by
  obtain ⟨host, devices, hhost, -, ⟨_, -, he⟩ | ⟨output, _, _, _, rfl, -, he⟩⟩ :=
    branches_of_accepted hrun
  case inl => cases he
  case inr =>
    obtain rfl := Except.ok.inj he
    have hpath : (toolchain.compiledIn request jobDir run).recordPath =
        if toolchain.AsksReport request then some (Path.join jobDir "output.opt.yaml") else none :=
      toolchain.recordPath?_eq request jobDir
    show output.remarks = _
    by_cases hasks : toolchain.AsksReport request
    · rw [if_pos hasks] at hpath ⊢
      rcases yields_remarks (remarks_of_hostBranch hhost) with ⟨hnone, -⟩ |
        ⟨path, answer, hsome, htold, hfound⟩
      · cases hpath.symm.trans hnone
      · obtain rfl := Option.some.inj (hpath.symm.trans hsome)
        rw [hfound, hreading answer htold]
    · rw [if_neg hasks] at hpath ⊢
      rcases yields_remarks (remarks_of_hostBranch hhost) with ⟨-, hfound⟩ |
        ⟨path, answer, hsome, -, -⟩
      · exact hfound
      · cases hpath.symm.trans hsome

end Toolchain

namespace Driver

variable {driver : Driver} {request : BuildRequest}

/-! ### Requests on two machines -/

variable (driver request) in
/-- **Two answers to a request**, on machines that differ in their answers alone: the same has
happened to both jobs. -/
inductive PairedAnswers (like : Likeness) : List Event → List Event →
    Except Failure CompilationResult → Except Failure CompilationResult → Prop
  | refused {failure : Failure}
      (unknown : driver.registry.find request.compilerId = .error failure) :
      PairedAnswers like [] [] (.error failure) (.error failure)
  | ended {toolchain : Toolchain} {events events' : List Event}
      {result result' : Except Failure CompilationResult}
      (found : driver.registry.find request.compilerId = .ok toolchain)
      (run : PairedRun like (toolchain.compileJob request).run (toolchain.compileJob request).run
        events events' (.done result) (.done result')) :
      PairedAnswers like events events' result result'
  | overdue {toolchain : Toolchain} {events events' : List Event}
      {flow flow' : Flow (Except Failure CompilationResult)}
      (found : driver.registry.find request.compilerId = .ok toolchain)
      (run : PairedRun like (toolchain.compileJob request).run (toolchain.compileJob request).run
        events events' flow flow')
      (unfinished : flow.result? = none) (unfinished' : flow'.result? = none) :
      PairedAnswers like events events' (.error (.cancelled driver.config.limits.jobTimeoutMs))
        (.error (.cancelled driver.config.limits.jobTimeoutMs))

section Paired

variable {like : Likeness} {events events' : List Event}
  {result result' : Except Failure CompilationResult}

theorem PairedAnswers.answers
    (h : driver.PairedAnswers request like events events' result result') :
    driver.Answers request events result ∧ driver.Answers request events' result' := by
  cases h with
  | refused unknown => exact ⟨.refused unknown, .refused unknown⟩
  | ended found run => exact ⟨.ended found run.runs.1, .ended found run.runs.2⟩
  | overdue found run unfinished unfinished' =>
    exact ⟨.overdue found run.runs.1 unfinished, .overdue found run.runs.2 unfinished'⟩

/-- **Answers on machines that differ in records** are the same but for the report. -/
theorem PairedAnswers.sameButReport
    (h : driver.PairedAnswers request AlikeButRecords events events' result result') :
    Matches CompilationResult.SameButReport result result' := by
  cases h with
  | refused _ => exact .error _
  | ended found run =>
    cases (Toolchain.compileJob_twins _ request).pairedRun run with
    | done related => exact related
  | overdue => exact .error _

/-- Whatever is in the records of another machine, the same may happen there. -/
theorem exists_pairedAnswers (hanswer : driver.Answers request events result)
    (halike : List.Forall₂ (AlikeEvents AlikeButRecords) events events') :
    ∃ result', driver.PairedAnswers request AlikeButRecords events events' result result' := by
  cases hanswer with
  | refused unknown =>
    cases halike
    exact ⟨_, .refused unknown⟩
  | @ended toolchain _ _ found run =>
    have htwins := toolchain.compileJob_twins request
    obtain ⟨last', hpaired⟩ := htwins.exists_pairedRun run halike
    obtain ⟨result', rfl, -⟩ := (htwins.pairedRun hpaired).of_done
    exact ⟨result', .ended found hpaired⟩
  | @overdue toolchain _ flow found run unfinished =>
    have htwins := toolchain.compileJob_twins request
    obtain ⟨flow', hpaired⟩ := htwins.exists_pairedRun run halike
    exact ⟨_, .overdue found hpaired unfinished
      ((htwins.pairedRun hpaired).result?_eq_none unfinished)⟩

end Paired

/-! ### Requests -/

/-- What has happened to a request has happened to its job. -/
theorem exists_run_of_told {events : List Event} {result : Except Failure CompilationResult}
    (hanswer : driver.Answers request events result) {query : Query} {answer : query.Answer}
    (htold : Told events query answer) :
    ∃ toolchain flow, driver.registry.find request.compilerId = .ok toolchain ∧
      Run (toolchain.compileJob request).run events flow ∧
      ∀ shown, result = .ok shown → flow = .done (.ok shown) := by
  cases hanswer with
  | refused =>
    obtain ⟨_, hmem⟩ := htold
    cases hmem
  | ended found run => exact ⟨_, _, found, run, fun shown h => h ▸ rfl⟩
  | overdue found run _ => exact ⟨_, _, found, run, nofun⟩

/-- **A report is collected if it is asked for, and does no harm.** Whenever the compiler is run,
the flags for the record stand between the flags for the filters and the user's options if a record
is asked for, and nothing stands there otherwise. If the compiler exits with zero, a result has the
remarks of the record that is left to be read afterwards, and none if that is no text or none is
asked for.

On another machine that differs in records and in time alone the same may happen, and if it does,
the request is answered with the same failure or with a result that is the same but for remarks and
times. -/
theorem report_collected_harmlessly (driver : Driver) (request : BuildRequest)
    (events : List Event) (result : Except Failure CompilationResult)
    (hanswer : driver.Answers request events result) :
    (∀ call answer, call.options.stage = .primaryCompile → Told events (.runTool call) answer →
      ∃ toolchain jobDir before later,
        driver.registry.find request.compilerId = .ok toolchain ∧ events = before ++ later ∧
        Told before (.jobDirectory toolchain.sandbox.root) (.ok jobDir) ∧
        Told before (.runTool call) answer ∧
        call.args =
          toolchain.compiler.buildArguments request.filters (Path.join jobDir "output.s") ++
            (if toolchain.AsksReport request then
              toolchain.compiler.reportArguments (Path.join jobDir "output.opt.yaml") else []) ++
            request.userOptions ++ [Path.join jobDir toolchain.compiler.sourceFileName] ∧
        ∀ run shown left, answer = .ok run → run.code = 0 → result = .ok shown →
          (∀ reading, Told later (.readText (Path.join jobDir "output.opt.yaml")) reading →
            reading = Except.bind left readBack) →
          shown.optOutput =
            if toolchain.AsksReport request then Remark.ofFile left else []) ∧
    (∀ events', List.Forall₂ (AlikeEvents AlikeButRecords) events events' →
      ∃ result', driver.PairedAnswers request AlikeButRecords events events' result result') ∧
    ∀ events' result',
      driver.PairedAnswers request AlikeButRecords events events' result result' →
        driver.Answers request events' result' ∧
          Matches CompilationResult.SameButReport result result' := by
  refine ⟨?_, ?_, ?_⟩
  · intro call answer hprimary htold
    obtain ⟨toolchain, flow, hfound, hrun, hresult⟩ := exists_run_of_told hanswer htold
    -- the compiler is run at the end of the opening, and the record is read later or not at all
    obtain ⟨started, jobDir, later, rfl, rfl, hlater⟩ :=
      Toolchain.opening_of_primary hrun hprimary htold
    obtain ⟨hmade, hcall⟩ := toolchain.told_opening request started jobDir answer []
    rw [List.append_nil] at hmade hcall
    refine ⟨toolchain, jobDir, _, later, hfound, rfl, hmade, hcall,
      toolchain.commandLine_eq request jobDir, ?_⟩
    rintro run shown left rfl hcode rfl hleft
    rw [hresult shown rfl, Toolchain.answered_of_success _ _ (ToolResult.success_iff.mpr hcode)]
      at hlater
    rw [← Remark.ofReading_readBack]
    exact Toolchain.optOutput_of_accepted hlater hleft
  · intro events' halike
    exact exists_pairedAnswers hanswer halike
  · intro events' result' hpaired
    exact ⟨hpaired.answers.2, hpaired.sameButReport⟩

/-- A record with one remark. -/
def recordText : String := "--- !Passed\nPass: inline\nName: Inlined\n...\n"

/-- The file that holds it. -/
def recordBytes : List UInt8 := recordText.toUTF8.data.toList

/-- What happens to a request for a record whose compiler accepts the source, as the record can be
read. -/
def recordedEvents (reading : Except FileError String) : List Event :=
  recordToolchain.opening recordRequest 0 "/srv/jobs/asmview-1" (.ok {}) ++
    [([], .answered (.enter .succeeded) ()), ([], .answered (.enter .postProcessing) ()),
      ([], .answered .clock (0 : UInt64)),
      ([0, 0], .answered (.readText "/srv/jobs/asmview-1/output.opt.yaml") reading),
      ([0, 1], .answered (.readText "/srv/jobs/asmview-1/output.s") (.ok "ret\n")),
      ([0], .joins), ([], .joins), ([], .answered .clock (0 : UInt64)),
      ([], .answered (.enter .done) ())]

theorem recordedEvents_answers (reading : Except FileError String) :
    recordDriver.Answers recordRequest (recordedEvents reading)
      (.ok (recordToolchain.collection recordRequest "/srv/jobs/asmview-1" {}
        { asm := .text "ret\n", remarks := Remark.ofReading reading } {} (0 - 0) (0 - 0))) := by
  have hfound : recordDriver.registry.find "clang" = .ok recordToolchain := rfl
  refine .ended hfound
    ((recordToolchain.opening_run recordRequest 0 "/srv/jobs/asmview-1" (.ok {})).append ?_)
  refine .step (.answer (.enter .succeeded) _ ()) ?_
  refine .step (.answer (.enter .postProcessing) _ ()) ?_
  refine .step (.answer .clock _ (0 : UInt64)) ?_
  refine .step (.left _ _ (.left _ _
    (.answer (.readText "/srv/jobs/asmview-1/output.opt.yaml") _ reading))) ?_
  refine .step (.left _ _ (.right _ _
    (.answer (.readText "/srv/jobs/asmview-1/output.s") _ (.ok "ret\n")))) ?_
  -- the part for the record has ended, whatever the reading
  cases reading <;>
    · refine .step (.left _ _ (.both _ _ _)) ?_
      refine .step (.both _ _ _) ?_
      refine .step (.answer .clock _ (0 : UInt64)) ?_
      exact .step (.answer (.enter .done) _ ()) (.refl _)

/-- The machines differ in the record alone. -/
theorem recordedEvents_alike (reading reading' : Except FileError String) :
    List.Forall₂ (AlikeEvents AlikeButRecords) (recordedEvents reading)
      (recordedEvents reading') := by
  have hrecord : IsRecordPath "/srv/jobs/asmview-1/output.opt.yaml" :=
    ⟨"/srv/jobs/asmview-1", by decide⟩
  have hrefl (event : Event) : AlikeEvents AlikeButRecords event event :=
    .refl AlikeButRecords.refl event
  refine List.rel_append (List.forall₂_same.mpr fun event _ => hrefl event) ?_
  refine .cons (hrefl _) (.cons (hrefl _) (.cons (hrefl _) ?_))
  refine .cons (.answered _ _ (.inl hrecord)) ?_
  exact List.forall₂_same.mpr fun event _ => hrefl event

/-- What is told to such a request. -/
theorem told_recordedEvents (reading : Except FileError String) :
    Told (recordedEvents reading)
        (.runTool (recordToolchain.primaryCall recordRequest "/srv/jobs/asmview-1")) (.ok {}) ∧
      (∀ jobDir, Told (recordedEvents reading) (.jobDirectory "/srv/jobs") (.ok jobDir) →
        jobDir = "/srv/jobs/asmview-1") ∧
      ∀ answer, Told (recordedEvents reading)
        (.readText "/srv/jobs/asmview-1/output.opt.yaml") answer → answer = reading := by
  refine ⟨⟨[], by simp [recordedEvents, Toolchain.opening]⟩, ?_, ?_⟩
  · intro jobDir htold
    simpa [Told, recordedEvents, Toolchain.opening, recordToolchain, recordConfig] using htold
  · intro answer htold
    simpa [Told, recordedEvents, Toolchain.opening] using htold

/-- A record that is there, and one that is not. -/
theorem report_collected_harmlessly_missing_record :
    ∃ shown shown',
      recordDriver.Answers recordRequest (recordedEvents (.ok recordText)) (.ok shown) ∧
      recordDriver.Answers recordRequest (recordedEvents (.error .notFound)) (.ok shown') ∧
      shown.optOutput = [{ kind := .passed, pass := "inline", name := "Inlined" }] ∧
      shown'.optOutput = [] ∧ shown.SameButReport shown' := by
  have hfound : recordDriver.registry.find "clang" = .ok recordToolchain := rfl
  have hasks : recordToolchain.AsksReport recordRequest := ⟨rfl, by decide⟩
  have hpath : Path.join "/srv/jobs/asmview-1" "output.opt.yaml" =
      "/srv/jobs/asmview-1/output.opt.yaml" := by decide
  have hremarks (left : Except FileError (List UInt8)) {shown : CompilationResult}
      {reading : Except FileError String} (hleft : reading = left.bind readBack)
      (hanswer : recordDriver.Answers recordRequest (recordedEvents reading) (.ok shown)) :
      shown.optOutput = Remark.ofFile left := by
    obtain ⟨hreport, -⟩ := report_collected_harmlessly _ _ _ _ hanswer
    obtain ⟨hcall, hdirectory, hreading⟩ := told_recordedEvents reading
    obtain ⟨toolchain, jobDir, before, later, hown, hevents, hmade, -, -, hshown⟩ :=
      hreport _ _ rfl hcall
    obtain rfl := Except.ok.inj (hfound.symm.trans hown)
    rw [hevents] at hdirectory hreading
    obtain rfl := hdirectory jobDir hmade.of_before
    rw [hpath] at hshown
    rw [hshown {} shown left rfl rfl rfl fun answer htold =>
      (hreading answer htold.of_later).trans hleft, if_pos hasks]
  have hanswer := recordedEvents_answers (.ok recordText)
  obtain ⟨-, hexists, hagree⟩ := report_collected_harmlessly _ _ _ _ hanswer
  obtain ⟨result', hpaired⟩ := hexists _ (recordedEvents_alike _ (.error .notFound))
  obtain ⟨hanswer', hmatches⟩ := hagree _ _ hpaired
  cases hmatches with
  | @ok _ shown' hsame =>
    refine ⟨_, shown', hanswer, hanswer', ?_, ?_, hsame⟩
    · rw [hremarks (.ok recordBytes) (by rfl) hanswer]
      decide +kernel
    · exact hremarks (.error .notFound) rfl hanswer'

end Driver

end AsmInspect

import AsmInspect.Proofs.Flow.Twins
import AsmInspect.Proofs.Job.Joining
import AsmInspect.Proofs.Toolchain.Isolation
import AsmInspect.Proofs.Toolchain.ParserAnswer

/-!
# What does not depend on optimization records

An optimization record is a file in the directory of a job. It is read in a part of the host's side
that comes to some remarks whatever the machine says of the file, and so cannot fail. No other part
reads a file of this name or takes it for an artifact. The time that a tool takes is passed on, and
nothing is decided by it.

So two machines that differ in records, and in how long things take, are asked the same by both
branches of a job, and the branches come to the same but for remarks and times.

## Main definitions

* `AlikeButRecords`: machines that differ in records and in time alone
* `Listing.SameText`, `HostOutput.SameAsm`: what may differ in what a job collects

## Main results

* `hostBranch_twins`, `deviceBranch_twins`: the branches of a job on two such machines
-/

namespace AsmInspect

open AsmInspect.Flow

/-! ### Two machines -/

/-- The name of optimization records. -/
def recordFileName : String := "output.opt.yaml"

/-- A path to an optimization record. -/
def IsRecordPath (path : String) : Prop := ∃ dir, path = Path.join dir recordFileName

/-- A file whose name ends in another way is no record. -/
theorem not_isRecordPath {dir name : String} {c : Char} (hname : name.toList.getLast? = some c)
    (hne : c ≠ 'l') : ¬ IsRecordPath (Path.join dir name) := by
  rintro ⟨other, h⟩
  exact Path.join_ne_join hname (d := 'l') (by decide) hne h

/-- Two tool runs are the same but for the time. -/
def ToolResult.SameRun (run run' : ToolResult) : Prop :=
  { run with execTimeMs := 0 } = { run' with execTimeMs := 0 }

theorem ToolResult.SameRun.eq {run run' : ToolResult} (h : run.SameRun run') :
    run' = { run with execTimeMs := run'.execTimeMs } := by
  unfold SameRun at h
  cases run
  cases run'
  simp_all

/-- **Machines that differ in records and in time alone.** A record may have another content on the
other machine, or may not be there or not be readable. -/
def AlikeButRecords : Likeness
  | .readText path, answer, answer' => IsRecordPath path ∨ answer = answer'
  | .fileExists path, answer, answer' => IsRecordPath path ∨ answer = answer'
  | .listNames _, answer, answer' =>
    answer.map (·.filter (· ≠ recordFileName)) = answer'.map (·.filter (· ≠ recordFileName))
  | .runTool _, answer, answer' => Matches ToolResult.SameRun answer answer'
  | .clock, _, _ => True
  | .writeText .., answer, answer' => answer = answer'
  | .jobDirectory _, answer, answer' => answer = answer'
  | .enter _, _, _ => True

theorem AlikeButRecords.refl (query : Query) (answer : query.Answer) :
    AlikeButRecords query answer answer := by
  cases query with
  | readText => exact .inr rfl
  | fileExists => exact .inr rfl
  | runTool =>
    cases answer with
    | ok run => exact .ok rfl
    | error failure => exact .error failure
  | clock => trivial
  | enter => trivial
  | _ => rfl

/-! ### What may differ -/

/-- Two listings are the same but for the time that a disassembler took. -/
def Listing.SameText (listing listing' : Listing) : Prop :=
  { listing with objdumpTimeMs := none } = { listing' with objdumpTimeMs := none }

theorem Listing.SameText.eq {listing listing' : Listing} (h : listing.SameText listing') :
    listing' = { listing with objdumpTimeMs := listing'.objdumpTimeMs } := by
  unfold SameText at h
  cases listing
  cases listing'
  simp_all

/-- Two outputs of the host's side show the same assembly. -/
def HostOutput.SameAsm (output output' : HostOutput) : Prop := output.asm = output'.asm

/-! ### Artifacts -/

theorem Artifact.ofFileName?_record : ofFileName? recordFileName = none := by decide

/-- A record is no artifact. -/
theorem Artifact.filterMap_withoutRecords (names : List String) :
    (names.filter (· ≠ recordFileName)).filterMap ofFileName? = names.filterMap ofFileName? := by
  rw [List.filterMap_filter]
  refine List.filterMap_congr fun name _ => ?_
  by_cases hname : name = recordFileName
  · rw [hname, ofFileName?_record]
    rfl
  · simp [hname]

theorem Artifact.ofNames_congr {names names' : List String}
    (h : names.filter (· ≠ recordFileName) = names'.filter (· ≠ recordFileName)) :
    ofNames names = ofNames names' := by
  unfold ofNames
  rw [← filterMap_withoutRecords names, ← filterMap_withoutRecords names', h]

namespace Toolchain

variable (toolchain : Toolchain)

/-- The text that a tool printed does not depend on the time. -/
theorem toolText_fst {run run' : ToolResult} (h : run.SameRun run') (tool : String) :
    (toolText tool run).1 = (toolText tool run').1 := by
  rw [h.eq]
  unfold toolText ToolResult.success
  split <;> rfl

/-! ### The device's side -/

theorem demangle_twins {listing listing' : Listing} (h : listing.SameText listing')
    (filters : Filters) (demangler : Option String) (options : ToolOptions) :
    Twins AlikeButRecords (Matches Listing.SameText)
      (listing.demangle filters demangler options).run
      (listing'.demangle filters demangler options).run := by
  obtain ⟨time, rfl⟩ : ∃ time, listing' = { listing with objdumpTimeMs := time } := ⟨_, h.eq⟩
  unfold Listing.demangle
  simp only
  split
  · exact Twins.work_pure rfl
  · split
    case isFalse => exact Twins.work_pure rfl
    case isTrue =>
      refine (Twins.work_runTool _ _ _ fun _ _ alike => alike).work_bind fun run run' hrun => ?_
      refine Twins.work_pure ?_
      -- the demangler's lines do not depend on the time, and neither does their number
      rw [hrun.eq]
      unfold Listing.demangled Listing.withTexts? ToolResult.success
      simp only
      split
      · split <;> rfl
      · rfl

/-- What an artifact is read from is no record. -/
theorem not_isRecordPath_artifact {name : String} {artifact : Artifact}
    (h : Artifact.ofFileName? name = some artifact) (jobDir : String) :
    ¬ IsRecordPath (Path.join jobDir artifact.fileName) := by
  rcases Artifact.getLast?_fileName h with hlast | hlast
  · exact not_isRecordPath hlast (by decide)
  · exact not_isRecordPath hlast (by decide)

/-- The text of an artifact, whatever the time. -/
theorem artifactText_twins {name : String} {artifact : Artifact}
    (h : Artifact.ofFileName? name = some artifact) (jobDir : String) :
    Twins AlikeButRecords (Matches fun result result' => result.1 = result'.1)
      (toolchain.artifactText jobDir artifact).run
      (toolchain.artifactText jobDir artifact).run := by
  unfold artifactText
  simp only
  split
  · have hread := not_isRecordPath_artifact h jobDir
    refine (Twins.work_readText _ fun _ _ alike => alike.resolve_left hread).work_bind ?_
    rintro text _ rfl
    exact Twins.work_pure rfl
  · unfold disassembleArtifact
    split
    · exact Twins.work_throw _
    · refine (Twins.work_runTool _ _ _ fun _ _ alike => alike).work_bind fun run run' hrun => ?_
      exact Twins.work_pure (toolText_fst hrun _)

/-- **The listing of an artifact**: its text, and then the demangler. -/
theorem keyedListing_twins {name : String} {artifact : Artifact}
    (h : Artifact.ofFileName? name = some artifact) (jobDir : String) (filters : Filters) :
    Twins AlikeButRecords
      (Matches fun entry entry' => entry.1 = entry'.1 ∧ entry.2.SameText entry'.2)
      (toolchain.keyedListing jobDir filters artifact).run
      (toolchain.keyedListing jobDir filters artifact).run := by
  have hlisting : Twins AlikeButRecords (Matches Listing.SameText)
      (toolchain.deviceListing jobDir filters artifact).run
      (toolchain.deviceListing jobDir filters artifact).run := by
    refine (artifactText_twins toolchain h jobDir).work_bind ?_
    rintro ⟨text, time⟩ ⟨_, time'⟩ rfl
    apply demangle_twins
    rfl
  exact hlisting.work_bind fun _ _ hsame => Twins.work_pure ⟨rfl, hsame⟩

/-- The artifacts in a directory are the same, whatever records are in it. -/
theorem ofDirectory_twins (jobDir : String) :
    Twins AlikeButRecords (Matches fun artifacts artifacts' => artifacts = artifacts' ∧
        ∃ names, artifacts = Artifact.ofNames names)
      (Artifact.ofDirectory jobDir).run (Artifact.ofDirectory jobDir).run := by
  refine (Twins.work_query _).work_bind fun answer answer' alike => ?_
  cases answer with
  | error cause =>
    cases answer' with
    | error cause' =>
      obtain rfl : cause = cause' := Except.error.inj alike
      exact Twins.work_throw _
    | ok names' => cases alike
  | ok names =>
    cases answer' with
    | error cause' => cases alike
    | ok names' => exact Twins.work_pure ⟨Artifact.ofNames_congr (Except.ok.inj alike), names, rfl⟩

theorem directoryListings_twins (jobDir : String) (filters : Filters) :
    Twins AlikeButRecords (Matches (Dict.Pointwise Listing.SameText))
      (toolchain.directoryListings jobDir filters).run
      (toolchain.directoryListings jobDir filters).run := by
  refine (ofDirectory_twins jobDir).work_bind ?_
  -- both machines have the same artifacts, so the crews have the same members
  rintro artifacts _ ⟨rfl, names, rfl⟩
  refine (Twins.work_crew _ fun member hmember => ?_).work_bind fun _ _ hlistings =>
    Twins.work_pure (Dict.Pointwise.ofList hlistings)
  -- each member is the listing of one artifact
  obtain ⟨artifact, hartifact, rfl⟩ := List.mem_map.mp hmember
  obtain ⟨name, -, hname⟩ := Artifact.mem_ofNames.mp hartifact
  exact keyedListing_twins toolchain hname jobDir filters

/-- **The device's side** shows the same listings. -/
theorem deviceBranch_twins (request : BuildRequest) (compiled : Compiled) :
    Twins AlikeButRecords (Matches (Dict.Pointwise Listing.SameText))
      (toolchain.deviceBranch request compiled) (toolchain.deviceBranch request compiled) := by
  rcases deviceBranch_eq toolchain request compiled with he | he
  · rw [he]
    exact directoryListings_twins toolchain compiled.jobDir request.filters
  · rw [he]
    exact .done (.ok .nil)

/-! ### The host's side -/

/-- What an external parser says of the assembly comes from its output alone. -/
theorem answer_matches (tools : ParserTools) {run run' : ToolResult} (h : run.SameRun run') :
    Matches (fun result result' => ParserResult.asm? result = result'.asm?) (tools.answer run)
      (tools.answer run') := by
  rw [h.eq]
  unfold ParserTools.answer
  simp only
  split
  · exact .ok ((ParserResult.asm?_merge _ _).trans (ParserResult.asm?_merge _ _).symm)
  · exact .error _
  · exact .error _

theorem parseDump_twins (tools : ParserTools) (jobDir : String) (args : List String)
    (filters : Filters) :
    Twins AlikeButRecords (Matches fun result result' => ParserResult.asm? result = result'.asm?)
      (toolchain.parseDump tools jobDir args filters).run
      (toolchain.parseDump tools jobDir args filters).run := by
  refine (Twins.work_writeText _ fun _ _ alike => alike).work_bind fun _ _ _ => ?_
  refine (Twins.work_runTool _ _ _ fun _ _ alike => alike).work_bind fun run run' hrun => ?_
  exact Twins.work_ofExcept (answer_matches _ hrun)

/-- The assembly of an object, whatever the time. -/
theorem disassemble_twins (object jobDir : String) (filters : Filters) (dialect : Dialect) :
    Twins AlikeButRecords (Matches fun result result' => result.1 = result'.1)
      (toolchain.disassemble object jobDir filters dialect).run
      (toolchain.disassemble object jobDir filters dialect).run := by
  unfold disassemble
  simp only
  split
  · refine (parseDump_twins toolchain _ _ _ _).work_bind fun _ _ hasm => Twins.work_pure ?_
    simp only [hasm]
  · split
    · exact Twins.work_throw _
    · refine (Twins.work_runTool _ _ _ fun _ _ alike => alike).work_bind fun run run' hrun => ?_
      exact Twins.work_pure (congrArg AsmOutput.text (toolText_fst hrun _))

/-- The output of the compiler is no record. -/
theorem writtenText_twins (jobDir : String) :
    Twins AlikeButRecords (Matches Eq) (writtenText (Path.join jobDir outputFileName)).run
      (writtenText (Path.join jobDir outputFileName)).run := by
  have houtput : ¬ IsRecordPath (Path.join jobDir outputFileName) :=
    not_isRecordPath (c := 's') (by decide) (by decide)
  refine (Twins.work_query _).work_bind fun answer answer' alike => ?_
  obtain rfl : answer = answer' := alike.resolve_left houtput
  split
  · exact Twins.work_pure rfl
  · exact Twins.work_pure rfl
  · exact Twins.work_throw _

/-- **The record can be anything**: its part of the host's side comes to some remarks. -/
theorem remarks_twins (recordPath : Option String) :
    Twins AlikeButRecords (fun _ _ => True) (remarks recordPath) (remarks recordPath) := by
  unfold remarks
  split
  · exact .done trivial
  · refine .ask _ fun answer answer' _ => ?_
    -- a record that cannot be read is no failure
    cases answer <;> cases answer' <;> exact .done trivial

/-- **The host's side** shows the same assembly. -/
theorem hostBranch_twins (request : BuildRequest) {compiled : Compiled} {jobDir : String}
    (houtput : compiled.outputPath = Path.join jobDir outputFileName) :
    Twins AlikeButRecords (Matches HostOutput.SameAsm) (toolchain.hostBranch request compiled)
      (toolchain.hostBranch request compiled) := by
  have hasm : Twins AlikeButRecords (Matches fun result result' => result.1 = result'.1)
      (toolchain.hostAsm compiled request.filters request.dialect).run
      (toolchain.hostAsm compiled request.filters request.dialect).run := by
    unfold hostAsm
    split
    · exact disassemble_twins toolchain _ _ _ _
    · rw [houtput]
      refine (writtenText_twins jobDir).work_bind ?_
      rintro asm _ rfl
      exact Twins.work_pure rfl
  -- of the two parts that are joined, only the assembly has to match
  refine ((remarks_twins compiled.recordPath).pair hasm).work_lift.work_bind ?_
  rintro ⟨remarks, asm⟩ ⟨remarks', asm'⟩ ⟨-, hasm⟩
  exact (Twins.work_ofExcept hasm).work_bind fun _ _ hsame => Twins.work_pure hsame

end Toolchain

end AsmInspect

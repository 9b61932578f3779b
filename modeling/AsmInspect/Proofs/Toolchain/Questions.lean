import AsmInspect.CompileJob
import AsmInspect.Proofs.Flow.Composable

/-!
# What jobs ask

A compile job asks for one run of its compiler while nothing else goes on. What it collects
afterwards, side by side, are runs of other tools and contents of files. So at no moment does one
job have more than one run of its compiler open, whatever the machine answers.

The parts of a job that have nothing beside them are gone through once, for any property of flows
that are put together; the questions among them are the only thing a property has to be checked
for.

## Main definitions

* `Query.isPrimary`: whether a question is a run of the compiler that a job is about
* `Query.isSideWork`: whether a question is about the text of a file, or a run of another tool
* `Toolchain.deviceCall`, `Toolchain.demanglerCall` and others: the runs of the other tools

## Main results

* `deviceListing_composable`: the listing of one artifact
* `collect_throughout`: what is collected side by side
* `compileJob_composable`: the whole job
* `compileJob_abreast`: the compiler runs alone
-/

namespace AsmInspect

/-- Whether a tool run is that of the compiler that a job is about. -/
def ToolCall.isPrimary (call : ToolCall) : Bool := call.options.stage == .primaryCompile

/-- Whether a question is a run of the compiler that a job is about. -/
def Query.isPrimary : Query → Bool
  | .runTool call => call.options.stage == .primaryCompile
  | _ => false

/-- Whether a question is about the text of a file, or a run of a tool other than the compiler. -/
def Query.isSideWork : Query → Bool
  | .readText _ | .writeText .. => true
  | .runTool call => call.options.stage != .primaryCompile
  | _ => false

theorem Query.isPrimary_of_isSideWork {query : Query} (h : query.isSideWork = true) :
    query.isPrimary = false := by
  cases query with
  | runTool call => simpa [isSideWork, isPrimary] using h
  | _ => rfl

namespace Toolchain

open AsmInspect.Flow

variable (toolchain : Toolchain)

/-! ### The tool runs of a job -/

/-- The run of the launcher, for the output of a compiler run. -/
def launcherCall (request : BuildRequest) (compiled : Compiled) : ToolCall :=
  { program := Path.join "." Launcher.fileName
    args := (Disassembler.objdumpArguments compiled.outputPath request.filters request.dialect).map
      toolchain.sandbox.maskPath
    options := { toolchain.parserOptions with cwd := some compiled.jobDir } }

/-- The run of a disassembler, for the output of a compiler run. -/
def objdumpCall (request : BuildRequest) (tool : String) (compiled : Compiled) : ToolCall :=
  { program := tool
    args := Disassembler.objdumpArguments compiled.outputPath request.filters request.dialect
    options := { toolchain.options .disassembly toolchain.limits.maxAsmSize with
      cwd := some compiled.jobDir } }

/-- The run of a disassembler for device code, for an artifact in a directory. -/
def deviceCall (tool dir : String) (artifact : Artifact) : ToolCall :=
  { program := tool
    args :=
      Disassembler.deviceArguments (Path.join dir artifact.fileName) toolchain.compiler.version
    options := { toolchain.options .disassembly toolchain.limits.maxAsmSize with cwd := some dir } }

/-- The run of a demangler, for a text. -/
def demanglerCall (tool text : String) : ToolCall :=
  { program := tool
    args := []
    options := { toolchain.options .disassembly toolchain.limits.maxAsmSize with
      input := some text } }

/-! ### Parts with nothing beside them -/

section Composable

variable {p : Property} (h : Composable p)
  (hq : ∀ query : Query, query.isSideWork = true → p (Flow.query query))

include hq

/-- A run of a tool for another stage than the compiler's. -/
theorem runTool_holds (program : String) (args : List String) {options : ToolOptions}
    (hs : options.stage ≠ .primaryCompile) : p (Work.runTool program args options).run :=
  hq (.runTool _) (by simpa [Query.isSideWork] using hs)

include h

theorem readText_composable (stage : Stage) (path : String) : p (Work.readText stage path).run :=
  h.work_readText stage (hq _ rfl)

theorem demangle_composable (listing : Listing) (filters : Filters) (demangler : Option String)
    (options : ToolOptions) : p (listing.demangle filters demangler options).run := by
  unfold Listing.demangle
  simp only
  split
  · exact h.work_pure _
  · split
    · exact h.work_bind (runTool_holds hq _ _ (by simp)) fun _ => h.work_pure _
    · exact h.work_pure _

theorem disassembleArtifact_composable (path jobDir : String) :
    p (toolchain.disassembleArtifact path jobDir).run := by
  unfold disassembleArtifact
  split
  · exact h.work_throw _
  · exact h.work_bind (runTool_holds hq _ _ (by simp [options])) fun _ => h.work_pure _

theorem artifactText_composable (jobDir : String) (artifact : Artifact) :
    p (toolchain.artifactText jobDir artifact).run := by
  unfold artifactText
  simp only
  split
  · exact h.work_bind (readText_composable h hq _ _) fun _ => h.work_pure _
  · exact disassembleArtifact_composable toolchain h hq _ _

/-- **The listing of one artifact**: its text, and then the demangler. -/
theorem deviceListing_composable (jobDir : String) (filters : Filters) (artifact : Artifact) :
    p (toolchain.deviceListing jobDir filters artifact).run :=
  h.work_bind (artifactText_composable toolchain h hq _ _) fun _ =>
    demangle_composable h hq _ _ _ _

theorem keyedListing_composable (jobDir : String) (filters : Filters) (artifact : Artifact) :
    p (toolchain.keyedListing jobDir filters artifact).run :=
  h.work_bind (deviceListing_composable toolchain h hq _ _ _) fun _ => h.work_pure _

theorem parseDump_composable (tools : ParserTools) (jobDir : String) (args : List String)
    (filters : Filters) : p (toolchain.parseDump tools jobDir args filters).run := by
  refine h.work_bind (h.work_writeText _ (hq _ rfl)) fun _ => ?_
  exact h.work_bind (runTool_holds hq _ _ (by simp [parserOptions, options])) fun _ =>
    h.work_ofExcept _

theorem disassemble_composable (object jobDir : String) (filters : Filters) (dialect : Dialect) :
    p (toolchain.disassemble object jobDir filters dialect).run := by
  unfold disassemble
  simp only
  split
  · exact h.work_bind (parseDump_composable toolchain h hq _ _ _ _) fun _ => h.work_pure _
  · split
    · exact h.work_throw _
    · exact h.work_bind (runTool_holds hq _ _ (by simp [options])) fun _ => h.work_pure _

theorem writtenText_composable (path : String) : p (writtenText path).run := by
  refine h.work_bind (h.work_query (hq _ rfl)) fun result => ?_
  split
  · exact h.work_pure _
  · exact h.work_pure _
  · exact h.work_throw _

theorem hostAsm_composable (compiled : Compiled) (filters : Filters) (dialect : Dialect) :
    p (toolchain.hostAsm compiled filters dialect).run := by
  unfold hostAsm
  split
  · exact disassemble_composable toolchain h hq _ _ _ _
  · exact h.work_bind (writtenText_composable h hq _) fun _ => h.work_pure _

/-- The remarks of a run, which cannot fail. -/
theorem remarks_composable (recordPath : Option String) : p (remarks recordPath) := by
  unfold remarks
  split
  · exact h.done _
  · refine h.bind (h.work_bind (readText_composable h hq _ _) fun _ => h.work_pure _)
      fun result => ?_
    split <;> exact h.done _

omit hq in
theorem listDirectory_composable {path : String} (hl : p (Flow.query (.listNames path))) :
    p (Artifact.ofDirectory path).run := by
  refine h.work_bind (h.work_query hl) fun result => ?_
  exact h.work_bind (h.work_orFail _ _ _) fun _ => h.work_pure _

end Composable

/-! ### Parts side by side -/

section Throughout

variable {asks : Query → Prop} {crews : CrewCondition}
  (ha : ∀ query : Query, query.isSideWork = true → asks query)

include ha

theorem query_throughout (crews : CrewCondition) (query : Query) (h : query.isSideWork = true) :
    (Flow.query query).Throughout asks crews := ⟨ha query h, fun _ => trivial⟩

theorem hostOutput_throughout (compiled : Compiled) (filters : Filters) (dialect : Dialect) :
    (toolchain.hostOutput compiled filters dialect).run.Throughout asks crews := by
  have hc := composable_throughout asks crews
  have hq := query_throughout ha crews
  have hpair : (Flow.pair (remarks compiled.recordPath)
      (toolchain.hostAsm compiled filters dialect).run).Throughout asks crews :=
    ⟨remarks_composable hc hq _, hostAsm_composable toolchain hc hq _ _ _, fun _ => trivial⟩
  refine hc.work_bind (hc.work_lift hpair) fun (remarks, asm) => ?_
  exact hc.work_bind (hc.work_ofExcept _) fun _ => hc.work_pure _

variable (hl : ∀ path, asks (.listNames path))
  (hcrew : ∀ {β : Type} {n : Nat} (members : Fin n → Flow (Except Failure β)),
    crews { free := toolchain.limits.maxDeviceTasks.toNat } members)

include hl hcrew

theorem directoryListings_throughout (jobDir : String) (filters : Filters) :
    (toolchain.directoryListings jobDir filters).run.Throughout asks crews := by
  have hc := composable_throughout asks crews
  have hq := query_throughout ha crews
  refine hc.work_bind (listDirectory_composable hc ⟨hl _, fun _ => trivial⟩) fun artifacts => ?_
  refine hc.work_bind ⟨hcrew _, fun i => ?_, fun _ => trivial⟩ fun _ => hc.work_pure _
  -- each member is the listing of one artifact
  simp only [List.get_eq_getElem, List.getElem_map]
  exact keyedListing_composable toolchain hc hq _ _ _

theorem deviceListings_throughout (run : ToolResult) (filters : Filters) :
    (toolchain.deviceListings run filters).run.Throughout asks crews := by
  unfold deviceListings
  split
  · exact directoryListings_throughout toolchain ha hl hcrew _ _
  · exact (composable_throughout asks crews).work_pure _

/-- **What is collected side by side** asks for no run of the compiler. -/
theorem collect_throughout (compiled : Compiled) (request : BuildRequest) :
    (toolchain.collect compiled request).run.Throughout asks crews := by
  have hc := composable_throughout asks crews
  refine hc.work_bind (hc.work_lift ⟨hostOutput_throughout toolchain ha _ _ _, ?_,
    fun _ => trivial⟩) fun (host, devices) => ?_
  · split
    · exact deviceListings_throughout toolchain ha hl hcrew _ _
    · exact hc.work_pure _
  · refine hc.work_bind (hc.work_ofExcept _) fun _ => ?_
    exact hc.work_bind (hc.work_ofExcept _) fun _ => hc.work_pure _

end Throughout

/-! ### The whole job -/

section Job

variable {p : Property} (h : Composable p) (request : BuildRequest)
  (hq : ∀ query : Query, (∀ path, query ≠ .listNames path) → p (Flow.query query))
  (hcollect : ∀ compiled, p (toolchain.collect compiled request).run)

include h hq hcollect

/-- **A job**: its own questions, none of which is about the names in a directory, and what it
collects. -/
theorem compileJob_composable : p (toolchain.compileJob request).run := by
  have hclock : p (Work.query .clock).run := h.work_query (hq _ (by simp))
  have henter (state : JobState) : p (enter state).run := h.work_query (hq _ (by simp))
  have hrun (program : String) (args : List String) (options : ToolOptions) :
      p (Work.runTool program args options).run := hq (.runTool _) (by simp)
  refine h.work_tryCatch ?_ fun failure => h.work_bind (henter _) fun _ => h.work_throw _
  -- the job up to the run of the compiler
  refine h.work_bind hclock fun started => ?_
  refine h.work_bind (h.work_query (hq _ (by simp))) fun answer => ?_
  refine h.work_bind (h.work_orFail _ _ _) fun jobDir => ?_
  refine h.work_bind (h.work_writeText _ (hq _ (by simp))) fun _ => ?_
  refine h.work_bind (henter _) fun _ => ?_
  refine h.work_bind (henter _) fun _ => ?_
  refine h.work_bind (hrun _ _ _) fun run => ?_
  simp only
  split
  · -- the compiler has rejected the source
    refine h.work_bind (henter _) fun _ => ?_
    refine h.work_bind hclock fun finished => ?_
    exact h.work_bind (henter _) fun _ => h.work_pure _
  · refine h.work_bind (henter _) fun _ => ?_
    refine h.work_bind (henter _) fun _ => ?_
    refine h.work_bind hclock fun collecting => ?_
    refine h.work_bind (hcollect _) fun (host, devices) => ?_
    refine h.work_bind hclock fun finished => ?_
    exact h.work_bind (henter _) fun _ => h.work_pure _

end Job

/-- **The compiler runs alone.** -/
theorem compileJob_abreast (request : BuildRequest) :
    (toolchain.compileJob request).run.Abreast (·.isPrimary = false) TidyCrew := by
  refine compileJob_composable toolchain (composable_abreast _ _) request
    (fun query _ _ => trivial) fun compiled => ?_
  exact (collect_throughout toolchain (fun _ => Query.isPrimary_of_isSideWork) (fun _ => rfl)
    (fun members i hi => by cases hi) compiled request).abreast

/-- A job has room for its artifacts, if there are places and no more than there can be. -/
theorem compileJob_roomy (request : BuildRequest)
    (hk : 1 ≤ toolchain.limits.maxDeviceTasks.toNat)
    (hmost : toolchain.limits.maxDeviceTasks.toNat ≤ Rota.mostPlaces) :
    (toolchain.compileJob request).run.Roomy := by
  refine compileJob_composable toolchain (composable_throughout _ _) request
    (fun query _ => ⟨trivial, fun _ => trivial⟩) fun compiled => ?_
  exact collect_throughout toolchain (fun _ _ => trivial) (fun _ => trivial)
    (fun members => roomyCrew_start members hk hmost) compiled request

end Toolchain

end AsmInspect

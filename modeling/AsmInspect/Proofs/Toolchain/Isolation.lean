import AsmInspect.Proofs.Listing.Notice
import AsmInspect.Proofs.Path
import AsmInspect.Proofs.Toolchain.Extraction

/-!
# The trouble of one artifact

An artifact that cannot be disassembled has a notice in place of its listing, and the listings of
the others are what they are without it. Two directories that differ in nothing but the answer of
the disassembler for one artifact have the same listings under all other keys, whatever the order in
which each of them is listed; and whatever the request says of the host's side, since device
listings do not depend on that.

## Main definitions

* `Same`: a flow comes to the same with two machines

## Main results

* `directoryListings_withHost`: what device listings do not depend on
* `ownListing_same`: an artifact whose own disassembler run is answered alike
* `ownListing_of_failed`: the listing of an artifact that cannot be disassembled
* `trouble_stays_with_artifact`: two directories that differ in one answer
-/

namespace AsmInspect

theorem Artifact.fileName_of_ofFileName? {name : String} {artifact : Artifact}
    (h : ofFileName? name = some artifact) : artifact.fileName = name := by
  obtain ⟨kind, -, rfl⟩ := Option.map_eq_some_iff.mp h
  rfl

/-- The name of an artifact ends as its kind says. -/
theorem Artifact.getLast?_fileName {name : String} {artifact : Artifact}
    (h : ofFileName? name = some artifact) :
    artifact.fileName.toList.getLast? = some 'x' ∨ artifact.fileName.toList.getLast? = some 'n' := by
  rw [fileName_of_ofFileName? h]
  obtain ⟨kind, hkind, -⟩ := Option.map_eq_some_iff.mp h
  unfold Kind.ofFileName? at hkind
  have hends {ending : Text} (hne : ending ≠ []) (hsuffix : ending.isSuffixOf name.toList = true) :
      name.toList.getLast? = ending.getLast? := by
    obtain ⟨front, hfront⟩ := List.isSuffixOf_iff_suffix.mp hsuffix
    rw [← hfront, List.getLast?_append_of_ne_nil _ hne]
  split at hkind
  case isTrue hsuffix => exact .inl (hends (by decide) hsuffix)
  case isFalse =>
    split at hkind
    case isTrue hsuffix => exact .inr (hends (by decide) hsuffix)
    case isFalse => cases hkind

namespace Toolchain

open AsmInspect.Flow

variable (toolchain : Toolchain) (jobDir : String) (filters : Filters)

/-- **Device listings do not depend on what is wanted of the host's side.** -/
theorem directoryListings_withHost (execute binary libraryCode : Bool) :
    toolchain.directoryListings jobDir { filters with execute, binary, libraryCode } =
      toolchain.directoryListings jobDir filters := rfl

/-! ### Two machines -/

/-- A flow comes to the same with two machines. -/
def Same (answers answers' : (query : Query) → query.Answer) : Property := fun flow =>
  flow.evaluate answers' = flow.evaluate answers

theorem composable_same (answers answers' : (query : Query) → query.Answer) :
    Composable (Same answers answers') where
  done _ := rfl
  bind {_ _ flow g} hflow hg := by
    unfold Same at *
    rw [evaluate_bind, evaluate_bind, hflow, hg]

section Two

variable {toolchain jobDir filters} {answers answers' : (query : Query) → query.Answer}
  {artifact other : Artifact} {tool : String}
  (hagree : ∀ query, query ≠ .runTool (toolchain.deviceCall tool jobDir artifact) →
    answers' query = answers query)

include hagree

theorem same_query {query : Query}
    (h : query ≠ .runTool (toolchain.deviceCall tool jobDir artifact)) :
    Same answers answers' (Flow.query query) := hagree query h

theorem demangle_same (listing : Listing) (filters : Filters) :
    Same answers answers' (listing.demangle filters toolchain.compiler.demangler
      (toolchain.options .disassembly toolchain.limits.maxAsmSize)).run := by
  have hc := composable_same answers answers'
  unfold Listing.demangle
  simp only
  split
  · exact hc.work_pure _
  · split
    · refine hc.work_bind (same_query hagree fun he => ?_) fun _ => hc.work_pure _
      -- a demangler has no arguments
      have hargs := congrArg ToolCall.args (Query.runTool.inj he)
      cases hargs
    · exact hc.work_pure _

theorem artifactText_same
    (hpath : Path.join jobDir other.fileName ≠ Path.join jobDir artifact.fileName) :
    Same answers answers' (toolchain.artifactText jobDir other).run := by
  have hc := composable_same answers answers'
  unfold artifactText
  simp only
  split
  · exact hc.work_bind (hc.work_readText _ (same_query hagree fun he => by cases he))
      fun _ => hc.work_pure _
  · unfold disassembleArtifact
    split
    · exact hc.work_throw _
    -- the run that may differ is one on the other path
    · refine hc.work_bind (same_query hagree fun he => hpath ?_) fun _ => hc.work_pure _
      have hargs := congrArg ToolCall.args (Query.runTool.inj he)
      exact (List.cons.inj hargs).1

/-- **The listing of another artifact** is the same. -/
theorem ownListing_same (hother : '/' ∉ other.fileName.toList)
    (hartifact : '/' ∉ artifact.fileName.toList) (hne : other.fileName ≠ artifact.fileName) :
    toolchain.ownListing jobDir filters answers' other =
      toolchain.ownListing jobDir filters answers other := by
  have hpath : Path.join jobDir other.fileName ≠ Path.join jobDir artifact.fileName :=
    fun he => hne (Path.join_injective hother hartifact he)
  exact (composable_same answers answers').work_bind (artifactText_same hagree hpath)
    fun _ => demangle_same hagree _ _

end Two

/-! ### An artifact that cannot be disassembled -/

section Failed

variable {toolchain jobDir filters} {answers : (query : Query) → query.Answer}
  {artifact : Artifact} {tool name : String} {failed : ToolResult}

theorem artifactText_of_failed (hkind : artifact.kind = .binaryMachineCode)
    (htool : toolchain.compiler.deviceDisassembler = some tool)
    (hfailed : answers (.runTool (toolchain.deviceCall tool jobDir artifact)) = .ok failed)
    (hcode : failed.code ≠ 0) :
    (toolchain.artifactText jobDir artifact).run.evaluate answers =
      .ok (Disassembler.noOutput tool failed.code, none) := by
  have htext : toolText tool failed = (Disassembler.noOutput tool failed.code, none) :=
    if_neg (by simpa [ToolResult.success] using hcode)
  unfold artifactText disassembleArtifact
  simp only [hkind, htool]
  have hcall : (Work.runTool tool
      (Disassembler.deviceArguments (Path.join jobDir artifact.fileName)
        toolchain.compiler.version)
      { toolchain.options .disassembly toolchain.limits.maxAsmSize with
        cwd := some jobDir }).run.evaluate answers = .ok failed := hfailed
  rw [evaluate_work_bind_ok hcall]
  exact congrArg Except.ok htext

/-- Nothing is demangled. -/
theorem demangle_eq {filters : Filters} {demangler : Option String}
    (hplain : demangler = none ∨ filters.demangle = false) (listing : Listing)
    (options : ToolOptions) : listing.demangle filters demangler options =
      pure { listing with okToCache := filters.demangle } := by
  unfold Listing.demangle
  cases demangler with
  | none => rfl
  | some tool =>
    have hoff : filters.demangle = false := hplain.resolve_left (by simp)
    simp [hoff]

/-- **The listing of an artifact that cannot be disassembled**, if nothing is demangled. -/
theorem ownListing_of_failed (hkind : artifact.kind = .binaryMachineCode)
    (htool : toolchain.compiler.deviceDisassembler = some tool)
    (hfailed : answers (.runTool (toolchain.deviceCall tool jobDir artifact)) = .ok failed)
    (hcode : failed.code ≠ 0) (hname : Path.fileName? tool = some name)
    (hblank : ∀ c ∈ name.toList, Text.isBlank c = false)
    (hplain : toolchain.compiler.demangler = none ∨ filters.demangle = false) :
    toolchain.ownListing jobDir filters answers artifact =
      .ok { lines := [{ text := s!"<No output: {name} returned {failed.code}>" }]
            okToCache := filters.demangle } := by
  have hnotice := (Disassembler.isNotice_noOutput hname hblank failed.code).ofText
    (filters.withBinary artifact.kind.isBinary)
  rw [String.ofList_toList] at hnotice
  have hshown : Disassembler.noOutput tool failed.code =
      s!"<No output: {name} returned {failed.code}>" := by
    unfold Disassembler.noOutput
    rw [hname]
    rfl
  have hplain' : toolchain.compiler.demangler = none ∨
      (filters.withBinary artifact.kind.isBinary).demangle = false := hplain
  rw [ownListing, deviceListing,
    evaluate_work_bind_ok (artifactText_of_failed hkind htool hfailed hcode)]
  dsimp only
  rw [demangle_eq hplain', hnotice, hshown]
  rfl

end Failed

/-! ### Two directories -/

section Directories

variable {toolchain jobDir filters} {answers : (query : Query) → query.Answer}
  {names : List String} {events : List Event} {listings : DeviceMap}

/-- What is found in the listings of a directory. -/
theorem listings_of_run (hlist : answers (.listNames jobDir) = .ok names)
    (hkeys : ((names.filterMap Artifact.ofFileName?).map (·.key)).Nodup)
    (hrun : Run (toolchain.directoryListings jobDir filters).run events (.done (.ok listings)))
    (ha : AnsweredBy answers events) :
    listings.keys.Perm ((Artifact.ofNames names).map (·.key)) ∧
      ∀ artifact ∈ Artifact.ofNames names, ∃ listing,
        toolchain.ownListing jobDir filters answers artifact = .ok listing ∧
          listings.get? artifact.key = some listing := by
  have hperm := (Artifact.perm_ofNames names).map (·.key)
  obtain ⟨later, hlater, halater⟩ := run_fanOut_of_done hlist hrun ha
  rcases fanOut_outcome hlater halater with ⟨values, entries, hvalues, hentries, he⟩ |
    ⟨i, failure, -, he⟩
  · obtain rfl := Except.ok.inj he
    have hnodup := hperm.nodup_iff.mpr hkeys
    rw [ofList_values hvalues hnodup hentries]
    exact listings_of_values hvalues hnodup
  · cases he

/-- A directory is listed if each of its artifacts can be, whatever the order. -/
theorem ok_of_ownListing (hlist : answers (.listNames jobDir) = .ok names)
    (hown : ∀ name ∈ names, ∀ artifact, Artifact.ofFileName? name = some artifact →
      ∃ listing, toolchain.ownListing jobDir filters answers artifact = .ok listing)
    {result : Except Failure DeviceMap}
    (hrun : Run (toolchain.directoryListings jobDir filters).run events (.done result))
    (ha : AnsweredBy answers events) : ∃ listings, result = .ok listings := by
  obtain ⟨later, hlater, halater⟩ := run_fanOut_of_done hlist hrun ha
  rcases fanOut_outcome hlater halater with ⟨values, entries, -, -, rfl⟩ | ⟨i, failure, hfails, -⟩
  · exact ⟨_, rfl⟩
  · obtain ⟨name, hname, he⟩ := Artifact.mem_ofNames.mp (List.get_mem (Artifact.ofNames names) i)
    obtain ⟨listing, hlisting⟩ := hown name hname _ he
    cases hlisting.symm.trans hfails

/-- A directory can be listed if each of its artifacts can. -/
theorem exists_listings (hlist : answers (.listNames jobDir) = .ok names)
    (hk : 1 ≤ toolchain.limits.maxDeviceTasks.toNat)
    (hmost : toolchain.limits.maxDeviceTasks.toNat ≤ Rota.mostPlaces)
    (hown : ∀ name ∈ names, ∀ artifact, Artifact.ofFileName? name = some artifact →
      ∃ listing, toolchain.ownListing jobDir filters answers artifact = .ok listing) :
    ∃ events listings,
      Run (toolchain.directoryListings jobDir filters).run events (.done (.ok listings)) ∧
        AnsweredBy answers events := by
  obtain ⟨events, result, hrun, ha⟩ := exists_end_of_run answers hk hmost
    (.refl (toolchain.directoryListings jobDir filters).run)
  obtain ⟨listings, rfl⟩ := ok_of_ownListing hlist hown hrun ha
  exact ⟨events, listings, hrun, ha⟩

end Directories

/-- **The trouble of an artifact stays with it.** Two listings of one directory, on machines that
answer alike but for the disassembler, which fails on one artifact on the second: whatever the order
and whatever is wanted of the host's side, all other entries are the same. If nothing is demangled,
the entry of the artifact is the notice that the disassembler has failed, whatever the filters.

The names in a directory have no slashes, so that no file is reached under the name of another. -/
theorem trouble_stays_with_artifact (toolchain : Toolchain) (jobDir : String) (filters : Filters)
    (execute binary libraryCode : Bool) (answers answers' : (query : Query) → query.Answer)
    (names : List String) (artifact : Artifact) (tool : String) (failed : ToolResult)
    (events events' : List Event) (listings listings' : DeviceMap)
    (hnames : ∀ name ∈ names, '/' ∉ name.toList)
    (hkeys : ((names.filterMap Artifact.ofFileName?).map (·.key)).Nodup)
    (hmem : ∃ name ∈ names, Artifact.ofFileName? name = some artifact)
    (hkind : artifact.kind = .binaryMachineCode)
    (htool : toolchain.compiler.deviceDisassembler = some tool)
    (hlist : answers (.listNames jobDir) = .ok names)
    (hagree : ∀ query, query ≠ .runTool (toolchain.deviceCall tool jobDir artifact) →
      answers' query = answers query)
    (hfailed : answers' (.runTool (toolchain.deviceCall tool jobDir artifact)) = .ok failed)
    (hcode : failed.code ≠ 0)
    (hrun : Run (toolchain.directoryListings jobDir filters).run events (.done (.ok listings)))
    (ha : AnsweredBy answers events)
    (hrun' : Run (toolchain.directoryListings jobDir
      { filters with execute, binary, libraryCode }).run events' (.done (.ok listings')))
    (ha' : AnsweredBy answers' events') :
    (∀ key, key ≠ artifact.key → listings'.get? key = listings.get? key) ∧
    ∀ name, Path.fileName? tool = some name → (∀ c ∈ name.toList, Text.isBlank c = false) →
      (toolchain.compiler.demangler = none ∨ filters.demangle = false) →
      listings'.get? artifact.key = some
        { lines := [{ text := s!"<No output: {name} returned {failed.code}>", source := none }]
          labelDefinitions := {}
          okToCache := filters.demangle
          objdumpTimeMs := none } := by
  have hlist' : answers' (.listNames jobDir) = .ok names := by
    rw [hagree _ (by simp), hlist]
  rw [directoryListings_withHost] at hrun'
  obtain ⟨hnames₁, hfound⟩ := listings_of_run hlist hkeys hrun ha
  obtain ⟨hnames₂, hfound'⟩ := listings_of_run hlist' hkeys hrun' ha'
  have hartifact : artifact ∈ Artifact.ofNames names := Artifact.mem_ofNames.mpr hmem
  constructor
  · intro key hkey
    by_cases hsome : key ∈ (Artifact.ofNames names).map (·.key)
    case neg =>
      rw [Dict.get?_eq_none fun h => hsome (hnames₁.mem_iff.mp h),
        Dict.get?_eq_none fun h => hsome (hnames₂.mem_iff.mp h)]
    case pos =>
      -- another artifact has the key
      obtain ⟨other, hother, rfl⟩ := List.mem_map.mp hsome
      obtain ⟨listing, hown, hget⟩ := hfound other hother
      obtain ⟨listing', hown', hget'⟩ := hfound' other hother
      obtain ⟨name, hname, hartifact_of⟩ := hmem
      obtain ⟨name', hname', hother_of⟩ := Artifact.mem_ofNames.mp hother
      have hne : other.fileName ≠ artifact.fileName := by
        rw [Artifact.fileName_of_ofFileName? hartifact_of,
          Artifact.fileName_of_ofFileName? hother_of]
        rintro rfl
        exact hkey (congrArg _ (Option.some.inj (hother_of.symm.trans hartifact_of)))
      have hsame : toolchain.ownListing jobDir filters answers' other =
          toolchain.ownListing jobDir filters answers other :=
        ownListing_same hagree (Artifact.fileName_of_ofFileName? hother_of ▸ hnames name' hname')
          (Artifact.fileName_of_ofFileName? hartifact_of ▸ hnames name hname) hne
      rw [hget, hget', ← Except.ok.inj (hown'.symm.trans (hsame.trans hown))]
  · intro name hname hblank hplain
    obtain ⟨listing, hown, hget⟩ := hfound' artifact hartifact
    rw [ownListing_of_failed hkind htool hfailed hcode hname hblank hplain] at hown
    rw [hget, ← Except.ok.inj hown]

/-- A compiler for device code with a disassembler. -/
def disassemblingNvcc : Toolchain :=
  { plainNvcc with
    compiler := { plainNvcc.compiler with deviceDisassembler := some "nvdisasm" } }

/-- A machine on which one run of a tool fails. -/
def failingOn (call : ToolCall) (answers : (query : Query) → query.Answer) :
    (query : Query) → query.Answer
  | .runTool other => if other = call then .ok { code := 1 } else answers (.runTool other)
  | query => answers query

theorem failingOn_of_ne {call : ToolCall} {answers : (query : Query) → query.Answer}
    {query : Query} (h : query ≠ .runTool call) : failingOn call answers query = answers query := by
  cases query with
  | runTool other => exact if_neg fun he => h (congrArg _ he)
  | _ => rfl

/-- Machine code that cannot be disassembled, beside a text. -/
theorem trouble_stays_with_artifact_two_files :
    ∃ listings listings' : DeviceMap,
      listings'.get? "PTX" = listings.get? "PTX" ∧
      listings'.get? "SASS (sm_80)" =
        some { lines := [{ text := "<No output: nvdisasm returned 1>" }] } := by
  let names := ["a.ptx", "a.sm_80.cubin"]
  let text : Artifact := { fileName := "a.ptx", kind := .intermediateText, target := "" }
  let code : Artifact :=
    { fileName := "a.sm_80.cubin", kind := .binaryMachineCode, target := "sm_80" }
  have htext : Artifact.ofFileName? "a.ptx" = some text := by decide
  have hcode : Artifact.ofFileName? "a.sm_80.cubin" = some code := by decide
  let call := disassemblingNvcc.deviceCall "nvdisasm" "job" code
  have hword : Text.IsWord "nvdisasm".toList := by decide
  have hfailed : failingOn call (quiet names) (.runTool call) = .ok { code := 1 } := if_pos rfl
  have hpair {P : Artifact → Prop} (htext' : P text) (hcode' : P code) :
      ∀ name ∈ names, ∀ artifact, Artifact.ofFileName? name = some artifact → P artifact := by
    intro name hname artifact he
    rcases List.mem_pair.mp hname with rfl | rfl
    · exact Option.some.inj (htext.symm.trans he) ▸ htext'
    · exact Option.some.inj (hcode.symm.trans he) ▸ hcode'
  have hlisted : ∃ events listings,
      Run (disassemblingNvcc.directoryListings "job" {}).run events (.done (.ok listings)) ∧
        AnsweredBy (quiet names) events :=
    exists_listings rfl (by decide) (by decide) (hpair ⟨_, rfl⟩ ⟨_, rfl⟩)
  have hlisted' : ∃ events listings,
      Run (disassemblingNvcc.directoryListings "job" { execute := true, binary := true }).run events
        (.done (.ok listings)) ∧ AnsweredBy (failingOn call (quiet names)) events :=
    exists_listings rfl (by decide) (by decide) (hpair ⟨_, rfl⟩
      ⟨_, ownListing_of_failed rfl rfl hfailed (by decide) rfl hword.noBlank (.inl rfl)⟩)
  obtain ⟨events, listings, hrun, ha⟩ := hlisted
  obtain ⟨events', listings', hrun', ha'⟩ := hlisted'
  obtain ⟨hothers, hown⟩ := trouble_stays_with_artifact disassemblingNvcc "job" {} true true false
    (quiet names) (failingOn call (quiet names)) names code "nvdisasm" { code := 1 } events events'
    listings listings' (by decide) (by decide) ⟨_, by decide, hcode⟩ rfl rfl rfl
    (fun _ => failingOn_of_ne) hfailed (by decide) hrun ha hrun' ha'
  exact ⟨listings, listings', hothers _ (by decide), hown "nvdisasm" rfl hword.noBlank (.inl rfl)⟩

end Toolchain

end AsmInspect

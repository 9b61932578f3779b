import AsmInspect.Proofs.Dict
import AsmInspect.Proofs.Toolchain.FanOut

/-!
# The listings of a directory do not depend on the order

When every question has one answer, whoever asks it and whenever, the artifacts of a directory come
to the same listings in any order. Each artifact has the listing that it has when it is listed
alone, and it is found under the artifact's own key. If some artifact cannot be listed, there are
no listings at all, but the failure of one of those that cannot.

Which failure that is does depend on the order: it is the one that is noticed first. So does the
listing that is found under a key that several artifacts have: it is that of the last one to end.

## Main definitions

* `Artifact.hasEnding`: whether a file name ends like that of an artifact
* `ownListing`: the listing of an artifact when nothing goes on beside it

## Main results

* `fanOut_outcome`: what the crew comes to, whatever the order
* `listing_of_last`: which of the artifacts with one key is listed
* `extraction_deterministic`: nothing is lost, listed twice or mixed up
* `extraction_crashes`: with more places than there can be there are no listings
-/

namespace AsmInspect

open AsmInspect.Flow

namespace Artifact

/-- Whether a file name ends like that of an artifact. -/
def hasEnding (name : String) : Bool :=
  ".ptx".toList.isSuffixOf name.toList || ".cubin".toList.isSuffixOf name.toList

theorem ofFileName?_isSome (name : String) : (ofFileName? name).isSome = hasEnding name := by
  unfold ofFileName? Kind.ofFileName? hasEnding
  cases h : ".ptx".toList.isSuffixOf name.toList with
  | true => simp
  | false => cases h' : ".cubin".toList.isSuffixOf name.toList <;> simp

/-- One artifact for each file name with such an ending. -/
theorem length_filterMap_ofFileName? (names : List String) :
    (names.filterMap ofFileName?).length = (names.filter hasEnding).length := by
  rw [← List.countP_eq_length_filter, List.length_filterMap_eq_countP]
  simp only [ofFileName?_isSome]

end Artifact

namespace Toolchain

variable (toolchain : Toolchain) (jobDir : String) (filters : Filters)
  (answers : (query : Query) → query.Answer)

/-- The listing of an artifact when nothing goes on beside it. -/
def ownListing (artifact : Artifact) : Except Failure Listing :=
  (toolchain.deviceListing jobDir filters artifact).run.evaluate answers

theorem evaluate_listers {artifacts : List Artifact} (i : Fin artifacts.length) :
    (toolchain.listers jobDir filters artifacts i).evaluate answers =
      (toolchain.ownListing jobDir filters answers (artifacts.get i)).map fun listing =>
        ((artifacts.get i).key, listing) := by
  rw [listers, keyedListing_run_eq, evaluate_bind]
  rfl

variable {toolchain jobDir filters answers} {artifacts : List Artifact} {names : List String}

/-- The listings of a crew that does not fail, under the keys of the artifacts. -/
theorem ownListing_of_values {values : Fin artifacts.length → String × Listing}
    (h : ∀ i, (toolchain.listers jobDir filters artifacts i).evaluate answers = .ok (values i))
    (i : Fin artifacts.length) : (values i).1 = (artifacts.get i).key ∧
      toolchain.ownListing jobDir filters answers (artifacts.get i) = .ok (values i).2 := by
  have hi := h i
  rw [evaluate_listers] at hi
  cases hown : toolchain.ownListing jobDir filters answers (artifacts.get i) with
  | error failure =>
    rw [hown] at hi
    cases hi
  | ok listing =>
    rw [hown] at hi
    have hvalue : ((artifacts.get i).key, listing) = values i := Except.ok.inj hi
    rw [← hvalue]
    exact ⟨rfl, rfl⟩

/-- **What the crew comes to**, whatever the order: the listings of all artifacts in some order, if
each has one, and otherwise the failure of one that has none. -/
theorem fanOut_outcome {events : List Event} {result : Except Failure DeviceMap}
    (hrun : Run (toolchain.fanOut jobDir filters artifacts) events (.done result))
    (ha : AnsweredBy answers events) :
    (∃ (values : Fin artifacts.length → String × Listing) (entries : List (String × Listing)),
      (∀ i, (toolchain.listers jobDir filters artifacts i).evaluate answers = .ok (values i)) ∧
        entries.Perm (List.ofFn values) ∧ result = .ok (Dict.ofList entries)) ∨
      ∃ i failure, toolchain.ownListing jobDir filters answers (artifacts.get i) =
        .error failure ∧ result = .error failure := by
  obtain ⟨later, results, hlater, -, hresults⟩ := crew_outcome listers_sequential hrun ha
  obtain ⟨-, he⟩ := Run.of_done hlater
  obtain rfl : result = results.map Dict.ofList := Flow.done.inj he
  rcases hresults with ⟨values, entries, hvalues, hentries, rfl⟩ | ⟨i, failure, hi, rfl⟩
  · exact .inl ⟨values, entries, hvalues, hentries, rfl⟩
  · refine .inr ⟨i, failure, ?_, rfl⟩
    rw [evaluate_listers] at hi
    cases hown : toolchain.ownListing jobDir filters answers (artifacts.get i) with
    | error failure' =>
      rw [hown] at hi
      exact congrArg _ (Except.error.inj hi)
    | ok listing =>
      rw [hown] at hi
      cases hi

/-- The names of the entries of a crew are the keys of the artifacts. -/
theorem map_fst_ofFn {values : Fin artifacts.length → String × Listing}
    (h : ∀ i, (values i).1 = (artifacts.get i).key) :
    (List.ofFn values).map (·.1) = artifacts.map (·.key) := by
  rw [List.map_ofFn]
  conv_rhs => rw [← List.ofFn_get artifacts, List.map_ofFn]
  congr 1
  funext i
  exact h i

/-- Listings under different keys are the same in any order. -/
theorem ofList_values {values : Fin artifacts.length → String × Listing}
    (h : ∀ i, (toolchain.listers jobDir filters artifacts i).evaluate answers = .ok (values i))
    (hkeys : (artifacts.map (·.key)).Nodup) {entries : List (String × Listing)}
    (hentries : entries.Perm (List.ofFn values)) :
    Dict.ofList entries = Dict.ofList (List.ofFn values) := by
  have hnames := map_fst_ofFn fun i => (ownListing_of_values h i).1
  have hnodup : ((List.ofFn values).map (·.1)).Nodup := hnames ▸ hkeys
  exact (Dict.ofList_eq_of_perm hentries.symm hnodup).symm

/-- Nothing is found under a key that no entry has. -/
theorem get?_ofList_eq_none {entries : List (String × Listing)} {key : String}
    (h : ∀ entry ∈ entries, entry.1 ≠ key) : (Dict.ofList entries).get? key = none := by
  refine Dict.get?_eq_none fun hkey => ?_
  obtain ⟨entry, hentry, rfl⟩ := List.mem_map.mp hkey
  exact h entry (Dict.mem_of_mem_ofList hentry) rfl

/-- **Of artifacts with one key the one that ends last is listed.** -/
theorem listing_of_last {events : List Event} {listings : DeviceMap}
    (hrun : Run (toolchain.fanOut jobDir filters artifacts) events (.done (.ok listings)))
    {i : Fin artifacts.length} {before after : List Nat}
    (horder : endings events = before ++ i.val :: after)
    (hlast : ∀ j : Fin artifacts.length, j.val ∈ after →
      (artifacts.get j).key ≠ (artifacts.get i).key) :
    ∃ inner listing, eventsAt i events = ([], .begins) :: inner ++ [([], .ends none)] ∧
      Run (toolchain.deviceListing jobDir filters (artifacts.get i)).run inner
        (.done (.ok listing)) ∧
      listings.get? (artifacts.get i).key = some listing := by
  obtain ⟨rota, current, hunder, he | ⟨results, hout, he⟩⟩ := fanOut_run hrun
  · cases he
  · cases hout with
    | one => cases he
    | all values finished ended =>
      obtain rfl : listings = Dict.ofList (rota.finishers.map values) :=
        Except.ok.inj (Flow.done.inj he)
      have hkey (j) : (values j).1 = (artifacts.get j).key := by
        obtain ⟨-, listing, hentry, -⟩ := served_of_finished hunder (finished j) (ended j)
        rw [hentry]
      -- the members stand in the order in which they ended, so `i` has its place among them
      have hover := hunder.order.trans horder
      obtain ⟨front, back, hsplit, -, hback⟩ := List.map_eq_append_iff.mp hover
      obtain ⟨member, later, rfl, hmember, hlater⟩ := List.map_eq_cons_iff.mp hback
      obtain rfl := Fin.ext hmember
      have hnone : (Dict.ofList (later.map values)).get? (artifacts.get member).key = none := by
        refine get?_ofList_eq_none fun entry hentry => ?_
        obtain ⟨j, hj, rfl⟩ := List.mem_map.mp hentry
        rw [hkey]
        exact hlast j (hlater ▸ List.mem_map_of_mem hj)
      obtain ⟨inner, listing, hentry, hevents, hlisting⟩ :=
        served_of_finished hunder (finished member) (ended member)
      refine ⟨inner, listing, hevents, hlisting, ?_⟩
      rw [hsplit, List.map_append, List.map_cons, Dict.get?_ofList_append, Dict.get?_ofList_cons,
        hnone, hentry, if_pos rfl]
      rfl

/-- What is found in the listings of a crew that does not fail. -/
theorem listings_of_values {values : Fin artifacts.length → String × Listing}
    (h : ∀ i, (toolchain.listers jobDir filters artifacts i).evaluate answers = .ok (values i))
    (hkeys : (artifacts.map (·.key)).Nodup) :
    (Dict.ofList (List.ofFn values)).keys.Perm (artifacts.map (·.key)) ∧
      ∀ artifact ∈ artifacts, ∃ listing,
        toolchain.ownListing jobDir filters answers artifact = .ok listing ∧
          (Dict.ofList (List.ofFn values)).get? artifact.key = some listing := by
  have hnames : (List.ofFn values).map (·.1) = artifacts.map (·.key) :=
    map_fst_ofFn fun i => (ownListing_of_values h i).1
  have hnodup : ((List.ofFn values).map (·.1)).Nodup := hnames ▸ hkeys
  refine ⟨hnames ▸ Dict.keys_ofList hnodup, fun artifact hmem => ?_⟩
  obtain ⟨i, rfl⟩ := List.get_of_mem hmem
  obtain ⟨hkey, hown⟩ := ownListing_of_values h i
  refine ⟨(values i).2, hown, ?_⟩
  rw [← hkey]
  exact Dict.get?_ofList hnodup (List.mem_ofFn.mpr ⟨i, rfl⟩)

/-- A run to the end begins with the names in the directory. -/
theorem exists_listed_of_done (hlist : answers (.listNames jobDir) = .ok names)
    {events : List Event} {result : Except Failure DeviceMap}
    (hrun : Run (toolchain.directoryListings jobDir filters).run events (.done result))
    (ha : AnsweredBy answers events) :
    ∃ later, events = ([], .answered (.listNames jobDir) (.ok names)) :: later := by
  rw [directoryListings_run_eq] at hrun
  obtain ⟨answer, later, rfl, -⟩ := hrun.of_ask
  obtain rfl : answer = .ok names := by
    rw [← hlist]
    exact ha [] _ _ (List.mem_cons_self ..)
  exact ⟨later, rfl⟩

/-- A run that begins with the names in a directory goes on with the listings of its artifacts. -/
theorem run_fanOut_of_done (hlist : answers (.listNames jobDir) = .ok names) {events : List Event}
    {result : Except Failure DeviceMap}
    (hrun : Run (toolchain.directoryListings jobDir filters).run events (.done result))
    (ha : AnsweredBy answers events) :
    ∃ later, Run (toolchain.fanOut jobDir filters (Artifact.ofNames names)) later (.done result) ∧
      AnsweredBy answers later := by
  obtain ⟨later, rfl⟩ := exists_listed_of_done hlist hrun ha
  exact ⟨later, run_listed_iff.mp hrun, (answeredBy_cons.mp ha).2⟩

/-- The result when one artifact comes after the other. -/
theorem evaluate_directoryListings (hlist : answers (.listNames jobDir) = .ok names) :
    (toolchain.directoryListings jobDir filters).run.evaluate answers =
      (together (List.ofFn fun i =>
        (toolchain.listers jobDir filters (Artifact.ofNames names) i).evaluate answers)).map
          Dict.ofList := by
  rw [directoryListings_run_eq, evaluate, hlist]
  rfl

/-- If some artifact cannot be listed, then not all can be listed one after the other. -/
theorem evaluate_of_failure (hlist : answers (.listNames jobDir) = .ok names)
    {i : Fin (Artifact.ofNames names).length} {failure : Failure}
    (h : toolchain.ownListing jobDir filters answers ((Artifact.ofNames names).get i) =
      .error failure) :
    ∃ first, (toolchain.directoryListings jobDir filters).run.evaluate answers = .error first := by
  have hi : (toolchain.listers jobDir filters (Artifact.ofNames names) i).evaluate answers =
      .error failure := by
    rw [evaluate_listers, h]
    rfl
  obtain ⟨first, hfirst⟩ := together_error (fun i =>
    (toolchain.listers jobDir filters (Artifact.ofNames names) i).evaluate answers) hi
  refine ⟨first, ?_⟩
  rw [evaluate_directoryListings hlist, hfirst]
  rfl

/-- **The listings of a directory do not depend on the order.** Every run comes to an end. If each
artifact can be listed alone, the result is the same for all orders: there is one entry for each
file with an ending of artifacts, under the key of that file, with the listing that the file has
alone. If some artifact cannot be listed, the result is the failure of one of these. -/
theorem extraction_deterministic (toolchain : Toolchain) (jobDir : String) (filters : Filters)
    (answers : (query : Query) → query.Answer) (names : List String)
    (hlist : answers (.listNames jobDir) = .ok names)
    (hkeys : ((names.filterMap Artifact.ofFileName?).map (·.key)).Nodup)
    (hk : 1 ≤ toolchain.limits.maxDeviceTasks.toNat)
    (hmost : toolchain.limits.maxDeviceTasks.toNat ≤ Rota.mostPlaces) :
    let flow := (toolchain.directoryListings jobDir filters).run
    let own := toolchain.ownListing jobDir filters answers
    (Acc Leads flow ∧ ∀ events flow', Run flow events flow' →
      ∃ more result, Run flow' more (.done result) ∧ AnsweredBy answers more) ∧
    ∀ events result, Run flow events (.done result) → AnsweredBy answers events →
      ((∃ listings, result = .ok listings) ↔ ∀ name ∈ names, ∀ artifact,
        Artifact.ofFileName? name = some artifact → ∃ listing, own artifact = .ok listing) ∧
      (∀ listings, result = .ok listings ↔ flow.evaluate answers = .ok listings) ∧
      (∀ listings, result = .ok listings →
        listings.size = (names.filter Artifact.hasEnding).length ∧
        listings.keys.Perm ((names.filterMap Artifact.ofFileName?).map (·.key)) ∧
        ∀ name ∈ names, ∀ artifact, Artifact.ofFileName? name = some artifact →
          ∃ listing, own artifact = .ok listing ∧
            listings.get? artifact.key = some listing) ∧
      ∀ failure, result = .error failure → ∃ name ∈ names, ∃ artifact,
        Artifact.ofFileName? name = some artifact ∧ own artifact = .error failure := by
  intro flow own
  refine ⟨⟨acc_step flow, fun events flow' hrun => exists_end_of_run answers hk hmost hrun⟩, ?_⟩
  intro events result hrun ha
  obtain ⟨later, hlater, halater⟩ := run_fanOut_of_done hlist hrun ha
  have hperm := (Artifact.perm_ofNames names).map (·.key)
  rcases fanOut_outcome hlater halater with ⟨values, entries, hvalues, hentries, rfl⟩ |
    ⟨i, failure, hi, rfl⟩
  -- each artifact has a listing alone, and no two have one key, so the order does not show
  · rw [ofList_values hvalues (hperm.nodup_iff.mpr hkeys) hentries]
    obtain ⟨hnames, hfound⟩ := listings_of_values hvalues (hperm.nodup_iff.mpr hkeys)
    have hfiles : ∀ name ∈ names, ∀ artifact, Artifact.ofFileName? name = some artifact →
        ∃ listing, own artifact = .ok listing ∧
          (Dict.ofList (List.ofFn values)).get? artifact.key = some listing :=
      fun name hname artifact he => hfound artifact (Artifact.mem_ofNames.mpr ⟨name, hname, he⟩)
    refine ⟨⟨fun _ name hname artifact he => ?_, fun _ => ⟨_, rfl⟩⟩, fun listings => ?_, ?_, ?_⟩
    · obtain ⟨listing, hlisting, -⟩ := hfiles name hname artifact he
      exact ⟨listing, hlisting⟩
    · rw [evaluate_directoryListings hlist, together_ok hvalues]
      rfl
    · intro listings hlistings
      obtain rfl := Except.ok.inj hlistings
      refine ⟨?_, hnames.trans hperm, hfiles⟩
      have hsize := (hnames.trans hperm).length_eq
      rw [Dict.keys, List.length_map, List.length_map] at hsize
      rw [Dict.size, hsize, Artifact.length_filterMap_ofFileName?]
    · intro failure he
      cases he
  -- some artifact has none, and its failure is the result
  · obtain ⟨name, hname, he⟩ := Artifact.mem_ofNames.mp (List.get_mem (Artifact.ofNames names) i)
    obtain ⟨first, hfirst⟩ := evaluate_of_failure hlist hi
    refine ⟨⟨fun ⟨listings, h⟩ => ?_, fun hall => ?_⟩, fun listings => ?_, fun listings h => ?_, ?_⟩
    · cases h
    · obtain ⟨listing, hlisting⟩ := hall name hname _ he
      cases hi.symm.trans hlisting
    · rw [hfirst]
      constructor <;> intro h <;> cases h
    · cases h
    · rintro failure' h
      obtain rfl := Except.error.inj h
      exact ⟨name, hname, _, he, hi⟩

/-- The names of two texts with different keys. -/
def twoTexts : List String := ["a.ptx", "a.sm_80.ptx"]

/-- Texts that are empty have listings of their own. -/
theorem ownListing_twoTexts {toolchain : Toolchain}
    (hcompiler : toolchain.compiler = plainNvcc.compiler) :
    ∀ name ∈ twoTexts, ∀ artifact, Artifact.ofFileName? name = some artifact →
      ∃ listing, toolchain.ownListing "job" {} (quiet twoTexts) artifact = .ok listing := by
  have hall : ∀ name ∈ twoTexts,
      (Artifact.ofFileName? name).all (·.kind = .intermediateText) = true := by decide
  intro name hname artifact he
  have hkind := hall name hname
  obtain ⟨fileName, kind, target⟩ := artifact
  obtain ⟨compiler, limits, sandbox, parser⟩ := toolchain
  rw [he] at hkind
  obtain rfl : kind = .intermediateText := of_decide_eq_true hkind
  obtain rfl : compiler = plainNvcc.compiler := hcompiler
  exact ⟨_, rfl⟩

/-- Two artifacts with different keys are both listed; if one of them is code that no disassembler
is configured for, the failure is all there is, though the other has a listing. -/
theorem extraction_of_two_files :
    (∃ events listings,
      Run (plainNvcc.directoryListings "job" {}).run events (.done (.ok listings)) ∧
        listings.size = 2 ∧ listings.keys.Perm ["PTX", "PTX (sm_80)"]) ∧
    ∃ events,
      Run (plainNvcc.directoryListings "job" {}).run events (.done (.error
        (.config "compiler 'nvcc' has no device disassembler configured"))) ∧
      ∃ listing, plainNvcc.ownListing "job" {} (quiet ["a.ptx", "a.sm_80.cubin"])
        { fileName := "a.ptx", kind := .intermediateText, target := "" } = .ok listing := by
  constructor
  · obtain ⟨⟨-, hends⟩, hall⟩ := extraction_deterministic plainNvcc "job" {} (quiet twoTexts)
      twoTexts rfl (by decide) (by decide) (by decide)
    obtain ⟨events, result, hrun, ha⟩ := hends [] _ (.refl _)
    obtain ⟨hok, -, hlistings, -⟩ := hall events result hrun ha
    obtain ⟨listings, rfl⟩ := hok.mpr (ownListing_twoTexts rfl)
    obtain ⟨hsize, hkeys, -⟩ := hlistings listings rfl
    exact ⟨events, listings, hrun, hsize.trans (by decide), hkeys.trans (by decide)⟩
  · let names := ["a.ptx", "a.sm_80.cubin"]
    let text : Artifact := { fileName := "a.ptx", kind := .intermediateText, target := "" }
    let code : Artifact :=
      { fileName := "a.sm_80.cubin", kind := .binaryMachineCode, target := "sm_80" }
    have htext : Artifact.ofFileName? "a.ptx" = some text := by decide
    have hcode : Artifact.ofFileName? "a.sm_80.cubin" = some code := by decide
    have hlisting : ∃ listing, plainNvcc.ownListing "job" {} (quiet names) text = .ok listing :=
      ⟨_, rfl⟩
    obtain ⟨⟨-, hends⟩, hall⟩ := extraction_deterministic plainNvcc "job" {} (quiet names) names rfl
      (by decide) (by decide) (by decide)
    obtain ⟨events, result, hrun, ha⟩ := hends [] _ (.refl _)
    obtain ⟨hok, -, -, hfails⟩ := hall events result hrun ha
    cases result with
    | ok listings =>
      obtain ⟨listing, hown⟩ := hok.mp ⟨listings, rfl⟩ "a.sm_80.cubin" (by decide) code hcode
      cases hown
    | error failure =>
      obtain ⟨name, hname, artifact, he, hown⟩ := hfails failure rfl
      rcases List.mem_pair.mp hname with rfl | rfl
      -- the failure is not that of the text
      · obtain rfl := Option.some.inj (htext.symm.trans he)
        obtain ⟨listing, hlisting⟩ := hlisting
        cases hlisting.symm.trans hown
      · obtain rfl := Option.some.inj (hcode.symm.trans he)
        obtain rfl := Except.error.inj hown
        exact ⟨events, hrun, hlisting⟩

/-- With one place more than there can be, two artifacts with different keys are not listed, though
each of them has a listing when it is listed alone: once the directory is listed the job has
crashed. -/
theorem extraction_crashes :
    1 ≤ crowdedNvcc.limits.maxDeviceTasks.toNat ∧
    ((twoTexts.filterMap Artifact.ofFileName?).map (·.key)).Nodup ∧
    (∀ name ∈ twoTexts, ∀ artifact, Artifact.ofFileName? name = some artifact →
      ∃ listing, crowdedNvcc.ownListing "job" {} (quiet twoTexts) artifact = .ok listing) ∧
    ∀ events last, Run (crowdedNvcc.directoryListings "job" {}).run
        (([], .answered (.listNames "job") (.ok twoTexts)) :: events) last →
      last.crashed = true ∧ ∀ result, last ≠ .done result := by
  refine ⟨by decide, by decide, ownListing_twoTexts rfl, fun events last hrun => ?_⟩
  obtain ⟨-, rfl, hcrashed⟩ := fanOut_crashes (by decide) (run_listed_iff.mp hrun)
  refine ⟨hcrashed, fun result he => ?_⟩
  cases he

end Toolchain

end AsmInspect

import AsmInspect.Proofs.Flow.Sequential
import AsmInspect.Proofs.Toolchain.Questions

/-!
# The listings of a directory

The artifacts of a directory are listed by a crew with a place for each of a few at a time. An
artifact takes a place, asks its questions one after the other, and gives the place back when it is
done or has failed. Whatever the order in which the artifacts do so, no more of them have a place
than there are places, somebody can always go on, and where none fails each is listed once.

That is so for any number of places that there can be. A configuration may ask for more, since only
zero is refused; then the job crashes once the directory is listed, before any artifact is looked
at, even if there is none (`fanOut_crashes`).

## Main definitions

* `fanOut`: the crew that lists some artifacts

## Main results

* `directoryListings_run_eq`: a directory is listed, and then its artifacts are
* `fanOut_run`: what a run of the crew has come to
* `fanOut_crashes`: with too many places nothing happens
* `fan_out_bounded`: the bound on the artifacts at work, and that they do not get stuck
-/

namespace AsmInspect

namespace Flow

variable {α β γ : Type}

/-- A crew does not depend on how its size is written. -/
theorem crew_cast {n m : Nat} (h : n = m) (free : Nat)
    (members : Fin n → Flow (Except Failure β)) (next : Except Failure (List β) → Flow α) :
    crew { free } members next = crew { free } (fun i : Fin m => members (i.cast h.symm)) next := by
  subst h
  rfl

/-- A run to the end of a flow whose result is made into something else. -/
theorem run_bind_done {flow : Flow α} {f : α → β} {events : List Event} {b : β}
    (h : Run (flow.bind fun a => .done (f a)) events (.done b)) :
    ∃ a, Run flow events (.done a) ∧ f a = b := by
  rcases run_bind h with ⟨flow', hrun, he⟩ | ⟨before, later, a, rfl, hrun, hlater⟩
  · cases flow' with
    | done a =>
      obtain rfl : b = f a := Flow.done.inj he
      exact ⟨a, hrun, rfl⟩
    | _ => cases he
  · obtain ⟨rfl, hdone⟩ := hlater.of_done
    rw [List.append_nil]
    exact ⟨a, hrun, (Flow.done.inj hdone).symm⟩

end Flow

namespace Artifact

/-- The artifacts of a directory in order are the same artifacts. -/
theorem perm_ofNames (names : List String) :
    (ofNames names).Perm (names.filterMap ofFileName?) := List.mergeSort_perm ..

theorem mem_ofNames {names : List String} {artifact : Artifact} :
    artifact ∈ ofNames names ↔ ∃ name ∈ names, ofFileName? name = some artifact :=
  (perm_ofNames names).mem_iff.trans List.mem_filterMap

end Artifact

namespace Toolchain

open AsmInspect.Flow

variable (toolchain : Toolchain) (jobDir : String) (filters : Filters)

/-- The members of the crew that lists some artifacts. -/
def listers (artifacts : List Artifact) :
    Fin artifacts.length → Flow (Except Failure (String × Listing)) :=
  fun i => (toolchain.keyedListing jobDir filters (artifacts.get i)).run

/-- The listings of all artifacts, put together when all are there. -/
def assemble : Except Failure (List (String × Listing)) → Flow (Except Failure DeviceMap) :=
  fun results => .done (results.map Dict.ofList)

/-- **The crew that lists some artifacts.** -/
def fanOut (artifacts : List Artifact) : Flow (Except Failure DeviceMap) :=
  .crew { free := toolchain.limits.maxDeviceTasks.toNat }
    (toolchain.listers jobDir filters artifacts) assemble

/-! ### The flow -/

theorem keyedListing_run_eq (artifact : Artifact) :
    (toolchain.keyedListing jobDir filters artifact).run =
      (toolchain.deviceListing jobDir filters artifact).run.bind fun result =>
        .done (result.map fun listing => (artifact.key, listing)) := by
  show ((toolchain.deviceListing jobDir filters artifact) >>= fun listing =>
    pure (artifact.key, listing) : Work (String × Listing)).run = _
  rw [run_bind_eq]
  congr 1
  funext result
  cases result <;> rfl

theorem crew_run_eq (artifacts : List Artifact) :
    (do
      let listings ← Work.crew toolchain.limits.maxDeviceTasks.toNat
        (artifacts.map (toolchain.keyedListing jobDir filters))
      return Dict.ofList listings : Work DeviceMap).run =
      toolchain.fanOut jobDir filters artifacts := by
  rw [run_bind_eq]
  show Flow.crew { free := toolchain.limits.maxDeviceTasks.toNat } _ _ = _
  rw [crew_cast (List.length_map _)]
  unfold fanOut listers
  congr 1
  · funext i
    simp
  · funext results
    cases results <;> rfl

/-- **A directory is listed, and then its artifacts are.** -/
theorem directoryListings_run_eq :
    (toolchain.directoryListings jobDir filters).run = .ask (.listNames jobDir) fun
      | .ok names => toolchain.fanOut jobDir filters (Artifact.ofNames names)
      | .error cause => .done (.error (.file .classification jobDir cause)) := by
  unfold directoryListings
  rw [run_bind_eq]
  show Flow.ask (.listNames jobDir) _ = _
  congr 1
  funext answer
  cases answer with
  | error cause => rfl
  | ok names => exact crew_run_eq toolchain jobDir filters (Artifact.ofNames names)

/-! ### Runs of the crew -/

variable {toolchain jobDir filters} {artifacts : List Artifact} {names : List String}
  {events : List Event} {flow : Flow (Except Failure DeviceMap)}

theorem listers_sequential (i : Fin artifacts.length) :
    (toolchain.listers jobDir filters artifacts i).Sequential :=
  keyedListing_composable toolchain composable_sequential (fun _ _ _ => trivial) _ _ _

/-- Once a directory is listed, its artifacts are. -/
theorem run_listed_iff : Run (toolchain.directoryListings jobDir filters).run
    (([], .answered (.listNames jobDir) (.ok names)) :: events) flow ↔
      Run (toolchain.fanOut jobDir filters (Artifact.ofNames names)) events flow := by
  rw [directoryListings_run_eq]
  constructor
  · intro h
    cases h with
    | step head tail =>
      cases head with
      | answer => exact tail
  · exact .step (.answer ..)

/-- **What a run of the crew has come to**: it is under way, or it has come to its outcome. -/
theorem fanOut_run (h : Run (toolchain.fanOut jobDir filters artifacts) events flow) :
    ∃ rota current, Underway toolchain.limits.maxDeviceTasks.toNat
        (toolchain.listers jobDir filters artifacts) events rota current ∧
      (flow = .crew rota current assemble ∨
        ∃ results, Outcome rota current results ∧ flow = .done (results.map Dict.ofList)) :=
  (Underway.start _ _).run_done h

/-- **With more places than there can be nothing happens**, whatever the artifacts are, and even if
there are none: the job crashes. -/
theorem fanOut_crashes (h : Rota.mostPlaces < toolchain.limits.maxDeviceTasks.toNat)
    (hrun : Run (toolchain.fanOut jobDir filters artifacts) events flow) :
    events = [] ∧ flow = toolchain.fanOut jobDir filters artifacts ∧ flow.crashed = true := by
  cases hrun with
  | refl =>
    refine ⟨rfl, rfl, ?_⟩
    rw [fanOut, crashed, decide_eq_true h, Bool.true_or]
  | step head tail =>
    -- all artifacts wait for places, and none can be taken
    cases head with
    | begins _ _ i waits place => exact absurd place.2 (Nat.not_le.mpr h)
    | member _ i works => cases works
    | ends _ i works => cases works
    | crew _ results possible => exact absurd possible (Nat.not_le.mpr h)
    | fails _ i finished => cases finished

/-- What happened to an artifact that was listed: it took a place, its listing was made, and it gave
the place back. -/
theorem served_of_finished {limit : Nat} {rota : Rota artifacts.length}
    {current : Fin artifacts.length → Flow (Except Failure (String × Listing))}
    (h : Underway limit (toolchain.listers jobDir filters artifacts) events rota current)
    {i : Fin artifacts.length} (finished : rota.turn i = .finished) {entry : String × Listing}
    (hi : current i = .done (.ok entry)) :
    ∃ inner listing, entry = ((artifacts.get i).key, listing) ∧
      eventsAt i events = ([], .begins) :: inner ++ [([], .ends none)] ∧
      Run (toolchain.deviceListing jobDir filters (artifacts.get i)).run inner
        (.done (.ok listing)) := by
  have hserved := h.served i
  rw [finished] at hserved
  obtain ⟨inner, result, he, hrun, hcurrent⟩ := hserved
  obtain rfl : result = .ok entry := by
    rw [hi] at hcurrent
    exact (Flow.done.inj hcurrent).symm
  rw [listers, keyedListing_run_eq, hi] at hrun
  obtain ⟨own, hown, hresult⟩ := run_bind_done hrun
  cases own with
  | error failure => cases hresult
  | ok listing => exact ⟨inner, listing, (Except.ok.inj hresult).symm, he, hown⟩

/-- Every run can be taken to its end. -/
theorem exists_end_of_run (answers : (query : Query) → query.Answer)
    (hk : 1 ≤ toolchain.limits.maxDeviceTasks.toNat)
    (hmost : toolchain.limits.maxDeviceTasks.toNat ≤ Rota.mostPlaces) {events : List Event}
    {flow : Flow (Except Failure DeviceMap)}
    (hrun : Run (toolchain.directoryListings jobDir filters).run events flow) :
    ∃ more result, Run flow more (.done result) ∧ AnsweredBy answers more := by
  have htidy : (toolchain.directoryListings jobDir filters).run.Tidy :=
    directoryListings_throughout toolchain (fun _ _ => trivial) (fun _ => trivial)
      (fun members i hi => by cases hi) _ _
  have hroomy : (toolchain.directoryListings jobDir filters).run.Roomy :=
    directoryListings_throughout toolchain (fun _ _ => trivial) (fun _ => trivial)
      (fun members => roomyCrew_start members hk hmost) _ _
  exact exists_end answers (htidy.run tidyCrew_stable hrun) (hroomy.run roomyCrew_stable hrun)

/-- **The artifacts of a directory are listed a few at a time, and they do not get stuck**, if there
are no more places than there can be. Whatever the order and whatever the answers: no more artifacts
are at work than there are places, and so no more of their questions are open; as long as none has
failed and one is not done, each artifact at work can go on, and if there is none, one that waits
can take a place; and when all is done and none has failed, each artifact has taken a place, been
listed and given the place back exactly once. -/
theorem fan_out_bounded (toolchain : Toolchain) (jobDir : String) (filters : Filters)
    (answers : (query : Query) → query.Answer) (names : List String) (events : List Event)
    (flow : Flow (Except Failure DeviceMap))
    (hk : 1 ≤ toolchain.limits.maxDeviceTasks.toNat)
    (hmost : toolchain.limits.maxDeviceTasks.toNat ≤ Rota.mostPlaces)
    (hrun : Run (toolchain.directoryListings jobDir filters).run
      (([], .answered (.listNames jobDir) (.ok names)) :: events) flow) :
    let artifacts := Artifact.ofNames names
    let working := busy artifacts.length events
    working.card ≤ toolchain.limits.maxDeviceTasks.toNat ∧
    (flow.opened.length ≤ toolchain.limits.maxDeviceTasks.toNat ∧
      ∀ p query, (p, query) ∈ flow.opened → ∃ i ∈ working, ∃ q, p = i :: q) ∧
    ((∀ i < artifacts.length, failed i events = false) →
      (∃ i < artifacts.length, ended i events = false) →
      (∀ i ∈ working, ∃ p act flow', Step flow (i :: p, act) flow' ∧
        AnsweredBy answers [(i :: p, act)]) ∧
      (working.Nonempty ∨
        ∃ i < artifacts.length, begun i events = false ∧
          ∃ flow', Step flow ([i], .begins) flow')) ∧
    ((∀ i < artifacts.length, failed i events = false) → (∃ result, flow = .done result) →
      (∃ listings, flow = .done (.ok listings)) ∧
      ∀ i artifact, artifacts[i]? = some artifact →
        ∃ inner listing, eventsAt i events = ([], .begins) :: inner ++ [([], .ends none)] ∧
          Run (toolchain.deviceListing jobDir filters artifact).run inner
            (.done (.ok listing))) := by
  intro artifacts working
  obtain ⟨rota, current, hunder, hflow⟩ := fanOut_run (run_listed_iff.mp hrun)
  have hsequential := hunder.sequential listers_sequential
  refine ⟨hunder.card_busy_le, ⟨?_, ?_⟩, ?_, ?_⟩
  · rcases hflow with rfl | ⟨results, -, rfl⟩
    · exact (crew_opened_length_le hsequential).trans hunder.card_atWork_le
    · exact Nat.zero_le _
  · intro p query hopen
    rcases hflow with rfl | ⟨results, -, rfl⟩
    · obtain ⟨i, works, q, rfl⟩ := working_of_mem_opened hopen
      exact ⟨i, (hunder.mem_busy_iff i).mpr works, q, rfl⟩
    · simp [opened] at hopen
  · rintro hnone ⟨j, hj, hunfinished⟩
    rcases hflow with rfl | ⟨results, hout, rfl⟩
    -- who is at work can go on, and if nobody is, the one that is not done takes a place
    · constructor
      · intro i hi
        have hlt : i < artifacts.length := Finset.mem_range.mp (Finset.mem_filter.mp hi).1
        have works := (hunder.mem_busy_iff ⟨i, hlt⟩).mp hi
        exact exists_step_of_working answers hsequential works
      · rcases working.eq_empty_or_nonempty with hidle | hwork
        · exact .inr ⟨j, hj, hunder.begins_of_idle hk hmost hidle hj hunfinished _⟩
        · exact .inl hwork
    · -- the crew has come to its outcome, so all artifacts are done
      obtain ⟨values, -, finished, -⟩ := hunder.all_of_outcome hnone hout
      have hended := hunder.ended_eq ⟨j, hj⟩
      simp [hunfinished, finished] at hended
  · rintro hnone ⟨result, rfl⟩
    rcases hflow with he | ⟨results, hout, he⟩
    · cases he
    -- nobody has failed, so the outcome has the results of all
    · obtain ⟨values, rfl, finished, hended⟩ := hunder.all_of_outcome hnone hout
      refine ⟨⟨_, he⟩, fun i artifact hi => ?_⟩
      obtain ⟨hlt, rfl⟩ := List.getElem?_eq_some_iff.mp hi
      obtain ⟨inner, listing, -, hevents, hlisting⟩ :=
        served_of_finished hunder (finished ⟨i, hlt⟩) (hended ⟨i, hlt⟩)
      exact ⟨inner, listing, hevents, hlisting⟩

/-- A compiler for device code with nothing else configured. -/
def plainNvcc : Toolchain := { compiler := { id := "nvcc", kind := .nvcc, exe := "nvcc" } }

/-- The answers of a machine with one directory, on which all files are empty and all tools are
content. -/
def quiet (names : List String) : (query : Query) → query.Answer
  | .readText _ => .ok ""
  | .writeText .. => .ok ()
  | .listNames _ => .ok names
  | .fileExists _ => true
  | .jobDirectory root => .ok root
  | .runTool _ => .ok {}
  | .clock => 0
  | .enter _ => ()

/-- Two artifacts that are listed to the end. -/
theorem fan_out_bounded_two_files :
    ∃ events result, Run (plainNvcc.directoryListings "job" {}).run
        (([], .answered (.listNames "job") (.ok ["a.ptx", "b.ptx"])) :: events) (.done result) ∧
      (busy (Artifact.ofNames ["a.ptx", "b.ptx"]).length events).card ≤ 4 := by
  have hlisted : Run (plainNvcc.directoryListings "job" {}).run
      [([], .answered (.listNames "job") (.ok ["a.ptx", "b.ptx"]))]
      (plainNvcc.fanOut "job" {} (Artifact.ofNames ["a.ptx", "b.ptx"])) :=
    run_listed_iff.mpr (.refl _)
  obtain ⟨events, result, hrun, -⟩ := exists_end_of_run (quiet []) (by decide) (by decide) hlisted
  have hall := hlisted.append hrun
  exact ⟨events, result, hall,
    (fan_out_bounded plainNvcc "job" {} (quiet []) _ events _ (by decide) (by decide) hall).1⟩

/-- A compiler for device code with one place more for its artifacts than there can be. -/
def crowdedNvcc : Toolchain :=
  { plainNvcc with limits := { maxDeviceTasks := 2305843009213693952 } }

/-- With one place more than there can be, two artifacts that have neither been listed nor failed
are stuck: none of them works, and none can take a place. -/
theorem fan_out_stuck :
    let artifacts := Artifact.ofNames ["a.ptx", "b.ptx"]
    1 ≤ crowdedNvcc.limits.maxDeviceTasks.toNat ∧
    crowdedNvcc.limits.maxDeviceTasks.toNat = Rota.mostPlaces + 1 ∧
    ∃ flow, Run (crowdedNvcc.directoryListings "job" {}).run
        [([], .answered (.listNames "job") (.ok ["a.ptx", "b.ptx"]))] flow ∧
      artifacts.length = 2 ∧ (∀ i < 2, failed i [] = false ∧ ended i [] = false) ∧
      busy artifacts.length [] = ∅ ∧ flow.crashed = true ∧
      ∀ event flow', ¬ Step flow event flow' := by
  intro artifacts
  have hmost : Rota.mostPlaces < crowdedNvcc.limits.maxDeviceTasks.toNat := by decide
  have hrun : Run (crowdedNvcc.directoryListings "job" {}).run
      [([], .answered (.listNames "job") (.ok ["a.ptx", "b.ptx"]))]
      (crowdedNvcc.fanOut "job" {} artifacts) := run_listed_iff.mpr (.refl _)
  refine ⟨by decide, by decide, _, hrun, ?_, fun i _ => ⟨rfl, rfl⟩, ?_, ?_, ?_⟩
  · rw [(Artifact.perm_ofNames _).length_eq]
    decide
  · simp [busy, begun]
  · exact (fanOut_crashes hmost (.refl _)).2.2
  · intro event flow' hstep
    obtain ⟨hnone, -⟩ := fanOut_crashes hmost (.single hstep)
    cases hnone

end Toolchain

end AsmInspect

import AsmInspect.Proofs.Text.Lines
import AsmInspect.Proofs.Text.Lowercase
import AsmInspect.Proofs.Toolchain.Isolation

/-!
# One listing for each artifact

The key of an artifact says its kind and what stands between the first and the last dot of its name.
The parts there are put together with a comma and a space between them and in lowercase, so nothing
is lost but the case of letters, as long as no part has a comma and none is empty: a part behind
another one begins right behind the space, and parts are never confused with there being none. What
stands in front of the first dot is not in the key, so the artifacts of one source are told apart by
the rest of their names.

## Main definitions

* `Artifact.Regular`: file names whose keys say what is in them
* `Artifact.SameTarget`: file names with one key

## Main results

* `Artifact.key_eq_iff`: what a key says
* `Artifact.targetOf_eq_iff`: the middle of a regular name, up to the case of letters
* `Toolchain.exists_values_of_fanOut`: the keys of a crew that does not fail
* `Toolchain.one_listing_per_artifact`: as many listings as there are artifacts
-/

namespace AsmInspect

namespace Artifact

variable {name other : String} {kind : Kind}

/-! ### Segments of a file name -/

/-- The segments of a file name between its dots. -/
def segments (name : String) : List Text := Text.splitAt '.' name.toList

/-- The segment behind the last dot. -/
def ending? (name : String) : Option Text := (segments name).getLast?

/-- The segments between the first dot and the last one. -/
def middle (name : String) : List Text := (segments name).tail.dropLast

/-- **File names whose keys say what is in them**: names of artifacts in ASCII, no segment of which
is empty or has a comma. -/
structure Regular (name : String) : Prop where
  ascii : Text.Ascii name.toList
  hasEnding : hasEnding name = true
  plain : ∀ segment ∈ segments name, segment ≠ [] ∧ ',' ∉ segment

/-- **File names with one key**: the same ending, and the same in the middle but for the case of
letters. What stands in front of the first dot does not matter. -/
def SameTarget (name other : String) : Prop :=
  ending? name = ending? other ∧ (middle name).map Text.lowered = (middle other).map Text.lowered

instance (name other : String) : Decidable (SameTarget name other) :=
  inferInstanceAs (Decidable (_ ∧ _))

theorem regular_iff : Regular name ↔ Text.Ascii name.toList ∧ hasEnding name = true ∧
    ∀ segment ∈ segments name, segment ≠ [] ∧ ',' ∉ segment :=
  ⟨fun h => ⟨h.ascii, h.hasEnding, h.plain⟩, fun h => ⟨h.1, h.2.1, h.2.2⟩⟩

instance (name : String) : Decidable (Regular name) := decidable_of_iff _ regular_iff.symm

theorem mem_segments_of_mem_middle {segment : Text} (h : segment ∈ middle name) :
    segment ∈ segments name :=
  List.mem_of_mem_tail (List.mem_of_mem_dropLast h)

theorem mem_of_mem_segments {segment : Text} (h : segment ∈ segments name) {c : Char}
    (hc : c ∈ segment) : c ∈ name.toList := by
  rw [← Text.join_splitAt '.' name.toList]
  exact Text.mem_join_of_mem _ h hc

namespace Regular

/-- What the middle of a regular name is made of, in lowercase as well. -/
theorem middle_lowered (h : Regular name) :
    ∀ part ∈ (middle name).map Text.lowered, part ≠ [] ∧ ',' ∉ part := by
  intro part hpart
  obtain ⟨segment, hsegment, rfl⟩ := List.mem_map.mp hpart
  obtain ⟨hne, hcomma⟩ := h.plain segment (mem_segments_of_mem_middle hsegment)
  rw [ne_eq, Text.lowered_eq_nil_iff, Text.mem_lowered_iff (by decide)]
  exact ⟨hne, hcomma⟩

theorem ascii_middle (h : Regular name) : ∀ part ∈ middle name, Text.Ascii part :=
  fun _ hpart c hc => h.ascii c (mem_of_mem_segments (mem_segments_of_mem_middle hpart) hc)

end Regular

/-- What a regular name says of the target. -/
theorem toList_targetOf (h : Regular name) :
    (targetOf name).toList = Text.join [',', ' '] ((middle name).map Text.lowered) := by
  have hascii : Text.Ascii (Text.join [',', ' '] (middle name)) :=
    Text.ascii_join (by decide) h.ascii_middle
  rw [targetOf, String.toList_ofList]
  show Text.lower (Text.join [',', ' '] (middle name)) = _
  rw [Text.lower_of_ascii hascii, Text.lowered_join]
  rfl

/-- **The middle of a regular name** is what the target says, up to the case of letters. -/
theorem targetOf_eq_iff (h : Regular name) (h' : Regular other) : targetOf name = targetOf other ↔
    (middle name).map Text.lowered = (middle other).map Text.lowered := by
  rw [← String.toList_inj, toList_targetOf h, toList_targetOf h',
    Text.join_pair_inj (by decide) h.middle_lowered h'.middle_lowered]

/-! ### Kinds and endings -/

/-- The ending of the names of a kind. -/
def Kind.ending : Kind → Text
  | .intermediateText => "ptx".toList
  | .binaryMachineCode => "cubin".toList

theorem Kind.ending_injective : Function.Injective Kind.ending := by
  intro kind kind' h
  cases kind <;> cases kind' <;> first | rfl | cases h

/-- A file of a kind has the ending of the kind. -/
theorem Kind.suffix_of_ofFileName? (h : Kind.ofFileName? name = some kind) :
    '.' :: kind.ending <:+ name.toList := by
  unfold Kind.ofFileName? at h
  split at h
  case isTrue hsuffix =>
    obtain rfl := Option.some.inj h
    exact List.isSuffixOf_iff_suffix.mp hsuffix
  case isFalse =>
    split at h
    case isTrue hsuffix =>
      obtain rfl := Option.some.inj h
      exact List.isSuffixOf_iff_suffix.mp hsuffix
    case isFalse => cases h

theorem ending?_of_suffix (h : '.' :: kind.ending <:+ name.toList) :
    ending? name = some kind.ending := by
  obtain ⟨front, hfront⟩ := h
  have hlast : Text.splitAt '.' kind.ending = [kind.ending] := by
    cases kind <;> decide
  have hsegments : segments name = Text.splitAt '.' front ++ Text.splitAt '.' kind.ending := by
    rw [segments, ← hfront]
    exact Text.pieces_append_separator front (by decide) kind.ending
  rw [ending?, hsegments, hlast, List.getLast?_concat]

/-! ### Keys -/

/-- What stands in a key behind the kind. -/
def keyRest (target : String) : Text :=
  if target = "" then [] else " (".toList ++ (target.toList ++ [')'])

theorem toList_key (artifact : Artifact) :
    artifact.key.toList = artifact.kind.label.toList ++ keyRest artifact.target := by
  rw [key, keyRest]
  by_cases hempty : artifact.target = ""
  case pos => simp [hempty]
  case neg => simp [hempty, String.toList_append, toString]

theorem keyRest_injective : Function.Injective keyRest := by
  intro target target' h
  rw [keyRest, keyRest] at h
  split at h <;> split at h
  case isTrue.isTrue hempty hempty' => rw [hempty, hempty']
  case isTrue.isFalse => cases h
  case isFalse.isTrue => cases h
  case isFalse.isFalse =>
    exact String.toList_inj.mp (List.append_cancel_right (List.append_cancel_left h))

/-- **What a key says**: the kind and the target. -/
theorem key_eq_iff (a b : Artifact) : a.key = b.key ↔ a.kind = b.kind ∧ a.target = b.target := by
  constructor
  · intro h
    have hlists := congrArg String.toList h
    rw [toList_key, toList_key] at hlists
    -- the words for the two kinds differ in their first letter
    have hkind : a.kind = b.kind := by
      cases ha : a.kind <;> cases hb : b.kind <;> rw [ha, hb] at hlists <;>
        first | rfl | exact absurd (List.cons.inj hlists).1 (by decide)
    rw [hkind] at hlists
    exact ⟨hkind, keyRest_injective (List.append_cancel_left hlists)⟩
  · rintro ⟨hkind, htarget⟩
    rw [← String.toList_inj, toList_key, toList_key, hkind, htarget]

/-! ### Keys of regular names -/

/-- A regular name is one of an artifact. -/
theorem Regular.exists_artifact (h : Regular name) :
    ∃ artifact, ofFileName? name = some artifact := by
  rw [← Option.isSome_iff_exists, ofFileName?_isSome]
  exact h.hasEnding

theorem of_ofFileName? {artifact : Artifact} (h : ofFileName? name = some artifact) :
    ending? name = some artifact.kind.ending ∧ artifact.target = targetOf name := by
  obtain ⟨kind, hkind, rfl⟩ := Option.map_eq_some_iff.mp h
  exact ⟨ending?_of_suffix (Kind.suffix_of_ofFileName? hkind), rfl⟩

/-- **Two artifacts with regular names have one key** if their names have the same ending and say
the same of the target. -/
theorem key_eq_iff_sameTarget (h : Regular name) (h' : Regular other) {a b : Artifact}
    (ha : ofFileName? name = some a) (hb : ofFileName? other = some b) :
    a.key = b.key ↔ SameTarget name other := by
  obtain ⟨hending, htarget⟩ := of_ofFileName? ha
  obtain ⟨hending', htarget'⟩ := of_ofFileName? hb
  rw [key_eq_iff, SameTarget, hending, hending', htarget, htarget', targetOf_eq_iff h h',
    Option.some_inj, Kind.ending_injective.eq_iff]

/-- The key of an artifact begins with the word for the ending of its name. -/
theorem label_prefix_key (kind : Kind) {artifact : Artifact}
    (h : ofFileName? name = some artifact) (hsuffix : '.' :: kind.ending <:+ name.toList) :
    kind.label.toList <+: artifact.key.toList := by
  have hkind : artifact.kind = kind :=
    Kind.ending_injective (Option.some.inj ((of_ofFileName? h).1.symm.trans
      (ending?_of_suffix hsuffix)))
  rw [toList_key, hkind]
  exact List.prefix_append _ _

/-- Different targets have different keys. -/
theorem nodup_keys {names : List String}
    (hregular : ∀ name ∈ names, hasEnding name = true → Regular name)
    (hdistinct : (names.filter hasEnding).Pairwise fun name other => ¬ SameTarget name other) :
    ((names.filterMap ofFileName?).map (·.key)).Nodup := by
  have hends {name : String} {artifact : Artifact} (h : ofFileName? name = some artifact) :
      hasEnding name = true := by
    rw [← ofFileName?_isSome, h]
    rfl
  rw [List.pairwise_filter] at hdistinct
  rw [List.Nodup, List.pairwise_map, List.pairwise_filterMap]
  refine hdistinct.imp_of_mem ?_
  intro name other hname hother hnot a ha b hb hkey
  have hregular₁ := hregular name hname (hends ha)
  have hregular₂ := hregular other hother (hends hb)
  exact hnot (hends ha) (hends hb) ((key_eq_iff_sameTarget hregular₁ hregular₂ ha hb).mp hkey)

end Artifact

namespace Toolchain

open AsmInspect.Flow

variable {toolchain : Toolchain} {jobDir : String} {filters : Filters} {artifacts : List Artifact}
  {names : List String} {events : List Event} {listings : DeviceMap}

/-- **The keys of a crew that does not fail**, whatever was answered and in which order: one for
each artifact. -/
theorem exists_values_of_fanOut
    (h : Run (toolchain.fanOut jobDir filters artifacts) events (.done (.ok listings))) :
    ∃ (values : Fin artifacts.length → String × Listing) (entries : List (String × Listing)),
      (∀ i, (values i).1 = (artifacts.get i).key) ∧ entries.Perm (List.ofFn values) ∧
        listings = Dict.ofList entries := by
  obtain ⟨rota, current, hunder, hflow⟩ := fanOut_run h
  rcases hflow with he | ⟨results, hout, he⟩
  · cases he
  · cases hout with
    | one i failure finished hended => cases he
    | all values finished hended =>
      refine ⟨values, _, fun i => ?_, Rota.map_finishers_perm finished values,
        Except.ok.inj (Flow.done.inj he)⟩
      obtain ⟨inner, listing, hvalue, -⟩ := served_of_finished hunder (finished i) (hended i)
      rw [hvalue]

/-- The keys of a directory that was listed. -/
theorem keys_of_listed (hkeys : ((names.filterMap Artifact.ofFileName?).map (·.key)).Nodup)
    (h : Run (toolchain.directoryListings jobDir filters).run
      (([], .answered (.listNames jobDir) (.ok names)) :: events) (.done (.ok listings))) :
    listings.keys.Perm ((names.filterMap Artifact.ofFileName?).map (·.key)) := by
  have hperm := (Artifact.perm_ofNames names).map (·.key)
  obtain ⟨values, entries, hvalues, hentries, rfl⟩ :=
    exists_values_of_fanOut (run_listed_iff.mp h)
  have hnames : (entries.map (·.1)).Perm ((Artifact.ofNames names).map (·.key)) :=
    map_fst_ofFn hvalues ▸ hentries.map (·.1)
  have hnodup : (entries.map (·.1)).Nodup :=
    hnames.nodup_iff.mpr (hperm.nodup_iff.mpr hkeys)
  exact ((Dict.keys_ofList hnodup).trans hnames).trans hperm

/-- **There are as many listings as there are artifacts.** Two regular names are both names of
artifacts, and they have one key just if they have the same ending and the same in the middle but
for the case of letters. So if the artifacts in a directory have regular names of which no two are
the same in this sense, each of them has an entry of its own, with a key that says the kind,
whatever the machine answers and whatever the order. And all of them are listed where each can be
listed alone, by any number of them at a time that there can be. -/
theorem one_listing_per_artifact :
    (∀ name other, Artifact.Regular name → Artifact.Regular other →
      ∃ a b, Artifact.ofFileName? name = some a ∧ Artifact.ofFileName? other = some b ∧
        (a.key = b.key ↔ Artifact.SameTarget name other)) ∧
    ∀ (toolchain : Toolchain) (jobDir : String) (filters : Filters) (names : List String),
      (∀ name ∈ names, Artifact.hasEnding name = true → Artifact.Regular name) →
      ((names.filter Artifact.hasEnding).Pairwise fun name other =>
        ¬ Artifact.SameTarget name other) →
      let flow := (toolchain.directoryListings jobDir filters).run
      let listed : Event := ([], .answered (.listNames jobDir) (.ok names))
      (∀ events listings, Run flow (listed :: events) (.done (.ok listings)) →
        listings.size = (names.filter Artifact.hasEnding).length ∧
        listings.keys.Perm ((names.filterMap Artifact.ofFileName?).map (·.key)) ∧
        ∀ name ∈ names, Artifact.hasEnding name = true →
          ∃ artifact, Artifact.ofFileName? name = some artifact ∧
            artifact.key ∈ listings.keys ∧
            (".ptx".toList <:+ name.toList → "PTX".toList <+: artifact.key.toList) ∧
            (".cubin".toList <:+ name.toList → "SASS".toList <+: artifact.key.toList)) ∧
      ∀ answers : (query : Query) → query.Answer, answers (.listNames jobDir) = .ok names →
        1 ≤ toolchain.limits.maxDeviceTasks.toNat →
        toolchain.limits.maxDeviceTasks.toNat ≤ Rota.mostPlaces →
        (∀ name ∈ names, ∀ artifact, Artifact.ofFileName? name = some artifact →
          ∃ listing, toolchain.ownListing jobDir filters answers artifact = .ok listing) →
        (∃ events listings, Run flow (listed :: events) (.done (.ok listings)) ∧
          AnsweredBy answers (listed :: events)) ∧
        ∀ events result, Run flow events (.done result) → AnsweredBy answers events →
          ∃ later listings, events = listed :: later ∧ result = .ok listings := by
  constructor
  · intro name other hname hother
    obtain ⟨a, ha⟩ := hname.exists_artifact
    obtain ⟨b, hb⟩ := hother.exists_artifact
    exact ⟨a, b, ha, hb, Artifact.key_eq_iff_sameTarget hname hother ha hb⟩
  · intro toolchain jobDir filters names hregular hdistinct flow listed
    have hkeys := Artifact.nodup_keys hregular hdistinct
    constructor
    · intro events listings hrun
      have hperm := keys_of_listed hkeys hrun
      refine ⟨?_, hperm, ?_⟩
      · have hsize := hperm.length_eq
        rw [Dict.keys, List.length_map, List.length_map] at hsize
        rw [Dict.size, hsize, Artifact.length_filterMap_ofFileName?]
      · intro name hname hending
        obtain ⟨artifact, ha⟩ := (hregular name hname hending).exists_artifact
        have hkey : artifact.key ∈ listings.keys := by
          rw [hperm.mem_iff]
          exact List.mem_map_of_mem (List.mem_filterMap.mpr ⟨name, hname, ha⟩)
        refine ⟨artifact, ha, hkey, ?_, ?_⟩
        · exact Artifact.label_prefix_key .intermediateText ha
        · exact Artifact.label_prefix_key .binaryMachineCode ha
    · intro answers hlist hk hmost hown
      have hall : ∀ events result, Run flow events (.done result) → AnsweredBy answers events →
          ∃ later listings, events = listed :: later ∧ result = .ok listings := by
        intro events result hrun ha
        obtain ⟨later, hlater⟩ := exists_listed_of_done hlist hrun ha
        obtain ⟨listings, hok⟩ := ok_of_ownListing hlist hown hrun ha
        exact ⟨later, listings, hlater, hok⟩
      refine ⟨?_, hall⟩
      obtain ⟨events, listings, hrun, ha⟩ := exists_listings hlist hk hmost hown
      obtain ⟨later, -, rfl, -⟩ := hall events _ hrun ha
      exact ⟨later, listings, hrun, ha⟩

/-- Code for two architectures, and machine code for one of them. -/
theorem one_listing_per_artifact_three_files :
    (∃ a b, Artifact.ofFileName? "a.sm_80.ptx" = some a ∧
      Artifact.ofFileName? "a.SM_80.cubin" = some b ∧ a.key ≠ b.key) ∧
    ∃ listings : DeviceMap, listings.size = 3 ∧
      listings.keys.Perm ["PTX (sm_80)", "PTX (sm_90, lto)", "SASS (sm_80)"] := by
  let names := ["a.sm_80.ptx", "a.cu", "a.sm_90.LTO.ptx", "a.SM_80.cubin"]
  have hregular : ∀ name ∈ names, Artifact.hasEnding name = true → Artifact.Regular name := by
    decide
  have hdistinct : (names.filter Artifact.hasEnding).Pairwise fun name other =>
      ¬ Artifact.SameTarget name other := by decide
  obtain ⟨hkeys, hall⟩ := one_listing_per_artifact
  obtain ⟨hlisted, hanswered⟩ := hall disassemblingNvcc "job" {} names hregular hdistinct
  have hown : ∀ name ∈ names, ∀ artifact, Artifact.ofFileName? name = some artifact →
      ∃ listing, disassemblingNvcc.ownListing "job" {} (quiet names) artifact = .ok listing := by
    rintro name - ⟨fileName, kind, target⟩ -
    cases kind with
    | intermediateText => exact ⟨_, rfl⟩
    | binaryMachineCode => exact ⟨_, rfl⟩
  obtain ⟨⟨events, listings, hrun, -⟩, -⟩ := hanswered (quiet names) rfl (by decide)
    (by decide) hown
  obtain ⟨hsize, hperm, -⟩ := hlisted events listings hrun
  constructor
  · obtain ⟨a, b, ha, hb, hiff⟩ := hkeys "a.sm_80.ptx" "a.SM_80.cubin"
      (hregular _ (by decide) (by decide)) (hregular _ (by decide) (by decide))
    exact ⟨a, b, ha, hb, fun hkey => absurd (hiff.mp hkey) (by decide)⟩
  · exact ⟨listings, hsize.trans (by decide), hperm⟩

end Toolchain

end AsmInspect

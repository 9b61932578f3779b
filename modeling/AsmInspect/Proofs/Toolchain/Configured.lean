import AsmInspect.Driver
import AsmInspect.Proofs.Dict

/-!
# A driver has exactly the compilers that are configured

Toolchains are kept by the id of their compiler, and one that is kept takes the place of an older
one with its id. Nothing is lost that way, because a configuration in which two compilers share an
id is refused before the first toolchain is made. So a driver exists for exactly the configurations
without contradictions, and then a configured id stands for its own compiler, any other id for none,
and the compilers that are listed are the configured ones in the order of their ids.

## Main definitions

* `Config.Consistent`: the configurations without contradictions
* `Config.toolchain`: a compiler with all that the configuration says about it

## Main results

* `Config.validate_eq_ok_iff`: what is checked before toolchains are made
* `Registry.ofConfig_eq_ok_iff`: when toolchains can be made
* `Driver.ofConfig_eq_ok_iff`: the driver of a configuration
* `Driver.configured_compilers_reached`: nothing is lost and nothing replaced
-/

namespace AsmInspect

/-- Every limit leaves room for something. -/
structure Limits.Positive (limits : Limits) : Prop where
  maxAsmSize : 0 < limits.maxAsmSize
  maxOutput : 0 < limits.maxOutput
  execTimeoutMs : 0 < limits.execTimeoutMs
  jobTimeoutMs : 0 < limits.jobTimeoutMs
  maxConcurrentJobs : 0 < limits.maxConcurrentJobs
  maxDeviceTasks : 0 < limits.maxDeviceTasks

/-- **The configurations without contradictions.** -/
structure Config.Consistent (config : Config) : Prop where
  limits : config.limits.Positive
  named : ∀ compiler ∈ config.compilers, compiler.id ≠ ""
  distinct : (config.compilers.map (·.id)).Nodup
  /-- An external parser is fed from a disassembler. -/
  disassembled : ∀ compiler ∈ config.compilers,
    compiler.externalParser.isSome = true → compiler.objdumper.isSome = true

/-- A compiler with all that the configuration says about it. -/
def Config.toolchain (config : Config) (compiler : Compiler) : Toolchain :=
  { compiler
    limits := config.limits
    sandbox := config.sandbox
    parser := do
      let parser ← compiler.externalParser
      let objdumper ← compiler.objdumper
      return { objdumper, parser } }

/-! ### What is checked -/

namespace Config

variable {config : Config}

theorem find?_named_eq_none_iff (limits : Limits) :
    limits.named.find? (·.2 == 0) = none ↔ limits.Positive := by
  have hpositive : ∀ n : UInt64, ¬ (n == 0) = true ↔ 0 < n := by
    intro n
    rw [beq_iff_eq, UInt64.pos_iff_ne_zero]
  simp only [Limits.named, List.find?_eq_none, List.forall_mem_cons, List.not_mem_nil,
    false_implies, implies_true, and_true, hpositive]
  constructor
  · rintro ⟨h1, h2, h3, h4, h5, h6⟩
    exact ⟨h1, h2, h3, h4, h5, h6⟩
  · rintro ⟨h1, h2, h3, h4, h5, h6⟩
    exact ⟨h1, h2, h3, h4, h5, h6⟩

/-- No contradiction is found among compilers exactly if each has an id of its own, which none of
those seen before has. -/
theorem idError?_eq_none_iff {compilers : List Compiler} {seen : List String} :
    idError? seen compilers = none ↔
      (∀ compiler ∈ compilers, compiler.id ≠ "") ∧ (compilers.map (·.id)).Nodup ∧
        ∀ compiler ∈ compilers, compiler.id ∉ seen := by
  induction compilers generalizing seen with
  | nil => simp [idError?]
  | cons compiler rest ih =>
    rw [idError?]
    split
    case isTrue hempty =>
      have hid : compiler.id = "" := String.isEmpty_iff.mp hempty
      simp [hid]
    case isFalse hnamed =>
      have hid : compiler.id ≠ "" := fun h => hnamed (String.isEmpty_iff.mpr h)
      split
      case isTrue hseen =>
        have hmem : compiler.id ∈ seen := List.contains_iff_mem.mp hseen
        simp [hmem]
      case isFalse hnew =>
        have hmem : compiler.id ∉ seen := fun h => hnew (List.contains_iff_mem.mpr h)
        rw [ih]
        simp only [List.mem_cons, forall_eq_or_imp, List.map_cons, List.nodup_cons, List.mem_map,
          not_or]
        constructor
        · rintro ⟨hnames, hnodup, hothers⟩
          refine ⟨⟨hid, hnames⟩, ⟨?_, hnodup⟩, hmem, fun other h => (hothers other h).2⟩
          rintro ⟨other, hother, heq⟩
          exact (hothers other hother).1 heq
        · rintro ⟨⟨-, hnames⟩, ⟨hfirst, hnodup⟩, -, hothers⟩
          exact ⟨hnames, hnodup, fun other h => ⟨fun heq => hfirst ⟨other, h, heq⟩, hothers other h⟩⟩

/-- **What is checked before toolchains are made**: the limits and the ids. -/
theorem validate_eq_ok_iff :
    config.validate = .ok () ↔
      config.limits.Positive ∧ (∀ compiler ∈ config.compilers, compiler.id ≠ "") ∧
        (config.compilers.map (·.id)).Nodup := by
  have hids := @idError?_eq_none_iff config.compilers []
  have hlimits := find?_named_eq_none_iff config.limits
  unfold validate
  split
  case h_1 name n hfound =>
    rw [hfound] at hlimits
    exact iff_of_false (by rintro ⟨⟩) fun h => Option.some_ne_none _ (hlimits.mpr h.1)
  case h_2 hnone =>
    have hpositive := hlimits.mp hnone
    split
    case h_1 error herror =>
      rw [herror] at hids
      simp only [List.not_mem_nil, not_false_eq_true, implies_true, and_true] at hids
      simpa [hpositive] using hids
    case h_2 hclean =>
      obtain ⟨hnames, hnodup, -⟩ := hids.mp hclean
      exact iff_of_true rfl ⟨hpositive, hnames, hnodup⟩

end Config

/-! ### Toolchains -/

/-- A toolchain can be made exactly if an external parser has its disassembler. -/
theorem Toolchain.ofCompiler_eq_ok_iff {config : Config} {compiler : Compiler}
    {toolchain : Toolchain} :
    ofCompiler config compiler = .ok toolchain ↔
      (compiler.externalParser.isSome = true → compiler.objdumper.isSome = true) ∧
        config.toolchain compiler = toolchain := by
  unfold ofCompiler Compiler.parserTools Config.toolchain
  cases compiler.externalParser <;> cases compiler.objdumper <;>
    simp [bind, Except.bind, pure, Except.pure]

namespace Registry

variable {config : Config} {before registry : Registry} {compilers : List Compiler}

/-- The toolchains of some compilers by their ids. -/
def entries (config : Config) (compilers : List Compiler) : List (String × Toolchain) :=
  compilers.map fun compiler => (compiler.id, config.toolchain compiler)

theorem map_fst_entries (config : Config) (compilers : List Compiler) :
    (entries config compilers).map (·.1) = compilers.map (·.id) := by
  rw [entries, List.map_map]
  rfl

theorem ofCompilers_eq_ok_iff :
    ofCompilers config compilers before = .ok registry ↔
      (∀ compiler ∈ compilers,
        compiler.externalParser.isSome = true → compiler.objdumper.isSome = true) ∧
      ⟨(entries config compilers).foldl (fun d e => d.insert e.1 e.2) before.toolchains⟩ =
        registry := by
  induction compilers generalizing before with
  | nil => simp [ofCompilers, entries]
  | cons compiler rest ih =>
    rw [ofCompilers, List.forall_mem_cons]
    cases hmade : Toolchain.ofCompiler config compiler with
    | error failure =>
      have hnot : ¬ (compiler.externalParser.isSome = true → compiler.objdumper.isSome = true) := by
        intro h
        rw [Toolchain.ofCompiler_eq_ok_iff.mpr ⟨h, rfl⟩] at hmade
        cases hmade
      exact iff_of_false (by rintro ⟨⟩) fun h => hnot h.1.1
    | ok toolchain =>
      obtain ⟨hparser, rfl⟩ := Toolchain.ofCompiler_eq_ok_iff.mp hmade
      refine ih.trans ?_
      rw [and_iff_right hparser]
      rfl

/-- **When toolchains can be made**, and which they are. -/
theorem ofConfig_eq_ok_iff :
    ofConfig config = .ok registry ↔
      (∀ compiler ∈ config.compilers,
        compiler.externalParser.isSome = true → compiler.objdumper.isSome = true) ∧
      ⟨Dict.ofList (entries config config.compilers)⟩ = registry :=
  ofCompilers_eq_ok_iff

end Registry

/-! ### The driver -/

namespace Driver

variable {config : Config} {driver : Driver} {compiler : Compiler}

/-- The toolchains of a configuration, each under the id of its compiler. -/
def toolchains (config : Config) : Dict Toolchain :=
  Dict.ofList (Registry.entries config config.compilers)

/-- **The driver of a configuration**: it exists if there are no contradictions. -/
theorem ofConfig_eq_ok_iff :
    ofConfig config = .ok driver ↔ config.Consistent ∧ ⟨config, ⟨toolchains config⟩⟩ = driver := by
  have hvalid := @Config.validate_eq_ok_iff config
  unfold ofConfig
  split
  case h_1 error hinvalid =>
    rw [hinvalid] at hvalid
    refine iff_of_false (by rintro ⟨⟩) fun ⟨hconsistent, _⟩ => ?_
    cases hvalid.mpr ⟨hconsistent.limits, hconsistent.named, hconsistent.distinct⟩
  case h_2 hchecked =>
    obtain ⟨hlimits, hnamed, hdistinct⟩ := hvalid.mp hchecked
    cases hmade : Registry.ofConfig config with
    | error failure =>
      refine iff_of_false (by rintro ⟨⟩) fun ⟨hconsistent, _⟩ => ?_
      rw [Registry.ofConfig_eq_ok_iff.mpr ⟨hconsistent.disassembled, rfl⟩] at hmade
      cases hmade
    | ok registry =>
      obtain ⟨hparsers, rfl⟩ := Registry.ofConfig_eq_ok_iff.mp hmade
      have hconsistent : config.Consistent := ⟨hlimits, hnamed, hdistinct, hparsers⟩
      exact ⟨fun h => ⟨hconsistent, Except.ok.inj h⟩, fun h => congrArg Except.ok h.2⟩

variable (h : (config.compilers.map (·.id)).Nodup)

include h

/-- What is kept are the toolchains of the configured compilers, once each. -/
theorem perm_toolchains :
    (toolchains config).entries.Perm (Registry.entries config config.compilers) :=
  Dict.perm_ofList (by rwa [Registry.map_fst_entries])

theorem size_toolchains : (toolchains config).size = config.compilers.length := by
  rw [Dict.size, (perm_toolchains h).length_eq, Registry.entries, List.length_map]

theorem find_of_configured (hmem : compiler ∈ config.compilers) :
    Registry.find ⟨toolchains config⟩ compiler.id = .ok (config.toolchain compiler) := by
  have hget : (toolchains config).get? compiler.id = some (config.toolchain compiler) :=
    Dict.get?_of_mem ((perm_toolchains h).mem_iff.mpr (List.mem_map_of_mem hmem))
  rw [Registry.find, hget]

theorem find_of_not_configured {id : String} (hid : ∀ compiler ∈ config.compilers, compiler.id ≠ id) :
    Registry.find ⟨toolchains config⟩ id = .error (.unknownCompiler id) := by
  have hkeys : (toolchains config).keys.Perm (config.compilers.map (·.id)) := by
    rw [← Registry.map_fst_entries config]
    exact (perm_toolchains h).map _
  have hnone : (toolchains config).get? id = none := by
    refine Dict.get?_eq_none fun hmem => ?_
    obtain ⟨compiler, hcompiler, heq⟩ := List.mem_map.mp (hkeys.mem_iff.mp hmem)
    exact hid compiler hcompiler heq
  rw [Registry.find, hnone]

/-- The compilers that are kept, in the order of their ids, are the configured ones. -/
theorem perm_compilers :
    ((toolchains config).values.map (·.compiler)).Perm config.compilers := by
  have hmap : (Registry.entries config config.compilers).map (fun e => e.2.compiler) =
      config.compilers := by
    rw [Registry.entries, List.map_map]
    exact List.map_id _
  have hperm := (perm_toolchains h).map fun e => e.2.compiler
  rw [hmap] at hperm
  rwa [Dict.values, List.map_map]

theorem pairwise_compilers :
    ((toolchains config).values.map (·.compiler)).Pairwise (·.id < ·.id) := by
  -- each toolchain is kept under the id of its own compiler
  have hown : ∀ e ∈ (toolchains config).entries, e.1 = e.2.compiler.id := by
    intro e he
    obtain ⟨compiler, -, rfl⟩ := List.mem_map.mp ((perm_toolchains h).mem_iff.mp he)
    rfl
  rw [Dict.values, List.map_map, List.pairwise_map]
  refine (toolchains config).increasing.imp_of_mem ?_
  intro e f he hf hlt
  rwa [hown e he, hown f hf] at hlt

omit h

/-- **A driver has exactly the compilers that are configured.** It exists exactly for the
configurations without contradictions. It has as many toolchains as there are compilers; a
configured id stands for its own compiler, any other id for none; and the compilers of an
instruction set, or all of them, are listed in increasing order of their ids. -/
theorem configured_compilers_reached (config : Config) :
    ((∃ driver, ofConfig config = .ok driver) ↔ config.Consistent) ∧
    ∀ driver, ofConfig config = .ok driver →
      driver.registry.toolchains.size = config.compilers.length ∧
      (∀ compiler ∈ config.compilers,
        driver.registry.find compiler.id = .ok (config.toolchain compiler)) ∧
      (∀ id, (∀ compiler ∈ config.compilers, compiler.id ≠ id) →
        driver.registry.find id = .error (.unknownCompiler id)) ∧
      ∀ instructionSet : Option String,
        (driver.registry.compilers instructionSet).Pairwise (·.id < ·.id) ∧
        ∀ compiler, compiler ∈ driver.registry.compilers instructionSet ↔
          compiler ∈ config.compilers ∧
            ∀ name, instructionSet = some name → compiler.instructionSet = name := by
  constructor
  · constructor
    · rintro ⟨driver, hdriver⟩
      exact (ofConfig_eq_ok_iff.mp hdriver).1
    · intro hconsistent
      exact ⟨_, ofConfig_eq_ok_iff.mpr ⟨hconsistent, rfl⟩⟩
  · intro driver hdriver
    obtain ⟨hconsistent, rfl⟩ := ofConfig_eq_ok_iff.mp hdriver
    have hdistinct := hconsistent.distinct
    refine ⟨size_toolchains hdistinct, fun compiler => find_of_configured hdistinct,
      fun id => find_of_not_configured hdistinct, fun instructionSet => ⟨?_, fun compiler => ?_⟩⟩
    · exact (pairwise_compilers hdistinct).filter _
    · rw [Registry.compilers, List.mem_filter, (perm_compilers hdistinct).mem_iff]
      cases instructionSet with
      | none => simp
      | some name => simp

/-- A configuration of two compilers, not in the order of their ids. -/
def twoCompilers : Config :=
  { compilers := [{ id := "nvcc", kind := .nvcc, exe := "/opt/nvcc", instructionSet := "ptx" },
      { id := "gcc", kind := .generic, exe := "/usr/bin/gcc", externalParser := some "asm-parser",
        objdumper := some "objdump" }] }

/-- Both of the two compilers are found, and no third one. -/
theorem configured_compilers_reached_two :
    ∃ driver, ofConfig twoCompilers = .ok driver ∧ driver.registry.toolchains.size = 2 ∧
      (driver.registry.find "gcc").toOption.map (·.parser) =
        some (some { objdumper := "objdump", parser := "asm-parser" }) ∧
      driver.registry.find "icc" = .error (.unknownCompiler "icc") := by
  obtain ⟨hexists, hall⟩ := configured_compilers_reached twoCompilers
  have hconsistent : twoCompilers.Consistent :=
    ⟨by constructor <;> decide, by decide, by decide, by decide⟩
  obtain ⟨driver, hdriver⟩ := hexists.mpr hconsistent
  obtain ⟨hsize, hfind, hother, -⟩ := hall driver hdriver
  have hgcc := hfind _ (List.mem_cons_of_mem _ (List.mem_singleton_self _))
  refine ⟨driver, hdriver, hsize, ?_, hother "icc" (by decide)⟩
  rw [hgcc]
  rfl

end Driver

end AsmInspect

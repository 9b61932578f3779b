import AsmInspect.Driver
import AsmInspect.Proofs.Dict

/-!
# The toolchains of a configuration

A driver has a toolchain for each compiler of its configuration, with the limits and the sandbox
that are configured for all of them. A request gets the one that it names.

## Main results

* `Registry.find_of_mem`: every configured compiler is found under its id
* `Driver.of_find`: what is found is a configured compiler
-/

namespace AsmInspect

theorem Toolchain.of_ofCompiler {config : Config} {compiler : Compiler} {toolchain : Toolchain}
    (h : ofCompiler config compiler = .ok toolchain) :
    toolchain.compiler = compiler ∧ toolchain.limits = config.limits ∧
      toolchain.sandbox = config.sandbox := by
  unfold ofCompiler at h
  cases hparser : compiler.parserTools with
  | error failure =>
    rw [hparser] at h
    cases h
  | ok parser =>
    rw [hparser] at h
    obtain rfl := Except.ok.inj h
    exact ⟨rfl, rfl, rfl⟩

namespace Registry

variable {config : Config} {compiler : Compiler} {compilers : List Compiler}
  {before after : Registry} {id : String} {toolchain : Toolchain}

/-- One more compiler has a toolchain, and the others follow. -/
theorem ofCompilers_cons (h : ofCompilers config (compiler :: compilers) before = .ok after) :
    ∃ toolchain, Toolchain.ofCompiler config compiler = .ok toolchain ∧
      ofCompilers config compilers ⟨before.toolchains.insert compiler.id toolchain⟩ = .ok after := by
  rw [ofCompilers] at h
  cases hcompiler : Toolchain.ofCompiler config compiler with
  | error failure =>
    rw [hcompiler] at h
    cases h
  | ok toolchain =>
    rw [hcompiler] at h
    exact ⟨toolchain, rfl, h⟩

/-- What is found was there before, or it is the toolchain of one of the compilers. -/
theorem of_ofCompilers (h : ofCompilers config compilers before = .ok after)
    (hfound : after.toolchains.get? id = some toolchain) :
    before.toolchains.get? id = some toolchain ∨
      ∃ compiler ∈ compilers, compiler.id = id ∧
        Toolchain.ofCompiler config compiler = .ok toolchain := by
  induction compilers generalizing before with
  | nil =>
    obtain rfl := Except.ok.inj h
    exact .inl hfound
  | cons compiler compilers ih =>
    obtain ⟨first, hfirst, hrest⟩ := ofCompilers_cons h
    rcases ih hrest with hbefore | ⟨other, hmem, hother⟩
    · rw [Dict.get?_insert] at hbefore
      split at hbefore
      case isTrue hid =>
        obtain rfl := Option.some.inj hbefore
        exact .inr ⟨compiler, List.mem_cons_self .., hid.symm, hfirst⟩
      case isFalse => exact .inl hbefore
    · exact .inr ⟨other, List.mem_cons_of_mem _ hmem, hother⟩

/-- Each of the compilers is found, and so is what was found before. -/
theorem isSome_ofCompilers (h : ofCompilers config compilers before = .ok after)
    (hid : (before.toolchains.get? id).isSome = true ∨ ∃ compiler ∈ compilers, compiler.id = id) :
    (after.toolchains.get? id).isSome = true := by
  induction compilers generalizing before with
  | nil =>
    obtain rfl := Except.ok.inj h
    exact hid.resolve_right (by simp)
  | cons compiler compilers ih =>
    obtain ⟨first, -, hrest⟩ := ofCompilers_cons h
    refine ih hrest ?_
    rw [Dict.get?_insert]
    split
    case isTrue => exact .inl rfl
    case isFalse hne =>
      refine hid.imp_right ?_
      rintro ⟨other, hmem, hother⟩
      rcases List.mem_cons.mp hmem with rfl | hmem
      · exact absurd hother.symm hne
      · exact ⟨other, hmem, hother⟩

/-- **Every configured compiler is found under its id.** -/
theorem find_of_mem {registry : Registry} (h : ofConfig config = .ok registry)
    (hconfigured : ∃ compiler ∈ config.compilers, compiler.id = id) :
    ∃ toolchain, registry.find id = .ok toolchain := by
  obtain ⟨toolchain, htoolchain⟩ :=
    Option.isSome_iff_exists.mp (isSome_ofCompilers h (.inr hconfigured))
  exact ⟨toolchain, by rw [find, htoolchain]⟩

end Registry

namespace Driver

variable {config : Config} {driver : Driver} {toolchain : Toolchain} {id : String}

/-- The driver of a configuration keeps it. -/
theorem of_ofConfig (h : ofConfig config = .ok driver) :
    driver.config = config ∧ Registry.ofConfig config = .ok driver.registry := by
  unfold ofConfig at h
  split at h
  case h_1 => cases h
  case h_2 =>
    cases hregistry : Registry.ofConfig config with
    | error failure =>
      rw [hregistry] at h
      cases h
    | ok registry =>
      rw [hregistry] at h
      obtain rfl := Except.ok.inj h
      exact ⟨rfl, rfl⟩

/-- **What is found is a configured compiler**, under the limits and in the sandbox that are
configured. -/
theorem of_find (h : ofConfig config = .ok driver) (hfound : driver.registry.find id = .ok toolchain) :
    toolchain.compiler ∈ config.compilers ∧ toolchain.compiler.id = id ∧
      toolchain.limits = config.limits ∧ toolchain.sandbox = config.sandbox := by
  unfold Registry.find at hfound
  split at hfound
  case h_2 => cases hfound
  case h_1 found hget =>
    obtain rfl := Except.ok.inj hfound
    rcases Registry.of_ofCompilers (of_ofConfig h).2 hget with hempty | ⟨compiler, hmem, rfl, hown⟩
    · cases hempty
    · obtain ⟨rfl, hlimits, hsandbox⟩ := Toolchain.of_ofCompiler hown
      exact ⟨hmem, rfl, hlimits, hsandbox⟩

end Driver

end AsmInspect

import AsmInspect.Proofs.Job.Results
import AsmInspect.Proofs.Mask

/-!
# The command line that users see

The compiler is called with flags of its own, with the flags that make it save an optimization
record if one is asked for, with the options of the user and with the source. Most of what names the
directory of the job is a path into it, and is masked. Flags for the record are made from templates,
and where the path stands inside a larger argument it is not at the front and is shown as it is.

So the real directory is shown exactly if a record is asked for in such an argument.

## Main definitions

* `Toolchain.AsksReport`: an optimization record is asked for
* `Compiler.reportArgument`, `Compiler.Wraps`: a template filled in, and one that goes around it

## Main results

* `Toolchain.commandLine_eq`: the command line, part by part
* `Toolchain.not_occurs_of_mem_commandLine`: what does not show the directory of the job
* `Toolchain.occurs_of_wraps`: what shows it
* `Driver.real_directory_shown`: what users see of the directory of a job
-/

namespace AsmInspect

open AsmInspect.Flow

/-! ### The parts of the command line -/

namespace Compiler

/-- What stands for the path of the record in a template. -/
def recordMark : Text := "\x7brecord\x7d".toList

theorem recordMark_eq : recordMark = '\x7b' :: "record\x7d".toList := by decide

theorem recordMark_ne_nil : recordMark ≠ [] := by decide

variable (compiler : Compiler)

/-- A template for a flag with the path of the record filled in. -/
def reportArgument (recordPath template : String) : String :=
  let filled := String.ofList (Text.replaceAll recordMark recordPath.toList template.toList)
  match compiler.kind with
  | .generic => filled
  | .nvcc => "-Xcompiler=" ++ filled

theorem reportArguments_eq (recordPath : String) : compiler.reportArguments recordPath =
    compiler.optArgs.map (compiler.reportArgument recordPath) := by
  unfold reportArguments filledOptArgs reportArgument
  cases compiler.kind
  · rw [List.map_map]
    rfl
  · rfl

/-- The argument of a template goes around the path of the record: the path comes with something
before it. -/
def Wraps (template : String) : Prop :=
  ∃ before after, template.toList = before ++ recordMark ++ after ∧
    (compiler.kind = .nvcc ∨ before ≠ [])

end Compiler

namespace Toolchain

variable (toolchain : Toolchain) (request : BuildRequest) (jobDir : String)

/-- An optimization record is asked for: the compiler can save one, and the user wants it. -/
def AsksReport : Prop :=
  toolchain.compiler.supportsOptOutput = true ∧
    ∃ option ∈ request.userOptions, option = "-fsave-optimization-record" ∨
      (toolchain.compiler.kind = .nvcc ∧ (option = "--optimization-info" ∨ option = "-opt-info"))

theorem asksReport_iff : toolchain.AsksReport request ↔
    (toolchain.compiler.supportsOptOutput &&
      toolchain.compiler.wantsReport request.userOptions) = true := by
  rw [AsksReport, Bool.and_eq_true, Compiler.wantsReport, List.any_eq_true, Compiler.reportOptions]
  cases toolchain.compiler.kind <;> simp

instance : Decidable (toolchain.AsksReport request) :=
  decidable_of_iff _ (toolchain.asksReport_iff request).symm

/-- The record is beside the output. -/
theorem withExtension_output :
    Path.withExtension (Path.join jobDir outputFileName) "opt.yaml" =
      Path.join jobDir "output.opt.yaml" := by
  have hname : '/' ∉ outputFileName.toList := by decide
  have hparts : Text.splitAt '.' outputFileName.toList = ["output".toList, ['s']] := by decide
  have hrecord : "output.opt.yaml" = "output" ++ "." ++ "opt.yaml" := by decide
  rw [hrecord]
  exact Path.withExtension_join hname (by decide) (by decide) jobDir (by decide) hparts (by decide)
    (by decide)

theorem recordPath?_eq : toolchain.recordPath? request (Path.join jobDir outputFileName) =
    if toolchain.AsksReport request then some (Path.join jobDir "output.opt.yaml") else none := by
  unfold recordPath?
  rw [withExtension_output]
  by_cases hasks : toolchain.AsksReport request
  · rw [if_pos hasks, if_pos ((toolchain.asksReport_iff request).mp hasks)]
  · rw [if_neg hasks, if_neg fun h => hasks ((toolchain.asksReport_iff request).mpr h)]

/-- **The command line, part by part.** -/
theorem commandLine_eq : toolchain.commandLine request jobDir =
    toolchain.compiler.buildArguments request.filters (Path.join jobDir "output.s") ++
      (if toolchain.AsksReport request then
        toolchain.compiler.reportArguments (Path.join jobDir "output.opt.yaml") else []) ++
      request.userOptions ++ [Path.join jobDir toolchain.compiler.sourceFileName] := by
  unfold commandLine
  simp only [recordPath?_eq]
  split <;> rfl

end Toolchain

namespace Compiler

/-- The flags of a compiler: most are words of their own, and two may be paths. -/
theorem mem_buildArguments {compiler : Compiler} {filters : Filters} {outputPath option : String}
    (h : option ∈ compiler.buildArguments filters outputPath) :
    option ∈ ["-g", "-o", "-S", "-c", "-lineinfo", "-keep", "-keep-dir", "-Xcompiler=-S"] ∨
      option = outputPath ∨ option = (Path.parent? outputPath).getD "." := by
  unfold buildArguments at h
  cases hkind : compiler.kind <;> cases hexecute : filters.execute <;>
    cases hbinary : filters.binary <;> rw [hkind] at h <;>
    simp only [hexecute, hbinary, List.mem_append, List.mem_cons, List.not_mem_nil, or_false,
      if_true, Bool.false_eq_true, if_false] at h ⊢ <;>
    tauto

end Compiler

/-! ### What shows the directory -/

/-- Job directories have names like this. -/
structure IsJobName (name : String) : Prop where
  starts : "asmview-".toList <+: name.toList
  noSlash : '/' ∉ name.toList

namespace IsJobName

variable {name : String} (h : IsJobName name)

include h

theorem toList_eq : ∃ rest, name.toList = 'a' :: rest := by
  obtain ⟨rest, hrest⟩ := h.starts
  exact ⟨_, hrest.symm⟩

theorem ne_empty : name ≠ "" := by
  rintro rfl
  exact absurd h.starts (by decide)

theorem ne_dot : name ≠ "." := by
  rintro rfl
  exact absurd h.starts (by decide)

/-- A directory with such a name is below the root. -/
theorem below {sandbox : Sandbox} {jobDir : String}
    (hjobDir : jobDir = Path.join sandbox.root name) : sandbox.Below jobDir name :=
  ⟨h.ne_empty, h.noSlash, hjobDir⟩

/-- The name of a job's directory is none of a file in it. -/
theorem not_occurs_file {file : Text} (hfile : ¬ ['/', 'a'] <:+: file) :
    ¬ '/' :: name.toList <:+: file := by
  obtain ⟨rest, hrest⟩ := h.toList_eq
  rw [hrest]
  exact fun hoccurs => hfile ((List.prefix_append ['/', 'a'] rest).isInfix.trans hoccurs)

end IsJobName

namespace Toolchain

section Shown

variable {toolchain : Toolchain} {request : BuildRequest} {mask name jobDir : String}
  (hides : toolchain.sandbox.Hides mask) (hname : IsJobName name)
  (below : toolchain.sandbox.Below jobDir name)

include hides below

/-- What does not have the root does not show the directory. -/
theorem not_occurs_of_not_root {value : String}
    (hvalue : ¬ toolchain.sandbox.bareRoot <:+: value.toList) :
    ¬ jobDir.toList <:+: (toolchain.sandbox.maskPath value).toList := by
  rw [hides.maskPath_of_not_prefix fun hprefix => hvalue hprefix.isInfix]
  exact fun hoccurs => hvalue ((below.occurs hides).trans hoccurs)

/-- A word without slashes does not show the directory. -/
theorem not_occurs_of_no_slash {value : String} (hvalue : '/' ∉ value.toList) :
    ¬ jobDir.toList <:+: (toolchain.sandbox.maskPath value).toList := by
  apply not_occurs_of_not_root hides below
  obtain ⟨rest, hbare⟩ := hides.bareRoot_eq
  rw [hbare]
  exact fun hoccurs => hvalue (hoccurs.subset (List.mem_cons_self ..))

theorem join_eq {file : String} (hfile : '/' ∉ file.toList) :
    Path.join jobDir file = jobDir ++ "/" ++ file := by
  obtain ⟨base, rfl, -⟩ := below.path_eq hides
  exact Path.join_slash below.noSlash below.name_ne base hfile

include hname

/-- A file in the directory does not show the directory. -/
theorem not_occurs_file {file : String} (hfile : '/' ∉ file.toList)
    (hends : ¬ ['/', 'a'] <:+: ("/" ++ file).toList) :
    ¬ jobDir.toList <:+: (toolchain.sandbox.maskPath (Path.join jobDir file)).toList := by
  apply below.not_occurs_maskPath hides ("/" ++ file).toList ?_
    (hname.not_occurs_file hends)
  rw [join_eq hides below hfile, String.append_assoc, String.toList_append]

/-- The compiler's own flags do not show the directory. -/
theorem not_occurs_buildArguments {option : String}
    (h : option ∈ toolchain.compiler.buildArguments request.filters (Path.join jobDir "output.s")) :
    ¬ jobDir.toList <:+: (toolchain.sandbox.maskPath option).toList := by
  rcases Compiler.mem_buildArguments h with hword | rfl | rfl
  · have hwords : ∀ option ∈ ["-g", "-o", "-S", "-c", "-lineinfo", "-keep", "-keep-dir",
        "-Xcompiler=-S"], '/' ∉ option.toList := by decide
    exact not_occurs_of_no_slash hides below (hwords option hword)
  · exact not_occurs_file hides hname below (by decide) (by decide)
  · -- the directory of the output is that of the job
    have hparent : Path.parent? (Path.join jobDir "output.s") = some jobDir := by
      rw [join_eq hides below (by decide)]
      obtain ⟨base, rfl, -⟩ := below.path_eq hides
      exact Path.parent?_slash (by decide) (by decide) (by decide) below.noSlash below.name_ne
        hname.ne_dot
    rw [hparent, Option.getD_some]
    exact below.not_occurs_maskPath hides [] (by simp) (by simp)

/-- **A template that does not go around the path** does not show the directory. -/
theorem not_occurs_reportArgument {template : String}
    (hroot : ¬ toolchain.sandbox.bareRoot <:+: template.toList)
    (hwraps : ¬ toolchain.compiler.Wraps template)
    (hfresh : ¬ '/' :: name.toList <:+: template.toList) :
    ¬ jobDir.toList <:+: (toolchain.sandbox.maskPath (toolchain.compiler.reportArgument
      (Path.join jobDir "output.opt.yaml") template)).toList := by
  by_cases hmark : Compiler.recordMark <:+: template.toList
  case neg =>
    -- nothing is filled in
    apply not_occurs_of_not_root hides below
    unfold Compiler.reportArgument
    rw [Text.replaceAll_of_not_occurs hmark, String.ofList_toList]
    cases toolchain.compiler.kind with
    | generic => exact hroot
    | nvcc =>
      obtain ⟨rest, hbare⟩ := hides.bareRoot_eq
      rw [hbare] at hroot ⊢
      rw [String.toList_append]
      exact fun hoccurs => hroot (Text.occurs_of_not_mem (by decide) hoccurs)
  case pos =>
    obtain ⟨before, after, htemplate⟩ := hmark
    have hkind : toolchain.compiler.kind = .generic := by
      cases hkind : toolchain.compiler.kind with
      | generic => rfl
      | nvcc => exact absurd ⟨before, after, htemplate.symm, .inl hkind⟩ hwraps
    have hbefore : before = [] := by
      by_contra hne
      exact hwraps ⟨before, after, htemplate.symm, .inr hne⟩
    rw [hbefore, List.nil_append] at htemplate
    -- the path is filled in at the front, and only there
    have honce : ¬ Compiler.recordMark <:+: after := by
      rintro ⟨gap, last, hafter⟩
      refine hwraps ⟨Compiler.recordMark ++ gap, last, ?_, .inr ?_⟩
      · rw [← htemplate, ← hafter]
        simp only [List.append_assoc]
      · exact List.append_ne_nil_of_left_ne_nil Compiler.recordMark_ne_nil gap
    have hfile : ("/" ++ "output.opt.yaml").toList = '/' :: 'o' :: "utput.opt.yaml".toList := by
      decide
    have htail : ¬ '/' :: name.toList <:+: ("/" ++ "output.opt.yaml").toList ++ after := by
      obtain ⟨rest, hrest⟩ := hname.toList_eq
      rw [hfile, List.cons_append]
      intro hoccurs
      rcases List.infix_cons_iff.mp hoccurs with hfirst | hlater
      · rw [hrest, List.cons_append, List.cons_prefix_cons, List.cons_prefix_cons] at hfirst
        exact absurd hfirst.2.1 (by decide)
      · apply hfresh
        rw [← htemplate]
        have hafter : '/' :: name.toList <:+: after :=
          Text.occurs_of_not_mem (by decide) hlater
        exact hafter.trans (List.suffix_append _ after).isInfix
    refine below.not_occurs_maskPath hides _ ?_ htail
    have hvalue : Text.replaceAll Compiler.recordMark (Path.join jobDir "output.opt.yaml").toList
        template.toList = (Path.join jobDir "output.opt.yaml").toList ++ after := by
      rw [← htemplate, Text.replaceAll_append Compiler.recordMark_ne_nil,
        Text.replaceAll_of_not_occurs honce]
    rw [Compiler.reportArgument, hkind, hvalue, String.toList_ofList,
      join_eq hides below (by decide), String.append_assoc, String.toList_append,
      List.append_assoc]

omit hname in
/-- **A template that goes around the path** shows the directory. -/
theorem occurs_of_wraps {template : String} (hwraps : toolchain.compiler.Wraps template)
    (hhead : toolchain.compiler.kind = .nvcc ∨ template.toList.head? ≠ some '/') :
    jobDir.toList <:+: (toolchain.sandbox.maskPath (toolchain.compiler.reportArgument
      (Path.join jobDir "output.opt.yaml") template)).toList := by
  obtain ⟨before, after, htemplate, hwraps⟩ := hwraps
  obtain ⟨file, hrecord⟩ : ∃ file, (Path.join jobDir "output.opt.yaml").toList =
      jobDir.toList ++ file := by
    rw [join_eq hides below (by decide), String.append_assoc]
    exact ⟨_, String.toList_append⟩
  generalize Path.join jobDir "output.opt.yaml" = recordPath at hrecord ⊢
  have hthrough {text : Text} (hmark : Compiler.recordMark <:+: text) :
      jobDir.toList <:+: Text.replaceAll Compiler.recordMark recordPath.toList text := by
    refine List.IsInfix.trans ?_ (Text.occurs_replaceAll Compiler.recordMark_ne_nil hmark)
    rw [hrecord]
    exact (List.prefix_append _ file).isInfix
  have hfilled := hthrough ⟨before, after, htemplate.symm⟩
  cases hkind : toolchain.compiler.kind with
  | nvcc =>
    -- the argument starts with a flag
    have hvalue : (toolchain.compiler.reportArgument recordPath template).toList =
        "-Xcompiler=".toList ++
          Text.replaceAll Compiler.recordMark recordPath.toList template.toList := by
      rw [Compiler.reportArgument, hkind, String.toList_append]
      exact congrArg _ String.toList_ofList
    rw [hides.maskPath_of_head, hvalue]
    · exact hfilled.trans (List.suffix_append ..).isInfix
    · have hflag : "-Xcompiler=".toList.head? = some '-' := by decide
      rw [hvalue, List.head?_append, hflag, Option.some_or]
      decide
  | generic =>
    have hbefore : before ≠ [] := hwraps.resolve_left (by rw [hkind]; decide)
    have hplain : template.toList.head? ≠ some '/' := hhead.resolve_left (by rw [hkind]; decide)
    have hvalue : (toolchain.compiler.reportArgument recordPath template).toList =
        Text.replaceAll Compiler.recordMark recordPath.toList template.toList := by
      rw [Compiler.reportArgument, hkind, String.toList_ofList]
    by_cases hmark : Compiler.recordMark <+: template.toList
    case pos =>
      -- the path at the front is masked, and there is another one behind it
      obtain ⟨rest, hrest⟩ := hmark
      have hagain : Compiler.recordMark <:+: rest := by
        rw [Compiler.recordMark_eq] at hrest htemplate ⊢
        exact Text.occurs_behind (by decide) hbefore (hrest.trans htemplate)
      rw [← hrest, Text.replaceAll_append Compiler.recordMark_ne_nil, hrecord, List.append_assoc,
        ← hrecord] at hvalue
      have hbehind := below.suffix_maskPath hides hvalue
      exact ((hthrough hagain).trans (List.suffix_append ..).isInfix).trans hbehind.isInfix
    case neg =>
      rw [hides.maskPath_of_head, hvalue]
      · exact hfilled
      · -- the first character stays
        rw [hvalue]
        cases hchars : template.toList with
        | nil =>
          rw [hchars] at htemplate
          exact absurd (List.append_eq_nil_iff.mp (List.append_eq_nil_iff.mp htemplate.symm).1).1
            hbefore
        | cons c rest =>
          rw [hchars] at hmark hplain
          rw [Text.replaceAll_cons hmark]
          exact hplain

/-- **What does not show the directory of the job**: everything but templates that go around the
path, or that have the name of the directory by chance. -/
theorem not_occurs_of_mem_commandLine
    (hoptions : ∀ option ∈ request.userOptions,
      ¬ toolchain.sandbox.bareRoot <:+: option.toList)
    (htemplates : ∀ template ∈ toolchain.compiler.optArgs,
      ¬ toolchain.sandbox.bareRoot <:+: template.toList) {option : String}
    (hmem : option ∈ toolchain.commandLine request jobDir)
    (hshown : jobDir.toList <:+: (toolchain.sandbox.maskPath option).toList) :
    toolchain.AsksReport request ∧ ∃ template ∈ toolchain.compiler.optArgs,
      option = toolchain.compiler.reportArgument (Path.join jobDir "output.opt.yaml") template ∧
        (toolchain.compiler.Wraps template ∨ '/' :: name.toList <:+: template.toList) := by
  rw [commandLine_eq, List.mem_append, List.mem_append, List.mem_append] at hmem
  rcases hmem with ((hflag | hreport) | huser) | hsource
  · exact absurd hshown (not_occurs_buildArguments hides hname below hflag)
  · split at hreport
    case isFalse => cases hreport
    case isTrue hasks =>
      rw [Compiler.reportArguments_eq] at hreport
      obtain ⟨template, htemplate, rfl⟩ := List.mem_map.mp hreport
      refine ⟨hasks, template, htemplate, rfl, ?_⟩
      by_contra hneither
      rw [not_or] at hneither
      exact not_occurs_reportArgument hides hname below (htemplates template htemplate)
        hneither.1 hneither.2 hshown
  · exact absurd hshown (not_occurs_of_not_root hides below (hoptions option huser))
  · obtain rfl := List.mem_singleton.mp hsource
    have hfile : '/' ∉ toolchain.compiler.sourceFileName.toList ∧
        ¬ ['/', 'a'] <:+: ("/" ++ toolchain.compiler.sourceFileName).toList := by
      unfold Compiler.sourceFileName
      cases toolchain.compiler.kind <;> decide
    exact absurd hshown (not_occurs_file hides hname below hfile.1 hfile.2)

end Shown

end Toolchain

namespace Driver

/-! ### A record in a file of its own -/

/-- A compiler that is told where to save its record. -/
def recordCompiler : Compiler :=
  { id := "clang", kind := .generic, exe := "clang++", supportsOptOutput := true
    optArgs := ["-fsave-optimization-record", "-foptimization-record-file=\x7brecord\x7d"] }

/-- A configuration with this compiler. -/
def recordConfig : Config :=
  { sandbox := { root := "/srv/jobs", maskRoot := some "/app" }, compilers := [recordCompiler] }

/-- Its toolchain. -/
def recordToolchain : Toolchain := { compiler := recordCompiler, sandbox := recordConfig.sandbox }

/-- The driver of the configuration. -/
def recordDriver : Driver :=
  { config := recordConfig, registry := { toolchains := Dict.ofList [("clang", recordToolchain)] } }

/-- A request for a record. -/
def recordRequest : BuildRequest :=
  { compilerId := "clang", userOptions := ["-fsave-optimization-record"] }

/-- What happens to the request if the compiler rejects the source. -/
def recordEvents : List Event :=
  recordToolchain.opening recordRequest 0 "/srv/jobs/asmview-1" (.ok { code := 1 }) ++
    Toolchain.rejectedEnd 0

theorem recordRequest_answers :
    recordDriver.Answers recordRequest recordEvents (.ok (recordToolchain.rejection recordRequest
      "/srv/jobs/asmview-1" { code := 1 } (0 - 0))) := by
  have hfound : recordDriver.registry.find "clang" = .ok recordToolchain := rfl
  exact .ended hfound (Toolchain.run_of_rejected (by decide) 0 "/srv/jobs/asmview-1" 0)

theorem recordConfig_hides : recordConfig.sandbox.Hides "/app" where
  absolute := by decide
  root_ne := by decide
  masked := rfl
  discreet := by decide

/-! ### Requests -/

/-- **What users see of the directory of a job.** There is an absolute root to hide, and neither the
mask nor the user's options nor the templates of the compiler give it away. Then an option that is
shown with the real directory is a flag for an optimization record which was asked for, and its
template goes around the path, if it does not have the name of the directory by chance. Every such
template is shown with the real directory, unless it starts like a path.

A job directory is made below the root, under a name of its own. -/
theorem real_directory_shown (config : Config) (driver : Driver) (request : BuildRequest)
    (events : List Event) (shown : CompilationResult) (mask : String)
    (hdriver : Driver.ofConfig config = .ok driver)
    (hanswer : driver.Answers request events (.ok shown))
    (hides : config.sandbox.Hides mask)
    (hoptions : ∀ option ∈ request.userOptions, ¬ config.sandbox.bareRoot <:+: option.toList)
    (htemplates : ∀ compiler ∈ config.compilers, compiler.id = request.compilerId →
      ∀ template ∈ compiler.optArgs, ¬ config.sandbox.bareRoot <:+: template.toList)
    (hnames : ∀ jobDir, Told events (.jobDirectory config.sandbox.root) (.ok jobDir) →
      ∃ name, IsJobName name ∧ jobDir = Path.join config.sandbox.root name) :
    ∃ toolchain name jobDir, driver.registry.find request.compilerId = .ok toolchain ∧
      toolchain.compiler ∈ config.compilers ∧
      Told events (.jobDirectory config.sandbox.root) (.ok jobDir) ∧
      jobDir = Path.join config.sandbox.root name ∧
      (∀ option ∈ shown.compilationOptions, jobDir.toList <:+: option.toList →
        toolchain.AsksReport request ∧ ∃ template ∈ toolchain.compiler.optArgs,
          option = config.sandbox.maskPath (toolchain.compiler.reportArgument
            (Path.join jobDir "output.opt.yaml") template) ∧
          (toolchain.compiler.Wraps template ∨ '/' :: name.toList <:+: template.toList)) ∧
      (toolchain.AsksReport request → ∀ template ∈ toolchain.compiler.optArgs,
        toolchain.compiler.Wraps template →
        (toolchain.compiler.kind = .nvcc ∨ template.toList.head? ≠ some '/') →
        ∃ option ∈ shown.compilationOptions, jobDir.toList <:+: option.toList) := by
  cases hanswer with
  | ended hfound hrun =>
    rename_i toolchain
    obtain ⟨hmem, hid, -, hsandbox⟩ := of_find hdriver hfound
    rcases Toolchain.opening_or_refused hrun with ⟨started, jobDir, answer, later, rfl, hlater⟩ |
      ⟨failure, he, -⟩
    case inr => cases he
    case inl =>
      obtain ⟨htold, -⟩ := toolchain.told_opening request started jobDir answer later
      have hcommand := Toolchain.compilationOptions_of_answered hlater
      rw [hsandbox] at htold hcommand
      obtain ⟨name, hname, hjobDir⟩ := hnames jobDir htold
      rw [← hsandbox] at hides hoptions hjobDir
      have below := hname.below hjobDir
      refine ⟨toolchain, name, jobDir, hfound, hmem, htold, hsandbox ▸ hjobDir, ?_, ?_⟩
      · intro option hoption hoccurs
        rw [hcommand] at hoption
        obtain ⟨own, hown, rfl⟩ := List.mem_map.mp hoption
        rw [← hsandbox] at hoccurs
        obtain ⟨hasks, template, htemplate, rfl, hshows⟩ :=
          Toolchain.not_occurs_of_mem_commandLine hides hname below hoptions
            (hsandbox ▸ htemplates _ hmem hid) hown hoccurs
        exact ⟨hasks, template, htemplate, rfl, hshows⟩
      · intro hasks template htemplate hwraps hhead
        refine ⟨_, ?_, Toolchain.occurs_of_wraps hides below hwraps hhead⟩
        rw [hcommand, ← hsandbox]
        refine List.mem_map_of_mem ?_
        rw [Toolchain.commandLine_eq, if_pos hasks, Compiler.reportArguments_eq]
        exact List.mem_append_left _ (List.mem_append_left _
          (List.mem_append_right _ (List.mem_map_of_mem htemplate)))

/-- A template with the path behind an equals sign. -/
theorem real_directory_shown_record :
    ∃ shown, recordDriver.Answers recordRequest recordEvents (.ok shown) ∧
      ∃ option ∈ shown.compilationOptions, "/srv/jobs/asmview-1".toList <:+: option.toList := by
  have hfound : recordDriver.registry.find "clang" = .ok recordToolchain := rfl
  obtain ⟨toolchain, name, jobDir, hown, -, htold, -, -, hshows⟩ :=
    real_directory_shown recordConfig recordDriver recordRequest recordEvents _ "/app" rfl
      recordRequest_answers recordConfig_hides (by decide) (by decide) (by
        intro jobDir htold
        obtain rfl : jobDir = "/srv/jobs/asmview-1" := by
          simpa [Told, recordEvents, Toolchain.opening, Toolchain.rejectedEnd,
            recordToolchain] using htold
        exact ⟨"asmview-1", ⟨by decide, by decide⟩, by decide⟩)
  obtain rfl := Except.ok.inj (hfound.symm.trans hown)
  obtain rfl : jobDir = "/srv/jobs/asmview-1" := by
    simpa [Told, recordEvents, Toolchain.opening, Toolchain.rejectedEnd,
      recordToolchain] using htold
  refine ⟨_, recordRequest_answers, hshows ⟨rfl, by decide⟩
    "-foptimization-record-file=\x7brecord\x7d" (by decide) ?_ (.inr (by decide))⟩
  exact ⟨"-foptimization-record-file=".toList, [], by decide, .inr (by decide)⟩

/-- The directory is shown, though nothing gives away the root. -/
theorem record_argument_shows_directory :
    recordConfig.sandbox.Hides "/app" ∧
    (∀ option ∈ recordRequest.userOptions,
      ¬ recordConfig.sandbox.bareRoot <:+: option.toList) ∧
    (∀ template ∈ recordCompiler.optArgs,
      ¬ recordConfig.sandbox.bareRoot <:+: template.toList) ∧
    Told recordEvents (.jobDirectory "/srv/jobs") (.ok "/srv/jobs/asmview-1") ∧
    ∃ shown, recordDriver.Answers recordRequest recordEvents (.ok shown) ∧
      "-foptimization-record-file=/srv/jobs/asmview-1/output.opt.yaml" ∈
        shown.compilationOptions := by
  refine ⟨recordConfig_hides, by decide, by decide, ⟨[], ?_⟩, _, recordRequest_answers, ?_⟩
  · simp [recordEvents, Toolchain.opening, recordToolchain, recordConfig]
  · decide +kernel

end Driver

end AsmInspect

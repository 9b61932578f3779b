import AsmInspect.Mask
import AsmInspect.Proofs.Path
import AsmInspect.Proofs.Text.Occurrences
import Mathlib.Data.List.TakeWhile

/-!
# What masking hides

The mask takes the place of the root at the front of a path, and nowhere else. So a path below the
root, whatever follows it, is shown without its own directory; a value in which the root does not
stand at the front is shown as it is, with any path that it holds.

What comes behind the root is not touched. It could bring back what has been masked only by
repeating the name of the directory.

In a text the root is masked wherever it stands. A mask that has nothing in common with the root
where the two could meet keeps the root from being put together anew, and then no text that has been
masked names the root.

## Main definitions

* `Sandbox.Hides`: there is a root to hide, and a mask that does not give it away

## Main results

* `Sandbox.maskPath_below`: a path below the root
* `Sandbox.maskPath_of_head`: a value that is no absolute path
* `Sandbox.not_occurs_maskPath`: a directory below the root is hidden
* `Sandbox.exists_join_maskText`: a text with the mask wherever the root stood
* `Sandbox.not_occurs_maskText`: a text that has been masked does not name the root
-/

namespace AsmInspect

namespace Text

/-- What is dropped from the end is of the class, and the rest does not end in it. -/
theorem exists_dropEndWhile (p : Char → Bool) (text : Text) :
    ∃ tail, text = dropEndWhile p text ++ tail ∧ (∀ c ∈ tail, p c = true) ∧
      ∀ c, (dropEndWhile p text).getLast? = some c → p c = false := by
  refine ⟨(text.reverse.takeWhile p).reverse, ?_, ?_, ?_⟩
  · have hsplit := congrArg List.reverse (List.takeWhile_append_dropWhile (p := p)
      (l := text.reverse))
    rw [List.reverse_append, List.reverse_reverse] at hsplit
    exact hsplit.symm
  · intro c hc
    exact List.mem_takeWhile_imp (List.mem_reverse.mp hc)
  · intro c hlast
    rw [dropEndWhile, List.getLast?_reverse] at hlast
    have hfirst := List.head?_dropWhile_not p text.reverse
    rwa [hlast] at hfirst

end Text

namespace Sandbox

/-- There is an absolute root to hide, and a mask that does not give it away. -/
structure Hides (sandbox : Sandbox) (mask : String) : Prop where
  absolute : Path.isAbsolute sandbox.root = true
  root_ne : sandbox.bareRoot ≠ []
  masked : sandbox.maskRoot = some mask
  discreet : ¬ sandbox.bareRoot <:+: mask.toList

variable {sandbox : Sandbox} {mask : String} {value : String}

/-- The root is what is hidden, with slashes behind it. -/
theorem root_eq (sandbox : Sandbox) :
    ∃ slashes, sandbox.root.toList = sandbox.bareRoot ++ slashes ∧ (∀ c ∈ slashes, c = '/') ∧
      ∀ c, sandbox.bareRoot.getLast? = some c → c ≠ '/' := by
  obtain ⟨slashes, hroot, hslashes, hlast⟩ :=
    Text.exists_dropEndWhile (· == '/') sandbox.root.toList
  refine ⟨slashes, hroot, fun c hc => by simpa using hslashes c hc, fun c hc => ?_⟩
  simpa using hlast c hc

theorem masking?_of_masked (hroot : sandbox.bareRoot ≠ [])
    (hmasked : sandbox.maskRoot = some mask) :
    sandbox.masking? = some (sandbox.bareRoot, Text.dropSlashes mask.toList) := by
  have hne : sandbox.bareRoot.isEmpty = false := by simpa using hroot
  simp [masking?, hmasked, hne]

namespace Hides

variable (h : sandbox.Hides mask)

include h

/-- What is hidden starts with a slash. -/
theorem bareRoot_eq : ∃ rest, sandbox.bareRoot = '/' :: rest := by
  obtain ⟨slashes, hroot, -, -⟩ := sandbox.root_eq
  obtain ⟨c, rest, hbare⟩ := List.exists_cons_of_ne_nil h.root_ne
  have habsolute := h.absolute
  rw [Path.isAbsolute, hroot, hbare, List.cons_append, List.head?_cons, beq_iff_eq] at habsolute
  exact ⟨rest, by rw [hbare, Option.some.inj habsolute]⟩

theorem masking?_eq :
    sandbox.masking? = some (sandbox.bareRoot, Text.dropSlashes mask.toList) :=
  masking?_of_masked h.root_ne h.masked

/-- The root does not occur in what is shown in its place. -/
theorem not_occurs_mask : ¬ sandbox.bareRoot <:+: Text.dropSlashes mask.toList := by
  obtain ⟨slashes, hmask, -, -⟩ := Text.exists_dropEndWhile (· == '/') mask.toList
  intro hoccurs
  apply h.discreet
  rw [hmask]
  exact hoccurs.trans (List.prefix_append _ slashes).isInfix

/-- **A path below the root** is shown with the mask in place of the root. -/
theorem maskPath_below {rest : Text} (hvalue : value.toList = sandbox.bareRoot ++ '/' :: rest) :
    (sandbox.maskPath value).toList = Text.dropSlashes mask.toList ++ '/' :: rest := by
  have hafter : Text.after? sandbox.bareRoot value.toList = some ('/' :: rest) := by
    rw [Text.after?, hvalue, if_pos (List.isPrefixOf_iff_prefix.mpr (List.prefix_append ..)),
      List.drop_left]
  rw [maskPath, h.masking?_eq]
  simp [hafter]

/-- A value without the root at its front is shown as it is. -/
theorem maskPath_of_not_prefix (hvalue : ¬ sandbox.bareRoot <+: value.toList) :
    sandbox.maskPath value = value := by
  have hafter : Text.after? sandbox.bareRoot value.toList = none := by
    rw [Text.after?, if_neg fun hp => hvalue (List.isPrefixOf_iff_prefix.mp hp)]
  rw [maskPath, h.masking?_eq]
  simp [hafter]

/-- **A value that is no absolute path** is shown as it is. -/
theorem maskPath_of_head (hvalue : value.toList.head? ≠ some '/') :
    sandbox.maskPath value = value := by
  apply h.maskPath_of_not_prefix
  rintro ⟨rest, hrest⟩
  obtain ⟨tail, hbare⟩ := h.bareRoot_eq
  rw [← hrest, hbare] at hvalue
  exact hvalue rfl

end Hides

/-! ### Directories below the root -/

/-- A directory below the root, by the name it has there. -/
structure Below (sandbox : Sandbox) (jobDir name : String) : Prop where
  name_ne : name ≠ ""
  noSlash : '/' ∉ name.toList
  isJoin : jobDir = Path.join sandbox.root name

namespace Below

variable {jobDir name : String} (h : sandbox.Hides mask) (hb : sandbox.Below jobDir name)

include h hb

/-- The path of a directory below the root. -/
theorem path_eq : ∃ base : String, jobDir = base ++ "/" ++ name ∧
    ∃ slashes, base.toList = sandbox.bareRoot ++ slashes ∧ ∀ c ∈ slashes, c = '/' := by
  obtain ⟨slashes, hroot, hslashes, hlast⟩ := sandbox.root_eq
  have hempty : sandbox.root.isEmpty = false := by
    rw [← Bool.not_eq_true, String.isEmpty_iff, ← String.toList_eq_nil_iff, hroot]
    exact fun he => h.root_ne (List.append_eq_nil_iff.mp he).1
  have hrelative := Path.isAbsolute_of_not_mem hb.noSlash
  cases hlast' : slashes.getLast? with
  | none =>
    -- the root has no slash at its end, so one is put there
    obtain rfl := List.getLast?_eq_none_iff.mp hlast'
    rw [List.append_nil] at hroot
    have hno : (sandbox.root.toList.getLast? == some '/') = false := by
      rw [beq_eq_false_iff_ne, hroot]
      exact fun he => hlast '/' he rfl
    refine ⟨sandbox.root, ?_, [], by rw [hroot, List.append_nil], by simp⟩
    rw [hb.isJoin]
    simp [Path.join, hrelative, hempty, hno]
  | some c =>
    -- the last of its slashes stands before the name
    obtain ⟨front, rfl⟩ := List.getLast?_eq_some_iff.mp hlast'
    obtain rfl := hslashes c (by simp)
    refine ⟨String.ofList (sandbox.bareRoot ++ front), ?_, front, String.toList_ofList,
      fun d hd => hslashes d (by simp [hd])⟩
    rw [hb.isJoin, ← String.toList_inj]
    simp [Path.join, hrelative, hempty, hroot]

/-- The root occurs in it. -/
theorem occurs : sandbox.bareRoot <:+: jobDir.toList := by
  obtain ⟨base, rfl, slashes, hbase, -⟩ := path_eq h hb
  rw [String.toList_append, String.toList_append, hbase, List.append_assoc, List.append_assoc]
  exact (List.prefix_append ..).isInfix

/-- A path that leads through it is shown with the mask in place of the root. -/
theorem maskPath_eq {tail : Text} (hvalue : value.toList = jobDir.toList ++ tail) :
    ∃ slashes, jobDir.toList = sandbox.bareRoot ++ slashes ++ '/' :: name.toList ∧
      (sandbox.maskPath value).toList =
        Text.dropSlashes mask.toList ++ slashes ++ '/' :: (name.toList ++ tail) := by
  obtain ⟨base, rfl, slashes, hbase, hslashes⟩ := path_eq h hb
  have hdir : (base ++ "/" ++ name).toList =
      sandbox.bareRoot ++ slashes ++ '/' :: name.toList := by
    rw [String.toList_append, String.toList_append, hbase]
    simp
  -- the root is followed by a slash, be it one of its own or the one before the name
  obtain ⟨rest, hrest⟩ : ∃ rest, slashes ++ '/' :: (name.toList ++ tail) = '/' :: rest := by
    cases slashes with
    | nil => exact ⟨_, rfl⟩
    | cons c slashes => exact ⟨_, by rw [hslashes c (List.mem_cons_self ..), List.cons_append]⟩
  refine ⟨slashes, hdir, ?_⟩
  rw [List.append_assoc, hrest]
  apply h.maskPath_below
  rw [hvalue, hdir, ← hrest]
  simp

/-- **A directory below the root is hidden** in every path that leads through it, unless its name
comes again behind it. -/
theorem not_occurs_maskPath (tail : Text) (hvalue : value.toList = jobDir.toList ++ tail)
    (htail : ¬ '/' :: name.toList <:+: tail) :
    ¬ jobDir.toList <:+: (sandbox.maskPath value).toList := by
  obtain ⟨slashes, hdir, hmasked⟩ := maskPath_eq h hb hvalue
  rw [hmasked, hdir]
  exact fun hoccurs => htail (Text.occurs_of_exchanged hb.noSlash h.not_occurs_mask hoccurs)

/-- What follows it is shown as it is. -/
theorem suffix_maskPath {tail : Text} (hvalue : value.toList = jobDir.toList ++ tail) :
    tail <:+ (sandbox.maskPath value).toList := by
  obtain ⟨slashes, -, hmasked⟩ := maskPath_eq h hb hvalue
  rw [hmasked, ← List.cons_append, ← List.append_assoc]
  exact List.suffix_append _ tail

end Below

/-! ### Texts -/

section Texts

variable (hmasked : sandbox.maskRoot = some mask)
  (apart : Text.Apart sandbox.bareRoot (Text.dropSlashes mask.toList))

include hmasked apart

theorem toList_maskText (text : String) : (sandbox.maskText text).toList =
    Text.replaceAll sandbox.bareRoot (Text.dropSlashes mask.toList) text.toList := by
  rw [maskText, masking?_of_masked apart.word_ne_nil hmasked]
  exact String.toList_ofList

/-- **A text with the mask wherever the root stood**, and nothing else changed. -/
theorem exists_join_maskText (text : String) :
    ∃ parts, (∀ part ∈ parts, ¬ sandbox.bareRoot <:+: part) ∧
      text.toList = Text.join sandbox.bareRoot parts ∧
      (sandbox.maskText text).toList = Text.join (Text.dropSlashes mask.toList) parts := by
  obtain ⟨parts, hparts, -, htext, hnew⟩ := Text.exists_join_replaceAll apart.word_ne_nil
    (Text.dropSlashes mask.toList) text.toList
  exact ⟨parts, hparts, htext, (toList_maskText hmasked apart text).trans hnew⟩

/-- **A text that has been masked does not name the root.** -/
theorem not_occurs_maskText (text : String) :
    ¬ sandbox.bareRoot <:+: (sandbox.maskText text).toList := by
  rw [toList_maskText hmasked apart]
  exact apart.not_occurs_replaceAll text.toList

/-- A text that does not name the root is shown as it is. -/
theorem maskText_of_not_occurs {text : String} (htext : ¬ sandbox.bareRoot <:+: text.toList) :
    sandbox.maskText text = text := by
  rw [← String.toList_inj, toList_maskText hmasked apart, Text.replaceAll_of_not_occurs htext]

end Texts

end Sandbox

end AsmInspect

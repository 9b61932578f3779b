import AsmInspect.Path
import AsmInspect.Proofs.Text.Words

/-!
# File names and the paths made of them

A file name stands between slashes and has none of its own. So the files of one directory have
different paths if they have different names, wherever the directory is, and the name and the
directory can be read off the path.

## Main results

* `Path.components_slash`: the components of a path that is made longer by a name
* `Path.of_fileName?`: what a file name is
* `Path.join_injective`: the paths of the files in one directory
* `Path.join_ne_join`: the paths of files whose names end in different ways
* `Path.parent?_slash`, `Path.withExtension_join`: the directory of a file, and its other extensions
-/

namespace AsmInspect.Path

/-! ### Components -/

/-- One more piece of a path: a component, unless it says nothing. -/
def addPiece (acc : List (Text × Nat) × Nat) (piece : Text) : List (Text × Nat) × Nat :=
  let finish := acc.2 + piece.length
  let counts := !piece.isEmpty && (piece != ['.'] || acc.2 == 0)
  (if counts then acc.1 ++ [(piece, finish)] else acc.1, finish + 1)

theorem components_eq (path : String) :
    components path = ((Text.splitAt '/' path.toList).foldl addPiece ([], 0)).1 := rfl

/-- Pieces are counted with the separators behind them. -/
theorem foldl_addPiece_snd (pieces : List Text) (acc : List (Text × Nat) × Nat) :
    (pieces.foldl addPiece acc).2 = acc.2 + (pieces.map (·.length + 1)).sum := by
  induction pieces generalizing acc with
  | nil => simp
  | cons piece pieces ih =>
    rw [List.foldl_cons, ih, List.map_cons, List.sum_cons, addPiece]
    omega

theorem addPiece_of_name {acc : List (Text × Nat) × Nat} {piece : Text} (hne : piece ≠ [])
    (hdot : piece ≠ ['.']) :
    addPiece acc piece = (acc.1 ++ [(piece, acc.2 + piece.length)], acc.2 + piece.length + 1) := by
  simp [addPiece, hne, hdot]

/-- A name is a component of its own. -/
theorem components_name {name : String} (hname : '/' ∉ name.toList) (hne : name ≠ "")
    (hdot : name ≠ ".") : components name = [(name.toList, name.toList.length)] := by
  have hne' : name.toList ≠ [] := by simpa using hne
  have hdot' : name.toList ≠ ['.'] := fun h => hdot (String.toList_inj.mp h)
  rw [components_eq, Text.splitAt_of_not_mem hname, List.foldl_cons, addPiece_of_name hne' hdot']
  simp

/-- **A name behind a slash is one component more**. -/
theorem components_slash (base : String) {name : String} (hname : '/' ∉ name.toList)
    (hne : name ≠ "") (hdot : name ≠ ".") :
    components (base ++ "/" ++ name) =
      components base ++ [(name.toList, (base ++ "/" ++ name).toList.length)] := by
  have hne' : name.toList ≠ [] := by simpa using hne
  have hdot' : name.toList ≠ ['.'] := fun h => hdot (String.toList_inj.mp h)
  have hpieces : Text.splitAt '/' (base ++ "/" ++ name).toList =
      Text.splitAt '/' base.toList ++ [name.toList] := by
    rw [← Text.splitAt_of_not_mem hname, String.toList_append, String.toList_append,
      List.append_assoc]
    exact Text.pieces_append_separator _ rfl _
  rw [components_eq, hpieces, List.foldl_append, List.foldl_cons, List.foldl_nil,
    addPiece_of_name hne' hdot', foldl_addPiece_snd, Text.sum_splitAt]
  simp [components_eq]
  omega

/-- The components of a path are pieces between its slashes, and they are not empty. -/
theorem mem_components {path : String} {component : Text × Nat} (h : component ∈ components path) :
    component.1 ∈ Text.splitAt '/' path.toList ∧ component.1 ≠ [] := by
  revert component
  unfold components
  -- what has been found is as it should be, whichever pieces are left
  refine List.foldlRecOn (motive := fun acc : List (Text × Nat) × Nat =>
    ∀ {c : Text × Nat}, c ∈ acc.1 → c.1 ∈ Text.splitAt '/' path.toList ∧ c.1 ≠ []) _ _ (by simp) ?_
  intro acc hacc piece hpiece c hc
  dsimp only at hc
  split at hc
  case isTrue hcounts =>
    rcases List.mem_append.mp hc with hc | hc
    · exact hacc hc
    · obtain rfl := List.mem_singleton.mp hc
      refine ⟨hpiece, ?_⟩
      rintro rfl
      simp at hcounts
  case isFalse => exact hacc hc

/-- A file name is not empty and has no slashes. -/
theorem of_fileName? {path name : String} (h : fileName? path = some name) :
    name.toList ≠ [] ∧ '/' ∉ name.toList := by
  unfold fileName? at h
  split at h
  case h_1 component finish hlast =>
    split at h
    case isTrue => cases h
    case isFalse =>
      obtain rfl := Option.some.inj h
      obtain ⟨hpiece, hne⟩ := mem_components (List.mem_of_getLast? hlast)
      rw [String.toList_ofList]
      refine ⟨hne, fun hmem => ?_⟩
      have hslash := Text.eq_false_of_mem_pieces hpiece hmem
      simp at hslash
  case h_2 => cases h

/-! ### Files in directories -/

/-- What goes before a name depends on the directory alone. -/
theorem exists_join_eq (base : String) :
    ∃ front, ∀ {path : String}, isAbsolute path = false → join base path = front ++ path := by
  unfold join
  by_cases hempty : base.isEmpty = true
  · exact ⟨"", fun hpath => by simp [hpath, hempty]⟩
  · by_cases hslash : (base.toList.getLast? == some '/') = true
    · exact ⟨base, fun hpath => by simp [hpath, hempty, hslash]⟩
    · exact ⟨base ++ "/", fun hpath => by simp [hpath, hempty, hslash]⟩

theorem isAbsolute_of_not_mem {file : String} (hfile : '/' ∉ file.toList) :
    isAbsolute file = false := by
  rw [isAbsolute, beq_eq_false_iff_ne]
  exact fun hhead => hfile (List.mem_of_head? hhead)

/-- **Files with different names in one directory have different paths.** -/
theorem join_injective {base name other : String} (hname : '/' ∉ name.toList)
    (hother : '/' ∉ other.toList) (h : join base name = join base other) : name = other := by
  obtain ⟨front, hfront⟩ := exists_join_eq base
  rw [hfront (isAbsolute_of_not_mem hname), hfront (isAbsolute_of_not_mem hother)] at h
  exact (String.append_right_inj front).mp h

/-- A path that is taken relative to another one ends as it did. -/
theorem suffix_join (base path : String) : path.toList <:+ (join base path).toList := by
  unfold join
  split
  · exact List.suffix_refl _
  · split
    · exact ⟨base.toList, String.toList_append.symm⟩
    · exact ⟨(base ++ "/").toList, String.toList_append.symm⟩

/-- **Files whose names end in different ways have different paths**, also in different
directories. -/
theorem join_ne_join {base base' name other : String} {c d : Char}
    (hname : name.toList.getLast? = some c) (hother : other.toList.getLast? = some d)
    (hne : c ≠ d) : join base name ≠ join base' other := by
  have hends {base path : String} {c : Char} (hlast : path.toList.getLast? = some c) :
      (join base path).toList.getLast? = some c := by
    obtain ⟨front, hfront⟩ := suffix_join base path
    rw [← hfront, List.getLast?_append, hlast, Option.some_or]
  intro h
  apply hne
  rw [← Option.some_inj, ← hends hname, h, hends hother]

/-- A file is not the directory that it is in. -/
theorem join_ne_left {base path : String} (hpath : path ≠ "")
    (hrelative : isAbsolute path = false) : join base path ≠ base := by
  intro h
  have hlength := congrArg (fun p => p.toList.length) h
  have hpositive : path.toList.length ≠ 0 := by simpa using hpath
  unfold join at hlength
  rw [hrelative, Bool.false_or] at hlength
  split at hlength
  case isTrue hempty =>
    rw [String.isEmpty_iff.mp hempty] at hlength
    exact hpositive hlength
  case isFalse =>
    split at hlength <;>
      · simp only [String.toList_append, List.length_append] at hlength
        omega

/-! ### A file in a directory -/

section File

variable {name : String} (hname : '/' ∉ name.toList) (hne : name ≠ "") (hdot : name ≠ ".")

include hname hne

/-- The path of a file in a directory. -/
theorem join_slash (base : String) {file : String} (hfile : '/' ∉ file.toList) :
    join (base ++ "/" ++ name) file = base ++ "/" ++ name ++ "/" ++ file := by
  have hempty : (base ++ "/" ++ name).isEmpty = false := by simp
  have hlast : ((base ++ "/" ++ name).toList.getLast? == some '/') = false := by
    rw [beq_eq_false_iff_ne, String.toList_append,
      List.getLast?_append_of_ne_nil _ (by simpa using hne)]
    exact fun h => hname (List.mem_of_getLast? h)
  rw [join, isAbsolute_of_not_mem hfile, hempty, Bool.or_self, if_neg Bool.false_ne_true, hlast,
    if_neg Bool.false_ne_true]

include hdot

/-- The last component of the path of a file is its name. -/
theorem getLast?_components_join (base : String) :
    (components (join base name)).getLast? = some (name.toList, (join base name).toList.length) := by
  unfold join
  split
  · rw [components_name hname hne hdot]
    rfl
  · split
    case isTrue hslash =>
      -- the directory ends in the slash that stands before the name
      obtain ⟨front, hfront⟩ := List.getLast?_eq_some_iff.mp (by simpa using hslash)
      have hbase : base = String.ofList front ++ "/" := by
        rw [← String.toList_inj, hfront, String.toList_append, String.toList_ofList]
        rfl
      rw [hbase, components_slash _ hname hne hdot, List.getLast?_concat]
    case isFalse => rw [components_slash _ hname hne hdot, List.getLast?_concat]

/-- The directory of a file in a directory is that directory. -/
theorem parent?_slash {base dir : String} (hdir : '/' ∉ dir.toList) (hdirne : dir ≠ "")
    (hdirdot : dir ≠ ".") :
    parent? (base ++ "/" ++ dir ++ "/" ++ name) = some (base ++ "/" ++ dir) := by
  have hreverse : (components (base ++ "/" ++ dir ++ "/" ++ name)).reverse =
      (name.toList, (base ++ "/" ++ dir ++ "/" ++ name).toList.length) ::
        (dir.toList, (base ++ "/" ++ dir).toList.length) :: (components base).reverse := by
    rw [components_slash _ hname hne hdot, components_slash _ hdir hdirne hdirdot]
    rw [List.reverse_append, List.reverse_append]
    rfl
  rw [parent?, hreverse]
  dsimp only
  generalize base ++ "/" ++ dir = path
  rw [String.append_assoc, String.toList_append, List.take_left, String.ofList_toList]

/-- The path of a file with another extension. -/
theorem withExtension_join (base : String) {stem extension : String} {ending : Text}
    (hdots : name ≠ "..") (hparts : Text.splitAt '.' name.toList = [stem.toList, ending])
    (hstem : stem ≠ "") (hrelative : isAbsolute (stem ++ "." ++ extension) = false) :
    withExtension (join base name) extension = join base (stem ++ "." ++ extension) := by
  obtain ⟨front, hfront⟩ := exists_join_eq base
  have hlast := getLast?_components_join hname hne hdot base
  have hfile : fileName? (join base name) = some name := by
    have hnot : ¬ ((name.toList == ['.'] || name.toList == ['.', '.']) = true) := by
      rw [Bool.or_eq_true, beq_iff_eq, beq_iff_eq, not_or]
      exact ⟨fun h => hdot (String.toList_inj.mp h), fun h => hdots (String.toList_inj.mp h)⟩
    rw [fileName?, hlast]
    dsimp only
    rw [if_neg hnot, String.ofList_toList]
  have hstem' : stem.toList.isEmpty = false := by simpa using hstem
  rw [withExtension, hlast, hfile]
  simp only [hparts, List.reverse_cons, List.reverse_nil, List.nil_append, List.singleton_append,
    Text.join, hstem']
  rw [hfront (isAbsolute_of_not_mem hname), hfront hrelative]
  have htake : List.take ((front ++ name).toList.length - name.toList.length)
      (front ++ name).toList = front.toList := by
    rw [String.toList_append, List.length_append, Nat.add_sub_cancel, List.take_left]
  rw [htake, if_neg Bool.false_ne_true, String.ofList_append, String.ofList_toList,
    String.ofList_toList]
  simp only [String.append_assoc]

end File

end AsmInspect.Path

import AsmInspect.Dict
import Mathlib.Data.List.Nodup
import Mathlib.Data.List.Perm.Basic

/-!
# Dictionaries made from lists

A dictionary that is made from entries with different names has these entries and no others,
whatever order they came in.

## Main definitions

* `Dict.Pointwise`: dictionaries with the same names and related values

## Main results

* `Dict.perm_ofList`: the entries of a dictionary made from a list
* `Dict.keys_ofList`, `Dict.get?_ofList`, `Dict.get?_ofList_cons`: what follows for the operations
* `Dict.ofList_eq_of_perm`: the order of the list does not matter
* `Dict.entries_ofList`, `Dict.ofList_entries`: entries in order are a dictionary already
* `Dict.mem_entries_iff`: what is found are the entries
* `Dict.get?_insert`, `Dict.get?_overlay_eq_or`, `Dict.get?_erase`: what is found after a change
* `Dict.Pointwise.ofList`: dictionaries made from lists that differ in their values alone
-/

namespace AsmInspect.Dict

universe u

variable {α : Type u}

/-- A new name goes somewhere among the others. -/
theorem perm_insertEntry {name : String} {value : α} {l : List (String × α)}
    (h : name ∉ l.map (·.1)) : (insertEntry name value l).Perm ((name, value) :: l) := by
  induction l with
  | nil => exact .refl _
  | cons e rest ih =>
    rw [List.map_cons, List.mem_cons, not_or] at h
    unfold insertEntry
    split
    · exact .refl _
    · rw [if_neg h.1]
      exact ((ih h.2).cons e).trans (.swap ..)

/-- **The entries of a dictionary made from a list**, if no name comes twice. -/
theorem perm_ofList {entries : List (String × α)} (h : (entries.map (·.1)).Nodup) :
    (ofList entries).entries.Perm entries := by
  -- the entries that are in already are put in front
  suffices hfold : ∀ d : Dict α, ((d.entries ++ entries).map (·.1)).Nodup →
      (entries.foldl (fun d e => d.insert e.1 e.2) d).entries.Perm (d.entries ++ entries) from
    hfold empty h
  intro d hd
  clear h
  induction entries generalizing d with
  | nil => simp
  | cons e rest ih =>
    have hmiddle : (d.entries ++ e :: rest).Perm (e :: (d.entries ++ rest)) := List.perm_middle
    obtain ⟨hnew, -⟩ := List.nodup_cons.mp ((hmiddle.map (·.1)).nodup_iff.mp hd)
    have hinsert : (d.insert e.1 e.2).entries.Perm (e :: d.entries) := by
      refine perm_insertEntry fun hmem => hnew ?_
      rw [List.map_append, List.mem_append]
      exact .inl hmem
    have happend := (hinsert.append_right rest).trans hmiddle.symm
    rw [List.foldl_cons]
    refine (ih _ ?_).trans happend
    exact (happend.map (·.1)).nodup_iff.mpr hd

theorem keys_ofList {entries : List (String × α)} (h : (entries.map (·.1)).Nodup) :
    (ofList entries).keys.Perm (entries.map (·.1)) := (perm_ofList h).map _

/-- Entries with different names make the same dictionary in any order. -/
theorem ofList_eq_of_perm {entries others : List (String × α)} (hperm : entries.Perm others)
    (h : (entries.map (·.1)).Nodup) : ofList entries = ofList others := by
  have hothers : (others.map (·.1)).Nodup := (hperm.map _).nodup_iff.mp h
  have hentries := ((perm_ofList h).trans hperm).trans (perm_ofList hothers).symm
  refine ext (hentries.eq_of_pairwise ?_ (ofList entries).increasing (ofList others).increasing)
  intro a b _ _ hab hba
  exact absurd (String.lt_trans hab hba) (String.lt_irrefl _)

/-- The entries of a dictionary made from a list come from it. -/
theorem mem_of_mem_ofList {entries : List (String × α)} {e : String × α}
    (h : e ∈ (ofList entries).entries) : e ∈ entries := by
  suffices hfold : ∀ d : Dict α, e ∈ (entries.foldl (fun d e => d.insert e.1 e.2) d).entries →
      e ∈ d.entries ∨ e ∈ entries from
    (hfold empty h).resolve_left List.not_mem_nil
  intro d hd
  clear h
  induction entries generalizing d with
  | nil => exact .inl hd
  | cons first rest ih =>
    rw [List.foldl_cons] at hd
    rcases ih _ hd with hmem | hmem
    · rcases mem_insertEntry hmem with rfl | hmem
      · exact .inr List.mem_cons_self
      · exact .inl hmem
    · exact .inr (List.mem_cons_of_mem _ hmem)

theorem nodup_map_fst {entries : List (String × α)} (h : entries.Pairwise (·.1 < ·.1)) :
    (entries.map (·.1)).Nodup := by
  rw [List.Nodup, List.pairwise_map]
  refine h.imp ?_
  intro e f hlt heq
  rw [heq] at hlt
  exact String.lt_irrefl _ hlt

/-- A list in order is the dictionary that is made of it. -/
theorem entries_ofList {entries : List (String × α)} (h : entries.Pairwise (·.1 < ·.1)) :
    (ofList entries).entries = entries := by
  refine List.Perm.eq_of_pairwise ?_ (ofList entries).increasing h (perm_ofList (nodup_map_fst h))
  intro e f _ _ hlt hgt
  exact absurd (String.lt_trans hlt hgt) (String.lt_irrefl _)

theorem ofList_entries (d : Dict α) : ofList d.entries = d := ext (entries_ofList d.increasing)

/-- The value of an entry is found under its name. -/
theorem get?_of_mem {d : Dict α} {name : String} {value : α} (h : (name, value) ∈ d.entries) :
    d.get? name = some value := by
  have hnodup := nodup_map_fst d.increasing
  have hs : (d.entries.find? (·.1 == name)).isSome := by
    rw [List.find?_isSome]
    exact ⟨_, h, by simp⟩
  obtain ⟨e, he⟩ := Option.isSome_iff_exists.mp hs
  have hname : e.1 = name := by simpa using List.find?_some he
  obtain rfl := List.inj_on_of_nodup_map hnodup (List.mem_of_find?_eq_some he) h hname
  rw [get?, he]
  rfl

theorem get?_eq_none {d : Dict α} {name : String} (h : name ∉ d.keys) : d.get? name = none := by
  have hnone : d.entries.find? (·.1 == name) = none := by
    refine List.find?_eq_none.mpr fun e he => ?_
    rw [beq_iff_eq]
    rintro rfl
    exact h (List.mem_map_of_mem he)
  rw [get?, hnone]
  rfl

/-- What is found in a dictionary are its entries. -/
theorem mem_entries_iff {d : Dict α} {name : String} {value : α} :
    (name, value) ∈ d.entries ↔ d.get? name = some value := by
  refine ⟨get?_of_mem, fun h => ?_⟩
  obtain ⟨e, he, rfl⟩ := Option.map_eq_some_iff.mp h
  have hname : e.1 = name := by simpa using List.find?_some he
  rw [← hname]
  exact List.mem_of_find?_eq_some he

/-- **What is found after an insertion**: the new value under its name, and else what was there. -/
theorem get?_insert (d : Dict α) (name : String) (value : α) (other : String) :
    (d.insert name value).get? other = if other = name then some value else d.get? other := by
  suffices hentries : ∀ l : List (String × α),
      ((insertEntry name value l).find? (·.1 == other)).map (·.2) =
        if other = name then some value else (l.find? (·.1 == other)).map (·.2) from
    hentries d.entries
  intro l
  induction l with
  | nil =>
    by_cases h : other = name
    · simp [insertEntry, h]
    · simp [insertEntry, h, Ne.symm h]
  | cons e rest ih =>
    unfold insertEntry
    split
    case isTrue =>
      by_cases h : other = name
      · simp [h]
      · simp [h, Ne.symm h]
    case isFalse =>
      split
      case isTrue heq =>
        by_cases h : other = name
        · simp [h]
        · simp [h, Ne.symm h, ← heq]
      case isFalse hne =>
        -- the entry in front stays, and it is none of the new name
        by_cases he : e.1 = other
        · have h : other ≠ name := fun h => hne (h ▸ he.symm)
          simp [he, h]
        · rw [List.find?_cons_of_neg (by simpa using he), ih,
            List.find?_cons_of_neg (by simpa using he)]

theorem get?_ofList {entries : List (String × α)} (h : (entries.map (·.1)).Nodup) {name : String}
    {value : α} (hmem : (name, value) ∈ entries) : (ofList entries).get? name = some value :=
  get?_of_mem ((perm_ofList h).mem_iff.mpr hmem)

theorem get?_erase (d : Dict α) {name other : String} (h : other ≠ name) :
    (d.erase name).get? other = d.get? other := by
  suffices hentries : ∀ l : List (String × α),
      (l.filter (·.1 != name)).find? (·.1 == other) = l.find? (·.1 == other) from
    congrArg _ (hentries d.entries)
  intro l
  induction l with
  | nil => rfl
  | cons e rest ih =>
    by_cases he : e.1 = other
    · have hstays : (e.1 != name) = true := by simpa [he] using h
      rw [List.filter_cons, if_pos hstays, List.find?_cons_of_pos (by simpa using he),
        List.find?_cons_of_pos (by simpa using he)]
    · rw [List.find?_cons_of_neg (by simpa using he), ← ih, List.filter_cons]
      split
      · rw [List.find?_cons_of_neg (by simpa using he)]
      · rfl

/-- What is found after one entry after another has been put in. -/
theorem get?_foldl_insert (entries : List (String × α)) (d : Dict α) (name : String) :
    (entries.foldl (fun d e => d.insert e.1 e.2) d).get? name =
      ((ofList entries).get? name).or (d.get? name) := by
  induction entries generalizing d with
  | nil => rfl
  | cons e rest ih =>
    rw [ofList, List.foldl_cons, List.foldl_cons, ih, ih (empty.insert e.1 e.2), get?_insert,
      get?_insert, Option.or_assoc]
    split <;> rfl

/-- **What is found in a dictionary made from a list**: of two entries with one name the later
one. -/
@[simp] theorem get?_ofList_cons (e : String × α) (rest : List (String × α)) (name : String) :
    (ofList (e :: rest)).get? name =
      ((ofList rest).get? name).or (if name = e.1 then some e.2 else none) := by
  rw [ofList, List.foldl_cons, get?_foldl_insert, get?_insert]
  rfl

@[simp] theorem get?_ofList_nil (name : String) :
    (ofList ([] : List (String × α))).get? name = none := rfl

@[simp] theorem get?_ofList_append (entries others : List (String × α)) (name : String) :
    (ofList (entries ++ others)).get? name =
      ((ofList others).get? name).or ((ofList entries).get? name) := by
  rw [ofList, List.foldl_append, get?_foldl_insert]
  rfl

/-- **What is found in a dictionary with others on top**: theirs, and else what was there. -/
theorem get?_overlay_eq_or (d e : Dict α) (name : String) :
    (d.overlay e).get? name = (e.get? name).or (d.get? name) := by
  rw [overlay, get?_foldl_insert, ofList_entries]

theorem get?_erase_self (d : Dict α) (name : String) : (d.erase name).get? name = none := by
  refine get?_eq_none fun hmem => ?_
  obtain ⟨e, he, rfl⟩ := List.mem_map.mp hmem
  have hne := (List.mem_filter.mp he).2
  simp at hne

/-! ### Dictionaries with the same names -/

/-- Two dictionaries have the same names, with values that are related. -/
def Pointwise (own : α → α → Prop) (d d' : Dict α) : Prop :=
  List.Forall₂ (fun e e' => e.1 = e'.1 ∧ own e.2 e'.2) d.entries d'.entries

namespace Pointwise

variable {own : α → α → Prop}

theorem insert {d d' : Dict α} (h : Pointwise own d d') (name : String) {value value' : α}
    (hvalue : own value value') : Pointwise own (d.insert name value) (d'.insert name value') := by
  suffices hentries : ∀ l l' : List (String × α),
      List.Forall₂ (fun e e' => e.1 = e'.1 ∧ own e.2 e'.2) l l' →
      List.Forall₂ (fun e e' => e.1 = e'.1 ∧ own e.2 e'.2) (insertEntry name value l)
        (insertEntry name value' l') from hentries _ _ h
  intro l l' hl
  induction hl with
  | nil => exact .cons ⟨rfl, hvalue⟩ .nil
  | @cons e e' rest rest' he hrest ih =>
    -- the names are the same, so the new entry goes to the same place
    unfold insertEntry
    rw [← he.1]
    split
    · exact .cons ⟨rfl, hvalue⟩ (.cons he hrest)
    · split
      · exact .cons ⟨rfl, hvalue⟩ hrest
      · exact .cons he ih

theorem ofList {entries entries' : List (String × α)}
    (h : List.Forall₂ (fun e e' => e.1 = e'.1 ∧ own e.2 e'.2) entries entries') :
    Pointwise own (ofList entries) (ofList entries') := by
  suffices hfold : ∀ d d' : Dict α, Pointwise own d d' →
      Pointwise own (entries.foldl (fun d e => d.insert e.1 e.2) d)
        (entries'.foldl (fun d e => d.insert e.1 e.2) d') from hfold empty empty .nil
  induction h with
  | nil => exact fun _ _ hd => hd
  | cons he _ ih =>
    intro d d' hd
    rw [List.foldl_cons, List.foldl_cons, ← he.1]
    exact ih _ _ (hd.insert _ he.2)

end Pointwise

end AsmInspect.Dict

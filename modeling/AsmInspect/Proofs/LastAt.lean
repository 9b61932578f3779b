import Mathlib.Data.List.Induction

/-!
# The last place with a property

What comes later in a listing counts: the last of the lines that define a label is the one in the
index, and the last marker gives the source position. An element that is put at the end of a list
is the last one with a property if it has the property, and else it does not matter, so statements
about last places are proved by induction from the end.

## Main definitions

* `LastAt`: the last place of a list with a property

## Main results

* `lastAt_concat_of_pos`, `lastAt_concat_of_neg`: what an element at the end does
-/

namespace AsmInspect

variable {α β : Type} {p : α → Prop} {l : List α} {a : α} {k : Nat}

/-- The last place of a list with a property. Places are counted from zero. -/
structure LastAt (p : α → Prop) (l : List α) (k : Nat) : Prop where
  holds : ∃ a, l[k]? = some a ∧ p a
  none_later : ∀ j a, k < j → l[j]? = some a → ¬ p a

theorem not_lastAt_nil : ¬ LastAt p [] k := by
  rintro ⟨⟨a, ha, -⟩, -⟩
  cases ha

theorem LastAt.lt_length (h : LastAt p l k) : k < l.length := by
  obtain ⟨a, ha, -⟩ := h.holds
  exact (List.getElem?_eq_some_iff.mp ha).1

/-- An element at the end that has the property is the last one. -/
theorem lastAt_concat_of_pos (ha : p a) : LastAt p (l ++ [a]) k ↔ k = l.length := by
  constructor
  · intro h
    have hlt := h.lt_length
    rw [List.length_append, List.length_singleton] at hlt
    by_contra hne
    exact h.none_later l.length a (by omega) List.getElem?_concat_length ha
  · rintro rfl
    refine ⟨⟨a, List.getElem?_concat_length, ha⟩, fun j b hj hb => ?_⟩
    have hlt := (List.getElem?_eq_some_iff.mp hb).1
    rw [List.length_append, List.length_singleton] at hlt
    omega

/-- An element at the end without the property does not matter. -/
theorem lastAt_concat_of_neg (ha : ¬ p a) : LastAt p (l ++ [a]) k ↔ LastAt p l k := by
  have hcases {j : Nat} {b : α} (hb : (l ++ [a])[j]? = some b) (hp : p b) : l[j]? = some b := by
    have hlt := (List.getElem?_eq_some_iff.mp hb).1
    rw [List.length_append, List.length_singleton] at hlt
    by_cases hj : j = l.length
    · rw [hj, List.getElem?_concat_length] at hb
      exact absurd (Option.some.inj hb ▸ hp) ha
    · rwa [List.getElem?_append_left (by omega)] at hb
  have hleft {j : Nat} {b : α} (hb : l[j]? = some b) : (l ++ [a])[j]? = some b := by
    rw [List.getElem?_append_left (List.getElem?_eq_some_iff.mp hb).1]
    exact hb
  constructor
  · rintro ⟨⟨b, hb, hp⟩, hlater⟩
    exact ⟨⟨b, hcases hb hp, hp⟩, fun j c hj hc => hlater j c hj (hleft hc)⟩
  · rintro ⟨⟨b, hb, hp⟩, hlater⟩
    exact ⟨⟨b, hleft hb, hp⟩, fun j c hj hc hpc => hlater j c hj (hcases hc hpc) hpc⟩

theorem lastAt_map {q : β → Prop} {f : α → β} :
    LastAt q (l.map f) k ↔ LastAt (fun a => q (f a)) l k := by
  constructor
  · rintro ⟨⟨b, hb, hq⟩, hlater⟩
    rw [List.getElem?_map] at hb
    obtain ⟨a, ha, rfl⟩ := Option.map_eq_some_iff.mp hb
    refine ⟨⟨a, ha, hq⟩, fun j c hj hc => hlater j (f c) hj ?_⟩
    rw [List.getElem?_map, hc]
    rfl
  · rintro ⟨⟨a, ha, hq⟩, hlater⟩
    refine ⟨⟨f a, by rw [List.getElem?_map, ha]; rfl, hq⟩, fun j b hj hb => ?_⟩
    rw [List.getElem?_map] at hb
    obtain ⟨c, hc, rfl⟩ := Option.map_eq_some_iff.mp hb
    exact hlater j c hj hc

/-- If there is an element with the property, there is a last one. -/
theorem exists_lastAt (hmem : a ∈ l) (ha : p a) : ∃ k, LastAt p l k := by
  induction l using List.reverseRecOn with
  | nil => cases hmem
  | append_singleton l b ih =>
    by_cases hb : p b
    · exact ⟨l.length, (lastAt_concat_of_pos hb).mpr rfl⟩
    · rcases List.mem_append.mp hmem with hmem | hmem
      · obtain ⟨k, hk⟩ := ih hmem
        exact ⟨k, (lastAt_concat_of_neg hb).mpr hk⟩
      · exact absurd (List.mem_singleton.mp hmem ▸ ha) hb

end AsmInspect

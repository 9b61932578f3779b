import AsmInspect.Shell.Token
import AsmInspect.Proofs.Text.Lines

/-!
# How a word of a script is read

The reader of words has one rule for each way to write a character. `ReadsWord` says that the word
at the start of a text is found, however many steps the reader may take as long as there are more of
them than characters, so the rules compose: what a piece of text adds to the word is one lemma, and
what follows it is a hypothesis.

A script is read as bytes. Every character that the reader treats in a special way is a single byte
that no other character's spelling contains.

## Main definitions

* `Shell.spelling`: the bytes of a character
* `Shell.isPlain`: the characters that stand for themselves in a word
* `Shell.ReadsWord`: the word at the start of a text

## Main results

* `Shell.ofString_eq_of_ascii`: a text of single bytes is its own spelling
* `Shell.eq_of_mem_spelling`: a single byte is in no other character's spelling
* `Shell.ReadsWord.single`, `Shell.ReadsWord.escaped`, `Shell.ReadsWord.value`: the rules of quoting
-/

namespace AsmInspect.Shell

/-! ### Bytes -/

/-- The bytes of a character, each as the character of its number. -/
def spelling (c : Char) : Text := (String.utf8EncodeChar c).map fun b => Char.ofNat b.toNat

theorem ofString_eq_flatMap (s : String) : ofString s = s.toList.flatMap spelling := by
  rw [ofString, Utf8.encode, List.map_flatMap]
  rfl

theorem ofString_append (s t : String) : ofString (s ++ t) = ofString s ++ ofString t := by
  rw [ofString_eq_flatMap, String.toList_append, List.flatMap_append, ← ofString_eq_flatMap,
    ← ofString_eq_flatMap]

theorem ofString_intercalate (separator : String) (texts : List String) :
    ofString (separator.intercalate texts) =
      Text.join (ofString separator) (texts.map ofString) := by
  induction texts with
  | nil => rfl
  | cons first rest ih =>
    cases rest with
    | nil => rw [String.intercalate_singleton, List.map_singleton, Text.join]
    | cons second rest =>
      rw [String.intercalate_cons_cons, ofString_append, ofString_append, ih]
      rfl

theorem spelling_of_ascii {c : Char} (h : c.toNat < 128) : spelling c = [c] := by
  have hle : c.val.toNat ≤ 127 := Nat.le_of_lt_succ h
  have hbyte : (UInt8.ofNat c.val.toNat).toNat = c.toNat := by
    rw [UInt8.toNat_ofNat']
    exact Nat.mod_eq_of_lt (by omega)
  unfold spelling String.utf8EncodeChar
  dsimp only
  rw [if_pos hle, List.map_singleton, hbyte, Char.ofNat_toNat]

/-- A character of more than one byte has only bytes of the upper half. -/
theorem le_of_mem_utf8EncodeChar {c : Char} (h : 128 ≤ c.toNat) {b : UInt8}
    (hb : b ∈ String.utf8EncodeChar c) : 128 ≤ b.toNat := by
  have hgt : ¬ c.val.toNat ≤ 127 := Nat.not_le_of_lt h
  unfold String.utf8EncodeChar at hb
  dsimp only at hb
  rw [if_neg hgt] at hb
  split at hb
  · simp only [List.mem_cons, List.not_mem_nil, or_false] at hb
    rcases hb with rfl | rfl <;> rw [UInt8.toNat_ofNat'] <;> omega
  · split at hb <;> simp only [List.mem_cons, List.not_mem_nil, or_false] at hb
    · rcases hb with rfl | rfl | rfl <;> rw [UInt8.toNat_ofNat'] <;> omega
    · rcases hb with rfl | rfl | rfl | rfl <;> rw [UInt8.toNat_ofNat'] <;> omega

/-- **A single byte** is in the spelling of no character but its own. -/
theorem eq_of_mem_spelling {c d : Char} (hd : d.toNat < 128) (h : d ∈ spelling c) : d = c := by
  rcases Nat.lt_or_ge c.toNat 128 with hc | hc
  · rw [spelling_of_ascii hc] at h
    exact List.mem_singleton.mp h
  · obtain ⟨b, hb, rfl⟩ := List.mem_map.mp h
    have hle := le_of_mem_utf8EncodeChar hc hb
    have hvalid : b.toNat.isValidChar := Or.inl (by have := b.toNat_lt; omega)
    have hnumber : (Char.ofNat b.toNat).toNat = b.toNat := by
      rw [Char.ofNat, dif_pos hvalid]
      rfl
    omega

/-- A text of single bytes is its own spelling. -/
theorem ofString_eq_of_ascii {s : String} (h : s.toList.all (·.toNat < 128) = true) :
    ofString s = s.toList := by
  have hspelling : ∀ c ∈ s.toList, spelling c = [c] := by
    intro c hc
    exact spelling_of_ascii (of_decide_eq_true (List.all_eq_true.mp h c hc))
  rw [ofString_eq_flatMap, List.flatMap_congr hspelling, List.flatMap_singleton']

/-! ### Parts -/

/-- Literal texts that follow each other in the same quotes are one. -/
theorem push_push (first second : Text) (quoted : Bool) (parts : List Part) :
    push (.literal second quoted) (push (.literal first quoted) parts) =
      push (.literal (first ++ second) quoted) parts := by
  cases parts with
  | nil => simp [push]
  | cons last rest =>
    cases last with
    | literal old p =>
      by_cases h : p = quoted
      · simp [push, h]
      · simp [push, h]
    | parameter | output | arithmetic => simp [push]

/-! ### Rules -/

/-- The characters that stand for themselves in a word. -/
def isPlain (c : Char) : Bool := !endsWord c && !(['\'', '"', '\\', '$', '\x60'].contains c)

/-- At the start of the text stands what is missing of the word, of which some parts, the latest
first, have been read; then `rest` follows. -/
def ReadsWord (parts : List Part) (text : Text) (word : Word) (rest : Text) : Prop :=
  ∀ most, text.length < most → scanWord? true most parts text = some (word, rest)

namespace ReadsWord

variable {parts : List Part} {text rest : Text} {word : Word}

/-- A rule of the reader, which may take a step for each character that it passes. -/
theorem of_step {before after : Text} {parts' : List Part} (hlength : after.length < before.length)
    (hstep : ∀ most, before.length ≤ most →
      scanWord? true (most + 1) parts before = scanWord? true most parts' after)
    (h : ReadsWord parts' after word rest) : ReadsWord parts before word rest := by
  intro most hmost
  cases most with
  | zero => exact absurd hmost (Nat.not_lt_zero _)
  | succ most =>
    rw [hstep most (Nat.le_of_lt_succ hmost)]
    exact h most (by omega)

/-- The word ends at a blank, a line feed or an operator. -/
theorem done {c : Char} (hc : endsWord c = true) (parts : List Part) (rest : Text) :
    ReadsWord parts (c :: rest) parts.reverse (c :: rest) := by
  intro most hmost
  cases most with
  | zero => exact absurd hmost (Nat.not_lt_zero _)
  | succ most =>
    unfold scanWord?
    rw [hc]
    rfl

theorem plain {c : Char} (hc : isPlain c = true)
    (h : ReadsWord (push (.literal [c] false) parts) text word rest) :
    ReadsWord parts (c :: text) word rest := by
  simp only [isPlain, Bool.and_eq_true, Bool.not_eq_true', List.contains_cons, Bool.or_eq_false_iff,
    beq_eq_false_iff_ne] at hc
  obtain ⟨hends, hsingle, hdouble, hescape, hdollar, haccent, -⟩ := hc
  refine of_step (Nat.lt_succ_self _) (fun most _ => ?_) h
  conv => lhs; unfold scanWord?
  dsimp only
  rw [hends, Bool.and_false, if_neg Bool.false_ne_true, if_neg hsingle,
    if_neg hdouble, if_neg hescape, if_neg hdollar, if_neg haccent]

/-- **Single quotes**: every character up to the next single quote stands for itself. -/
theorem single {inner : Text} (hinner : '\'' ∉ inner)
    (h : ReadsWord (push (.literal inner true) parts) text word rest) :
    ReadsWord parts ('\'' :: inner ++ '\'' :: text) word rest := by
  refine of_step ?_ (fun most _ => ?_) h
  · simp only [List.cons_append, List.length_cons, List.length_append]
    omega
  · conv => lhs; unfold scanWord?
    dsimp only [List.cons_append]
    rw [if_neg (by decide), if_pos rfl, Text.cutAt?_append hinner, Option.bind_eq_bind,
      Option.bind_some]

/-- **A backslash** outside of quotes: the next character stands for itself. -/
theorem escaped {c : Char} (hc : c ≠ '\n')
    (h : ReadsWord (push (.literal [c] true) parts) text word rest) :
    ReadsWord parts ('\\' :: c :: text) word rest := by
  refine of_step ?_ (fun most _ => ?_) h
  · simp only [List.length_cons]
    omega
  · rw [scanWord?, if_neg (by decide), if_neg (by decide), if_neg (by decide), if_pos rfl]
    exact hc

/-- Characters that stand for themselves are one literal text. -/
theorem plains {front : Text} (hne : front ≠ []) (hplain : ∀ c ∈ front, isPlain c = true)
    (h : ReadsWord (push (.literal front false) parts) text word rest) :
    ReadsWord parts (front ++ text) word rest := by
  induction front generalizing parts with
  | nil => exact absurd rfl hne
  | cons c front ih =>
    refine plain (hplain c (List.mem_cons_self ..)) ?_
    cases front with
    | nil => exact h
    | cons d front =>
      refine ih (List.cons_ne_nil _ _) (fun e he => hplain e (List.mem_cons_of_mem _ he)) ?_
      rwa [push_push]

/-- **A value in double quotes** is a part of its own, kept together. -/
theorem value {source : Text} {part : Part}
    (hpart : dollar? true (source ++ '"' :: text) = some (part, '"' :: text))
    (h : ReadsWord (part :: push (.literal [] true) parts) text word rest) :
    ReadsWord parts ('"' :: '$' :: source ++ '"' :: text) word rest := by
  refine of_step ?_ (fun most hmost => ?_) h
  · simp only [List.cons_append, List.length_cons, List.length_append]
    omega
  · -- the dollar sign and the closing quote take a step each
    obtain ⟨most, rfl⟩ : ∃ more, most = more + 2 := by
      simp only [List.cons_append, List.length_cons] at hmost
      exact ⟨most - 2, by omega⟩
    have hquoted (parts : List Part) :
        scanQuoted? (some '"') (most + 2) parts ('$' :: (source ++ '"' :: text)) =
          some (part :: parts, text) := by
      conv => lhs; unfold scanQuoted?
      rw [if_neg (by decide), if_neg (by decide), if_pos rfl, hpart]
      dsimp only
      unfold scanQuoted?
      rw [if_pos rfl]
    conv => lhs; unfold scanWord?
    dsimp only [List.cons_append]
    rw [if_neg (by decide), if_neg (by decide), if_pos rfl, hquoted, Option.bind_eq_bind,
      Option.bind_some]

end ReadsWord

/-- A parameter is named by as many characters as a name can have. -/
theorem dollar?_name {name : Text} (hname : isName name = true) {c : Char}
    (hc : isNameChar c = false) (quoted : Bool) (rest : Text) :
    dollar? quoted (name ++ c :: rest) = some (.parameter name [] [] quoted, c :: rest) := by
  cases name with
  | nil => cases hname
  | cons d name =>
    obtain ⟨hstart, hall⟩ := Bool.and_eq_true_iff.mp hname
    have hchars : ∀ e ∈ name, isNameChar e = true := List.all_eq_true.mp hall
    have htake : (name ++ c :: rest).takeWhile isNameChar = name := by
      rw [List.takeWhile_append_of_pos hchars, List.takeWhile_cons_of_neg (by simp [hc]),
        List.append_nil]
    have hdrop : (name ++ c :: rest).dropWhile isNameChar = c :: rest := by
      rw [List.dropWhile_append_of_pos hchars, List.dropWhile_cons_of_neg (by simp [hc])]
    rw [List.cons_append, dollar?, if_pos hstart, htake, hdrop]
    · rintro rfl
      exact absurd hstart (by decide)
    · rintro rfl
      exact absurd hstart (by decide)

theorem dollar?_special {c : Char} (hc : specialParameters.contains c = true) (quoted : Bool)
    (rest : Text) : dollar? quoted (c :: rest) = some (.parameter [c] [] [] quoted, rest) := by
  have hordinary :
      specialParameters.all (fun c => !isNameStart c && c != '(' && c != '\x7b') = true := by
    decide
  have hc' := List.all_eq_true.mp hordinary c (List.elem_iff.mp hc)
  simp only [Bool.and_eq_true, Bool.not_eq_true', bne_iff_ne] at hc'
  obtain ⟨⟨hstart, hround⟩, hbrace⟩ := hc'
  rw [dollar?, if_neg (by simp [hstart]), if_pos hc]
  · exact hround
  · exact hbrace

end AsmInspect.Shell

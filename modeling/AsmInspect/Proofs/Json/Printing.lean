import AsmInspect.Proofs.Json.Number
import AsmInspect.Proofs.Json.Reading

/-!
# Values that are printed

A value is printed as one syntax tree, in one line or over several: the two layouts differ in blanks
between tokens alone. So whatever is made of a printed value is made of its tree, and a statement
about decoding need not look at characters again.

## Main definitions

* `Json.toTree`: the tree that a value is printed as
* `Json.Piece.ofChar`: how a character of a string is printed

## Main results

* `Json.spelled_printText`, `Json.spelled_prettyText`: both layouts spell the tokens of the tree
* `Json.Tree.ofText?_print`, `Json.Tree.ofText?_pretty`: the tree is read from both of them
-/

namespace AsmInspect.Json

/-- **How a character of a string is printed**: by itself or behind a backslash, and as a code unit
if it is a control character that no letter stands for. -/
def Piece.ofChar (c : Char) : Piece :=
  match c with
  | '\x08' | '\x0c' | '\n' | '\r' | '\t' => .char c
  | c => if c.toNat < 0x20 then .unit c.toNat else .char c

mutual

/-- **The tree that a value is printed as.** -/
def toTree : Json → Tree
  | .null => .null
  | .bool b => .bool b
  | .number n => .number n.print
  | .string s => .string (s.toList.map Piece.ofChar)
  | .array items => .array (itemTrees items)
  | .object fields => .object (fieldTrees fields)

/-- The trees of the items of an array. -/
def itemTrees : List Json → List Tree
  | [] => []
  | item :: rest => toTree item :: itemTrees rest

/-- The trees of the fields of an object. -/
def fieldTrees : List (String × Json) → List (List Piece × Tree)
  | [] => []
  | (key, value) :: rest => (key.toList.map Piece.ofChar, toTree value) :: fieldTrees rest

end

/-! ### Strings -/

theorem hexDigits_of_lt {n : Nat} (h : n < 0x20) :
    HexDigits ['0', '0', if n < 0x10 then '0' else '1', Nat.digitChar (n % 16)] n := by
  have hlast : hexValue? (Nat.digitChar (n % 16)) = some (n % 16) := by
    have hall : ∀ digit < 16, hexValue? (Nat.digitChar digit) = some digit := by decide
    exact hall _ (Nat.mod_lt _ (by decide))
  have hthird : hexValue? (if n < 0x10 then '0' else '1') = some (n / 16) := by
    split
    case isTrue hlow => rw [Nat.div_eq_of_lt hlow]; rfl
    case isFalse hhigh =>
      rw [show n / 16 = 1 by omega]
      rfl
  have hdigits : HexDigits ([] ++ ['0'] ++ ['0'] ++ [if n < 0x10 then '0' else '1'] ++
      [Nat.digitChar (n % 16)]) (16 * (16 * (16 * (16 * 0 + 0) + 0) + n / 16) + n % 16) :=
    (((HexDigits.nil.snoc rfl).snoc rfl).snoc hthird).snoc hlast
  rwa [show 16 * (16 * (16 * (16 * 0 + 0) + 0) + n / 16) + n % 16 = n by omega] at hdigits

theorem spelled_escape (c : Char) : (Piece.ofChar c).Spelled (escape c) := by
  unfold escape
  split
  case h_8 hquote hbackslash hback hfeed hline hreturn htab =>
    have hpiece : Piece.ofChar c = if c.toNat < 0x20 then .unit c.toNat else .char c := by
      unfold Piece.ofChar
      split <;> simp_all
    rw [hpiece]
    split
    case isTrue hcontrol => exact .unit (hexDigits_of_lt hcontrol) rfl
    case isFalse hplain => exact .plain hquote hbackslash (Nat.not_lt.mp hplain)
  all_goals exact .escaped rfl

theorem spelled_quote (s : String) :
    (Token.string (s.toList.map Piece.ofChar)).Spelled (quote s) := by
  have hinside : ∀ text : Text, SpelledString (text.map Piece.ofChar) (text.flatMap escape) := by
    intro text
    induction text with
    | nil => exact .nil
    | cons c rest ih => exact .cons (spelled_escape c) ih
  exact .string (hinside s.toList)

theorem Piece.ofChar_cases (c : Char) :
    ofChar c = .char c ∨ ofChar c = .unit c.toNat ∧ c.toNat < 0x20 := by
  unfold ofChar
  split
  case h_6 =>
    split
    case isTrue hcontrol => exact .inr ⟨rfl, hcontrol⟩
    case isFalse => exact .inl rfl
  all_goals exact .inl rfl

/-- **A string is read back** from the pieces that it is printed as. -/
theorem decodeString?_ofChar (s : String) :
    decodeString? (s.toList.map Piece.ofChar) = some s := by
  have hpieces : ∀ text : Text, decodePieces? (text.map Piece.ofChar) = some text := by
    intro text
    induction text with
    | nil => rfl
    | cons c rest ih =>
      rw [List.map_cons]
      rcases Piece.ofChar_cases c with hchar | ⟨hunit, hcontrol⟩
      · rw [hchar, decodePieces?, ih]
        rfl
      · have hbelow : (decide (c.toNat < 0xD800) || decide (0xE000 ≤ c.toNat)) = true := by
          rw [decide_eq_true (Nat.lt_trans hcontrol (by decide)), Bool.true_or]
        rw [hunit]
        unfold decodePieces?
        rw [if_pos hbelow, ih, Char.ofNat_toNat]
        rfl
  rw [decodeString?, hpieces, Option.map_some, String.ofList_toList]

/-! ### Collections -/

/-- What is put together with commas spells what is put together with the tokens of commas. -/
theorem Spelled.join {parts : List (List Token)} {texts : List Text}
    (h : List.Forall₂ Spelled parts texts) :
    Spelled ([Token.comma].intercalate parts) (Text.join [','] texts) := by
  induction h with
  | nil => exact .nil
  | @cons part text parts texts hpart hrest ih =>
    cases hrest with
    | nil =>
      rw [List.intercalate_singleton]
      exact hpart
    | cons =>
      rw [List.intercalate_cons_cons]
      exact (hpart.append (Token.Spelled.comma.spelled)).append ih

/-- Blanks may stand in front of anything. -/
theorem Spelled.blanks {tokens : List Token} {blanks text : Text} (h : Spelled tokens text)
    (hblanks : ∀ c ∈ blanks, isSpace c = true) : Spelled tokens (blanks ++ text) := by
  induction blanks with
  | nil => exact h
  | cons c rest ih =>
    obtain ⟨hc, hrest⟩ := List.forall_mem_cons.mp hblanks
    exact .blank hc (ih hrest)

/-- The parts of a collection stand between its marks, with blanks in front of the last one. -/
theorem Spelled.collection {start stop : Token} {first last : Char} {blanks : Text}
    {parts : List (List Token)} {texts : List Text} (hstart : start.Spelled [first])
    (hstop : stop.Spelled [last]) (hblanks : ∀ c ∈ blanks, isSpace c = true)
    (h : List.Forall₂ Spelled parts texts) :
    Spelled (start :: ([Token.comma].intercalate parts ++ [stop]))
      (first :: Text.join [','] texts ++ (blanks ++ [last])) := by
  rw [List.cons_append, ← List.singleton_append]
  exact .token hstart ((Spelled.join h).append (hstop.spelled.blanks hblanks))

/-- A colon with blanks behind it stands between a key and its value. -/
theorem Spelled.field {key : String} {value : Json} {blanks text : Text}
    (hblanks : ∀ c ∈ blanks, isSpace c = true) (h : Spelled value.toTree.tokens text) :
    Spelled (.string (key.toList.map Piece.ofChar) :: .colon :: value.toTree.tokens)
      (quote key ++ ':' :: (blanks ++ text)) :=
  .token (spelled_quote key) (.token .colon (h.blanks hblanks))

/-! ### One line -/

mutual

/-- **A value in one line spells the tokens of its tree.** -/
theorem spelled_printText : (value : Json) → Spelled value.toTree.tokens value.printText
  | .null => Token.Spelled.null.spelled
  | .bool b => (Token.Spelled.bool b).spelled
  | .number n => (Token.Spelled.number n.literal_print).spelled
  | .string s => (spelled_quote s).spelled
  | .array items =>
    .collection .openArray .closeArray (List.forall_mem_nil _) (spelled_printItems items)
  | .object fields =>
    .collection .openObject .closeObject (List.forall_mem_nil _) (spelled_printFields fields)

theorem spelled_printItems : (items : List Json) →
    List.Forall₂ Spelled (Tree.itemTokens (itemTrees items)) (printItems items)
  | [] => .nil
  | item :: rest => .cons (spelled_printText item) (spelled_printItems rest)

theorem spelled_printFields : (fields : List (String × Json)) →
    List.Forall₂ Spelled (Tree.fieldTokens (fieldTrees fields)) (printFields fields)
  | [] => .nil
  | (_, value) :: rest =>
    .cons (.field (List.forall_mem_nil _) (spelled_printText value))
      (spelled_printFields rest)

end

/-! ### Several lines -/

theorem isSpace_indent (depth : Nat) : ∀ c ∈ indent depth, isSpace c = true := by
  intro c h
  rcases List.mem_cons.mp h with rfl | h
  · rfl
  · rw [List.eq_of_mem_replicate h]
    rfl

mutual

/-- **A value over several lines spells the tokens of its tree.** -/
theorem spelled_prettyText (depth : Nat) :
    (value : Json) → Spelled value.toTree.tokens (value.prettyText depth)
  | .null => Token.Spelled.null.spelled
  | .bool b => (Token.Spelled.bool b).spelled
  | .number n => (Token.Spelled.number n.literal_print).spelled
  | .string s => (spelled_quote s).spelled
  | .array [] => spelled_printText (.array [])
  | .object [] => spelled_printText (.object [])
  | .array (item :: rest) => by
    have hitems := spelled_prettyItems (depth + 1) (item :: rest)
    have harray := Spelled.collection .openArray .closeArray (isSpace_indent depth) hitems
    rw [← List.append_assoc] at harray
    exact harray
  | .object (field :: rest) => by
    have hfields := spelled_prettyFields (depth + 1) (field :: rest)
    have hobject := Spelled.collection .openObject .closeObject (isSpace_indent depth) hfields
    rw [← List.append_assoc] at hobject
    exact hobject

theorem spelled_prettyItems (depth : Nat) : (items : List Json) →
    List.Forall₂ Spelled (Tree.itemTokens (itemTrees items)) (prettyItems depth items)
  | [] => .nil
  | item :: rest =>
    .cons ((spelled_prettyText depth item).blanks (isSpace_indent depth))
      (spelled_prettyItems depth rest)

theorem spelled_prettyFields (depth : Nat) : (fields : List (String × Json)) →
    List.Forall₂ Spelled (Tree.fieldTokens (fieldTrees fields)) (prettyFields depth fields)
  | [] => .nil
  | (key, value) :: rest => by
    have hspace : ∀ c ∈ [' '], isSpace c = true := List.forall_mem_singleton.mpr rfl
    have hfield : Spelled (.string (key.toList.map Piece.ofChar) :: .colon :: value.toTree.tokens)
        (indent depth ++ (quote key ++ ':' :: ([' '] ++ prettyText depth value))) :=
      (Spelled.field hspace (spelled_prettyText depth value)).blanks (isSpace_indent depth)
    rw [fieldTrees, Tree.fieldTokens, prettyFields, List.append_assoc, List.append_assoc]
    exact .cons hfield (spelled_prettyFields depth rest)

end

/-! ### What is printed is read -/

/-- **A value in one line is read as its tree.** -/
theorem Tree.ofText?_print (value : Json) : Tree.ofText? value.print = some value.toTree := by
  rw [Tree.ofText?_eq_some_iff, print, String.toList_ofList]
  exact spelled_printText value

/-- **A value over several lines is read as its tree.** -/
theorem Tree.ofText?_pretty (value : Json) : Tree.ofText? value.pretty = some value.toTree := by
  rw [Tree.ofText?_eq_some_iff, pretty, String.toList_ofList]
  exact spelled_prettyText 0 value

end AsmInspect.Json

import AsmInspect.Json.Tree
import AsmInspect.Proofs.Json.Spelling

/-!
# One text, one tree

A syntax tree says which tokens write it, and the reader of tokens finds a tree exactly in the
tokens that write it. Together with the spellings of tokens this says what a text of JSON is: the
tokens of one tree, spelled in any way, with blanks anywhere between them, and nothing else.

## Main definitions

* `Json.Tree.tokens`: the tokens that write a tree
* `Json.Tree.Reader.tokens`: the tokens that a reader has met

## Main results

* `Json.Tree.ofTokens?_eq_some_iff`: a tree is read exactly from its tokens
* `Json.Tree.ofText?_eq_some_iff`: a tree is read exactly from the spellings of its tokens
-/

namespace AsmInspect.Json.Tree

mutual

/-- The tokens that write a tree. -/
def tokens : Tree → List Token
  | .null => [.null]
  | .bool b => [.bool b]
  | .number literal => [.number literal]
  | .string pieces => [.string pieces]
  | .array items => .openArray :: ([.comma].intercalate (itemTokens items) ++ [.closeArray])
  | .object fields => .openObject :: ([.comma].intercalate (fieldTokens fields) ++ [.closeObject])

/-- The tokens of each item of an array. -/
def itemTokens : List Tree → List (List Token)
  | [] => []
  | item :: rest => tokens item :: itemTokens rest

/-- The tokens of each field of an object. -/
def fieldTokens : List (List Piece × Tree) → List (List Token)
  | [] => []
  | (key, tree) :: rest => (.string key :: .colon :: tokens tree) :: fieldTokens rest

end

theorem itemTokens_append (items others : List Tree) :
    itemTokens (items ++ others) = itemTokens items ++ itemTokens others := by
  induction items with
  | nil => rfl
  | cons item rest ih => rw [List.cons_append, itemTokens, itemTokens, ih, List.cons_append]

theorem fieldTokens_append (fields others : List (List Piece × Tree)) :
    fieldTokens (fields ++ others) = fieldTokens fields ++ fieldTokens others := by
  induction fields with
  | nil => rfl
  | cons field rest ih => rw [List.cons_append, fieldTokens, fieldTokens, ih, List.cons_append]

/-- The parts of a collection, each with the comma behind it. -/
def withCommas (parts : List (List Token)) : List Token := parts.flatMap (· ++ [.comma])

theorem withCommas_snoc (parts : List (List Token)) (part : List Token) :
    withCommas (parts ++ [part]) = withCommas parts ++ (part ++ [.comma]) := by
  rw [withCommas, List.flatMap_append, List.flatMap_singleton]
  rfl

/-- The last part of a collection has no comma behind it. -/
theorem intercalate_snoc (parts : List (List Token)) (last : List Token) :
    [Token.comma].intercalate (parts ++ [last]) = withCommas parts ++ last := by
  induction parts with
  | nil => rw [List.nil_append, List.intercalate_singleton, withCommas, List.flatMap_nil,
      List.nil_append]
  | cons part rest ih =>
    have hne : rest ++ [last] ≠ [] := List.append_ne_nil_of_right_ne_nil _ (List.cons_ne_nil _ _)
    rw [List.cons_append, List.intercalate_cons_of_ne_nil hne, ih, withCommas, withCommas,
      List.flatMap_cons, List.append_assoc, List.append_assoc, List.append_assoc]

/-! ### What a reader has met -/

/-- The tokens of the part of a collection that has been read. -/
def Frame.tokens : Frame → List Token
  | .array items => .openArray :: withCommas (itemTokens items.reverse)
  | .field fields name =>
    .openObject :: (withCommas (fieldTokens fields.reverse) ++ [.string name, .colon])

/-- The tokens of the open collections. -/
def stackTokens (stack : List Frame) : List Token := stack.reverse.flatMap Frame.tokens

theorem stackTokens_cons (frame : Frame) (stack : List Frame) :
    stackTokens (frame :: stack) = stackTokens stack ++ frame.tokens := by
  rw [stackTokens, List.reverse_cons, List.flatMap_append, List.flatMap_singleton]
  rfl

/-- **The tokens that a reader has met.** -/
def Reader.tokens : Reader → List Token
  | .value stack => stackTokens stack
  | .firstItem stack => stackTokens stack ++ [.openArray]
  | .firstKey stack => stackTokens stack ++ [.openObject]
  | .key fields stack =>
    stackTokens stack ++ .openObject :: withCommas (fieldTokens fields.reverse)
  | .colon fields name stack =>
    stackTokens stack ++ .openObject :: (withCommas (fieldTokens fields.reverse) ++ [.string name])
  | .after tree stack => stackTokens stack ++ Tree.tokens tree

variable {stack : List Frame} {token : Token} {reader next : Reader} {word : List Token}

theorem tokens_of_startValue? (h : startValue? stack token = some next) :
    next.tokens = stackTokens stack ++ [token] := by
  cases token <;> cases h <;> rfl

/-- **A reader keeps track of the tokens that it meets.** -/
theorem Reader.tokens_of_step? (h : reader.step? token = some next) :
    next.tokens = reader.tokens ++ [token] := by
  unfold Reader.step? at h
  split at h
  case h_1 => exact tokens_of_startValue? h
  case h_2 =>
    obtain rfl := Option.some.inj h
    simp [Reader.tokens, Tree.tokens, itemTokens]
  case h_3 =>
    rw [tokens_of_startValue? h, stackTokens_cons]
    rfl
  case h_4 =>
    obtain rfl := Option.some.inj h
    simp [Reader.tokens, Tree.tokens, fieldTokens]
  case h_5 =>
    obtain rfl := Option.some.inj h
    simp [Reader.tokens, fieldTokens, withCommas]
  case h_6 =>
    obtain rfl := Option.some.inj h
    simp [Reader.tokens]
  case h_7 =>
    obtain rfl := Option.some.inj h
    simp [Reader.tokens, stackTokens_cons, Frame.tokens]
  case h_8 =>
    obtain rfl := Option.some.inj h
    simp [Reader.tokens, stackTokens_cons, Frame.tokens, itemTokens_append, withCommas_snoc,
      itemTokens]
  case h_9 =>
    obtain rfl := Option.some.inj h
    simp [Reader.tokens, stackTokens_cons, Frame.tokens, Tree.tokens, itemTokens_append,
      intercalate_snoc, itemTokens]
  case h_10 =>
    obtain rfl := Option.some.inj h
    simp [Reader.tokens, stackTokens_cons, Frame.tokens, fieldTokens_append, withCommas_snoc,
      fieldTokens]
  case h_11 =>
    obtain rfl := Option.some.inj h
    simp [Reader.tokens, stackTokens_cons, Frame.tokens, Tree.tokens, fieldTokens_append,
      intercalate_snoc, fieldTokens]
  case h_12 => cases h

theorem Reader.tokens_of_foldlM (h : word.foldlM Reader.step? reader = some next) :
    next.tokens = reader.tokens ++ word := by
  induction word generalizing reader with
  | nil =>
    obtain rfl := Option.some.inj h
    rw [List.append_nil]
  | cons token rest ih =>
    rw [List.foldlM_cons] at h
    obtain ⟨middle, hstep, hrest⟩ := Option.bind_eq_some_iff.mp h
    rw [ih hrest, Reader.tokens_of_step? hstep, List.append_assoc]
    rfl

/-! ### What is written is read -/

/-- The first token of a tree does not close anything. -/
theorem exists_tokens_eq_cons (tree : Tree) :
    ∃ token rest, tree.tokens = token :: rest ∧ token ≠ .closeArray := by
  cases tree with
  | null | bool | number | string | array | object =>
    rw [Tree.tokens]
    exact ⟨_, _, rfl, by rintro ⟨⟩⟩

/-- A reader that may also meet the end of an array reads an item like any value. -/
theorem step?_firstItem (h : token ≠ .closeArray) :
    (Reader.firstItem stack).step? token = (Reader.value (.array [] :: stack)).step? token := by
  cases token with
  | closeArray => exact absurd rfl h
  | _ => rfl

theorem foldlM_firstItem (tree : Tree) (rest : List Token) :
    (tree.tokens ++ rest).foldlM Reader.step? (.firstItem stack) =
      (tree.tokens ++ rest).foldlM Reader.step? (.value (.array [] :: stack)) := by
  obtain ⟨token, others, htokens, hne⟩ := exists_tokens_eq_cons tree
  rw [htokens, List.cons_append, List.foldlM_cons, List.foldlM_cons, step?_firstItem hne]

theorem foldlM_append_of_eq {front : List Token} (h : front.foldlM Reader.step? reader = some next)
    (rest : List Token) :
    (front ++ rest).foldlM Reader.step? reader = rest.foldlM Reader.step? next := by
  rw [List.foldlM_append, h]
  rfl

theorem foldlM_cons_of_eq (h : reader.step? token = some next) (rest : List Token) :
    (token :: rest).foldlM Reader.step? reader = rest.foldlM Reader.step? next := by
  rw [List.foldlM_cons, h]
  rfl

/-- The tokens of a collection start with those of its first part. -/
theorem exists_intercalate_eq_append (part : List Token) (parts : List (List Token)) :
    ∃ rest, [Token.comma].intercalate (part :: parts) = part ++ rest := by
  cases parts with
  | nil => exact ⟨[], by rw [List.intercalate_singleton, List.append_nil]⟩
  | cons other parts => exact ⟨_, by rw [List.intercalate_cons_cons, List.append_assoc]⟩

mutual

/-- **A reader that expects a value reads a tree from its tokens.** -/
theorem foldlM_tokens (stack : List Frame) :
    (tree : Tree) → tree.tokens.foldlM Reader.step? (.value stack) = some (.after tree stack)
  | .null => rfl
  | .bool _ => rfl
  | .number _ => rfl
  | .string _ => rfl
  | .array [] => rfl
  | .array (item :: rest) => by
    have hitems := foldlM_items stack [] (item :: rest) (List.cons_ne_nil _ _)
    obtain ⟨others, hfirst⟩ := exists_intercalate_eq_append item.tokens (itemTokens rest)
    rw [Tree.tokens, foldlM_cons_of_eq rfl, itemTokens, hfirst, List.append_assoc,
      foldlM_firstItem, ← List.append_assoc, ← hfirst, ← itemTokens]
    exact hitems
  | .object [] => rfl
  | .object (field :: rest) => by
    have hfields := foldlM_fields stack [] (field :: rest) (List.cons_ne_nil _ _)
    obtain ⟨others, hfirst⟩ := exists_intercalate_eq_append
      (.string field.1 :: .colon :: field.2.tokens) (fieldTokens rest)
    -- the first key is read like any other
    rw [fieldTokens, hfirst] at hfields
    rw [Tree.tokens, foldlM_cons_of_eq rfl, fieldTokens, hfirst]
    exact hfields

/-- The items of an array, some of which have been read, up to its end. -/
theorem foldlM_items (stack : List Frame) (read : List Tree) : (items : List Tree) → items ≠ [] →
    ([Token.comma].intercalate (itemTokens items) ++ [Token.closeArray]).foldlM Reader.step?
      (.value (.array read :: stack)) = some (.after (.array (read.reverse ++ items)) stack)
  | [], h => absurd rfl h
  | [item], _ => by
    rw [itemTokens, itemTokens, List.intercalate_singleton,
      foldlM_append_of_eq (foldlM_tokens (.array read :: stack) item), ← List.reverse_cons]
    rfl
  | item :: next :: rest, _ => by
    have hrest := foldlM_items stack (item :: read) (next :: rest) (List.cons_ne_nil _ _)
    rw [itemTokens] at hrest
    rw [itemTokens, itemTokens, List.intercalate_cons_cons, List.append_assoc, List.append_assoc,
      foldlM_append_of_eq (foldlM_tokens (.array read :: stack) item), List.singleton_append,
      foldlM_cons_of_eq rfl, hrest, List.reverse_cons, List.append_assoc]
    rfl

/-- The fields of an object, some of which have been read, up to its end. -/
theorem foldlM_fields (stack : List Frame) (read : List (List Piece × Tree)) :
    (fields : List (List Piece × Tree)) → fields ≠ [] →
    ([Token.comma].intercalate (fieldTokens fields) ++ [Token.closeObject]).foldlM Reader.step?
      (.key read stack) = some (.after (.object (read.reverse ++ fields)) stack)
  | [], h => absurd rfl h
  | [(name, tree)], _ => by
    rw [fieldTokens, fieldTokens, List.intercalate_singleton, List.cons_append,
      foldlM_cons_of_eq rfl, List.cons_append, foldlM_cons_of_eq rfl,
      foldlM_append_of_eq (foldlM_tokens (.field read name :: stack) tree), ← List.reverse_cons]
    rfl
  | (name, tree) :: next :: rest, _ => by
    have hrest := foldlM_fields stack ((name, tree) :: read) (next :: rest) (List.cons_ne_nil _ _)
    rw [fieldTokens] at hrest
    rw [fieldTokens, fieldTokens, List.intercalate_cons_cons, List.append_assoc, List.append_assoc,
      List.cons_append, foldlM_cons_of_eq rfl, List.cons_append, foldlM_cons_of_eq rfl,
      foldlM_append_of_eq (foldlM_tokens (.field read name :: stack) tree), List.singleton_append,
      foldlM_cons_of_eq rfl, hrest, List.reverse_cons, List.append_assoc]
    rfl

end

/-- **A tree is read exactly from its tokens.** -/
theorem ofTokens?_eq_some_iff {tree : Tree} : ofTokens? word = some tree ↔ word = tree.tokens := by
  constructor
  · intro h
    unfold ofTokens? at h
    split at h
    case h_1 found hread =>
      obtain rfl := Option.some.inj h
      exact (Reader.tokens_of_foldlM hread).symm
    case h_2 => cases h
  · rintro rfl
    rw [ofTokens?, foldlM_tokens]

/-! ### Words and numbers are kept apart -/

/-- A mark, or nothing, stands at the start of some tokens. -/
def StartsWithMark (word : List Token) : Prop := ∀ token ∈ word.head?, token.isMark = true

theorem separated_cons (htoken : token.isWord = false) (h : Separated word) :
    Separated (token :: word) :=
  h.cons fun _ _ hword => absurd hword (by rw [htoken]; exact Bool.false_ne_true)

mutual

/-- In the tokens of a tree, and of what follows it, a mark stands behind each word and each
number. -/
theorem separated_tokens {word : List Token} (hword : Separated word) (hmark : StartsWithMark word) :
    (tree : Tree) → Separated (tree.tokens ++ word)
  | .null => hword.cons fun token hhead _ => hmark token hhead
  | .bool _ => hword.cons fun token hhead _ => hmark token hhead
  | .number _ => hword.cons fun token hhead _ => hmark token hhead
  | .string _ => separated_cons rfl hword
  | .array items => by
    have hclose : Separated (.closeArray :: word) := separated_cons rfl hword
    rw [Tree.tokens, List.cons_append, List.append_assoc]
    exact separated_cons rfl (separated_items hclose (by rintro _ ⟨⟩; rfl) items)
  | .object fields => by
    have hclose : Separated (.closeObject :: word) := separated_cons rfl hword
    rw [Tree.tokens, List.cons_append, List.append_assoc]
    exact separated_cons rfl (separated_fields hclose (by rintro _ ⟨⟩; rfl) fields)

theorem separated_items {word : List Token} (hword : Separated word) (hmark : StartsWithMark word) :
    (items : List Tree) → Separated ([Token.comma].intercalate (itemTokens items) ++ word)
  | [] => hword
  | [item] => by
    rw [itemTokens, itemTokens, List.intercalate_singleton]
    exact separated_tokens hword hmark item
  | item :: next :: rest => by
    have hrest := separated_items hword hmark (next :: rest)
    rw [itemTokens] at hrest
    rw [itemTokens, itemTokens, List.intercalate_cons_cons, List.append_assoc, List.append_assoc]
    exact separated_tokens (separated_cons rfl hrest) (by rintro _ ⟨⟩; rfl) item

theorem separated_fields {word : List Token} (hword : Separated word)
    (hmark : StartsWithMark word) : (fields : List (List Piece × Tree)) →
    Separated ([Token.comma].intercalate (fieldTokens fields) ++ word)
  | [] => hword
  | [(_, tree)] => by
    rw [fieldTokens, fieldTokens, List.intercalate_singleton]
    exact separated_cons rfl (separated_cons rfl (separated_tokens hword hmark tree))
  | (_, tree) :: next :: rest => by
    have hrest := separated_fields hword hmark (next :: rest)
    rw [fieldTokens] at hrest
    rw [fieldTokens, fieldTokens, List.intercalate_cons_cons, List.append_assoc, List.append_assoc]
    exact separated_cons rfl (separated_cons rfl
      (separated_tokens (separated_cons rfl hrest) (by rintro _ ⟨⟩; rfl) tree))

end

/-- **A tree is read exactly from the spellings of its tokens.** -/
theorem ofText?_eq_some_iff {tree : Tree} {text : String} :
    ofText? text = some tree ↔ Spelled tree.tokens text.toList := by
  have hseparated : Separated tree.tokens := by
    have h := separated_tokens .nil (fun _ hhead => absurd hhead (Option.not_mem_none _)) tree
    rwa [List.append_nil] at h
  constructor
  · intro h
    obtain ⟨word, hscan, hread⟩ := Option.bind_eq_some_iff.mp h
    rw [← ofTokens?_eq_some_iff.mp hread]
    exact spelled_of_scan? hscan
  · intro h
    exact Option.bind_eq_some_iff.mpr
      ⟨_, scan?_of_spelled h hseparated, ofTokens?_eq_some_iff.mpr rfl⟩

end AsmInspect.Json.Tree

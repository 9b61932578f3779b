import AsmInspect.Proofs.Json.Literal
import Mathlib.Data.List.Chain

/-!
# How tokens are spelled

The scanner passes over a text character by character. What it accepts is a sequence of spelled
tokens with blanks anywhere between them, where each token has its own spellings: one for the marks
and the words, the literals for numbers, and for a string any way to escape its characters.

A scanner that is in the middle of a word or a number ends it where something else begins, so a word
or a number right behind another one is read as one. In the tokens of a value there is always a mark
between two of them, so that their spellings can be read in one way only.

## Main definitions

* `Json.Piece.Spelled`, `Json.SpelledString`: how the inside of a string is written
* `Json.Token.Spelled`, `Json.Spelled`: how tokens are written
* `Json.Separated`: a mark stands behind every word and every number

## Main results

* `Json.spelled_of_scan?`: what is scanned is spelled by the text
* `Json.scan?_of_spelled`: separated tokens are scanned from each of their spellings
-/

namespace AsmInspect.Json

/-! ### Spellings -/

/-- The value of some hexadecimal digits. -/
inductive HexDigits : Text → Nat → Prop where
  | nil : HexDigits [] 0
  | snoc {digits : Text} {n digit : Nat} {c : Char} : HexDigits digits n → hexValue? c = some digit →
      HexDigits (digits ++ [c]) (16 * n + digit)

/-- **How a piece of a string is written**: a character by itself or behind a backslash, a code unit
in four hexadecimal digits. -/
inductive Piece.Spelled : Piece → Text → Prop where
  | plain {c : Char} : c ≠ '"' → c ≠ '\\' → 0x20 ≤ c.toNat → Spelled (.char c) [c]
  | escaped {letter c : Char} : escaped? letter = some c → Spelled (.char c) ['\\', letter]
  | unit {digits : Text} {n : Nat} : HexDigits digits n → digits.length = 4 →
      Spelled (.unit n) ('\\' :: 'u' :: digits)

/-- How the inside of a string is written. -/
inductive SpelledString : List Piece → Text → Prop where
  | nil : SpelledString [] []
  | cons {piece : Piece} {pieces : List Piece} {front text : Text} : piece.Spelled front →
      SpelledString pieces text → SpelledString (piece :: pieces) (front ++ text)

/-- **How a token is written.** -/
inductive Token.Spelled : Token → Text → Prop where
  | openArray : Spelled .openArray ['[']
  | closeArray : Spelled .closeArray [']']
  | openObject : Spelled .openObject ['\x7b']
  | closeObject : Spelled .closeObject ['\x7d']
  | comma : Spelled .comma [',']
  | colon : Spelled .colon [':']
  | null : Spelled .null "null".toList
  | bool (b : Bool) : Spelled (.bool b) (if b then "true" else "false").toList
  | number {literal : Text} : Literal literal → Spelled (.number literal) literal
  | string {pieces : List Piece} {inside : Text} : SpelledString pieces inside →
      Spelled (.string pieces) ('"' :: inside ++ ['"'])

/-- **How tokens are written**, with blanks anywhere between them. -/
inductive Spelled : List Token → Text → Prop where
  | nil : Spelled [] []
  | blank {tokens : List Token} {c : Char} {text : Text} : isSpace c = true → Spelled tokens text →
      Spelled tokens (c :: text)
  | token {token : Token} {tokens : List Token} {front text : Text} : token.Spelled front →
      Spelled tokens text → Spelled (token :: tokens) (front ++ text)

variable {tokens found : List Token} {text : Text} {mode : Mode} {c : Char}

theorem SpelledString.append {pieces others : List Piece} {front back : Text}
    (h : SpelledString pieces front) (hback : SpelledString others back) :
    SpelledString (pieces ++ others) (front ++ back) := by
  induction h with
  | nil => exact hback
  | cons hpiece _ ih =>
    rw [List.cons_append, List.append_assoc]
    exact .cons hpiece ih

theorem SpelledString.snoc {pieces : List Piece} {piece : Piece} {front back : Text}
    (h : SpelledString pieces front) (hback : piece.Spelled back) :
    SpelledString (pieces ++ [piece]) (front ++ back) := by
  have hlast := SpelledString.cons hback .nil
  rw [List.append_nil] at hlast
  exact h.append hlast

theorem Spelled.append {others : List Token} {front back : Text} (h : Spelled tokens front)
    (hback : Spelled others back) : Spelled (tokens ++ others) (front ++ back) := by
  induction h with
  | nil => exact hback
  | blank hspace _ ih => exact .blank hspace ih
  | token htoken _ ih =>
    rw [List.cons_append, List.append_assoc]
    exact .token htoken ih

theorem Token.Spelled.spelled {token : Token} (h : token.Spelled text) : Json.Spelled [token] text := by
  have hone := Json.Spelled.token h .nil
  rwa [List.append_nil] at hone

theorem Spelled.snoc {token : Token} {front back : Text} (h : Spelled tokens front)
    (hback : token.Spelled back) : Spelled (tokens ++ [token]) (front ++ back) :=
  h.append hback.spelled

theorem Spelled.snoc_blank (h : Spelled tokens text) (hc : isSpace c = true) :
    Spelled tokens (text ++ [c]) := by
  have happend := h.append (.blank hc .nil)
  rwa [List.append_nil] at happend

/-! ### What is scanned is spelled -/

/-- What has been read of the token that a scanner is in the middle of. -/
def Mode.Pending : Mode → Text → Prop
  | .between, text => text = []
  | .word seen, text => text = seen.reverse
  | .number seen, text => text = seen.reverse
  | .string seen, text => ∃ inside, SpelledString seen.reverse inside ∧ text = '"' :: inside
  | .escape seen, text =>
    ∃ inside, SpelledString seen.reverse inside ∧ text = '"' :: (inside ++ ['\\'])
  | .unit seen count value, text =>
    ∃ inside digits, SpelledString seen.reverse inside ∧ HexDigits digits value ∧
      digits.length = count ∧ text = '"' :: (inside ++ '\\' :: 'u' :: digits)

/-- **What a scanner has read**: the tokens found, and a part of the next one. -/
def Scanned (state : List Token × Mode) (text : Text) : Prop :=
  ∃ front pending, Spelled state.1.reverse front ∧ state.2.Pending pending ∧ text = front ++ pending

theorem scanned_between (h : Spelled found.reverse text) : Scanned (found, .between) text :=
  ⟨text, [], h, rfl, (List.append_nil text).symm⟩

theorem spelled_of_wordToken? {token : Token} (h : wordToken? text = some token) :
    token.Spelled text := by
  unfold wordToken? at h
  split at h
  case isTrue hword =>
    obtain rfl := Option.some.inj h
    rw [eq_of_beq hword]
    exact .null
  case isFalse =>
    split at h
    case isTrue hword =>
      obtain rfl := Option.some.inj h
      rw [eq_of_beq hword]
      exact .bool true
    case isFalse =>
      split at h
      case isTrue hword =>
        obtain rfl := Option.some.inj h
        rw [eq_of_beq hword]
        exact .bool false
      case isFalse => cases h

/-- A scanner that can end has read the tokens that it ends with. -/
theorem spelled_of_endToken? {front pending : Text} (hfound : Spelled found.reverse front)
    (hpending : mode.Pending pending) (h : endToken? found mode = some tokens) :
    Spelled tokens.reverse (front ++ pending) := by
  cases mode with
  | between =>
    obtain rfl := Option.some.inj h
    obtain rfl : pending = [] := hpending
    rwa [List.append_nil]
  | word seen =>
    obtain rfl : pending = seen.reverse := hpending
    obtain ⟨token, htoken, rfl⟩ := Option.map_eq_some_iff.mp h
    rw [List.reverse_cons]
    exact hfound.snoc (spelled_of_wordToken? htoken)
  | number seen =>
    obtain rfl : pending = seen.reverse := hpending
    rw [endToken?] at h
    split at h
    case isFalse => cases h
    case isTrue hnumber =>
      obtain rfl := Option.some.inj h
      rw [List.reverse_cons]
      exact hfound.snoc (.number (isNumber_iff.mp hnumber))
  | string seen => cases h
  | escape seen => cases h
  | unit seen count value => cases h

theorem scanned_of_startToken? {state : List Token × Mode} (hfound : Spelled found.reverse text)
    (h : startToken? found c = some state) : Scanned state (text ++ [c]) := by
  have hmark : ∀ {token : Token}, token.Spelled [c] →
      Scanned (token :: found, .between) (text ++ [c]) := fun htoken => by
    refine scanned_between ?_
    rw [List.reverse_cons]
    exact hfound.snoc htoken
  unfold startToken? at h
  split at h
  case isTrue hspace =>
    obtain rfl := Option.some.inj h
    exact scanned_between (hfound.snoc_blank hspace)
  case isFalse =>
    split at h
    case isTrue =>
      obtain rfl := Option.some.inj h
      exact ⟨text, [c], hfound, rfl, rfl⟩
    case isFalse =>
      split at h
      case isTrue =>
        obtain rfl := Option.some.inj h
        exact ⟨text, [c], hfound, rfl, rfl⟩
      case isFalse =>
        split at h <;> try (obtain rfl := Option.some.inj h)
        · exact hmark .openArray
        · exact hmark .closeArray
        · exact hmark .openObject
        · exact hmark .closeObject
        · exact hmark .comma
        · exact hmark .colon
        · exact ⟨text, ['"'], hfound, ⟨[], .nil, rfl⟩, rfl⟩
        · cases h

/-- A word or a number has ended, and something else begins. -/
theorem scanned_of_ended {front pending : Text} {next : List Token × Mode}
    (hfound : Spelled found.reverse front) (hpending : mode.Pending pending)
    (h : (do startToken? (← endToken? found mode) c) = some next) :
    Scanned next (front ++ pending ++ [c]) := by
  obtain ⟨ended, hend, hstart⟩ := Option.bind_eq_some_iff.mp h
  exact scanned_of_startToken? (spelled_of_endToken? hfound hpending hend) hstart

/-- A character inside a string, or the quote at its end. -/
theorem scanned_of_string {front inside : Text} {seen : List Piece} {next : List Token × Mode}
    (hfound : Spelled found.reverse front) (hinside : SpelledString seen.reverse inside)
    (h : scanStep? (found, .string seen) c = some next) :
    Scanned next (front ++ '"' :: inside ++ [c]) := by
  rw [scanStep?] at h
  split at h
  case isTrue hquote =>
    obtain rfl := Option.some.inj h
    obtain rfl : c = '"' := eq_of_beq hquote
    refine scanned_between ?_
    rw [List.reverse_cons, List.append_assoc]
    exact hfound.snoc (.string hinside)
  case isFalse hquote =>
    split at h
    case isTrue hescape =>
      obtain rfl := Option.some.inj h
      obtain rfl : c = '\\' := eq_of_beq hescape
      exact ⟨front, _, hfound, ⟨inside, hinside, rfl⟩, List.append_assoc ..⟩
    case isFalse hescape =>
      split at h
      case isTrue => cases h
      case isFalse hcontrol =>
        obtain rfl := Option.some.inj h
        have hpiece : (Piece.char c).Spelled [c] :=
          .plain (by simpa using hquote) (by simpa using hescape) (Nat.not_lt.mp hcontrol)
        refine ⟨front, _, hfound, ⟨inside ++ [c], ?_, rfl⟩, List.append_assoc ..⟩
        rw [List.reverse_cons]
        exact hinside.snoc hpiece

/-- A letter behind a backslash. -/
theorem scanned_of_escape {front inside : Text} {seen : List Piece} {next : List Token × Mode}
    (hfound : Spelled found.reverse front) (hinside : SpelledString seen.reverse inside)
    (h : scanStep? (found, .escape seen) c = some next) :
    Scanned next (front ++ '"' :: (inside ++ ['\\']) ++ [c]) := by
  rw [scanStep?] at h
  split at h
  case isTrue hunit =>
    obtain rfl := Option.some.inj h
    obtain rfl : c = 'u' := eq_of_beq hunit
    refine ⟨front, _, hfound, ⟨inside, [], hinside, .nil, rfl, rfl⟩, ?_⟩
    simp
  case isFalse =>
    obtain ⟨meant, hmeant, rfl⟩ := Option.map_eq_some_iff.mp h
    refine ⟨front, _, hfound, ⟨inside ++ ['\\', c], ?_, rfl⟩, ?_⟩
    · rw [List.reverse_cons]
      exact hinside.snoc (.escaped hmeant)
    · simp

/-- A hexadecimal digit of a code unit, perhaps the last one. -/
theorem scanned_of_unit {front inside digits : Text} {seen : List Piece} {count value : Nat}
    {next : List Token × Mode} (hfound : Spelled found.reverse front)
    (hinside : SpelledString seen.reverse inside) (hdigits : HexDigits digits value)
    (hcount : digits.length = count) (h : scanStep? (found, .unit seen count value) c = some next) :
    Scanned next (front ++ '"' :: (inside ++ '\\' :: 'u' :: digits) ++ [c]) := by
  obtain ⟨digit, hdigit, hnext⟩ := Option.map_eq_some_iff.mp h
  have hmore := hdigits.snoc hdigit
  split at hnext
  case isTrue hlast =>
    subst hnext
    have hlength : (digits ++ [c]).length = 4 := by
      rw [List.length_append, hcount, eq_of_beq hlast]
      rfl
    refine ⟨front, _, hfound, ⟨inside ++ '\\' :: 'u' :: (digits ++ [c]), ?_, rfl⟩, ?_⟩
    · rw [List.reverse_cons]
      exact hinside.snoc (.unit hmore hlength)
    · simp
  case isFalse =>
    subst hnext
    refine ⟨front, _, hfound, ⟨inside, digits ++ [c], hinside, hmore, ?_, rfl⟩, ?_⟩
    · rw [List.length_append, hcount]
      rfl
    · simp

/-- **What one more character does** to what has been read. -/
theorem Scanned.step {state next : List Token × Mode} (hstate : Scanned state text)
    (h : scanStep? state c = some next) : Scanned next (text ++ [c]) := by
  obtain ⟨found, mode⟩ := state
  obtain ⟨front, pending, hfound, hpending, rfl⟩ := hstate
  cases mode with
  | between =>
    obtain rfl : pending = [] := hpending
    rw [List.append_nil]
    exact scanned_of_startToken? hfound h
  | word seen | number seen =>
    rw [scanStep?] at h
    split at h
    case isTrue =>
      -- the word or the number goes on
      obtain rfl := Option.some.inj h
      refine ⟨front, (c :: seen).reverse, hfound, rfl, ?_⟩
      rw [List.reverse_cons, List.append_assoc, ← show pending = seen.reverse from hpending]
    case isFalse => exact scanned_of_ended hfound hpending h
  | string seen =>
    obtain ⟨inside, hinside, rfl⟩ := hpending
    exact scanned_of_string hfound hinside h
  | escape seen =>
    obtain ⟨inside, hinside, rfl⟩ := hpending
    exact scanned_of_escape hfound hinside h
  | unit seen count value =>
    obtain ⟨inside, digits, hinside, hdigits, hcount, rfl⟩ := hpending
    exact scanned_of_unit hfound hinside hdigits hcount h

theorem Scanned.foldlM {state final : List Token × Mode} {front : Text}
    (hstate : Scanned state front) (h : text.foldlM scanStep? state = some final) :
    Scanned final (front ++ text) := by
  induction text generalizing state front with
  | nil =>
    obtain rfl := Option.some.inj h
    rwa [List.append_nil]
  | cons c rest ih =>
    rw [List.foldlM_cons] at h
    obtain ⟨next, hnext, hrest⟩ := Option.bind_eq_some_iff.mp h
    have happend := ih (hstate.step hnext) hrest
    rwa [List.append_assoc] at happend

/-- **What is scanned is spelled by the text.** -/
theorem spelled_of_scan? (h : scan? text = some tokens) : Spelled tokens text := by
  obtain ⟨⟨found, mode⟩, hfold, h⟩ := Option.bind_eq_some_iff.mp h
  obtain ⟨ended, hend, h⟩ := Option.bind_eq_some_iff.mp h
  obtain rfl := Option.some.inj h
  have hstart : Scanned ([], .between) [] := scanned_between .nil
  obtain ⟨front, pending, hfound, hpending, htext⟩ := hstart.foldlM hfold
  rw [List.nil_append] at htext
  rw [htext]
  exact spelled_of_endToken? hfound hpending hend

/-! ### What is spelled is scanned -/

/-- The tokens found in a text that follows what a scanner has read, in reverse. -/
def scanRest? (state : List Token × Mode) (text : Text) : Option (List Token) := do
  let (found, mode) ← text.foldlM scanStep? state
  endToken? found mode

theorem scan?_eq (text : Text) :
    scan? text = (scanRest? ([], .between) text).map List.reverse := by
  unfold scan? scanRest?
  cases text.foldlM scanStep? ([], .between) with
  | none => rfl
  | some state =>
    cases hend : endToken? state.1 state.2 <;> simp [hend]

theorem scanRest?_append {state next : List Token × Mode} {front : Text}
    (h : front.foldlM scanStep? state = some next) (text : Text) :
    scanRest? state (front ++ text) = scanRest? next text := by
  rw [scanRest?, List.foldlM_append, h]
  rfl

theorem scanRest?_cons {state next : List Token × Mode} (h : scanStep? state c = some next)
    (text : Text) : scanRest? state (c :: text) = scanRest? next text := by
  rw [scanRest?, List.foldlM_cons, h]
  rfl

/-- What ends a word or a number, if one stands in front of it. -/
def Delimits (text : Text) : Prop :=
  ∀ c ∈ text.head?, c.isAlphanum = false ∧ continuesNumber c = false

/-- A scanner in the middle of a word or a number ends it at something else. -/
theorem scanRest?_of_delimits {ended : List Token} (hmode : ∀ c, c.isAlphanum = false →
      continuesNumber c = false → scanStep? (found, mode) c = (endToken? found mode).bind (startToken? · c))
    (hend : endToken? found mode = some ended) (h : Delimits text) :
    scanRest? (found, mode) text = scanRest? (ended, .between) text := by
  cases text with
  | nil => exact hend
  | cons c rest =>
    obtain ⟨halnum, hnumber⟩ := h c rfl
    have hstep : scanStep? (found, mode) c = scanStep? (ended, .between) c := by
      rw [hmode c halnum hnumber, hend]
      rfl
    rw [scanRest?, List.foldlM_cons, hstep, scanRest?, List.foldlM_cons]

theorem scanRest?_word {ended : List Token} {seen : Text}
    (hend : endToken? found (.word seen) = some ended) (h : Delimits text) :
    scanRest? (found, .word seen) text = scanRest? (ended, .between) text := by
  refine scanRest?_of_delimits (fun c halnum _ => ?_) hend h
  rw [scanStep?, if_neg (by simp [halnum])]
  rfl

theorem scanRest?_number {ended : List Token} {seen : Text}
    (hend : endToken? found (.number seen) = some ended) (h : Delimits text) :
    scanRest? (found, .number seen) text = scanRest? (ended, .between) text := by
  refine scanRest?_of_delimits (fun c _ hnumber => ?_) hend h
  rw [scanStep?, if_neg (by simp [hnumber])]
  rfl

theorem foldlM_number (h : ∀ c ∈ text, continuesNumber c = true) (seen : Text) :
    text.foldlM scanStep? (found, .number seen) = some (found, .number (text.reverse ++ seen)) := by
  induction text generalizing seen with
  | nil => rfl
  | cons c rest ih =>
    have hstep : scanStep? (found, .number seen) c = some (found, .number (c :: seen)) := by
      rw [scanStep?, if_pos (h c (List.mem_cons_self ..))]
    rw [List.foldlM_cons, hstep, List.reverse_cons, List.append_assoc]
    exact ih (fun d hd => h d (List.mem_cons_of_mem _ hd)) _

theorem scanStep?_blank (h : isSpace c = true) :
    scanStep? (found, .between) c = some (found, .between) := by
  rw [scanStep?]
  unfold startToken?
  rw [if_pos h]

/-- A literal is read as a number. -/
theorem foldlM_literal (h : Literal text) :
    text.foldlM scanStep? (found, .between) = some (found, .number text.reverse) := by
  obtain ⟨c, rest, rfl, hc, hall⟩ := h.continues
  have hblank : isSpace c = false := by
    by_contra hspace
    rw [Bool.not_eq_false] at hspace
    simp only [isSpace, Bool.or_eq_true, beq_iff_eq] at hspace
    rcases hspace with ((rfl | rfl) | rfl) | rfl <;> exact absurd hc (by decide)
  have hstep : scanStep? (found, .between) c = some (found, .number [c]) := by
    rw [scanStep?]
    unfold startToken?
    rw [if_neg (by simp [hblank]), if_pos hc]
  rw [List.foldlM_cons, hstep, List.reverse_cons]
  exact foldlM_number (fun d hd => hall d (List.mem_cons_of_mem _ hd)) _

/-- Digits of an escape are read one by one. -/
theorem HexDigits.foldlM {digits : Text} {n : Nat} (h : HexDigits digits n)
    (hlength : digits.length < 4) (seen : List Piece) :
    digits.foldlM scanStep? (found, .unit seen 0 0) = some (found, .unit seen digits.length n) := by
  induction h with
  | nil => rfl
  | @snoc digits n digit c hdigits hdigit ih =>
    rw [List.length_append, List.length_singleton] at hlength
    have hmore : ¬ (digits.length == 3) = true := by
      rw [beq_iff_eq]
      omega
    have hstep : scanStep? (found, .unit seen digits.length n) c =
        some (found, .unit seen (digits.length + 1) (16 * n + digit)) := by
      rw [scanStep?, hdigit, Option.map_some, if_neg hmore]
    rw [List.foldlM_append, ih (by omega), Option.bind_eq_bind, Option.bind_some,
      List.foldlM_cons, hstep, List.length_append, List.length_singleton]
    rfl

theorem Piece.Spelled.foldlM {piece : Piece} (h : piece.Spelled text) (seen : List Piece) :
    text.foldlM scanStep? (found, .string seen) = some (found, .string (piece :: seen)) := by
  cases h with
  | @plain c hquote hescape hcontrol =>
    have hstep : scanStep? (found, .string seen) c = some (found, .string (.char c :: seen)) := by
      rw [scanStep?, if_neg (by simpa using hquote), if_neg (by simpa using hescape),
        if_neg (Nat.not_lt.mpr hcontrol)]
    rw [List.foldlM_cons, hstep]
    rfl
  | @escaped letter c hmeant =>
    have hletter : ¬ (letter == 'u') = true := by
      rw [beq_iff_eq]
      rintro rfl
      cases hmeant
    have hstep : scanStep? (found, .escape seen) letter =
        some (found, .string (.char c :: seen)) := by
      rw [scanStep?, if_neg hletter, hmeant]
      rfl
    have hopen : scanStep? (found, .string seen) '\\' = some (found, .escape seen) := rfl
    rw [List.foldlM_cons, hopen, Option.bind_eq_bind, Option.bind_some, List.foldlM_cons, hstep]
    rfl
  | @unit digits n hdigits hlength =>
    have hopen : ['\\', 'u'].foldlM scanStep? (found, .string seen) =
        some (found, .unit seen 0 0) := rfl
    cases hdigits with
    | nil => cases hlength
    | @snoc digits n digit c hdigits hdigit =>
      rw [List.length_append, List.length_singleton] at hlength
      have hcount : digits.length = 3 := Nat.succ.inj hlength
      have hstep : scanStep? (found, .unit seen digits.length n) c =
          some (found, .string (.unit (16 * n + digit) :: seen)) := by
        rw [scanStep?, hdigit, Option.map_some, if_pos (by rw [hcount]; rfl)]
      have hall : ('\\' :: 'u' :: (digits ++ [c])) = ['\\', 'u'] ++ (digits ++ [c]) := rfl
      rw [hall, List.foldlM_append, hopen, Option.bind_eq_bind, Option.bind_some,
        List.foldlM_append, hdigits.foldlM (by omega), Option.bind_eq_bind, Option.bind_some,
        List.foldlM_cons, hstep]
      rfl

theorem SpelledString.foldlM {pieces : List Piece} (h : SpelledString pieces text)
    (seen : List Piece) : text.foldlM scanStep? (found, .string seen) =
      some (found, .string (pieces.reverse ++ seen)) := by
  induction h generalizing seen with
  | nil => rfl
  | cons hpiece _ ih =>
    rw [List.foldlM_append, hpiece.foldlM, Option.bind_eq_bind, Option.bind_some, ih,
      List.reverse_cons, List.append_assoc]
    rfl

/-- The tokens that are single marks. -/
def Token.isMark : Token → Bool
  | openArray | closeArray | openObject | closeObject | comma | colon => true
  | _ => false

/-- The tokens that must not stand right in front of one another. -/
def Token.isWord : Token → Bool
  | null | bool _ | number _ => true
  | _ => false

/-- **A token is scanned from its spelling**, if a word or a number ends there. -/
theorem Token.Spelled.scanRest? {token : Token} {front : Text} (h : token.Spelled front)
    (hrest : token.isWord = true → Delimits text) :
    Json.scanRest? (found, .between) (front ++ text) =
      Json.scanRest? (token :: found, .between) text := by
  cases h with
  | openArray => exact scanRest?_cons rfl text
  | closeArray => exact scanRest?_cons rfl text
  | openObject => exact scanRest?_cons rfl text
  | closeObject => exact scanRest?_cons rfl text
  | comma => exact scanRest?_cons rfl text
  | colon => exact scanRest?_cons rfl text
  | null => exact (scanRest?_append rfl text).trans (scanRest?_word rfl (hrest rfl))
  | bool b =>
    cases b with
    | false => exact (scanRest?_append rfl text).trans (scanRest?_word rfl (hrest rfl))
    | true => exact (scanRest?_append rfl text).trans (scanRest?_word rfl (hrest rfl))
  | number hliteral =>
    refine (scanRest?_append (foldlM_literal hliteral) text).trans
      (scanRest?_number ?_ (hrest rfl))
    rw [endToken?, List.reverse_reverse, if_pos (isNumber_iff.mpr hliteral)]
  | @string pieces inside hinside =>
    have hopen : scanStep? (found, .between) '"' = some (found, .string []) := rfl
    have hclose : scanStep? (found, .string pieces.reverse) '"' =
        some (.string pieces :: found, .between) := by
      rw [scanStep?, if_pos (beq_self_eq_true _), List.reverse_reverse]
    have hfold : inside.foldlM scanStep? (found, .string []) =
        some (found, .string pieces.reverse) := by
      rw [hinside.foldlM, List.append_nil]
    rw [List.cons_append, List.cons_append, scanRest?_cons hopen, List.append_assoc,
      scanRest?_append hfold]
    exact scanRest?_cons hclose text

/-- **A mark stands behind every word and every number** that is not the last token. -/
def Separated (tokens : List Token) : Prop :=
  tokens.IsChain fun token next => token.isWord = true → next.isMark = true

theorem delimits_of_isSpace (h : isSpace c = true) (text : Text) : Delimits (c :: text) := by
  intro d hd
  obtain rfl := Option.some.inj hd
  simp only [isSpace, Bool.or_eq_true, beq_iff_eq] at h
  rcases h with ((rfl | rfl) | rfl) | rfl <;> decide

/-- Marks end words and numbers. -/
theorem Token.Spelled.delimits {token : Token} {front : Text} (h : token.Spelled front)
    (hmark : token.isMark = true) (text : Text) : Delimits (front ++ text) := by
  have hsingle : ∀ c : Char, c.isAlphanum = false → continuesNumber c = false →
      Delimits ([c] ++ text) := by
    intro c halnum hnumber d hd
    obtain rfl := Option.some.inj hd
    exact ⟨halnum, hnumber⟩
  cases h with
  | openArray | closeArray | openObject | closeObject | comma | colon => exact hsingle _ rfl rfl
  | null | bool | number | string => cases hmark

theorem Spelled.delimits (h : Spelled tokens text) (hmark : ∀ token ∈ tokens.head?, token.isMark = true) :
    Delimits text := by
  cases h with
  | nil => exact fun c hc => absurd hc (Option.not_mem_none c)
  | blank hspace => exact delimits_of_isSpace hspace _
  | token htoken => exact htoken.delimits (hmark _ rfl) _

/-- **Separated tokens are scanned from each of their spellings.** -/
theorem scan?_of_spelled (h : Spelled tokens text) (hseparated : Separated tokens) :
    scan? text = some tokens := by
  suffices hrest : ∀ found, scanRest? (found, .between) text = some (tokens.reverse ++ found) by
    rw [scan?_eq, hrest, List.append_nil, Option.map_some, List.reverse_reverse]
  induction h with
  | nil => exact fun _ => rfl
  | @blank tokens c text hspace _ ih =>
    intro found
    rw [scanRest?_cons (scanStep?_blank hspace), ih hseparated]
  | @token token tokens front text htoken htokens ih =>
    intro found
    have hnext : token.isWord = true → Delimits text := by
      intro hword
      refine htokens.delimits fun next hhead => ?_
      exact (List.isChain_cons.mp hseparated).1 next hhead hword
    rw [htoken.scanRest? hnext, ih (List.isChain_cons.mp hseparated).2, List.reverse_cons,
      List.append_assoc]
    rfl

end AsmInspect.Json

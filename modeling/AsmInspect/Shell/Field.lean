import AsmInspect.Shell.State

/-!
# Fields

What a word becomes once its parts have been replaced: fields, split where values that are not quoted
have blanks, and the paths that patterns stand for.

## Main definitions

* `Shell.Item`, `Shell.fields`: replaced words, and their fields
* `State.paths`: the paths that a field with a pattern stands for
* `Shell.modify`: a parameter's value changed by a pattern
-/

namespace AsmInspect.Shell

/-- A piece of a replaced word. -/
inductive Item where
  | char (c : Char) (quoted : Bool)
  /-- There are quotes, so there is a field even if it is empty. -/
  | present
  /-- One field ends and another one may begin. -/
  | gap
  /-- A field ends even if it is empty, unless it has just ended. -/
  | cut
  deriving DecidableEq, Repr

/-- A field whose quoted characters are marked. -/
abbrev Field := List (Char × Bool)

/-- The text of a field. -/
def Field.text (field : Field) : Text := field.map (·.1)

/-- The piece of a word that a character which is not quoted makes; `separators` are the characters
between which fields are split. -/
def item (separators : Text) (c : Char) : Item :=
  if !separators.contains c then .char c false
  else if c == ' ' || c == '\t' || c == '\n' then .gap
  else .cut

/-- A value as pieces of a word, split into fields between the `separators`. -/
def items (separators : Text) (quoted : Bool) (text : Text) : List Item :=
  if quoted then .present :: text.map (.char · true) else text.map (item separators)

/-- Several values as pieces of a word, each a field of its own if the word is split. -/
def itemsOfAll (split : Bool) (separators : Text) (quoted : Bool) : List Text → List Item
  | [] => []
  | [text] => items separators quoted text
  | text :: rest =>
    items separators quoted text ++
      (if split then .gap else .char ' ' quoted) :: itemsOfAll split separators quoted rest

/-- The fields of a replaced word. `open?` is the field that has begun, in reverse order, and `closed`
says that one has ended at blanks right before. -/
def fieldsFrom (open? : Option Field) (closed : Bool) : List Item → List Field
  | [] => open?.toList.map List.reverse
  | .char c quoted :: rest => fieldsFrom (some ((c, quoted) :: open?.getD [])) false rest
  | .present :: rest => fieldsFrom (some (open?.getD [])) false rest
  | .gap :: rest =>
    open?.toList.map List.reverse ++ fieldsFrom none (closed || open?.isSome) rest
  | .cut :: rest =>
    if closed then fieldsFrom none false rest
    else (open?.getD []).reverse :: fieldsFrom none false rest

/-- The fields of a replaced word. -/
def fields (items : List Item) : List Field := fieldsFrom none false items

/-- The single field of a word that is not split. -/
def wholeField (items : List Item) : Field :=
  items.filterMap fun
    | .char c quoted => some (c, quoted)
    | _ => none

/-- The paths below some directories that patterns match, one for each name on the way. -/
def State.matching (state : State) : List Pattern → List Text → List Text
  | [], paths => paths
  | pattern :: patterns, paths =>
    let next := paths.flatMap fun path =>
      let directory := if path.isEmpty then ['.'] else path
      let names := ((state.files.list state.cwd (toStr directory)).toOption.getD []).map ofString
      let isHidden (name : Text) : Bool := name.head? == some '.'
      let fits (name : Text) : Bool :=
        pattern.matchesText name && (!isHidden name || pattern.head? == some (.char '.'))
      if pattern.isPlain then
        let name := pattern.filterMap fun
          | .char c => some c
          | _ => none
        let whole := path ++ name
        if state.files.contains state.cwd (toStr whole) then [whole] else []
      else (names.filter fits).map (path ++ ·)
    let next := if patterns.isEmpty then next else next.map (· ++ ['/'])
    State.matching state patterns next

/-- The paths that a field with a pattern stands for; the field itself if there are none. -/
def State.paths (state : State) (field : Field) : List Text :=
  let pattern := Pattern.ofMarked field
  if pattern.isPlain then [field.text]
  else
    let absolute := field.head? == some ('/', false) || field.head? == some ('/', true)
    let segments := (Text.pieces (· == '/') (field.map (·.1))).map (·.length)
    let marked := (segments.foldl (fun (found, rest) n =>
      (found ++ [rest.take n], rest.drop (n + 1))) (([] : List Field), field)).1
    let found := state.matching ((if absolute then marked.tail else marked).map Pattern.ofMarked)
      [if absolute then ['/'] else []]
    if found.isEmpty then [field.text] else found

/-- A value changed by a modifier with a pattern. -/
def modify (modifier : Text) (pattern : Pattern) (value : Text) : Text :=
  match String.ofList modifier with
  | "%" => pattern.dropFinish false value
  | "%%" => pattern.dropFinish true value
  | "#" => pattern.dropStart false value
  | "##" => pattern.dropStart true value
  | _ => value

end AsmInspect.Shell

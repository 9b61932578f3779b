import AsmInspect.Text.Basic

/-!
# Paths

Paths are texts; their components stand between slashes. Empty components and single dots say
nothing, but for a dot that starts a relative path.

## Main definitions

* `Path.join`: a path taken relative to another one
* `Path.fileName?`, `Path.parent?`: the last component, and the path before it
* `Path.withExtension`: another extension in place of the one of the last component
-/

namespace AsmInspect.Path

/-- Whether a path starts at the root. -/
def isAbsolute (path : String) : Bool := path.toList.head? == some '/'

/-- The components of a path, each with the length of the path up to its end. -/
def components (path : String) : List (Text × Nat) :=
  let ends := (Text.splitAt '/' path.toList).foldl
    (fun (found, start) piece =>
      let finish := start + piece.length
      let counts := !piece.isEmpty && (piece != ['.'] || start == 0)
      (if counts then found ++ [(piece, finish)] else found, finish + 1))
    (([] : List (Text × Nat)), 0)
  ends.1

/-- The last component, unless it is a single or double dot or there is none. -/
def fileName? (path : String) : Option String :=
  match (components path).getLast? with
  | some (name, _) =>
    if name == ['.'] || name == ['.', '.'] then none else some (String.ofList name)
  | none => none

/-- The path without its last component; the root and the empty path have no parent. -/
def parent? (path : String) : Option String :=
  match (components path).reverse with
  | [] => none
  | [_] => some (if isAbsolute path then "/" else "")
  | _ :: (_, finish) :: _ => some (String.ofList (path.toList.take finish))

/-- The path `path` as seen from `base`: an absolute path stays as it is. -/
def join (base path : String) : String :=
  if isAbsolute path || base.isEmpty then path
  else if base.toList.getLast? == some '/' then base ++ path
  else base ++ "/" ++ path

/-- The path with the extension of its last component replaced, or added if there is none. A dot
that starts a name starts no extension. -/
def withExtension (path extension : String) : String :=
  match (components path).getLast?, fileName? path with
  | some (name, finish), some _ =>
    let stem := match (Text.splitAt '.' name).reverse with
      | _ :: front :: more =>
        let front := Text.join ['.'] (front :: more).reverse
        if front.isEmpty then name else front
      | _ => name
    String.ofList (path.toList.take (finish - name.length) ++ stem) ++ "." ++ extension
  | _, _ => path

end AsmInspect.Path

import AsmInspect.Dict
import AsmInspect.Failure
import AsmInspect.Text.Basic
import AsmInspect.Text.Utf8

/-!
# File trees

The files and directories of a machine, each under its absolute path. A path is followed from the
root or from a working directory; everything before its last name must be a directory.

## Main definitions

* `FileTree`: files and directories by path
* `FileTree.locate`: the place that a path leads to
* `FileTree.read`, `FileTree.write`, `FileTree.list`, `FileTree.makeDirectories`,
  `FileTree.remove`: what can be done with places
-/

namespace AsmInspect

/-- What there is at a place. -/
inductive FileTree.Node where
  | file (bytes : List UInt8) (executable : Bool)
  | directory
  deriving DecidableEq, Repr, Inhabited

/-- The files and directories of a machine. -/
structure FileTree where
  /-- What there is at each absolute path; the root itself is not listed. -/
  nodes : Dict FileTree.Node := {}
  deriving DecidableEq, Inhabited

namespace FileTree

/-- The names on the way from the root to a place. -/
abbrev Place := List String

/-- The absolute path of a place. -/
def Place.path (place : Place) : String := "/" ++ "/".intercalate place

/-- What there is at a place. -/
def node? (tree : FileTree) (place : Place) : Option Node :=
  if place.isEmpty then some .directory else tree.nodes.get? place.path

/-- The names of a path, and whether it starts at the root. -/
def names (path : String) : List String :=
  ((Text.splitAt '/' path.toList).filter (!·.isEmpty)).map String.ofList

/-- Whether a path is written as one of a directory. -/
def endsInSlash (path : String) : Bool := path.toList.getLast? == some '/'

/-- The place that some names lead to from a place, whatever there is at its end. -/
def follow (tree : FileTree) (start : Place) : List String → Except FileError Place
  | [] => .ok start
  | name :: rest =>
    match tree.node? start with
    | none => .error .notFound
    | some (.file ..) => .error .notDirectory
    | some .directory =>
      if name == "." then follow tree start rest
      else if name == ".." then follow tree start.dropLast rest
      else follow tree (start ++ [name]) rest

/-- The place that a path leads to from a working directory. -/
def locate (tree : FileTree) (cwd path : String) : Except FileError Place :=
  if path.isEmpty then .error .notFound
  else do
    let start := if path.toList.head? == some '/' then [] else names cwd
    let place ← tree.follow start (names path)
    match tree.node? place with
    | some (.file ..) => if endsInSlash path then .error .notDirectory else .ok place
    | _ => .ok place

/-- What there is at the end of a path. -/
def find (tree : FileTree) (cwd path : String) : Except FileError Node := do
  match tree.node? (← tree.locate cwd path) with
  | some node => .ok node
  | none => .error .notFound

/-- Whether there is anything at the end of a path. -/
def contains (tree : FileTree) (cwd path : String) : Bool :=
  match tree.find cwd path with
  | .ok _ => true
  | .error _ => false

/-- Whether a path leads to a directory. -/
def isDirectory (tree : FileTree) (cwd path : String) : Bool :=
  match tree.find cwd path with
  | .ok .directory => true
  | _ => false

/-- The bytes of a file. -/
def read (tree : FileTree) (cwd path : String) : Except FileError (List UInt8) := do
  match ← tree.find cwd path with
  | .file bytes _ => .ok bytes
  | .directory => .error .isDirectory

/-- The text of a file. -/
def readText (tree : FileTree) (cwd path : String) : Except FileError String := do
  match Utf8.decode? (← tree.read cwd path) with
  | some text => .ok (String.ofList text)
  | none => .error .invalidUtf8

/-- The place of the device that swallows what is written to it. -/
def nullDevice : Place := ["dev", "null"]

/-- The tree with something at a place. -/
def put (tree : FileTree) (place : Place) (node : Node) : FileTree :=
  ⟨tree.nodes.insert place.path node⟩

/-- The place at which a path lets a file be written. -/
def writable (tree : FileTree) (cwd path : String) : Except FileError Place := do
  let place ← tree.locate cwd path
  match tree.node? place with
  | some .directory => .error .isDirectory
  | some (.file ..) => .ok place
  | none =>
    if endsInSlash path then .error .isDirectory
    else if tree.node? place.dropLast == some .directory then .ok place
    else .error .notFound

/-- The tree with a file written anew. A file that was there stays executable. -/
def write (tree : FileTree) (cwd path : String) (bytes : List UInt8) (executable : Bool) :
    Except FileError FileTree := do
  let place ← tree.writable cwd path
  if place == nullDevice then return tree
  match tree.node? place with
  | some (.file _ wasExecutable) => return tree.put place (.file bytes (executable || wasExecutable))
  | _ => return tree.put place (.file bytes executable)

/-- The name that a place has within a directory, if it is there. -/
def childOf? (directory : Place) (path : String) : Option String :=
  let place := names path
  if place.length == directory.length + 1 && place.dropLast == directory then place.getLast?
  else none

/-- The names in the directory at a place. -/
def children (tree : FileTree) (directory : Place) : List String :=
  tree.nodes.keys.filterMap (childOf? directory)

/-- The names in a directory. -/
def list (tree : FileTree) (cwd path : String) : Except FileError (List String) := do
  let place ← tree.locate cwd path
  match tree.node? place with
  | some .directory => .ok (tree.children place)
  | some (.file ..) => .error .notDirectory
  | none => .error .notFound

/-- The tree with a new directory at the end of a path. -/
def makeDirectory (tree : FileTree) (cwd path : String) : Except FileError FileTree := do
  let place ← tree.locate cwd path
  match tree.node? place with
  | some _ => .error .alreadyExists
  | none =>
    if tree.node? place.dropLast == some .directory then .ok (tree.put place .directory)
    else .error .notFound

/-- The tree with directories at all names that some names lead to from a place. -/
def makeAll (tree : FileTree) (start : Place) : List String → Except FileError FileTree
  | [] => .ok tree
  | name :: rest =>
    let place :=
      if name == "." then start else if name == ".." then start.dropLast else start ++ [name]
    match tree.node? place with
    | some .directory => makeAll tree place rest
    | some (.file ..) => .error (if rest.isEmpty then .alreadyExists else .notDirectory)
    | none => makeAll (tree.put place .directory) place rest

/-- The tree with a directory at the end of a path, and on all the way to it. -/
def makeDirectories (tree : FileTree) (cwd path : String) : Except FileError FileTree :=
  tree.makeAll (if path.toList.head? == some '/' then [] else names cwd) (names path)

/-- The tree without what there is at a place and below it. -/
def remove (tree : FileTree) (place : Place) : FileTree :=
  let below := place.path ++ "/"
  ⟨tree.nodes.keys.foldl
    (fun nodes path =>
      if path == place.path || below.toList.isPrefixOf path.toList then nodes.erase path else nodes)
    tree.nodes⟩

end FileTree

end AsmInspect

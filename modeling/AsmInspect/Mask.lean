import AsmInspect.Config.Basic
import AsmInspect.Text.Basic

/-!
# Masking the sandbox

The place where jobs really run is not shown to tools and users: the root of the sandbox is
replaced by a mask, both without slashes at their ends.

## Main definitions

* `Sandbox.maskPath`: a path under the root, masked
* `Sandbox.maskText`: a text with every occurrence of the root masked
-/

namespace AsmInspect

namespace Text

/-- The path without slashes at its end. -/
def dropSlashes (path : Text) : Text := dropEndWhile (· == '/') path

end Text

namespace Sandbox

/-- The root without slashes at its end. -/
def bareRoot (sandbox : Sandbox) : Text := Text.dropSlashes sandbox.root.toList

/-- The root and the mask to show in its place, if there is a root to hide. -/
def masking? (sandbox : Sandbox) : Option (Text × Text) :=
  match sandbox.maskRoot with
  | some mask =>
    if sandbox.bareRoot.isEmpty then none
    else some (sandbox.bareRoot, Text.dropSlashes mask.toList)
  | none => none

/-- A path at or below the root with the mask in place of the root; other values stay. -/
def maskPath (sandbox : Sandbox) (value : String) : String :=
  match sandbox.masking? with
  | none => value
  | some (root, mask) =>
    match Text.after? root value.toList with
    | some rest =>
      if rest.isEmpty || rest.head? == some '/' then String.ofList (mask ++ rest) else value
    | none => value

/-- The text with the mask in place of every occurrence of the root. -/
def maskText (sandbox : Sandbox) (text : String) : String :=
  match sandbox.masking? with
  | none => text
  | some (root, mask) => String.ofList (Text.replaceAll root mask text.toList)

end Sandbox

end AsmInspect

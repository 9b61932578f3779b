import AsmInspect.Filters
import AsmInspect.Flow.Basic
import AsmInspect.Listing.Basic
import AsmInspect.Text.Basic

/-!
# Demangling a listing

A demangler reads the text of a listing and prints it with the symbols in their source form. What it
prints is used only if it still has one line for each line of the listing.

## Main definitions

* `Listing.withTexts?`: the same listing with other texts
* `Listing.demangled`: a listing after a demangler has run
* `Listing.demangle`: the run of the demangler, if one is asked for
-/

namespace AsmInspect.Listing

/-- The listing with new texts for its lines, if there is exactly one for each. -/
def withTexts? (listing : Listing) (texts : List Text) : Option Listing :=
  if texts.length = listing.lines.length then
    some { listing with
      lines := listing.lines.zipWith (fun line text => { line with text := String.ofList text })
        texts }
  else none

/-- The listing after a demangler has run: with the lines it printed, or as it was. -/
def demangled (listing : Listing) (run : ToolResult) : Listing :=
  if run.success then (listing.withTexts? (Text.lines run.stdout.toList)).getD listing else listing

/-- The listing with symbols in their source form, if that is asked for and there is a demangler. -/
def demangle (listing : Listing) (filters : Filters) (demangler : Option String)
    (options : ToolOptions) : Work Listing :=
  let listing := { listing with okToCache := filters.demangle }
  match demangler with
  | none => pure listing
  | some tool =>
    if filters.demangle && !listing.lines.isEmpty then do
      let run ← Work.runTool tool []
        { options with stage := .disassembly, input := some listing.text }
      return listing.demangled run
    else pure listing

end AsmInspect.Listing

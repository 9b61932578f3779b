import AsmInspect.Dict

/-!
# Listings

The assembly of one unit as it is shown: lines with the source position they come from, and an
index of the labels.

## Main definitions

* `SourcePosition`: a line of a source file
* `Listing.Line`, `Listing`: the lines of a listing, its label index and what is known about it
* `Listing.text`: the listing as one text
-/

namespace AsmInspect

/-- A line of a source file; the file may be unknown. -/
structure SourcePosition where
  file : Option String
  line : UInt32
  deriving DecidableEq, Repr, Inhabited

/-- A line of a listing with the source position it comes from. -/
structure Listing.Line where
  text : String
  source : Option SourcePosition := none
  deriving DecidableEq, Repr, Inhabited

/-- A listing. -/
structure Listing where
  lines : List Listing.Line := []
  /-- For each label the number of the line that defines it; lines are counted from one. -/
  labelDefinitions : Dict UInt64 := {}
  /-- Whether the listing may be kept for later requests. -/
  okToCache : Bool := false
  /-- How long the disassembler ran, in milliseconds. -/
  objdumpTimeMs : Option UInt64 := none
  deriving DecidableEq, Inhabited

/-- The lines of the listing put together with line feeds between them. -/
def Listing.text (listing : Listing) : String :=
  "\n".intercalate (listing.lines.map (·.text))

end AsmInspect

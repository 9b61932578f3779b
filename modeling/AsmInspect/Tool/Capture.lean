import AsmInspect.Text.Utf8

/-!
# Captured output

Of each output of a tool only the first bytes are kept. They are read as UTF-8, and a mark at the
end says that something is missing.

## Main definitions

* `Capture`, `Capture.read`, `Capture.ofChunks`: what is kept of a stream read in chunks
* `Capture.text`: the text of what is kept
-/

namespace AsmInspect

/-- What is kept of a stream. -/
structure Capture where
  kept : List UInt8 := []
  truncated : Bool := false
  deriving DecidableEq, Repr, Inhabited

namespace Capture

/-- What ends a text that is not whole. -/
def truncationMark : Text := "\n[Truncated]".toList

/-- What is kept after one more chunk, of at most `limit` bytes in all. -/
def read (limit : Nat) (capture : Capture) (chunk : List UInt8) : Capture :=
  let room := limit - capture.kept.length
  { kept := capture.kept ++ chunk.take room
    truncated := capture.truncated || room < chunk.length }

/-- What is kept of a stream that comes in chunks. -/
def ofChunks (limit : Nat) (chunks : List (List UInt8)) : Capture := chunks.foldl (read limit) {}

/-- The text of what is kept. -/
def text (capture : Capture) : String :=
  String.ofList
    (Utf8.decodeLossy capture.kept ++ if capture.truncated then truncationMark else [])

end Capture

end AsmInspect

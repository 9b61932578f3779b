import AsmInspect.Machine.Local
import Mathlib.Data.List.Basic

/-!
# What is kept of an output

An output comes in chunks of any sizes, and only its first bytes are kept. The chunks leave no
trace: what is kept is the beginning of the whole output, and the mark stands behind it exactly when
the whole is longer than the limit. So what a reader of a cut-off output sees is a text that ends in
the mark, and nothing else about the output matters to it.

## Main definitions

* `Capture.ofBytes`: what is kept of an output that comes in one piece
* `ToolResult.CutOff`: a run whose output was longer than what is kept of it

## Main results

* `Capture.ofChunks_eq`: the chunks of an output leave no trace
* `ToolResult.CutOff.toList_stdout`: the text of a cut-off output
* `Tools.cutOff_resultOf`: the runs of local processes that are cut off
-/

namespace AsmInspect

namespace Capture

variable {limit : Nat}

/-- What is kept of an output that comes in one piece. -/
def ofBytes (limit : Nat) (bytes : List UInt8) : Capture :=
  { kept := bytes.take limit
    truncated := limit < bytes.length }

/-- What is kept after one more chunk is what is kept of all that has come. -/
theorem read_ofBytes (bytes chunk : List UInt8) :
    read limit (ofBytes limit bytes) chunk = ofBytes limit (bytes ++ chunk) := by
  have hroom : limit - min limit bytes.length = limit - bytes.length := by omega
  have htruncated : (decide (limit < bytes.length) ||
      decide (limit - bytes.length < chunk.length)) =
        decide (limit < bytes.length + chunk.length) := by
    rw [← Bool.decide_or]
    apply decide_eq_decide.mpr
    omega
  unfold read ofBytes
  dsimp only
  rw [List.length_take, hroom, htruncated, List.take_append, List.length_append]

theorem foldl_read (bytes : List UInt8) (chunks : List (List UInt8)) :
    chunks.foldl (read limit) (ofBytes limit bytes) = ofBytes limit (bytes ++ chunks.flatten) := by
  induction chunks generalizing bytes with
  | nil => rw [List.foldl_nil, List.flatten_nil, List.append_nil]
  | cons chunk rest ih =>
    rw [List.foldl_cons, read_ofBytes, ih, List.append_assoc, List.flatten_cons]

/-- **The chunks of an output leave no trace.** -/
theorem ofChunks_eq (limit : Nat) (chunks : List (List UInt8)) :
    ofChunks limit chunks = ofBytes limit chunks.flatten := by
  have hempty : ({} : Capture) = ofBytes limit [] := by
    unfold ofBytes
    rw [List.take_nil]
    simp
  rw [ofChunks, hempty, foldl_read, List.nil_append]

/-- The text of an output that does not fit ends in the mark. -/
theorem toList_text_ofBytes {bytes : List UInt8} (h : limit < bytes.length) :
    (ofBytes limit bytes).text.toList =
      Utf8.decodeLossy (bytes.take limit) ++ truncationMark := by
  have htruncated : (ofBytes limit bytes).truncated = true := decide_eq_true h
  rw [text, String.toList_ofList, if_pos htruncated]
  rfl

end Capture

/-- **A run whose output is cut off**: it came in some chunks and was longer than what is kept. -/
structure ToolResult.CutOff (limit : Nat) (chunks : List (List UInt8)) (run : ToolResult) :
    Prop where
  stdout : run.stdout = (Capture.ofChunks limit chunks).text
  overflow : limit < chunks.flatten.length

/-- The text that is kept of an output that is cut off, before the mark. -/
def Capture.beginning (limit : Nat) (chunks : List (List UInt8)) : Text :=
  Utf8.decodeLossy (chunks.flatten.take limit)

/-- **The text of a cut-off output** is its beginning and the mark. -/
theorem ToolResult.CutOff.toList_stdout {limit : Nat} {chunks : List (List UInt8)}
    {run : ToolResult} (h : run.CutOff limit chunks) :
    run.stdout.toList = Capture.beginning limit chunks ++ Capture.truncationMark := by
  rw [h.stdout, Capture.ofChunks_eq]
  exact Capture.toList_text_ofBytes h.overflow

/-- **A local process is cut off** if it prints more than its caller wants to keep. -/
theorem Tools.cutOff_resultOf {call : ToolCall} {state : Shell.State} (killed : Bool)
    (h : call.options.maxOutput.toNat < (Shell.toBytes (state.streamText 1)).length) :
    (resultOf call state killed).CutOff call.options.maxOutput.toNat
      [Shell.toBytes (state.streamText 1)] where
  stdout := rfl
  overflow := by rwa [List.flatten_singleton]

end AsmInspect

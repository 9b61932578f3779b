import AsmInspect.Proofs.Text.Utf8
import AsmInspect.Proofs.Tool.Capture

/-!
# The text that is kept of an output

Of an output in UTF-8 the first bytes are kept, and the cut may fall into a character. The text that
is shown is then made of the whole characters that fit, one replacement character for the broken
one, and the mark. It depends on the output and the limit alone, not on the chunks that the output
came in.

## Main results

* `Capture.text_ofBytes_encode`: the text that is kept of a text
* `Capture.capped_prefix`: what is kept of an output, byte by byte and as a text
-/

namespace AsmInspect.Capture

variable {limit : Nat}

/-- The text that is kept of a text, whose end may be cut off within a character. -/
theorem text_ofBytes_encode (limit : Nat) (text : Text) :
    (ofBytes limit (Utf8.encode text)).text.toList =
      Utf8.fitting limit text ++
        (if Utf8.CutsCharacter limit text then ['\uFFFD'] else []) ++
        (if limit < (Utf8.encode text).length then truncationMark else []) := by
  rw [Capture.text, String.toList_ofList]
  simp only [ofBytes, decide_eq_true_eq]
  rw [Utf8.decodeLossy_take_encode]

/-- **Captured output is the beginning of what was written**, whatever the chunks it came in: the
first bytes up to the limit, marked as cut off exactly if there are more. Of an output in UTF-8 the
text is the longest run of whole characters that fit, a single replacement character exactly if the
cut is within a character, and the mark exactly if something is missing. -/
theorem capped_prefix (limit : Nat) (chunks : List (List UInt8)) :
    (ofChunks limit chunks).kept =
      chunks.flatten.take (min limit chunks.flatten.length) ∧
    ((ofChunks limit chunks).truncated = true ↔ limit < chunks.flatten.length) ∧
    ∀ text : Text, chunks.flatten = Utf8.encode text →
      ∃ whole : Text, whole <+: text ∧ (Utf8.encode whole).length ≤ limit ∧
        (∀ front, front <+: text → (Utf8.encode front).length ≤ limit → front <+: whole) ∧
        (ofChunks limit chunks).text.toList =
          whole ++ (if Utf8.CutsCharacter limit text then ['\uFFFD'] else []) ++
            (if limit < chunks.flatten.length then "\n[Truncated]".toList else []) := by
  rw [ofChunks_eq]
  refine ⟨?_, ?_, fun text htext => ⟨Utf8.fitting limit text, Utf8.fitting_isPrefix limit text,
    Utf8.length_encode_fitting limit text, fun front => Utf8.isPrefix_fitting, ?_⟩⟩
  · rw [ofBytes, List.take_eq_take_iff, Nat.min_assoc, Nat.min_self]
  · rw [ofBytes, decide_eq_true_eq]
  · rw [htext]
    exact text_ofBytes_encode limit text

/-- Three characters of two, three and four bytes, in two chunks that break the second one. -/
def threeCharacters : List (List UInt8) :=
  [[0xC3, 0xA9, 0xE2, 0x82], [0xAC, 0xF0, 0x9F, 0x98, 0x80]]

/-- The cut falls into the last of the characters, behind three of its four bytes. -/
theorem capped_prefix_within_character :
    (ofChunks 8 threeCharacters).text = "é€\uFFFD\n[Truncated]" := by
  obtain ⟨-, -, htext⟩ := capped_prefix 8 threeCharacters
  obtain ⟨whole, hprefix, hfits, hlongest, hshown⟩ := htext ['é', '€', '😀'] (by decide)
  have hwhole : Utf8.fitting 8 ['é', '€', '😀'] = ['é', '€'] := by decide
  have hle := Utf8.isPrefix_fitting hprefix hfits
  rw [hwhole] at hle
  have hge := hlongest ['é', '€'] (by decide) (by decide)
  obtain rfl := hle.eq_of_length_le hge.length_le
  rw [if_pos (by decide), if_pos (by decide)] at hshown
  exact String.toList_inj.mp hshown

end AsmInspect.Capture

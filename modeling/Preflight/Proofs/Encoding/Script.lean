import Preflight.Encoding.Script
import Preflight.Proofs.Encoding.Utf16

/-!
# Which bytes are a script's text

`Encodes` lists the four ways to write a text as the bytes of a script.
Reading accepts these and nothing else (`decodeMarked_eq_some_iff`), except
that a text with a NUL character is refused in each of them
(`decodeScript_eq_iff`).

Without a mark no text starts with U+FEFF, since the bytes of that character
are the mark of UTF-8 and are taken off.  One mark is taken off and no more,
so behind a mark a text may start with it.
-/

namespace Preflight

/-- The byte-order mark as a character. -/
def byteOrderMark : Char := '\uFEFF'

/-- The bytes are a writing of the text. -/
inductive Encodes : List UInt8 → List Char → Prop where
  | utf16LittleEndian (text) :
      Encodes (0xFF :: 0xFE :: Utf16.encode .littleEndian text) text
  | utf16BigEndian (text) :
      Encodes (0xFE :: 0xFF :: Utf16.encode .bigEndian text) text
  | utf8Marked (text) :
      Encodes (0xEF :: 0xBB :: 0xBF :: Utf8.encode text) text
  | utf8 (text) (h : text.head? ≠ some byteOrderMark) :
      Encodes (Utf8.encode text) text

/-- The bytes that the byte-order mark has in UTF-8. -/
theorem Utf8.encodeChar_byteOrderMark :
    Utf8.encodeChar byteOrderMark = [0xEF, 0xBB, 0xBF] := by
  decide

/-- Text that starts with the bytes of the mark starts with the mark. -/
theorem Utf8.head?_of_decode_mark {bytes : List UInt8} {text : List Char}
    (h : Utf8.decode (0xEF :: 0xBB :: 0xBF :: bytes) = some text) :
    text.head? = some byteOrderMark := by
  have happend := Utf8.decode_encodeChar_append byteOrderMark bytes
  rw [Utf8.encodeChar_byteOrderMark] at happend
  obtain ⟨rest, _, rfl⟩ := Option.map_eq_some_iff.mp (happend.symm.trans h)
  rfl

theorem encodes_of_decodeMarked {bytes : List UInt8} {text : List Char}
    (h : decodeMarked bytes = some text) : Encodes bytes text := by
  rw [decodeMarked.eq_def] at h
  split at h
  · rw [Utf16.decode_eq_some_iff.mp h]
    exact .utf16LittleEndian text
  · rw [Utf16.decode_eq_some_iff.mp h]
    exact .utf16BigEndian text
  · rw [Utf8.decode_eq_some_iff.mp h]
    exact .utf8Marked text
  · rename_i hmark
    obtain rfl := Utf8.decode_eq_some_iff.mp h
    refine .utf8 text fun hhead => ?_
    obtain ⟨rest, rfl⟩ := List.head?_eq_some_iff.mp hhead
    refine hmark (Utf8.encode rest) ?_
    rw [Utf8.encode, List.flatMap_cons, Utf8.encodeChar_byteOrderMark]
    rfl

theorem decodeMarked_of_encodes {bytes : List UInt8} {text : List Char}
    (h : Encodes bytes text) : decodeMarked bytes = some text := by
  cases h with
  | utf16LittleEndian => exact Utf16.decode_eq_some_iff.mpr rfl
  | utf16BigEndian => exact Utf16.decode_eq_some_iff.mpr rfl
  | utf8Marked => exact Utf8.decode_encode text
  | utf8 text hhead =>
    have hdecode := Utf8.decode_encode text
    -- No text in UTF-8 starts like one of the marks of UTF-16.
    rw [decodeMarked.eq_def]
    split
    · rename_i bytes heq
      rw [heq, Utf8.decode_of_le (by decide)] at hdecode
      cases hdecode
    · rename_i bytes heq
      rw [heq, Utf8.decode_of_le (by decide)] at hdecode
      cases hdecode
    · rename_i bytes heq
      rw [heq] at hdecode
      exact absurd (Utf8.head?_of_decode_mark hdecode) hhead
    · exact hdecode

/-- Marked or not, bytes are read as the text that they are a writing of. -/
theorem decodeMarked_eq_some_iff {bytes : List UInt8} {text : List Char} :
    decodeMarked bytes = some text ↔ Encodes bytes text :=
  ⟨encodes_of_decodeMarked, decodeMarked_of_encodes⟩

theorem decodeScript_eq_some_iff {bytes : List UInt8} {text : List Char} :
    decodeScript bytes = some text ↔ '\x00' ∉ text ∧ Encodes bytes text := by
  rw [← decodeMarked_eq_some_iff, decodeScript]
  cases hmarked : decodeMarked bytes with
  | none => simp
  | some found =>
    by_cases hnul : '\x00' ∈ found
    · have hne : ¬('\x00' ∉ text ∧ found = text) := by
        rintro ⟨htext, rfl⟩
        exact htext hnul
      simpa [hnul] using hne
    · have heq : found = text → '\x00' ∉ text := by
        rintro rfl
        exact hnul
      simpa [hnul] using heq

/-- The bytes of a script are read as a text exactly if they are a writing of
it and it holds no NUL character.  Bytes that are no writing of such a text
are not read at all. -/
theorem decodeScript_eq_iff (bytes : List UInt8) :
    (∀ text, decodeScript bytes = some text ↔
        '\x00' ∉ text ∧ Encodes bytes text) ∧
      (decodeScript bytes = none ↔
        ∀ text, ¬('\x00' ∉ text ∧ Encodes bytes text)) := by
  refine ⟨fun _ => decodeScript_eq_some_iff, ?_⟩
  simp only [← decodeScript_eq_some_iff]
  exact Option.eq_none_iff_forall_ne_some

end Preflight

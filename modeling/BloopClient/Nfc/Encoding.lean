import BloopClient.Nfc.TextRecord

/-!
# The encoding of a text record

The first byte of a payload says how its text is encoded: bit 7 is clear for
UTF-8 and set for UTF-16. The parser does not look at it and reads every text as
UTF-8. A text that is declared as UTF-16 may be valid UTF-8 as well, as every
text in the range of ASCII is, and it is then returned as another text.
-/

namespace BloopClient.Nfc
open Tracelib

/-- A payload with a language code of the declared length, and any bytes for its
text. -/
structure DeclaredPayload where
  status : UInt8
  language : List UInt8
  text : List UInt8
  declared : language.length = (status &&& 0x3f).toNat

namespace DeclaredPayload

def bytes (payload : DeclaredPayload) : List UInt8 :=
  payload.status :: (payload.language ++ payload.text)

/-- The encoding bit of the status byte. -/
def isUtf16 (payload : DeclaredPayload) : Bool := payload.status &&& 0x80 != 0

/-- The text the payload encodes, by the encoding it declares. UTF-16 is big-endian
unless a byte order mark says otherwise. -/
def Encodes (payload : DeclaredPayload) (s : String) : Prop :=
  if payload.isUtf16 then
    payload.text = utf16 bigEndian s ∨ payload.text = 0xfe :: 0xff :: utf16 bigEndian s ∨
      payload.text = 0xff :: 0xfe :: utf16 littleEndian s
  else payload.text = utf8 s

instance (payload : DeclaredPayload) (s : String) : Decidable (payload.Encodes s) :=
  inferInstanceAs (Decidable (if payload.isUtf16 = true then
    (_ : List UInt8) = _ ∨ (_ : List UInt8) = _ ∨ (_ : List UInt8) = _ else (_ : List UInt8) = _))

variable {payload : DeclaredPayload} {s : String}

/-- Whatever the status byte declares, the text is read as UTF-8. -/
theorem text_bytes_ok_iff :
    NdefTextRecord.text ⟨payload.bytes⟩ = .ok s ↔ payload.text = utf8 s := by
  rw [bytes,text_ok_iff,← payload.declared,List.drop_left]
  simp

/-- No text but the empty one is both. -/
theorem not_encodes (hbit : payload.isUtf16 = true) (hne : payload.text ≠ [])
    (hs : payload.text = utf8 s) : ¬ payload.Encodes s := by
  have hmark : ∀ byte ∈ payload.text, byte.toNat < 0xf8 := by
    intro byte hb
    rw [hs] at hb
    exact lt_of_mem_utf8 hb
  rw [Encodes,if_pos hbit]
  rintro (h | h | h)
  · have hempty : s = "" := eq_empty_of_utf8_eq_utf16 (hs.symm.trans h)
    exact hne (hs.trans (utf8_eq_nil_iff.mpr hempty))
  · have hlt := hmark 0xfe (by simp [h])
    revert hlt
    decide
  · have hlt := hmark 0xff (by simp [h])
    revert hlt
    decide

/-- What is returned is the text the payload encodes, just if the payload does not
declare UTF-16 for a text of valid UTF-8 that is not empty. -/
theorem decodes_declared_iff (payload : DeclaredPayload) :
    (∀ s, NdefTextRecord.text ⟨payload.bytes⟩ = .ok s → payload.Encodes s) ↔
      ¬ (payload.isUtf16 = true ∧ payload.text ≠ [] ∧ ∃ s, payload.text = utf8 s) := by
  simp only [text_bytes_ok_iff]
  constructor
  · rintro h ⟨hbit,hne,s,hs⟩
    exact not_encodes hbit hne hs (h s hs)
  · intro hn s hs
    by_cases hbit : payload.isUtf16 = true
    · have hnil : payload.text = [] := by
        by_contra hne
        exact hn ⟨hbit,hne,s,hs⟩
      rw [Encodes,if_pos hbit]
      obtain rfl : s = "" := utf8_eq_nil_iff.mp (hs.symm.trans hnil)
      exact .inl hnil
    · rw [Encodes,if_neg hbit]
      exact hs

end DeclaredPayload

/-- "Hi" in UTF-16. -/
def utf16Payload : DeclaredPayload := ⟨0x82,[101,110],[0x00,0x48,0x00,0x69],by decide⟩

/-- It is returned with a null in front of each letter. -/
theorem utf16Payload_misread : utf16Payload.Encodes "Hi" ∧
    NdefTextRecord.text ⟨utf16Payload.bytes⟩ = .ok "\x00H\x00i" ∧
    ¬ utf16Payload.Encodes "\x00H\x00i" := by
  refine ⟨by decide +kernel,by decide +kernel,by decide +kernel⟩

end BloopClient.Nfc

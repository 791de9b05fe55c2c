import Mathlib.Data.List.Infix

/-!
# Encodings of a text

The bytes of a text in UTF-8 and in UTF-16. No text but the empty one has the
same bytes in both: a first character beyond the three-byte range of UTF-8 begins
with another byte in each, and one of three bytes, or a null, leaves the two
encodings out of step for the rest of the text.

## Main definitions

- `utf8` — the bytes of a text in UTF-8
- `utf16` — the bytes of a text in UTF-16, in either byte order
-/

namespace Tracelib

def utf8 (s : String) : List UInt8 := s.toUTF8.data.toList

/-- The code units of a character: itself, or a surrogate pair. -/
def utf16Units (c : Char) : List ℕ :=
  if c.toNat < 0x10000 then [c.toNat]
  else [0xd800 + (c.toNat - 0x10000) / 0x400,0xdc00 + (c.toNat - 0x10000) % 0x400]

def bigEndian (unit : ℕ) : List UInt8 := [UInt8.ofNat (unit / 256),UInt8.ofNat unit]

def littleEndian (unit : ℕ) : List UInt8 := [UInt8.ofNat unit,UInt8.ofNat (unit / 256)]

/-- The bytes of a text in UTF-16, with no byte order mark. -/
def utf16 (order : ℕ → List UInt8) (s : String) : List UInt8 :=
  s.toList.flatMap fun c => (utf16Units c).flatMap order

theorem utf8_eq_flatMap (s : String) : utf8 s = s.toList.flatMap String.utf8EncodeChar := by
  have h : s.toList.utf8Encode = s.toUTF8 := String.utf8Encode_toList
  rw [utf8,← h,List.utf8Encode,List.data_toByteArray]

/-- Bytes are read as the text whose encoding they are. -/
theorem fromUTF8?_eq_some_iff {bytes : List UInt8} {s : String} :
    String.fromUTF8? ⟨bytes.toArray⟩ = some s ↔ bytes = utf8 s := by
  rw [String.fromUTF8?]
  constructor
  · intro h
    split at h
    · cases h
      rfl
    · cases h
  · rintro rfl
    exact dif_pos s.isValidUTF8

theorem utf8_eq_nil_iff {s : String} : utf8 s = [] ↔ s = "" := by
  rw [utf8_eq_flatMap,List.flatMap_eq_nil_iff,← String.toList_eq_nil_iff,
    List.eq_nil_iff_forall_not_mem]
  simp only [String.utf8EncodeChar_ne_nil]

-- ════════════════════════════════════════════════════════════════════════
-- The bytes of a character
-- ════════════════════════════════════════════════════════════════════════

/-- The characters that take three bytes in UTF-8. -/
def Wide (c : Char) : Prop := 0x7ff < c.toNat ∧ c.toNat ≤ 0xffff

instance (c : Char) : Decidable (Wide c) := inferInstanceAs (Decidable (_ ∧ _))

/-- A byte such a character has in UTF-8: it begins no other character in UTF-16. -/
def High (byte : UInt8) : Prop := 0x80 ≤ byte.toNat ∧ (byte.toNat < 0xd8 ∨ 0xdc ≤ byte.toNat)

section Character

variable {c : Char}

theorem char_toNat_lt (c : Char) : c.toNat < 0x110000 := by
  have h : c.toNat < 0xd800 ∨ (0xdfff < c.toNat ∧ c.toNat < 0x110000) := c.valid
  omega

theorem utf8EncodeChar_eq (c : Char) : String.utf8EncodeChar c =
    if c.toNat ≤ 0x7f then [UInt8.ofNat c.toNat]
    else if c.toNat ≤ 0x7ff then
      [UInt8.ofNat (c.toNat / 64 % 0x20 + 0xc0),UInt8.ofNat (c.toNat % 0x40 + 0x80)]
    else if c.toNat ≤ 0xffff then
      [UInt8.ofNat (c.toNat / 4096 % 0x10 + 0xe0),UInt8.ofNat (c.toNat / 64 % 0x40 + 0x80),
        UInt8.ofNat (c.toNat % 0x40 + 0x80)]
    else
      [UInt8.ofNat (c.toNat / 262144 % 0x08 + 0xf0),UInt8.ofNat (c.toNat / 4096 % 0x40 + 0x80),
        UInt8.ofNat (c.toNat / 64 % 0x40 + 0x80),UInt8.ofNat (c.toNat % 0x40 + 0x80)] := rfl

/-- The bytes of a byte order mark are in no text. -/
theorem lt_of_mem_utf8EncodeChar {byte : UInt8} (h : byte ∈ String.utf8EncodeChar c) :
    byte.toNat < 0xf8 := by
  have hlt : ∀ n, n < 0xf8 → (UInt8.ofNat n).toNat < 0xf8 := by
    intro n hn
    rw [UInt8.toNat_ofNat']
    omega
  rw [utf8EncodeChar_eq] at h
  split at h
  · obtain rfl := List.mem_singleton.mp h
    exact hlt _ (by omega)
  · split at h
    · simp only [List.mem_cons,List.not_mem_nil,or_false] at h
      obtain rfl | rfl := h <;> exact hlt _ (by omega)
    · split at h
      · simp only [List.mem_cons,List.not_mem_nil,or_false] at h
        obtain rfl | rfl | rfl := h <;> exact hlt _ (by omega)
      · simp only [List.mem_cons,List.not_mem_nil,or_false] at h
        obtain rfl | rfl | rfl | rfl := h <;> exact hlt _ (by omega)

theorem utf8_wide (h : Wide c) : ∃ p q r, String.utf8EncodeChar c = [p,q,r] ∧
    High p ∧ High q ∧ High r := by
  obtain ⟨hl,hu⟩ := h
  rw [utf8EncodeChar_eq,if_neg (by omega),if_neg (by omega),if_pos hu]
  refine ⟨_,_,_,rfl,?_,?_,?_⟩
  all_goals
    rw [High,UInt8.toNat_ofNat']
    omega

theorem utf16_wide (h : Wide c) : ∃ x y, (utf16Units c).flatMap bigEndian = [x,y] := by
  have he : utf16Units c = [c.toNat] := if_pos (by have := h.2; omega)
  rw [he]
  exact ⟨_,_,rfl⟩

/-- Other characters begin with a low byte or with the first of a surrogate pair. -/
theorem utf16_not_wide (h : ¬ Wide c) :
    ∃ x rest, (utf16Units c).flatMap bigEndian = x :: rest ∧ ¬ High x := by
  have hlt := char_toNat_lt c
  rw [Wide] at h
  unfold utf16Units
  split
  · next hv =>
    refine ⟨_,_,rfl,?_⟩
    rw [High,UInt8.toNat_ofNat']
    omega
  · next hv =>
    refine ⟨_,_,rfl,?_⟩
    rw [High,UInt8.toNat_ofNat']
    omega

/-- The first byte in UTF-8 is high, unless it is the character itself. -/
theorem utf8_head {byte : UInt8} {rest : List UInt8} (h : String.utf8EncodeChar c = byte :: rest) :
    byte.toNat = c.toNat ∨ (0xc0 ≤ byte.toNat ∧ (c.toNat ≤ 0xffff ∨ 0xf0 ≤ byte.toNat)) := by
  rw [utf8EncodeChar_eq] at h
  split at h
  · next hv =>
    cases h
    rw [UInt8.toNat_ofNat']
    omega
  · split at h
    · cases h
      rw [UInt8.toNat_ofNat']
      omega
    · split at h
      · cases h
        rw [UInt8.toNat_ofNat']
        omega
      · cases h
        rw [UInt8.toNat_ofNat']
        omega

/-- Only a null begins with a null byte. -/
theorem eq_null_of_utf8 {rest : List UInt8} (h : String.utf8EncodeChar c = 0x00 :: rest) :
    c = '\x00' := by
  have hz : (0x00 : UInt8).toNat = 0 := rfl
  have hhead := utf8_head h
  have hc : c.toNat = 0 := by omega
  exact Char.toNat_inj.mp hc

/-- A character that begins with the same byte in both encodings is a null, unless
it is wide. -/
theorem eq_null_of_head {byte : UInt8} {rest rest' : List UInt8} (hw : ¬ Wide c)
    (h₈ : String.utf8EncodeChar c = byte :: rest)
    (h₁₆ : (utf16Units c).flatMap bigEndian = byte :: rest') : c = '\x00' := by
  have hlt := char_toNat_lt c
  have hhead := utf8_head h₈
  rw [Wide] at hw
  unfold utf16Units at h₁₆
  split at h₁₆
  · next hv =>
    have hb : UInt8.ofNat (c.toNat / 256) = byte := (List.cons.inj h₁₆).1
    rw [← hb,UInt8.toNat_ofNat'] at hhead
    have hc : c.toNat = 0 := by omega
    exact Char.toNat_inj.mp hc
  · next hv =>
    have hb : UInt8.ofNat ((0xd800 + (c.toNat - 0x10000) / 0x400) / 256) = byte :=
      (List.cons.inj h₁₆).1
    rw [← hb,UInt8.toNat_ofNat'] at hhead
    omega

end Character

-- ════════════════════════════════════════════════════════════════════════
-- The bytes of a text
-- ════════════════════════════════════════════════════════════════════════

section Text

variable {cs : List Char}

/-- The encodings of some characters, as bytes. -/
abbrev bytes₈ (cs : List Char) : List UInt8 := cs.flatMap String.utf8EncodeChar

abbrev bytes₁₆ (cs : List Char) : List UInt8 :=
  cs.flatMap fun c => (utf16Units c).flatMap bigEndian

theorem bytes₈_null : bytes₈ ('\x00' :: cs) = 0x00 :: bytes₈ cs := rfl

theorem bytes₁₆_null : bytes₁₆ ('\x00' :: cs) = 0x00 :: 0x00 :: bytes₁₆ cs := rfl

/-- Once UTF-8 has fallen behind by nulls, all characters are nulls and it falls
further behind. -/
theorem utf8_behind (n : ℕ) : bytes₈ cs ≠ List.replicate (n + 1) 0x00 ++ bytes₁₆ cs := by
  induction cs generalizing n with
  | nil => simp
  | cons c cs ih =>
    intro h
    obtain ⟨byte,rest,hc⟩ := List.exists_cons_of_ne_nil (String.utf8EncodeChar_ne_nil (c := c))
    have hb : byte = 0x00 := by
      rw [bytes₈,List.flatMap_cons,hc,List.replicate_succ] at h
      exact (List.cons.inj h).1
    obtain rfl := eq_null_of_utf8 (hb ▸ hc)
    have hr : List.replicate (n + 1) 0x00 ++ (List.replicate 2 0x00 ++ bytes₁₆ cs) =
        0x00 :: (List.replicate (n + 1 + 1) 0x00 ++ bytes₁₆ cs) := by
      rw [← List.append_assoc,List.replicate_append_replicate]
      rfl
    rw [bytes₈_null,bytes₁₆_null] at h
    exact ih (n + 1) (List.cons.inj (h.trans hr)).2

/-- Once UTF-8 is ahead by bytes of wide characters, all characters are wide and it
gets further ahead. -/
theorem utf8_ahead {ahead : List UInt8} (hne : ahead ≠ []) (hhigh : ∀ byte ∈ ahead, High byte) :
    ahead ++ bytes₈ cs ≠ bytes₁₆ cs := by
  induction cs generalizing ahead with
  | nil => simpa using hne
  | cons c cs ih =>
    intro h
    obtain ⟨byte,ahead,rfl⟩ := List.exists_cons_of_ne_nil hne
    rw [bytes₈,bytes₁₆,List.flatMap_cons,List.flatMap_cons] at h
    by_cases hw : Wide c
    · obtain ⟨p,q,r,h₈,hp,hq,hr⟩ := utf8_wide hw
      obtain ⟨x,y,h₁₆⟩ := utf16_wide hw
      rw [h₈,h₁₆] at h
      -- two bytes of what is ahead are met, and three are new
      have hnext : (ahead ++ [p,q,r]) ++ bytes₈ cs = y :: bytes₁₆ cs := by
        rw [List.append_assoc]
        exact (List.cons.inj h).2
      cases ahead with
      | nil =>
        have hbytes : ∀ byte ∈ [q,r], High byte := by simp [hq,hr]
        exact ih (List.cons_ne_nil q [r]) hbytes (List.cons.inj hnext).2
      | cons a ahead =>
        have hbytes : ∀ byte ∈ ahead ++ [p,q,r], High byte := by
          intro byte hm
          simp only [List.mem_append,List.mem_cons,List.not_mem_nil,or_false] at hm
          obtain hm | rfl | rfl | rfl := hm
          · exact hhigh byte (by simp [hm])
          · exact hp
          · exact hq
          · exact hr
        exact ih (by simp) hbytes (List.cons.inj hnext).2
    · obtain ⟨x,rest,h₁₆,hx⟩ := utf16_not_wide hw
      rw [h₁₆] at h
      obtain rfl : byte = x := (List.cons.inj h).1
      exact hx (hhigh byte (by simp))

theorem eq_nil_of_bytes (h : bytes₈ cs = bytes₁₆ cs) : cs = [] := by
  cases cs with
  | nil => rfl
  | cons c cs =>
    exfalso
    by_cases hw : Wide c
    · obtain ⟨p,q,r,h₈,hp,hq,hr⟩ := utf8_wide hw
      obtain ⟨x,y,h₁₆⟩ := utf16_wide hw
      rw [bytes₈,bytes₁₆,List.flatMap_cons,List.flatMap_cons,h₈,h₁₆] at h
      have hnext : [r] ++ bytes₈ cs = bytes₁₆ cs := (List.cons.inj (List.cons.inj h).2).2
      exact utf8_ahead (List.cons_ne_nil r []) (by simp [hr]) hnext
    · obtain ⟨byte,rest,h₈⟩ := List.exists_cons_of_ne_nil (String.utf8EncodeChar_ne_nil (c := c))
      obtain ⟨x,rest',h₁₆,hx⟩ := utf16_not_wide hw
      have hb : byte = x := by
        rw [bytes₈,bytes₁₆,List.flatMap_cons,List.flatMap_cons,h₈,h₁₆] at h
        exact (List.cons.inj h).1
      obtain rfl := eq_null_of_head hw h₈ (hb ▸ h₁₆)
      rw [bytes₈_null,bytes₁₆_null] at h
      exact utf8_behind 0 (List.cons.inj h).2

end Text

/-- Only the empty text has the same bytes in UTF-8 and in UTF-16. -/
theorem eq_empty_of_utf8_eq_utf16 {s : String} (h : utf8 s = utf16 bigEndian s) : s = "" := by
  rw [utf8_eq_flatMap] at h
  exact String.toList_eq_nil_iff.mp (eq_nil_of_bytes h)

theorem lt_of_mem_utf8 {s : String} {byte : UInt8} (h : byte ∈ utf8 s) : byte.toNat < 0xf8 := by
  rw [utf8_eq_flatMap,List.mem_flatMap] at h
  obtain ⟨c,_,hb⟩ := h
  exact lt_of_mem_utf8EncodeChar hb

end Tracelib

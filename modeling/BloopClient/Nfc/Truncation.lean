import BloopClient.Nfc.TextRecord

/-!
# Truncated records

A record is called truncated just as long as bytes behind it could make a
difference: every other verdict is final, and a truncated record can be continued
to one that has such a verdict.
-/

namespace BloopClient.Nfc
open Tracelib

/-- The record ended early. -/
def IsTruncated (fault : Fault NdefError) : Prop := ∃ part, fault = .error (.truncated part)

/-- The errors of a record that did not end early. -/
def IsFinal (fault : Fault NdefError) : Prop :=
  fault = .error .chunked ∨ fault = .error .notWellKnown ∨ fault = .error .notTextRecord

theorem IsTruncated.not_final {fault : Fault NdefError} (h : IsTruncated fault) :
    ¬ IsFinal fault := by
  obtain ⟨part,rfl⟩ := h
  rintro (h | h | h) <;> cases h

theorem byteAt_append {data : List UInt8} {index : ℕ} (h : index + 1 ≤ data.length) :
    ∃ byte, ∀ tail, byteAt (data ++ tail) index = .ok byte := by
  refine ⟨data[index],fun tail => ?_⟩
  rw [byteAt,List.getElem?_append_left h,List.getElem?_eq_getElem h]

theorem slice_append {data : List UInt8} {index n : ℕ} (h : index + n ≤ data.length) :
    ∃ bytes, bytes.length = n ∧
      ∀ tail, slice (data ++ tail) index (index + n) = .ok bytes := by
  refine ⟨(data.take (index + n)).drop index,?_,fun tail => ?_⟩
  · rw [List.length_drop,List.length_take]
    omega
  · rw [slice,if_pos,List.take_append_of_le_length h]
    rw [List.length_append]
    omega

section Fields

/-- A number of bytes that have to be there, and whatever is made of them. -/
theorem incremental_slice {α : Type} {part : String} {n : ℕ}
    {c : List UInt8 → ℕ → Prop} [∀ data index, Decidable (c data index)]
    (hc : ∀ data index, index ≤ data.length → (c data index ↔ data.length < index + n))
    {f : List UInt8 → ℕ → PUnit → Except (Fault NdefError) (α × ℕ)}
    {g : List UInt8 → Except (Fault NdefError) α}
    (hg : ∀ bytes, bytes.length = n → ∃ a, g bytes = .ok a) :
    Incremental IsTruncated IsFinal (fun data index =>
      if c data index then throw (.error (.truncated part)) >>= f data index
      else slice data index (index + n) >>= fun bytes => g bytes >>= fun a =>
        pure (a,index + n)) := by
  have hshort : IsTruncated (.error (.truncated part)) := ⟨part,rfl⟩
  apply Incremental.of_need hshort hshort.not_final hc
  intro data index hle
  obtain ⟨bytes,hlen,hs⟩ := slice_append hle
  obtain ⟨a,ha⟩ := hg bytes hlen
  refine ⟨a,fun tail => ?_⟩
  rw [hs tail]
  show (g bytes >>= fun a => pure (a,index + n)) = _
  rw [ha]
  rfl

theorem incremental_byteField (part : String) :
    Incremental IsTruncated IsFinal (byteField part) := by
  have hshort : IsTruncated (.error (.truncated part)) := ⟨part,rfl⟩
  apply Incremental.of_need hshort hshort.not_final (n := 1)
  · intro data index _
    exact Nat.lt_succ_iff.symm
  · intro data index hle
    obtain ⟨byte,hb⟩ := byteAt_append hle
    refine ⟨byte,fun tail => ?_⟩
    rw [hb tail]
    rfl

theorem incremental_payloadLength (short : Bool) :
    Incremental IsTruncated IsFinal (payloadLengthAt short) := by
  unfold payloadLengthAt
  cases short with
  | true =>
    simp only [if_true]
    exact (incremental_byteField "payload length").bind fun length =>
      Incremental.of_pure length.toUInt32
  | false =>
    simp only [Bool.false_eq_true,if_false]
    apply incremental_slice (n := 4)
    · intro data index _
      omega
    · intro bytes hlen
      match bytes, hlen with
      | [a,b,c,d], _ => exact ⟨_,rfl⟩

theorem incremental_idLength (hasId : Bool) :
    Incremental IsTruncated IsFinal (idLengthAt hasId) := by
  cases hasId with
  | true => exact incremental_byteField "ID length"
  | false => exact Incremental.of_pure 0

theorem incremental_payloadType (length : UInt8) :
    Incremental IsTruncated IsFinal (payloadTypeAt length) := by
  unfold payloadTypeAt
  by_cases hn : length > 0
  · simp only [hn,if_true]
    exact incremental_slice (fun _ _ _ => Iff.rfl) (g := pure) fun bytes _ => ⟨bytes,rfl⟩
  · simp only [hn,if_false]
    exact Incremental.of_pure []

theorem incremental_id (length : UInt8) : Incremental IsTruncated IsFinal (idAt length) := by
  unfold idAt
  by_cases hn : length > 0
  · simp only [hn,if_true]
    have hshort : IsTruncated (.error (.truncated "ID")) := ⟨"ID",rfl⟩
    apply Incremental.of_need hshort hshort.not_final (n := length.toNat)
    · intro data index _
      rfl
    · intro data index _
      exact ⟨(),fun _ => rfl⟩
  · simp only [hn,if_false]
    exact Incremental.of_pure ()

theorem incremental_payload (length : UInt32) :
    Incremental IsTruncated IsFinal (payloadAt length) := by
  unfold payloadAt
  by_cases hn : length > 0
  · simp only [hn,if_true]
    refine incremental_slice ?_ (g := pure) fun bytes _ => ⟨bytes,rfl⟩
    intro data index hi
    omega
  · simp only [hn,if_false]
    exact Incremental.of_pure []

theorem incremental_record : Incremental IsTruncated IsFinal recordAt := by
  have h := (incremental_byteField "flags").bind fun flags =>
    Incremental.guard ((flags &&& 0b00100000 != 0) = true)
      (show IsFinal (.error .chunked) from .inl rfl) <|
    (incremental_byteField "type length").bind fun typeLength =>
    (incremental_payloadLength (flags &&& 0b00010000 != 0)).bind fun payloadLength =>
    (incremental_idLength (flags &&& 0b00001000 != 0)).bind fun idLength =>
    (incremental_payloadType typeLength).bind fun payloadType =>
    (incremental_id idLength).bind fun _ =>
    (incremental_payload payloadLength).bind fun payloadValue =>
    Incremental.guard (flags &&& 0b00000111 ≠ 1)
      (show IsFinal (.error .notWellKnown) from .inr (.inl rfl)) <|
    Incremental.guard (payloadType ≠ [0x54])
      (show IsFinal (.error .notTextRecord) from .inr (.inr rfl)) <|
    Incremental.of_pure (⟨payloadValue⟩ : NdefTextRecord)
  exact h

end Fields

-- ════════════════════════════════════════════════════════════════════════
-- The verdict on a record
-- ════════════════════════════════════════════════════════════════════════

theorem parse_error_iff {data : List UInt8} {fault : Fault NdefError} :
    parseNdefTextRecord data = .error fault ↔ recordAt data 0 = .error fault := by
  rw [parseNdefTextRecord_eq]
  cases recordAt data 0 with
  | ok record => exact iff_of_false nofun nofun
  | error fault' =>
    show Except.error fault' = .error fault ↔ _
    rw [Except.error.injEq,Except.error.injEq]

/-- The parser gives up because the record ended early, or for one of three
reasons. In particular it does not panic. -/
theorem parse_fails {data : List UInt8} {fault : Fault NdefError}
    (h : parseNdefTextRecord data = .error fault) : IsTruncated fault ∨ IsFinal fault :=
  incremental_record.fails (Nat.zero_le _) (parse_error_iff.mp h)

theorem settled_parse_iff {data : List UInt8} :
    Settled IsFinal (parseNdefTextRecord data) ↔ Settled IsFinal (recordAt data 0) := by
  simp only [Settled,parse_error_iff]

/-- A verdict other than `Truncated` is a record or one of three errors, and bytes
behind the record do not change it; a truncated record has a continuation with such
a verdict. -/
theorem truncated_undecided (data : List UInt8) :
    ((∀ part, parseNdefTextRecord data ≠ .error (.error (.truncated part))) →
      Settled IsFinal (parseNdefTextRecord data) ∧
        ∀ tail, parseNdefTextRecord (data ++ tail) = parseNdefTextRecord data) ∧
      ∀ part, parseNdefTextRecord data = .error (.error (.truncated part)) →
        ∃ tail, Settled IsFinal (parseNdefTextRecord (data ++ tail)) := by
  constructor
  · intro hpart
    have hs : Settled IsFinal (parseNdefTextRecord data) := by
      intro fault hf
      rcases parse_fails hf with ⟨part,rfl⟩ | hfinal
      · exact absurd hf (hpart part)
      · exact hfinal
    refine ⟨hs,fun tail => ?_⟩
    rw [parseNdefTextRecord_eq,parseNdefTextRecord_eq,
      incremental_record.stable tail (Nat.zero_le _) (settled_parse_iff.mp hs)]
  · intro part _
    obtain ⟨tail,ht⟩ := incremental_record.completes data 0 (Nat.zero_le _)
    exact ⟨tail,settled_parse_iff.mpr ht⟩

/-- A short text record with a byte behind it, and the first byte of one. -/
theorem truncated_undecided_short :
    parseNdefTextRecord ([0xd1,0x01,0x01,0x54,0x3f] ++ [0xfe]) = .ok ⟨[0x3f]⟩ ∧
      ∃ tail, Settled IsFinal (parseNdefTextRecord ([0xd1] ++ tail)) := by
  have hr : parseNdefTextRecord [0xd1,0x01,0x01,0x54,0x3f] = .ok ⟨[0x3f]⟩ := by decide
  constructor
  · rw [((truncated_undecided [0xd1,0x01,0x01,0x54,0x3f]).1 (by simp [hr])).2 [0xfe],hr]
  · exact (truncated_undecided [0xd1]).2 "type length" (by decide)

end BloopClient.Nfc

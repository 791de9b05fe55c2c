import BloopClient.Nfc.Ndef
import BloopClient.Tracelib.Reader
import BloopClient.Tracelib.Unicode
import Mathlib.Algebra.Group.Nat.Defs

/-!
# The grammar of a text record

The records `parse_ndef_text_record` is for, with their encoding: unchunked
records of the well-known type `T`. The parser accepts just these, with anything
behind them, and a record whose payload is a language code and a text has that
text.
-/

namespace BloopClient.Nfc
open Tracelib

/-- The longest payload a record has room for, by its short record flag. -/
def payloadLimit : Bool → ℕ
  | true => 255
  | false => 4294967295

/-- The length of a payload: in one byte or in four, the highest first. -/
def payloadLengthField : Bool → ℕ → List UInt8
  | true, n => [UInt8.ofNat n]
  | false, n =>
    [UInt8.ofNat (n / 16777216),UInt8.ofNat (n / 65536),UInt8.ofNat (n / 256),UInt8.ofNat n]

def idLengthField : Option (List UInt8) → List UInt8
  | some id => [UInt8.ofNat id.length]
  | none => []

/-- A well-known record that is not chunked: message begin and end, short record,
and ID length. -/
def recordFlags (begins ends short hasId : Bool) : UInt8 :=
  (if begins then 0x80 else 0) ||| (if ends then 0x40 else 0) ||| (if short then 0x10 else 0) |||
    (if hasId then 0x08 else 0) ||| 0x01

/-- An unchunked well-known text record. -/
structure TextRecord where
  begins : Bool
  ends : Bool
  short : Bool
  id : Option (List UInt8)
  value : List UInt8
  idFits : ∀ bytes ∈ id, bytes.length ≤ 255
  fits : value.length ≤ payloadLimit short

def TextRecord.bytes (record : TextRecord) : List UInt8 :=
  recordFlags record.begins record.ends record.short record.id.isSome :: 0x01 ::
    (payloadLengthField record.short record.value.length ++ idLengthField record.id ++
      0x54 :: (record.id.getD [] ++ record.value))

/-- The payload of a text record: a language code behind its length, and a text. -/
structure TextPayload where
  language : List UInt8
  text : String
  fits : language.length ≤ 63

def TextPayload.bytes (payload : TextPayload) : List UInt8 :=
  UInt8.ofNat payload.language.length :: (payload.language ++ utf8 payload.text)

-- ════════════════════════════════════════════════════════════════════════
-- The fields the parser reads
-- ════════════════════════════════════════════════════════════════════════

/-- A field of one byte. -/
def byteField (part : String) (data : List UInt8) (index : ℕ) :
    Except (Fault NdefError) (UInt8 × ℕ) := do
  if data.length ≤ index then
    throw (.error (.truncated part))
  return (← byteAt data index,index + 1)

def payloadLengthAt (isShortRecord : Bool) (data : List UInt8) (index : ℕ) :
    Except (Fault NdefError) (UInt32 × ℕ) :=
  if isShortRecord then do
    let (length,index) ← byteField "payload length" data index
    return (length.toUInt32,index)
  else do
    if data.length ≤ index + 3 then
      throw (.error (.truncated "payload length"))
    return (← u32FromBeBytes (← slice data index (index + 4)),index + 4)

def idLengthAt (hasIdLength : Bool) (data : List UInt8) (index : ℕ) :
    Except (Fault NdefError) (UInt8 × ℕ) :=
  if hasIdLength then byteField "ID length" data index else pure (0,index)

def payloadTypeAt (typeLength : UInt8) (data : List UInt8) (index : ℕ) :
    Except (Fault NdefError) (List UInt8 × ℕ) :=
  if typeLength > 0 then do
    if data.length < index + typeLength.toNat then
      throw (.error (.truncated "type"))
    return (← slice data index (index + typeLength.toNat),index + typeLength.toNat)
  else pure ([],index)

def idAt (idLength : UInt8) (data : List UInt8) (index : ℕ) :
    Except (Fault NdefError) (Unit × ℕ) :=
  if idLength > 0 then do
    if data.length < index + idLength.toNat then
      throw (.error (.truncated "ID"))
    return ((),index + idLength.toNat)
  else pure ((),index)

def payloadAt (payloadLength : UInt32) (data : List UInt8) (index : ℕ) :
    Except (Fault NdefError) (List UInt8 × ℕ) :=
  if payloadLength > 0 then do
    if payloadLength.toNat > data.length - index then
      throw (.error (.truncated "payload"))
    return (← slice data index (index + payloadLength.toNat),index + payloadLength.toNat)
  else pure ([],index)

/-- The fields of a record, one behind the other. -/
def recordAt (data : List UInt8) (index : ℕ) : Except (Fault NdefError) (NdefTextRecord × ℕ) := do
  let (flags,index) ← byteField "flags" data index
  if flags &&& 0b00100000 != 0 then
    throw (.error .chunked)
  let (typeLength,index) ← byteField "type length" data index
  let (payloadLength,index) ← payloadLengthAt (flags &&& 0b00010000 != 0) data index
  let (idLength,index) ← idLengthAt (flags &&& 0b00001000 != 0) data index
  let (payloadType,index) ← payloadTypeAt typeLength data index
  let (_,index) ← idAt idLength data index
  let (payloadValue,index) ← payloadAt payloadLength data index
  if flags &&& 0b00000111 ≠ 1 then
    throw (.error .notWellKnown)
  if payloadType ≠ [0x54] then
    throw (.error .notTextRecord)
  return (⟨payloadValue⟩,index)

theorem parseNdefTextRecord_eq (data : List UInt8) :
    parseNdefTextRecord data = recordAt data 0 >>= fun record => pure record.1 := by
  simp only [parseNdefTextRecord,recordAt,byteField,payloadLengthAt,idLengthAt,payloadTypeAt,idAt,
    payloadAt,ite_bind,throw_bind,bind_assoc,pure_bind]

section Fields

variable {past rest : List UInt8}

theorem byteAt_ok_iff {byte : UInt8} :
    byteAt (past ++ rest) past.length = .ok byte ↔ ∃ more, rest = byte :: more := by
  rw [byteAt,List.getElem?_append_right (Nat.le_refl _),Nat.sub_self]
  cases rest with
  | nil => simp
  | cons first more => simp [eq_comm]

theorem slice_ok_iff {n : ℕ} {bytes : List UInt8} :
    slice (past ++ rest) past.length (past.length + n) = .ok bytes ↔
      ∃ more, rest = bytes ++ more ∧ bytes.length = n := by
  have hs : ((past ++ rest).take (past.length + n)).drop past.length = rest.take n := by
    rw [List.take_append,List.take_of_length_le (Nat.le_add_right _ _),Nat.add_sub_cancel_left,
      List.drop_left]
  rw [slice,hs,List.length_append]
  split
  · next h =>
    constructor
    · intro he
      cases he
      refine ⟨rest.drop n,(List.take_append_drop n rest).symm,?_⟩
      rw [List.length_take]
      omega
    · rintro ⟨more,rfl,rfl⟩
      rw [List.take_left]
  · next h =>
    refine iff_of_false nofun ?_
    rintro ⟨more,rfl,rfl⟩
    rw [List.length_append] at h
    omega

theorem reads_byteField (part : String) :
    Reads (byteField part) (fun byte word => word = [byte]) := by
  have hbyte : Reads (fun data index => byteAt data index >>= fun byte => .ok (byte,index + 1))
      (fun byte word => word = [byte]) := by
    intro past rest byte index
    simp only [bind_ok_iff,byteAt_ok_iff,Except.ok.injEq,Prod.mk.injEq]
    constructor
    · rintro ⟨_,⟨more,rfl⟩,rfl,rfl⟩
      exact ⟨[_],more,rfl,rfl,by simp⟩
    · rintro ⟨_,more,rfl,rfl,rfl⟩
      exact ⟨byte,⟨more,rfl⟩,rfl,by simp⟩
  apply hbyte.check
  rintro past _ more byte rfl
  simp

/-- As many bytes as are asked for. -/
theorem reads_slice (n : ℕ) :
    Reads (fun data index => slice data index (index + n) >>= fun bytes => .ok (bytes,index + n))
      (fun bytes word => word = bytes ∧ bytes.length = n) := by
  intro past rest bytes index
  simp only [bind_ok_iff,slice_ok_iff,Except.ok.injEq,Prod.mk.injEq]
  constructor
  · rintro ⟨_,⟨more,rfl,rfl⟩,rfl,rfl⟩
    exact ⟨_,more,rfl,⟨rfl,rfl⟩,List.length_append.symm⟩
  · rintro ⟨_,more,rfl,⟨rfl,rfl⟩,rfl⟩
    exact ⟨_,⟨more,rfl,rfl⟩,rfl,List.length_append.symm⟩

/-- Four bytes and the number they stand for, by its digits to the base 256. -/
theorem toNat_bigEndian (a b c d : UInt8) :
    (a.toUInt32 <<< 24 ||| b.toUInt32 <<< 16 ||| c.toUInt32 <<< 8 ||| d.toUInt32).toNat =
      ((a.toNat * 256 + b.toNat) * 256 + c.toNat) * 256 + d.toNat := by
  have hd : ∀ {x y : ℕ}, y < 256 → x * 256 + y = x <<< 8 ||| y := by
    intro x y hy
    rw [← Nat.shiftLeft_add_eq_or_of_lt hy,Nat.shiftLeft_eq]
  have ha := a.toNat_lt
  have hb := b.toNat_lt
  have hc := c.toNat_lt
  have h₁ : a.toNat <<< 24 < 4294967296 := by
    rw [Nat.shiftLeft_eq]
    omega
  have h₂ : b.toNat <<< 16 < 4294967296 := by
    rw [Nat.shiftLeft_eq]
    omega
  have h₃ : c.toNat <<< 8 < 4294967296 := by
    rw [Nat.shiftLeft_eq]
    omega
  rw [hd d.toNat_lt,hd hc,hd hb,Nat.shiftLeft_or_distrib,Nat.shiftLeft_or_distrib,
    Nat.shiftLeft_or_distrib,← Nat.shiftLeft_add,← Nat.shiftLeft_add,← Nat.shiftLeft_add]
  simp only [UInt32.toNat_or,UInt32.toNat_shiftLeft,UInt8.toNat_toUInt32,UInt32.reduceToNat,
    Nat.reducePow,Nat.reduceMod,Nat.reduceAdd,Nat.mod_eq_of_lt h₁,Nat.mod_eq_of_lt h₂,
    Nat.mod_eq_of_lt h₃]

theorem u32FromBeBytes_ok_iff {bytes : List UInt8} {n : UInt32} (h : bytes.length = 4) :
    u32FromBeBytes bytes = .ok n ↔ bytes = payloadLengthField false n.toNat := by
  match bytes, h with
  | [a,b,c,d], _ =>
    have hn := toNat_bigEndian a b c d
    have ha := a.toNat_lt
    have hb := b.toNat_lt
    have hc := c.toNat_lt
    have hd := d.toNat_lt
    have hlt := n.toNat_lt
    rw [u32FromBeBytes,Except.ok.injEq,← UInt32.toNat_inj,hn,payloadLengthField]
    simp only [List.cons.injEq,← UInt8.toNat_inj,UInt8.toNat_ofNat',and_true]
    constructor
    · intro h
      refine ⟨?_,?_,?_,?_⟩ <;> omega
    · rintro ⟨h₁,h₂,h₃,h₄⟩
      omega

theorem reads_payloadLength (short : Bool) : Reads (payloadLengthAt short) (fun length word =>
    length.toNat ≤ payloadLimit short ∧ word = payloadLengthField short length.toNat) := by
  intro past rest length index
  cases short with
  | true =>
    simp only [payloadLengthAt,if_true,bind_ok_iff,Prod.exists,reads_byteField _ past rest,
      pure_ok_iff,Prod.mk.injEq,payloadLimit,payloadLengthField]
    constructor
    · rintro ⟨byte,_,⟨_,more,rfl,rfl,rfl⟩,rfl,rfl⟩
      have hlt := byte.toNat_lt
      refine ⟨_,more,rfl,⟨?_,?_⟩,rfl⟩
      · rw [UInt8.toNat_toUInt32]
        omega
      · rw [UInt8.toNat_toUInt32,UInt8.ofNat_toNat]
    · rintro ⟨_,more,rfl,⟨hlimit,rfl⟩,rfl⟩
      refine ⟨_,_,⟨_,more,rfl,rfl,rfl⟩,?_,rfl⟩
      apply UInt32.toNat_inj.mp
      rw [UInt8.toNat_toUInt32,UInt8.toNat_ofNat']
      omega
  | false =>
    simp only [payloadLengthAt,Bool.false_eq_true,if_false,guard_ok_iff,bind_ok_iff,slice_ok_iff,
      pure_ok_iff,Prod.mk.injEq,payloadLimit]
    have hlt := length.toNat_lt
    constructor
    · rintro ⟨_,word,⟨more,rfl,hword⟩,_,hn,rfl,rfl⟩
      refine ⟨word,more,rfl,⟨by omega,(u32FromBeBytes_ok_iff hword).mp hn⟩,?_⟩
      rw [List.length_append,hword]
    · rintro ⟨word,more,rfl,⟨_,hw⟩,rfl⟩
      have hword : word.length = 4 := by rw [hw,payloadLengthField]; rfl
      refine ⟨?_,word,⟨more,rfl,hword⟩,length,(u32FromBeBytes_ok_iff hword).mpr hw,rfl,?_⟩
      · simp only [List.length_append]
        omega
      · rw [List.length_append,hword]

theorem reads_idLength (hasId : Bool) : Reads (idLengthAt hasId) (fun length word =>
    if hasId then word = [length] else length = 0 ∧ word = []) := by
  cases hasId with
  | true => exact reads_byteField "ID length"
  | false => exact reads_pure 0

/-- If none are asked for, nothing is read. -/
theorem reads_none {n : ℕ} (hn : n = 0) :
    Reads (fun _ index => (pure ([],index) : Except (Fault NdefError) (List UInt8 × ℕ)))
      (fun bytes word => word = bytes ∧ bytes.length = n) := by
  refine (reads_pure []).congr ?_
  intro bytes word
  rw [hn,List.length_eq_zero_iff]
  constructor
  · rintro ⟨rfl,rfl⟩
    exact ⟨rfl,rfl⟩
  · rintro ⟨rfl,rfl⟩
    exact ⟨rfl,rfl⟩

theorem reads_payloadType (length : UInt8) : Reads (payloadTypeAt length)
    (fun type word => word = type ∧ type.length = length.toNat) := by
  unfold payloadTypeAt
  by_cases hn : length > 0
  · simp only [hn,if_true]
    apply (reads_slice _).check
    rintro past word more _ ⟨rfl,hw⟩
    simp only [List.length_append]
    omega
  · simp only [hn,if_false]
    exact reads_none (by simpa [← UInt8.toNat_inj] using hn)

theorem reads_payload (length : UInt32) : Reads (payloadAt length)
    (fun value word => word = value ∧ value.length = length.toNat) := by
  unfold payloadAt
  by_cases hn : length > 0
  · simp only [hn,if_true]
    apply (reads_slice _).check
    rintro past word more _ ⟨rfl,hw⟩
    simp only [List.length_append]
    omega
  · simp only [hn,if_false]
    exact reads_none (by simpa [← UInt32.toNat_inj] using hn)

/-- The ID is not looked at, but it has to be there. -/
theorem reads_id (length : UInt8) :
    Reads (idAt length) (fun _ word => word.length = length.toNat) := by
  unfold idAt
  by_cases hn : length > 0
  · intro past rest _ index
    simp only [hn,if_true,guard_ok_iff,pure_ok_iff,Prod.mk.injEq,true_and]
    constructor
    · rintro ⟨hle,rfl⟩
      rw [List.length_append] at hle
      have ht : (rest.take length.toNat).length = length.toNat := by
        rw [List.length_take]
        omega
      exact ⟨_,_,(List.take_append_drop length.toNat rest).symm,ht,by rw [List.length_append,ht]⟩
    · rintro ⟨word,more,rfl,hw,rfl⟩
      simp only [List.length_append]
      omega
  · simp only [hn,if_false]
    have hz : length.toNat = 0 := by simpa [← UInt8.toNat_inj] using hn
    refine (reads_pure ()).congr ?_
    intro _ word
    rw [hz,List.length_eq_zero_iff]
    exact and_iff_right rfl

end Fields

-- ════════════════════════════════════════════════════════════════════════
-- The records it accepts
-- ════════════════════════════════════════════════════════════════════════

theorem recordFlags_bits (begins ends short hasId : Bool) :
    recordFlags begins ends short hasId &&& 0x20 = 0 ∧
      (recordFlags begins ends short hasId &&& 0x10 != 0) = short ∧
      (recordFlags begins ends short hasId &&& 0x08 != 0) = hasId ∧
      recordFlags begins ends short hasId &&& 0x07 = 1 := by
  revert begins ends short hasId
  decide

/-- The bits that are not fixed are flags. -/
theorem exists_recordFlags {flags : UInt8} (hc : flags &&& 0x20 = 0) (ht : flags &&& 0x07 = 1) :
    ∃ begins ends, flags = recordFlags begins ends (flags &&& 0x10 != 0) (flags &&& 0x08 != 0) := by
  have hall : ∀ bits : BitVec 8,
      UInt8.ofBitVec bits &&& 0x20 = 0 → UInt8.ofBitVec bits &&& 0x07 = 1 →
        ∃ begins ends, UInt8.ofBitVec bits = recordFlags begins ends
          (UInt8.ofBitVec bits &&& 0x10 != 0) (UInt8.ofBitVec bits &&& 0x08 != 0) := by
    decide +kernel
  exact hall flags.toBitVec hc ht

theorem TextRecord.bytes_eq (record : TextRecord) : record.bytes =
    [recordFlags record.begins record.ends record.short record.id.isSome] ++ ([0x01] ++
      (payloadLengthField record.short record.value.length ++ (idLengthField record.id ++
        ([0x54] ++ (record.id.getD [] ++ (record.value ++ [])))))) := by
  simp [bytes]

/-- Fields that pass the checks are those of a record. -/
theorem exists_textRecord {flags idLength : UInt8} {payloadLength : UInt32}
    {idField id value : List UInt8} (hchunk : flags &&& 0x20 = 0) (htnf : flags &&& 0x07 = 1)
    (hlimit : payloadLength.toNat ≤ payloadLimit (flags &&& 0x10 != 0))
    (hidField : if (flags &&& 0x08 != 0) = true then idField = [idLength]
      else idLength = 0 ∧ idField = [])
    (hid : id.length = idLength.toNat) (hvalue : value.length = payloadLength.toNat) :
    ∃ r : TextRecord, r.value = value ∧ [flags] ++ ([0x01] ++
      (payloadLengthField (flags &&& 0x10 != 0) payloadLength.toNat ++ (idField ++
        ([0x54] ++ (id ++ (value ++ [])))))) = r.bytes := by
  obtain ⟨begins,ends,hflags⟩ := exists_recordFlags hchunk htnf
  rw [← hvalue] at hlimit ⊢
  cases hhas : flags &&& 0x08 != 0 with
  | false =>
    simp only [hhas,Bool.false_eq_true,if_false] at hidField
    obtain ⟨rfl,rfl⟩ := hidField
    obtain rfl : id = [] := List.length_eq_zero_iff.mp hid
    refine ⟨⟨begins,ends,_,none,value,nofun,hlimit⟩,rfl,?_⟩
    rw [TextRecord.bytes_eq,Option.isSome_none,← hhas,← hflags]
    rfl
  | true =>
    simp only [hhas,if_true] at hidField
    have hidFits : ∀ bytes ∈ some id, bytes.length ≤ 255 := by
      rintro _ ⟨⟩
      have hlt := idLength.toNat_lt
      omega
    refine ⟨⟨begins,ends,_,some id,value,hidFits,hlimit⟩,rfl,?_⟩
    rw [TextRecord.bytes_eq,Option.isSome_some,← hhas,← hflags,idLengthField,hid,
      UInt8.ofNat_toNat,hidField]
    rfl

theorem TextRecord.value_length_lt (record : TextRecord) : record.value.length < 4294967296 := by
  have hfits := record.fits
  cases hs : record.short <;> simp only [hs,payloadLimit] at hfits <;> omega

theorem TextRecord.id_length_le (record : TextRecord) : (record.id.getD []).length ≤ 255 := by
  cases hid : record.id with
  | none => simp
  | some id => exact record.idFits id hid

theorem reads_record : Reads recordAt (fun record word =>
    ∃ r : TextRecord, r.value = record.value ∧ word = r.bytes) := by
  have h := (reads_byteField "flags").bind fun flags =>
    Reads.guard ((flags &&& 0b00100000 != 0) = true) (.error .chunked) <|
    (reads_byteField "type length").bind fun typeLength =>
    (reads_payloadLength (flags &&& 0b00010000 != 0)).bind fun payloadLength =>
    (reads_idLength (flags &&& 0b00001000 != 0)).bind fun idLength =>
    (reads_payloadType typeLength).bind fun payloadType =>
    (reads_id idLength).bind fun _ =>
    (reads_payload payloadLength).bind fun payloadValue =>
    Reads.guard (flags &&& 0b00000111 ≠ 1) (.error .notWellKnown) <|
    Reads.guard (payloadType ≠ [0x54]) (.error .notTextRecord) <|
    reads_pure (⟨payloadValue⟩ : NdefTextRecord)
  refine Reads.congr (show Reads recordAt _ from h) ?_
  intro record word
  constructor
  · rintro ⟨flags,_,_,rfl,rfl,hchunk,typeLength,_,_,rfl,rfl,payloadLength,_,_,rfl,⟨hlimit,rfl⟩,
      idLength,idField,_,rfl,hidField,_,type,_,rfl,⟨rfl,htype⟩,_,id,_,rfl,hid,_,value,_,rfl,
      ⟨rfl,hvalue⟩,htnf,htext,rfl,rfl⟩
    rw [not_not] at htext htnf
    subst htext
    obtain rfl : typeLength = 0x01 := UInt8.toNat_inj.mp htype.symm
    exact exists_textRecord (by simpa using hchunk) htnf hlimit hidField hid hvalue
  · rintro ⟨r,hv,rfl⟩
    obtain ⟨hchunk,hshort,hhas,htnf⟩ := recordFlags_bits r.begins r.ends r.short r.id.isSome
    have hlength : (UInt32.ofNat r.value.length).toNat = r.value.length := by
      rw [UInt32.toNat_ofNat']
      exact Nat.mod_eq_of_lt r.value_length_lt
    refine ⟨_,_,_,r.bytes_eq,rfl,by simp [hchunk],0x01,_,_,rfl,rfl,UInt32.ofNat r.value.length,
      _,_,rfl,⟨?_,?_⟩,UInt8.ofNat (r.id.getD []).length,_,_,rfl,?_,[0x54],_,_,rfl,⟨rfl,rfl⟩,(),_,_,
      rfl,?_,r.value,_,_,rfl,⟨rfl,hlength.symm⟩,not_not.mpr htnf,not_not.mpr rfl,?_,rfl⟩
    · rw [hshort,hlength]
      exact r.fits
    · rw [hshort,hlength]
    · rw [hhas]
      cases r.id <;> simp [idLengthField]
    · have hid := r.id_length_le
      rw [UInt8.toNat_ofNat']
      omega
    · rw [hv]

theorem parse_ok_iff {data v : List UInt8} : parseNdefTextRecord data = .ok ⟨v⟩ ↔
    ∃ (record : TextRecord) (tail : List UInt8), record.value = v ∧ data = record.bytes ++ tail := by
  rw [parseNdefTextRecord_eq]
  simp only [bind_ok_iff,Prod.exists,pure_ok_iff]
  constructor
  · rintro ⟨record,index,h,rfl⟩
    obtain ⟨_,tail,rfl,⟨r,hr,rfl⟩,_⟩ := (reads_record [] data _ index).mp h
    exact ⟨r,tail,hr,rfl⟩
  · rintro ⟨r,tail,rfl,rfl⟩
    exact ⟨_,_,(reads_record [] _ _ _).mpr ⟨r.bytes,tail,rfl,⟨r,rfl,rfl⟩,rfl⟩,rfl⟩

-- ════════════════════════════════════════════════════════════════════════
-- Their text
-- ════════════════════════════════════════════════════════════════════════

/-- The text is what stands behind the language code. -/
theorem text_ok_iff {status : UInt8} {rest : List UInt8} {s : String} :
    NdefTextRecord.text ⟨status :: rest⟩ = .ok s ↔
      (status &&& 0x3f).toNat ≤ rest.length ∧ rest.drop (status &&& 0x3f).toNat = utf8 s := by
  have hb : byteAt (status :: rest) 0 = .ok status := rfl
  simp only [NdefTextRecord.text,List.isEmpty_cons,Bool.false_eq_true,if_false,bind_ok_iff,hb,
    Except.ok.injEq,exists_eq_left',List.length_cons,List.drop_succ_cons,guard_ok_iff,
    Nat.add_lt_add_iff_right,Nat.not_lt,← fromUTF8?_eq_some_iff]
  refine and_congr_right fun _ => ?_
  cases String.fromUTF8? ⟨(rest.drop (status &&& 0x3f).toNat).toArray⟩ with
  | some text => exact pure_ok_iff.trans Option.some_inj.symm
  | none => exact iff_of_false nofun nofun

theorem TextPayload.text_bytes (payload : TextPayload) :
    NdefTextRecord.text ⟨payload.bytes⟩ = .ok payload.text := by
  have hfits := payload.fits
  have hmask : (UInt8.ofNat payload.language.length &&& 0x3f).toNat = payload.language.length := by
    rw [UInt8.toNat_and,UInt8.toNat_ofNat',show (0x3f : UInt8).toNat = 2 ^ 6 - 1 from rfl,
      Nat.and_two_pow_sub_one_eq_mod]
    omega
  refine text_ok_iff.mpr ?_
  rw [hmask,List.drop_left]
  simp

/-- The parser accepts just the unchunked well-known text records, with anything
behind them; and the text of a payload is the one it was made from. -/
theorem textRecord_grammar (data v : List UInt8) (payload : TextPayload) :
    (parseNdefTextRecord data = .ok ⟨v⟩ ↔
      ∃ (record : TextRecord) (tail : List UInt8),
        record.value = v ∧ data = record.bytes ++ tail) ∧
      NdefTextRecord.text ⟨payload.bytes⟩ = .ok payload.text :=
  ⟨parse_ok_iff,payload.text_bytes⟩

end BloopClient.Nfc

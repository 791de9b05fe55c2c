import BloopClient.Nfc.Truncation
import BloopClient.Nfc.WholeBuffer
import Mathlib.Algebra.Group.Nat.Defs

/-!
# The reader in machine arithmetic

The functions the content of a tag goes through, with the integers of the target:
an operation whose value does not fit its type panics, and so does a difference
that would saturate, like an index or a slice that is out of bounds. Whatever a tag
holds, none does, and the functions compute what those over plain numbers do.
-/

namespace BloopClient.Nfc
open Tracelib NdefMessageParser

/-- The targets the reader runs on, by the width of `usize`. -/
inductive Target
  | bits32
  | bits64
  deriving DecidableEq, Repr

namespace Target

def usizeMax : Target → ℕ
  | .bits32 => 2 ^ 32 - 1
  | .bits64 => 2 ^ 64 - 1

def isizeMax : Target → ℕ
  | .bits32 => 2 ^ 31 - 1
  | .bits64 => 2 ^ 63 - 1

/-- A slice of bytes. None is longer than `isize` can count. -/
abbrev Slice (target : Target) : Type := { data : List UInt8 // data.length ≤ target.isizeMax }

end Target

-- ════════════════════════════════════════════════════════════════════════
-- Checked operations
-- ════════════════════════════════════════════════════════════════════════

section Operations

variable {ε : Type}

/-- The value of an operation, if it is in the range of its type. -/
def inRange (limit value : ℕ) : Except (Fault ε) ℕ :=
  if value ≤ limit then .ok value else .error .panic

def Target.add (target : Target) (a b : ℕ) : Except (Fault ε) ℕ :=
  inRange target.usizeMax (a + b)

def Target.mul (target : Target) (a b : ℕ) : Except (Fault ε) ℕ :=
  inRange target.usizeMax (a * b)

/-- A saturating difference that does not saturate. -/
def unsaturatedSub (a b : ℕ) : Except (Fault ε) ℕ :=
  if b ≤ a then .ok (a - b) else .error .panic

def addU8 (a b : UInt8) : Except (Fault ε) UInt8 :=
  UInt8.ofNat <$> inRange 255 (a.toNat + b.toNat)

def mulU8 (a b : UInt8) : Except (Fault ε) UInt8 :=
  UInt8.ofNat <$> inRange 255 (a.toNat * b.toNat)

/-- A length with one more byte, if the shift loses nothing. -/
def shiftIn (length : Int32) (byte : UInt8) : Except (Fault ε) Int32 :=
  let next := length <<< 8 ||| Int32.ofNat byte.toNat
  if next.toInt = length.toInt * 256 + byte.toNat then .ok next else .error .panic

theorem Target.add_ok {target : Target} {a b : ℕ} (h : a + b ≤ target.usizeMax) :
    (target.add a b : Except (Fault ε) ℕ) = .ok (a + b) := if_pos h

theorem Target.mul_ok {target : Target} {a b : ℕ} (h : a * b ≤ target.usizeMax) :
    (target.mul a b : Except (Fault ε) ℕ) = .ok (a * b) := if_pos h

theorem addU8_ok {a b : UInt8} (h : a.toNat + b.toNat ≤ 255) :
    (addU8 a b : Except (Fault ε) UInt8) = .ok (a + b) := by
  rw [addU8,inRange,if_pos h]
  show Except.ok (UInt8.ofNat (a.toNat + b.toNat)) = _
  rw [UInt8.ofNat_add,UInt8.ofNat_toNat,UInt8.ofNat_toNat]

theorem mulU8_ok {a b : UInt8} (h : a.toNat * b.toNat ≤ 255) :
    (mulU8 a b : Except (Fault ε) UInt8) = .ok (a * b) := by
  rw [mulU8,inRange,if_pos h]
  show Except.ok (UInt8.ofNat (a.toNat * b.toNat)) = _
  rw [UInt8.ofNat_mul,UInt8.ofNat_toNat,UInt8.ofNat_toNat]

theorem shiftIn_ok {a : ℕ} (ha : a < 256) (byte : UInt8) :
    (shiftIn (Int32.ofNat a) byte : Except (Fault ε) Int32) =
      .ok (Int32.ofNat a <<< 8 ||| Int32.ofNat byte.toNat) := by
  have hb := byte.toNat_lt
  refine if_pos ?_
  rw [shiftLeft_or ha hb,Int32.toInt_ofNat_of_lt (by omega),Int32.toInt_ofNat_of_lt (by omega)]
  omega

/-- There is room for an index of a slice and what one byte can count. -/
theorem Target.room (target : Target) : target.isizeMax + 255 ≤ target.usizeMax := by
  cases target <;> decide

end Operations

-- ════════════════════════════════════════════════════════════════════════
-- How much is read
-- ════════════════════════════════════════════════════════════════════════

theorem totalQuads_le (capabilities : Vector UInt8 16) :
    (totalQuads capabilities).toNat ≤ 63 := by
  rw [totalQuads_toNat]
  exact Nat.min_le_right _ _

theorem addData_length_le (self : NdefMessageParser) (data : List UInt8) :
    (self.addData data).data.length ≤ self.data.length + data.length := by
  have hbyte : ∀ (self : NdefMessageParser) (byte : UInt8),
      (self.addByte byte).data.length ≤ self.data.length + 1 := by
    intro self byte
    unfold addByte
    repeat' split
    all_goals simp
  rw [addData]
  induction data generalizing self with
  | nil => exact Nat.le_refl _
  | cons byte data ih =>
    have h₁ := hbyte self byte
    rw [feed]
    split
    · rw [List.length_cons]
      omega
    · have h₂ := ih (self.addByte byte)
      rw [List.length_cons]
      omega

theorem readQuads_length_le {tag : Tag} {quads : List UInt8} {parser parser' : NdefMessageParser}
    (h : (readQuads tag quads parser).1 = .ok parser') :
    parser'.data.length ≤ parser.data.length + 16 * quads.length := by
  induction quads generalizing parser with
  | nil =>
    cases h
    exact Nat.le_add_right _ _
  | cons quad quads ih =>
    rw [readQuads] at h
    cases hread : tag.mfRead (4 * quad) with
    | none =>
      rw [hread] at h
      cases h
    | some quadData =>
      have hadd := addData_length_le parser quadData.toList
      rw [Vector.length_toList] at hadd
      rw [hread] at h
      dsimp only at h
      rw [List.length_cons]
      split at h
      · cases h
        omega
      · split at h
        · cases h
        · have hrest := ih h
          omega

/-- The blocks that are read are those of the quads, up to some point. -/
theorem readQuads_blocks (tag : Tag) (quads : List UInt8) (parser : NdefMessageParser) :
    (readQuads tag quads parser).2 <+: quads.map (4 * ·) := by
  induction quads generalizing parser with
  | nil => exact List.prefix_rfl
  | cons quad quads ih =>
    have hone : [4 * quad] <+: (quad :: quads).map (4 * ·) := by
      rw [List.map_cons]
      exact List.cons_prefix_cons.mpr ⟨rfl,List.nil_prefix⟩
    rw [readQuads]
    cases tag.mfRead (4 * quad) with
    | none => exact hone
    | some quadData =>
      dsimp only
      split
      · exact hone
      · split
        · exact hone
        · exact List.cons_prefix_cons.mpr ⟨rfl,ih _⟩

-- ════════════════════════════════════════════════════════════════════════
-- The functions
-- ════════════════════════════════════════════════════════════════════════

namespace Machine

section Parser

variable {ε : Type}

/-- The body of the loop over a chunk's bytes. -/
def addByte (self : NdefMessageParser) (byte : UInt8) : Except (Fault ε) NdefMessageParser :=
  match self.state with
  | .init =>
    if byte = 0x00 then .ok self
    else if byte = 0x03 then .ok { self with state := .length }
    else .ok self
  | .length =>
    if self.length = -1 then
      if byte = 0xff then .ok { self with length := -2 }
      else .ok { self with length := Int32.ofNat byte.toNat, state := .value }
    else if self.length = -2 then .ok { self with length := Int32.ofNat byte.toNat }
    else do
      let length ← shiftIn self.length byte
      return { self with length, state := .value }
  | .value => .ok { self with data := self.data ++ [byte] }

def addData : NdefMessageParser → List UInt8 → Except (Fault ε) NdefMessageParser
  | self, [] => .ok self
  | self, byte :: data => do
    let next ← addByte self byte
    if self.state = .value ∧ next.isDone then
      return next
    addData next data

end Parser

variable (target : Target)

def byteField (part : String) (data : List UInt8) (index : ℕ) :
    Except (Fault NdefError) (UInt8 × ℕ) := do
  if data.length ≤ index then
    throw (.error (.truncated part))
  return (← byteAt data index,← target.add index 1)

def payloadLengthAt (isShortRecord : Bool) (data : List UInt8) (index : ℕ) :
    Except (Fault NdefError) (UInt32 × ℕ) :=
  if isShortRecord then do
    let (length,index) ← byteField target "payload length" data index
    return (length.toUInt32,index)
  else do
    if data.length ≤ (← target.add index 3) then
      throw (.error (.truncated "payload length"))
    let stop ← target.add index 4
    return (← u32FromBeBytes (← slice data index stop),stop)

def idLengthAt (hasIdLength : Bool) (data : List UInt8) (index : ℕ) :
    Except (Fault NdefError) (UInt8 × ℕ) :=
  if hasIdLength then byteField target "ID length" data index else pure (0,index)

def payloadTypeAt (typeLength : UInt8) (data : List UInt8) (index : ℕ) :
    Except (Fault NdefError) (List UInt8 × ℕ) :=
  if typeLength > 0 then do
    let stop ← target.add index typeLength.toNat
    if data.length < stop then
      throw (.error (.truncated "type"))
    return (← slice data index stop,stop)
  else pure ([],index)

def idAt (idLength : UInt8) (data : List UInt8) (index : ℕ) :
    Except (Fault NdefError) (Unit × ℕ) :=
  if idLength > 0 then do
    let stop ← target.add index idLength.toNat
    if data.length < stop then
      throw (.error (.truncated "ID"))
    return ((),stop)
  else pure ((),index)

def payloadAt (payloadLength : UInt32) (data : List UInt8) (index : ℕ) :
    Except (Fault NdefError) (List UInt8 × ℕ) :=
  if payloadLength > 0 then do
    if payloadLength.toNat > (← unsaturatedSub data.length index) then
      throw (.error (.truncated "payload"))
    let stop ← target.add index payloadLength.toNat
    return (← slice data index stop,stop)
  else pure ([],index)

/-- The fields of a record, one behind the other. -/
def recordAt (data : List UInt8) (index : ℕ) : Except (Fault NdefError) (NdefTextRecord × ℕ) := do
  let (flags,index) ← byteField target "flags" data index
  if flags &&& 0b00100000 != 0 then
    throw (.error .chunked)
  let (typeLength,index) ← byteField target "type length" data index
  let (payloadLength,index) ← payloadLengthAt target (flags &&& 0b00010000 != 0) data index
  let (idLength,index) ← idLengthAt target (flags &&& 0b00001000 != 0) data index
  let (payloadType,index) ← payloadTypeAt target typeLength data index
  let (_,index) ← idAt target idLength data index
  let (payloadValue,index) ← payloadAt target payloadLength data index
  if flags &&& 0b00000111 ≠ 1 then
    throw (.error .notWellKnown)
  if payloadType ≠ [0x54] then
    throw (.error .notTextRecord)
  return (⟨payloadValue⟩,index)

/-- Parses an NDEF message as a single text record. -/
def parseNdefTextRecord (data : List UInt8) : Except (Fault NdefError) NdefTextRecord := do
  let (record,_) ← recordAt target data 0
  return record

/-- The record's text, stripped of its language code. -/
def text (self : NdefTextRecord) : Except (Fault NdefError) String := do
  if self.value.isEmpty then
    return ""
  let codeLength := (← byteAt self.value 0) &&& 0b00111111
  let start ← target.add codeLength.toNat 1
  if self.value.length < start then
    throw (.error (.truncated "text payload"))
  match String.fromUTF8? ⟨(self.value.drop start).toArray⟩ with
  | some text => return text
  | none => throw (.error .invalidUtf8)

def totalQuads (capabilities : Vector UInt8 16) : Except (Fault String) UInt8 := do
  let totalBytes ← target.mul (units capabilities) 8
  let totalPages := totalBytes / 4
  return UInt8.ofNat (min (totalPages / 4) 63)

/-- The quads from one to the total. -/
def quads (capabilities : Vector UInt8 16) : Except (Fault String) (List UInt8) := do
  let stop ← addU8 (← totalQuads target capabilities) 1
  return (List.range' 1 (stop.toNat - 1)).map UInt8.ofNat

/-- The loop over the quads. -/
def readQuads (tag : Tag) : List UInt8 → NdefMessageParser →
    Except (Fault String) NdefMessageParser × List UInt8
  | [], parser => (.ok parser,[])
  | quad :: quads, parser =>
    match mulU8 4 quad with
    | .error fault => (.error fault,[])
    | .ok block =>
      match tag.mfRead block with
      | none => (.error (.error s!"failed to read block {block}"),[block])
      | some quadData =>
        match addData parser quadData.toList with
        | .error fault => (.error fault,[block])
        | .ok parser =>
          if parser.isDone then (.ok parser,[block])
          else if quad = 2 ∧ parser.hasStarted = false then
            (.error (.error "no NDEF message found in first sector"),[block])
          else
            let rest := readQuads tag quads parser
            (rest.1,block :: rest.2)

/-- The text of a message that is a text record. -/
def textOf (data : List UInt8) : Except (Fault NdefError) String := do
  text target (← parseNdefTextRecord target data)

/-- What becomes of the parser once the loop is over. -/
def finish (parser : NdefMessageParser) : Except (Fault String) String :=
  if parser.isDone then (textOf target parser.data).mapError (Fault.map NdefError.toString)
  else .error (.error "NDEF message incomplete")

def readNdefText (tag : Tag) : Except (Fault String) String × List UInt8 :=
  match tag.mfRead 3 with
  | none => (.error (.error "failed to read capability container"),[3])
  | some capabilities =>
    match quads target capabilities with
    | .error fault => (.error fault,[3])
    | .ok quads =>
      let loop := readQuads tag quads .new
      match loop.1 with
      | .ok parser => (finish target parser,3 :: loop.2)
      | .error fault => (.error fault,3 :: loop.2)

-- ════════════════════════════════════════════════════════════════════════
-- The message parser
-- ════════════════════════════════════════════════════════════════════════

/-- The length is a sentinel or a byte as long as its field has not been read. -/
def Counting (self : NdefMessageParser) : Prop :=
  match self.state with
  | .init => self.length = -1
  | .length => self.length = -1 ∨ self.length = -2 ∨ ∃ n < 256, self.length = Int32.ofNat n
  | .value => True

theorem addByte_eq {ε : Type} {self : NdefMessageParser} (h : Counting self) (byte : UInt8) :
    (addByte self byte : Except (Fault ε) _) = .ok (self.addByte byte) := by
  obtain ⟨state,length,data⟩ := self
  cases state with
  | init =>
    dsimp only [addByte,NdefMessageParser.addByte]
    split
    · rfl
    · split <;> rfl
  | length =>
    dsimp only [addByte,NdefMessageParser.addByte]
    split
    · split <;> rfl
    · next h₁ =>
      split
      · rfl
      · next h₂ =>
        obtain hl | hl | ⟨n,hn,hl⟩ := h
        · exact absurd hl h₁
        · exact absurd hl h₂
        · dsimp only at hl
          subst hl
          rw [shiftIn_ok hn]
          rfl
  | value => rfl

theorem Counting.addByte {self : NdefMessageParser} (h : Counting self) (byte : UInt8) :
    Counting (self.addByte byte) := by
  obtain ⟨state,length,data⟩ := self
  cases state with
  | init =>
    dsimp only [NdefMessageParser.addByte]
    split
    · exact h
    · split
      · exact .inl h
      · exact h
  | length =>
    dsimp only [NdefMessageParser.addByte]
    split
    · split
      · exact .inr (.inl rfl)
      · trivial
    · split
      · exact .inr (.inr ⟨byte.toNat,byte.toNat_lt,rfl⟩)
      · trivial
  | value => trivial

/-- However the parser is fed, no length overflows. -/
theorem addData_eq {ε : Type} {self : NdefMessageParser} (h : Counting self) (data : List UInt8) :
    (addData self data : Except (Fault ε) _) = .ok (self.addData data) ∧
      Counting (self.addData data) := by
  induction data generalizing self with
  | nil => exact ⟨rfl,h⟩
  | cons byte data ih =>
    have hstop : self.completes byte = true ↔
        self.state = .value ∧ (self.addByte byte).isDone = true := by
      simp [completes]
    rw [addData,addByte_eq h,NdefMessageParser.addData,feed]
    by_cases hs : self.state = .value ∧ (self.addByte byte).isDone = true
    · rw [if_pos (hstop.mpr hs)]
      exact ⟨if_pos hs,h.addByte byte⟩
    · rw [if_neg (hstop.not.mpr hs)]
      obtain ⟨he,hc⟩ := ih (h.addByte byte)
      exact ⟨(if_neg hs).trans he,hc⟩

-- ════════════════════════════════════════════════════════════════════════
-- The record parser
-- ════════════════════════════════════════════════════════════════════════

section Fields

variable {target} {data : List UInt8} {index : ℕ}

/-- An index of a slice, moved on by as much as a byte can count. -/
theorem add_index (hdata : data.length ≤ target.isizeMax) (hi : index ≤ data.length) {n : ℕ}
    (hn : n ≤ 255) : (target.add index n : Except (Fault NdefError) ℕ) = .ok (index + n) := by
  have hroom := target.room
  exact Target.add_ok (by omega)

theorem byteField_eq (hdata : data.length ≤ target.isizeMax) (part : String)
    (hi : index ≤ data.length) :
    byteField target part data index = Nfc.byteField part data index := by
  rw [byteField,add_index hdata hi (by decide)]
  rfl

theorem payloadLengthAt_eq (hdata : data.length ≤ target.isizeMax) (short : Bool)
    (hi : index ≤ data.length) :
    payloadLengthAt target short data index = Nfc.payloadLengthAt short data index := by
  cases short with
  | true =>
    show (byteField target _ data index >>= _) = _
    rw [byteField_eq hdata _ hi]
    rfl
  | false =>
    rw [payloadLengthAt,add_index hdata hi (by decide),add_index hdata hi (by decide)]
    rfl

theorem idLengthAt_eq (hdata : data.length ≤ target.isizeMax) (hasId : Bool)
    (hi : index ≤ data.length) :
    idLengthAt target hasId data index = Nfc.idLengthAt hasId data index := by
  rw [idLengthAt,byteField_eq hdata _ hi]
  rfl

theorem payloadTypeAt_eq (hdata : data.length ≤ target.isizeMax) (length : UInt8)
    (hi : index ≤ data.length) :
    payloadTypeAt target length data index = Nfc.payloadTypeAt length data index := by
  rw [payloadTypeAt,add_index hdata hi (Nat.lt_succ_iff.mp length.toNat_lt)]
  rfl

theorem idAt_eq (hdata : data.length ≤ target.isizeMax) (length : UInt8)
    (hi : index ≤ data.length) : idAt target length data index = Nfc.idAt length data index := by
  rw [idAt,add_index hdata hi (Nat.lt_succ_iff.mp length.toNat_lt)]
  rfl

/-- The difference is taken within the slice, and the sum once it is known to be. -/
theorem payloadAt_eq (hdata : data.length ≤ target.isizeMax) (length : UInt32)
    (hi : index ≤ data.length) :
    payloadAt target length data index = Nfc.payloadAt length data index := by
  have hsub : (unsaturatedSub data.length index : Except (Fault NdefError) ℕ) =
      .ok (data.length - index) := if_pos hi
  rw [payloadAt,Nfc.payloadAt,hsub]
  refine if_congr Iff.rfl ?_ rfl
  show (if length.toNat > data.length - index then _ else _) = _
  by_cases hlen : length.toNat > data.length - index
  · rw [if_pos hlen,if_pos hlen]
    rfl
  · have hroom := target.room
    rw [if_neg hlen,if_neg hlen,Target.add_ok (by omega)]
    rfl

theorem recordAt_eq (hdata : data.length ≤ target.isizeMax) (hi : index ≤ data.length) :
    recordAt target data index = Nfc.recordAt data index := by
  refine bind_eq_bind (byteField_eq hdata _ hi) ?_
  rintro ⟨flags,index₁⟩ h₁
  have hi₁ := (incremental_byteField _).inside hi h₁
  refine if_congr Iff.rfl rfl ?_
  refine bind_eq_bind (byteField_eq hdata _ hi₁) ?_
  rintro ⟨typeLength,index₂⟩ h₂
  have hi₂ := (incremental_byteField _).inside hi₁ h₂
  refine bind_eq_bind (payloadLengthAt_eq hdata _ hi₂) ?_
  rintro ⟨payloadLength,index₃⟩ h₃
  have hi₃ := (incremental_payloadLength _).inside hi₂ h₃
  refine bind_eq_bind (idLengthAt_eq hdata _ hi₃) ?_
  rintro ⟨idLength,index₄⟩ h₄
  have hi₄ := (incremental_idLength _).inside hi₃ h₄
  refine bind_eq_bind (payloadTypeAt_eq hdata _ hi₄) ?_
  rintro ⟨payloadType,index₅⟩ h₅
  have hi₅ := (incremental_payloadType _).inside hi₄ h₅
  refine bind_eq_bind (idAt_eq hdata _ hi₅) ?_
  rintro ⟨_,index₆⟩ h₆
  have hi₆ := (incremental_id _).inside hi₅ h₆
  refine bind_eq_bind (payloadAt_eq hdata _ hi₆) ?_
  rintro ⟨payloadValue,index₇⟩ _
  rfl

theorem parse_eq (hdata : data.length ≤ target.isizeMax) :
    parseNdefTextRecord target data = Nfc.parseNdefTextRecord data := by
  rw [Nfc.parseNdefTextRecord_eq]
  exact bind_eq_bind (recordAt_eq hdata (Nat.zero_le _)) fun _ _ => rfl

theorem text_eq (target : Target) (record : NdefTextRecord) :
    text target record = record.text := by
  rw [text,NdefTextRecord.text]
  refine if_congr Iff.rfl rfl ?_
  refine bind_eq_bind rfl ?_
  intro status _
  have hle : (status &&& 0b00111111).toNat + 1 ≤ target.usizeMax := by
    have hmask : (status &&& 0b00111111).toNat ≤ 63 := by
      rw [UInt8.toNat_and]
      exact Nat.and_le_right
    have hroom := target.room
    omega
  show (target.add (status &&& 0b00111111).toNat 1 >>= _) = _
  rw [Target.add_ok hle]
  rfl

end Fields

-- ════════════════════════════════════════════════════════════════════════
-- The reader
-- ════════════════════════════════════════════════════════════════════════

theorem quads_eq (capabilities : Vector UInt8 16) :
    quads target capabilities = .ok (quadsFrom 0 (Nfc.totalQuads capabilities).toNat) := by
  have hlt : units capabilities < 256 := UInt8.toNat_lt _
  have hle := totalQuads_le capabilities
  have hsize : 2040 ≤ target.usizeMax := by cases target <;> decide
  have htotal : totalQuads target capabilities = .ok (Nfc.totalQuads capabilities) := by
    rw [totalQuads,Target.mul_ok (by omega)]
    rfl
  have hone : (1 : UInt8).toNat = 1 := rfl
  rw [quads,htotal]
  show (addU8 (Nfc.totalQuads capabilities) 1 >>= _) = _
  rw [addU8_ok (by omega)]
  show Except.ok ((List.range' 1 ((_ + 1 : UInt8).toNat - 1)).map UInt8.ofNat) = _
  rw [UInt8.toNat_add,hone,Nat.mod_eq_of_lt (by omega),Nat.add_sub_cancel]
  rfl

/-- The loop reads the blocks it reads over plain numbers, and ends as it does there. -/
theorem readQuads_eq (tag : Tag) {done count : ℕ} (hcount : done + count ≤ 63)
    {parser : NdefMessageParser} (h : Counting parser) :
    readQuads tag (quadsFrom done count) parser =
      ((Nfc.readQuads tag (quadsFrom done count) parser).1.mapError .error,
        (Nfc.readQuads tag (quadsFrom done count) parser).2) := by
  induction count generalizing done parser with
  | zero => rfl
  | succ count ih =>
    have hfour : (4 : UInt8).toNat = 4 := rfl
    have hquad : (UInt8.ofNat (done + 1)).toNat = done + 1 := by
      rw [UInt8.toNat_ofNat']
      omega
    rw [quadsFrom_succ,readQuads,Nfc.readQuads,mulU8_ok (by rw [hfour,hquad]; omega)]
    dsimp only
    cases tag.mfRead (4 * UInt8.ofNat (done + 1)) with
    | none => rfl
    | some quadData =>
      obtain ⟨hadd,hcounting⟩ := addData_eq (ε := String) h quadData.toList
      dsimp only
      rw [hadd]
      dsimp only
      split
      · rfl
      · split
        · rfl
        · rw [ih (by omega) hcounting]

theorem finish_eq {parser : NdefMessageParser} (h : parser.data.length ≤ target.isizeMax) :
    finish target parser = Nfc.finish parser := by
  have htext : textOf target parser.data = Nfc.textOf parser.data :=
    bind_eq_bind (parse_eq h) fun record _ => text_eq target record
  rw [finish,Nfc.finish,htext]

theorem readNdefText_eq (tag : Tag) : readNdefText target tag = Nfc.readNdefText tag := by
  rw [readNdefText,Nfc.readNdefText]
  cases tag.mfRead 3 with
  | none => rfl
  | some capabilities =>
    have hle := totalQuads_le capabilities
    have hnew : Counting .new := rfl
    dsimp only
    rw [quads_eq]
    dsimp only
    rw [readQuads_eq tag (by omega) hnew]
    cases hloop : (Nfc.readQuads tag
        (quadsFrom 0 (Nfc.totalQuads capabilities).toNat) .new).1 with
    | error reason => rfl
    | ok parser =>
      have hlen := readQuads_length_le hloop
      rw [quadsFrom,List.length_map,List.length_range'] at hlen
      have hempty : NdefMessageParser.new.data.length = 0 := rfl
      have hsize : 1008 ≤ target.isizeMax := by cases target <;> decide
      show (finish target parser,_) = _
      rw [finish_eq target (by omega)]

end Machine

-- ════════════════════════════════════════════════════════════════════════
-- No panic
-- ════════════════════════════════════════════════════════════════════════

theorem parse_ne_panic (data : List UInt8) : parseNdefTextRecord data ≠ .error .panic := by
  intro h
  obtain ⟨part,h⟩ | h | h | h := parse_fails h <;> cases h

theorem text_ne_panic (record : NdefTextRecord) : record.text ≠ .error .panic := by
  obtain ⟨value⟩ := record
  intro h
  cases value with
  | nil => cases h
  | cons status rest =>
    rw [NdefTextRecord.text] at h
    change (if (status :: rest).length < (status &&& 0b00111111).toNat + 1 then _ else _) = _ at h
    split at h
    · cases h
    · dsimp only at h
      split at h <;> cases h

theorem finish_ne_panic (parser : NdefMessageParser) : finish parser ≠ .error .panic := by
  have htext : textOf parser.data ≠ .error .panic := by
    intro h
    cases hr : parseNdefTextRecord parser.data with
    | ok record =>
      rw [textOf,hr] at h
      exact text_ne_panic record h
    | error fault =>
      rw [textOf,hr] at h
      cases h
      exact parse_ne_panic _ hr
  intro h
  rw [finish] at h
  split at h
  · cases ht : textOf parser.data with
    | ok text =>
      rw [ht] at h
      cases h
    | error fault =>
      rw [ht] at h
      cases fault with
      | error error => cases h
      | panic => exact htext ht
  · cases h

theorem readNdefText_ne_panic (tag : Tag) : (readNdefText tag).1 ≠ .error .panic := by
  intro h
  rw [readNdefText] at h
  cases hcap : tag.mfRead 3 with
  | none =>
    rw [hcap] at h
    cases h
  | some capabilities =>
    rw [hcap] at h
    dsimp only at h
    split at h
    · exact finish_ne_panic _ h
    · cases h

/-- The container is read, and then some of the blocks four to 252. -/
theorem readNdefText_blocks (tag : Tag) : ∃ blocks, (readNdefText tag).2 = 3 :: blocks ∧
    blocks.length ≤ 63 ∧ ∀ block ∈ blocks, 4 ≤ block.toNat ∧ block.toNat ≤ 252 := by
  rw [readNdefText]
  cases tag.mfRead 3 with
  | none => exact ⟨[],rfl,by decide,by simp⟩
  | some capabilities =>
    have hle := totalQuads_le capabilities
    have hp := readQuads_blocks tag (quadsFrom 0 (totalQuads capabilities).toNat) .new
    refine ⟨(readQuads tag (quadsFrom 0 (totalQuads capabilities).toNat) .new).2,?_,?_,?_⟩
    · dsimp only
      split <;> rfl
    · have hlen := hp.length_le
      rw [List.length_map,quadsFrom,List.length_map,List.length_range'] at hlen
      exact hlen.trans hle
    · intro block hb
      obtain ⟨quad,hq,rfl⟩ := List.mem_map.mp (hp.subset hb)
      obtain ⟨n,hn,rfl⟩ := List.mem_map.mp hq
      rw [List.mem_range'_1] at hn
      have hfour : (4 : UInt8).toNat = 4 := rfl
      rw [UInt8.toNat_mul,hfour,UInt8.toNat_ofNat']
      omega

/-- Whatever a tag holds and wherever it cannot be read, `read_ndef_text` returns a text
or an error, having read at most 63 blocks behind the container; none of the checks
fails on the way, nor for any slice or record. -/
theorem hostile_tag_harmless (target : Target) (tag : Tag) :
    ((∃ text, (Machine.readNdefText target tag).1 = .ok text) ∨
      ∃ reason, (Machine.readNdefText target tag).1 = .error (.error reason)) ∧
    (∃ blocks, (Machine.readNdefText target tag).2 = 3 :: blocks ∧ blocks.length ≤ 63 ∧
      ∀ block ∈ blocks, 4 ≤ block.toNat ∧ block.toNat ≤ 252) ∧
    Machine.readNdefText target tag = readNdefText tag ∧
    (∀ data : target.Slice, Machine.parseNdefTextRecord target data ≠ .error .panic) ∧
    ∀ record : NdefTextRecord, Machine.text target record ≠ .error .panic := by
  rw [Machine.readNdefText_eq]
  refine ⟨?_,readNdefText_blocks tag,rfl,?_,?_⟩
  · cases h : (readNdefText tag).1 with
    | ok text => exact .inl ⟨text,rfl⟩
    | error fault =>
      cases fault with
      | error reason => exact .inr ⟨reason,rfl⟩
      | panic => exact absurd h (readNdefText_ne_panic tag)
  · intro data
    rw [Machine.parse_eq data.property]
    exact parse_ne_panic data
  · intro record
    rw [Machine.text_eq]
    exact text_ne_panic record

/-- A tag that announces more than it can have, with a record that announces a
payload of 4 GiB. -/
def hostileTag : Tag where
  mfRead address :=
    if address = 3 then some #v[0xe1,0x10,0xff,0,0,0,0,0,0,0,0,0,0,0,0,0]
    else some #v[0x03,0x08,0xc1,0x01,0xff,0xff,0xff,0xff,0x54,0x02,0,0,0,0,0,0]

theorem hostile_tag_harmless_long :
    Machine.readNdefText .bits32 hostileTag =
      (.error (.error "record is truncated: payload missing"),[3,4]) ∧
    ∃ blocks, (Machine.readNdefText .bits32 hostileTag).2 = 3 :: blocks ∧ blocks.length ≤ 63 ∧
      ∀ block ∈ blocks, 4 ≤ block.toNat ∧ block.toNat ≤ 252 :=
  ⟨by decide +kernel,(hostile_tag_harmless .bits32 hostileTag).2.1⟩

end BloopClient.Nfc

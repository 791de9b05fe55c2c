import BloopClient.Nfc.Ndef
import Mathlib.Data.List.TakeWhile

/-!
# The data area of a Type 2 Tag

The grammar of a tag's TLV stream, and where the message parser takes a message
to begin. The parser does not follow the boundaries of the stream: it starts at
the first byte that looks like the type of a message, so it starts where the
message does only if no byte in front of it does.
-/

namespace BloopClient.Nfc
open Tracelib NdefMessageParser

/-- The type byte of an NDEF message. -/
abbrev ndefType : UInt8 := 0x03

-- ════════════════════════════════════════════════════════════════════════
-- The grammar
-- ════════════════════════════════════════════════════════════════════════

/-- How the length of a value is written: in one byte, or in two behind the
marker `0xff`. -/
inductive Form
  | short
  | long
  deriving DecidableEq, Repr

/-- The longest value a form has room for. -/
def Form.limit : Form → ℕ
  | .short => 254
  | .long => 65535

/-- The length field and the value of a TLV. -/
structure Block where
  form : Form
  value : List UInt8
  fits : value.length ≤ form.limit
  deriving DecidableEq, Repr

def Block.lengthField (block : Block) : List UInt8 :=
  match block.form with
  | .short => [UInt8.ofNat block.value.length]
  | .long =>
    [0xff,UInt8.ofNat (block.value.length / 256),UInt8.ofNat (block.value.length % 256)]

def Block.bytes (block : Block) : List UInt8 := block.lengthField ++ block.value

/-- A TLV in front of the terminator: padding, an NDEF message, or something
foreign (lock control, memory control, proprietary). -/
inductive Tlv
  | null
  | ndef (block : Block)
  | other (type : UInt8) (block : Block) (foreign : type ≠ 0x00 ∧ type ≠ ndefType ∧ type ≠ 0xfe)
  deriving DecidableEq, Repr

namespace Tlv

def bytes : Tlv → List UInt8
  | null => [0x00]
  | ndef block => ndefType :: block.bytes
  | other type block _ => type :: block.bytes

def isNdef : Tlv → Bool
  | ndef _ => true
  | _ => false

/-- A length or value byte of a foreign TLV looks like the type of a message. -/
def Stray : Tlv → Prop
  | other _ block _ => ndefType ∈ block.bytes
  | _ => False

end Tlv

/-- The data area of a tag: its TLVs and, if there is a terminator, the bytes
that happen to stand behind it. -/
structure TagArea where
  tlvs : List Tlv
  behind : Option (List UInt8)
  deriving DecidableEq, Repr

namespace TagArea

def bytes (area : TagArea) : List UInt8 :=
  area.tlvs.flatMap Tlv.bytes ++
    match area.behind with
    | some rest => 0xfe :: rest
    | none => []

/-- The first `n` bytes of the area contain the type byte of an NDEF message. -/
def Announces (area : TagArea) (n : ℕ) : Prop := ∃ before block after,
  area.tlvs = before ++ .ndef block :: after ∧ (before.flatMap Tlv.bytes).length < n

/-- No length or value byte of a foreign TLV in front of the first message, and
if there is no message no byte behind the terminator, looks like the type of a
message. -/
def Clean (area : TagArea) : Prop :=
  (∀ tlv ∈ area.tlvs.takeWhile (!Tlv.isNdef ·), ¬ tlv.Stray) ∧
    ((∀ tlv ∈ area.tlvs, tlv.isNdef = false) → ∀ rest, area.behind = some rest → ndefType ∉ rest)

end TagArea

-- ════════════════════════════════════════════════════════════════════════
-- Where the parser starts
-- ════════════════════════════════════════════════════════════════════════

theorem hasStarted_addByte (self : NdefMessageParser) (byte : UInt8) :
    (self.addByte byte).hasStarted = true ↔ self.hasStarted = true ∨ byte = ndefType := by
  obtain ⟨state,length,data⟩ := self
  cases state with
  | init =>
    simp only [addByte,hasStarted]
    split
    · next h => simp [h,ndefType]
    · split <;> simp_all [ndefType]
  | length =>
    simp only [addByte,hasStarted]
    split
    · split <;> simp
    · split <;> simp
  | value => simp [addByte,hasStarted]

/-- However the data is cut into chunks, the parser has started once it was fed
a byte that looks like the type of a message. -/
theorem hasStarted_addData (self : NdefMessageParser) (data : List UInt8) :
    (self.addData data).hasStarted = true ↔ self.hasStarted = true ∨ ndefType ∈ data := by
  induction data generalizing self with
  | nil => simp [addData,feed]
  | cons byte data ih =>
    rw [addData,feed]
    split
    · next h =>
      -- the loop returns early only in the middle of a value
      have hs : self.hasStarted = true := by simp_all [completes,hasStarted]
      simp [hasStarted_addByte,hs]
    · refine (ih _).trans ?_
      rw [hasStarted_addByte,List.mem_cons,or_assoc,eq_comm (a := byte)]

theorem hasStarted_chunks (self : NdefMessageParser) (chunks : List (List UInt8)) :
    (chunks.foldl addData self).hasStarted = true ↔
      self.hasStarted = true ∨ ndefType ∈ chunks.flatten := by
  induction chunks generalizing self with
  | nil => simp
  | cons chunk chunks ih =>
    rw [List.foldl_cons,ih,hasStarted_addData,List.flatten_cons,List.mem_append,or_assoc]

-- ════════════════════════════════════════════════════════════════════════
-- Where the message starts
-- ════════════════════════════════════════════════════════════════════════

/-- A prefix reaches beyond what is free of a value just if it contains it. -/
theorem mem_prefix_iff {α : Type} {a : α} {p front rest : List α} (hf : a ∉ front)
    (hp : p <+: front ++ a :: rest) : a ∈ p ↔ front.length < p.length := by
  constructor
  · intro ha
    by_contra hl
    have hpf : p <+: front :=
      List.prefix_of_prefix_length_le hp (List.prefix_append _ _) (Nat.not_lt.mp hl)
    exact hf (hpf.subset ha)
  · intro hl
    have hfp : front ++ [a] <+: p :=
      List.prefix_of_prefix_length_le (by simp) hp (by simpa using Nat.succ_le_of_lt hl)
    exact hfp.subset (by simp)

namespace Tlv

theorem mem_bytes_iff {tlv : Tlv} (h : tlv.isNdef = false) : ndefType ∈ tlv.bytes ↔ tlv.Stray := by
  cases tlv with
  | null => simp [bytes,Stray,ndefType]
  | ndef block => cases h
  | other type block foreign => simp [bytes,Stray,foreign.2.1.symm]

theorem mem_flatMap_iff {tlvs : List Tlv} (h : ∀ tlv ∈ tlvs, tlv.isNdef = false) :
    ndefType ∈ tlvs.flatMap bytes ↔ ∃ tlv ∈ tlvs, tlv.Stray := by
  rw [List.mem_flatMap]
  constructor
  · rintro ⟨tlv,ht,hm⟩
    exact ⟨tlv,ht,(mem_bytes_iff (h tlv ht)).mp hm⟩
  · rintro ⟨tlv,ht,hs⟩
    exact ⟨tlv,ht,(mem_bytes_iff (h tlv ht)).mpr hs⟩

/-- Either no TLV is a message, or there is a first one. -/
theorem first_ndef (tlvs : List Tlv) : (∀ tlv ∈ tlvs, tlv.isNdef = false) ∨
    ∃ before block after, tlvs = before ++ .ndef block :: after ∧
      ∀ tlv ∈ before, tlv.isNdef = false := by
  induction tlvs with
  | nil => exact .inl (by simp)
  | cons tlv tlvs ih =>
    cases htlv : tlv with
    | ndef block => exact .inr ⟨[],block,tlvs,rfl,by simp⟩
    | _ =>
      rcases ih with h | ⟨before,block,after,rfl,h⟩
      · exact .inl (by simpa [isNdef] using h)
      · exact .inr ⟨_ :: before,block,after,rfl,by simpa [isNdef] using h⟩

end Tlv

namespace TagArea

variable {area : TagArea}

section NoMessage

variable (h : ∀ tlv ∈ area.tlvs, tlv.isNdef = false)
include h

theorem not_announces_of_no_message (n : ℕ) : ¬ area.Announces n := by
  rintro ⟨before,block,after,he,_⟩
  have hn := h (.ndef block) (by simp [he])
  cases hn

theorem clean_iff_of_no_message : area.Clean ↔ ndefType ∉ area.bytes := by
  have ht : area.tlvs.takeWhile (!Tlv.isNdef ·) = area.tlvs :=
    List.takeWhile_eq_self_iff.mpr fun tlv ht => by simp [h tlv ht]
  have hb : ndefType ∈ area.bytes ↔
      (∃ tlv ∈ area.tlvs, tlv.Stray) ∨ ∃ rest, area.behind = some rest ∧ ndefType ∈ rest := by
    rw [bytes,List.mem_append,Tlv.mem_flatMap_iff h]
    cases area.behind <;> simp [ndefType]
  rw [hb,Clean,ht]
  constructor
  · rintro ⟨hs,hr⟩ (⟨tlv,hm,hstray⟩ | ⟨rest,he,hm⟩)
    · exact hs tlv hm hstray
    · exact hr h rest he hm
  · intro hn
    exact ⟨fun tlv hm hs => hn (.inl ⟨tlv,hm,hs⟩),fun _ rest he hm => hn (.inr ⟨rest,he,hm⟩)⟩

end NoMessage

section FirstMessage

variable {before after : List Tlv} {block : Block}
  (he : area.tlvs = before ++ .ndef block :: after) (h : ∀ tlv ∈ before, tlv.isNdef = false)
include he h

theorem announces_iff_of_first (n : ℕ) :
    area.Announces n ↔ (before.flatMap Tlv.bytes).length < n := by
  constructor
  · rintro ⟨before',block',after',he',hn⟩
    have hb : before <+: area.tlvs := by simp [he]
    have hb' : before' ++ [.ndef block'] <+: area.tlvs := by simp [he']
    -- a message further on is announced later still
    have hp : before <+: before' := by
      refine List.prefix_of_prefix_length_le hb ((List.prefix_append _ _).trans hb') ?_
      by_contra hlt
      have hin : before' ++ [.ndef block'] <+: before :=
        List.prefix_of_prefix_length_le hb' hb
          (by simpa using Nat.succ_le_of_lt (Nat.not_le.mp hlt))
      have hn' := h (.ndef block') (hin.subset (by simp))
      cases hn'
    obtain ⟨more,rfl⟩ := hp
    rw [List.flatMap_append,List.length_append] at hn
    omega
  · intro hn
    exact ⟨before,block,after,he,hn⟩

theorem clean_iff_of_first : area.Clean ↔ ndefType ∉ before.flatMap Tlv.bytes := by
  have ht : area.tlvs.takeWhile (!Tlv.isNdef ·) = before := by
    rw [he,List.takeWhile_append_of_pos (by simpa using h)]
    simp [Tlv.isNdef]
  rw [Tlv.mem_flatMap_iff h,Clean,ht]
  constructor
  · rintro ⟨hs,_⟩ ⟨tlv,hm,hstray⟩
    exact hs tlv hm hstray
  · intro hn
    refine ⟨fun tlv hm hs => hn ⟨tlv,hm,hs⟩,?_⟩
    intro hall
    have hb := hall (.ndef block) (by simp [he])
    cases hb

omit h in
theorem bytes_of_first : ∃ more, area.bytes = before.flatMap Tlv.bytes ++ ndefType :: more := by
  rw [bytes,he,List.flatMap_append,List.flatMap_cons,Tlv.bytes]
  simp only [List.append_assoc,List.cons_append]
  exact ⟨_,rfl⟩

end FirstMessage

end TagArea

/-- The parser reports the start of a message just when it was fed the type byte
of one, for every prefix of the area and however it is cut into chunks, if and
only if the area is clean. -/
theorem hasStarted_iff_announces (area : TagArea) :
    (∀ chunks : List (List UInt8), chunks.flatten <+: area.bytes →
      ((chunks.foldl addData new).hasStarted = true ↔
        area.Announces chunks.flatten.length)) ↔ area.Clean := by
  have hstart : ∀ chunks : List (List UInt8),
      (chunks.foldl addData new).hasStarted = true ↔ ndefType ∈ chunks.flatten := by
    intro chunks
    rw [hasStarted_chunks]
    simp [hasStarted,new]
  simp only [hstart]
  rcases Tlv.first_ndef area.tlvs with h | ⟨before,block,after,he,h⟩
  · rw [TagArea.clean_iff_of_no_message h]
    constructor
    · intro hall hm
      have ha := (hall [area.bytes] (by simp)).mp (by simpa using hm)
      exact TagArea.not_announces_of_no_message h _ ha
    · intro hn chunks hp
      exact ⟨fun hm => absurd (hp.subset hm) hn,
        fun ha => absurd ha (TagArea.not_announces_of_no_message h _)⟩
  · rw [TagArea.clean_iff_of_first he h]
    obtain ⟨more,hb⟩ := TagArea.bytes_of_first he
    simp only [TagArea.announces_iff_of_first he h]
    constructor
    · intro hall hm
      have hl := (hall [before.flatMap Tlv.bytes] (by simp [hb])).mp (by simpa using hm)
      simp at hl
    · intro hn chunks hp
      rw [hb] at hp
      exact mem_prefix_iff hn hp

/-- A lock control TLV in front of a message, as tags are delivered with. -/
def lockedArea : TagArea where
  tlvs := [.other 0x01 ⟨.short,[0xa0,0x10,0x44],by decide⟩ (by decide),
    .ndef ⟨.short,[0xd1,0x01,0x01,0x54,0x00],by decide⟩]
  behind := some []

/-- The length byte of the lock control TLV is taken for the start of the
message. -/
theorem hasStarted_lockedArea : [0x01,0x03] <+: lockedArea.bytes ∧
    (new.addData [0x01,0x03]).hasStarted = true ∧ ¬ lockedArea.Announces 2 := by
  refine ⟨by decide,by decide,?_⟩
  rintro ⟨before,block,after,he,hn⟩
  cases before with
  | nil => simp [lockedArea] at he
  | cons tlv before =>
    obtain ⟨rfl,_⟩ : tlv = .other 0x01 ⟨.short,[0xa0,0x10,0x44],by decide⟩ (by decide) ∧ _ := by
      simpa [lockedArea,eq_comm] using he
    simp only [List.flatMap_cons,List.length_append,Tlv.bytes,Block.bytes,Block.lengthField,
      List.length_cons,List.length_nil] at hn
    omega

end BloopClient.Nfc

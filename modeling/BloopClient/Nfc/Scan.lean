import BloopClient.Nfc.TagArea
import Mathlib.Algebra.Group.Nat.Defs

/-!
# What the message parser knows after a prefix

The state of the parser after any bytes, in terms of the message it is in the
middle of: `Progress` lists how far it can have come. The parser counts itself
done at the end of the message and, by accident, in the middle of a two-byte
length whose first byte is zero.
-/

namespace BloopClient.Nfc
open Tracelib NdefMessageParser

/-- The parser after some bytes, if it did not return on the way. -/
def scan (bytes : List UInt8) : NdefMessageParser := bytes.foldl addByte new

/-- A message of a stream: the bytes in front of it, none of which looks like the
type of a message, and its length field and value. -/
structure Message where
  lead : List UInt8
  block : Block
  unmarked : ndefType ∉ lead
  nonempty : block.value ≠ []

namespace Message

def bytes (m : Message) : List UInt8 := m.lead ++ ndefType :: m.block.bytes

/-- The length of the value. -/
def size (m : Message) : ℕ := m.block.value.length

theorem size_pos (m : Message) : 0 < m.size := List.length_pos_of_ne_nil m.nonempty

end Message

/-- How far the parser has come within a message. -/
inductive Progress (m : Message) : List UInt8 → NdefMessageParser → Prop
  | seeking {p} (h : p <+: m.lead) : Progress m p new
  | marked : Progress m (m.lead ++ [ndefType]) ⟨.length,-1,[]⟩
  | escaped (h : m.block.form = .long) : Progress m (m.lead ++ [ndefType,0xff]) ⟨.length,-2,[]⟩
  | halved (h : m.block.form = .long) :
      Progress m (m.lead ++ [ndefType,0xff,UInt8.ofNat (m.size / 256)])
        ⟨.length,Int32.ofNat (m.size / 256),[]⟩
  | valued {v} (h : v <+: m.block.value) :
      Progress m (m.lead ++ ndefType :: (m.block.lengthField ++ v))
        ⟨.value,Int32.ofNat m.size,v⟩

theorem int32_ofNat_inj {a b : ℕ} (ha : a < 2 ^ 31) (hb : b < 2 ^ 31) :
    Int32.ofNat a = Int32.ofNat b ↔ a = b := by
  rw [← Int32.toInt_inj,Int32.toInt_ofNat_of_lt ha,Int32.toInt_ofNat_of_lt hb]
  exact Int.ofNat_inj

theorem int32_ofNat_ne_neg {a : ℕ} {b : Int32} (ha : a < 2 ^ 31) (hb : b.toInt < 0) :
    Int32.ofNat a ≠ b := by
  rintro rfl
  rw [Int32.toInt_ofNat_of_lt ha] at hb
  omega

/-- The second byte of a length completes the first. -/
theorem shiftLeft_or {a b : ℕ} (ha : a < 256) (hb : b < 256) :
    Int32.ofNat a <<< 8 ||| Int32.ofNat b = Int32.ofNat (a * 256 + b) := by
  apply Int32.toBitVec_inj.mp
  apply BitVec.eq_of_toNat_eq
  have ho : a * 256 + b = a <<< 8 ||| b := by
    rw [← Nat.shiftLeft_add_eq_or_of_lt hb,Nat.shiftLeft_eq]
  have hs : a <<< 8 < 4294967296 := by
    rw [Nat.shiftLeft_eq]
    omega
  simp only [Int32.toBitVec_or,Int32.toBitVec_shiftLeft,Int32.toBitVec_ofNat',
    Int32.toBitVec_ofNat,BitVec.ofNat_eq_ofNat,BitVec.reduceSMod,BitVec.shiftLeft_eq',
    BitVec.toNat_ofNat,BitVec.toNat_or,BitVec.toNat_shiftLeft,Nat.reducePow,Nat.reduceMod]
  rw [Nat.mod_eq_of_lt (by omega : a < 4294967296),Nat.mod_eq_of_lt (by omega : b < 4294967296),
    Nat.mod_eq_of_lt hs,Nat.mod_eq_of_lt (by omega : a * 256 + b < 4294967296),ho]

theorem scan_append (p q : List UInt8) : scan (p ++ q) = q.foldl addByte (scan p) :=
  List.foldl_append

theorem scan_unmarked {p : List UInt8} (h : ndefType ∉ p) : scan p = new := by
  induction p using List.reverseRecOn with
  | nil => rfl
  | append_singleton p byte ih =>
    rw [List.mem_append,List.mem_singleton,not_or] at h
    rw [scan_append,ih h.1]
    simp [addByte,new,Ne.symm h.2]

theorem foldl_value (length : Int32) (data v : List UInt8) :
    v.foldl addByte ⟨.value,length,data⟩ = ⟨.value,length,data ++ v⟩ := by
  induction v generalizing data with
  | nil => simp
  | cons byte v ih =>
    rw [List.foldl_cons]
    simpa [addByte] using ih (data ++ [byte])

@[simp] theorem addByte_ndefType : new.addByte ndefType = ⟨.length,-1,[]⟩ := rfl

/-- A length byte that is not the marker is the length of a short form. -/
theorem addByte_short {n : UInt8} (hn : n ≠ 0xff) :
    addByte ⟨.length,-1,[]⟩ n = ⟨.value,Int32.ofNat n.toNat,[]⟩ := by
  simp [addByte,hn]

@[simp] theorem addByte_marker : addByte ⟨.length,-1,[]⟩ 0xff = ⟨.length,-2,[]⟩ := rfl

@[simp] theorem addByte_high (hi : UInt8) :
    addByte ⟨.length,-2,[]⟩ hi = ⟨.length,Int32.ofNat hi.toNat,[]⟩ := rfl

@[simp] theorem addByte_low (hi lo : UInt8) : addByte ⟨.length,Int32.ofNat hi.toNat,[]⟩ lo =
    ⟨.value,Int32.ofNat (hi.toNat * 256 + lo.toNat),[]⟩ := by
  have hn : ∀ b : Int32, b.toInt < 0 → Int32.ofNat hi.toNat ≠ b := fun b hb =>
    int32_ofNat_ne_neg (hi.toNat_lt.trans (by decide)) hb
  rw [← shiftLeft_or hi.toNat_lt lo.toNat_lt]
  simp only [addByte,hn (-1) (by decide),hn (-2) (by decide),if_false]

/-- Behind a marker the parser knows the message as far as it has read it. -/
theorem scan_short {lead : List UInt8} {n : UInt8} (hl : ndefType ∉ lead) (hn : n ≠ 0xff)
    (v : List UInt8) : scan (lead ++ ndefType :: n :: v) = ⟨.value,Int32.ofNat n.toNat,v⟩ := by
  rw [scan_append,scan_unmarked hl,List.foldl_cons,addByte_ndefType,List.foldl_cons,
    addByte_short hn,foldl_value,List.nil_append]

theorem scan_long {lead : List UInt8} (hl : ndefType ∉ lead) (hi lo : UInt8) (v : List UInt8) :
    scan (lead ++ ndefType :: 0xff :: hi :: lo :: v) =
      ⟨.value,Int32.ofNat (hi.toNat * 256 + lo.toNat),v⟩ := by
  rw [scan_append,scan_unmarked hl]
  simp [foldl_value]

namespace Message

variable {m : Message} {p : List UInt8}

/-- The value of a message, as far as it has been read. -/
theorem scan_value (m : Message) (v : List UInt8) :
    scan (m.lead ++ ndefType :: (m.block.lengthField ++ v)) =
      ⟨.value,Int32.ofNat m.size,v⟩ := by
  obtain ⟨lead,⟨form,value,fits⟩,hl,_⟩ := m
  cases form with
  | short =>
    have hn : (UInt8.ofNat value.length).toNat = value.length := by
      simpa using Nat.lt_of_le_of_lt fits (by decide)
    have hne : UInt8.ofNat value.length ≠ 0xff := by
      intro h
      rw [h] at hn
      have : value.length ≤ 254 := fits
      simp at hn
      omega
    have h := scan_short hl hne v
    rwa [hn] at h
  | long =>
    have hf : value.length ≤ 65535 := fits
    have hhi : (UInt8.ofNat (value.length / 256)).toNat = value.length / 256 := by
      simp
      omega
    have hlo : (UInt8.ofNat (value.length % 256)).toNat = value.length % 256 := by simp
    have hs : value.length / 256 * 256 + value.length % 256 = value.length := by omega
    have h := scan_long hl (UInt8.ofNat (value.length / 256)) (UInt8.ofNat (value.length % 256)) v
    rwa [hhi,hlo,hs] at h

theorem prefix_append_cases {l r : List UInt8} (h : p <+: l ++ r) :
    p <+: l ∨ ∃ q, p = l ++ q ∧ q <+: r := by
  rcases Nat.le_total p.length l.length with hle | hle
  · exact .inl (List.prefix_of_prefix_length_le h (List.prefix_append l r) hle)
  · obtain ⟨q,rfl⟩ := List.prefix_of_prefix_length_le (List.prefix_append l r) h hle
    exact .inr ⟨q,rfl,(List.prefix_append_right_inj l).mp h⟩

/-- A length field that was not read to its end. -/
theorem progress_field {q : List UInt8} (hq : q <+: m.block.lengthField) :
    Progress m (m.lead ++ ndefType :: q) (scan (m.lead ++ ndefType :: q)) := by
  have hscan : ∀ q, scan (m.lead ++ ndefType :: q) = q.foldl addByte ⟨.length,-1,[]⟩ := by
    intro q
    rw [scan_append,scan_unmarked m.unmarked]
    rfl
  have hwhole : Progress m (m.lead ++ ndefType :: m.block.lengthField)
      (scan (m.lead ++ ndefType :: m.block.lengthField)) := by
    have h := Progress.valued (m := m) (List.nil_prefix (l := m.block.value))
    rwa [← scan_value,List.append_nil] at h
  cases hform : m.block.form with
  | short =>
    have hf : m.block.lengthField = [UInt8.ofNat m.size] := by simp [Block.lengthField,hform,size]
    rw [hf] at hq hwhole
    simp only [List.prefix_cons_iff,List.prefix_nil] at hq
    rcases hq with rfl | ⟨_,rfl,rfl⟩
    · rw [hscan]
      exact .marked
    · exact hwhole
  | long =>
    have hf : m.block.lengthField =
        [0xff,UInt8.ofNat (m.size / 256),UInt8.ofNat (m.size % 256)] := by
      simp [Block.lengthField,hform,size]
    rw [hf] at hq hwhole
    have hhi : (UInt8.ofNat (m.size / 256)).toNat = m.size / 256 := by
      have hfits : m.size ≤ m.block.form.limit := m.block.fits
      rw [hform,Form.limit] at hfits
      simp
      omega
    simp only [List.prefix_cons_iff,List.prefix_nil] at hq
    rcases hq with rfl | ⟨_,rfl,rfl | ⟨_,rfl,rfl | ⟨_,rfl,rfl⟩⟩⟩
    · rw [hscan]
      exact .marked
    · rw [hscan]
      exact .escaped hform
    · have h := Progress.halved hform
      rw [hscan,List.foldl_cons,List.foldl_cons,List.foldl_nil,addByte_marker,addByte_high,hhi]
      exact h
    · exact hwhole

/-- A prefix of a message tells how far the parser has come. -/
theorem progress (hp : p <+: m.bytes) : Progress m p (scan p) := by
  rcases prefix_append_cases hp with hlead | ⟨q,rfl,hq⟩
  · rw [scan_unmarked fun hm => m.unmarked (hlead.subset hm)]
    exact .seeking hlead
  · rcases List.prefix_cons_iff.mp hq with rfl | ⟨rest,rfl,hrest⟩
    · rw [List.append_nil,scan_unmarked m.unmarked]
      exact .seeking List.prefix_rfl
    · rcases prefix_append_cases hrest with hfield | ⟨v,rfl,hv⟩
      · exact progress_field hfield
      · rw [scan_value]
        exact .valued hv

/-- The length of a message's TLV is split by its first byte, which is zero. -/
def Halfway (m : Message) : Prop := m.block.form = .long ∧ m.size < 256

theorem lengthField_length (m : Message) : m.block.lengthField.length =
    match m.block.form with
    | .short => 1
    | .long => 3 := by
  cases hform : m.block.form <;> simp [Block.lengthField,hform]

theorem bytes_length (m : Message) :
    m.bytes.length = m.lead.length + 1 + m.block.lengthField.length + m.size := by
  simp only [bytes,Block.bytes,size,List.length_append,List.length_cons]
  omega

theorem size_lt (m : Message) : m.size < 2 ^ 31 := by
  have h : m.size ≤ m.block.form.limit := m.block.fits
  cases hform : m.block.form <;> simp only [hform,Form.limit] at h <;> omega

theorem value_length_lt {v : List UInt8} (h : v <+: m.block.value) : v.length < 2 ^ 31 :=
  Nat.lt_of_le_of_lt h.length_le m.size_lt

theorem scan_bytes (m : Message) : scan m.bytes = ⟨.value,Int32.ofNat m.size,m.block.value⟩ :=
  m.scan_value m.block.value

theorem isDone_bytes (m : Message) : (scan m.bytes).isDone = true := by
  simp [scan_bytes,isDone,size]

/-- The parser returns at the last byte of a message and not before. -/
theorem completes_iff {byte : UInt8} (hp : p ++ [byte] <+: m.bytes) :
    (scan p).completes byte = true ↔ p ++ [byte] = m.bytes := by
  have hpos := m.size_pos
  have hlength := m.bytes_length
  -- in front of the value it does not, and is not near the end either
  have hearly : ∀ {parser : NdefMessageParser}, parser.state ≠ .value →
      p.length < m.lead.length + 1 + m.block.lengthField.length →
      (parser.completes byte = true ↔ p ++ [byte] = m.bytes) := by
    intro parser hs hl
    refine iff_of_false (by simp [completes,hs]) ?_
    intro he
    have hpl := congrArg List.length he
    rw [hlength,List.length_append,List.length_singleton] at hpl
    omega
  have hprog : Progress m p (scan p) := progress ((List.prefix_append p [byte]).trans hp)
  generalize scan p = parser at hprog ⊢
  cases hprog with
  | seeking h =>
    have hpl := h.length_le
    exact hearly (by simp [new]) (by omega)
  | marked => exact hearly (by simp) (by simp [lengthField_length]; cases m.block.form <;> simp)
  | escaped h => exact hearly (by simp) (by simp [lengthField_length,h])
  | halved h => exact hearly (by simp) (by simp [lengthField_length,h])
  | @valued v h =>
    have hv : v.length + 1 ≤ m.size := by
      have hpl := hp.length_le
      simp only [hlength,List.length_append,List.length_cons,List.length_nil] at hpl
      omega
    have hsize := m.size_lt
    have hdone : completes ⟨.value,Int32.ofNat m.size,v⟩ byte = true ↔ v.length + 1 = m.size := by
      rw [← int32_ofNat_inj (by omega) hsize]
      simp [completes,addByte,isDone]
    rw [hdone]
    constructor
    · intro he
      refine hp.eq_of_length ?_
      simp only [hlength,List.length_append,List.length_cons,List.length_nil]
      omega
    · intro he
      have hpl := congrArg List.length he
      simp only [hlength,List.length_append,List.length_cons,List.length_nil] at hpl
      omega

/-- Before the end of a message the parser counts itself done only in the middle
of a length whose first byte is zero. -/
theorem isDone_iff (hp : p <+: m.bytes) (hne : p ≠ m.bytes) :
    (scan p).isDone = true ↔ m.Halfway ∧ p.length = m.lead.length + 3 := by
  have hlength := m.bytes_length
  have hprog : Progress m p (scan p) := progress hp
  generalize scan p = parser at hprog ⊢
  cases hprog with
  | seeking h =>
    have hpl := h.length_le
    refine iff_of_false (by decide) ?_
    rintro ⟨_,hl⟩
    omega
  | marked => exact iff_of_false (by decide) (by simp)
  | escaped h => exact iff_of_false (by decide) (by simp)
  | halved h =>
    have hsize := m.size_lt
    have hdone : isDone ⟨.length,Int32.ofNat (m.size / 256),[]⟩ = true ↔ 0 = m.size / 256 := by
      rw [← int32_ofNat_inj (by decide) (by omega)]
      simp [isDone]
    rw [hdone,Halfway]
    simp [h]
    omega
  | @valued v h =>
    have hv : v.length ≠ m.size := by
      intro he
      refine hne (hp.eq_of_length ?_)
      simp only [hlength,List.length_append,List.length_cons]
      omega
    have hdone : ¬ isDone ⟨.value,Int32.ofNat m.size,v⟩ = true := by
      simpa [isDone] using mt (int32_ofNat_inj (value_length_lt h) m.size_lt).mp hv
    refine iff_of_false hdone ?_
    rintro ⟨⟨hform,_⟩,hl⟩
    simp only [List.length_append,List.length_cons,lengthField_length,hform] at hl
    omega

end Message

section Read

variable {lead v : List UInt8} (hl : ndefType ∉ lead) (hv : v ≠ [])
include hl hv

/-- A length byte and as many bytes are a message in the short form. -/
theorem exists_short {n : UInt8} (hn : n ≠ 0xff) (he : v.length = n.toNat) :
    ∃ m : Message, m.bytes = lead ++ ndefType :: n :: v ∧ m.block.value = v := by
  have hfits : v.length ≤ 254 := by
    have hlt := n.toNat_lt
    have hne : n.toNat ≠ 255 := fun h => hn (UInt8.toNat_inj.mp h)
    omega
  refine ⟨⟨lead,⟨.short,v,hfits⟩,hl,hv⟩,?_,rfl⟩
  simp [Message.bytes,Block.bytes,Block.lengthField,he]

/-- Two length bytes behind the marker and as many bytes are one in the long form. -/
theorem exists_long {hi lo : UInt8} (he : v.length = hi.toNat * 256 + lo.toNat) :
    ∃ m : Message, m.bytes = lead ++ ndefType :: 0xff :: hi :: lo :: v ∧ m.block.value = v := by
  have hhi := hi.toNat_lt
  have hlo := lo.toNat_lt
  have hfits : v.length ≤ 65535 := by omega
  have hdiv : v.length / 256 = hi.toNat := by omega
  have hmod : v.length % 256 = lo.toNat := by omega
  refine ⟨⟨lead,⟨.long,v,hfits⟩,hl,hv⟩,?_,rfl⟩
  simp [Message.bytes,Block.bytes,Block.lengthField,hdiv,hmod]

end Read

/-- A parser that is done and has data has read a message to its end. -/
theorem exists_message {p : List UInt8} (hp : p.length < 2 ^ 31) (hd : (scan p).isDone = true)
    (hn : (scan p).data ≠ []) : ∃ m : Message, m.bytes = p ∧ m.block.value = (scan p).data := by
  by_cases hm : ndefType ∈ p
  · obtain ⟨lead,rest,rfl,hl⟩ := List.eq_append_cons_of_mem hm
    rw [List.length_append,List.length_cons] at hp
    -- up to the end of the length field there is no data
    have hfield : ∀ {q : List UInt8}, (q.foldl addByte ⟨.length,-1,[]⟩).data = [] → rest ≠ q := by
      rintro q hq rfl
      refine hn ?_
      rw [scan_append,scan_unmarked hl]
      exact hq
    match rest with
    | [] => exact absurd rfl (hfield rfl)
    | n :: v =>
      rw [List.length_cons] at hp
      by_cases hff : n = 0xff
      · subst hff
        match v with
        | [] => exact absurd rfl (hfield rfl)
        | [hi] => exact absurd rfl (hfield rfl)
        | hi :: lo :: v =>
          rw [scan_long hl] at hd hn ⊢
          simp only [List.length_cons] at hp
          have hhi := hi.toNat_lt
          have hlo := lo.toNat_lt
          have he : v.length = hi.toNat * 256 + lo.toNat :=
            (int32_ofNat_inj (by omega) (by omega)).mp (by simpa [isDone] using hd)
          exact exists_long hl hn he
      · rw [scan_short hl hff] at hd hn ⊢
        have hlt := n.toNat_lt
        have he : v.length = n.toNat :=
          (int32_ofNat_inj (by omega) (by omega)).mp (by simpa [isDone] using hd)
        exact exists_short hl hn hff he
  · rw [scan_unmarked hm] at hn
    exact absurd rfl hn

end BloopClient.Nfc

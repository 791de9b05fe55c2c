import BloopClient.Nfc.TextRecord
import BloopClient.Nfc.WholeBuffer

/-!
# The capacity of a tag

The capability container advertises a data area in units of eight bytes, and the
reader reads it in quads of sixteen. It rounds down: of an area of an odd number
of units the last one is never read, so a text that ends in it is not found.
-/

namespace BloopClient.Nfc
open Tracelib NdefMessageParser

/-- The quads it takes to read them all. -/
def coveringQuads (capabilities : Vector UInt8 16) : List UInt8 :=
  quadsFrom 0 ((units capabilities + 1) / 2)

/-- The data area of a tag. -/
def Tag.area (tag : Tag) (capabilities : Vector UInt8 16) : List UInt8 :=
  (tag.stream (coveringQuads capabilities)).take (8 * units capabilities)

/-- A tag that can be read throughout, with a text record in its data area: behind
little padding, and in front of anything. -/
structure TextTag where
  tag : Tag
  capabilities : Vector UInt8 16
  padding : ℕ
  block : Block
  record : TextRecord
  payload : TextPayload
  container : tag.mfRead 3 = some capabilities
  addressable : 8 * units capabilities ≤ 1008
  readable : ∀ quad ∈ coveringQuads capabilities, (tag.mfRead (4 * quad)).isSome = true
  padded : padding < 32
  value : block.value = record.bytes
  text : record.value = payload.bytes
  inside : List.replicate padding 0x00 ++ ndefType :: block.bytes <+: tag.area capabilities

namespace TextTag

variable (t : TextTag)

/-- The message the text stands in. -/
def message : Message where
  lead := List.replicate t.padding 0x00
  block := t.block
  unmarked := by
    intro h
    have he := List.eq_of_mem_replicate h
    cases he
  nonempty := by
    rw [t.value,TextRecord.bytes]
    exact List.cons_ne_nil _ _

theorem textOf_message : textOf t.message.block.value = .ok t.payload.text := by
  have hparse : parseNdefTextRecord t.block.value = .ok ⟨t.payload.bytes⟩ :=
    parse_ok_iff.mpr ⟨t.record,[],t.text,by rw [t.value,List.append_nil]⟩
  have htext := t.payload.text_bytes
  have he : textOf t.block.value = NdefTextRecord.text ⟨t.payload.bytes⟩ := by
    rw [textOf,hparse]
    rfl
  exact he.trans htext

theorem lead_length : t.message.lead.length = t.padding := List.length_replicate

end TextTag

-- ════════════════════════════════════════════════════════════════════════
-- What is read of an area
-- ════════════════════════════════════════════════════════════════════════

theorem stream_prefix_stream (tag : Tag) {quads quads' : List UInt8} (h : quads <+: quads') :
    tag.stream quads <+: tag.stream quads' := by
  induction quads generalizing quads' with
  | nil => exact List.nil_prefix
  | cons quad quads ih =>
    obtain ⟨more,rfl⟩ := h
    rw [List.cons_append,Tag.stream,Tag.stream]
    cases tag.mfRead (4 * quad) with
    | none => exact List.prefix_rfl
    | some quadData =>
      exact (List.prefix_append_right_inj _).mpr (ih (List.prefix_append quads more))

theorem stream_length {tag : Tag} {quads : List UInt8}
    (h : ∀ quad ∈ quads, (tag.mfRead (4 * quad)).isSome = true) :
    (tag.stream quads).length = 16 * quads.length := by
  induction quads with
  | nil => rfl
  | cons quad quads ih =>
    obtain ⟨quadData,hq⟩ := Option.isSome_iff_exists.mp (h quad (by simp))
    have hrest := ih fun quad hm => h quad (List.mem_cons_of_mem _ hm)
    rw [Tag.stream,hq,List.length_cons]
    simp only [List.length_append,Vector.length_toList]
    omega

/-- Two messages at the front of one stream are the same bytes. -/
theorem Message.bytes_unique {m m' : Message} {stream : List UInt8} (h : m.bytes <+: stream)
    (h' : m'.bytes <+: stream) (hl : m'.bytes.length ≤ m.bytes.length) : m'.bytes = m.bytes := by
  have hp : m'.bytes <+: m.bytes := List.prefix_of_prefix_length_le h' h hl
  have hlength := m'.bytes_length
  have hne : m'.bytes ≠ [] := List.ne_nil_of_length_pos (by omega)
  obtain ⟨before,byte,he⟩ := (List.eq_nil_or_concat' m'.bytes).resolve_left hne
  have hc : (scan before).completes byte = true :=
    (Message.completes_iff (m := m') (by rw [he])).mpr he.symm
  rw [he] at hp ⊢
  exact (Message.completes_iff hp).mp hc

namespace TextTag

variable (t : TextTag)

theorem announced_eq : announced t.capabilities = units t.capabilities / 2 := by
  have h := t.addressable
  rw [announced]
  show min (units t.capabilities / 2) 63 = units t.capabilities / 2
  omega

/-- The quads the reader reads are those that lie whole in the area. -/
theorem announced_covered :
    quadsFrom 0 (announced t.capabilities) <+: coveringQuads t.capabilities := by
  rw [announced_eq]
  exact quadsFrom_prefix_quadsFrom 0 (by omega)

theorem announced_length :
    (t.tag.stream (quadsFrom 0 (announced t.capabilities))).length =
      16 * (units t.capabilities / 2) := by
  rw [stream_length fun quad hm => t.readable quad (t.announced_covered.subset hm),announced_eq]
  simp [quadsFrom]

theorem message_in_stream : t.message.bytes <+: t.tag.stream (coveringQuads t.capabilities) :=
  t.inside.trans (List.take_prefix _ _)

theorem carries_iff : t.tag.Carries t.message ↔
    t.message.bytes.length ≤ 16 * (units t.capabilities / 2) := by
  have hlen := t.announced_length
  constructor
  · rintro ⟨capabilities,hcap,_,hm⟩
    obtain rfl : t.capabilities = capabilities := Option.some.inj (t.container.symm.trans hcap)
    have hle := hm.length_le
    omega
  · intro hle
    refine ⟨t.capabilities,t.container,by rw [lead_length]; exact t.padded,?_⟩
    refine List.prefix_of_prefix_length_le t.message_in_stream
      (stream_prefix_stream t.tag t.announced_covered) ?_
    omega

/-- Of such a tag no other message is read. -/
theorem carries_of_ok {s : String} (h : (readNdefText t.tag).1 = .ok s) :
    t.tag.Carries t.message := by
  obtain ⟨m,⟨capabilities,hcap,_,hm⟩,_⟩ := says_of_ok h
  obtain rfl : t.capabilities = capabilities := Option.some.inj (t.container.symm.trans hcap)
  have hlen := t.announced_length
  have hle := hm.length_le
  rw [carries_iff]
  by_contra hlt
  have hm' : m.bytes <+: t.tag.stream (coveringQuads t.capabilities) :=
    hm.trans (stream_prefix_stream t.tag t.announced_covered)
  have he : m.bytes = t.message.bytes := Message.bytes_unique t.message_in_stream hm' (by omega)
  rw [he] at hle
  omega

/-- The text is read just if the message ends in a quad that lies whole in the area
and no quad ends in the middle of its length, behind a first byte that is zero. -/
theorem text_read_iff : (readNdefText t.tag).1 = .ok t.payload.text ↔
    t.message.bytes.length ≤ 16 * (units t.capabilities / 2) ∧ ¬ t.message.Torn := by
  rw [← carries_iff]
  constructor
  · intro h
    have hcarries := t.carries_of_ok h
    exact ⟨hcarries,((ok_iff_of_carries hcarries).mp h).1⟩
  · rintro ⟨hcarries,ht⟩
    exact (ok_iff_of_carries hcarries).mpr ⟨ht,t.textOf_message⟩

end TextTag

/-- A tag of three units, with a text whose last two bytes stand in the third. -/
def oddTag : TextTag where
  tag := ⟨fun block =>
    if block = 3 then some #v[0xe1,0x10,3,0,0,0,0,0,0,0,0,0,0,0,0,0]
    else if block = 4 then
      some #v[0x03,0x10,0xd1,0x01,0x0c,0x54,0x02,101,110,98,108,111,111,112,45,98]
    else if block = 8 then some #v[111,120,0xfe,0,0,0,0,0,0,0,0,0,0,0,0,0]
    else none⟩
  capabilities := #v[0xe1,0x10,3,0,0,0,0,0,0,0,0,0,0,0,0,0]
  padding := 0
  block := ⟨.short,[0xd1,0x01,0x0c,0x54,0x02,101,110,98,108,111,111,112,45,98,111,120],by decide⟩
  record := ⟨true,true,true,none,[0x02,101,110,98,108,111,111,112,45,98,111,120],nofun,by decide⟩
  payload := ⟨[101,110],"bloop-box",by decide⟩
  container := rfl
  addressable := by decide
  readable := by decide +kernel
  padded := by decide
  value := by decide
  text := by decide +kernel
  inside := by decide +kernel

/-- Only the first quad is read. -/
theorem oddTag_unread : readNdefText oddTag.tag =
    (.error (.error "NDEF message incomplete"),[3,4]) := by decide +kernel

end BloopClient.Nfc

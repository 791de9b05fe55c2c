import BloopClient.Nfc.WholeBuffer

/-!
# Feeding the message parser in chunks

The parser is fed block by block until it is done, and looks for the end of the
message at each byte of a value, while its users look for it between blocks.
They agree except in front of the value: the parser counts itself done behind a
length that is zero, and behind the first byte of a two-byte length if that byte
is. Only where a chunk ends there does it matter how a stream is cut.
-/

namespace BloopClient.Nfc
open Tracelib NdefMessageParser

/-- Feeds a fresh parser chunk by chunk until it is done. -/
def feedUntilDone (chunks : List (List UInt8)) : NdefMessageParser :=
  feed addData (fun parser chunk => (parser.addData chunk).isDone) new chunks

/-- A place in front of the value where the parser counts itself done. -/
inductive Premature : List UInt8 → Prop
  | empty {lead} (h : ndefType ∉ lead) : Premature (lead ++ [ndefType,0x00])
  | half {lead} (h : ndefType ∉ lead) : Premature (lead ++ [ndefType,0xff,0x00])
  | emptyLong {lead} (h : ndefType ∉ lead) : Premature (lead ++ [ndefType,0xff,0x00,0x00])

/-- A chunk ends at such a place. -/
def EndsPrematurely (chunks : List (List UInt8)) : Prop :=
  ∃ p, p <+: chunks ∧ Premature p.flatten

/-- The part of the value that stands in the first `n` bytes. -/
def Message.seen (m : Message) (n : ℕ) : List UInt8 :=
  m.block.value.take (n - (m.lead.length + 1 + m.block.lengthField.length))

/-- The parser is done with the chunk the message ends in and not before, and has
the part of the value that it has been fed. -/
structure Message.Extracted (m : Message) (chunks : List (List UInt8)) : Prop where
  done : ∀ p, p <+: chunks →
    ((feedUntilDone p).isDone = true ↔ m.bytes.length ≤ p.flatten.length)
  data : ∀ p, p <+: chunks → (feedUntilDone p).data = m.seen p.flatten.length

-- ════════════════════════════════════════════════════════════════════════
-- Where the parser is done without having stopped
-- ════════════════════════════════════════════════════════════════════════

theorem data_prefix_addByte (self : NdefMessageParser) (byte : UInt8) :
    self.data <+: (self.addByte byte).data := by
  unfold addByte
  cases self.state with
  | value => exact List.prefix_append _ _
  | init =>
    dsimp only
    split
    · exact List.prefix_rfl
    · split <;> exact List.prefix_rfl
  | length =>
    dsimp only
    split
    · split <;> exact List.prefix_rfl
    · split <;> exact List.prefix_rfl

theorem data_prefix_foldl (self : NdefMessageParser) (bytes : List UInt8) :
    self.data <+: (bytes.foldl addByte self).data := by
  induction bytes generalizing self with
  | nil => exact List.prefix_rfl
  | cons byte bytes ih => exact (data_prefix_addByte self byte).trans (ih _)

/-- A byte that completes a value is in it. -/
theorem data_of_completes {self : NdefMessageParser} {byte : UInt8}
    (h : self.completes byte = true) : (self.addByte byte).data = self.data ++ [byte] := by
  simp only [completes,decide_eq_true_eq] at h
  simp [addByte,h.1]

/-- Without data nothing was completed. -/
theorem unstopped_of_data {p : List UInt8} (h : (scan p).data = []) :
    Unstopped addByte completes new p := by
  refine unstopped_iff.mpr ?_
  rintro before byte ⟨after,rfl⟩
  rw [← Bool.not_eq_true]
  intro hc
  have hd := data_prefix_foldl (scan (before ++ [byte])) after
  rw [← scan_append,h,List.prefix_nil,scan_append] at hd
  have hb : (scan before).data ++ [byte] = [] := (data_of_completes hc).symm.trans hd
  simp at hb

/-- Behind the length field a parser that has not stopped is done only if there is
no value yet. -/
theorem value_of_doneAt {p v : List UInt8} {length : Int32}
    (hscan : ∀ v, scan (p ++ v) = ⟨.value,length,v⟩)
    (h : DoneAt addByte completes isDone new (p ++ v)) : v = [] := by
  obtain ⟨hu,hd⟩ := h
  rcases List.eq_nil_or_concat' v with rfl | ⟨v,byte,rfl⟩
  · rfl
  · rw [← List.append_assoc] at hu hd
    have hstate : (scan (p ++ v)).state = .value := by rw [hscan]
    have hc : (scan (p ++ v)).completes byte = true := by
      have hdone : (scan (p ++ v ++ [byte])).isDone = true := hd
      rw [scan_append] at hdone
      exact decide_eq_true ⟨hstate,hdone⟩
    have hf : (scan (p ++ v)).completes byte = false :=
      unstopped_iff.mp hu (p ++ v) byte List.prefix_rfl
    rw [hc] at hf
    cases hf

theorem isDone_nil_iff {state : State} {n : ℕ} (hn : n < 2 ^ 31) :
    isDone ⟨state,Int32.ofNat n,[]⟩ = true ↔ n = 0 := by
  show (Int32.ofNat 0 == Int32.ofNat n) = true ↔ n = 0
  rw [beq_iff_eq,int32_ofNat_inj (by decide) hn,eq_comm]

theorem toNat_eq_zero_iff {byte : UInt8} : byte.toNat = 0 ↔ byte = 0x00 :=
  UInt8.toNat_inj (b := 0x00)

theorem premature_of_doneAt {p : List UInt8} (h : DoneAt addByte completes isDone new p) :
    Premature p := by
  have hd : (scan p).isDone = true := h.2
  by_cases hm : ndefType ∈ p
  · obtain ⟨lead,rest,rfl,hl⟩ := List.eq_append_cons_of_mem hm
    have hfield : ∀ q, scan (lead ++ ndefType :: q) = q.foldl addByte ⟨.length,-1,[]⟩ := by
      intro q
      rw [scan_append,scan_unmarked hl]
      rfl
    match rest with
    | [] => rw [hfield] at hd; cases hd
    | n :: v =>
      by_cases hff : n = 0xff
      · subst hff
        match v with
        | [] => rw [hfield] at hd; cases hd
        | [hi] =>
          have hlt := hi.toNat_lt
          rw [hfield] at hd
          obtain rfl := toNat_eq_zero_iff.mp ((isDone_nil_iff (by omega)).mp hd)
          exact .half hl
        | hi :: lo :: v =>
          have hscan : ∀ v, scan ((lead ++ [ndefType,0xff,hi,lo]) ++ v) =
              ⟨.value,Int32.ofNat (hi.toNat * 256 + lo.toNat),v⟩ := by
            intro v
            simpa using scan_long hl hi lo v
          obtain rfl : v = [] := value_of_doneAt hscan (by simpa using h)
          have hhi := hi.toNat_lt
          have hlo := lo.toNat_lt
          rw [scan_long hl] at hd
          have hz := (isDone_nil_iff (by omega)).mp hd
          obtain rfl := toNat_eq_zero_iff.mp (by omega : hi.toNat = 0)
          obtain rfl := toNat_eq_zero_iff.mp (by omega : lo.toNat = 0)
          exact .emptyLong hl
      · have hscan : ∀ v, scan ((lead ++ [ndefType,n]) ++ v) =
            ⟨.value,Int32.ofNat n.toNat,v⟩ := by
          intro v
          simpa using scan_short hl hff v
        obtain rfl : v = [] := value_of_doneAt hscan (by simpa using h)
        have hlt := n.toNat_lt
        rw [scan_short hl hff] at hd
        obtain rfl := toNat_eq_zero_iff.mp ((isDone_nil_iff (by omega)).mp hd)
        exact .empty hl
  · rw [scan_unmarked hm] at hd
    cases hd

/-- The parser is done there and has no data. -/
theorem Premature.scan {p : List UInt8} (h : Premature p) :
    (scan p).isDone = true ∧ (scan p).data = [] := by
  cases h with
  | empty h =>
    rw [scan_short h (by decide)]
    exact ⟨rfl,rfl⟩
  | half h =>
    rw [scan_append,scan_unmarked h]
    exact ⟨rfl,rfl⟩
  | emptyLong h =>
    rw [scan_long h]
    exact ⟨rfl,rfl⟩

theorem doneAt_iff {p : List UInt8} : DoneAt addByte completes isDone new p ↔ Premature p :=
  ⟨premature_of_doneAt,fun h => ⟨unstopped_of_data h.scan.2,h.scan.1⟩⟩

theorem Premature.ne_nil {p : List UInt8} (h : Premature p) : p ≠ [] := by
  cases h <;> simp

-- ════════════════════════════════════════════════════════════════════════
-- What chunks come to
-- ════════════════════════════════════════════════════════════════════════

section Chunks

variable {chunks chunks' : List (List UInt8)}

theorem feedUntilDone_of_premature (h : EndsPrematurely chunks) :
    (feedUntilDone chunks).isDone = true ∧ (feedUntilDone chunks).data = [] := by
  obtain ⟨p,hp,hpre⟩ := h
  have hne : p ≠ [] := by
    rintro rfl
    exact hpre.ne_nil rfl
  obtain ⟨q,_,hq,he⟩ := feedChunks_of_doneAt hp hne (doneAt_iff.mpr hpre)
  have hscan : feedUntilDone chunks = scan q.flatten := he
  rw [hscan]
  exact (doneAt_iff.mp hq).scan

theorem feedUntilDone_eq (h : ¬ EndsPrematurely chunks) :
    feedUntilDone chunks = new.addData chunks.flatten := by
  refine feedChunks_eq_feed ?_ ?_
  · intro self byte hc
    simp only [completes,decide_eq_true_eq] at hc
    exact hc.2
  · intro p hp _ hd
    exact h ⟨p,hp,doneAt_iff.mp hd⟩

/-- A parser that is done and has no data was fed up to such a place. -/
theorem premature_of_addData {data : List UInt8} (hd : (new.addData data).isDone = true)
    (hn : (new.addData data).data = []) : Premature data := by
  rcases feed_cases addByte completes new data with h | ⟨before,byte,after,rfl,h,hb⟩
  · rw [addData,feed_of_unstopped h] at hd
    exact doneAt_iff.mp ⟨h,hd⟩
  · rw [addData,feed_stopped h hb,List.foldl_append,List.foldl_cons,List.foldl_nil,
      data_of_completes hb] at hn
    simp at hn

/-- Two ways to cut a stream end alike just if the parser is led into counting
itself done too early by both or by neither. -/
theorem chunking_independent_iff (h : chunks.flatten = chunks'.flatten) :
    ((feedUntilDone chunks).isDone = (feedUntilDone chunks').isDone ∧
      (feedUntilDone chunks).data = (feedUntilDone chunks').data) ↔
      (EndsPrematurely chunks ↔ EndsPrematurely chunks') := by
  have hone : ∀ {chunks chunks' : List (List UInt8)},
      (feedUntilDone chunks).isDone = (feedUntilDone chunks').isDone →
      (feedUntilDone chunks).data = (feedUntilDone chunks').data →
      EndsPrematurely chunks → EndsPrematurely chunks' := by
    intro chunks chunks' hdone hdata hpre
    by_contra hn
    obtain ⟨hd,hnil⟩ := feedUntilDone_of_premature hpre
    rw [hdone,feedUntilDone_eq hn] at hd
    rw [hdata,feedUntilDone_eq hn] at hnil
    exact hn ⟨chunks',List.prefix_rfl,premature_of_addData hd hnil⟩
  constructor
  · rintro ⟨hdone,hdata⟩
    exact ⟨hone hdone hdata,hone hdone.symm hdata.symm⟩
  · intro hiff
    by_cases hpre : EndsPrematurely chunks
    · obtain ⟨hd,hn⟩ := feedUntilDone_of_premature hpre
      obtain ⟨hd',hn'⟩ := feedUntilDone_of_premature (hiff.mp hpre)
      exact ⟨hd.trans hd'.symm,hn.trans hn'.symm⟩
    · rw [feedUntilDone_eq hpre,feedUntilDone_eq (mt hiff.mpr hpre),h]
      exact ⟨rfl,rfl⟩

/-- A blank tag: a message of no bytes and the terminator. -/
theorem chunking_matters_blank :
    [[0x03,0x00],[0xfe]].flatten = ([[0x03,0x00,0xfe]] : List (List UInt8)).flatten ∧
      (feedUntilDone [[0x03,0x00],[0xfe]]).isDone = true ∧
      (feedUntilDone [[0x03,0x00,0xfe]]).isDone = false ∧
      (feedUntilDone [[0x03,0x00],[0xfe]]).data = [] ∧
      (feedUntilDone [[0x03,0x00,0xfe]]).data = [0xfe] := by
  refine ⟨rfl,by decide,by decide,by decide,by decide⟩

/-- A length of one byte that is not zero may be cut off. -/
theorem chunking_independent_record :
    (feedUntilDone [[0x03,0x03],[0xd0,0x00,0x00]]).isDone =
      (feedUntilDone [[0x03],[0x03,0xd0,0x00,0x00]]).isDone ∧
      (feedUntilDone [[0x03,0x03],[0xd0,0x00,0x00]]).data =
      (feedUntilDone [[0x03],[0x03,0xd0,0x00,0x00]]).data := by
  refine (chunking_independent_iff rfl).mpr (iff_of_false ?_ ?_)
  all_goals
    intro hpre
    have hdata := (feedUntilDone_of_premature hpre).2
    revert hdata
    decide

end Chunks

-- ════════════════════════════════════════════════════════════════════════
-- Messages
-- ════════════════════════════════════════════════════════════════════════

namespace Message

variable {m : Message} {p tail : List UInt8}

/-- In a message the parser has the part of the value that it has been fed. -/
theorem data_scan (hp : p <+: m.bytes) : (scan p).data = m.seen p.length := by
  have hnone : ∀ n, n ≤ m.lead.length + 1 + m.block.lengthField.length → m.seen n = [] := by
    intro n hn
    rw [seen,Nat.sub_eq_zero_of_le hn,List.take_zero]
  have hprog := progress hp
  have hfield := m.lengthField_length
  generalize scan p = parser at hprog ⊢
  cases hprog with
  | seeking h =>
    have hl := h.length_le
    exact (hnone _ (by omega)).symm
  | marked => exact (hnone _ (by simp)).symm
  | escaped h =>
    simp only [h] at hfield
    exact (hnone _ (by simp [hfield])).symm
  | halved h =>
    simp only [h] at hfield
    exact (hnone _ (by simp [hfield])).symm
  | @valued v h =>
    have hl : (m.lead ++ ndefType :: (m.block.lengthField ++ v)).length -
        (m.lead.length + 1 + m.block.lengthField.length) = v.length := by
      simp only [List.length_append,List.length_cons]
      omega
    rw [seen,hl]
    exact List.prefix_iff_eq_take.mp h

theorem seen_of_le {n : ℕ} (h : m.bytes.length ≤ n) : m.seen n = m.block.value := by
  refine List.take_of_length_le ?_
  rw [m.bytes_length,size] at h
  omega

/-- Within a stream that begins with a message the parser counts itself done too
early only in the middle of a length whose first byte is zero. -/
theorem premature_iff (hp : p <+: m.bytes ++ tail) :
    Premature p ↔ m.Halfway ∧ p.length = m.lead.length + 3 := by
  have hpos := m.size_pos
  have hlength := m.bytes_length
  have hfield := m.lengthField_length
  by_cases hlt : p.length < m.bytes.length
  · have hin : p <+: m.bytes :=
      List.prefix_of_prefix_length_le hp (List.prefix_append _ _) (Nat.le_of_lt hlt)
    have hdone := isDone_iff hin fun he => absurd (he ▸ hlt) (Nat.lt_irrefl _)
    constructor
    · intro h
      exact hdone.mp h.scan.1
    · rintro ⟨hhalf,hl⟩
      have hdata : (scan p).data = [] := by
        simp only [hhalf.1] at hfield
        rw [data_scan hin,seen,hl,hfield,Nat.sub_eq_zero_of_le (by omega),List.take_zero]
      exact doneAt_iff.mp ⟨unstopped_of_data hdata,hdone.mpr ⟨hhalf,hl⟩⟩
  · obtain ⟨q,rfl⟩ : m.bytes <+: p :=
      List.prefix_of_prefix_length_le (List.prefix_append _ _) hp (Nat.not_lt.mp hlt)
    refine iff_of_false ?_ ?_
    · intro h
      have hv := data_prefix_foldl (scan m.bytes) q
      rw [← scan_append,h.scan.2,m.scan_bytes] at hv
      exact m.nonempty (List.prefix_nil.mp hv)
    · rintro ⟨hhalf,hl⟩
      simp only [hhalf.1] at hfield
      omega

/-- The front of a stream that begins with a message is taken up to the end of it. -/
theorem addData_front (hp : p <+: m.bytes ++ tail) : new.addData p =
    if m.bytes.length ≤ p.length then scan m.bytes else scan p := by
  split
  · next hle =>
    obtain ⟨q,rfl⟩ : m.bytes <+: p :=
      List.prefix_of_prefix_length_le (List.prefix_append _ _) hp hle
    have hlength := m.bytes_length
    have hne : m.bytes ≠ [] := List.ne_nil_of_length_pos (by omega)
    have hlast : (scan []).addData (m.bytes ++ q) = scan m.bytes :=
      addData_last (List.nil_append _) hne q
    exact hlast
  · next hlt =>
    have hin : p <+: m.bytes :=
      List.prefix_of_prefix_length_le hp (List.prefix_append _ _) (by omega)
    have hwithin : (scan []).addData p = scan ([] ++ p) :=
      addData_within (by simpa using hin) (by simpa using hlt)
    exact hwithin

/-- Framing is undone however the stream is cut into chunks, and wherever it ends,
just if no chunk ends in the middle of a length whose first byte is zero. -/
theorem extracted_iff (m : Message) (tail : List UInt8) (chunks : List (List UInt8))
    (h : chunks.flatten <+: m.bytes ++ tail) : m.Extracted chunks ↔
      ¬ (m.Halfway ∧ ∃ p, p <+: chunks ∧ p.flatten.length = m.lead.length + 3) := by
  have hpos := m.size_pos
  have hlength := m.bytes_length
  have hfield := m.lengthField_length
  have hflat : ∀ {p}, p <+: chunks → p.flatten <+: m.bytes ++ tail := by
    rintro p ⟨q,rfl⟩
    rw [List.flatten_append] at h
    exact (List.prefix_append _ _).trans h
  constructor
  · rintro hx ⟨hhalf,p,hp,hl⟩
    have hpre : Premature p.flatten := (premature_iff (hflat hp)).mpr ⟨hhalf,hl⟩
    have hd := (feedUntilDone_of_premature ⟨p,List.prefix_rfl,hpre⟩).1
    have hle := (hx.done p hp).mp hd
    simp only [hhalf.1] at hfield
    omega
  · intro hn
    have hends : ∀ {p}, p <+: chunks → ¬ EndsPrematurely p := by
      rintro p hp ⟨q,hq,hpre⟩
      obtain ⟨hhalf,hl⟩ := (premature_iff (hflat (hq.trans hp))).mp hpre
      exact hn ⟨hhalf,q,hq.trans hp,hl⟩
    refine ⟨?_,?_⟩
    · intro p hp
      rw [feedUntilDone_eq (hends hp),addData_front (hflat hp)]
      split
      · next hle => exact iff_of_true m.isDone_bytes hle
      · next hlt =>
        have hin : p.flatten <+: m.bytes :=
          List.prefix_of_prefix_length_le (hflat hp) (List.prefix_append _ _) (by omega)
        refine iff_of_false ?_ hlt
        rw [isDone_iff hin fun he => hlt (by rw [he])]
        rintro ⟨hhalf,hl⟩
        exact hn ⟨hhalf,p,hp,hl⟩
    · intro p hp
      rw [feedUntilDone_eq (hends hp),addData_front (hflat hp)]
      split
      · next hle => rw [m.scan_bytes,seen_of_le hle]
      · next hlt =>
        exact data_scan (List.prefix_of_prefix_length_le (hflat hp) (List.prefix_append _ _)
          (by omega))

end Message

/-- An empty record behind a two-byte length. -/
def emptyRecord : Message :=
  ⟨[],⟨.long,[0xd0,0x00,0x00],by decide⟩,by decide,by decide⟩

/-- Cut behind the first length byte it is lost. -/
theorem emptyRecord_lost :
    [[0x03,0xff,0x00],[0x03,0xd0,0x00,0x00]].flatten = emptyRecord.bytes ∧
      (feedUntilDone [[0x03,0xff,0x00]]).isDone = true ∧
      (feedUntilDone [[0x03,0xff,0x00],[0x03,0xd0,0x00,0x00]]).data = [] := by
  refine ⟨by decide,by decide,by decide⟩

/-- Cut elsewhere it is extracted. -/
theorem emptyRecord_extracted : [[0x03,0xff],[0x00,0x03],[0xd0,0x00],[0x00,0xfe]].flatten <+:
    emptyRecord.bytes ++ [0xfe] ∧
      emptyRecord.Extracted [[0x03,0xff],[0x00,0x03],[0xd0,0x00],[0x00,0xfe]] := by
  refine ⟨by decide,(Message.extracted_iff emptyRecord [0xfe] _ (by decide)).mpr ?_⟩
  rintro ⟨_,p,hp,hl⟩
  simp only [List.prefix_cons_iff,List.prefix_nil] at hp
  obtain rfl | ⟨_,rfl,rfl | ⟨_,rfl,rfl | ⟨_,rfl,rfl | ⟨_,rfl,rfl⟩⟩⟩⟩ := hp <;> cases hl

end BloopClient.Nfc

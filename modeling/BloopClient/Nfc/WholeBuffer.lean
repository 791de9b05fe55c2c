import BloopClient.Nfc.Mfrc522
import BloopClient.Nfc.Scan

/-!
# The text of a tag, from its whole data area

The reader feeds an incremental parser quad by quad and stops when it is done.
What it is for is simpler to say over the whole area: find the first byte that
looks like the type of a message, take the length behind it and that many bytes,
and read them as a text record. The two agree, except where a quad ends in the
middle of a two-byte length whose first byte is zero.
-/

namespace BloopClient.Nfc
open Tracelib NdefMessageParser

-- ════════════════════════════════════════════════════════════════════════
-- What a tag carries
-- ════════════════════════════════════════════════════════════════════════

/-- The bytes of some quads, up to the first one that cannot be read. -/
def Tag.stream (tag : Tag) : List UInt8 → List UInt8
  | [] => []
  | quad :: quads =>
    match tag.mfRead (4 * quad) with
    | some quadData => quadData.toList ++ tag.stream quads
    | none => []

/-- The quads the capability container announces, as far as they have an address. -/
def announced (capabilities : Vector UInt8 16) : ℕ :=
  min ((capabilities.get 2).toNat / 2) 63

/-- The size of the data area, in units of eight bytes. -/
def units (capabilities : Vector UInt8 16) : ℕ := (capabilities.get 2).toNat

/-- The tag carries a message: the container can be read, and the message begins
in the first two quads of the area and ends in it. -/
def Tag.Carries (tag : Tag) (m : Message) : Prop := ∃ capabilities,
  tag.mfRead 3 = some capabilities ∧ m.lead.length < 32 ∧
    m.bytes <+: tag.stream (quadsFrom 0 (announced capabilities))

/-- The tag carries this text. -/
def Tag.Says (tag : Tag) (s : String) : Prop :=
  ∃ m, tag.Carries m ∧ textOf m.block.value = .ok s

/-- A quad ends in the middle of the message's length, behind a first byte that
is zero. -/
def Message.Torn (m : Message) : Prop := m.Halfway ∧ (m.lead.length + 3) % 16 = 0

instance (m : Message) : Decidable m.Torn := inferInstanceAs (Decidable ((_ ∧ _) ∧ _))

/-- The number of bytes of a message the parser takes. -/
def Message.stop (m : Message) : ℕ := if m.Torn then m.lead.length + 3 else m.bytes.length

-- ════════════════════════════════════════════════════════════════════════
-- Quads
-- ════════════════════════════════════════════════════════════════════════

theorem totalQuads_toNat (capabilities : Vector UInt8 16) :
    (totalQuads capabilities).toNat = announced capabilities := by
  have hget : capabilities.get 2 = capabilities[2] := rfl
  have h : capabilities[2].toNat * 8 / 4 / 4 = capabilities[2].toNat / 2 := by omega
  simp only [totalQuads,announced,hget,h,UInt8.toNat_ofNat']
  omega

@[simp] theorem quadsFrom_zero (done : ℕ) : quadsFrom done 0 = [] := rfl

theorem quadsFrom_succ (done count : ℕ) :
    quadsFrom done (count + 1) = UInt8.ofNat (done + 1) :: quadsFrom (done + 1) count := by
  simp [quadsFrom,List.range'_succ]

theorem quadsFrom_prefix_quadsFrom (done : ℕ) {count count' : ℕ} (h : count ≤ count') :
    quadsFrom done count <+: quadsFrom done count' := by
  obtain ⟨more,rfl⟩ := Nat.exists_eq_add_of_le h
  rw [quadsFrom,quadsFrom,← List.range'_append_1,List.map_append]
  exact List.prefix_append _ _

/-- The check of the first sector is made at the second quad. -/
theorem ofNat_eq_two {done count : ℕ} (hcount : done + (count + 1) ≤ 63)
    (h : UInt8.ofNat (done + 1) = 2) : done = 1 := by
  have hn := congrArg UInt8.toNat h
  simp only [UInt8.toNat_ofNat'] at hn
  have : (2 : UInt8).toNat = 2 := rfl
  omega

theorem hasStarted_scan (p : List UInt8) : (scan p).hasStarted = true ↔ ndefType ∈ p := by
  induction p using List.reverseRecOn with
  | nil => simp [scan,new,hasStarted]
  | append_singleton p byte ih =>
    rw [scan_append,List.foldl_cons,List.foldl_nil,hasStarted_addByte,ih,List.mem_append,
      List.mem_singleton,eq_comm (a := byte)]

-- ════════════════════════════════════════════════════════════════════════
-- A message is read
-- ════════════════════════════════════════════════════════════════════════

section Reading

variable {m : Message} {past chunk : List UInt8}

theorem unstopped_within (hp : past ++ chunk <+: m.bytes)
    (hl : past.length + chunk.length < m.bytes.length) :
    Unstopped addByte completes (scan past) chunk := by
  refine unstopped_iff.mpr ?_
  intro before byte hb
  have hpb : past ++ before ++ [byte] <+: m.bytes := by
    rw [List.append_assoc]
    exact ((List.prefix_append_right_inj past).mpr hb).trans hp
  rw [← scan_append,← Bool.not_eq_true,Message.completes_iff hpb]
  intro he
  have hle := hb.length_le
  have hlen := congrArg List.length he
  simp only [List.length_append] at hle hlen
  omega

/-- A chunk within a message is taken whole. -/
theorem addData_within (hp : past ++ chunk <+: m.bytes)
    (hl : past.length + chunk.length < m.bytes.length) :
    (scan past).addData chunk = scan (past ++ chunk) := by
  rw [addData,feed_of_unstopped (unstopped_within hp hl),scan_append]

/-- The chunk a message ends in is taken up to that end. -/
theorem addData_last (hp : past ++ chunk = m.bytes) (hc : chunk ≠ []) (rest : List UInt8) :
    (scan past).addData (chunk ++ rest) = scan m.bytes := by
  obtain ⟨before,byte,rfl⟩ := List.eq_nil_or_concat' chunk |>.resolve_left hc
  have hlen := congrArg List.length hp
  simp only [List.length_append,List.length_singleton] at hlen
  have hpb : past ++ before ++ [byte] = m.bytes := by rw [← hp,List.append_assoc]
  have hu : Unstopped addByte completes (scan past) before :=
    unstopped_within ⟨[byte],hpb⟩ (by omega)
  have hstop : (before.foldl addByte (scan past)).completes byte = true := by
    rw [← scan_append]
    exact (Message.completes_iff (by rw [hpb])).mpr hpb
  rw [addData,List.append_assoc,List.singleton_append,feed_stopped hu hstop,← scan_append,hp]

theorem Message.stop_of_torn (ht : m.Torn) :
    m.stop = m.lead.length + 3 ∧ m.stop < m.bytes.length := by
  have hstop : m.stop = m.lead.length + 3 := if_pos ht
  have hfield : m.block.lengthField.length = 3 := by rw [m.lengthField_length,ht.1.1]
  have hpos := m.size_pos
  refine ⟨hstop,?_⟩
  rw [hstop,m.bytes_length,hfield]
  omega

theorem Message.stop_of_not_torn (ht : ¬ m.Torn) : m.stop = m.bytes.length := if_neg ht

theorem Message.stop_le (m : Message) : m.stop ≤ m.bytes.length := by
  by_cases ht : m.Torn
  · exact (Message.stop_of_torn ht).2.le
  · exact (Message.stop_of_not_torn ht).le

/-- The parser is done where it stops. -/
theorem isDone_stop (m : Message) : (scan (m.bytes.take m.stop)).isDone = true := by
  by_cases ht : m.Torn
  · obtain ⟨hstop,hlt⟩ := Message.stop_of_torn ht
    have hlen : (m.bytes.take m.stop).length = m.stop := by
      rw [List.length_take]
      omega
    refine (Message.isDone_iff (List.take_prefix _ _) ?_).mpr ⟨ht.1,by rw [hlen,hstop]⟩
    intro he
    rw [he] at hlen
    omega
  · rw [Message.stop_of_not_torn ht,List.take_length]
    exact m.isDone_bytes

/-- In the middle of a length it has no data. -/
theorem data_of_torn (ht : m.Torn) : (scan (m.bytes.take m.stop)).data = [] := by
  obtain ⟨hstop,hlt⟩ := Message.stop_of_torn ht
  have hlen : (m.bytes.take m.stop).length = m.lead.length + 3 := by
    rw [List.length_take]
    omega
  have hprog : Progress m _ (scan (m.bytes.take m.stop)) :=
    Message.progress (List.take_prefix m.stop m.bytes)
  generalize scan (m.bytes.take m.stop) = parser at hprog ⊢
  generalize m.bytes.take m.stop = p at hprog hlen
  cases hprog with
  | valued h =>
    have hfield : m.block.lengthField.length = 3 := by rw [m.lengthField_length,ht.1.1]
    rw [List.length_append,List.length_cons,List.length_append,hfield] at hlen
    omega
  | _ => rfl

/-- At the end of a quad further in front it is not. -/
theorem not_isDone_before (hp : past <+: m.bytes) (hl : past.length < m.stop)
    (hq : past.length % 16 = 0) : (scan past).isDone = false := by
  rw [← Bool.not_eq_true,Message.isDone_iff hp]
  · rintro ⟨hhalf,he⟩
    rw [he] at hq
    rw [(Message.stop_of_torn ⟨hhalf,hq⟩).1] at hl
    omega
  · rintro rfl
    exact absurd hl (Nat.not_lt.mpr m.stop_le)

section Quad

variable {more : List UInt8} (hc : chunk.length = 16) (hm : m.bytes <+: past ++ (chunk ++ more))
include hc hm

/-- A quad in front of the end of a message is part of it. -/
theorem quad_within (hl : past.length + 16 ≤ m.bytes.length) : past ++ chunk <+: m.bytes := by
  rw [← List.append_assoc] at hm
  refine List.prefix_of_prefix_length_le (List.prefix_append _ _) hm ?_
  rw [List.length_append]
  omega

theorem addData_stop (hl : past.length < m.stop) (hq : past.length % 16 = 0)
    (hs : m.stop ≤ past.length + 16) :
    (scan past).addData chunk = scan (m.bytes.take m.stop) := by
  have hle := m.stop_le
  by_cases ht : m.Torn
  · -- the quad ends where the parser stops
    obtain ⟨hstop,hlt⟩ := Message.stop_of_torn ht
    have hmod := ht.2
    have hend : m.stop = (past ++ chunk).length := by
      rw [List.length_append]
      omega
    have hp : past ++ chunk <+: m.bytes := quad_within hc hm (by omega)
    rw [addData_within hp (by omega),hend,← List.prefix_iff_eq_take.mp hp]
  · rw [Message.stop_of_not_torn ht] at hs hl ⊢
    obtain ⟨rest,hrest⟩ : past <+: m.bytes :=
      List.prefix_of_prefix_length_le (List.prefix_append _ _) hm (by omega)
    have hlen := congrArg List.length hrest
    rw [List.length_append] at hlen
    have hr : rest <+: chunk ++ more := by
      rw [← hrest] at hm
      exact (List.prefix_append_right_inj past).mp hm
    obtain ⟨tail,rfl⟩ : rest <+: chunk :=
      List.prefix_of_prefix_length_le hr (List.prefix_append _ _) (by omega)
    have hne : rest ≠ [] := by
      rintro rfl
      simp only [List.length_nil] at hlen
      omega
    rw [List.take_length]
    exact addData_last hrest hne tail

end Quad

/-- From the end of a quad on, the loop reads the quads up to where the parser
stops. -/
theorem readQuads_message {tag : Tag} {done count : ℕ} (hlead : m.lead.length < 32)
    (hpast : past.length = 16 * done) (hcount : done + count ≤ 63) (hl : past.length < m.stop)
    (hm : m.bytes <+: past ++ tag.stream (quadsFrom done count)) :
    readQuads tag (quadsFrom done count) (scan past) = (.ok (scan (m.bytes.take m.stop)),
      (quadsFrom done ((m.stop + 15) / 16 - done)).map (4 * ·)) := by
  have hle := m.stop_le
  -- the stream does not end here
  have hmore : ∀ {past : List UInt8}, past.length < m.stop → ¬ m.bytes <+: past ++ [] := by
    intro past hl hm
    have := hm.length_le
    rw [List.append_nil] at this
    omega
  induction count generalizing done past with
  | zero => exact absurd hm (hmore hl)
  | succ count ih =>
    rw [quadsFrom_succ] at hm ⊢
    rw [Tag.stream] at hm
    cases hread : tag.mfRead (4 * UInt8.ofNat (done + 1)) with
    | none =>
      rw [hread] at hm
      exact absurd hm (hmore hl)
    | some quadData =>
      rw [hread] at hm
      have hc : quadData.toList.length = 16 := Vector.length_toList
      simp only [readQuads,hread]
      by_cases hs : m.stop ≤ past.length + 16
      · have hn : (m.stop + 15) / 16 - done = 1 := by omega
        rw [addData_stop hc hm hl (by omega) hs,isDone_stop,hn]
        rfl
      · have hp : past ++ quadData.toList <+: m.bytes := quad_within hc hm (by omega)
        have hlen : (past ++ quadData.toList).length = 16 * (done + 1) := by
          rw [List.length_append]
          omega
        have hnd := not_isDone_before hp (by omega) (by omega)
        have hstart : ¬ (UInt8.ofNat (done + 1) = 2 ∧
            (scan (past ++ quadData.toList)).hasStarted = false) := by
          rintro ⟨htwo,hf⟩
          have hdone := ofNat_eq_two hcount htwo
          have hmark : ndefType ∈ past ++ quadData.toList :=
            (mem_prefix_iff m.unmarked hp).mpr (by omega)
          rw [(hasStarted_scan _).mpr hmark] at hf
          cases hf
        have hn : (m.stop + 15) / 16 - done = ((m.stop + 15) / 16 - (done + 1)) + 1 := by omega
        rw [← List.append_assoc] at hm
        rw [addData_within hp (by omega),hnd,if_neg (by simp),if_neg hstart,
          ih hlen (by omega) (by omega) hm,hn,quadsFrom_succ]
        rfl

end Reading

/-- A tag that carries a message is read up to where the parser stops, whatever
stands behind that. -/
theorem readNdefText_of_carries {tag : Tag} {m : Message} (h : tag.Carries m) :
    readNdefText tag = (finish (scan (m.bytes.take m.stop)),
      3 :: (quadsFrom 0 ((m.stop + 15) / 16)).map (4 * ·)) := by
  obtain ⟨capabilities,hcap,hlead,hm⟩ := h
  have hpos : 0 < m.stop := by
    by_cases ht : m.Torn
    · rw [(Message.stop_of_torn ht).1]
      omega
    · rw [Message.stop_of_not_torn ht,m.bytes_length]
      omega
  have hloop : readQuads tag (quadsFrom 0 (announced capabilities)) (scan []) = _ :=
    readQuads_message hlead rfl (by rw [announced]; omega) hpos hm
  have hnew : readQuads tag (quadsFrom 0 (totalQuads capabilities).toNat) new = _ :=
    (totalQuads_toNat capabilities).symm ▸ hloop
  simp only [readNdefText,hcap,hnew]
  rfl

-- ════════════════════════════════════════════════════════════════════════
-- What is read is a message
-- ════════════════════════════════════════════════════════════════════════

/-- A chunk after which the parser is not done was taken whole. -/
theorem addData_cases (past chunk : List UInt8) :
    (∃ taken, taken <+: chunk ∧ (scan past).addData chunk = scan (past ++ taken) ∧
      ((scan past).addData chunk).isDone = true) ∨
      (scan past).addData chunk = scan (past ++ chunk) := by
  rcases feed_cases addByte completes (scan past) chunk with h | ⟨before,byte,after,rfl,h,hb⟩
  · refine .inr ?_
    rw [addData,feed_of_unstopped h,scan_append]
  · have hf : (scan past).addData (before ++ byte :: after) = scan (past ++ (before ++ [byte])) := by
      rw [addData,feed_stopped h hb,scan_append]
    refine .inl ⟨before ++ [byte],by simp,hf,?_⟩
    rw [hf,← List.append_assoc,scan_append,scan_append]
    simp only [completes,decide_eq_true_eq] at hb
    exact hb.2

/-- In front of the check the bytes are few; behind it they show a marker. -/
theorem early_or_marked {past taken : List UInt8} {done : ℕ} (hpast : past.length = 16 * done)
    (hearly : 2 ≤ done → ndefType ∈ past.take 32) (ht : taken.length ≤ 16) :
    (past ++ taken).length ≤ 32 ∨ ndefType ∈ (past ++ taken).take 32 := by
  by_cases hd : 2 ≤ done
  · refine .inr ?_
    rw [List.take_append_of_le_length (by omega)]
    exact hearly hd
  · refine .inl ?_
    rw [List.length_append]
    omega

/-- The parser the loop ends with has read a prefix of the stream, which shows a
marker early. -/
theorem readQuads_ok {tag : Tag} {past : List UInt8} {parser : NdefMessageParser} {done count : ℕ}
    (hpast : past.length = 16 * done) (hcount : done + count ≤ 63)
    (hearly : 2 ≤ done → ndefType ∈ past.take 32)
    (h : (readQuads tag (quadsFrom done count) (scan past)).1 = .ok parser) :
    ∃ p, p <+: past ++ tag.stream (quadsFrom done count) ∧ parser = scan p ∧
      (p.length ≤ 32 ∨ ndefType ∈ p.take 32) := by
  induction count generalizing done past with
  | zero =>
    simp only [quadsFrom_zero,readQuads,Except.ok.injEq] at h
    have hnear : (past ++ []).length ≤ 32 ∨ ndefType ∈ (past ++ []).take 32 :=
      early_or_marked hpast hearly (by simp)
    rw [List.append_nil] at hnear
    exact ⟨past,by simp,h.symm,hnear⟩
  | succ count ih =>
    rw [quadsFrom_succ] at h ⊢
    cases hread : tag.mfRead (4 * UInt8.ofNat (done + 1)) with
    | none =>
      simp only [readQuads,hread] at h
      cases h
    | some quadData =>
      have hc : quadData.toList.length = 16 := Vector.length_toList
      simp only [readQuads,hread] at h
      simp only [Tag.stream,hread]
      split at h
      · next hdone =>
        -- the loop ends with this quad
        simp only [Except.ok.injEq] at h
        obtain ⟨taken,ht,hp⟩ : ∃ taken, taken <+: quadData.toList ∧
            (scan past).addData quadData.toList = scan (past ++ taken) := by
          rcases addData_cases past quadData.toList with ⟨taken,ht,hp,_⟩ | hp
          · exact ⟨taken,ht,hp⟩
          · exact ⟨_,List.prefix_rfl,hp⟩
        refine ⟨past ++ taken,?_,by rw [← h,hp],early_or_marked hpast hearly (hc ▸ ht.length_le)⟩
        exact (List.prefix_append_right_inj past).mpr (ht.trans (List.prefix_append _ _))
      · next hdone =>
        have hp : (scan past).addData quadData.toList = scan (past ++ quadData.toList) := by
          rcases addData_cases past quadData.toList with ⟨_,_,_,hd⟩ | hp
          · exact absurd hd hdone
          · exact hp
        have hlen : (past ++ quadData.toList).length = 16 * (done + 1) := by
          rw [List.length_append]
          omega
        split at h
        · cases h
        · next hcheck =>
          rw [hp] at h hcheck
          rw [← List.append_assoc]
          refine ih hlen (by omega) ?_ h
          intro hd
          by_cases hone : done = 1
          · subst hone
            rw [List.take_of_length_le (by omega),← hasStarted_scan]
            simpa using hcheck
          · rw [List.take_append_of_le_length (by omega)]
            exact hearly (by omega)

theorem stream_length_le (tag : Tag) (quads : List UInt8) :
    (tag.stream quads).length ≤ 16 * quads.length := by
  induction quads with
  | nil => simp [Tag.stream]
  | cons quad quads ih =>
    rw [Tag.stream]
    split
    · rw [List.length_append,Vector.length_toList,List.length_cons]
      omega
    · simp

theorem finish_ok_iff {parser : NdefMessageParser} {s : String} :
    finish parser = .ok s ↔ parser.isDone = true ∧ textOf parser.data = .ok s := by
  by_cases hd : parser.isDone = true
  · rw [finish,if_pos hd]
    cases textOf parser.data <;> simp [Except.mapError,hd]
  · rw [finish,if_neg hd]
    simp [hd]

/-- A text that was returned is one the tag carries. -/
theorem says_of_ok {tag : Tag} {s : String} (h : (readNdefText tag).1 = .ok s) : tag.Says s := by
  cases hcap : tag.mfRead 3 with
  | none => simp [readNdefText,hcap] at h
  | some capabilities =>
    simp only [readNdefText,hcap,totalQuads_toNat] at h
    split at h
    · next parser hloop =>
      obtain ⟨hd,ht⟩ := finish_ok_iff.mp h
      have hread : (readQuads tag (quadsFrom 0 (announced capabilities)) (scan [])).1 =
          .ok parser := hloop
      obtain ⟨p,hp,rfl,hnear⟩ :=
        readQuads_ok rfl (by rw [announced]; omega) (by simp) hread
      have hlen : p.length < 2 ^ 31 := by
        have h₁ := hp.length_le
        have h₂ := stream_length_le tag (quadsFrom 0 (announced capabilities))
        simp only [List.nil_append] at h₁
        simp only [quadsFrom,List.length_map,List.length_range',announced] at h₁ h₂
        omega
      have hn : (scan p).data ≠ [] := by
        intro hn
        rw [hn] at ht
        cases ht
      obtain ⟨m,rfl,hv⟩ := exists_message hlen hd hn
      refine ⟨m,⟨capabilities,hcap,?_,hp⟩,by rw [hv,ht]⟩
      rcases hnear with hnear | hnear
      · rw [m.bytes_length] at hnear
        omega
      · have hlt := (mem_prefix_iff m.unmarked (List.take_prefix 32 m.bytes)).mp hnear
        rw [List.length_take] at hlt
        omega
    · cases h

/-- A tag that carries a text in a message whose length is torn. -/
def Tag.Misread (tag : Tag) : Prop :=
  ∃ m, tag.Carries m ∧ m.Torn ∧ ∃ s, textOf m.block.value = .ok s

/-- What a read has in common with the whole area: it returns the text the tag
carries and no other; and a message decides the read, whatever stands behind it
and whether that can be read, and no quad behind it is read. -/
structure Tag.ReadWhole (tag : Tag) : Prop where
  text : ∀ s, (readNdefText tag).1 = .ok s ↔ tag.Says s
  decided : ∀ m tag', tag.Carries m → tag'.Carries m → readNdefText tag' = readNdefText tag
  enough : ∀ m, tag.Carries m →
    (readNdefText tag).2 <+: 3 :: (quadsFrom 0 ((m.bytes.length + 15) / 16)).map (4 * ·)

/-- A message that is not torn is read, and a torn one is not. -/
theorem ok_iff_of_carries {tag : Tag} {m : Message} {s : String} (h : tag.Carries m) :
    (readNdefText tag).1 = .ok s ↔ ¬ m.Torn ∧ textOf m.block.value = .ok s := by
  rw [readNdefText_of_carries h,finish_ok_iff]
  by_cases ht : m.Torn
  · rw [data_of_torn ht]
    refine iff_of_false ?_ fun hn => hn.1 ht
    rintro ⟨_,htext⟩
    cases htext
  · rw [Message.stop_of_not_torn ht,List.take_length,m.isDone_bytes,Message.scan_bytes]
    exact and_congr_left' (iff_of_true rfl ht)

/-- Reading a tag agrees with its whole area, unless the tag is misread. -/
theorem readWhole_iff (tag : Tag) : tag.ReadWhole ↔ ¬ tag.Misread := by
  constructor
  · rintro h ⟨m,hm,ht,s,hs⟩
    have hok := (h.text s).mpr ⟨m,hm,hs⟩
    exact ((ok_iff_of_carries hm).mp hok).1 ht
  · intro hn
    refine ⟨?_,?_,?_⟩
    · intro s
      constructor
      · exact says_of_ok
      · rintro ⟨m,hm,hs⟩
        exact (ok_iff_of_carries hm).mpr ⟨fun ht => hn ⟨m,hm,ht,s,hs⟩,hs⟩
    · intro m tag' hm hm'
      rw [readNdefText_of_carries hm,readNdefText_of_carries hm']
    · intro m hm
      have hle := m.stop_le
      rw [readNdefText_of_carries hm]
      refine List.cons_prefix_cons.mpr ⟨rfl,?_⟩
      exact (quadsFrom_prefix_quadsFrom 0 (by omega)).map _

/-- A tag with two quads. Padding, the type of a message, the marker and the first
length byte fill the first quad; the second length byte, a text record and the
terminator stand in the second. -/
def tornTag : Tag where
  mfRead block :=
    if block = 3 then some #v[0,0,4,0,0,0,0,0,0,0,0,0,0,0,0,0]
    else if block = 4 then some #v[0,0,0,0,0,0,0,0,0,0,0,0,0,0x03,0xff,0]
    else if block = 8 then
      some #v[12,0xd1,0x01,8,0x54,0x02,101,110,98,108,111,111,112,0xfe,0,0]
    else none

/-- The tag says "bloop", but the read takes the first length byte for a length
and fails. -/
theorem tornTag_misread : tornTag.Says "bloop" ∧
    readNdefText tornTag = (.error (.error "record is truncated: flags missing"),[3,4]) := by
  refine ⟨⟨⟨List.replicate 13 0,⟨.long,[0xd1,0x01,8,0x54,0x02,101,110,98,108,111,111,112],
    by decide⟩,by decide,by decide⟩,⟨_,rfl,by decide,by decide +kernel⟩,by decide +kernel⟩,
    by decide +kernel⟩

end BloopClient.Nfc

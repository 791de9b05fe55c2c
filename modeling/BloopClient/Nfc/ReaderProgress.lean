import BloopClient.Nfc.CancelSafety
import BloopClient.Tracelib.Progress

/-!
# The thread gets through its queue

Whatever callers do in between, a bounded number of steps of the thread serves every
request that is waiting, as long as each of those ahead of it, and it itself, is one the
adapter comes to a result for, or one whose caller has gone.
-/

namespace BloopClient.Nfc
open Tracelib

variable {NfcUid : Type} {adapter : Adapter NfcUid} {self reader : ReaderSystem NfcUid}
  {request : NfcReaderRequest} {action : ReaderAction} {m : ℕ}

/-- The adapter has a result for the request again and again. -/
def Adapter.Responsive (adapter : Adapter NfcUid) (request : NfcReaderRequest) : Prop :=
  ∀ n, ∃ m, n ≤ m ∧ adapter.poll m request ≠ none

/-- The request in service, and behind it those in the channel. -/
def ReaderSystem.line (self : ReaderSystem NfcUid) : List NfcReaderRequest :=
  (self.serve.current.map Prod.fst).toList ++ self.channel.queue

/-- Nothing is left to do for a call but to return. -/
def CallStage.isSettled : CallStage NfcUid → Bool
  | .sending | .waiting => false
  | .replied _ | .returned _ | .cancelled => true

def Settled (request : NfcReaderRequest) (reader : ReaderSystem NfcUid) : Prop :=
  ∃ stage, reader.roundtrips[request.response]? = some ⟨request.operation,stage⟩ ∧
    stage.isSettled = true

namespace Settled

/-- A call that moves on is settled if it was. -/
theorem set {i : ℕ} {operation : Operation} {old new : CallStage NfcUid}
    (h : Settled request self) (hi : self.roundtrips[i]? = some ⟨operation,old⟩)
    (hnew : old.isSettled = true → new.isSettled = true)
    (hr : reader.roundtrips = self.roundtrips.set i ⟨operation,new⟩) : Settled request reader := by
  obtain ⟨stage,hs,hsettled⟩ := h
  by_cases hj : request.response = i
  · subst hj
    rw [hs] at hi
    cases hi
    exact ⟨new,hr ▸ getElem?_set_of_some hs,hnew hsettled⟩
  · refine ⟨stage,?_,hsettled⟩
    rw [hr,List.getElem?_set_ne (Ne.symm hj)]
    exact hs

theorem moved (h : Settled request self) (hm : ReaderSystem.Moved adapter self reader) :
    Settled request reader := by
  cases hm with
  | called _ =>
    obtain ⟨stage,hs,hsettled⟩ := h
    exact ⟨stage,getElem?_concat_of_some hs,hsettled⟩
  | accepted hi _ => exact h.set hi (by rintro ⟨⟩) rfl
  | cancelled hi _ => exact h.set hi (fun _ => rfl) rfl
  | woken hi => exact h.set hi (fun _ => rfl) rfl
  | answered _ hi => exact h.set hi (fun _ => rfl) rfl
  | _ => exact h

theorem step (request : NfcReaderRequest) (self : ReaderSystem NfcUid) (action : ReaderAction)
    (h : Settled request self) : Settled request (self.step adapter action) :=
  h.moved (ReaderSystem.step_moved adapter self action)

/-- A cancelled call is settled. -/
theorem of_cancelled (h : Follows adapter self) (hc : .cancelled request ∈ self.trace) :
    Settled request self := ⟨.cancelled,h.calls.cancelled_iff.mp hc,rfl⟩

end Settled

/-- What callers do leaves the thread where it is. -/
theorem ReaderSystem.step_other (adapter : Adapter NfcUid) (self : ReaderSystem NfcUid)
    (ha : (action == .serve) = false) :
    (self.step adapter action).serve = self.serve ∧
      (self.step adapter action).polls = self.polls ∧
      self.channel.queue <+: (self.step adapter action).channel.queue := by
  have hstay : self.serve = self.serve ∧ self.polls = self.polls ∧
      self.channel.queue <+: self.channel.queue := ⟨rfl,rfl,List.prefix_refl _⟩
  cases action with
  | clone =>
    dsimp only [step]
    split <;> exact hstay
  | drop => exact hstay
  | call operation =>
    dsimp only [step,call]
    split <;> exact hstay
  | accept i =>
    dsimp only [step,accept]
    split
    · split
      · next channel hc =>
        obtain ⟨_,_,hq⟩ := Channel.send?_eq_some.mp hc
        exact ⟨rfl,rfl,hq ▸ List.prefix_append _ _⟩
      · exact hstay
    · exact hstay
  | cancel i =>
    obtain ⟨hc,hs,hp,_⟩ := cancel_frame adapter self i
    exact ⟨hs,hp,hc ▸ List.prefix_refl _⟩
  | wake i =>
    dsimp only [step,wake]
    split <;> exact hstay
  | serve => cases ha

-- ════════════════════════════════════════════════════════════════════════
-- One request
-- ════════════════════════════════════════════════════════════════════════

/-- The thread is free, with requests waiting for it, after at most so many polls. -/
structure Free (adapter : Adapter NfcUid)
    (past : List (ServiceEvent NfcReaderRequest (Reply NfcUid))) (n : ℕ)
    (ahead : List NfcReaderRequest) (reader : ReaderSystem NfcUid) : Prop where
  follows : Follows adapter reader
  since : past <:+ reader.trace
  serve : reader.serve = .receiving
  queue : ahead <+: reader.channel.queue
  polls : reader.polls ≤ n

/-- The thread serves a request whose caller has gone, or for which the adapter has a result
at its call `m`, which is still to come. -/
structure Busy (adapter : Adapter NfcUid)
    (past : List (ServiceEvent NfcReaderRequest (Reply NfcUid))) (m : ℕ)
    (request : NfcReaderRequest) (rest : List NfcReaderRequest)
    (reader : ReaderSystem NfcUid) : Prop where
  follows : Follows adapter reader
  since : past <:+ reader.trace
  current : ∃ result, reader.serve.current = some (request,result)
  queue : rest <+: reader.channel.queue
  due : .cancelled request ∈ reader.trace ∨ adapter.poll m request ≠ none
  polls : reader.polls ≤ m + 1
  early : reader.serve = .polling request ∨
    (reader.serve = .checking request ∧ reader.isClosed request = false) → reader.polls ≤ m

/-- The steps it takes the thread at most to be done with the request it serves, with a
result at the call `m` of the adapter. -/
def ReaderSystem.rank (m : ℕ) (self : ReaderSystem NfcUid) : ℕ :=
  match self.serve with
  | .checking request => if self.isClosed request then 1 else 2 * (m - self.polls) + 4
  | .polling request => if self.isClosed request then 2 else 2 * (m - self.polls) + 3
  | _ => 1

section Busy

variable {past : List (ServiceEvent NfcReaderRequest (Reply NfcUid))}
  {rest : List NfcReaderRequest} {n : ℕ}

/-- The thread is done with its request, or still at it and closer to its end. -/
def Nears (adapter : Adapter NfcUid)
    (past : List (ServiceEvent NfcReaderRequest (Reply NfcUid))) (m : ℕ)
    (request : NfcReaderRequest) (rest : List NfcReaderRequest)
    (self reader : ReaderSystem NfcUid) : Prop :=
  (Free adapter past (m + 1) rest reader ∧ Settled request reader) ∨
    (Busy adapter past m request rest reader ∧ reader.rank m < self.rank m)

theorem ReaderSystem.rank_pos (m : ℕ) (self : ReaderSystem NfcUid) : 0 < self.rank m := by
  unfold rank
  split
  · split <;> omega
  · split <;> omega
  · exact Nat.one_pos

theorem ReaderSystem.rank_le (m : ℕ) (self : ReaderSystem NfcUid) :
    self.rank m ≤ 2 * m + 4 := by
  unfold rank
  split
  · split <;> omega
  · split <;> omega
  · omega

namespace Busy

theorem isClosed_iff (h : Busy adapter past m request rest self) :
    self.isClosed request = true ↔ .cancelled request ∈ self.trace := by
  obtain ⟨result,hc⟩ := h.current
  exact h.follows.isClosed_iff hc

/-- What callers do keeps the thread at its request, and it is at most cancelled. -/
theorem other (h : Busy adapter past m request rest self) (ha : (action == .serve) = false) :
    Busy adapter past m request rest (self.step adapter action) ∧
      (self.step adapter action).rank m ≤ self.rank m := by
  obtain ⟨hs,hp,hq⟩ := ReaderSystem.step_other adapter self ha
  have hm := ReaderSystem.step_moved adapter self action
  have hclosed : self.isClosed request = true →
      (self.step adapter action).isClosed request = true := by
    intro hc
    obtain ⟨result,hcur⟩ := h.current
    rw [(h.follows.moved hm).isClosed_iff (hs ▸ hcur)]
    exact hm.suffix.subset (h.isClosed_iff.mp hc)
  have hopen : (self.step adapter action).isClosed request = false →
      self.isClosed request = false := by
    intro hc
    cases hb : self.isClosed request with
    | false => rfl
    | true => exact absurd (hclosed hb) (by simp [hc])
  constructor
  · refine ⟨h.follows.moved hm,h.since.trans hm.suffix,hs ▸ h.current,h.queue.trans hq,
      h.due.imp_left fun hc => hm.suffix.subset hc,hp ▸ h.polls,?_⟩
    intro hserve
    rw [hp]
    refine h.early (hserve.imp (fun he => hs ▸ he) ?_)
    rintro ⟨he,hc⟩
    exact ⟨hs ▸ he,hopen hc⟩
  · obtain ⟨result,hcur⟩ := h.current
    unfold ReaderSystem.rank
    rw [hs,hp]
    cases hserve : self.serve with
    | checking r =>
      rw [hserve] at hcur
      cases hcur
      dsimp only
      split
      · split <;> omega
      · next hc => rw [if_neg fun hb => hc (hclosed hb)]
    | polling r =>
      rw [hserve] at hcur
      cases hcur
      dsimp only
      split
      · split <;> omega
      · next hc => rw [if_neg fun hb => hc (hclosed hb)]
    | _ => exact Nat.le_refl _

/-- The request is done with. -/
theorem done (h : Busy adapter past m request rest self)
    (hm : ReaderSystem.Moved adapter self reader) (hs : reader.serve = .receiving)
    (hq : reader.channel.queue = self.channel.queue) (hp : reader.polls = self.polls)
    (hsettled : Settled request reader) :
    Free adapter past (m + 1) rest reader ∧ Settled request reader :=
  ⟨⟨h.follows.moved hm,h.since.trans hm.suffix,hs,hq ▸ h.queue,hp ▸ h.polls⟩,hsettled⟩

theorem nears_checking (h : Busy adapter past m request rest self)
    (hserve : self.serve = .checking request) :
    Nears adapter past m request rest self (self.serveStep adapter) := by
  have hm := ReaderSystem.serveStep_moved adapter self
  cases hc : self.isClosed request with
  | true =>
    have hstep : self.serveStep adapter = { self with
        serve := .receiving
        trace := .abandoned request :: self.trace } := by
      simp only [ReaderSystem.serveStep,hserve,hc,if_true]
    rw [hstep] at hm ⊢
    refine .inl (h.done hm rfl rfl rfl (.of_cancelled (h.follows.moved hm) ?_))
    exact List.mem_cons_of_mem _ (h.isClosed_iff.mp hc)
  | false =>
    have hpolls := h.early (.inr ⟨hserve,hc⟩)
    have hstep : self.serveStep adapter = { self with serve := .polling request } := by
      simp only [ReaderSystem.serveStep,hserve,hc,Bool.false_eq_true,if_false]
    have hc' : ReaderSystem.isClosed { self with serve := .polling request } request = false := hc
    rw [hstep] at hm ⊢
    refine .inr ⟨⟨h.follows.moved hm,h.since,⟨none,rfl⟩,h.queue,h.due,h.polls,
      fun _ => hpolls⟩,?_⟩
    simp only [ReaderSystem.rank,hserve,hc,hc',Bool.false_eq_true,if_false]
    omega

/-- A poll without a result comes before the one that has it, unless the caller has gone. -/
theorem polls_lt (h : Busy adapter past m request rest self)
    (hserve : self.serve = .polling request) (hnone : adapter.poll self.polls request = none)
    (hc : self.isClosed request = false) : self.polls < m := by
  refine Nat.lt_of_le_of_ne (h.early (.inl hserve)) ?_
  rintro rfl
  rcases h.due with hcancelled | hne
  · rw [h.isClosed_iff.mpr hcancelled] at hc
    cases hc
  · exact hne hnone

theorem nears_polling (h : Busy adapter past m request rest self)
    (hserve : self.serve = .polling request) :
    Nears adapter past m request rest self (self.serveStep adapter) := by
  have hm := ReaderSystem.serveStep_moved adapter self
  have hpolls := h.early (.inl hserve)
  have hclosed : ∀ (serve : Serve NfcUid) polls trace, ReaderSystem.isClosed
      { self with serve, polls, trace } request = self.isClosed request := fun _ _ _ => rfl
  cases hresult : adapter.poll self.polls request with
  | none =>
    have hstep : self.serveStep adapter = { self with
        serve := .checking request
        polls := self.polls + 1
        trace := .polled request none :: self.trace } := by
      simp only [ReaderSystem.serveStep,hserve,hresult]
    rw [hstep] at hm ⊢
    refine .inr ⟨⟨h.follows.moved hm,h.since.trans hm.suffix,⟨none,rfl⟩,h.queue,
      h.due.imp_left (List.mem_cons_of_mem _),Nat.succ_le_succ hpolls,?_⟩,?_⟩
    · rintro (he | ⟨_,hc⟩)
      · cases he
      · exact h.polls_lt hserve hresult hc
    · simp only [ReaderSystem.rank,hserve,hclosed]
      cases hc : self.isClosed request with
      | true => exact Nat.one_lt_two
      | false =>
        have := h.polls_lt hserve hresult hc
        simp only [Bool.false_eq_true,if_false]
        omega
  | some reply =>
    have hstep : self.serveStep adapter = { self with
        serve := .sending request reply
        polls := self.polls + 1
        trace := .polled request (some reply) :: self.trace } := by
      simp only [ReaderSystem.serveStep,hserve,hresult]
    rw [hstep] at hm ⊢
    refine .inr ⟨⟨h.follows.moved hm,h.since.trans hm.suffix,⟨some reply,rfl⟩,h.queue,
      h.due.imp_left (List.mem_cons_of_mem _),Nat.succ_le_succ hpolls,?_⟩,?_⟩
    · rintro (he | ⟨he,_⟩) <;> cases he
    · simp only [ReaderSystem.rank,hserve]
      split <;> omega

theorem nears_sending {reply : Reply NfcUid} (h : Busy adapter past m request rest self)
    (hserve : self.serve = .sending request reply) :
    Nears adapter past m request rest self (self.serveStep adapter) := by
  have hm := ReaderSystem.serveStep_moved adapter self
  left
  unfold ReaderSystem.serveStep at hm ⊢
  rw [hserve] at hm ⊢
  dsimp only at hm ⊢
  split at hm
  · next operation hi =>
    obtain ⟨stage,hstage⟩ := h.follows.exists_stage (congrArg Serve.current hserve)
    rw [hi] at hstage
    cases hstage
    exact h.done hm rfl rfl rfl ⟨.replied reply,getElem?_set_of_some hi,rfl⟩
  · next hi =>
    refine h.done hm rfl rfl rfl (.of_cancelled (h.follows.moved hm) ?_)
    exact List.mem_cons_of_mem _ (h.follows.cancelled_of_lost (congrArg Serve.current hserve) hi)

/-- Every step of the thread brings it closer to the end of its request. -/
theorem turn (h : Busy adapter past m request rest self) :
    Nears adapter past m request rest self (self.serveStep adapter) := by
  obtain ⟨result,hcur⟩ := h.current
  cases hserve : self.serve with
  | checking r =>
    rw [hserve] at hcur
    cases hcur
    exact h.nears_checking hserve
  | polling r =>
    rw [hserve] at hcur
    cases hcur
    exact h.nears_polling hserve
  | sending r reply =>
    rw [hserve] at hcur
    cases hcur
    exact h.nears_sending hserve
  | _ =>
    rw [hserve] at hcur
    cases hcur

theorem leads (adapter : Adapter NfcUid)
    (past : List (ServiceEvent NfcReaderRequest (Reply NfcUid))) (m : ℕ)
    (request : NfcReaderRequest) (rest : List NfcReaderRequest) :
    Leads (ReaderSystem.step adapter) (· == .serve) (2 * m + 4)
      (Busy adapter past m request rest)
      (fun reader => Free adapter past (m + 1) rest reader ∧ Settled request reader) := by
  refine .of_rank (ReaderSystem.rank m) (fun self _ => self.rank_pos m)
    (fun self _ => self.rank_le m) ?_ (fun self action h ha => h.other ha)
  intro self action h ha
  rw [beq_iff_eq] at ha
  subst ha
  exact h.turn

end Busy

-- ════════════════════════════════════════════════════════════════════════
-- The queue
-- ════════════════════════════════════════════════════════════════════════

namespace Free

theorem other {ahead : List NfcReaderRequest} (h : Free adapter past n ahead self)
    (ha : (action == .serve) = false) : Free adapter past n ahead (self.step adapter action) := by
  obtain ⟨hs,hp,hq⟩ := ReaderSystem.step_other adapter self ha
  have hm := ReaderSystem.step_moved adapter self action
  exact ⟨h.follows.moved hm,h.since.trans hm.suffix,hs.trans h.serve,h.queue.trans hq,hp ▸ h.polls⟩

/-- The thread takes the request at the head of the queue. -/
theorem turn (h : Free adapter past n (request :: rest) self) (hn : n ≤ m)
    (hdue : .cancelled request ∈ past ∨ adapter.poll m request ≠ none) :
    Busy adapter past m request rest (self.serveStep adapter) := by
  have hm := ReaderSystem.serveStep_moved adapter self
  obtain ⟨more,hq⟩ := h.queue
  cases hrecv : self.channel.recv? with
  | none =>
    rw [Channel.recv?_eq_none.mp hrecv] at hq
    cases hq
  | some taken =>
    obtain ⟨head,channel⟩ := taken
    obtain ⟨hqueue,_⟩ := Channel.recv?_eq_some.mp hrecv
    rw [← hq,List.cons_append] at hqueue
    obtain ⟨rfl,hrest⟩ := List.cons.inj hqueue
    have hstep : self.serveStep adapter = { self with
        channel
        serve := ReaderSystem.arm request
        trace := .dequeued request :: self.trace } := by
      simp only [ReaderSystem.serveStep,h.serve,hrecv]
    rw [hstep] at hm ⊢
    exact ⟨h.follows.moved hm,h.since.trans hm.suffix,⟨none,arm_current request⟩,
      hrest ▸ List.prefix_append _ _,
      hdue.imp_left fun hc => List.mem_cons_of_mem _ (h.since.subset hc),
      Nat.le_succ_of_le (h.polls.trans hn),fun _ => h.polls.trans hn⟩

end Free

/-- The call of the adapter a request waits for at most. -/
theorem exists_call (hdue : adapter.Responsive request ∨ .cancelled request ∈ past) (n : ℕ) :
    ∃ m, n ≤ m ∧ (.cancelled request ∈ past ∨ adapter.poll m request ≠ none) := by
  rcases hdue with hr | hc
  · obtain ⟨m,hn,hm⟩ := hr n
    exact ⟨m,hn,.inr hm⟩
  · exact ⟨n,Nat.le_refl n,.inl hc⟩

/-- After a request come the ones behind it. -/
theorem Busy.leads_all {k : ℕ}
    (hrest : Leads (ReaderSystem.step adapter) (· == .serve) k (Free adapter past (m + 1) rest)
      (fun reader => ∀ r ∈ rest, Settled r reader)) (request : NfcReaderRequest) :
    Leads (ReaderSystem.step adapter) (· == .serve) (2 * m + 4 + k)
      (Busy adapter past m request rest)
      (fun reader => ∀ r ∈ request :: rest, Settled r reader) := by
  refine ((Busy.leads adapter past m request rest).trans
    (hrest.frame (Settled.step request))).trans (.refl ?_)
  rintro reader ⟨hsettled,hfirst⟩ r hr
  rcases List.mem_cons.mp hr with rfl | hr
  · exact hfirst
  · exact hsettled r hr

/-- A bounded number of steps gets the thread through the requests at the head of the
queue. -/
theorem Free.leads {ahead : List NfcReaderRequest}
    (hdue : ∀ request ∈ ahead, adapter.Responsive request ∨ .cancelled request ∈ past) (n : ℕ) :
    ∃ k, Leads (ReaderSystem.step adapter) (· == .serve) k (Free adapter past n ahead)
      (fun reader => ∀ request ∈ ahead, Settled request reader) := by
  induction ahead generalizing n with
  | nil => exact ⟨0,.refl fun _ _ => by simp⟩
  | cons request rest ih =>
    obtain ⟨m,hn,hm⟩ := exists_call (hdue request List.mem_cons_self) n
    have htake : Leads (ReaderSystem.step adapter) (· == .serve) 1
        (Free adapter past n (request :: rest)) (Busy adapter past m request rest) := by
      refine .of_rank (fun _ => 1) (fun _ _ => Nat.one_pos) (fun _ _ => Nat.le_refl 1) ?_
        (fun self action h ha => ⟨h.other ha,Nat.le_refl 1⟩)
      intro self action h ha
      rw [beq_iff_eq] at ha
      subst ha
      exact .inl (h.turn hn hm)
    obtain ⟨k,hrest⟩ := ih (fun r hr => hdue r (List.mem_cons_of_mem _ hr)) (m + 1)
    exact ⟨_,htake.trans (Busy.leads_all hrest request)⟩

end Busy

/-- From wherever the thread is, a bounded number of its steps serves the requests at the
head of the line. -/
theorem Follows.served (h : Follows adapter self) {ahead : List NfcReaderRequest}
    (hahead : ahead <+: self.line)
    (hdue : ∀ request ∈ ahead, adapter.Responsive request ∨ .cancelled request ∈ self.trace) :
    ∃ (k : ℕ) (P : ReaderSystem NfcUid → Prop), P self ∧
      Leads (ReaderSystem.step adapter) (· == .serve) k P
        (fun reader => ∀ request ∈ ahead, Settled request reader) := by
  rw [ReaderSystem.line] at hahead
  cases hc : self.serve.current with
  | none =>
    rw [hc] at hahead
    cases hserve : self.serve with
    | receiving =>
      obtain ⟨k,hleads⟩ := Free.leads hdue self.polls
      exact ⟨k,_,⟨h,List.suffix_rfl,hserve,hahead,Nat.le_refl _⟩,hleads⟩
    | returned =>
      rw [(h.closed hserve).2.2] at hahead
      obtain rfl : ahead = [] := List.prefix_nil.mp hahead
      exact ⟨0,fun _ => True,trivial,.refl fun _ _ => by simp⟩
    | _ =>
      rw [hserve] at hc
      cases hc
  | some taken =>
    obtain ⟨request,result⟩ := taken
    rw [hc] at hahead
    cases ahead with
    | nil => exact ⟨0,fun _ => True,trivial,.refl fun _ _ => by simp⟩
    | cons first rest =>
      obtain ⟨rfl,hrest⟩ := List.cons_prefix_cons.mp hahead
      obtain ⟨m,hn,hm⟩ := exists_call (hdue first List.mem_cons_self) self.polls
      obtain ⟨k,hleads⟩ := Free.leads (fun r hr => hdue r (List.mem_cons_of_mem _ hr)) (m + 1)
      exact ⟨_,_,⟨h,List.suffix_rfl,⟨result,hc⟩,hrest,hm,Nat.le_succ_of_le hn,fun _ => hn⟩,
        Busy.leads_all hleads first⟩

namespace ReaderSystem

/-- From every moment of a run, and whatever callers do from there on: there is a number of
steps of the thread after which the requests at the head of the line have their answers,
unless they were cancelled. It is asked of each of these requests that the adapter has a
result for it again and again, or that it was cancelled. -/
theorem served_within (adapter : Adapter NfcUid) (actions : List ReaderAction)
    (ahead : List NfcReaderRequest) (hahead : ahead <+: (spawn.run adapter actions).line)
    (hdue : ∀ request ∈ ahead, adapter.Responsive request ∨
      .cancelled request ∈ (spawn.run adapter actions).trace) :
    ∃ k, ∀ more : List ReaderAction, k ≤ more.countP (· == .serve) →
      ∀ request ∈ ahead, Settled request ((spawn.run adapter actions).run adapter more) := by
  obtain ⟨k,P,hP,hleads⟩ := (Follows.spawn.run actions).served hahead hdue
  refine ⟨k,fun more hk => ?_⟩
  exact hleads.lasting (fun reader action h r hr => Settled.step r reader action (h r hr)) hP hk

/-- An adapter that finds a card at its fourth call. -/
def lateCard : Adapter ℕ where
  selectTarget n := if n < 3 then none else some 7
  checkForRelease _ := false
  readNdefText _ := .error "no tag"

/-- Two waits for a card, the first of them cancelled while it is served. -/
theorem served_within_late :
    let reader := spawn.run lateCard
      [.call .waitForCard,.accept 0,.call .waitForCard,.accept 1,.serve,.serve,.cancel 0]
    reader.line = [⟨.waitForCard,0⟩,⟨.waitForCard,1⟩] ∧
    (∃ k, ∀ more : List ReaderAction, k ≤ more.countP (· == .serve) →
      Settled ⟨.waitForCard,1⟩ (reader.run lateCard more)) ∧
    (reader.run lateCard (List.replicate 10 .serve ++ [.wake 1])).roundtrips =
      [⟨.waitForCard,.cancelled⟩,⟨.waitForCard,.returned (.card 7)⟩] := by
  intro reader
  have hline : reader.line = [⟨.waitForCard,0⟩,⟨.waitForCard,1⟩] := by decide +kernel
  have hdue : ∀ request ∈ reader.line, lateCard.Responsive request ∨
      .cancelled request ∈ reader.trace := by
    intro request hr
    simp only [hline,List.mem_cons,List.not_mem_nil,or_false] at hr
    rcases hr with rfl | rfl
    · exact .inr (by decide +kernel)
    · refine .inl fun n => ⟨n + 3,Nat.le_add_right n 3,?_⟩
      simp [Adapter.poll,lateCard]
  obtain ⟨k,hk⟩ := served_within lateCard _ reader.line (List.prefix_refl _) hdue
  exact ⟨hline,⟨k,fun more hm => hk more hm _ (by simp [hline])⟩,by decide +kernel⟩

end ReaderSystem

end BloopClient.Nfc

import BloopClient.Nfc.Reader
import BloopClient.Tracelib.Table

/-!
# Cancelled waits

The thread of the reader keeps to the rules of a server that takes requests one by
one, whatever callers do: its log is lawful, and shows where the thread and the
calls are. A call that is cancelled gets no reply and costs at most one more poll;
no other request notices.
-/

namespace BloopClient.Nfc
open Tracelib

variable {NfcUid : Type} {adapter : Adapter NfcUid} {self reader : ReaderSystem NfcUid}

/-- The request the thread works on, with the reply there is for it. -/
def Serve.current : Serve NfcUid → Option (NfcReaderRequest × Option (Reply NfcUid))
  | .receiving => none
  | .checking request => some (request,none)
  | .polling request => some (request,none)
  | .sending request reply => some (request,some reply)
  | .returned => none

theorem arm_current (request : NfcReaderRequest) :
    (ReaderSystem.arm request : Serve NfcUid).current = some (request,none) := by
  unfold ReaderSystem.arm
  split <;> rfl

theorem eq_of_arm {request request' : NfcReaderRequest}
    (h : (ReaderSystem.arm request : Serve NfcUid) = .polling request') : request' = request := by
  unfold ReaderSystem.arm at h
  split at h <;> cases h
  rfl

-- ════════════════════════════════════════════════════════════════════════
-- The calls in the log
-- ════════════════════════════════════════════════════════════════════════

/-- What the log tells about the call of a number, by the stage the call is at. -/
def Stands (t : List (ServiceEvent NfcReaderRequest (Reply NfcUid))) (i : ℕ)
    (r : Roundtrip NfcUid) : Prop :=
  match r.stage with
  | .sending => ⟨r.operation,i⟩ ∉ Service.submitted t ∧ .cancelled ⟨r.operation,i⟩ ∉ t
  | .waiting => .cancelled ⟨r.operation,i⟩ ∉ t
  | .replied reply => .answered ⟨r.operation,i⟩ reply ∈ t ∧ .cancelled ⟨r.operation,i⟩ ∉ t
  | .returned reply => .answered ⟨r.operation,i⟩ reply ∈ t ∧ .cancelled ⟨r.operation,i⟩ ∉ t
  | .cancelled => .cancelled ⟨r.operation,i⟩ ∈ t

/-- The log tells about each call, and about no others. -/
structure Calls (roundtrips : List (Roundtrip NfcUid))
    (t : List (ServiceEvent NfcReaderRequest (Reply NfcUid))) : Prop where
  stands : ∀ {i r}, roundtrips[i]? = some r → Stands t i r
  known : ∀ {request}, request ∈ Service.submitted t ∨ .cancelled request ∈ t →
    ∃ stage, roundtrips[request.response]? = some ⟨request.operation,stage⟩

section Log

variable {roundtrips : List (Roundtrip NfcUid)} {operation : Operation} {i : ℕ}
  {t t' : List (ServiceEvent NfcReaderRequest (Reply NfcUid))} {request : NfcReaderRequest}

/-- Only submitting and cancelling its request can say something else about a call. -/
theorem Stands.cons {r : Roundtrip NfcUid} {e : ServiceEvent NfcReaderRequest (Reply NfcUid)}
    (h : Stands t i r) (hs : e ≠ .submitted ⟨r.operation,i⟩)
    (hc : e ≠ .cancelled ⟨r.operation,i⟩) : Stands (e :: t) i r := by
  have hkeep : .cancelled ⟨r.operation,i⟩ ∉ t → .cancelled ⟨r.operation,i⟩ ∉ e :: t := by
    exact List.not_mem_cons_of_ne_of_not_mem hc.symm
  obtain ⟨operation,stage⟩ := r
  cases stage with
  | sending =>
    refine ⟨?_,hkeep h.2⟩
    rw [Service.mem_submitted_cons,not_or]
    exact ⟨h.1,hs⟩
  | waiting => exact hkeep h
  | replied reply => exact ⟨List.mem_cons_of_mem _ h.1,hkeep h.2⟩
  | returned reply => exact ⟨List.mem_cons_of_mem _ h.1,hkeep h.2⟩
  | cancelled => exact List.mem_cons_of_mem _ h

/-- Only submitting and cancelling tell about a call the log did not tell about. -/
theorem told_cons {e : ServiceEvent NfcReaderRequest (Reply NfcUid)}
    (h : request ∈ Service.submitted (e :: t) ∨ .cancelled request ∈ e :: t) :
    (e = .submitted request ∨ e = .cancelled request) ∨
      request ∈ Service.submitted t ∨ .cancelled request ∈ t := by
  rcases h with hm | hm
  · rcases Service.mem_submitted_cons.mp hm with hm | he
    · exact .inr (.inl hm)
    · exact .inl (.inl he)
  · rcases List.mem_cons.mp hm with he | hm
    · exact .inl (.inr he.symm)
    · exact .inr (.inr hm)

namespace Calls

/-- What the thread does says nothing else about calls. -/
theorem cons (h : Calls roundtrips t) {e : ServiceEvent NfcReaderRequest (Reply NfcUid)}
    (hs : ∀ request, e ≠ .submitted request) (hc : ∀ request, e ≠ .cancelled request) :
    Calls roundtrips (e :: t) where
  stands hi := (h.stands hi).cons (hs _) (hc _)
  known := by
    intro request hm
    rcases told_cons hm with (he | he) | hm
    · exact absurd he (hs request)
    · exact absurd he (hc request)
    · exact h.known hm

theorem called (h : Calls roundtrips t) (operation : Operation) :
    Calls (roundtrips ++ [⟨operation,.sending⟩]) t := by
  constructor
  · intro i r hi
    rcases getElem?_concat_cases hi with ⟨rfl,rfl⟩ | hi
    · -- its number is new, so the log cannot tell about it
      refine not_or.mp fun hm => ?_
      obtain ⟨stage,hi⟩ := h.known hm
      exact absurd (List.getElem?_eq_some_iff.mp hi).1 (Nat.lt_irrefl _)
    · exact h.stands hi
  · intro request hm
    obtain ⟨stage,hi⟩ := h.known hm
    exact ⟨stage,getElem?_concat_of_some hi⟩

/-- A call moves on to another stage. -/
theorem set {old new : CallStage NfcUid} (h : Calls roundtrips t)
    (hi : roundtrips[i]? = some ⟨operation,old⟩) (hthis : Stands t' i ⟨operation,new⟩)
    (hothers : ∀ {j r}, j ≠ i → Stands t j r → Stands t' j r)
    (hknown : ∀ {request}, request ∈ Service.submitted t' ∨ .cancelled request ∈ t' →
      request = ⟨operation,i⟩ ∨ request ∈ Service.submitted t ∨ .cancelled request ∈ t) :
    Calls (roundtrips.set i ⟨operation,new⟩) t' := by
  constructor
  · intro j r hj
    rcases getElem?_set_cases hj with ⟨rfl,rfl⟩ | ⟨hji,hj⟩
    · exact hthis
    · exact hothers hji (h.stands hj)
  · intro request hm
    by_cases hr : request.response = i
    · rw [hr,getElem?_set_of_some hi]
      rcases hknown hm with rfl | hm
      · exact ⟨new,rfl⟩
      · obtain ⟨stage,hj⟩ := h.known hm
        rw [hr,hi] at hj
        cases hj
        exact ⟨new,rfl⟩
    · rcases hknown hm with rfl | hm
      · exact absurd rfl hr
      · obtain ⟨stage,hj⟩ := h.known hm
        refine ⟨stage,?_⟩
        rw [List.getElem?_set_ne (Ne.symm hr)]
        exact hj

theorem accepted (h : Calls roundtrips t) (hi : roundtrips[i]? = some ⟨operation,.sending⟩) :
    Calls (roundtrips.set i ⟨operation,.waiting⟩) (.submitted ⟨operation,i⟩ :: t) := by
  refine h.set hi ?_ ?_ ?_
  · exact List.not_mem_cons_of_ne_of_not_mem nofun (h.stands hi).2
  · intro j r hj hr
    refine hr.cons ?_ nofun
    rintro ⟨⟩
    exact hj rfl
  · intro request hm
    refine (told_cons hm).imp_left ?_
    rintro (⟨⟨⟩⟩ | ⟨⟨⟩⟩)
    rfl

theorem cancelled {stage : CallStage NfcUid} (h : Calls roundtrips t)
    (hi : roundtrips[i]? = some ⟨operation,stage⟩) :
    Calls (roundtrips.set i ⟨operation,.cancelled⟩) (.cancelled ⟨operation,i⟩ :: t) := by
  refine h.set hi List.mem_cons_self ?_ ?_
  · intro j r hj hr
    refine hr.cons nofun ?_
    rintro ⟨⟩
    exact hj rfl
  · intro request hm
    refine (told_cons hm).imp_left ?_
    rintro (⟨⟨⟩⟩ | ⟨⟨⟩⟩)
    rfl

theorem woken {reply : Reply NfcUid} (h : Calls roundtrips t)
    (hi : roundtrips[i]? = some ⟨operation,.replied reply⟩) :
    Calls (roundtrips.set i ⟨operation,.returned reply⟩) t := by
  have hs : Stands t i ⟨operation,.replied reply⟩ := h.stands hi
  exact h.set hi hs (fun _ hr => hr) .inr

theorem answered {reply : Reply NfcUid} (h : Calls roundtrips t)
    (hi : roundtrips[request.response]? = some ⟨request.operation,.waiting⟩) :
    Calls (roundtrips.set request.response ⟨request.operation,.replied reply⟩)
      (.answered request reply :: t) := by
  refine h.set hi ⟨List.mem_cons_self,?_⟩ (fun _ hr => hr.cons nofun nofun) ?_
  · exact List.not_mem_cons_of_ne_of_not_mem nofun (h.stands hi)
  · intro request hm
    refine (told_cons hm).imp_left ?_
    rintro (⟨⟨⟩⟩ | ⟨⟨⟩⟩)

/-- A call is cancelled just if the log says so. -/
theorem cancelled_iff (h : Calls roundtrips t) : .cancelled request ∈ t ↔
    roundtrips[request.response]? = some ⟨request.operation,.cancelled⟩ := by
  constructor
  · intro hm
    obtain ⟨stage,hi⟩ := h.known (.inr hm)
    have hs := h.stands hi
    cases stage with
    | sending => exact absurd hm hs.2
    | waiting => exact absurd hm hs
    | replied reply => exact absurd hm hs.2
    | returned reply => exact absurd hm hs.2
    | cancelled => exact hi
  · exact h.stands

end Calls

end Log

-- ════════════════════════════════════════════════════════════════════════
-- The reader follows the rules
-- ════════════════════════════════════════════════════════════════════════

/-- The log is lawful, and the reader is where the log says it is. -/
structure Follows (adapter : Adapter NfcUid) (reader : ReaderSystem NfcUid) : Prop where
  lawful : Always (Service.Lawful adapter.poll) reader.trace
  taken : reader.channel.taken = Service.dequeued reader.trace
  sent : reader.channel.sent = Service.submitted reader.trace
  serving : Service.serving reader.trace = reader.serve.current
  polls : reader.polls = Service.polls reader.trace
  prompt : ∀ {request}, reader.serve = .polling request → ¬ Service.Late request reader.trace
  calls : Calls reader.roundtrips reader.trace
  closed : reader.serve = .returned → reader.handles = 0 ∧
    (∀ r ∈ reader.roundtrips, r.stage.isPending = false) ∧ reader.channel.queue = []

namespace Follows

variable {request : NfcReaderRequest} {reply : Reply NfcUid}

theorem spawn : Follows adapter (ReaderSystem.spawn : ReaderSystem NfcUid) :=
  ⟨trivial,rfl,rfl,rfl,rfl,nofun,⟨nofun,nofun⟩,nofun⟩

theorem mem_submitted (h : Follows adapter self) {result : Option (Reply NfcUid)}
    (hs : self.serve.current = some (request,result)) :
    request ∈ Service.submitted self.trace := by
  rw [← h.serving] at hs
  exact (Service.dequeued_isPrefix h.lawful).subset
    (Service.mem_dequeued_of_serving h.lawful hs)

/-- The request in service has a call. -/
theorem exists_stage (h : Follows adapter self) {result : Option (Reply NfcUid)}
    (hs : self.serve.current = some (request,result)) :
    ∃ stage, self.roundtrips[request.response]? = some ⟨request.operation,stage⟩ :=
  h.calls.known (.inl (h.mem_submitted hs))

theorem isClosed_iff (h : Follows adapter self) {result : Option (Reply NfcUid)}
    (hs : self.serve.current = some (request,result)) :
    self.isClosed request = true ↔ .cancelled request ∈ self.trace := by
  obtain ⟨stage,hi⟩ := h.exists_stage hs
  rw [h.calls.cancelled_iff,ReaderSystem.isClosed,hi]
  cases stage <;> simp

/-- A reply does not arrive only if the call was cancelled. -/
theorem cancelled_of_lost (h : Follows adapter self)
    (hs : self.serve.current = some (request,some reply))
    (hi : ∀ operation, self.roundtrips[request.response]? ≠ some ⟨operation,.waiting⟩) :
    .cancelled request ∈ self.trace := by
  obtain ⟨stage,hstage⟩ := h.exists_stage hs
  have hstands := h.calls.stands hstage
  have hfresh : ∀ reply, .answered request reply ∉ self.trace := fun reply =>
    Service.not_answered_of_serving h.lawful (h.serving.trans hs)
  cases stage with
  | sending => exact absurd (h.mem_submitted hs) hstands.1
  | waiting => exact absurd hstage (hi request.operation)
  | replied reply' => exact absurd hstands.1 (hfresh reply')
  | returned reply' => exact absurd hstands.1 (hfresh reply')
  | cancelled => exact hstands

/-- A late poll has been made by the thread in an earlier step. -/
theorem not_late_cons {e : ServiceEvent NfcReaderRequest (Reply NfcUid)}
    (h : ¬ Service.Late request self.trace) (he : ∀ result, e ≠ .polled request result) :
    ¬ Service.Late request (e :: self.trace) := by
  intro hl
  rcases Service.late_cons hl with hl | ⟨result,hp,_⟩
  · exact h hl
  · exact he result hp

theorem dequeued (h : Follows adapter self) {channel : Channel NfcReaderRequest 4}
    (hs : self.serve = .receiving) (hc : self.channel.recv? = some (request,channel)) :
    Follows adapter { self with
      channel
      serve := ReaderSystem.arm request
      trace := .dequeued request :: self.trace } := by
  obtain ⟨hq,ht⟩ := Channel.recv?_eq_some.mp hc
  have hnext : Service.dequeued self.trace ++ [request] <+: Service.submitted self.trace := by
    rw [← h.taken,← h.sent,Channel.sent,hq]
    exact ⟨channel.queue,by simp⟩
  have hserving : Service.serving self.trace = none := by rw [h.serving,hs]; rfl
  constructor
  · exact ⟨⟨hserving,hnext⟩,h.lawful⟩
  · exact ht.trans (congrArg (· ++ [request]) h.taken)
  · show channel.sent = _
    rw [Channel.sent,ht,List.append_assoc,List.singleton_append,← hq]
    exact h.sent
  · exact (arm_current request).symm
  · exact h.polls
  · -- it was not polled for before it was dequeued
    intro request' hs'
    cases eq_of_arm hs'
    refine not_late_cons ?_ nofun
    intro hl
    obtain ⟨result,hp⟩ := Service.polled_of_late hl
    exact Service.not_mem_dequeued h.lawful hnext (Service.mem_dequeued_of_polled h.lawful hp)
  · exact h.calls.cons nofun nofun
  · intro hs'
    have hcur : (ReaderSystem.arm request : Serve NfcUid).current = some (request,none) :=
      arm_current request
    rw [show ReaderSystem.arm request = .returned from hs'] at hcur
    cases hcur

theorem accepted (h : Follows adapter self) {operation : Operation} {i : ℕ}
    {channel : Channel NfcReaderRequest 4}
    (hi : self.roundtrips[i]? = some ⟨operation,.sending⟩)
    (hc : self.channel.send? ⟨operation,i⟩ = some channel) :
    Follows adapter { self with
      channel
      roundtrips := self.roundtrips.set i ⟨operation,.waiting⟩
      trace := .submitted ⟨operation,i⟩ :: self.trace } := by
  obtain ⟨_,ht,hq⟩ := Channel.send?_eq_some.mp hc
  refine ⟨⟨(h.calls.stands hi).1,h.lawful⟩,ht.trans h.taken,?_,h.serving,h.polls,
    fun hs => not_late_cons (h.prompt hs) nofun,h.calls.accepted hi,?_⟩
  · show channel.sent = Service.submitted self.trace ++ _
    rw [← h.sent,Channel.sent,Channel.sent,ht,hq,List.append_assoc]
  · intro hs
    cases (h.closed hs).2.1 _ (List.mem_of_getElem? hi)

theorem cancelled (h : Follows adapter self) {operation : Operation} {stage : CallStage NfcUid}
    {i : ℕ} (hi : self.roundtrips[i]? = some ⟨operation,stage⟩) (hp : stage.isPending = true) :
    Follows adapter { self with
      roundtrips := self.roundtrips.set i ⟨operation,.cancelled⟩
      trace := .cancelled ⟨operation,i⟩ :: self.trace } := by
  refine ⟨⟨trivial,h.lawful⟩,h.taken,h.sent,h.serving,h.polls,
    fun hs => not_late_cons (h.prompt hs) nofun,h.calls.cancelled hi,?_⟩
  intro hs
  have hover : stage.isPending = false := (h.closed hs).2.1 _ (List.mem_of_getElem? hi)
  rw [hp] at hover
  cases hover

/-- The thread finds that the caller is still there. A poll is not late then. -/
theorem checked (h : Follows adapter self) (hs : self.serve = .checking request)
    (hc : self.isClosed request = false) :
    Follows adapter { self with serve := .polling request } := by
  have hcurrent : self.serve.current = some (request,none) := congrArg Serve.current hs
  refine ⟨h.lawful,h.taken,h.sent,h.serving.trans hcurrent,h.polls,?_,h.calls,nofun⟩
  intro request' hs' hl
  cases hs'
  have hclosed := (h.isClosed_iff hcurrent).mpr (Service.mem_of_late hl)
  rw [hc] at hclosed
  cases hclosed

/-- The thread calls the adapter, and goes on with what it got. -/
theorem polled (h : Follows adapter self) {result : Option (Reply NfcUid)}
    {next : Serve NfcUid} (hs : self.serve = .polling request)
    (hr : adapter.poll self.polls request = result) (hnext : next.current = some (request,result))
    (hchecks : ∀ request, next ≠ .polling request) :
    Follows adapter { self with
      serve := next
      polls := self.polls + 1
      trace := .polled request result :: self.trace } := by
  have hcurrent : self.serve.current = some (request,none) := congrArg Serve.current hs
  rw [h.polls] at hr
  refine ⟨⟨⟨h.serving.trans hcurrent,h.prompt hs,hr.symm⟩,h.lawful⟩,h.taken,h.sent,hnext.symm,
    congrArg (· + 1) h.polls,fun hs' => absurd hs' (hchecks _),h.calls.cons nofun nofun,?_⟩
  intro hs'
  rw [show next = .returned from hs'] at hnext
  cases hnext

theorem answered (h : Follows adapter self) {operation : Operation}
    (hs : self.serve = .sending request reply)
    (hi : self.roundtrips[request.response]? = some ⟨operation,.waiting⟩) :
    Follows adapter { self with
      roundtrips := self.roundtrips.set request.response ⟨operation,.replied reply⟩
      serve := .receiving
      trace := .answered request reply :: self.trace } := by
  have hcurrent : self.serve.current = some (request,some reply) := congrArg Serve.current hs
  obtain ⟨stage,hstage⟩ := h.exists_stage hcurrent
  rw [hi] at hstage
  cases hstage
  exact ⟨⟨⟨h.serving.trans hcurrent,h.calls.stands hi⟩,h.lawful⟩,h.taken,h.sent,rfl,h.polls,
    nofun,h.calls.answered hi,nofun⟩

/-- Whatever happens next, the reader goes on following the rules. -/
theorem moved (h : Follows adapter self) (hm : ReaderSystem.Moved adapter self reader) :
    Follows adapter reader := by
  cases hm with
  | idle => exact h
  | handled hn =>
    refine ⟨h.lawful,h.taken,h.sent,h.serving,h.polls,h.prompt,h.calls,?_⟩
    intro hs
    exact ⟨hn (h.closed hs).1,(h.closed hs).2⟩
  | called hh =>
    refine ⟨h.lawful,h.taken,h.sent,h.serving,h.polls,h.prompt,h.calls.called _,?_⟩
    intro hs
    exact absurd (h.closed hs).1 hh
  | accepted hi hc => exact h.accepted hi hc
  | cancelled hi hp => exact h.cancelled hi hp
  | woken hi =>
    refine ⟨h.lawful,h.taken,h.sent,h.serving,h.polls,h.prompt,h.calls.woken hi,?_⟩
    intro hs
    cases (h.closed hs).2.1 _ (List.mem_of_getElem? hi)
  | dequeued hs hc => exact h.dequeued hs hc
  | closed hs hc hh hp =>
    have hserving := h.serving
    rw [hs] at hserving
    exact ⟨h.lawful,h.taken,h.sent,hserving,h.polls,nofun,h.calls,
      fun _ => ⟨hh,hp,Channel.recv?_eq_none.mp hc⟩⟩
  | @abandoned request hs hc =>
    have hcurrent : self.serve.current = some (request,none) := congrArg Serve.current hs
    exact ⟨⟨⟨h.serving.trans hcurrent,(h.isClosed_iff hcurrent).mp hc⟩,h.lawful⟩,h.taken,h.sent,
      rfl,h.polls,nofun,h.calls.cons nofun nofun,nofun⟩
  | checked hs hc => exact h.checked hs hc
  | missed hs hr => exact h.polled hs hr rfl nofun
  | hit hs hr => exact h.polled hs hr rfl nofun
  | answered hs hi => exact h.answered hs hi
  | @lost request reply hs hi =>
    have hcurrent : self.serve.current = some (request,some reply) := congrArg Serve.current hs
    exact ⟨⟨⟨⟨reply,h.serving.trans hcurrent⟩,h.cancelled_of_lost hcurrent hi⟩,h.lawful⟩,h.taken,
      h.sent,rfl,h.polls,nofun,h.calls.cons nofun nofun,nofun⟩

theorem run (h : Follows adapter self) (actions : List ReaderAction) :
    Follows adapter (self.run adapter actions) :=
  ReaderSystem.run_induction h (fun _ _ h hm => h.moved hm) actions

end Follows

-- ════════════════════════════════════════════════════════════════════════
-- What callers can rely on
-- ════════════════════════════════════════════════════════════════════════

/-- Requests are dequeued in the order they were submitted in, and none is dropped from
the queue, whatever happens next. A request that was dequeued is in service, or got one
answer, or was cancelled before its service ended. An answer is the result of the call
of the adapter that was made for the request, with nothing else dequeued in between. A
cancelled call gets no answer and at most one more poll, and its cancellation leaves
everything else as it is. -/
structure CancelSafe (adapter : Adapter NfcUid) (reader : ReaderSystem NfcUid) : Prop where
  order : Service.dequeued reader.trace ++ reader.channel.queue = Service.submitted reader.trace
  drained : reader.serve = .returned → reader.channel.queue = []
  queued : ∀ request ∈ reader.channel.queue, ∀ actions,
    request ∈ (reader.run adapter actions).channel.queue ∨
      request ∈ Service.dequeued (reader.run adapter actions).trace
  processed : ∀ request ∈ Service.dequeued reader.trace,
    (∃ result, reader.serve.current = some (request,result)) ∨
      reader.trace.countP (Service.isAnswer request) = 1 ∨
      ∃ past, (.abandoned request :: past <:+ reader.trace ∨
        .lost request :: past <:+ reader.trace) ∧ .cancelled request ∈ past
  once : ∀ request, reader.trace.countP (Service.isAnswer request) ≤ 1
  completes : ∀ request reply, reader.serve = .polling request →
    adapter.poll reader.polls request = some reply →
    reader.roundtrips[request.response]? = some ⟨request.operation,.waiting⟩ →
    (reader.run adapter [.serve,.serve]).trace =
      .answered request reply :: .polled request (some reply) :: reader.trace
  own : ∀ request reply past, .answered request reply :: past <:+ reader.trace →
    .cancelled request ∉ past ∧
      ∃ window before, past = window ++ .dequeued request :: before ∧
        (∀ other, .dequeued other ∉ window) ∧
        ∃ later earlier, window = later ++ .polled request (some reply) :: earlier ∧
          adapter.poll (Service.polls (earlier ++ .dequeued request :: before)) request =
            some reply
  returned : ∀ {i operation reply},
    reader.roundtrips[i]? = some ⟨operation,.returned reply⟩ →
    .answered ⟨operation,i⟩ reply ∈ reader.trace
  quiet : ∀ request later past, reader.trace = later ++ .cancelled request :: past →
    (∀ reply, .answered request reply ∉ later) ∧ later.countP (Service.isPoll request) ≤ 1
  gone : ∀ request, .cancelled request ∈ reader.trace → ∀ actions,
    (reader.run adapter actions).roundtrips[request.response]? =
      some ⟨request.operation,.cancelled⟩
  frame : ∀ i, (reader.step adapter (.cancel i)).channel = reader.channel ∧
    (reader.step adapter (.cancel i)).serve = reader.serve ∧
    (reader.step adapter (.cancel i)).polls = reader.polls ∧
    ∀ j, j ≠ i → (reader.step adapter (.cancel i)).roundtrips[j]? = reader.roundtrips[j]?

namespace Follows

variable {request : NfcReaderRequest} {reply : Reply NfcUid}

/-- A request that is no longer in service got its answer or was cancelled. -/
theorem processed (h : Follows adapter self) (hm : request ∈ Service.dequeued self.trace) :
    (∃ result, self.serve.current = some (request,result)) ∨
      self.trace.countP (Service.isAnswer request) = 1 ∨
      ∃ past, (.abandoned request :: past <:+ self.trace ∨
        .lost request :: past <:+ self.trace) ∧ .cancelled request ∈ past := by
  rcases Service.ended_or_serving h.lawful hm with ⟨result,hs⟩ | ⟨reply,ha⟩ | ha | ha
  · exact .inl ⟨result,h.serving.symm.trans hs⟩
  · exact .inr (.inl (Service.countP_isAnswer_eq_one h.lawful ha))
  · obtain ⟨new,past,ht⟩ := List.append_of_mem ha
    have hsuffix : .abandoned request :: past <:+ self.trace := ⟨new,ht.symm⟩
    exact .inr (.inr ⟨past,.inl hsuffix,(h.lawful.of_suffix hsuffix).1.2⟩)
  · obtain ⟨new,past,ht⟩ := List.append_of_mem ha
    have hsuffix : .lost request :: past <:+ self.trace := ⟨new,ht.symm⟩
    exact .inr (.inr ⟨past,.inr hsuffix,(h.lawful.of_suffix hsuffix).1.2⟩)

/-- An answer comes out of the time its request was in service. -/
theorem own (h : Follows adapter self)
    {past : List (ServiceEvent NfcReaderRequest (Reply NfcUid))}
    (hp : .answered request reply :: past <:+ self.trace) : .cancelled request ∉ past ∧
      ∃ window before, past = window ++ .dequeued request :: before ∧
        (∀ other, .dequeued other ∉ window) ∧
        ∃ later earlier, window = later ++ .polled request (some reply) :: earlier ∧
          adapter.poll (Service.polls (earlier ++ .dequeued request :: before)) request =
            some reply := by
  obtain ⟨⟨hserving,hc⟩,hpast⟩ := h.lawful.of_suffix hp
  obtain ⟨window,before,ht,hw⟩ := Service.serving_window hpast hserving
  exact ⟨hc,window,before,ht,hw.alone,hw.result reply rfl⟩

end Follows

namespace ReaderSystem

theorem Moved.suffix (hm : Moved adapter self reader) : self.trace <:+ reader.trace := by
  cases hm <;> first
    | exact List.suffix_rfl
    | exact List.suffix_cons _ _

theorem run_suffix (adapter : Adapter NfcUid) (self : ReaderSystem NfcUid)
    (actions : List ReaderAction) :
    self.trace <:+ (self.run adapter actions).trace :=
  run_induction (P := fun reader => self.trace <:+ reader.trace) List.suffix_rfl
    (fun _ _ hs hm => hs.trans hm.suffix) actions

/-- Once the adapter has a result, the thread sends it in its next step. -/
theorem run_serve {request : NfcReaderRequest} {reply : Reply NfcUid}
    (hs : self.serve = .polling request) (hr : adapter.poll self.polls request = some reply)
    (hi : self.roundtrips[request.response]? = some ⟨request.operation,.waiting⟩) :
    (self.run adapter [.serve,.serve]).trace =
      .answered request reply :: .polled request (some reply) :: self.trace := by
  show ((self.serveStep adapter).serveStep adapter).trace = _
  have hfirst : self.serveStep adapter = { self with
      serve := .sending request reply
      polls := self.polls + 1
      trace := .polled request (some reply) :: self.trace } := by
    simp only [serveStep,hs,hr]
  rw [hfirst]
  simp only [serveStep,hi]

theorem cancel_frame (adapter : Adapter NfcUid) (self : ReaderSystem NfcUid) (i : ℕ) :
    (self.step adapter (.cancel i)).channel = self.channel ∧
      (self.step adapter (.cancel i)).serve = self.serve ∧
      (self.step adapter (.cancel i)).polls = self.polls ∧
      ∀ j, j ≠ i → (self.step adapter (.cancel i)).roundtrips[j]? = self.roundtrips[j]? := by
  dsimp only [step,cancel]
  split
  · split
    · exact ⟨rfl,rfl,rfl,fun j hj => List.getElem?_set_ne (Ne.symm hj)⟩
    · exact ⟨rfl,rfl,rfl,fun _ _ => rfl⟩
  · exact ⟨rfl,rfl,rfl,fun _ _ => rfl⟩

/-- For any calls and cancellations, on any handles and in any order, and whatever
the adapter does. -/
theorem reader_cancel_safe (adapter : Adapter NfcUid) (actions : List ReaderAction) :
    CancelSafe adapter (spawn.run adapter actions) := by
  have h : Follows adapter (spawn.run adapter actions) := Follows.spawn.run actions
  constructor
  · rw [← h.taken,← h.sent]
    rfl
  · exact fun hs => (h.closed hs).2.2
  · intro request hm more
    have hmore := h.run more
    have hsubmitted : request ∈ Service.submitted (spawn.run adapter actions).trace := by
      rw [← h.sent]
      exact List.mem_append_right _ hm
    have hlater := Service.mem_submitted_of_suffix (run_suffix adapter _ more) hsubmitted
    rw [← hmore.sent,Channel.sent,hmore.taken] at hlater
    exact (List.mem_append.mp hlater).symm
  · exact fun request hm => h.processed hm
  · exact Service.countP_isAnswer_le h.lawful
  · exact fun request reply => run_serve
  · exact fun request reply past => h.own
  · exact fun hi => (h.calls.stands hi).1
  · exact fun request later past => Service.quiet_of_cancelled h.lawful
  · intro request hm more
    have hmore := h.run more
    exact hmore.calls.cancelled_iff.mp ((run_suffix adapter _ more).subset hm)
  · exact cancel_frame adapter _

/-- A chip with a card on it, and a wait for it that is cancelled between the look at its
caller and the poll. The request behind it is answered. -/
theorem reader_cancel_safe_late :
    let adapter := Adapter.ofChip id fun _ => ⟨.ok 1,fun _ => .ok 7,.ok 1,.ok 1,hostileTag⟩
    let reader := spawn.run adapter [.clone,.call .waitForCard,.accept 0,.call .waitForCard,
      .accept 1,.serve,.serve,.cancel 0,.serve,.serve,.serve,.serve,.serve,.serve,.wake 1]
    reader.roundtrips = [⟨.waitForCard,.cancelled⟩,⟨.waitForCard,.returned (.card 7)⟩] ∧
    ∃ later past, reader.trace = later ++ .cancelled ⟨.waitForCard,0⟩ :: past ∧
      .polled ⟨.waitForCard,0⟩ (some (.card 7)) ∈ later ∧
      later.countP (Service.isPoll ⟨.waitForCard,0⟩) ≤ 1 ∧
      ∀ reply, .answered ⟨.waitForCard,0⟩ reply ∉ later := by
  intro adapter reader
  have hsplit : reader.trace = reader.trace.take 5 ++ .cancelled ⟨.waitForCard,0⟩ ::
      reader.trace.drop 6 := by decide +kernel
  obtain ⟨hquiet,hpolls⟩ := (reader_cancel_safe adapter _).quiet ⟨.waitForCard,0⟩ _ _ hsplit
  exact ⟨by decide +kernel,_,_,hsplit,by decide +kernel,hpolls,hquiet⟩

end ReaderSystem

end BloopClient.Nfc

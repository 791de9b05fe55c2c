import BloopClient.Loopback
import BloopClient.StatusHistory

/-!
# What a caller sees

The typed operations of a handle, over the answer the task gives on their oneshot.
Whether an error response is fatal is decided twice, by the task on the raw frame and
by the caller once the frame is decoded. The two agree: the connection is gone by the
time a caller hears of an error that costs it, and held at every other answer.
-/

namespace BloopClient
open Tracelib ClientTask

structure BloopAccepted (Record : Type) where
  achievements : List Record
  deriving DecidableEq, Repr

structure AudioData where
  data : List UInt8
  deriving DecidableEq, Repr

structure PreloadMismatch (DataHash Record : Type) where
  audioManifestHash : DataHash
  achievements : List Record
  deriving DecidableEq, Repr

/-- The result of a preload check. -/
inductive PreloadOutcome (DataHash Record : Type)
  | matched
  | mismatch (audioManifestHash : DataHash) (achievements : List Record)
  deriving DecidableEq, Repr

/-- The codec of the messages of a handle's operations. -/
structure Messages (NfcUid Uuid DataHash Record : Type) where
  encodeBloop : NfcUid → Except EncodeError RawMessage
  encodeRetrieveAudio : Uuid → Except EncodeError RawMessage
  encodePreloadCheck : Option DataHash → Except EncodeError RawMessage
  preloadMatchOpcode : UInt8
  decodeBloopAccepted : RawMessage → Except MessageSetError (BloopAccepted Record)
  decodeAudioData : RawMessage → Except MessageSetError AudioData
  decodePreloadMatch : RawMessage → Except MessageSetError Unit
  decodePreloadMismatch : RawMessage → Except MessageSetError (PreloadMismatch DataHash Record)

/-- A message of an extension, with its response. -/
structure Request (Message Response : Type) where
  encode : Message → Except EncodeError RawMessage
  decode : RawMessage → Except MessageSetError Response

section Operations

variable {NfcUid Uuid DataHash Record Message Response : Type} (p : Protocol)
  (messages : Messages NfcUid Uuid DataHash Record)
  (sendRequest : RawMessage → Except RequestError RawMessage)

/-- Asks the server to verify a scanned NFC UID. -/
def bloop (nfcUid : NfcUid) : Except RequestError (List Record) := do
  let raw ← sendRequest (← (messages.encodeBloop nfcUid).mapError .encode)
  (decodeResponse p messages.decodeBloopAccepted raw).map (·.achievements)

/-- Requests the audio data for an achievement. -/
def retrieveAudio (achievementId : Uuid) : Except RequestError (List UInt8) := do
  let raw ← sendRequest (← (messages.encodeRetrieveAudio achievementId).mapError .encode)
  (decodeResponse p messages.decodeAudioData raw).map (·.data)

/-- Asks the server whether the cached audio assets are up to date. -/
def preloadCheck (audioManifestHash : Option DataHash) :
    Except RequestError (PreloadOutcome DataHash Record) := do
  let raw ← sendRequest (← (messages.encodePreloadCheck audioManifestHash).mapError .encode)
  if raw.messageType = messages.preloadMatchOpcode then
    decodeResponse p messages.decodePreloadMatch raw
    return .matched
  (decodeResponse p messages.decodePreloadMismatch raw).map fun mismatch =>
    .mismatch mismatch.audioManifestHash mismatch.achievements

/-- Performs a typed custom request. -/
def custom (request : Request Message Response) (message : Message) :
    Except RequestError Response := do
  let raw ← sendRequest (← (request.encode message).mapError .encode)
  decodeResponse p request.decode raw

end Operations

/-- What `send_request` returns once its oneshot is answered. -/
def Answer.result : Answer → Except RequestError RawMessage
  | .ok raw => .ok raw
  | .error e => .error e

/-- The result tells the caller that the connection is lost. -/
def Severs {α : Type} (p : Protocol) (result : Except RequestError α) : Prop :=
  result = .error .disconnected ∨ ∃ e, result = .error (.error e) ∧ p.isFatal e = true

variable {α β : Type} {p : Protocol}

theorem not_severs_ok (a : α) : ¬ Severs p (.ok a : Except RequestError α) := by
  rintro (h | ⟨e,h,_⟩) <;> cases h

theorem severs_error_iff {error : RequestError} :
    Severs p (.error error : Except RequestError α) ↔
      error = .disconnected ∨ ∃ e, error = .error e ∧ p.isFatal e = true := by
  simp [Severs]

/-- What is done with a result that is no error does not matter. -/
theorem severs_map_iff (f : α → β) (result : Except RequestError α) :
    Severs p (result.map f) ↔ Severs p result := by
  cases result with
  | ok a => exact iff_of_false (not_severs_ok _) (not_severs_ok _)
  | error error => exact severs_error_iff.trans severs_error_iff.symm

/-- The caller is told of a lost connection just when the task takes the reply for
a fatal one. -/
theorem severs_decodeResponse (decode : RawMessage → Except MessageSetError α)
    (raw : RawMessage) : Severs p (decodeResponse p decode raw) ↔ p.fatalReply raw = true := by
  by_cases he : raw.messageType = p.errorOpcode
  · cases hd : p.decodeErrorResponse raw with
    | ok error => simp [decodeResponse,Protocol.fatalReply,he,hd,Severs]
    | error error => simp [decodeResponse,Protocol.fatalReply,he,hd,Severs]
  · have hfatal : p.fatalReply raw = false := by simp [Protocol.fatalReply,he]
    rw [decodeResponse,if_neg he,hfatal]
    split <;> simp [Severs]

/-- The task's own view of an answer that costs the connection. -/
def Answer.Severs (p : Protocol) : Answer → Prop
  | .ok raw => p.fatalReply raw = true
  | .error e => BloopClient.Severs p (.error e : Except RequestError Unit)

theorem severs_bind_iff {finish : RawMessage → Except RequestError α}
    (hfinish : ∀ raw, Severs p (finish raw) ↔ p.fatalReply raw = true) (answer : Answer) :
    Severs p (answer.result >>= finish) ↔ answer.Severs p := by
  cases answer with
  | ok raw => exact hfinish raw
  | error e => exact severs_error_iff.trans severs_error_iff.symm

section Operations

variable {NfcUid Uuid DataHash Record Message Response : Type}
  {messages : Messages NfcUid Uuid DataHash Record} {frame : RawMessage}

theorem severs_bloop {nfcUid : NfcUid} (hencode : messages.encodeBloop nfcUid = .ok frame)
    (answer : Answer) :
    Severs p (bloop p messages (fun _ => answer.result) nfcUid) ↔ answer.Severs p := by
  rw [bloop,hencode]
  exact severs_bind_iff (fun raw => (severs_map_iff _ _).trans (severs_decodeResponse _ raw)) answer

theorem severs_retrieveAudio {achievementId : Uuid}
    (hencode : messages.encodeRetrieveAudio achievementId = .ok frame) (answer : Answer) :
    Severs p (retrieveAudio p messages (fun _ => answer.result) achievementId) ↔
      answer.Severs p := by
  rw [retrieveAudio,hencode]
  exact severs_bind_iff (fun raw => (severs_map_iff _ _).trans (severs_decodeResponse _ raw)) answer

/-- The branch on the opcode in front of `decode_response` makes no difference. -/
theorem severs_preloadCheck {audioManifestHash : Option DataHash}
    (hencode : messages.encodePreloadCheck audioManifestHash = .ok frame) (answer : Answer) :
    Severs p (preloadCheck p messages (fun _ => answer.result) audioManifestHash) ↔
      answer.Severs p := by
  rw [preloadCheck,hencode]
  refine severs_bind_iff (fun raw => ?_) answer
  split
  · rw [← severs_decodeResponse messages.decodePreloadMatch raw]
    exact severs_map_iff (fun _ => PreloadOutcome.matched) _
  · exact (severs_map_iff _ _).trans (severs_decodeResponse _ raw)

theorem severs_custom {request : Request Message Response} {message : Message}
    (hencode : request.encode message = .ok frame) (answer : Answer) :
    Severs p (custom p (fun _ => answer.result) request message) ↔ answer.Severs p := by
  rw [custom,hencode]
  exact severs_bind_iff (fun raw => severs_decodeResponse _ raw) answer

end Operations

-- ════════════════════════════════════════════════════════════════════════
-- One answer for each request
-- ════════════════════════════════════════════════════════════════════════

/-- The event answers the oneshot. -/
def Event.answers (response : ℕ) : Event → Bool
  | .answered response' _ => response' = response
  | _ => false

/-- The event takes a request with this oneshot from the queue. -/
def Event.dequeues (response : ℕ) : Event → Bool
  | .received (.request _ response') => response' = response
  | _ => false

/-- The event neither takes a request from the queue nor answers one. -/
def Event.Aside (e : Event) : Prop := ∀ response, e.answers response = false ∧
  e.dequeues response = false

/-- Every oneshot has been answered as often as it came out of the queue. -/
def Balanced (t : Trace) : Prop :=
  ∀ response, t.countP (Event.answers response) = t.countP (Event.dequeues response)

variable {env : Env} {t t' : Trace} {self task : ClientTask}

theorem Event.OfAttempt.aside {e : Event} (h : e.OfAttempt) : e.Aside := by
  cases e <;> first
    | exact fun _ => ⟨rfl,rfl⟩
    | exact absurd h id

theorem Balanced.cons {e : Event} (h : Balanced t) (he : e.Aside) : Balanced (e :: t) := by
  intro response
  rw [List.countP_cons_of_neg (by simp [he response]),
    List.countP_cons_of_neg (by simp [he response])]
  exact h response

theorem Balanced.extend (h : Balanced t) (hx : Extends Event.OfAttempt t t') : Balanced t' :=
  hx.induction (fun _ _ he hp => hp.cons he.aside) h

/-- A request that is answered in its round. -/
theorem Balanced.request {message : RawMessage} {response : ℕ} {answer : Answer} (h : Balanced t)
    (hx : Extends Event.Aside (.received (.request message response) :: t) t') :
    Balanced (.answered response answer :: t') := by
  intro response'
  have hcount : ∀ q : Event → Bool, (∀ e, Event.Aside e → q e = false) →
      t'.countP q = (Event.received (.request message response) :: t).countP q := by
    intro q hq
    refine hx.congr (f := List.countP q) ?_
    intro e past he
    exact List.countP_cons_of_neg (by simp [hq e he])
  simp only [List.countP_cons]
  rw [hcount _ fun e he => (he response').1,hcount _ fun e he => (he response').2,
    List.countP_cons,List.countP_cons,h response']
  simp [Event.answers,Event.dequeues]

theorem Idles.aside (h : Idles t t') : Extends Event.Aside t t' :=
  h.mono fun _ he => he.ofAttempt.aside

/-- An exchange happens on the stream. -/
theorem Exchanged.aside {connection : Connection} {role : Role} {frame : RawMessage}
    {r : Outcome FrameError RawMessage} (h : Exchanged connection role frame t r t') :
    Extends Event.Aside t t' := by
  have hstream : ∀ {e : Event} {past : Trace}, e.conn ≠ none → Extends Event.Aside t past →
      Extends Event.Aside t (e :: past) := by
    intro e past he hx
    refine hx.cons fun response => ?_
    cases e <;> first
      | exact ⟨rfl,rfl⟩
      | exact absurd rfl he
  cases h with
  | replied => exact hstream nofun (hstream nofun (Extends.refl _))
  | unanswered _ => exact hstream nofun (hstream nofun (Extends.refl _))
  | unsent _ => exact hstream nofun (Extends.refl _)

theorem repliedTrace_aside (connection : Connection) (message raw : RawMessage) (response : ℕ)
    (t : Trace) : Extends Event.Aside (.received (.request message response) :: t)
      (repliedTrace connection message raw response t) :=
  Exchanged.aside (r := .ok raw) .replied

theorem Round.balanced {select : Select} (hr : Round env self select task)
    (h : Balanced self.trace) : Balanced task.trace := by
  cases hr with
  | ignored _ => exact h.cons fun _ => ⟨rfl,rfl⟩
  | configured _ hi _ =>
    exact ((h.cons fun _ => ⟨rfl,rfl⟩).extend hi.ofAttempt).cons fun _ => ⟨rfl,rfl⟩
  | refused _ => exact h.request (Extends.refl _)
  | offline _ _ => exact h.request (Extends.refl _)
  | answered _ _ _ => exact h.request (repliedTrace_aside _ _ _ _ _)
  | answeredFatal _ _ _ =>
    exact h.request ((repliedTrace_aside _ _ _ _ _).trans (dropConnection_idles _).aside)
  | lost _ _ _ hx => exact h.request (hx.aside.trans (dropConnection_idles _).aside)
  | shutdown hi _ => exact ((h.cons fun _ => ⟨rfl,rfl⟩).extend hi.ofAttempt).cons fun _ => ⟨rfl,rfl⟩
  | woundDown hi _ => exact (h.cons fun _ => ⟨rfl,rfl⟩).extend hi.ofAttempt
  | idle _ => exact h
  | pinged _ _ hg => exact h.extend hg.idles.ofAttempt
  | @pingLost connection t _ _ hg =>
    exact (h.extend hg.idles.ofAttempt).extend
      (dropConnection_idles { self with trace := t }).ofAttempt
  | attempted _ _ ha => exact h.extend ha.extends

-- ════════════════════════════════════════════════════════════════════════
-- A request on a connection that is held
-- ════════════════════════════════════════════════════════════════════════

/-- The caller's result and what the task did with the connection before it answered.
`new` is what happened in the round in front of the answer. -/
structure Agrees (p : Protocol) (connection : Connection) (new : Trace) (task : ClientTask)
    {α : Type} (result : Except RequestError α) : Prop where
  severed : Severs p result → task.connection = none ∧ .closed connection.id ∈ new ∧
    ∀ capabilities, task.status ≠ .connected capabilities
  kept : ¬ Severs p result → task.connection = some connection ∧ .closed connection.id ∉ new ∧
    task.status = .connected connection.capabilities

theorem dropConnection_trace {connection : Connection} (hc : self.connection = some connection)
    {capabilities : Capabilities} (hst : self.status = .connected capabilities) :
    self.dropConnection = { self with
      connection := none
      status := .disconnected
      trace := .published .disconnected :: .closed connection.id :: self.trace } := by
  rw [dropConnection,closeConnection_some hc,setStatus,if_neg (by simp [hst])]

/-- What a round does with a request, seen by the task: it is answered once, in the
end, and a connection that was held is closed just if the answer costs it. -/
structure Served (p : Protocol) (before : ClientTask) (response : ℕ) (answer : Answer)
    (new : Trace) (task : ClientTask) : Prop where
  trace : task.trace = .answered response answer :: (new ++ before.trace)
  once : ∀ e ∈ new, ∀ response, e.answers response = false
  severed : ∀ connection, before.shutdown = false → before.connection = some connection →
    before.status = .connected connection.capabilities → answer.Severs p →
    task.connection = none ∧ .closed connection.id ∈ new ∧ task.status = .disconnected
  kept : ∀ connection, before.shutdown = false → before.connection = some connection →
    before.status = .connected connection.capabilities → ¬ answer.Severs p →
    task.connection = some connection ∧ .closed connection.id ∉ new ∧
      task.status = .connected connection.capabilities

/-- A request whose answer costs the connection. -/
theorem Served.dropped {message : RawMessage} {response : ℕ} {answer : Answer}
    {connection : Connection} (hc : self.connection = some connection)
    (hst : self.status = .connected connection.capabilities)
    (hx : Extends Event.Aside (.received (.request message response) :: self.trace) t)
    (hsev : answer.Severs p) :
    ∃ new, Served p self response answer new
      ({ self with trace := t }.dropConnection.answer response answer) := by
  obtain ⟨asked,rfl,hasked⟩ := hx
  have hdrop : ({ self with trace := asked ++ .received (.request message response) ::
      self.trace } : ClientTask).dropConnection = _ := dropConnection_trace hc hst
  rw [hdrop]
  refine ⟨.published .disconnected :: .closed connection.id ::
    (asked ++ [.received (.request message response)]),?_,?_,?_,?_⟩
  · simp [ClientTask.answer,emit]
  · intro e he response'
    simp only [List.mem_cons,List.mem_append,List.not_mem_nil,or_false] at he
    obtain rfl | rfl | he | rfl := he
    · rfl
    · rfl
    · exact (hasked e he response').1
    · rfl
  · intro connection' _ hc' _ _
    obtain rfl := Option.some.inj (hc.symm.trans hc')
    exact ⟨rfl,by simp,rfl⟩
  · intro _ _ _ _ hkept
    exact absurd hsev hkept

theorem Round.served {message : RawMessage} {response : ℕ}
    (hr : Round env self (.recv (some (.request message response))) task)
    (hst : ∀ connection, self.connection = some connection →
      self.status = .connected connection.capabilities) :
    ∃ answer new, Served env.protocol self response answer new task := by
  cases hr with
  | refused hs =>
    refine ⟨.error .shutdown,[.received (.request message response)],rfl,
      by simp [Event.answers],?_,?_⟩
    · intro _ hs'
      exact absurd (hs.symm.trans hs') (by decide)
    · intro _ hs'
      exact absurd (hs.symm.trans hs') (by decide)
  | offline _ hn =>
    refine ⟨.error .disconnected,[.received (.request message response)],rfl,
      by simp [Event.answers],?_,?_⟩
    · intro _ _ hc
      rw [hn] at hc
      cases hc
    · intro _ _ hc
      rw [hn] at hc
      cases hc
  | @answered _ _ connection raw _ _ hf =>
    refine ⟨.ok raw,[.read connection.id (.request response) connection.maxPayloadLen (some raw),
      .wrote connection.id (.request response) message .complete,
      .received (.request message response)],rfl,by simp [Event.answers],?_,?_⟩
    · intro _ _ _ _ hsev
      exact absurd (hf.symm.trans hsev) (by decide)
    · intro _ _ hc hst' _
      exact ⟨hc,by simp,hst'⟩
  | answeredFatal _ hc hf =>
    exact ⟨_,Served.dropped hc (hst _ hc) (repliedTrace_aside _ _ _ _ _) hf⟩
  | lost _ hc _ hx =>
    have hsev : (Answer.error .disconnected).Severs env.protocol := .inl rfl
    exact ⟨_,Served.dropped hc (hst _ hc) hx.aside hsev⟩

/-- What the caller sees, by the way of an operation. -/
theorem Served.agrees {response : ℕ} {answer : Answer} {new : Trace} {connection : Connection}
    {result : Except RequestError α} (h : Served p self response answer new task)
    (hs : self.shutdown = false) (hc : self.connection = some connection)
    (hst : self.status = .connected connection.capabilities)
    (hresult : Severs p result ↔ answer.Severs p) : Agrees p connection new task result := by
  refine ⟨?_,?_⟩
  · intro hsev
    obtain ⟨hn,hclosed,hd⟩ := h.severed connection hs hc hst (hresult.mp hsev)
    exact ⟨hn,hclosed,by simp [hd]⟩
  · intro hkept
    exact h.kept connection hs hc hst fun hsev => hkept (hresult.mpr hsev)

/-- For every reachable state and request: the request is answered once, in the end of
its round; every oneshot has been answered as often as it came out of the queue; and if
a connection was held, then for every operation whose request it can have been, the
connection is gone and the status no longer `Connected` when the answer is sent just if
the caller's result is a fatal error or `Disconnected`, and held with the status
`Connected` otherwise. -/
theorem caller_agrees {NfcUid Uuid DataHash Record : Type} (env : Env)
    (messages : Messages NfcUid Uuid DataHash Record) (config : Option ConnectionConfig)
    (rounds : List Select) (hopen : .recv none ∉ rounds) (message : RawMessage) (response : ℕ) :
    let self := (build config).run env rounds
    let task := (build config).run env (rounds ++ [.recv (some (.request message response))])
    Balanced task.trace ∧ ∃ answer new,
      task.trace = .answered response answer :: (new ++ self.trace) ∧
      (∀ e ∈ new, ∀ response, e.answers response = false) ∧
      ∀ connection, self.connection = some connection → self.shutdown = false →
        (∀ nfcUid, messages.encodeBloop nfcUid = .ok message →
          Agrees env.protocol connection new task
            (bloop env.protocol messages (fun _ => answer.result) nfcUid)) ∧
        (∀ achievementId, messages.encodeRetrieveAudio achievementId = .ok message →
          Agrees env.protocol connection new task
            (retrieveAudio env.protocol messages (fun _ => answer.result) achievementId)) ∧
        (∀ audioManifestHash, messages.encodePreloadCheck audioManifestHash = .ok message →
          Agrees env.protocol connection new task
            (preloadCheck env.protocol messages (fun _ => answer.result) audioManifestHash)) ∧
        ∀ {Message Response : Type} (request : Request Message Response) (content : Message),
          request.encode content = .ok message →
          Agrees env.protocol connection new task
            (custom env.protocol (fun _ => answer.result) request content) := by
  intro self task
  have htask : task = self.handleCommand env (.request message response) := run_append hopen _
  have hl : Linked env self := (Linked.build config).run rounds
  have hround : Round env self (.recv (some (.request message response))) task :=
    htask ▸ handleCommand_round hl _
  have hbalanced : Balanced task.trace := run_induction (P := fun task => Balanced task.trace)
    (Linked.build config) (fun _ => rfl) (fun _ _ _ _ h hr => hr.balanced h) _
  have hst : ∀ connection, self.connection = some connection →
      self.status = .connected connection.capabilities :=
    run_ends (Q := fun self => ∀ connection, self.connection = some connection →
        self.status = .connected connection.capabilities)
      (Linked.build config) (Reported.build config) (fun _ _ _ _ h hsel hr => h.round hsel hr)
      (fun _ _ h connection hc => h.connected hc) (fun _ _ _ _ hr => by cases hr; nofun) rounds
  obtain ⟨answer,new,hserved⟩ := hround.served hst
  refine ⟨hbalanced,answer,new,hserved.trace,hserved.once,?_⟩
  intro connection hc hs
  have hagrees : ∀ {α : Type} {result : Except RequestError α},
      (Severs env.protocol result ↔ answer.Severs env.protocol) →
      Agrees env.protocol connection new task result :=
    fun h => hserved.agrees hs hc (hst connection hc) h
  exact ⟨fun _ h => hagrees (severs_bloop h answer),
    fun _ h => hagrees (severs_retrieveAudio h answer),
    fun _ h => hagrees (severs_preloadCheck h answer),
    fun _ _ h => hagrees (severs_custom h answer)⟩

/-- The echo request of the loopback tests, as a typed request. -/
def echoRequest : Request (List UInt8) (List UInt8) where
  encode text := .ok (Loopback.echo text)
  decode := Loopback.expect 0x81 some

def noMessages : Messages Empty Empty Empty Empty where
  encodeBloop := nofun
  encodeRetrieveAudio := nofun
  encodePreloadCheck _ := .error ⟨"unsupported"⟩
  preloadMatchOpcode := 0x0b
  decodeBloopAccepted raw := .error (.unknownOpcode raw.messageType)
  decodeAudioData raw := .error (.unknownOpcode raw.messageType)
  decodePreloadMatch raw := .error (.unknownOpcode raw.messageType)
  decodePreloadMismatch raw := .error (.unknownOpcode raw.messageType)

/-- A request that the loopback server answers with a fatal error. -/
def unknownRequest : Request Unit Unit where
  encode _ := .ok ⟨0x90,[]⟩
  decode := Loopback.expect 0x91 fun _ => some ()

/-- An echo on the connection to the loopback server, which is answered, and a request the
server does not know, which costs the connection. -/
theorem caller_agrees_loopback :
    let connection : Connection := ⟨0,⟨1⟩,1024 * 1024⟩
    let self := (build (some Loopback.config)).run Loopback.env [.tick]
    let echoed := (build (some Loopback.config)).run Loopback.env
      ([.tick] ++ [.recv (some (.request (Loopback.echo [1,2]) 0))])
    let refused := (build (some Loopback.config)).run Loopback.env
      ([.tick] ++ [.recv (some (.request ⟨0x90,[]⟩ 0))])
    self.connection = some connection ∧
    (custom Loopback.protocol (fun _ => .ok ⟨0x81,[2,1]⟩) echoRequest [1,2] = .ok [2,1] ∧
      ∃ new, echoed.trace = .answered 0 (.ok ⟨0x81,[2,1]⟩) :: (new ++ self.trace) ∧
        echoed.connection = some connection ∧ .closed 0 ∉ new ∧ echoed.status = .connected ⟨1⟩) ∧
    custom Loopback.protocol (fun _ => .ok ⟨0x00,[2]⟩) unknownRequest () =
        .error (.error (.other 2)) ∧
      ∃ new, refused.trace = .answered 0 (.ok ⟨0x00,[2]⟩) :: (new ++ self.trace) ∧
        refused.connection = none ∧ .closed 0 ∈ new ∧
        ∀ capabilities, refused.status ≠ .connected capabilities := by
  intro connection self echoed refused
  have hc : self.connection = some connection := by decide +kernel
  have hs : self.shutdown = false := by decide +kernel
  refine ⟨hc,⟨rfl,?_⟩,rfl,?_⟩
  · obtain ⟨_,answer,new,ht,_,hagrees⟩ := caller_agrees Loopback.env noMessages
      (some Loopback.config) [.tick] (by decide) (Loopback.echo [1,2]) 0
    have hhead : echoed.trace.head? = some (.answered 0 (.ok ⟨0x81,[2,1]⟩)) := by decide +kernel
    have ht' : echoed.trace = .answered 0 answer :: (new ++ self.trace) := ht
    rw [ht'] at hhead
    cases hhead
    exact ⟨new,ht',((hagrees _ hc hs).2.2.2 echoRequest [1,2] rfl).kept (not_severs_ok _)⟩
  · obtain ⟨_,answer,new,ht,_,hagrees⟩ := caller_agrees Loopback.env noMessages
      (some Loopback.config) [.tick] (by decide) ⟨0x90,[]⟩ 0
    have hhead : refused.trace.head? = some (.answered 0 (.ok ⟨0x00,[2]⟩)) := by decide +kernel
    have ht' : refused.trace = .answered 0 answer :: (new ++ self.trace) := ht
    rw [ht'] at hhead
    cases hhead
    exact ⟨new,ht',((hagrees _ hc hs).2.2.2 unknownRequest () rfl).severed
      (.inr ⟨.other 2,rfl,rfl⟩)⟩

end BloopClient

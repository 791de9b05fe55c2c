import BloopClient.Loopback
import BloopClient.Rounds
import BloopClient.WireOrder

/-!
# Connections damaged inside the on-connect hook

The request path drops a connection on which an exchange failed, was cut off or
was answered with a fatal error. The hook path looks at the hook's result only,
so a connection is stored undamaged exactly if the hook itself never returns
`Ok` after such an exchange.
-/

namespace BloopClient
open Tracelib ClientTask

/-- What an exchange of a session comes to, for the hook. -/
inductive Exchange
  | replied (raw : RawMessage)
  | failed
  | dropped
  deriving DecidableEq, Repr

/-- What the hook sees of an exchange. -/
def Exchange.result : Exchange → Option (Except RequestError RawMessage)
  | .replied raw => some (.ok raw)
  | .failed => some (.error .disconnected)
  | .dropped => none

/-- An exchange after which the request path would have dropped the
connection. -/
def Exchange.damages (p : Protocol) : Exchange → Bool
  | .replied raw => p.fatalReply raw
  | .failed => true
  | .dropped => true

/-- The hook returns `Ok` after exactly these exchanges. -/
def Hook.Accepts : Hook → List Exchange → Prop
  | .done (.ok _), [] => True
  | .request _ next, x :: xs => (next x.result).Accepts xs
  | _, _ => False

/-- The hook returns `Ok` only if every exchange it began went well. -/
def Hook.Honest (p : Protocol) (hook : Hook) : Prop :=
  ∀ xs, hook.Accepts xs → ∀ x ∈ xs, x.damages p = false

/-- Capabilities a server that accepts version 3 can declare. -/
def Declarable (p : Protocol) (capabilities : Capabilities) : Prop :=
  ∃ raw hello, decodeResponse p p.decodeServerHandshake raw = .ok hello ∧
    hello.acceptedVersion = 3 ∧ hello.capabilities = capabilities

/-- The event is an exchange of the hook on connection `c` that went wrong: its
frame was not written whole, its reply was not read whole, or the reply was a
fatal error. -/
def Event.damages (p : Protocol) (c : ℕ) : Event → Bool
  | .wrote c' .session _ (.broken _) => c' = c
  | .read c' .session _ none => c' = c
  | .read c' .session _ (some raw) => c' = c ∧ p.fatalReply raw
  | _ => false

/-- Every exchange of the hook on the connection was completed, and none was
answered with a fatal error. -/
def Undamaged (p : Protocol) (c : ℕ) (t : Trace) : Prop := ∀ e ∈ t, e.damages p c = false

instance (p : Protocol) (c : ℕ) (t : Trace) : Decidable (Undamaged p c t) :=
  inferInstanceAs (Decidable (∀ e ∈ t, e.damages p c = false))

/-- A connection is stored undamaged. -/
def StoredUndamaged (p : Protocol) : Event → Trace → Prop
  | .stored c, past => Undamaged p c past
  | _, _ => True

variable {env : Env} {p : Protocol} {c : ℕ} {t t' : Trace} {s : Stage} {e : Event}
  {self : ClientTask}

theorem undamaged_cons : Undamaged p c (e :: t) ↔ e.damages p c = false ∧ Undamaged p c t :=
  List.forall_mem_cons

-- ════════════════════════════════════════════════════════════════════════
-- Honest hooks store undamaged connections
-- ════════════════════════════════════════════════════════════════════════

/-- The hook has not begun. -/
def Stage.isUnhooked : Stage → Bool
  | .unborn | .dialing _ | .opened _ _ | .greeting _ _ | .greeted _ _ _ | .authenticating _ _ => true
  | .accepted _ _ => true
  | _ => false

/-- Before the hook runs there is nothing for it to have damaged. -/
theorem Life.undamaged (h : Life env c t s) (hs : s.isUnhooked) : Undamaged p c t := by
  induction h with
  | nil => simp [Undamaged]
  | step h hstep ih =>
    rw [undamaged_cons]
    cases hstep <;> first
      | exact ⟨rfl,ih rfl⟩
      | cases hs
  | @skip t s e h he ih =>
    refine undamaged_cons.mpr ⟨?_,ih hs⟩
    by_contra hd
    refine he ?_
    cases e with
    | wrote c' role frame w => cases role <;> cases w <;> simp_all [Event.damages,Event.conn]
    | read c' role bound reply =>
      cases role <;> cases reply <;> simp_all [Event.damages,Event.conn]
    | _ => exact absurd rfl hd

/-- A hook goes on after an exchange with what it came to, and the exchange
leaves the connection as it says; or the hook's deadline has passed. -/
theorem Hook.run_request (env : Env) (connection : Connection) (message : RawMessage)
    (next : Option (Except RequestError RawMessage) → Hook) (t : Trace) :
    (∃ (x : Exchange) (t₁ : Trace),
      (Hook.request message next).run env connection t = (next x.result).run env connection t₁ ∧
      (x.damages env.protocol = false → Undamaged env.protocol connection.id t →
        Undamaged env.protocol connection.id t₁)) ∨
    ∃ t₁, (Hook.request message next).run env connection t = (.elapsed,t₁) := by
  have hx := requestRaw_exchanged env connection .session message t
  simp only [Hook.run,Session.requestRaw,Fut.mapErr]
  revert hx
  rcases connection.requestRaw env .session message t with ⟨r,t₁⟩
  intro hx
  cases r with
  | ok raw =>
    refine .inl ⟨.replied raw,t₁,rfl,?_⟩
    intro hd ht
    cases hx with
    | replied =>
      have hf : env.protocol.fatalReply raw = false := hd
      simpa [undamaged_cons,Event.damages,hf] using ht
    | unanswered hr => exact absurd rfl (hr raw)
    | unsent hr => exact absurd rfl (hr raw)
  | err e => exact .inl ⟨.failed,t₁,rfl,by simp [Exchange.damages]⟩
  | dropped => exact .inl ⟨.dropped,t₁,rfl,by simp [Exchange.damages]⟩
  | elapsed => exact .inr ⟨t₁,rfl⟩

/-- A hook that returned `Ok` took a path it accepts, and damaged the connection
only by an exchange on that path. -/
theorem Hook.run_ok {connection : Connection} (hook : Hook)
    (h : hook.run env connection t = (.ok (),t')) :
    ∃ xs, hook.Accepts xs ∧ ((∀ x ∈ xs, x.damages env.protocol = false) →
      Undamaged env.protocol connection.id t → Undamaged env.protocol connection.id t') := by
  induction hook generalizing t with
  | done result =>
    cases result with
    | ok _ =>
      cases h
      exact ⟨[],trivial,fun _ ht => ht⟩
    | error e => cases h
  | stall => cases h
  | request message next ih =>
    rcases Hook.run_request env connection message next t with ⟨x,t₁,hr,hx⟩ | ⟨t₁,hr⟩
    · rw [hr] at h
      obtain ⟨xs,hxs,hd⟩ := ih _ h
      refine ⟨x :: xs,hxs,?_⟩
      intro hall ht
      exact hd (fun y hy => hall y (by simp [hy])) (hx (hall x (by simp)) ht)
    · rw [hr] at h
      cases h

theorem Event.Plain.storedUndamaged (h : e.Plain) (past : Trace) : StoredUndamaged p e past := by
  cases e with
  | stored c => exact absurd h id
  | _ => trivial

/-- With an honest hook, a connection that is stored is undamaged. -/
theorem Hooks.undamaged {connection : Connection} (h : Hooks env connection t t')
    (hhonest : ∀ hook, env.onConnect = some hook →
      (hook connection.id connection.capabilities).Honest env.protocol)
    (ht : Undamaged env.protocol connection.id t) :
    Undamaged env.protocol connection.id t' := by
  rcases h with ⟨_,rfl⟩ | ⟨hook,t₁,ho,hr,rfl⟩
  · exact ht
  · obtain ⟨xs,hxs,hd⟩ := Hook.run_ok _ hr
    exact undamaged_cons.mpr ⟨rfl,hd (hhonest hook ho xs hxs) ht⟩

theorem Round.storedUndamaged {select : Select} {task : ClientTask}
    (hhonest : ∀ hook c capabilities, env.onConnect = some hook →
      Declarable env.protocol capabilities → (hook c capabilities).Honest env.protocol)
    (hr : Round env self select task) (h : Always (StoredUndamaged env.protocol) self.trace) :
    Always (StoredUndamaged env.protocol) task.trace := by
  refine hr.always h (fun _ past he => he.storedUndamaged past) (fun _ _ _ _ _ => trivial)
    (fun _ _ _ _ _ _ => trivial) (fun _ _ _ _ _ _ _ => trivial) (fun _ _ _ _ _ => trivial) ?_
  intro config hello t t₁ past hl hh hp
  obtain ⟨_,raw,hello',_,hw,hcap⟩ := hl.declared rfl
  have hu : Undamaged env.protocol (dials self.trace) t₁ :=
    hh.undamaged (fun hook ho => hhonest hook _ _ ho ⟨raw,hello',hw.1,hw.2,hcap⟩)
      (undamaged_cons.mpr ⟨rfl,hl.undamaged rfl⟩)
  rcases hp with rfl | ⟨status,rfl⟩
  · exact hu
  · exact undamaged_cons.mpr ⟨rfl,hu⟩

-- ════════════════════════════════════════════════════════════════════════
-- A hook that is not honest stores a damaged connection
-- ════════════════════════════════════════════════════════════════════════

/-- What it takes to bring a connection up: frames the protocol encodes, and
replies of a server that it accepts. -/
structure Greeting (p : Protocol) (config : ConnectionConfig) where
  localIp : IpAddr
  handshake : RawMessage
  encodeHandshake : p.encodeClientHandshake ⟨3,3⟩ = .ok handshake
  credentials : RawMessage
  encodeCredentials :
    p.encodeAuthentication ⟨config.clientId,config.clientSecret,localIp⟩ = .ok credentials
  hello : ServerHandshake
  welcome : RawMessage
  decodeWelcome : decodeResponse p p.decodeServerHandshake welcome = .ok hello
  version : hello.acceptedVersion = 3
  acceptance : RawMessage
  decodeAcceptance : decodeResponse p p.decodeAuthenticationAccepted acceptance = .ok ()

def Event.isRead : Event → Bool
  | .read _ _ _ _ => true
  | _ => false

/-- The number of times a reply has been awaited. -/
def reads (t : Trace) : ℕ := t.countP Event.isRead

/-- A network that lets connection `c` be the first to come up, and has the
hook's exchanges on it come to `xs`. -/
def script {config : ConnectionConfig} (g : Greeting p config) (c : ℕ) (xs : List Exchange) :
    Net where
  serverName _ := true
  lookupHost t := .ready (if dials t = c + 1 then .ok [[]] else .error ⟨"down"⟩)
  tcpConnect _ _ := .ready (.ok ())
  localAddr _ := .ok g.localIp
  tlsConnect _ := .ready (.ok ())
  writeFrame _ _ _ := .complete
  readFrame t _ _ :=
    match reads t with
    | 0 => .frame g.welcome
    | 1 => .frame g.acceptance
    | k + 2 =>
      match xs[k]? with
      | some (.replied raw) => .frame raw
      | some .failed => .failed ⟨"frame"⟩
      | some .dropped => .dropped
      | none => .elapsed

section Script

variable {config : ConnectionConfig} {g : Greeting env.protocol config} {xs : List Exchange}

@[simp] theorem reads_cons (e : Event) :
    reads (e :: t) = reads t + if e.isRead then 1 else 0 :=
  List.countP_cons ..

/-- The trace of an exchange that was begun. -/
def exchangeTrace (connection : Connection) (role : Role) (frame : RawMessage)
    (reply : Option RawMessage) (t : Trace) : Trace :=
  .read connection.id role connection.maxPayloadLen reply ::
    .wrote connection.id role frame .complete :: t

theorem reads_exchangeTrace (connection : Connection) (role : Role) (frame : RawMessage)
    (reply : Option RawMessage) (t : Trace) :
    reads (exchangeTrace connection role frame reply t) = reads t + 1 := by
  simp [exchangeTrace,Event.isRead]

/-- One exchange of the hook goes as scripted. -/
theorem run_script_request {k : ℕ} {x : Exchange} (connection : Connection)
    (hn : env.net = script g c xs) (message : RawMessage)
    (next : Option (Except RequestError RawMessage) → Hook)
    (hx : xs[k]? = some x) (hk : reads t = k + 2) : ∃ reply,
    (Hook.request message next).run env connection t =
        (next x.result).run env connection (exchangeTrace connection .session message reply t) ∧
      (Event.read connection.id .session connection.maxPayloadLen reply).damages env.protocol
        connection.id = x.damages env.protocol := by
  have hr : reads (.wrote connection.id .session message .complete :: t) = k + 2 := by
    simp [Event.isRead,hk]
  simp only [Hook.run,Session.requestRaw,Connection.requestRaw,Fut.mapErr,Fut.bind_apply,
    writeFrame,readFrame,hn,script,hr,hx]
  cases x with
  | replied raw => exact ⟨some raw,rfl,by simp [Event.damages,Exchange.damages]⟩
  | failed => exact ⟨none,rfl,by simp [Event.damages,Exchange.damages]⟩
  | dropped => exact ⟨none,rfl,by simp [Event.damages,Exchange.damages]⟩

/-- The hook runs through the scripted exchanges, and each leaves its mark. -/
theorem run_script (connection : Connection) (hn : env.net = script g c xs) (hook : Hook)
    (k : ℕ) (ys : List Exchange) (hys : xs.drop k = ys) (ha : hook.Accepts ys)
    (hk : reads t = k + 2) : ∃ t',
    hook.run env connection t = (.ok (),t') ∧ (Undamaged env.protocol connection.id t' →
      (∀ x ∈ ys, x.damages env.protocol = false) ∧
        Undamaged env.protocol connection.id t) := by
  induction hook generalizing t k ys with
  | done result =>
    cases result with
    | ok _ =>
      cases ys with
      | nil => exact ⟨t,rfl,fun h => ⟨by simp,h⟩⟩
      | cons y ys => exact absurd ha id
    | error e => exact absurd ha (by cases ys <;> exact id)
  | stall => exact absurd ha (by cases ys <;> exact id)
  | request message next ih =>
    cases ys with
    | nil => exact absurd ha id
    | cons y ys =>
      have hy : xs[k]? = some y := by
        rw [← List.head?_drop,hys]
        rfl
      have hys' : xs.drop (k + 1) = ys := by
        rw [← List.tail_drop,hys]
        rfl
      obtain ⟨reply,hrun,hd⟩ := run_script_request connection hn message next hy hk
      have hk' : reads (exchangeTrace connection .session message reply t) = k + 1 + 2 := by
        rw [reads_exchangeTrace,hk]
      obtain ⟨t',ht',hu⟩ := ih _ (k + 1) ys hys' ha hk'
      refine ⟨t',hrun.trans ht',?_⟩
      intro h
      obtain ⟨hall,hpast⟩ := hu h
      rw [exchangeTrace,undamaged_cons,undamaged_cons,hd] at hpast
      exact ⟨List.forall_mem_cons.mpr ⟨hpast.1,hall⟩,hpast.2.2⟩

/-- An attempt before the scripted one ends when the host is looked up. -/
theorem connect_script_down {n : ℕ} (hn : env.net = script g c xs) (hd : dials t ≠ c + 1) :
    connect env n config t = (.err (.resolve config.host),t) := by
  simp [connect,dial,await,hn,script,Fut.bind_apply,firstAddress,hd]

/-- A reply of the script before the hook. -/
theorem requestRaw_script {connection : Connection} {raw : RawMessage}
    (hn : env.net = script g c xs) (role : Role) (frame : RawMessage)
    (hr : reads t = 0 ∧ raw = g.welcome ∨ reads t = 1 ∧ raw = g.acceptance) :
    connection.requestRaw env role frame t =
      (.ok raw,exchangeTrace connection role frame (some raw) t) := by
  have hw : reads (.wrote connection.id role frame .complete :: t) = reads t := by
    simp [Event.isRead]
  simp only [Connection.requestRaw,Fut.bind_apply,writeFrame,readFrame,hn,script,hw]
  rcases hr with ⟨hr,rfl⟩ | ⟨hr,rfl⟩
  · rw [hr]
    rfl
  · rw [hr]
    rfl

theorem negotiateVersion_script {connection : Connection} (hn : env.net = script g c xs)
    (hr : reads t = 0) :
    negotiateVersion env connection t = (.ok g.hello.capabilities,
      exchangeTrace connection .handshake g.handshake (some g.welcome) t) := by
  have hencode : Fut.lift ((env.protocol.encodeClientHandshake ⟨3,3⟩).mapError
      ConnectError.encode) t = (.ok g.handshake,t) := by
    rw [g.encodeHandshake]
    rfl
  have hask : Fut.mapErr ConnectError.frame (connection.requestRaw env .handshake g.handshake) t =
      (.ok g.welcome,exchangeTrace connection .handshake g.handshake (some g.welcome) t) := by
    rw [Fut.mapErr,requestRaw_script hn _ _ (.inl ⟨hr,rfl⟩)]
    rfl
  rw [negotiateVersion,Fut.bind_ok hencode,Fut.bind_ok hask,g.decodeWelcome]
  simp [g.version]

theorem authenticate_script {connection : Connection} (hn : env.net = script g c xs)
    (hr : reads t = 1) :
    authenticate env connection config g.localIp t = (.ok true,
      exchangeTrace connection .authentication g.credentials (some g.acceptance) t) := by
  have hencode : Fut.lift ((env.protocol.encodeAuthentication
      ⟨config.clientId,config.clientSecret,g.localIp⟩).mapError ConnectError.encode) t =
      (.ok g.credentials,t) := by
    rw [g.encodeCredentials]
    rfl
  have hask : Fut.mapErr ConnectError.frame
      (connection.requestRaw env .authentication g.credentials) t = (.ok g.acceptance,
        exchangeTrace connection .authentication g.credentials (some g.acceptance) t) := by
    rw [Fut.mapErr,requestRaw_script hn _ _ (.inr ⟨hr,rfl⟩)]
    rfl
  rw [authenticate,Fut.bind_ok hencode,Fut.bind_ok hask,g.decodeAcceptance]
  rfl

/-- The scripted attempt is accepted. -/
theorem connect_script_up (hn : env.net = script g c xs) (hd : dials t = c + 1)
    (hr : reads t = 0) : ∃ t', connect env c config t =
      (.ok (.connected ⟨c,g.hello.capabilities,env.maxPayloadLen⟩),t') ∧ reads t' = 2 := by
  have hdial : dial env config t = (.ok g.localIp,t) := by
    simp [dial,await,hn,script,Fut.bind_apply,firstAddress,serverName,hd,Except.mapError]
  have hr₁ : reads (.opened c g.localIp :: t) = 0 := by
    simp [Event.isRead,hr]
  have hr₂ : reads (exchangeTrace ⟨c,Capabilities.none,1024⟩ .handshake g.handshake
      (some g.welcome) (.opened c g.localIp :: t)) = 1 := by
    rw [reads_exchangeTrace,hr₁]
  refine ⟨exchangeTrace ⟨c,g.hello.capabilities,1024⟩ .authentication g.credentials
    (some g.acceptance) _,?_,by rw [reads_exchangeTrace,hr₂]⟩
  have hest : establish env c config g.localIp (.opened c g.localIp :: t) =
      (.ok (.connected ⟨c,g.hello.capabilities,env.maxPayloadLen⟩),
        exchangeTrace ⟨c,g.hello.capabilities,1024⟩ .authentication g.credentials
          (some g.acceptance) (exchangeTrace ⟨c,Capabilities.none,1024⟩ .handshake g.handshake
          (some g.welcome) (.opened c g.localIp :: t))) := by
    rw [establish,Fut.bind_ok (negotiateVersion_script hn hr₁),
      Fut.bind_ok (authenticate_script hn hr₂)]
    rfl
  rw [connect,Fut.bind_ok hdial,Fut.bind_ok (Fut.modify_apply _ _),Fut.cleanup,hest]
  rfl

/-- The task after `n` attempts that came to nothing. -/
structure Waiting (config : ConnectionConfig) (n : ℕ) (task : ClientTask) : Prop where
  config : task.config = some config
  connection : task.connection = none
  credentialsInvalid : task.credentialsInvalid = false
  shutdown : task.shutdown = false
  dialled : dials task.trace = n
  unread : reads task.trace = 0

theorem Waiting.build (config : ConnectionConfig) : Waiting config 0 (build (some config)) :=
  ⟨rfl,rfl,rfl,rfl,rfl,rfl⟩

/-- A tick of a waiting task starts an attempt. -/
theorem Waiting.handleTick_eq {n : ℕ} (h : Waiting config n self) :
    self.handleTick env = self.tryConnect env := by
  simp [handleTick,h.shutdown,h.connection]

theorem Waiting.tick {n : ℕ} (hn : env.net = script g c xs) (h : Waiting config n self)
    (hlt : n < c) : Waiting config (n + 1) (self.handleTick env) := by
  have hd : dials (.connecting n config :: self.trace) = n + 1 := by
    rw [dials_cons,h.dialled]
    rfl
  have hx : connect env n config (.connecting n config :: self.trace) = _ :=
    connect_script_down hn (by omega)
  have ht : self.tryConnect env = { self with
      trace := .connectReturned n (.failed (.resolve config.host)) ::
        .connecting n config :: self.trace }.setStatus .disconnected := by
    simp only [tryConnect,h.credentialsInvalid,h.config,h.dialled,hx]
    rfl
  have hi := setStatus_trace { self with
      trace := .connectReturned n (.failed (.resolve config.host)) ::
        .connecting n config :: self.trace } .disconnected
  rw [h.handleTick_eq,ht]
  refine ⟨by simpa using h.config,by simpa using h.connection,
    by simpa using h.credentialsInvalid,by simpa using h.shutdown,?_,?_⟩
  · rcases hi with hi | hi
    · rw [hi]
      simpa [dials_cons,Event.isConnecting] using h.dialled
    · rw [hi]
      simpa [dials_cons,Event.isConnecting] using h.dialled
  · rcases hi with hi | hi
    · rw [hi]
      simpa [Event.isRead] using h.unread
    · rw [hi]
      simpa [Event.isRead] using h.unread

theorem Waiting.run (hn : env.net = script g c xs) {n : ℕ} (hle : n ≤ c) :
    Waiting config n ((ClientTask.build (some config)).run env (List.replicate n .tick)) := by
  induction n with
  | zero => exact Waiting.build config
  | succ n ih =>
    have hb : Select.recv none ∉ List.replicate n Select.tick := by simp [List.mem_replicate]
    rw [List.replicate_succ',run_append hb]
    exact (ih (by omega)).tick hn (by omega)

/-- The scripted attempt is stored once the hook has accepted its exchanges. -/
theorem Waiting.stores {hook : ℕ → Capabilities → Hook} (hn : env.net = script g c xs)
    (ho : env.onConnect = some hook) (ha : (hook c g.hello.capabilities).Accepts xs)
    (h : Waiting config c self) :
    ∃ past, (.stored c :: past) <:+ (self.handleTick env).trace ∧
      (Undamaged env.protocol c past → ∀ x ∈ xs, x.damages env.protocol = false) := by
  have hd : dials (.connecting c config :: self.trace) = c + 1 := by
    rw [dials_cons,h.dialled]
    rfl
  have hr : reads (.connecting c config :: self.trace) = 0 := by
    simpa [Event.isRead] using h.unread
  obtain ⟨t,ht,hrt⟩ := connect_script_up hn hd hr
  have hk : reads (.connectReturned c .accepted :: t) = 0 + 2 := by
    simpa [Event.isRead] using hrt
  obtain ⟨t',ht',hu⟩ := run_script ⟨c,g.hello.capabilities,env.maxPayloadLen⟩ hn
    (hook c g.hello.capabilities) 0 xs rfl ha hk
  have hs : self.handleTick env = { self with
      trace := .hookReturned c .ok :: t' }.store ⟨c,g.hello.capabilities,env.maxPayloadLen⟩ := by
    rw [h.handleTick_eq]
    simp only [tryConnect,h.credentialsInvalid,h.config,h.dialled,ht]
    simp only [Outcome.timeout,adopt,ho,ht']
    rfl
  rw [hs]
  refine ⟨_,List.suffix_refl _,?_⟩
  intro hp
  have hp' : Undamaged env.protocol c (.hookReturned c .ok :: t') := by
    intro e he
    exact hp e ((setStatus_idles { self with
      credentialsInvalid := false, trace := .hookReturned c .ok :: t' } _).suffix.subset he)
  exact (hu (undamaged_cons.mp hp').2).1

end Script

/-- Whatever the network does, every connection that is stored is undamaged, if
and only if the hook returns `Ok` only when all its exchanges went well. -/
theorem stored_undamaged_iff (p : Protocol) (maxPayloadLen : UInt32)
    (policy : InvalidCredentialsPolicy) (hook : ℕ → Capabilities → Hook)
    (config : ConnectionConfig) (g : Greeting p config) :
    (∀ net initial rounds c past,
      (.stored c :: past) <:+
        ((build initial).run ⟨p,net,maxPayloadLen,policy,some hook⟩ rounds).trace →
      Undamaged p c past) ↔
      ∀ c capabilities, Declarable p capabilities → (hook c capabilities).Honest p := by
  constructor
  · rintro h c _ ⟨raw,hello,hd,hv,rfl⟩ xs ha
    let g : Greeting p config := { g with
      hello := hello, welcome := raw, decodeWelcome := hd, version := hv }
    have hw : Waiting config c ((build (some config)).run
        ⟨p,script g c xs,maxPayloadLen,policy,some hook⟩ (List.replicate c .tick)) :=
      Waiting.run (g := g) rfl le_rfl
    have hs : ∃ past, (.stored c :: past) <:+ (((build (some config)).run
          ⟨p,script g c xs,maxPayloadLen,policy,some hook⟩ (List.replicate c .tick)).handleTick
          ⟨p,script g c xs,maxPayloadLen,policy,some hook⟩).trace ∧
        (Undamaged p c past → ∀ x ∈ xs, x.damages p = false) := hw.stores (g := g) rfl rfl ha
    obtain ⟨past,hp,hu⟩ := hs
    refine hu (h (script g c xs) (some config) (List.replicate (c + 1) .tick) c past ?_)
    have hb : Select.recv none ∉ List.replicate c Select.tick := by simp [List.mem_replicate]
    rw [List.replicate_succ',run_append hb]
    exact hp
  · intro h net initial rounds c past hp
    have hall : Always (StoredUndamaged p)
        ((build initial).run ⟨p,net,maxPayloadLen,policy,some hook⟩ rounds).trace := by
      refine run_induction (P := fun task => Always (StoredUndamaged p) task.trace)
        (Linked.build initial) (by simp [build]) ?_ rounds
      intro self select task _ hself hr
      refine hr.storedUndamaged ?_ hself
      rintro _ c capabilities ⟨⟩ hc
      exact h c capabilities hc
    exact always_iff.mp hall _ _ hp

/-- A hook that asks for one thing and fails the attempt unless it gets it. -/
def Loopback.carefulHook : Hook := .request (Loopback.echo [7]) fun
  | some (.ok raw) =>
    .done (if Loopback.protocol.fatalReply raw then .error ⟨"fatal"⟩ else .ok ())
  | _ => .done (.error ⟨"failed"⟩)

def Loopback.greeting : Greeting Loopback.protocol Loopback.config where
  localIp := [127,0,0,1]
  handshake := ⟨0x01,[3,3]⟩
  encodeHandshake := rfl
  credentials := ⟨0x03,[127,0,0,1]⟩
  encodeCredentials := rfl
  hello := ⟨3,⟨1⟩⟩
  welcome := ⟨0x02,[3,1]⟩
  decodeWelcome := rfl
  version := rfl
  acceptance := ⟨0x04,[]⟩
  decodeAcceptance := rfl

/-- The careful hook never has a damaged connection stored. -/
theorem stored_undamaged_careful : ∀ net initial rounds c past,
    (.stored c :: past) <:+ ((build initial).run
      ⟨Loopback.protocol,net,1024,.latch,some fun _ _ => Loopback.carefulHook⟩ rounds).trace →
    Undamaged Loopback.protocol c past := by
  refine (stored_undamaged_iff Loopback.protocol 1024 .latch (fun _ _ => Loopback.carefulHook)
    Loopback.config Loopback.greeting).mpr ?_
  intro c _ _ xs ha x hx
  cases xs with
  | nil => cases hx
  | cons y ys =>
    cases y with
    | replied raw =>
      have ha' : (Hook.done (if Loopback.protocol.fatalReply raw then .error ⟨"fatal"⟩
        else .ok ())).Accepts ys := ha
      by_cases hf : Loopback.protocol.fatalReply raw = true
      · rw [if_pos hf] at ha'
        cases ys <;> exact absurd ha' id
      · rw [if_neg hf] at ha'
        cases ys with
        | nil => simpa [List.mem_singleton.mp hx,Exchange.damages] using hf
        | cons z zs => exact absurd ha' id
    | failed => exact absurd ha id
    | dropped => exact absurd ha id

/-- A hook that begins an exchange, drops it and returns `Ok`. -/
def Loopback.carelessHook : Hook := .request (Loopback.echo [7]) fun _ => .done (.ok ())

/-- The loopback server, with a hook that gives up on its exchange before the
reply is there. -/
def Loopback.carelessEnv : Env := { Loopback.env with
  net := { Loopback.net with
    readFrame := fun t c bound =>
      match t with
      | .wrote _ .session _ _ :: _ => .dropped
      | _ => Loopback.net.readFrame t c bound }
  onConnect := some fun _ _ => Loopback.carelessHook }

/-- The careless hook's connection is stored and reported, and the first request
on it is handed the reply to the frame the hook gave up on. -/
theorem stored_damaged_careless :
    let stored := (build (some Loopback.config)).run Loopback.carelessEnv [.tick]
    let later := (build (some Loopback.config)).run Loopback.carelessEnv
      [.tick,.recv (some (.request (Loopback.echo [1,2]) 0))]
    (∃ past, stored.trace = .stored 0 :: past ∧ ¬ Undamaged Loopback.protocol 0 past) ∧
      stored.status = .connected ⟨1⟩ ∧ .answered 0 (.ok ⟨0x81,[7]⟩) ∈ later.trace := by
  refine ⟨⟨_,rfl,by decide⟩,rfl,by decide⟩

end BloopClient

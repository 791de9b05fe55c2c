import BloopClient.HookDamage
import BloopClient.StatusHistory

/-!
# Recovery

The client gets by without a reconnect of its own: each tick pings the connection there is,
or tries for one. Whatever has happened before, once the network, the server and the hook
let attempts go through, two ticks are enough: one may be needed to notice that the old
connection is dead.
-/

namespace BloopClient
open Tracelib ClientTask

variable {env : Env} {config : ConnectionConfig} {g : Greeting env.protocol config}
  {t : Trace} {self : ClientTask}

section Attempts

variable {p : Protocol} {config : ConnectionConfig} (g : Greeting p config) (c : ℕ) (past : Trace)

/-- The trace of an attempt when its stream is open. -/
def openedTrace : Trace := .opened c g.localIp :: .connecting c config :: past

/-- The trace of an attempt when the server has greeted. -/
def greetedTrace : Trace :=
  exchangeTrace ⟨c,Capabilities.none,1024⟩ .handshake g.handshake (some g.welcome)
    (openedTrace g c past)

/-- The trace of an attempt when the server has accepted the credentials. -/
def acceptedTrace : Trace :=
  exchangeTrace ⟨c,g.hello.capabilities,1024⟩ .authentication g.credentials (some g.acceptance)
    (greetedTrace g c past)

end Attempts

/-- An attempt made at this moment goes through: the host resolves and answers, the server
greets and accepts, and the hook returns `Ok`. -/
structure Welcomes (env : Env) {config : ConnectionConfig} (g : Greeting env.protocol config)
    (past : Trace) : Prop where
  serverName : env.net.serverName config.host = true
  resolves : ∃ address rest,
    env.net.lookupHost (.connecting (dials past) config :: past) = .ready (.ok (address :: rest)) ∧
    env.net.tcpConnect (.connecting (dials past) config :: past) address = .ready (.ok ())
  localAddr : env.net.localAddr (.connecting (dials past) config :: past) =
    .ok g.localIp
  tlsConnect : env.net.tlsConnect (.connecting (dials past) config :: past) =
    .ready (.ok ())
  greets : env.net.writeFrame (openedTrace g (dials past) past)
      (dials past) g.handshake = .complete ∧
    env.net.readFrame (.wrote (dials past) .handshake g.handshake .complete ::
      openedTrace g (dials past) past) (dials past) 1024 =
        .frame g.welcome
  accepts : env.net.writeFrame (greetedTrace g (dials past) past)
      (dials past) g.credentials = .complete ∧
    env.net.readFrame (.wrote (dials past) .authentication g.credentials .complete ::
      greetedTrace g (dials past) past) (dials past) 1024 =
        .frame g.acceptance
  hooked : ∀ hook, env.onConnect = some hook →
    ((hook (dials past) g.hello.capabilities).run env
      ⟨dials past,g.hello.capabilities,env.maxPayloadLen⟩
      (.connectReturned (dials past) .accepted ::
        acceptedTrace g (dials past) past)).1 = .ok ()

/-- From a moment on every attempt goes through. An attempt is made when all connections so
far are closed; nothing is said of those. -/
def Cooperates (env : Env) {config : ConnectionConfig} (g : Greeting env.protocol config)
    (since : Trace) : Prop :=
  ∀ past, since <:+ past → Quiet env past none → Welcomes env g past

-- ════════════════════════════════════════════════════════════════════════
-- An attempt that goes through
-- ════════════════════════════════════════════════════════════════════════

/-- An exchange that goes well. -/
theorem requestRaw_ok {connection : Connection} {role : Role} {frame raw : RawMessage}
    (hw : env.net.writeFrame t connection.id frame = .complete)
    (hr : env.net.readFrame (.wrote connection.id role frame .complete :: t) connection.id
      connection.maxPayloadLen = .frame raw) :
    connection.requestRaw env role frame t =
      (.ok raw,exchangeTrace connection role frame (some raw) t) := by
  simp only [Connection.requestRaw,Fut.bind_apply,writeFrame,hw,readFrame,hr]
  rfl

namespace Welcomes

variable {past : Trace}

theorem dial (h : Welcomes env g past) :
    dial env config (.connecting (dials past) config :: past) =
      (.ok g.localIp,.connecting (dials past) config :: past) := by
  obtain ⟨address,rest,hlookup,htcp⟩ := h.resolves
  simp [BloopClient.dial,await,Fut.bind_apply,hlookup,firstAddress,htcp,h.localAddr,h.tlsConnect,
    BloopClient.serverName,h.serverName,Except.mapError]

theorem negotiateVersion (h : Welcomes env g past) :
    negotiateVersion env ⟨dials past,Capabilities.none,1024⟩
      (openedTrace g (dials past) past) =
        (.ok g.hello.capabilities,greetedTrace g (dials past) past) := by
  have hencode : Fut.lift ((env.protocol.encodeClientHandshake ⟨3,3⟩).mapError
      ConnectError.encode) (openedTrace g (dials past) past) =
      (.ok g.handshake,openedTrace g (dials past) past) := by
    rw [g.encodeHandshake]
    rfl
  have hask : Fut.mapErr ConnectError.frame (Connection.requestRaw env
      ⟨dials past,Capabilities.none,1024⟩ .handshake g.handshake)
      (openedTrace g (dials past) past) =
      (.ok g.welcome,greetedTrace g (dials past) past) := by
    rw [Fut.mapErr,requestRaw_ok h.greets.1 h.greets.2]
    rfl
  rw [BloopClient.negotiateVersion,Fut.bind_ok hencode,Fut.bind_ok hask,g.decodeWelcome]
  simp [g.version]

theorem authenticate (h : Welcomes env g past) :
    authenticate env ⟨dials past,g.hello.capabilities,1024⟩ config g.localIp
      (greetedTrace g (dials past) past) =
        (.ok true,acceptedTrace g (dials past) past) := by
  have hencode : Fut.lift ((env.protocol.encodeAuthentication
      ⟨config.clientId,config.clientSecret,g.localIp⟩).mapError ConnectError.encode)
      (greetedTrace g (dials past) past) =
      (.ok g.credentials,greetedTrace g (dials past) past) := by
    rw [g.encodeCredentials]
    rfl
  have hask : Fut.mapErr ConnectError.frame (Connection.requestRaw env
      ⟨dials past,g.hello.capabilities,1024⟩ .authentication g.credentials)
      (greetedTrace g (dials past) past) =
      (.ok g.acceptance,acceptedTrace g (dials past) past) := by
    rw [Fut.mapErr,requestRaw_ok h.accepts.1 h.accepts.2]
    rfl
  rw [BloopClient.authenticate,Fut.bind_ok hencode,Fut.bind_ok hask,g.decodeAcceptance]
  rfl

theorem connect (h : Welcomes env g past) :
    connect env (dials past) config
      (.connecting (dials past) config :: past) =
      (.ok (.connected ⟨dials past,g.hello.capabilities,env.maxPayloadLen⟩),
        acceptedTrace g (dials past) past) := by
  have hest : establish env (dials past) config g.localIp
      (openedTrace g (dials past) past) =
      (.ok (.connected ⟨dials past,g.hello.capabilities,env.maxPayloadLen⟩),
        acceptedTrace g (dials past) past) := by
    rw [establish,Fut.bind_ok h.negotiateVersion,Fut.bind_ok h.authenticate]
    rfl
  rw [openedTrace] at hest
  rw [BloopClient.connect,Fut.bind_ok h.dial,Fut.bind_ok (Fut.modify_apply _ _),Fut.cleanup,hest]
  rfl

/-- The connection is stored and reported. -/
theorem tryConnect (h : Welcomes env g self.trace) (hu : Unlatched env self)
    (hconfig : self.config = some config) :
    (self.tryConnect env).connection =
        some ⟨dials self.trace,g.hello.capabilities,env.maxPayloadLen⟩ ∧
      (self.tryConnect env).status = .connected g.hello.capabilities := by
  have hlatch : (self.credentialsInvalid && env.invalidCredentialsPolicy == .latch) = false := by
    simpa [Unlatched] using hu
  have hadopt : self.tryConnect env = ClientTask.adopt env { self with
      trace := .connectReturned (dials self.trace) .accepted ::
        acceptedTrace g (dials self.trace) self.trace }
      ⟨dials self.trace,g.hello.capabilities,env.maxPayloadLen⟩ := by
    simp only [ClientTask.tryConnect,hlatch,hconfig,h.connect,Bool.false_eq_true,if_false,
      Outcome.timeout]
  rw [hadopt,ClientTask.adopt]
  cases ho : env.onConnect with
  | none => exact ⟨rfl,by simp [store,emit]⟩
  | some hook =>
    simp only [h.hooked hook ho,Outcome.timeout]
    exact ⟨rfl,by simp [store,emit]⟩

end Welcomes

-- ════════════════════════════════════════════════════════════════════════
-- Ticks
-- ════════════════════════════════════════════════════════════════════════

/-- The task holds a connection, and reports it. -/
def Up (task : ClientTask) : Prop :=
  ∃ connection, task.connection = some connection ∧
    task.status = .connected connection.capabilities

/-- At every moment of a run a connection that is held is reported. -/
theorem up_of_run (initial : Option ConnectionConfig) (rounds : List Select) :
    let task := (build initial).run env rounds
    ∀ connection, task.connection = some connection → Up task := by
  intro task connection hc
  refine ⟨connection,hc,?_⟩
  refine run_ends (Q := fun task => ∀ connection, task.connection = some connection →
    task.status = .connected connection.capabilities) (Linked.build initial)
    (Reported.build initial) (fun _ _ _ _ h hsel hr => h.round hsel hr)
    (fun _ _ h connection hc => h.connected hc) ?_ rounds connection hc
  intro self task _ _ hr connection hc
  cases hr
  cases hc

theorem handleTick_of_none (hs : self.shutdown = false) (hn : self.connection = none) :
    self.handleTick env = self.tryConnect env := by
  simp [handleTick,hs,hn]

/-- A ping that fails costs the connection and nothing else the task goes by. -/
theorem handleTick_of_some {connection : Connection} (hl : Linked env self)
    (hs : self.shutdown = false) (hc : self.connection = some connection) :
    ((self.handleTick env).connection = some connection ∧
      (self.handleTick env).status = self.status) ∨
    ((self.handleTick env).connection = none ∧ (self.handleTick env).shutdown = false ∧
      (self.handleTick env).config = self.config ∧
      (self.handleTick env).credentialsInvalid = self.credentialsInvalid ∧
      self.trace <:+ (self.handleTick env).trace) := by
  have hr := handleTick_round hl
  generalize self.handleTick env = task at hr ⊢
  cases hr with
  | idle hs' =>
    rw [hs] at hs'
    cases hs'
  | pinged _ _ _ => exact .inl ⟨hc,rfl⟩
  | @pingLost _ t _ _ hg =>
    have hi := dropConnection_idles { self with trace := t }
    refine .inr ⟨by simp,by simpa using hs,by simp,?_,hg.suffix.trans hi.suffix⟩
    simp [dropConnection,closeConnection,hc]
  | attempted _ hn _ =>
    rw [hc] at hn
    cases hn

/-- Nothing has happened on a connection that is not yet born. -/
theorem Life.untouched {c : ℕ} (h : Life env c t .unborn) : ∀ e ∈ t, e.conn ≠ some c := by
  generalize hs : Stage.unborn = s at h
  induction h with
  | nil => simp
  | step _ hstep _ =>
    subst hs
    cases hstep
  | skip _ he ih => exact List.forall_mem_cons.mpr ⟨he,ih hs⟩

namespace Loopback

theorem inbox_of_untouched {c : ℕ} (h : ∀ e ∈ t, e.conn ≠ some c) : inbox c t = [] := by
  rw [inbox,List.filterMap_eq_nil_iff]
  intro e he
  have hne := h e he
  cases e with
  | wrote c' role frame written =>
    have hc : c' ≠ c := fun hc => hne (by rw [hc]; rfl)
    simp [hc]
  | _ => rfl

theorem taken_of_untouched {c : ℕ} (h : ∀ e ∈ t, e.conn ≠ some c) : taken c t = 0 := by
  rw [taken,List.countP_eq_zero]
  intro e he
  have hne := h e he
  cases e with
  | read c' role bound reply =>
    have hc : c' ≠ c := fun hc => hne (by rw [hc]; rfl)
    cases reply <;> simp [hc]
  | _ => simp

theorem inbox_wrote {c : ℕ} {role : Role} {frame : RawMessage}
    (hf : frame.messageType ≠ protocol.quitOpcode) :
    inbox c (.wrote c role frame .complete :: t) = frame :: inbox c t := by
  simp [inbox,hf]

theorem taken_read {c : ℕ} {role : Role} {bound : UInt32} {raw : RawMessage} :
    taken c (.read c role bound (some raw) :: t) = taken c t + 1 := by
  simp [taken]

theorem inbox_opened {c : ℕ} (past : Trace) :
    inbox c (openedTrace greeting c past) = inbox c past := rfl

theorem taken_opened {c : ℕ} (past : Trace) :
    taken c (openedTrace greeting c past) = taken c past := by
  simp [taken,openedTrace]

theorem taken_wrote {c c' : ℕ} {role : Role} {frame : RawMessage} {written : Written} :
    taken c (.wrote c' role frame written :: t) = taken c t := by
  simp [taken]

theorem inbox_read {c c' : ℕ} {role : Role} {bound : UInt32} {reply : Option RawMessage} :
    inbox c (.read c' role bound reply :: t) = inbox c t := rfl

/-- The loopback server lets every attempt go through. -/
theorem cooperates (since : Trace) : Cooperates Loopback.env greeting since := by
  intro past _ hq
  have hfresh := (hq.unborn (dials past) (Nat.le_refl _)).untouched
  have hin := inbox_of_untouched hfresh
  have hout := taken_of_untouched hfresh
  have hhello : next (dials past) (.wrote (dials past) .handshake greeting.handshake .complete ::
      openedTrace greeting (dials past) past) = some greeting.welcome := by
    rw [next,inbox_wrote (by decide),taken_wrote,inbox_opened,taken_opened,hin,hout]
    rfl
  have haccept : next (dials past) (.wrote (dials past) .authentication greeting.credentials
      .complete :: greetedTrace greeting (dials past) past) = some greeting.acceptance := by
    rw [next,inbox_wrote (by decide),taken_wrote,greetedTrace,exchangeTrace,inbox_read,
      inbox_wrote (by decide),taken_read,taken_wrote,inbox_opened,taken_opened,hin,hout]
    rfl
  refine ⟨rfl,⟨_,_,rfl,rfl⟩,rfl,rfl,⟨rfl,?_⟩,⟨rfl,?_⟩,?_⟩
  · simp only [Loopback.env,net,hhello]
  · simp only [Loopback.env,net,haccept]
  · intro _ h
    cases h

end Loopback

/-- Whatever has happened to a client that is not shut down, has a configuration and is not
latched: if attempts go through from now on, it holds a connection after one tick or after two. -/
theorem recovers_within_two_ticks (env : Env) (config : ConnectionConfig)
    (g : Greeting env.protocol config) (initial : Option ConnectionConfig)
    (rounds : List Select) (hopen : .recv none ∉ rounds)
    (hs : ((build initial).run env rounds).shutdown = false)
    (hconfig : ((build initial).run env rounds).config = some config)
    (hu : Unlatched env ((build initial).run env rounds))
    (hcoop : Cooperates env g ((build initial).run env rounds).trace) :
    ∃ n, (n = 1 ∨ n = 2) ∧
      Up ((build initial).run env (rounds ++ List.replicate n .tick)) := by
  let self := (build initial).run env rounds
  have hl : Linked env self := (Linked.build initial).run rounds
  have hrun : ∀ n, (build initial).run env (rounds ++ List.replicate n .tick) =
      self.run env (List.replicate n .tick) := fun n => run_append hopen _
  cases hc : self.connection with
  | none =>
    refine ⟨1,.inl rfl,?_⟩
    obtain ⟨hconnection,hstatus⟩ :=
      (hcoop _ (List.suffix_refl _) (hl.quiet_none hc)).tryConnect hu hconfig
    rw [hrun]
    show Up (self.handleTick env)
    rw [handleTick_of_none hs hc]
    exact ⟨_,hconnection,hstatus⟩
  | some connection =>
    rcases handleTick_of_some hl hs hc with ⟨hc',hst⟩ | ⟨hn,hs',hconfig',hinvalid,ht⟩
    · refine ⟨1,.inl rfl,?_⟩
      obtain ⟨_,h₁,h₂⟩ := up_of_run initial rounds connection hc
      rw [hrun]
      show Up (self.handleTick env)
      rw [h₁] at hc
      cases hc
      exact ⟨connection,hc',hst.trans h₂⟩
    · refine ⟨2,.inr rfl,?_⟩
      have hu' : Unlatched env (self.handleTick env) := by
        rw [Unlatched,hinvalid]
        exact hu
      obtain ⟨hconnection,hstatus⟩ :=
        (hcoop _ ht (hl.handleTick.quiet_none hn)).tryConnect hu' (hconfig'.trans hconfig)
      rw [hrun]
      show Up ((self.handleTick env).handleTick env)
      rw [handleTick_of_none hs' hn]
      exact ⟨_,hconnection,hstatus⟩

/-- A client that has lost its connection to a fatal answer. -/
theorem recovers_within_two_ticks_loopback :
    let rounds := [.tick,.recv (some (.request ⟨0x90,[]⟩ 0))]
    let self := (build (some Loopback.config)).run Loopback.env rounds
    (.closed 0 ∈ self.trace ∧ self.connection = none ∧ self.status = .disconnected) ∧
    ∃ n, (n = 1 ∨ n = 2) ∧
      Up ((build (some Loopback.config)).run Loopback.env (rounds ++ List.replicate n .tick)) :=
  ⟨by decide +kernel,recovers_within_two_ticks Loopback.env Loopback.config Loopback.greeting
    (some Loopback.config) _ (by decide) (by decide +kernel) (by decide +kernel)
    (by rw [Unlatched]; decide +kernel) (Loopback.cooperates _)⟩

/-- A client is reconfigured: the connection there was is given up, the latch is gone. -/
theorem handleCommand_configure (hl : Linked env self) (hs : self.shutdown = false)
    (config : ConnectionConfig) :
    let task := self.handleCommand env (.configure (some config))
    task.shutdown = false ∧ task.connection = none ∧ task.config = some config ∧
      Unlatched env task := by
  intro task
  have hr : Round env self (.recv (some (.configure (some config)))) task :=
    handleCommand_round hl _
  generalize task = task at hr ⊢
  cases hr with
  | ignored hs' =>
    rw [hs] at hs'
    cases hs'
  | configured _ _ _ => exact ⟨hs,rfl,rfl,by simp [Unlatched]⟩

/-- From every moment of a run that is not shut down, latched or not: a `configure` with a
server for which attempts go through, and one tick, and the client is connected. -/
theorem configure_connects (env : Env) (config : ConnectionConfig)
    (g : Greeting env.protocol config) (initial : Option ConnectionConfig)
    (rounds : List Select) (hopen : .recv none ∉ rounds)
    (hs : ((build initial).run env rounds).shutdown = false)
    (hcoop : Cooperates env g ((build initial).run env
      (rounds ++ [.recv (some (.configure (some config)))])).trace) :
    let task := (build initial).run env
      (rounds ++ [.recv (some (.configure (some config))),.tick])
    task.status = .connected g.hello.capabilities ∧ ∃ c, task.connection =
      some ⟨c,g.hello.capabilities,env.maxPayloadLen⟩ := by
  intro task
  let self := (build initial).run env rounds
  have hl : Linked env self := (Linked.build initial).run rounds
  obtain ⟨hs',hn,hconfig,hu⟩ := handleCommand_configure hl hs config
  have htask : task = (self.handleCommand env (.configure (some config))).handleTick env :=
    run_append hopen _
  have hmid : (build initial).run env (rounds ++ [.recv (some (.configure (some config)))]) =
      self.handleCommand env (.configure (some config)) := run_append hopen _
  rw [hmid] at hcoop
  obtain ⟨hconnection,hstatus⟩ :=
    (hcoop _ (List.suffix_refl _) ((hl.handleCommand _).quiet_none hn)).tryConnect hu hconfig
  rw [htask,handleTick_of_none hs' hn]
  exact ⟨hstatus,_,hconnection⟩

/-- A client without a configuration. -/
theorem configure_connects_loopback :
    ((build none).run Loopback.env
      [.tick,.recv (some (.configure (some Loopback.config))),.tick]).status =
      .connected Loopback.greeting.hello.capabilities :=
  (configure_connects Loopback.env Loopback.config Loopback.greeting none [.tick] (by decide)
    (by decide +kernel) (Loopback.cooperates _)).1

end BloopClient

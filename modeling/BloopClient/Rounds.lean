import BloopClient.TaskLife

/-!
# What one round of the loop can do

The inversion of the handlers: `Round env self select task` lists the ways a
round can go, each with the trace it leaves. A fact about every event of every
run is shown once per way, by `run_induction`.
-/

namespace BloopClient
open Tracelib ClientTask

/-- What happens on the streams, requests of the handles apart, and on the
status watch. -/
def Event.Inert : Event → Prop
  | .opened _ _ => True
  | .wrote _ role _ _ => role.isRequest = false
  | .read _ role _ _ => role.isRequest = false
  | .closed _ => True
  | .published _ => True
  | _ => False

abbrev Idles : Trace → Trace → Prop := Extends Event.Inert

/-- Events of no consequence for what a guard may ask of a run: all but a
configuration, the start of an attempt, the storing of a connection, the frame
of a request, and a reply handed out. -/
def Event.Plain : Event → Prop
  | .configured _ => False
  | .connecting _ _ => False
  | .stored _ => False
  | .wrote _ role _ _ => role.isRequest = false
  | .answered _ (.ok _) => False
  | _ => True

/-- The trace of a request once its reply has been read. -/
def repliedTrace (connection : Connection) (message raw : RawMessage) (response : ℕ)
    (t : Trace) : Trace :=
  .read connection.id (.request response) connection.maxPayloadLen (some raw) ::
    .wrote connection.id (.request response) message .complete ::
    .received (.request message response) :: t

/-- The ways a round can go. -/
inductive Round (env : Env) (self : ClientTask) : Select → ClientTask → Prop
  | ignored {config} (hs : self.shutdown = true) :
      Round env self (.recv (some (.configure config)))
        (self.emit (.received (.configure config)))
  | configured {config t} (hs : self.shutdown = false)
      (hi : Idles (.received (.configure config) :: self.trace) t) (hq : Quiet env t none) :
      Round env self (.recv (some (.configure config)))
        ⟨config,none,if config.isSome then .disconnected else .unconfigured,false,self.shutdown,
          .configured config :: t⟩
  | refused {message response} (hs : self.shutdown = true) :
      Round env self (.recv (some (.request message response)))
        ((self.emit (.received (.request message response))).answer response (.error .shutdown))
  | offline {message response} (hs : self.shutdown = false) (hn : self.connection = none) :
      Round env self (.recv (some (.request message response)))
        ((self.emit (.received (.request message response))).answer response
          (.error .disconnected))
  | answered {message response connection raw} (hs : self.shutdown = false)
      (hc : self.connection = some connection) (hf : env.protocol.fatalReply raw = false) :
      Round env self (.recv (some (.request message response)))
        ({ self with
          trace := repliedTrace connection message raw response self.trace }.answer response
            (.ok raw))
  | answeredFatal {message response connection raw} (hs : self.shutdown = false)
      (hc : self.connection = some connection) (hf : env.protocol.fatalReply raw = true) :
      Round env self (.recv (some (.request message response)))
        ({ self with
          trace := repliedTrace connection message raw response self.trace }.dropConnection.answer
            response (.ok raw))
  | lost {message response connection r t} (hs : self.shutdown = false)
      (hc : self.connection = some connection) (hr : ∀ raw, r ≠ .ok raw)
      (hx : Exchanged connection (.request response) message
        (.received (.request message response) :: self.trace) r t) :
      Round env self (.recv (some (.request message response)))
        ({ self with trace := t }.dropConnection.answer response (.error .disconnected))
  | shutdown {response t} (hi : Idles (.received (.shutdown response) :: self.trace) t)
      (hq : Quiet env t none) :
      Round env self (.recv (some (.shutdown response)))
        ⟨self.config,none,.shutdown,self.credentialsInvalid,true,.acknowledged response :: t⟩
  | woundDown {t} (hi : Idles (.channelClosed :: self.trace) t) (hq : Quiet env t none) :
      Round env self (.recv none)
        ⟨self.config,none,.shutdown,self.credentialsInvalid,self.shutdown,t⟩
  | idle (hs : self.shutdown = true) : Round env self .tick self
  | pinged {connection t} (hs : self.shutdown = false) (hc : self.connection = some connection)
      (hg : Grows connection.id self.trace t) : Round env self .tick { self with trace := t }
  | pingLost {connection t} (hs : self.shutdown = false) (hc : self.connection = some connection)
      (hg : Grows connection.id self.trace t) :
      Round env self .tick { self with trace := t }.dropConnection
  | attempted {task} (hs : self.shutdown = false) (hn : self.connection = none)
      (ha : Attempted env self task) : Round env self .tick task

variable {env : Env} {c : ℕ} {t t' : Trace} {self : ClientTask}

theorem Event.OnLink.inert {e : Event} (h : e.OnLink c) : e.Inert := by
  cases e with
  | opened c' ip => trivial
  | wrote c' role frame w => exact h.2
  | read c' role bound reply => exact h.2
  | closed c' => trivial
  | _ => exact absurd h id

theorem Event.Inert.plain {e : Event} (h : e.Inert) : e.Plain := by
  cases e with
  | opened c' ip => trivial
  | wrote c' role frame w => exact h
  | read c' role bound reply => trivial
  | closed c' => trivial
  | published status => trivial
  | _ => exact absurd h id

theorem Grows.idles (h : Grows c t t') : Idles t t' := h.mono fun _ he => he.inert

theorem setStatus_idles (self : ClientTask) (status : ConnectionStatus) :
    Idles self.trace (self.setStatus status).trace := by
  rcases setStatus_trace self status with h | h
  · rw [h]
    exact Extends.refl _
  · rw [h]
    exact (Extends.refl _).cons trivial

theorem dropConnection_idles (self : ClientTask) : Idles self.trace self.dropConnection.trace := by
  refine Extends.trans ?_ (setStatus_idles self.closeConnection .disconnected)
  cases hc : self.connection with
  | none =>
    simp only [closeConnection,hc]
    exact Extends.refl _
  | some connection =>
    rw [closeConnection_some hc]
    exact (Extends.refl _).cons trivial

theorem quitConnection_idles (env : Env) (self : ClientTask) :
    Idles self.trace (self.quitConnection env).trace := by
  cases hc : self.connection with
  | none =>
    rw [quitConnection_none hc]
    exact Extends.refl _
  | some connection =>
    rw [quitConnection_some hc]
    exact (quit_grows connection self.trace).idles.cons trivial

@[simp] theorem dropConnection_config (self : ClientTask) :
    self.dropConnection.config = self.config := by
  cases hc : self.connection <;> simp [dropConnection,closeConnection,hc]

@[simp] theorem dropConnection_shutdown (self : ClientTask) :
    self.dropConnection.shutdown = self.shutdown := by
  cases hc : self.connection <;> simp [dropConnection,closeConnection,hc]

@[simp] theorem dropConnection_connection (self : ClientTask) :
    self.dropConnection.connection = none := by
  cases hc : self.connection <;> simp [dropConnection,closeConnection,hc]

theorem setStatus_eq (self : ClientTask) (status : ConnectionStatus) :
    self.setStatus status =
      { self with status := status, trace := (self.setStatus status).trace } := by
  unfold setStatus
  split
  · next h => rw [← h]
  · rfl

/-- Taking the connection, quitting it and publishing a status touches nothing
else but the flags set on the way, and leaves every connection closed. -/
theorem quit_setStatus_eq (hl : Linked env self) (invalid down : Bool)
    (status : ConnectionStatus) : ∃ t,
    ({ self.quitConnection env with credentialsInvalid := invalid, shutdown := down }).setStatus
        status = ⟨self.config,none,status,invalid,down,t⟩ ∧
      Idles self.trace t ∧ Quiet env t none := by
  have hq : Linked env { self.quitConnection env with
      credentialsInvalid := invalid, shutdown := down } :=
    .of_quiet (hl.quitConnection.quiet_none (quitConnection_connection _))
      (quitConnection_connection _)
  refine ⟨_,?_,(quitConnection_idles env self).trans (setStatus_idles { self.quitConnection env with
    credentialsInvalid := invalid, shutdown := down } status),
    (hq.setStatus status).quiet_none (by simp)⟩
  rw [setStatus_eq]
  simp

theorem handleCommand_round (hl : Linked env self) (command : Command) :
    Round env self (.recv (some command)) (self.handleCommand env command) := by
  have he : Linked env (self.emit (.received command)) := hl.emit rfl
  cases command with
  | configure config =>
    unfold handleCommand
    dsimp only
    split
    · next hs => exact .ignored hs
    · next hs =>
      have hs' : self.shutdown = false := by simpa [emit] using hs
      obtain ⟨t,ht,hi,hq⟩ := quit_setStatus_eq he false
        ((self.emit (.received (.configure config))).quitConnection env).shutdown
        (if config.isSome then .disconnected else .unconfigured)
      rw [ht,quitConnection_shutdown]
      exact .configured hs' hi hq
  | request message response =>
    unfold handleCommand
    dsimp only
    split
    · next hs => exact .refused hs
    · next hs =>
      have hs' : self.shutdown = false := by simpa [emit] using hs
      split
      · next hn => exact .offline hs' hn
      · next connection hc =>
        have hx := requestRaw_exchanged env connection (.request response) message
          (.received (.request message response) :: self.trace)
        unfold exchange
        simp only [emit]
        revert hx
        rcases connection.requestRaw env (.request response) message
          (.received (.request message response) :: self.trace) with ⟨r,t⟩
        intro hx
        dsimp only at hx ⊢
        split
        · next raw ht =>
          rw [Outcome.timeout_ok_iff] at ht
          subst ht
          cases hx with
          | replied =>
            split
            · next hf => exact .answeredFatal hs' hc hf
            · next hf => exact .answered hs' hc (by simpa using hf)
          | unanswered hr => exact absurd rfl (hr raw)
          | unsent hr => exact absurd rfl (hr raw)
        · next e ht =>
          refine .lost hs' hc ?_ hx
          rintro raw rfl
          cases ht
        · next e ht =>
          refine .lost hs' hc ?_ hx
          rintro raw rfl
          cases ht
  | shutdown response =>
    obtain ⟨t,ht,hi,hq⟩ := quit_setStatus_eq he
      ((self.emit (.received (.shutdown response))).quitConnection env).credentialsInvalid true
      .shutdown
    unfold handleCommand
    dsimp only
    rw [ht,quitConnection_credentialsInvalid]
    exact .shutdown hi hq

theorem windDown_round (hl : Linked env self) :
    Round env self (.recv none) (self.windDown env) := by
  have he : Linked env (self.emit .channelClosed) := hl.emit rfl
  obtain ⟨t,ht,hi,hq⟩ := quit_setStatus_eq he
    ((self.emit .channelClosed).quitConnection env).credentialsInvalid
    ((self.emit .channelClosed).quitConnection env).shutdown .shutdown
  unfold windDown
  rw [ht,quitConnection_credentialsInvalid,quitConnection_shutdown]
  exact .woundDown hi hq

theorem handleTick_round (hl : Linked env self) : Round env self .tick (self.handleTick env) := by
  unfold handleTick
  split
  · next hs => exact .idle hs
  · next hs =>
    have hs' : self.shutdown = false := by simpa using hs
    split
    · next connection hc =>
      have hg := ping_grows env connection self.trace
      dsimp only
      split
      · exact .pinged hs' hc hg
      · exact .pingLost hs' hc hg
      · exact .pingLost hs' hc hg
    · next hn =>
      exact .attempted hs' hn (tryConnect_attempted ((hl.quiet_none hn).unborn _ le_rfl))

/-- What happens in an attempt. -/
def Event.OfAttempt : Event → Prop
  | .connecting _ _ => True
  | .connectReturned _ _ => True
  | .hookReturned _ _ => True
  | .stored _ => True
  | e => e.Inert

theorem Event.Inert.ofAttempt {e : Event} (h : e.Inert) : e.OfAttempt := by
  cases e <;> trivial

theorem Idles.ofAttempt (h : Idles t t') : Extends Event.OfAttempt t t' :=
  h.mono fun _ he => he.ofAttempt

/-- An attempt that begins adds events of its own to the trace, and no others. None
begins without a configuration or against the latch. -/
theorem Attempted.started {task : ClientTask} (ha : Attempted env self task) :
    (task = self ∧ (self.config = none ∨ ¬ Unlatched env self)) ∨
      ∃ config, self.config = some config ∧ Extends Event.OfAttempt
        (.connecting (dials self.trace) config :: self.trace) task.trace := by
  have hreturned : ∀ {config : ConnectionConfig} {t : Trace} (a : Attempt),
      Grows (dials self.trace) (.connecting (dials self.trace) config :: self.trace) t →
      Extends Event.OfAttempt (.connecting (dials self.trace) config :: self.trace)
        (.connectReturned (dials self.trace) a :: t) :=
    fun a hg => hg.idles.ofAttempt.cons trivial
  cases ha with
  | latched hi hp => exact .inl ⟨rfl,.inr fun hu => hu ⟨hi,hp⟩⟩
  | unconfigured hc => exact .inl ⟨rfl,.inl hc⟩
  | @failed config a t _ hc _ hg _ =>
    exact .inr ⟨config,hc,(hreturned a hg).trans (setStatus_idles { self with
      trace := .connectReturned (dials self.trace) a :: t } _).ofAttempt⟩
  | @rejected config t _ hc hg _ =>
    exact .inr ⟨config,hc,(hreturned .rejected hg).trans (setStatus_idles { self with
      credentialsInvalid := true,
      trace := .connectReturned (dials self.trace) .rejected :: t } _).ofAttempt⟩
  | @dismissed config r t t₁ t₂ s _ hc _ hg hg₁ hg₂ _ _ =>
    have h₁ : Extends Event.OfAttempt (.connecting (dials self.trace) config :: self.trace)
        (.hookReturned (dials self.trace) r :: t₁) :=
      ((hreturned .accepted hg).trans hg₁.idles.ofAttempt).cons trivial
    have h₂ := h₁.trans hg₂.idles.ofAttempt
    exact .inr ⟨config,hc,
      (h₂.trans (setStatus_idles { self with trace := t₂ } _).ofAttempt).cons trivial⟩
  | @stored config hello t t₁ s _ hc hg _ hh _ _ =>
    have h₁ : Extends Event.OfAttempt (.connecting (dials self.trace) config :: self.trace)
        t₁ := by
      rcases hh.cases with rfl | ⟨t₂,hg₂,rfl⟩
      · exact hreturned .accepted hg
      · exact ((hreturned .accepted hg).trans hg₂.idles.ofAttempt).cons trivial
    exact .inr ⟨config,hc,(h₁.trans (setStatus_idles { self with
      credentialsInvalid := false, trace := t₁ } _).ofAttempt).cons trivial⟩

theorem Attempted.extends {task : ClientTask} (ha : Attempted env self task) :
    Extends Event.OfAttempt self.trace task.trace := by
  obtain ⟨rfl,_⟩ | ⟨config,_,hx⟩ := ha.started
  · exact Extends.refl _
  · exact ((Extends.refl _).cons trivial).trans hx

/-- An attempt leaves the configuration and the shutdown flag alone, and can
only store its own connection. -/
theorem Attempted.frame {task : ClientTask} (ha : Attempted env self task) :
    task.config = self.config ∧ task.shutdown = self.shutdown ∧
      (task.connection = self.connection ∨
        ∃ connection, task.connection = some connection ∧ connection.id = dials self.trace) := by
  cases ha with
  | latched _ _ => exact ⟨rfl,rfl,.inl rfl⟩
  | unconfigured _ => exact ⟨rfl,rfl,.inl rfl⟩
  | failed _ _ _ _ _ => exact ⟨by simp,by simp,.inl (by simp)⟩
  | rejected _ _ _ _ => exact ⟨by simp,by simp,.inl (by simp)⟩
  | dismissed _ _ _ _ _ _ _ _ =>
    exact ⟨by simp [emit],by simp [emit],.inl (by simp [emit])⟩
  | stored _ _ _ _ _ _ _ =>
    exact ⟨by simp [store,emit],by simp [store,emit],.inr ⟨_,rfl,rfl⟩⟩

section Guards

variable {G : Event → Trace → Prop} {task : ClientTask}

/-- A guard that plain events meet holds throughout an attempt if it holds where
the attempt begins and where its connection is stored. -/
theorem Attempted.always (ha : Attempted env self task) (h : Always G self.trace)
    (hplain : ∀ e past, e.Plain → G e past)
    (hdial : ∀ config, self.config = some config → Unlatched env self →
      G (.connecting (dials self.trace) config) self.trace)
    (hstored : ∀ {config hello t t₁ past}, Life env (dials self.trace) t (.accepted config hello) →
      Hooks env ⟨dials self.trace,hello.capabilities,env.maxPayloadLen⟩
        (.connectReturned (dials self.trace) .accepted :: t) t₁ →
      (past = t₁ ∨ ∃ status, past = .published status :: t₁) →
        G (.stored (dials self.trace)) past) : Always G task.trace := by
  have hidle : ∀ {t t' : Trace}, Idles t t' → Always G t → Always G t' :=
    fun hi h => h.extend hi fun e past he => hplain e past he.plain
  have hattempt : ∀ {config : ConnectionConfig} {t : Trace}, Unlatched env self →
      self.config = some config →
      Grows (dials self.trace) (.connecting (dials self.trace) config :: self.trace) t →
      Always G t :=
    fun hu hc hg => hidle hg.idles ⟨hdial _ hc hu,h⟩
  cases ha with
  | latched _ _ => exact h
  | unconfigured _ => exact h
  | failed hu hc _ hg _ =>
    exact hidle (setStatus_idles _ _) ⟨hplain _ _ trivial,hattempt hu hc hg⟩
  | rejected hu hc hg _ =>
    exact hidle (setStatus_idles _ _) ⟨hplain _ _ trivial,hattempt hu hc hg⟩
  | @dismissed config r t t₁ t₂ s hu hc _ hg hg₁ hg₂ _ _ =>
    have ht₁ : Always G t₁ := hidle hg₁.idles ⟨hplain _ _ trivial,hattempt hu hc hg⟩
    have ht₂ : Always G t₂ := hidle hg₂.idles ⟨hplain _ _ trivial,ht₁⟩
    exact ⟨hplain _ _ trivial,hidle (setStatus_idles { self with trace := t₂ } _) ht₂⟩
  | @stored config hello t t₁ s hu hc hg hl hh _ _ =>
    have ht : Always G (.connectReturned (dials self.trace) .accepted :: t) :=
      ⟨hplain _ _ trivial,hattempt hu hc hg⟩
    have ht₁ : Always G t₁ := by
      rcases hh.cases with rfl | ⟨t₂,hg₂,rfl⟩
      · exact ht
      · exact ⟨hplain _ _ trivial,hidle hg₂.idles ht⟩
    have hi := setStatus_idles { self with credentialsInvalid := false, trace := t₁ }
      (.connected hello.capabilities)
    have hp := setStatus_trace { self with credentialsInvalid := false, trace := t₁ }
      (.connected hello.capabilities)
    exact ⟨hstored hl hh (hp.imp id fun h => ⟨_,h⟩),hidle hi ht₁⟩

/-- A guard that plain events meet holds throughout a round if it holds where
the round does something else. -/
theorem Round.always {select : Select} (hr : Round env self select task) (h : Always G self.trace)
    (hplain : ∀ e past, e.Plain → G e past)
    (hconfigured : ∀ config t, self.shutdown = false →
      Idles (.received (.configure config) :: self.trace) t → Quiet env t none →
      G (.configured config) t)
    (hasked : ∀ connection message response w, self.shutdown = false →
      self.connection = some connection →
      G (.wrote connection.id (.request response) message w)
        (.received (.request message response) :: self.trace))
    (hanswered : ∀ connection message response raw past, self.connection = some connection →
      Idles (repliedTrace connection message raw response self.trace) past →
      G (.answered response (.ok raw)) past)
    (hdial : ∀ config, self.shutdown = false → self.connection = none →
      self.config = some config → Unlatched env self →
      G (.connecting (dials self.trace) config) self.trace)
    (hstored : ∀ {config hello t t₁ past}, Life env (dials self.trace) t (.accepted config hello) →
      Hooks env ⟨dials self.trace,hello.capabilities,env.maxPayloadLen⟩
        (.connectReturned (dials self.trace) .accepted :: t) t₁ →
      (past = t₁ ∨ ∃ status, past = .published status :: t₁) →
        G (.stored (dials self.trace)) past) : Always G task.trace := by
  have hidle : ∀ {t t' : Trace}, Idles t t' → Always G t → Always G t' :=
    fun hi h => h.extend hi fun e past he => hplain e past he.plain
  have hreceived : ∀ command, Always G (.received command :: self.trace) :=
    fun command => ⟨hplain _ _ trivial,h⟩
  have hreplied : ∀ {connection : Connection} {message raw : RawMessage} {response : ℕ},
      self.shutdown = false → self.connection = some connection →
      Always G (repliedTrace connection message raw response self.trace) :=
    fun hs hc => ⟨hplain _ _ trivial,hasked _ _ _ _ hs hc,hreceived _⟩
  cases hr with
  | ignored _ => exact hreceived _
  | configured hs hi hq => exact ⟨hconfigured _ _ hs hi hq,hidle hi (hreceived _)⟩
  | refused _ => exact ⟨hplain _ _ trivial,hreceived _⟩
  | offline _ _ => exact ⟨hplain _ _ trivial,hreceived _⟩
  | answered hs hc _ =>
    exact ⟨hanswered _ _ _ _ _ hc (Extends.refl _),hreplied hs hc⟩
  | answeredFatal hs hc _ =>
    exact ⟨hanswered _ _ _ _ _ hc (dropConnection_idles _),
      hidle (dropConnection_idles _) (hreplied hs hc)⟩
  | @lost message response connection r t hs hc _ hx =>
    have ht : Always G t := by
      cases hx with
      | replied => exact hreplied hs hc
      | unanswered _ => exact ⟨hplain _ _ trivial,hasked _ _ _ _ hs hc,hreceived _⟩
      | unsent _ => exact ⟨hasked _ _ _ _ hs hc,hreceived _⟩
    exact ⟨hplain _ _ trivial,hidle (dropConnection_idles { self with trace := t }) ht⟩
  | shutdown hi _ => exact ⟨hplain _ _ trivial,hidle hi (hreceived _)⟩
  | woundDown hi _ => exact hidle hi ⟨hplain _ _ trivial,h⟩
  | idle _ => exact h
  | pinged _ _ hg => exact hidle hg.idles h
  | @pingLost connection t _ _ hg =>
    exact hidle (dropConnection_idles { self with trace := t }) (hidle hg.idles h)
  | attempted hs hn ha => exact ha.always h hplain (fun config => hdial config hs hn) hstored

end Guards

/-- A fact that every round of a running task keeps gives what follows from it
now and once the task has wound down. -/
theorem run_ends {P Q : ClientTask → Prop} (hl : Linked env self) (h : P self)
    (hround : ∀ self select task, Linked env self → P self → select ≠ .recv none →
      Round env self select task → P task)
    (hnow : ∀ self, Linked env self → P self → Q self)
    (hlast : ∀ self task, Linked env self → P self → Round env self (.recv none) task → Q task)
    (rounds : List Select) : Q (self.run env rounds) := by
  induction rounds generalizing self with
  | nil => exact hnow _ hl h
  | cons select rounds ih =>
    cases select with
    | recv command =>
      cases command with
      | some command =>
        exact ih (hl.handleCommand command)
          (hround _ _ _ hl h (by simp) (handleCommand_round hl command))
      | none => exact hlast _ _ hl h (windDown_round hl)
    | tick => exact ih hl.handleTick (hround _ _ _ hl h (by simp) (handleTick_round hl))

/-- A fact that every round keeps holds after every run. -/
theorem run_induction {P : ClientTask → Prop} (hl : Linked env self) (h : P self)
    (hround : ∀ self select task, Linked env self → P self → Round env self select task → P task)
    (rounds : List Select) : P (self.run env rounds) :=
  run_ends hl h (fun _ _ _ hl h _ hr => hround _ _ _ hl h hr) (fun _ _ h => h)
    (fun _ _ hl h hr => hround _ _ _ hl h hr) rounds

end BloopClient

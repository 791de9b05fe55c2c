import BloopClient.Rounds
import BloopClient.Shutdown

/-!
# The latch

Under the latch policy a task whose credentials were rejected turns requests away
and makes no further attempt until it is configured again; a configured task makes
one on its next tick.
-/

namespace BloopClient
open Tracelib ClientTask

variable {env : Env} {self task : ClientTask}

/-- The event sends credentials, or a part of them. -/
def Event.sendsCredentials : Event → Bool
  | .wrote _ .authentication _ _ => true
  | _ => false

theorem Event.sendsCredentials_of_not_isWrite {e : Event} (h : e.isWrite = false) :
    e.sendsCredentials = false := by
  cases e with
  | wrote c role frame w => cases h
  | _ => rfl

/-- What a task with rejected credentials does in one round: a request is received and
answered, and nothing else happens. -/
def turnAway : Select → Trace
  | .recv (some (.request message response)) =>
    [.answered response (.error .disconnected),.received (.request message response)]
  | _ => []

/-- What it does in the rounds to come, most recent first. -/
def turnedAway : List Select → Trace
  | [] => []
  | round :: rounds => turnedAway rounds ++ turnAway round

/-- The credentials were rejected, and the latch holds the task back. -/
structure Latched (env : Env) (task : ClientTask) : Prop where
  policy : env.invalidCredentialsPolicy = .latch
  invalid : task.credentialsInvalid = true
  status : task.status = .invalidCredentials
  connection : task.connection = none
  running : task.shutdown = false

namespace Latched

theorem handleTick (h : Latched env self) : self.handleTick env = self := by
  simp [ClientTask.handleTick,h.running,h.connection,tryConnect,h.invalid,h.policy]

theorem request (h : Latched env self) (message : RawMessage) (response : ℕ) :
    self.handleCommand env (.request message response) =
      { self with trace := turnAway (.recv (some (.request message response))) ++ self.trace } := by
  simp [handleCommand,emit,answer,h.running,h.connection,turnAway]

theorem of_trace (h : Latched env self) (t : Trace) : Latched env { self with trace := t } :=
  ⟨h.policy,h.invalid,h.status,h.connection,h.running⟩

/-- Nothing but the trace changes while the latch holds. -/
theorem run (h : Latched env self) {rounds : List Select}
    (hr : ∀ round ∈ rounds, round = .tick ∨ ∃ message response,
      round = .recv (some (.request message response))) :
    self.run env rounds = { self with trace := turnedAway rounds ++ self.trace } := by
  induction rounds generalizing self with
  | nil => rfl
  | cons round rounds ih =>
    obtain ⟨hround,hrounds⟩ := List.forall_mem_cons.mp hr
    obtain rfl | ⟨message,response,rfl⟩ := hround
    · rw [ClientTask.run,h.handleTick,ih h hrounds]
      simp [turnedAway,turnAway]
    · rw [ClientTask.run,h.request,ih (h.of_trace _) hrounds]
      simp [turnedAway]

theorem windDown_trace (h : Latched env self) :
    (self.windDown env).trace = .published .shutdown :: .channelClosed :: self.trace := by
  simp [ClientTask.windDown,emit,quitConnection,h.connection,setStatus,h.status]

theorem shutdown_trace (h : Latched env self) (response : ℕ) :
    (self.handleCommand env (.shutdown response)).trace = .acknowledged response ::
      .published .shutdown :: .received (.shutdown response) :: self.trace := by
  simp [handleCommand,emit,quitConnection,h.connection,setStatus,h.status]

/-- No attempt is made and no credentials are sent until the task is configured. -/
theorem run_quiet (h : Latched env self) {rounds : List Select}
    (hr : ∀ config, .recv (some (.configure config)) ∉ rounds) :
    Extends (fun e => e.isConnecting = false ∧ e.sendsCredentials = false) self.trace
      (self.run env rounds).trace := by
  induction rounds generalizing self with
  | nil => exact Extends.refl _
  | cons round rounds ih =>
    have hrounds : ∀ config, .recv (some (.configure config)) ∉ rounds :=
      fun config hm => hr config (List.mem_cons_of_mem _ hm)
    cases round with
    | tick =>
      rw [ClientTask.run,h.handleTick]
      exact ih h hrounds
    | recv command =>
      cases command with
      | none =>
        rw [ClientTask.run,h.windDown_trace]
        exact ((Extends.refl _).cons ⟨rfl,rfl⟩).cons ⟨rfl,rfl⟩
      | some command =>
        cases command with
        | configure config => exact absurd List.mem_cons_self (hr config)
        | request message response =>
          rw [ClientTask.run,h.request]
          refine Extends.trans ?_ (ih (h.of_trace _) hrounds)
          exact ⟨turnAway (.recv (some (.request message response))),rfl,by
            simp [turnAway,Event.isConnecting,Event.sendsCredentials]⟩
        | shutdown response =>
          rw [ClientTask.run,(down_shutdown env self response).run rounds]
          have hquiet := aftermath_quiet rounds
          refine Extends.trans ?_ ⟨aftermath rounds,rfl,?_⟩
          · rw [h.shutdown_trace]
            exact (((Extends.refl _).cons ⟨rfl,rfl⟩).cons ⟨rfl,rfl⟩).cons ⟨rfl,rfl⟩
          · intro e he
            exact ⟨(hquiet e he).2,Event.sendsCredentials_of_not_isWrite (hquiet e he).1⟩

end Latched

/-- The event is the end of an attempt by a rejection. -/
def Event.isRejection : Event → Bool
  | .connectReturned _ .rejected => true
  | _ => false

theorem Event.Inert.isRejection {e : Event} (h : e.Inert) : e.isRejection = false := by
  cases e <;> first
    | rfl
    | exact absurd h id

/-- The trace grew, and no attempt was rejected. -/
abbrev Unrejected : Trace → Trace → Prop := Extends fun e => e.isRejection = false

theorem Idles.unrejected {t t' : Trace} (h : Idles t t') : Unrejected t t' :=
  h.mono fun _ he => he.isRejection

/-- An attempt that does not end with a rejection has no rejection among its events,
and one that does leaves the latch down. -/
theorem Attempted.rejects (ha : Attempted env self task) (hs : self.shutdown = false)
    (hn : self.connection = none) (hp : env.invalidCredentialsPolicy = .latch) :
    Unrejected self.trace task.trace ∨ Latched env task := by
  have hdialed : ∀ {config : ConnectionConfig} {t : Trace},
      Grows (dials self.trace) (.connecting (dials self.trace) config :: self.trace) t →
      Unrejected self.trace t := by
    intro config t hg
    have hstart : Unrejected self.trace (.connecting (dials self.trace) config :: self.trace) :=
      (Extends.refl _).cons rfl
    exact hstart.trans hg.idles.unrejected
  cases ha with
  | latched _ _ => exact .inl (Extends.refl _)
  | unconfigured _ => exact .inl (Extends.refl _)
  | @failed config a t _ _ ha hg _ =>
    have hend : (Event.connectReturned (dials self.trace) a).isRejection = false := by
      cases a with
      | rejected => exact absurd rfl ha.2
      | _ => rfl
    exact .inl (((hdialed hg).cons hend).trans (setStatus_idles { self with
      trace := .connectReturned (dials self.trace) a :: t } _).unrejected)
  | rejected _ _ _ _ =>
    exact .inr ⟨hp,by simp,by simp,by simpa using hn,by simpa using hs⟩
  | @dismissed config r t t₁ t₂ s _ _ _ hg hg₁ hg₂ _ _ =>
    have h₁ := ((hdialed hg).cons rfl).trans hg₁.idles.unrejected
    have h₂ := (h₁.cons rfl).trans hg₂.idles.unrejected
    exact .inl ((h₂.trans (setStatus_idles { self with trace := t₂ } _).unrejected).cons rfl)
  | @stored config hello t t₁ s _ _ hg _ hh _ _ =>
    have h₁ : Unrejected self.trace t₁ := by
      obtain rfl | ⟨t₂,hg₂,rfl⟩ := hh.cases
      · exact (hdialed hg).cons rfl
      · exact (((hdialed hg).cons rfl).trans hg₂.idles.unrejected).cons rfl
    exact .inl ((h₁.trans (setStatus_idles { self with
      credentialsInvalid := false, trace := t₁ } _).unrejected).cons rfl)

/-- A tick with a rejection among its events leaves the latch down. -/
theorem latched_of_rejected (hl : Linked env self) (hp : env.invalidCredentialsPolicy = .latch)
    {new : Trace} {c : ℕ} (ht : (self.handleTick env).trace = new ++ self.trace)
    (hc : .connectReturned c .rejected ∈ new) : Latched env (self.handleTick env) := by
  have hnone : Unrejected self.trace (self.handleTick env).trace →
      Latched env (self.handleTick env) := by
    rintro ⟨new',ht',hnew⟩
    obtain rfl : new = new' := List.append_cancel_right (ht.symm.trans ht')
    exact absurd (hnew _ hc) (by simp [Event.isRejection])
  generalize htask : self.handleTick env = task at hnone ⊢
  have hround : Round env self .tick task := htask ▸ handleTick_round hl
  cases hround with
  | idle _ => exact hnone (Extends.refl _)
  | pinged _ _ hg => exact hnone hg.idles.unrejected
  | @pingLost connection t _ _ hg =>
    exact hnone (hg.idles.unrejected.trans
      (dropConnection_idles { self with trace := t }).unrejected)
  | attempted hs hn ha =>
    obtain h | h := ha.rejects hs hn hp
    · exact hnone h
    · exact h

/-- The task has a configuration it has not tried yet. -/
structure Primed (config : ConnectionConfig) (task : ClientTask) : Prop where
  config : task.config = some config
  connection : task.connection = none
  valid : task.credentialsInvalid = false
  running : task.shutdown = false

namespace Primed

variable {config : ConnectionConfig}

theorem configure (env : Env) (config : ConnectionConfig) (hs : self.shutdown = false) :
    Primed config (self.handleCommand env (.configure (some config))) := by
  have hs' : (self.emit (.received (.configure (some config)))).shutdown = false := hs
  simp only [handleCommand,hs',Bool.false_eq_true,if_false]
  refine ⟨rfl,?_,?_,?_⟩
  · simp [emit]
  · simp [emit]
  · simpa [emit] using hs

theorem requests (env : Env) (h : Primed config self) {rounds : List Select}
    (hr : ∀ round ∈ rounds, ∃ message response, round = .recv (some (.request message response))) :
    Primed config (self.run env rounds) := by
  induction rounds generalizing self with
  | nil => exact h
  | cons round rounds ih =>
    obtain ⟨⟨message,response,rfl⟩,hrounds⟩ := List.forall_mem_cons.mp hr
    rw [ClientTask.run]
    refine ih ?_ hrounds
    simp only [handleCommand,emit,answer,h.connection,h.running,Bool.false_eq_true,if_false]
    exact ⟨h.config,rfl,h.valid,rfl⟩

/-- The next tick makes an attempt. -/
theorem tick (h : Primed config self) (hl : Linked env self) :
    ∃ grown, (self.handleTick env).trace =
      grown ++ .connecting (dials self.trace) config :: self.trace := by
  have hround := handleTick_round hl
  generalize self.handleTick env = task at hround ⊢
  cases hround with
  | idle hs => exact absurd (hs.symm.trans h.running) (by decide)
  | pinged _ hc _ => rw [h.connection] at hc; cases hc
  | pingLost _ hc _ => rw [h.connection] at hc; cases hc
  | attempted hs hn ha =>
    obtain ⟨_,hnone | hlatch⟩ | ⟨config',hc,grown,ht,_⟩ := ha.started
    · rw [h.config] at hnone
      cases hnone
    · refine absurd ?_ hlatch
      rintro ⟨hi,_⟩
      exact absurd (hi.symm.trans h.valid) (by decide)
    · obtain rfl := Option.some.inj (h.config.symm.trans hc)
      exact ⟨grown,ht⟩

end Primed

/-- Only a shutdown shuts a task down. -/
theorem Round.running {select : Select} (hr : Round env self select task)
    (hs : self.shutdown = false) (hne : ∀ response, select ≠ .recv (some (.shutdown response))) :
    task.shutdown = false := by
  cases hr with
  | shutdown _ _ => exact absurd rfl (hne _)
  | answeredFatal _ _ _ => simpa [answer,emit] using hs
  | lost _ _ _ _ => simpa [answer,emit] using hs
  | pingLost _ _ _ => simpa using hs
  | attempted _ _ ha => rw [ha.frame.2.1,hs]
  | _ => exact hs

theorem run_running (hl : Linked env self) (hs : self.shutdown = false) {rounds : List Select}
    (hr : ∀ response, .recv (some (.shutdown response)) ∉ rounds) :
    (self.run env rounds).shutdown = false := by
  induction rounds generalizing self with
  | nil => exact hs
  | cons round rounds ih =>
    have hrounds : ∀ response, .recv (some (.shutdown response)) ∉ rounds :=
      fun response hm => hr response (List.mem_cons_of_mem _ hm)
    have hround : ∀ response, round ≠ .recv (some (.shutdown response)) := by
      rintro response rfl
      exact hr response List.mem_cons_self
    cases round with
    | tick => exact ih hl.handleTick ((handleTick_round hl).running hs hround) hrounds
    | recv command =>
      cases command with
      | none => exact (windDown_round hl).running hs hround
      | some command =>
        exact ih (hl.handleCommand command) ((handleCommand_round hl command).running hs hround)
          hrounds

/-- The latch policy, for every run. A tick among whose events is a rejection: in the
rounds behind it no attempt is made and no credentials are sent until one of them is a
`Configure`, and as long as they are only ticks and requests the status stays
`InvalidCredentials` and each request is answered with `Disconnected`. And a `Configure`
with a configuration, processed by a task that is not shut down, is followed by an
attempt with that configuration on the next tick. -/
theorem latch_policy (env : Env) (config : Option ConnectionConfig) (before : List Select)
    (hb : .recv none ∉ before) :
    (∀ (after : List Select) (new : Trace) (c : ℕ), env.invalidCredentialsPolicy = .latch →
      ((build config).run env (before ++ [.tick])).trace =
        new ++ ((build config).run env before).trace → .connectReturned c .rejected ∈ new →
      (∀ config, .recv (some (.configure config)) ∉ after) →
      (∃ grown, ((build config).run env (before ++ .tick :: after)).trace =
          grown ++ ((build config).run env (before ++ [.tick])).trace ∧
        ∀ e ∈ grown, e.isConnecting = false ∧ e.sendsCredentials = false) ∧
      ((∀ response, .recv (some (.shutdown response)) ∉ after) → .recv none ∉ after →
        ((build config).run env (before ++ .tick :: after)).status = .invalidCredentials ∧
        ((build config).run env (before ++ .tick :: after)).trace =
          turnedAway after ++ ((build config).run env (before ++ [.tick])).trace)) ∧
    ∀ (between : List Select) (next : ConnectionConfig),
      (∀ response, .recv (some (.shutdown response)) ∉ before) →
      (∀ round ∈ between, ∃ message response,
        round = .recv (some (.request message response))) →
      ∃ grown c, ((build config).run env
          (before ++ .recv (some (.configure (some next))) :: (between ++ [.tick]))).trace =
        grown ++ .connecting c next :: ((build config).run env
          (before ++ .recv (some (.configure (some next))) :: between)).trace := by
  have hl : Linked env ((build config).run env before) := (Linked.build config).run before
  constructor
  · intro after new c hp ht hc hafter
    have htick : ((build config).run env (before ++ [.tick])) =
        ((build config).run env before).handleTick env := run_append hb _
    have hlater : ((build config).run env (before ++ .tick :: after)) =
        ((build config).run env (before ++ [.tick])).run env after := by
      rw [htick,run_append hb]
      rfl
    have hlatched : Latched env ((build config).run env (before ++ [.tick])) := by
      rw [htick] at ht ⊢
      exact latched_of_rejected hl hp ht hc
    refine ⟨?_,?_⟩
    · rw [hlater]
      exact hlatched.run_quiet hafter
    · intro hshut hclosed
      have hrounds : ∀ round ∈ after, round = .tick ∨ ∃ message response,
          round = .recv (some (.request message response)) := by
        intro round hm
        match round with
        | .tick => exact .inl rfl
        | .recv none => exact absurd hm hclosed
        | .recv (some (.configure config)) => exact absurd hm (hafter config)
        | .recv (some (.shutdown response)) => exact absurd hm (hshut response)
        | .recv (some (.request message response)) => exact .inr ⟨message,response,rfl⟩
      rw [hlater,hlatched.run hrounds]
      exact ⟨hlatched.status,rfl⟩
  · intro between next hshut hbetween
    have hopen : .recv none ∉ between := by
      intro hm
      obtain ⟨message,response,h⟩ := hbetween _ hm
      cases h
    have hs : ((build config).run env before).shutdown = false :=
      run_running (Linked.build config) rfl hshut
    have hconfigured : ∀ rounds, ((build config).run env
        (before ++ .recv (some (.configure (some next))) :: rounds)) =
        (((build config).run env before).handleCommand env (.configure (some next))).run env
          rounds := fun rounds => run_append hb _
    rw [hconfigured,hconfigured,run_append hopen]
    have hprimed := (Primed.configure env next hs).requests env hbetween
    obtain ⟨grown,ht⟩ := hprimed.tick ((hl.handleCommand _).run between)
    exact ⟨grown,_,ht⟩

/-- A server that rejects the credentials. -/
def rejecting : Env :=
  { Loopback.env with
    net := { Loopback.net with
      readFrame := fun t c bound =>
        match Loopback.net.readFrame t c bound with
        | .frame ⟨0x04,_⟩ => .frame ⟨0x00,[1]⟩
        | delivery => delivery } }

/-- Rejected on the first tick, then a tick and a request: the latch holds. -/
theorem latch_policy_rejected :
    ((build (some Loopback.config)).run rejecting
      [.tick,.tick,.recv (some (.request (Loopback.echo [1]) 0))]).status = .invalidCredentials ∧
    ((build (some Loopback.config)).run rejecting
      [.tick,.tick,.recv (some (.request (Loopback.echo [1]) 0))]).trace =
      [.answered 0 (.error .disconnected),.received (.request (Loopback.echo [1]) 0)] ++
        ((build (some Loopback.config)).run rejecting [.tick]).trace ∧
    ∃ grown c, ((build (some Loopback.config)).run rejecting
        [.recv (some (.configure (some Loopback.config))),.tick]).trace =
      grown ++ .connecting c Loopback.config :: ((build (some Loopback.config)).run rejecting
        [.recv (some (.configure (some Loopback.config)))]).trace := by
  have h := latch_policy rejecting (some Loopback.config) [] (by decide)
  have hheld := (h.1 [.tick,.recv (some (.request (Loopback.echo [1]) 0))] _ 0 rfl
    (List.append_nil _).symm (by decide +kernel) (by simp)).2 (by simp) (by decide)
  exact ⟨hheld.1,hheld.2,h.2 [] Loopback.config (by simp) (by simp)⟩

end BloopClient

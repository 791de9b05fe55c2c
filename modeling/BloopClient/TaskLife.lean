import BloopClient.ClientTask
import BloopClient.ConnectionLife

/-!
# Connections of a task live by the rules

What each handler of a connection task can do, and the invariant of its runs:
the stored connection is ready, every other connection is closed, and the
numbers not yet used belong to connections that have not been born.
-/

namespace BloopClient
open Tracelib

variable {env : Env} {c : ℕ} {t t' : Trace} {live : Option ℕ}

-- ════════════════════════════════════════════════════════════════════════
-- All connections but one
-- ════════════════════════════════════════════════════════════════════════

/-- Every connection but the live one is closed, or not yet born. -/
structure Quiet (env : Env) (t : Trace) (live : Option ℕ) : Prop where
  lt : ∀ c, live = some c → c < dials t
  closed : ∀ c, c < dials t → live ≠ some c → ∃ b, Life env c t (.closed b)
  unborn : ∀ c, dials t ≤ c → Life env c t .unborn

@[simp] theorem dials_nil : dials [] = 0 := rfl

theorem dials_cons (e : Event) : dials (e :: t) = dials t + if e.isConnecting then 1 else 0 :=
  List.countP_cons ..

theorem dials_cons_of_ne {e : Event} (h : e.isConnecting = false) : dials (e :: t) = dials t := by
  simp [dials_cons,h]

theorem Event.OnLink.conn {e : Event} (h : e.OnLink c) : e.conn = some c := by
  cases e <;> simp_all [Event.OnLink,Event.conn]

theorem Event.OnLink.isConnecting {e : Event} (h : e.OnLink c) : e.isConnecting = false := by
  cases e <;> simp_all [Event.OnLink,Event.isConnecting]

namespace Quiet

theorem nil : Quiet env [] none := by
  refine ⟨by simp,?_,fun c _ => .nil⟩
  intro c hc
  simp at hc

/-- Events of the live connection, and of none, leave the others alone. -/
theorem cons {e : Event} (h : Quiet env t live) (hd : e.isConnecting = false)
    (he : e.conn = none ∨ e.conn = live) : Quiet env (e :: t) live := by
  have hne : ∀ c, live ≠ some c → e.conn ≠ some c := by
    intro c hc
    rcases he with he | he
    · rw [he]; simp
    · rwa [he]
  refine ⟨?_,?_,?_⟩
  · intro c hc
    rw [dials_cons_of_ne hd]
    exact h.lt c hc
  · intro c hc hl
    rw [dials_cons_of_ne hd] at hc
    obtain ⟨b,hb⟩ := h.closed c hc hl
    exact ⟨b,hb.skip (hne c hl)⟩
  · intro c hc
    rw [dials_cons_of_ne hd] at hc
    refine (h.unborn c hc).skip (hne c ?_)
    intro hl
    exact absurd (h.lt c hl) (Nat.not_lt.mpr hc)

theorem grow (h : Quiet env t (some c)) (hg : Grows c t t') : Quiet env t' (some c) := by
  refine hg.induction (motive := (Quiet env · (some c))) ?_ h
  intro e past he hp
  exact hp.cons he.isConnecting (.inr he.conn)

theorem exchange {connection : Connection} {role : Role} {frame : RawMessage}
    {r : Outcome FrameError RawMessage} (h : Quiet env t (some connection.id))
    (hx : Exchanged connection role frame t r t') : Quiet env t' (some connection.id) := by
  cases hx with
  | replied => exact (h.cons rfl (.inr rfl)).cons rfl (.inr rfl)
  | unanswered _ => exact (h.cons rfl (.inr rfl)).cons rfl (.inr rfl)
  | unsent _ => exact h.cons rfl (.inr rfl)

/-- A connect attempt brings the next connection to life. -/
theorem dial (h : Quiet env t none) (config : ConnectionConfig) :
    Quiet env (.connecting (dials t) config :: t) (some (dials t)) := by
  have hd : dials (.connecting (dials t) config :: t) = dials t + 1 := by
    simp [dials_cons,Event.isConnecting]
  have hne : ∀ c, c ≠ dials t → (Event.connecting (dials t) config).conn ≠ some c := by
    intro c hc he
    simp only [Event.conn,Option.some.injEq] at he
    exact hc he.symm
  refine ⟨?_,?_,?_⟩
  · rintro c ⟨⟩
    omega
  · intro c hc hl
    have hcd : c ≠ dials t := fun he => hl (by rw [he])
    obtain ⟨b,hb⟩ := h.closed c (by omega) (by simp)
    exact ⟨b,hb.skip (hne c hcd)⟩
  · intro c hc
    exact (h.unborn c (by omega)).skip (hne c (by omega))

/-- A closed connection is one among the others. -/
theorem retire {b : Bool} (h : Quiet env t (some c)) (hb : Life env c t (.closed b)) :
    Quiet env t none := by
  refine ⟨by simp,?_,h.unborn⟩
  intro c' hc' _
  by_cases he : c' = c
  · subst he
    exact ⟨b,hb⟩
  · exact h.closed c' hc' (by simpa using Ne.symm he)

/-- Every connection of the trace lives by the rules. -/
theorem life (h : Quiet env t live) (hl : ∀ c, live = some c → ∃ s, Life env c t s) (c : ℕ) :
    ∃ s, Life env c t s := by
  by_cases hc : live = some c
  · exact hl c hc
  · by_cases hd : c < dials t
    · obtain ⟨b,hb⟩ := h.closed c hd hc
      exact ⟨_,hb⟩
    · exact ⟨_,h.unborn c (Nat.not_lt.mp hd)⟩

end Quiet

-- ════════════════════════════════════════════════════════════════════════
-- What a handler can do
-- ════════════════════════════════════════════════════════════════════════

/-- The latch does not hold a task back from connecting. -/
def Unlatched (env : Env) (self : ClientTask) : Prop :=
  ¬ (self.credentialsInvalid = true ∧ env.invalidCredentialsPolicy = .latch)

/-- The hook, if there is one, has returned `Ok`. -/
def Hooks (env : Env) (connection : Connection) (t t' : Trace) : Prop :=
  (env.onConnect = none ∧ t' = t) ∨ ∃ hook t₁, env.onConnect = some hook ∧
    (hook connection.id connection.capabilities).run env connection t = (.ok (),t₁) ∧
      t' = .hookReturned connection.id .ok :: t₁

theorem Hooks.cases {connection : Connection} (h : Hooks env connection t t') :
    t' = t ∨ ∃ t₁, Grows connection.id t t₁ ∧ t' = .hookReturned connection.id .ok :: t₁ := by
  rcases h with ⟨_,ht⟩ | ⟨hook,t₁,_,hr,ht⟩
  · exact .inl ht
  · have hg := hook_grows env connection (hook connection.id connection.capabilities) t
    rw [hr] at hg
    exact .inr ⟨t₁,hg,ht⟩

/-- The ways `try_connect` can end. -/
inductive Attempted (env : Env) (self : ClientTask) : ClientTask → Prop
  | latched (hi : self.credentialsInvalid = true) (hp : env.invalidCredentialsPolicy = .latch) :
      Attempted env self self
  | unconfigured (hc : self.config = none) : Attempted env self self
  | failed {config a t} (hu : Unlatched env self) (hc : self.config = some config)
      (ha : a ≠ .accepted ∧ a ≠ .rejected)
      (hg : Grows (dials self.trace) (.connecting (dials self.trace) config :: self.trace) t)
      (hl : Life env (dials self.trace) (.connectReturned (dials self.trace) a :: t)
        (.closed false)) :
      Attempted env self
        ({ self with trace := .connectReturned (dials self.trace) a :: t }.setStatus .disconnected)
  | rejected {config t} (hu : Unlatched env self) (hc : self.config = some config)
      (hg : Grows (dials self.trace) (.connecting (dials self.trace) config :: self.trace) t)
      (hl : Life env (dials self.trace) (.connectReturned (dials self.trace) .rejected :: t)
        (.closed true)) :
      Attempted env self
        ({ self with
          credentialsInvalid := true
          trace := .connectReturned (dials self.trace) .rejected :: t }.setStatus
            .invalidCredentials)
  | dismissed {config r t t₁ t₂ s} (hu : Unlatched env self) (hc : self.config = some config)
      (hr : r ≠ .ok)
      (hg : Grows (dials self.trace) (.connecting (dials self.trace) config :: self.trace) t)
      (hg₁ : Grows (dials self.trace) (.connectReturned (dials self.trace) .accepted :: t) t₁)
      (hg₂ : Grows (dials self.trace) (.hookReturned (dials self.trace) r :: t₁) t₂)
      (hs : Ending s) (hl : Life env (dials self.trace) t₂ s) :
      Attempted env self
        (({ self with trace := t₂ }.setStatus .disconnected).emit (.closed (dials self.trace)))
  | stored {config hello t t₁ s} (hu : Unlatched env self) (hc : self.config = some config)
      (hg : Grows (dials self.trace) (.connecting (dials self.trace) config :: self.trace) t)
      (ha : Life env (dials self.trace) t (.accepted config hello))
      (hh : Hooks env ⟨dials self.trace,hello.capabilities,env.maxPayloadLen⟩
        (.connectReturned (dials self.trace) .accepted :: t) t₁)
      (hl : Life env (dials self.trace) t₁ s)
      (hs : Step env (dials self.trace) s (.stored (dials self.trace)) (.ready config hello)) :
      Attempted env self
        ({ self with trace := t₁ }.store ⟨dials self.trace,hello.capabilities,env.maxPayloadLen⟩)

/-- The arm for an established connection. -/
theorem adopt_attempted {self : ClientTask} {config : ConnectionConfig} {hello : ServerHandshake}
    (hu : Unlatched env self) (hc : self.config = some config)
    (hg : Grows (dials self.trace) (.connecting (dials self.trace) config :: self.trace) t)
    (hl : Life env (dials self.trace) t (.accepted config hello)) :
    Attempted env self
      ({ self with trace := .connectReturned (dials self.trace) .accepted :: t }.adopt env
        ⟨dials self.trace,hello.capabilities,env.maxPayloadLen⟩) := by
  have hl' := hl.step Step.connected
  unfold ClientTask.adopt
  split
  · next ho => exact .stored hu hc hg hl (.inl ⟨ho,rfl⟩) hl' (.storeUnhooked ho)
  · next hook ho =>
    have hsome : env.onConnect.isSome := by simp [ho]
    have hlife := hook_life ⟨dials self.trace,hello.capabilities,env.maxPayloadLen⟩ hsome rfl
      (hook (dials self.trace) hello.capabilities) hl'
    have hgrow := hook_grows env ⟨dials self.trace,hello.capabilities,env.maxPayloadLen⟩
      (hook (dials self.trace) hello.capabilities)
      (.connectReturned (dials self.trace) .accepted :: t)
    dsimp only at hgrow hlife ⊢
    split
    · next hr =>
      rw [Outcome.timeout_ok_iff] at hr
      exact .stored hu hc hg hl (.inr ⟨hook,_,ho,Prod.ext hr rfl,rfl⟩)
        (hlife.step (.hookOk hsome)) .store
    · have hf := hlife.step (Step.hookStopped (r := .failed) (by simp))
      obtain ⟨s,hs,hq⟩ := quit_life
        ⟨dials self.trace,hello.capabilities,env.maxPayloadLen⟩
        (.inr (.inl ⟨config,rfl⟩)) (by simp) hf
      exact .dismissed hu hc (by simp) hg hgrow (quit_grows _ _) hs hq
    · have hf := hlife.step (Step.hookStopped (r := .timedOut) (by simp))
      exact .dismissed hu hc (by simp) hg hgrow (Std.Refl.refl _) (.inr (.inl ⟨config,rfl⟩)) hf

theorem tryConnect_attempted {self : ClientTask}
    (h : Life env (dials self.trace) self.trace .unborn) :
    Attempted env self (self.tryConnect env) := by
  unfold ClientTask.tryConnect
  split
  · next hi =>
    simp only [Bool.and_eq_true,beq_iff_eq] at hi
    exact .latched hi.1 hi.2
  · next hi =>
    have hu : Unlatched env self := by simpa [Unlatched] using hi
    split
    · next hc => exact .unconfigured hc
    · next config hc =>
      have hd : Life env (dials self.trace) (.connecting (dials self.trace) config :: self.trace)
          (.dialing config) := h.step .dial
      have hl := connect_life _ hd
      have hg : Grows (dials self.trace) _ (connect env (dials self.trace) config
          (.connecting (dials self.trace) config :: self.trace)).2 := connect_grows _
      dsimp only at hl hg ⊢
      revert hl hg
      rcases connect env (dials self.trace) config
        (.connecting (dials self.trace) config :: self.trace) with ⟨r,t⟩
      intro hl hg
      -- a future that hands nothing over has closed its stream, or had none
      have hclosed : ∀ a, a ≠ .accepted ∧ a ≠ .rejected →
          (Life env (dials self.trace) t (.closed false) ∨
            Life env (dials self.trace) t (.dialing config)) →
          Life env (dials self.trace) (.connectReturned (dials self.trace) a :: t)
            (.closed false) := by
        rintro a ha (hl | hl)
        · exact hl.step (.failed ha)
        · exact hl.step (.undialed ha)
      cases r with
      | ok outcome =>
        cases outcome with
        | connected connection =>
          obtain ⟨hello,rfl,hl⟩ := hl
          exact adopt_attempted hu hc hg hl
        | invalidCredentials => exact .rejected hu hc hg (Life.step hl .rejected)
      | err e => exact .failed hu hc (by simp) hg (hclosed _ (by simp) hl)
      | dropped => exact .failed hu hc (by simp) hg (hclosed _ (by simp) hl)
      | elapsed => exact .failed hu hc (by simp) hg (hclosed _ (by simp) hl)

-- ════════════════════════════════════════════════════════════════════════
-- The invariant of a run
-- ════════════════════════════════════════════════════════════════════════

/-- The stored connection is ready, was opened with the present configuration
and reports the handshake's capabilities; all the others are closed. -/
structure Linked (env : Env) (task : ClientTask) : Prop where
  quiet : Quiet env task.trace (task.connection.map Connection.id)
  ready : ∀ connection, task.connection = some connection → ∃ config hello,
    task.config = some config ∧ connection.capabilities = hello.capabilities ∧
      connection.maxPayloadLen = env.maxPayloadLen ∧
      Life env connection.id task.trace (.ready config hello)

namespace ClientTask

@[simp] theorem setStatus_config (self : ClientTask) (status : ConnectionStatus) :
    (self.setStatus status).config = self.config := by
  unfold setStatus; split <;> rfl

@[simp] theorem setStatus_connection (self : ClientTask) (status : ConnectionStatus) :
    (self.setStatus status).connection = self.connection := by
  unfold setStatus; split <;> rfl

@[simp] theorem setStatus_credentialsInvalid (self : ClientTask) (status : ConnectionStatus) :
    (self.setStatus status).credentialsInvalid = self.credentialsInvalid := by
  unfold setStatus; split <;> rfl

@[simp] theorem setStatus_shutdown (self : ClientTask) (status : ConnectionStatus) :
    (self.setStatus status).shutdown = self.shutdown := by
  unfold setStatus; split <;> rfl

@[simp] theorem setStatus_status (self : ClientTask) (status : ConnectionStatus) :
    (self.setStatus status).status = status := by
  unfold setStatus
  split
  · next h => exact h
  · rfl

/-- Setting a status adds at most its publication to the trace. -/
theorem setStatus_trace (self : ClientTask) (status : ConnectionStatus) :
    (self.setStatus status).trace = self.trace ∨
      (self.setStatus status).trace = .published status :: self.trace := by
  unfold setStatus
  split
  · exact .inl rfl
  · exact .inr rfl

/-- Announcing a disconnect adds at most one write to the trace. -/
theorem quitConnection_some {self : ClientTask} {connection : Connection}
    (h : self.connection = some connection) :
    self.quitConnection env = { self with
      connection := none
      trace := .closed connection.id :: connection.quit env self.trace } := by
  simp [quitConnection,h]

theorem quitConnection_none {self : ClientTask} (h : self.connection = none) :
    self.quitConnection env = self := by
  simp [quitConnection,h]

@[simp] theorem quitConnection_connection (self : ClientTask) :
    (self.quitConnection env).connection = none := by
  cases hc : self.connection with
  | none => rw [quitConnection_none hc,hc]
  | some connection => rw [quitConnection_some hc]

@[simp] theorem quitConnection_config (self : ClientTask) :
    (self.quitConnection env).config = self.config := by
  cases hc : self.connection with
  | none => rw [quitConnection_none hc]
  | some connection => rw [quitConnection_some hc]

@[simp] theorem quitConnection_credentialsInvalid (self : ClientTask) :
    (self.quitConnection env).credentialsInvalid = self.credentialsInvalid := by
  cases hc : self.connection with
  | none => rw [quitConnection_none hc]
  | some connection => rw [quitConnection_some hc]

@[simp] theorem quitConnection_shutdown (self : ClientTask) :
    (self.quitConnection env).shutdown = self.shutdown := by
  cases hc : self.connection with
  | none => rw [quitConnection_none hc]
  | some connection => rw [quitConnection_some hc]

theorem closeConnection_some {self : ClientTask} {connection : Connection}
    (h : self.connection = some connection) :
    self.closeConnection = { self with
      connection := none
      trace := .closed connection.id :: self.trace } := by
  simp [closeConnection,h]

end ClientTask

open ClientTask

variable {self : ClientTask}

namespace Linked

theorem build (config : Option ConnectionConfig) : Linked env (ClientTask.build config) :=
  ⟨Quiet.nil,by simp [ClientTask.build]⟩

theorem of_quiet (hq : Quiet env self.trace none) (hn : self.connection = none) :
    Linked env self :=
  ⟨by simpa [hn] using hq,by simp [hn]⟩

theorem quiet_none (h : Linked env self) (hn : self.connection = none) :
    Quiet env self.trace none := by
  simpa [hn] using h.quiet

theorem quiet_some (h : Linked env self) {connection : Connection}
    (hc : self.connection = some connection) : Quiet env self.trace (some connection.id) := by
  simpa [hc] using h.quiet

/-- Every connection of the task lives by the rules. -/
theorem life (h : Linked env self) (c : ℕ) : ∃ s, Life env c self.trace s := by
  refine h.quiet.life ?_ c
  intro c hc
  obtain ⟨connection,hs,rfl⟩ := Option.map_eq_some_iff.mp hc
  obtain ⟨config,hello,_,_,_,hl⟩ := h.ready connection hs
  exact ⟨_,hl⟩

/-- An event of no connection changes nothing. -/
theorem emit {e : Event} (h : Linked env self) (he : e.conn = none) :
    Linked env (self.emit e) := by
  have hd : e.isConnecting = false := by cases e <;> simp_all [Event.conn,Event.isConnecting]
  refine ⟨h.quiet.cons hd (.inl he),?_⟩
  intro connection hc
  obtain ⟨config,hello,h₁,h₂,h₃,hl⟩ := h.ready connection hc
  exact ⟨config,hello,h₁,h₂,h₃,hl.skip (by simp [he])⟩

theorem setStatus (h : Linked env self) (status : ConnectionStatus) :
    Linked env (self.setStatus status) := by
  unfold ClientTask.setStatus
  split
  · exact h
  · have he := h.emit (e := .published status) rfl
    exact ⟨he.quiet,he.ready⟩

/-- Closing the connection of a task, whatever the exchange before it came to. -/
theorem close {connection : Connection} {s : Stage} (hq : Quiet env t (some connection.id))
    (hs : Ending s) (hl : Life env connection.id t s) :
    Quiet env (.closed connection.id :: t) none :=
  (hq.cons rfl (.inr rfl)).retire (hl.step hs.step)

theorem dropConnection {connection : Connection} {s : Stage}
    (hc : self.connection = some connection) (hq : Quiet env self.trace (some connection.id))
    (hs : Ending s) (hl : Life env connection.id self.trace s) :
    Linked env self.dropConnection := by
  unfold ClientTask.dropConnection
  rw [closeConnection_some hc]
  exact (of_quiet (close hq hs hl) rfl).setStatus _

theorem quitConnection (h : Linked env self) : Linked env (self.quitConnection env) := by
  cases hc : self.connection with
  | none => rwa [quitConnection_none hc]
  | some connection =>
    obtain ⟨config,hello,_,_,_,hl⟩ := h.ready connection hc
    obtain ⟨s,hs,hl'⟩ := quit_life _ (.inl ⟨config,hello,rfl⟩) (by simp) hl
    rw [quitConnection_some hc]
    exact of_quiet (close ((h.quiet_some hc).grow (quit_grows _ _)) hs hl') rfl

theorem exchange {connection : Connection} (h : Linked env self)
    (hc : self.connection = some connection) (message : RawMessage) (response : ℕ) :
    Linked env (self.exchange env connection message response) := by
  obtain ⟨config,hello,h₁,h₂,h₃,hl⟩ := h.ready connection hc
  have hx := ask_life connection message (Role.asks_request response) h₃ _ hl
  have hq := (h.quiet_some hc).exchange
    (requestRaw_exchanged env connection (.request response) message self.trace)
  unfold ClientTask.exchange
  revert hx hq
  rcases connection.requestRaw env (.request response) message self.trace with ⟨r,t⟩
  intro hx hq
  dsimp only at hx hq ⊢
  have hfail : Life env connection.id t (.failing config) →
      Linked env (({ self with trace := t }.dropConnection).answer response
        (.error .disconnected)) := by
    intro hf
    have hd : Linked env { self with trace := t }.dropConnection :=
      dropConnection hc hq (.inr (.inl ⟨config,rfl⟩)) hf
    exact hd.emit rfl
  cases r with
  | ok raw =>
    simp only [Outcome.timeout]
    split
    · have hd : Linked env { self with trace := t }.dropConnection :=
        dropConnection hc hq (.inl ⟨config,hello,rfl⟩) hx
      exact hd.emit rfl
    · have hk : Linked env { self with trace := t } := by
        refine ⟨by simpa [hc] using hq,?_⟩
        intro connection' hc'
        rw [hc] at hc'
        cases hc'
        exact ⟨config,hello,h₁,h₂,h₃,hx⟩
      exact hk.emit rfl
  | err e => exact hfail hx
  | dropped => exact hfail hx
  | elapsed => exact hfail hx

theorem handleCommand (h : Linked env self) (command : Command) :
    Linked env (self.handleCommand env command) := by
  have he := h.emit (e := .received command) rfl
  unfold ClientTask.handleCommand
  cases command with
  | configure config =>
    dsimp only
    split
    · exact he
    · have hq := he.quitConnection.quiet_none (quitConnection_connection _)
      have hs : Linked env { (self.emit (.received (.configure config))).quitConnection env with
          credentialsInvalid := false } := of_quiet hq (quitConnection_connection _)
      have hst := hs.setStatus (if config.isSome then .disconnected else .unconfigured)
      refine emit (e := .configured config) (of_quiet ?_ ?_) rfl
      · exact hst.quiet_none (by simp)
      · simp
  | request message response =>
    dsimp only
    split
    · exact he.emit rfl
    · split
      · exact he.emit rfl
      · next connection hc => exact he.exchange hc message response
  | shutdown response =>
    have hq := he.quitConnection.quiet_none (quitConnection_connection _)
    have hs : Linked env { (self.emit (.received (.shutdown response))).quitConnection env with
        shutdown := true } := of_quiet hq (quitConnection_connection _)
    exact (hs.setStatus .shutdown).emit rfl

/-- What a connect attempt leaves is linked again. -/
theorem attempted {task : ClientTask} (h : Linked env self) (hn : self.connection = none)
    (ha : Attempted env self task) : Linked env task := by
  have hq := h.quiet_none hn
  cases ha with
  | latched _ _ => exact h
  | unconfigured _ => exact h
  | @failed config a t _ _ _ hg hl =>
    have hd := (((hq.dial config).grow hg).cons (e := .connectReturned _ a) rfl (.inr rfl)).retire hl
    have hf : Linked env { self with trace := _ } := of_quiet hd hn
    exact hf.setStatus _
  | @rejected config t _ _ hg hl =>
    have hd := (((hq.dial config).grow hg).cons (e := .connectReturned _ .rejected) rfl
      (.inr rfl)).retire hl
    have hf : Linked env { self with credentialsInvalid := true, trace := _ } := of_quiet hd hn
    exact hf.setStatus _
  | @dismissed config r t t₁ t₂ s _ _ _ hg hg₁ hg₂ hs hl =>
    have hq₂ := (((((hq.dial config).grow hg).cons (e := .connectReturned _ .accepted) rfl
      (.inr rfl)).grow hg₁).cons (e := .hookReturned _ r) rfl (.inr rfl)).grow hg₂
    unfold ClientTask.setStatus
    split
    · exact of_quiet ((hq₂.cons (e := .closed _) rfl (.inr rfl)).retire (hl.step hs.step)) hn
    · exact of_quiet (((hq₂.cons (e := .published _) rfl (.inl rfl)).cons (e := .closed _) rfl
        (.inr rfl)).retire ((hl.skip (by simp [Event.conn])).step hs.step)) hn
  | @stored config hello t t₁ s _ hc hg _ hh hl hs =>
    have hq₁ := ((hq.dial config).grow hg).cons (e := .connectReturned _ .accepted) rfl (.inr rfl)
    have hq₂ : Quiet env t₁ (some (dials self.trace)) := by
      rcases hh.cases with rfl | ⟨t₂,hg₂,rfl⟩
      · exact hq₁
      · exact (hq₁.grow hg₂).cons rfl (.inr rfl)
    unfold ClientTask.store ClientTask.setStatus
    dsimp only
    split
    · refine ⟨hq₂.cons rfl (.inr rfl),?_⟩
      rintro connection ⟨⟩
      exact ⟨config,hello,hc,rfl,rfl,hl.step hs⟩
    · refine ⟨(hq₂.cons rfl (.inl rfl)).cons rfl (.inr rfl),?_⟩
      rintro connection ⟨⟩
      exact ⟨config,hello,hc,rfl,rfl,(hl.skip (by simp [Event.conn])).step hs⟩

theorem handleTick (h : Linked env self) : Linked env (self.handleTick env) := by
  unfold ClientTask.handleTick
  split
  · exact h
  · split
    · next connection hc =>
      obtain ⟨config,hello,h₁,h₂,h₃,hl⟩ := h.ready connection hc
      have hx := ping_life connection h₃ _ hl
      have hq := (h.quiet_some hc).grow (ping_grows env connection self.trace)
      revert hx hq
      rcases connection.ping env self.trace with ⟨r,t⟩
      intro hx hq
      dsimp only at hx hq ⊢
      have hfail : (∃ s, Ending s ∧ Life env connection.id t s) →
          Linked env { self with trace := t }.dropConnection := by
        rintro ⟨s,hs,hf⟩
        exact dropConnection hc hq hs hf
      cases r with
      | ok _ =>
        change Linked env { self with trace := t }
        refine ⟨by simpa [hc] using hq,?_⟩
        intro connection' hc'
        rw [hc] at hc'
        cases hc'
        exact ⟨config,hello,h₁,h₂,h₃,hx⟩
      | err e => exact hfail hx
      | dropped => exact hfail hx
      | elapsed => exact hfail hx
    · next hn =>
      exact h.attempted hn (tryConnect_attempted ((h.quiet_none hn).unborn _ le_rfl))

theorem windDown (h : Linked env self) : Linked env (self.windDown env) :=
  ((h.emit rfl).quitConnection).setStatus _

theorem run (h : Linked env self) (rounds : List Select) : Linked env (self.run env rounds) := by
  induction rounds generalizing self with
  | nil => exact h
  | cons round rounds ih =>
    cases round with
    | recv command =>
      cases command with
      | some command => exact ih (h.handleCommand command)
      | none => exact h.windDown
    | tick => exact ih h.handleTick

end Linked

end BloopClient

import BloopClient.StatusHistory
import Mathlib.Data.List.Chain

/-!
# The statuses a watcher can see

The status watch is notified when the status changes. The statuses it is notified of, in
order, are a path in a fixed graph; in particular a client goes through `disconnected` between
two connections, and nothing follows `shutdown`.
-/

namespace BloopClient
open Tracelib ClientTask

/-- The statuses the watch was notified of, the most recent first. -/
def published (t : Trace) : List ConnectionStatus :=
  t.filterMap fun
    | .published status => some status
    | _ => none

/-- The edges of the graph, from the status shown to the one published. -/
inductive StatusStep (policy : InvalidCredentialsPolicy) :
    ConnectionStatus → ConnectionStatus → Prop
  | unconfigured {status} (hs : status ≠ .shutdown) (hne : status ≠ .unconfigured) :
      StatusStep policy status .unconfigured
  | disconnected {status} (hs : status ≠ .shutdown) (hne : status ≠ .disconnected) :
      StatusStep policy status .disconnected
  | connected (capabilities) : StatusStep policy .disconnected (.connected capabilities)
  | rejected : StatusStep policy .disconnected .invalidCredentials
  | readmitted (capabilities) (hp : policy = .retry) :
      StatusStep policy .invalidCredentials (.connected capabilities)
  | shutdown {status} (hs : status ≠ .shutdown) : StatusStep policy status .shutdown

variable {env : Env} {c : ℕ} {t t' : Trace} {self task : ClientTask}

-- ════════════════════════════════════════════════════════════════════════
-- One notification a round
-- ════════════════════════════════════════════════════════════════════════

theorem Grows.published (h : Grows c t t') : published t' = published t := by
  refine h.congr ?_
  intro e past he
  cases e <;> first
    | exact absurd he id
    | rfl

theorem Exchanged.published {connection : Connection} {role : Role} {frame : RawMessage}
    {r : Outcome FrameError RawMessage} (h : Exchanged connection role frame t r t') :
    published t' = published t := by
  cases h <;> rfl

theorem Hooks.published {connection : Connection} (h : Hooks env connection t t') :
    published t' = published t := by
  rcases h.cases with rfl | ⟨t₁,hg,rfl⟩
  · rfl
  · exact hg.published

theorem quitConnection_published (env : Env) (self : ClientTask) :
    published (self.quitConnection env).trace = published self.trace := by
  cases hc : self.connection with
  | none => rw [quitConnection_none hc]
  | some connection =>
    rw [quitConnection_some hc]
    exact (quit_grows connection self.trace).published

theorem quitConnection_status (env : Env) (self : ClientTask) :
    (self.quitConnection env).status = self.status := by
  cases hc : self.connection with
  | none => rw [quitConnection_none hc]
  | some connection => rw [quitConnection_some hc]

/-- The watch is notified once if the status has changed, and not at all otherwise. -/
def Publishes (self task : ClientTask) : Prop :=
  (task.status = self.status ∧ published task.trace = published self.trace) ∨
    (task.status ≠ self.status ∧ published task.trace = task.status :: published self.trace)

namespace Publishes

theorem refl (self : ClientTask) : Publishes self self := .inl ⟨rfl,rfl⟩

/-- Events of no notification ahead of a round. -/
theorem behind {mid : ClientTask} (h : Publishes mid task) (hs : mid.status = self.status)
    (hp : published mid.trace = published self.trace) : Publishes self task := by
  unfold Publishes
  rw [← hs,← hp]
  exact h

/-- Events of no notification behind a round. -/
theorem ahead {mid : ClientTask} (h : Publishes self mid) (hs : task.status = mid.status)
    (hp : published task.trace = published mid.trace) : Publishes self task := by
  unfold Publishes
  rw [hs,hp]
  exact h

theorem setStatus (self : ClientTask) (status : ConnectionStatus) :
    Publishes self (self.setStatus status) := by
  unfold ClientTask.setStatus
  split
  · exact refl self
  · next hne => exact .inr ⟨fun he => hne he.symm,rfl⟩

/-- The connection is dropped behind what happened on it. -/
theorem dropConnection {connection : Connection} (hc : self.connection = some connection)
    (hp : published t = published self.trace) :
    Publishes self { self with trace := t }.dropConnection := by
  have hmid : { self with trace := t }.connection = some connection := hc
  unfold ClientTask.dropConnection
  rw [closeConnection_some hmid]
  exact (setStatus _ _).behind rfl hp

/-- The connection there is is quit, and a status set. -/
theorem quit (env : Env) (self : ClientTask) (invalid down : Bool) (status : ConnectionStatus) :
    Publishes self ({ self.quitConnection env with
      credentialsInvalid := invalid, shutdown := down }.setStatus status) :=
  (setStatus _ _).behind (quitConnection_status env self) (quitConnection_published env self)

theorem attempt (ha : Attempted env self task) : Publishes self task := by
  cases ha with
  | latched _ _ => exact refl self
  | unconfigured _ => exact refl self
  | failed _ _ _ hg _ => exact (setStatus _ _).behind rfl hg.published
  | rejected _ _ hg _ => exact (setStatus _ _).behind rfl hg.published
  | @dismissed _ _ _ _ t₂ _ _ _ _ hg hg₁ hg₂ _ _ =>
    have ht₂ := hg₂.published.trans (hg₁.published.trans hg.published)
    exact ((setStatus { self with trace := t₂ } .disconnected).ahead rfl rfl).behind rfl ht₂
  | @stored _ hello _ t₁ _ _ _ hg _ hh _ _ =>
    have ht₁ := hh.published.trans hg.published
    exact ((setStatus { self with credentialsInvalid := false, trace := t₁ }
      (.connected hello.capabilities)).ahead rfl rfl).behind rfl ht₁

theorem handleTick (hl : Linked env self) : Publishes self (self.handleTick env) := by
  have hr := handleTick_round hl
  generalize self.handleTick env = task at hr ⊢
  cases hr with
  | idle _ => exact refl self
  | pinged _ _ hg => exact .inl ⟨rfl,hg.published⟩
  | pingLost _ hc hg => exact dropConnection hc hg.published
  | attempted _ _ ha => exact attempt ha

theorem handleCommand (hl : Linked env self) (command : Command) :
    Publishes self (self.handleCommand env command) := by
  cases command with
  | configure config =>
    unfold ClientTask.handleCommand
    dsimp only
    split
    · exact .inl ⟨rfl,rfl⟩
    · have hq := quit env (self.emit (.received (.configure config))) false
        ((self.emit (.received (.configure config))).quitConnection env).shutdown
        (if config.isSome then .disconnected else .unconfigured)
      exact (hq.behind rfl rfl).ahead rfl rfl
  | request message response =>
    have hr := handleCommand_round hl (.request message response)
    generalize self.handleCommand env (.request message response) = task at hr ⊢
    cases hr with
    | refused _ => exact .inl ⟨rfl,rfl⟩
    | offline _ _ => exact .inl ⟨rfl,rfl⟩
    | answered _ _ _ => exact .inl ⟨rfl,rfl⟩
    | @answeredFatal _ _ connection raw _ hc _ =>
      have hd := dropConnection (t := repliedTrace connection message raw response self.trace)
        hc rfl
      exact hd.ahead rfl rfl
    | lost _ hc _ hx => exact (dropConnection hc hx.published).ahead rfl rfl
  | shutdown response =>
    have hq := quit env (self.emit (.received (.shutdown response)))
      ((self.emit (.received (.shutdown response))).quitConnection env).credentialsInvalid true
      .shutdown
    exact (hq.behind rfl rfl).ahead rfl rfl

theorem windDown (env : Env) (self : ClientTask) : Publishes self (self.windDown env) :=
  (quit env (self.emit .channelClosed)
    ((self.emit .channelClosed).quitConnection env).credentialsInvalid
    ((self.emit .channelClosed).quitConnection env).shutdown .shutdown).behind rfl rfl

end Publishes

-- ════════════════════════════════════════════════════════════════════════
-- The edges
-- ════════════════════════════════════════════════════════════════════════

/-- A task that is not shut down does not say so. -/
theorem Reported.ne_shutdown (h : Reported env self) (hs : self.shutdown = false) :
    self.status ≠ .shutdown := by
  have hd : shutDown self.trace = false := by rw [← h.shutdown,hs]
  rw [h.status,statusOf]
  simp only [hd,Bool.false_eq_true,if_false]
  repeat' split
  all_goals simp

/-- Between two connections. -/
theorem Reported.unlinked {config : ConnectionConfig} (h : Reported env self)
    (hs : self.shutdown = false) (hn : self.connection = none) (hc : self.config = some config) :
    self.status = if attemptSince self.trace = some .rejected then .invalidCredentials
      else .disconnected := by
  have hd : shutDown self.trace = false := by rw [← h.shutdown,hs]
  rw [h.status]
  simp [statusOf,hd,hc,hn]

theorem StatusStep.of_disconnected {policy : InvalidCredentialsPolicy}
    {status : ConnectionStatus} (hs : status ≠ .shutdown) :
    .disconnected = status ∨ StatusStep policy status .disconnected := by
  by_cases he : status = .disconnected
  · exact .inl he.symm
  · exact .inr (.disconnected hs he)

theorem StatusStep.of_configured {policy : InvalidCredentialsPolicy} {status : ConnectionStatus}
    (hs : status ≠ .shutdown) (config : Option ConnectionConfig) :
    (if config.isSome then .disconnected else .unconfigured) = status ∨
      StatusStep policy status (if config.isSome then .disconnected else .unconfigured) := by
  cases config with
  | none =>
    by_cases he : status = .unconfigured
    · exact .inl he.symm
    · exact .inr (.unconfigured hs he)
  | some config => exact of_disconnected hs

theorem Reported.attempt_step (h : Reported env self) (hs : self.shutdown = false)
    (hn : self.connection = none) (ha : Attempted env self task) :
    task.status = self.status ∨
      StatusStep env.invalidCredentialsPolicy self.status task.status := by
  have hdown : .disconnected = self.status ∨
      StatusStep env.invalidCredentialsPolicy self.status .disconnected :=
    StatusStep.of_disconnected (h.ne_shutdown hs)
  cases ha with
  | latched _ _ => exact .inl rfl
  | unconfigured _ => exact .inl rfl
  | failed _ _ _ _ _ =>
    rw [setStatus_status]
    exact hdown
  | rejected _ hc _ _ =>
    have hst := h.unlinked hs hn hc
    rw [setStatus_status,hst]
    split
    · exact .inl rfl
    · exact .inr .rejected
  | dismissed _ _ _ _ _ _ _ _ =>
    rw [emit,setStatus_status]
    exact hdown
  | @stored config hello t t₁ s hu hc hg _ hh _ _ =>
    have hst := h.unlinked hs hn hc
    have htask : ({ self with trace := t₁ }.store
        ⟨dials self.trace,hello.capabilities,env.maxPayloadLen⟩).status =
          .connected hello.capabilities := by
      simp [ClientTask.store,emit]
    rw [htask,hst]
    right
    split
    · next hrej =>
      refine .readmitted _ ?_
      cases hp : env.invalidCredentialsPolicy with
      | latch => exact absurd ⟨(h.latched hp).mpr hrej,hp⟩ hu
      | retry => rfl
    · exact .connected _

theorem Reported.drop_step {connection : Connection} (h : Reported env self)
    (hc : self.connection = some connection) {t : Trace} :
    StatusStep env.invalidCredentialsPolicy self.status
      { self with trace := t }.dropConnection.status := by
  have hst : { self with trace := t }.dropConnection.status = .disconnected :=
    setStatus_status _ _
  rw [hst,h.connected hc]
  exact .disconnected (by simp) (by simp)

/-- A round leaves the status as it is or follows an edge. -/
theorem Reported.round_step {select : Select} (h : Reported env self)
    (hr : Round env self select task) :
    task.status = self.status ∨
      StatusStep env.invalidCredentialsPolicy self.status task.status := by
  have hlast : .shutdown = self.status ∨
      StatusStep env.invalidCredentialsPolicy self.status .shutdown := by
    by_cases he : self.status = .shutdown
    · exact .inl he.symm
    · exact .inr (.shutdown he)
  cases hr with
  | ignored _ => exact .inl rfl
  | configured hs _ _ => exact StatusStep.of_configured (h.ne_shutdown hs) _
  | refused _ => exact .inl rfl
  | offline _ _ => exact .inl rfl
  | answered _ _ _ => exact .inl rfl
  | answeredFatal _ hc _ => exact .inr (h.drop_step hc)
  | lost _ hc _ _ => exact .inr (h.drop_step hc)
  | shutdown _ _ => exact hlast
  | woundDown _ _ => exact hlast
  | idle _ => exact .inl rfl
  | pinged _ _ _ => exact .inl rfl
  | pingLost _ hc _ => exact .inr (h.drop_step hc)
  | attempted hs hn ha => exact h.attempt_step hs hn ha

-- ════════════════════════════════════════════════════════════════════════
-- Paths
-- ════════════════════════════════════════════════════════════════════════

/-- The notifications lead from the initial status to the one shown now. -/
structure Watched (env : Env) (initial : ConnectionStatus) (task : ClientTask) : Prop where
  path : ((initial :: (published task.trace).reverse).IsChain
    (StatusStep env.invalidCredentialsPolicy))
  last : (initial :: (published task.trace).reverse).getLast? = some task.status

theorem Watched.round {initial : ConnectionStatus} {select : Select}
    (h : Watched env initial self) (hrep : Reported env self) (hr : Round env self select task)
    (hp : Publishes self task) : Watched env initial task := by
  rcases hp with ⟨hs,hp⟩ | ⟨hne,hp⟩
  · exact ⟨by rw [hp]; exact h.path,by rw [hp,hs]; exact h.last⟩
  · have hstep := (hrep.round_step hr).resolve_left hne
    have happend : initial :: (published task.trace).reverse =
        (initial :: (published self.trace).reverse) ++ [task.status] := by
      rw [hp,List.reverse_cons,List.cons_append]
    refine ⟨?_,by rw [happend,List.getLast?_concat]⟩
    rw [happend,List.isChain_append]
    refine ⟨h.path,List.isChain_singleton _,?_⟩
    intro status hstatus status' hstatus'
    rw [h.last] at hstatus
    cases hstatus
    cases hstatus'
    exact hstep

/-- In every run the statuses the watch is notified of, behind the one it starts with, form a
path in the graph that ends in the status it shows. -/
theorem status_path (env : Env) (config : Option ConnectionConfig) (rounds : List Select) :
    let task := (build config).run env rounds
    let seen := (build config).status :: (published task.trace).reverse
    seen.IsChain (StatusStep env.invalidCredentialsPolicy) ∧
      seen.getLast? = some task.status := by
  have hrun : ∀ {self : ClientTask}, Linked env self → Reported env self →
      Watched env (build config).status self →
      Watched env (build config).status (self.run env rounds) := by
    induction rounds with
    | nil => exact fun _ _ hw => hw
    | cons select rounds ih =>
      intro self hl hrep hw
      cases select with
      | recv command =>
        cases command with
        | none => exact hw.round hrep (windDown_round hl) (Publishes.windDown env self)
        | some command =>
          have hr := handleCommand_round hl command
          exact ih (hl.handleCommand command) (hrep.round (by simp) hr)
            (hw.round hrep hr (Publishes.handleCommand hl command))
      | tick =>
        have hr := handleTick_round hl
        exact ih hl.handleTick (hrep.round (by simp) hr)
          (hw.round hrep hr (Publishes.handleTick hl))
  have hw := hrun (Linked.build config) (Reported.build config)
    ⟨List.isChain_singleton _,rfl⟩
  exact ⟨hw.path,hw.last⟩

end BloopClient

import BloopClient.Rounds
import BloopClient.Shutdown
import BloopClient.WireOrder

/-!
# The published status refines the history

The status on the watch is a function of what has happened: of whether the task
was shut down, of the configuration and the connection it holds, and of how the
last connect attempt since the last configuration ended.
-/

namespace BloopClient
open Tracelib ClientTask

/-- The last connect attempt that has ended since the last configuration was
processed, or since the start. -/
def attemptSince : Trace → Option Attempt
  | [] => none
  | .configured _ :: _ => none
  | .connectReturned _ attempt :: _ => some attempt
  | _ :: past => attemptSince past

/-- The event ends the client's activity. -/
def Event.isFinal : Event → Bool
  | .acknowledged _ => true
  | .channelClosed => true
  | _ => false

/-- A shutdown has been processed, or the task has wound down. -/
def shutDown (t : Trace) : Bool := t.any Event.isFinal

/-- The status a history calls for, given the configuration and the connection
the task holds. -/
def statusOf (task : ClientTask) : ConnectionStatus :=
  if shutDown task.trace then .shutdown
  else if task.config = none then .unconfigured
  else
    match task.connection with
    | some connection => .connected connection.capabilities
    | none => if attemptSince task.trace = some .rejected then .invalidCredentials
      else .disconnected

variable {env : Env} {c : ℕ} {t t' : Trace} {self : ClientTask}

@[simp] theorem shutDown_cons (e : Event) (t : Trace) :
    shutDown (e :: t) = (e.isFinal || shutDown t) := rfl

theorem Idles.attemptSince (h : Idles t t') : attemptSince t' = attemptSince t := by
  refine h.congr ?_
  intro e past he
  cases e <;> first
    | exact absurd he id
    | rfl

theorem Idles.shutDown (h : Idles t t') : shutDown t' = shutDown t := by
  refine h.congr ?_
  intro e past he
  cases e <;> first
    | exact absurd he id
    | rfl

@[simp] theorem setStatus_attemptSince (self : ClientTask) (status : ConnectionStatus) :
    attemptSince (self.setStatus status).trace = attemptSince self.trace :=
  (setStatus_idles self status).attemptSince

@[simp] theorem setStatus_shutDown (self : ClientTask) (status : ConnectionStatus) :
    shutDown (self.setStatus status).trace = shutDown self.trace :=
  (setStatus_idles self status).shutDown

/-- What relates the fields of a running task to its history. -/
structure Reported (env : Env) (task : ClientTask) : Prop where
  shutdown : task.shutdown = shutDown task.trace
  down : task.shutdown = true → Down task
  attempted : attemptSince task.trace ≠ none → task.config ≠ none
  held : task.connection ≠ none → attemptSince task.trace = some .accepted
  latched : env.invalidCredentialsPolicy = .latch →
    (task.credentialsInvalid = true ↔ attemptSince task.trace = some .rejected)
  status : task.status = statusOf task

namespace Reported

theorem build (config : Option ConnectionConfig) : Reported env (ClientTask.build config) := by
  refine ⟨rfl,by simp [ClientTask.build],by simp [ClientTask.build,attemptSince],
    by simp [ClientTask.build],by simp [ClientTask.build,attemptSince],?_⟩
  cases config <;> rfl

/-- Events the history ignores. -/
theorem of_trace (h : Reported env self) (ha : attemptSince t = attemptSince self.trace)
    (hd : shutDown t = shutDown self.trace) : Reported env { self with trace := t } := by
  refine ⟨h.shutdown.trans hd.symm,?_,?_,?_,?_,?_⟩
  · intro hs
    exact ⟨hs,(h.down hs).status,(h.down hs).connection⟩
  · simpa only [ha] using h.attempted
  · simpa only [ha] using h.held
  · simpa only [ha] using h.latched
  · simpa only [statusOf,ha,hd] using h.status

/-- A task that is not shut down has no connection and says so. -/
theorem of_disconnected (hs : self.shutdown = false) (hd : shutDown self.trace = false)
    (hn : self.connection = none) (hc : self.config ≠ none)
    (hl : env.invalidCredentialsPolicy = .latch →
      (self.credentialsInvalid = true ↔ attemptSince self.trace = some .rejected))
    (hst : self.status = if attemptSince self.trace = some .rejected then .invalidCredentials
      else .disconnected) : Reported env self := by
  refine ⟨hs.trans hd.symm,by simp [hs],fun _ => hc,by simp [hn],hl,?_⟩
  simp [statusOf,hd,hc,hn,hst]

/-- A task that holds a connection is not shut down. -/
theorem running {connection : Connection} (h : Reported env self)
    (hc : self.connection = some connection) : self.shutdown = false := by
  by_contra hs
  have hn := (h.down (by simpa using hs)).connection
  rw [hc] at hn
  cases hn

/-- A connection that is held is reported. -/
theorem connected {connection : Connection} (h : Reported env self)
    (hc : self.connection = some connection) :
    self.status = .connected connection.capabilities := by
  have ha : attemptSince self.trace = some .accepted := h.held (by simp [hc])
  have hd : shutDown self.trace = false := by rw [← h.shutdown,h.running hc]
  rw [h.status]
  simp [statusOf,hd,h.attempted (by simp [ha]),hc]

theorem dropConnection {connection : Connection} (h : Reported env self)
    (hc : self.connection = some connection) : Reported env self.dropConnection := by
  have ha : attemptSince self.trace = some .accepted := h.held (by simp [hc])
  have hs := h.running hc
  have hd : shutDown self.trace = false := by rw [← h.shutdown,hs]
  unfold ClientTask.dropConnection
  rw [closeConnection_some hc]
  refine of_disconnected ?_ ?_ ?_ ?_ ?_ ?_
  · simpa using hs
  · simpa [Event.isFinal] using hd
  · simp
  · simpa using h.attempted (by simp [ha])
  · intro hp
    have hl := h.latched hp
    rw [ha] at hl
    simpa [attemptSince,ha] using hl
  · simp [attemptSince,ha]

/-- An attempt that stores nothing leaves the status its end calls for. -/
theorem ended {a : Attempt} {invalid : Bool} {status : ConnectionStatus} (h : Reported env self)
    (hs : self.shutdown = false) (hn : self.connection = none) (hc : self.config ≠ none)
    (ha : attemptSince t = some a) (hd : shutDown t = shutDown self.trace)
    (hi : env.invalidCredentialsPolicy = .latch → (invalid = true ↔ a = .rejected))
    (hst : status = if a = .rejected then .invalidCredentials else .disconnected) :
    Reported env ({ self with credentialsInvalid := invalid, trace := t }.setStatus status) := by
  refine of_disconnected ?_ ?_ ?_ ?_ ?_ ?_
  · simpa using hs
  · simp [hd,← h.shutdown,hs]
  · simpa using hn
  · simpa using hc
  · simpa [ha] using hi
  · simpa [ha] using hst

/-- Storing a connection an attempt has been accepted on. -/
theorem store {connection : Connection} (h : Reported env self) (hs : self.shutdown = false)
    (hc : self.config ≠ none) (ha : attemptSince t = some .accepted)
    (hd : shutDown t = shutDown self.trace) :
    Reported env ({ self with trace := t }.store connection) := by
  have hf : shutDown t = false := by rw [hd,← h.shutdown,hs]
  unfold ClientTask.store
  refine ⟨?_,?_,?_,?_,?_,?_⟩
  · simp [ClientTask.emit,Event.isFinal,hs,hf]
  · simp [ClientTask.emit,hs]
  · simpa [ClientTask.emit] using fun _ => hc
  · simpa [ClientTask.emit,attemptSince] using ha
  · simp [ClientTask.emit,attemptSince,ha]
  · simp [ClientTask.emit,statusOf,Event.isFinal,hf,hc]

theorem attempt {task : ClientTask} (h : Reported env self) (hs : self.shutdown = false)
    (hn : self.connection = none) (ha : Attempted env self task) : Reported env task := by
  -- an attempt the latch does not hold back is made with the flag down
  have hflag : ∀ a : Attempt, a ≠ .rejected → Unlatched env self →
      env.invalidCredentialsPolicy = .latch → (self.credentialsInvalid = true ↔ a = .rejected) := by
    intro a ha hu hp
    exact ⟨fun hi => absurd ⟨hi,hp⟩ hu,fun he => absurd he ha⟩
  cases ha with
  | latched _ _ => exact h
  | unconfigured _ => exact h
  | @failed config a t hu hc ha hg hl =>
    exact h.ended hs hn (by simp [hc]) rfl hg.idles.shutDown (hflag a ha.2 hu) (by simp [ha.2])
  | @rejected config t _ hc hg hl =>
    exact h.ended hs hn (by simp [hc]) rfl hg.idles.shutDown (by simp) (by simp)
  | @dismissed config r t t₁ t₂ s hu hc hr hg hg₁ hg₂ _ _ =>
    have ha : attemptSince t₂ = some .accepted := hg₂.idles.attemptSince.trans hg₁.idles.attemptSince
    have hd : shutDown t₂ = shutDown self.trace :=
      hg₂.idles.shutDown.trans (hg₁.idles.shutDown.trans hg.idles.shutDown)
    have he := h.ended hs hn (by simp [hc]) ha hd (hflag .accepted (by simp) hu) rfl
    exact he.of_trace rfl rfl
  | @stored config hello t t₁ s _ hc hg _ hh _ _ =>
    have ht : attemptSince t₁ = some .accepted ∧ shutDown t₁ = shutDown self.trace := by
      rcases hh.cases with rfl | ⟨t₂,hg₂,rfl⟩
      · exact ⟨rfl,hg.idles.shutDown⟩
      · exact ⟨hg₂.idles.attemptSince,hg₂.idles.shutDown.trans hg.idles.shutDown⟩
    exact h.store hs (by simp [hc]) ht.1 ht.2

theorem round {select : Select} {task : ClientTask} (h : Reported env self)
    (hsel : select ≠ .recv none) (hr : Round env self select task) : Reported env task := by
  cases hr with
  | ignored _ => exact h.of_trace rfl rfl
  | @configured config t hs hi _ =>
    have hd : shutDown t = false := hi.shutDown.trans (h.shutdown.symm.trans hs)
    refine ⟨by simp [Event.isFinal,hs,hd],by simp [hs],by simp [attemptSince],by simp,
      by simp [attemptSince],?_⟩
    cases config with
    | none => simp [statusOf,Event.isFinal,hd]
    | some config => simp [statusOf,attemptSince,Event.isFinal,hd]
  | refused _ => exact h.of_trace rfl rfl
  | offline _ _ => exact h.of_trace rfl rfl
  | answered _ _ _ => exact h.of_trace rfl rfl
  | @answeredFatal message response connection raw _ hc _ =>
    have hreply : Reported env { self with
      trace := repliedTrace connection message raw response self.trace } := h.of_trace rfl rfl
    exact (hreply.dropConnection hc).of_trace rfl rfl
  | @lost message response connection r t _ hc _ hx =>
    have hlost : Reported env { self with trace := t } := by
      cases hx with
      | replied => exact h.of_trace rfl rfl
      | unanswered _ => exact h.of_trace rfl rfl
      | unsent _ => exact h.of_trace rfl rfl
    exact (hlost.dropConnection hc).of_trace rfl rfl
  | @shutdown response t hi _ =>
    have ha : attemptSince t = attemptSince self.trace := hi.attemptSince
    refine ⟨by simp [Event.isFinal],fun _ => ⟨rfl,rfl,rfl⟩,?_,by simp,?_,?_⟩
    · simpa [attemptSince,ha] using h.attempted
    · simpa [attemptSince,ha] using h.latched
    · simp [statusOf,Event.isFinal]
  | woundDown _ _ => exact absurd rfl hsel
  | idle _ => exact h
  | pinged _ _ hg => exact h.of_trace hg.idles.attemptSince hg.idles.shutDown
  | @pingLost connection t _ hc hg =>
    have hping : Reported env { self with trace := t } :=
      h.of_trace hg.idles.attemptSince hg.idles.shutDown
    exact hping.dropConnection hc
  | attempted hs hn ha => exact h.attempt hs hn ha

end Reported

/-- What the watch tells about a task, whether it still runs or has wound
down. -/
structure Refines (env : Env) (task : ClientTask) : Prop where
  status : task.status = statusOf task
  declared : ∀ connection, task.connection = some connection →
    Declared env connection.id connection.capabilities task.trace
  configured : task.connection ≠ none → task.config ≠ none
  latched : env.invalidCredentialsPolicy = .latch →
    (task.credentialsInvalid = true ∧ shutDown task.trace = false ↔
      task.status = .invalidCredentials)

theorem Reported.refines (h : Reported env self) (hl : Linked env self) : Refines env self := by
  have hready : ∀ connection, self.connection = some connection →
      self.config ≠ none ∧ Declared env connection.id connection.capabilities self.trace := by
    intro connection hc
    obtain ⟨config,hello,hcfg,hcap,_,hlife⟩ := hl.ready connection hc
    refine ⟨by simp [hcfg],?_⟩
    rw [hcap]
    exact hlife.declared rfl
  refine ⟨h.status,fun connection hc => (hready connection hc).2,?_,?_⟩
  · intro hne
    obtain ⟨connection,hc⟩ := Option.ne_none_iff_exists'.mp hne
    exact (hready connection hc).1
  · intro hp
    rw [h.latched hp,h.status]
    constructor
    · rintro ⟨ha,hd⟩
      have hn : self.connection = none := by
        by_contra hne
        rw [h.held hne] at ha
        cases ha
      simp [statusOf,hd,h.attempted (by simp [ha]),hn,ha]
    · intro hst
      unfold statusOf at hst
      split at hst
      · cases hst
      · next hd =>
        split at hst
        · cases hst
        · split at hst
          · cases hst
          · split at hst
            · next ha => exact ⟨ha,by simpa using hd⟩
            · cases hst

theorem Refines.woundDown {task : ClientTask} (hr : Round env self (.recv none) task) :
    Refines env task := by
  cases hr with
  | @woundDown t hi _ =>
    have hd : shutDown t = true := hi.shutDown
    refine ⟨by simp [statusOf,hd],by simp,by simp,?_⟩
    intro _
    simp [hd]

/-- After every round of every run the status on the watch is the one the
history calls for, a connection that is held has a configuration and reports
what its server declared, and under the latch the flag agrees with the status. -/
theorem status_refines_history (env : Env) (config : Option ConnectionConfig)
    (rounds : List Select) :
    let task := (build config).run env rounds
    task.status = statusOf task ∧
    (∀ connection, task.connection = some connection →
      Declared env connection.id connection.capabilities task.trace) ∧
    (task.connection ≠ none → task.config ≠ none) ∧
    (env.invalidCredentialsPolicy = .latch →
      (task.credentialsInvalid = true ∧ shutDown task.trace = false ↔
        task.status = .invalidCredentials)) := by
  have h : Refines env ((build config).run env rounds) :=
    run_ends (Linked.build config) (Reported.build config)
      (fun _ _ _ _ h hsel hr => h.round hsel hr) (fun _ hl h => h.refines hl)
      (fun _ _ _ _ hr => Refines.woundDown hr) rounds
  exact ⟨h.status,h.declared,h.configured,h.latched⟩

end BloopClient

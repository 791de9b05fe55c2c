import BloopClient.Loopback
import BloopClient.TaskLife

/-!
# Shutdown is terminal

A task that has processed a shutdown keeps running while handles survive, but
does nothing more than decline what they ask for. What it does then is the same
for every network: the trace of a task that is shut down grows by exactly the
events of `aftermath`.
-/

namespace BloopClient
open Tracelib ClientTask

variable {env : Env} {self : ClientTask}

/-- The event writes a frame, or a part of one. -/
def Event.isWrite : Event → Bool
  | .wrote _ _ _ _ => true
  | _ => false

/-- What a task that is shut down does in one round: a request is declined, a
shutdown acknowledged, and nothing else happens. -/
def decline : Command → Trace
  | .configure config => [.received (.configure config)]
  | .request message response =>
    [.answered response (.error .shutdown),.received (.request message response)]
  | .shutdown response => [.acknowledged response,.received (.shutdown response)]

/-- What a task that is shut down does in the rounds to come, most recent
first. -/
def aftermath : List Select → Trace
  | [] => []
  | .recv (some command) :: rounds => aftermath rounds ++ decline command
  | .recv none :: _ => [.channelClosed]
  | .tick :: rounds => aftermath rounds

/-- The task has processed a shutdown. -/
structure Down (task : ClientTask) : Prop where
  shutdown : task.shutdown = true
  status : task.status = .shutdown
  connection : task.connection = none

theorem Down.exists_eq (h : Down self) : ∃ config credentialsInvalid trace,
    self = ⟨config,none,.shutdown,credentialsInvalid,true,trace⟩ := by
  obtain ⟨h₁,h₂,h₃⟩ := h
  cases self with
  | mk config connection status credentialsInvalid shutdown trace =>
    dsimp only at h₁ h₂ h₃
    subst h₁ h₂ h₃
    exact ⟨config,credentialsInvalid,trace,rfl⟩

/-- A declined command only grows the trace. -/
theorem Down.handleCommand (h : Down self) (command : Command) :
    self.handleCommand env command = { self with trace := decline command ++ self.trace } := by
  obtain ⟨config,credentialsInvalid,trace,rfl⟩ := h.exists_eq
  cases command <;> rfl

theorem Down.handleTick (h : Down self) : self.handleTick env = self := by
  simp [ClientTask.handleTick,h.shutdown]

theorem Down.windDown (h : Down self) :
    self.windDown env = { self with trace := .channelClosed :: self.trace } := by
  obtain ⟨config,credentialsInvalid,trace,rfl⟩ := h.exists_eq
  rfl

/-- Nothing but the trace changes once a task is shut down. -/
theorem Down.run (h : Down self) (rounds : List Select) :
    self.run env rounds = { self with trace := aftermath rounds ++ self.trace } := by
  induction rounds generalizing self with
  | nil => rfl
  | cons round rounds ih =>
    cases round with
    | recv command =>
      cases command with
      | none => exact h.windDown
      | some command =>
        have hd : Down { self with trace := decline command ++ self.trace } :=
          ⟨h.shutdown,h.status,h.connection⟩
        rw [ClientTask.run,h.handleCommand command,ih hd]
        simp [aftermath]
    | tick =>
      rw [ClientTask.run,h.handleTick,ih h]
      rfl

theorem aftermath_quiet (rounds : List Select) :
    ∀ e ∈ aftermath rounds, e.isWrite = false ∧ e.isConnecting = false := by
  induction rounds with
  | nil => simp [aftermath]
  | cons round rounds ih =>
    rcases round with (_ | command) | _
    · simp [aftermath,Event.isWrite,Event.isConnecting]
    · intro e he
      rcases List.mem_append.mp he with he | he
      · exact ih e he
      · cases command <;> simp [decline] at he <;> rcases he with rfl | rfl <;> exact ⟨rfl,rfl⟩
    · exact ih

/-- Processing a shutdown brings any task down. -/
theorem down_shutdown (env : Env) (self : ClientTask) (response : ℕ) :
    Down (self.handleCommand env (.shutdown response)) := by
  simp only [ClientTask.handleCommand]
  refine ⟨?_,?_,?_⟩
  · simp [ClientTask.emit]
  · simp [ClientTask.emit]
  · simp [ClientTask.emit]

/-- The writes of a task that quits the connection it holds: one if the frame encodes, and
none if there is no connection or no frame. -/
def Quits (env : Env) (self : ClientTask) (quit : Trace) : Prop :=
  (quit = [] ∧ (self.connection = none ∨ ∃ error, env.protocol.encodeQuit = .error error)) ∨
    ∃ connection frame w, self.connection = some connection ∧
      env.protocol.encodeQuit = .ok frame ∧ quit = [.wrote connection.id .quit frame w]

/-- A quit is one write, and the close after it the last event of the stream. -/
theorem quitConnection_trace (env : Env) (self : ClientTask) : ∃ tail quit,
    (self.quitConnection env).trace = tail ++ quit ++ self.trace ∧
      (∀ e ∈ tail, e.isWrite = false) ∧ Quits env self quit := by
  cases hc : self.connection with
  | none => exact ⟨[],[],by rw [quitConnection_none hc]; simp,by simp,.inl ⟨rfl,.inl hc⟩⟩
  | some connection =>
    rw [quitConnection_some hc]
    unfold Connection.quit
    split
    · next frame hframe =>
      have hw : ∃ w, (writeFrame env connection.id .quit frame self.trace).2 =
          .wrote connection.id .quit frame w :: self.trace := by
        unfold writeFrame
        split <;> exact ⟨_,rfl⟩
      obtain ⟨w,hw⟩ := hw
      exact ⟨[.closed connection.id],[.wrote connection.id .quit frame w],by simp [hw],
        by simp [Event.isWrite],.inr ⟨connection,frame,w,hc,hframe,rfl⟩⟩
    · next error herror =>
      exact ⟨[.closed connection.id],[],by simp,by simp [Event.isWrite],
        .inl ⟨rfl,.inr ⟨error,herror⟩⟩⟩

/-- Winding down writes at most a quit, and publishes the terminal status. -/
theorem windDown_trace (env : Env) (self : ClientTask) : ∃ tail quit,
    (self.windDown env).trace = tail ++ quit ++ .channelClosed :: self.trace ∧
      (∀ e ∈ tail, e.isWrite = false) ∧ Quits env self quit := by
  obtain ⟨tail,quit,ht,hn,hq⟩ := quitConnection_trace env (self.emit .channelClosed)
  rcases setStatus_trace ((self.emit .channelClosed).quitConnection env) .shutdown with hs | hs
  · exact ⟨tail,quit,hs.trans ht,hn,hq⟩
  · refine ⟨.published .shutdown :: tail,quit,?_,?_,hq⟩
    · rw [ClientTask.windDown,hs,ht]
      rfl
    · intro e he
      rcases List.mem_cons.mp he with rfl | he
      · rfl
      · exact hn e he

/-- After the first processed shutdown the task holds no connection, keeps its
configuration and its status, and does exactly what `aftermath` lists, whatever
rounds follow. If the channel closes instead, the final status is `Shutdown`
and the only frame written is the quit on the connection held, which is written
unless it does not encode. -/
theorem shutdown_terminal (env : Env) (config : Option ConnectionConfig)
    (before after : List Select) (response : ℕ) (hb : .recv none ∉ before) :
    let held := (build config).run env before
    let down := (build config).run env (before ++ [.recv (some (.shutdown response))])
    let later := (build config).run env (before ++ .recv (some (.shutdown response)) :: after)
    let closed := (build config).run env (before ++ .recv none :: after)
    (later.status = .shutdown ∧ later.connection = none ∧ later.config = down.config ∧
      later.trace = aftermath after ++ down.trace ∧
      ∀ e ∈ aftermath after, e.isWrite = false ∧ e.isConnecting = false) ∧
    closed.status = .shutdown ∧ closed.connection = none ∧ ∃ tail quit,
      closed.trace = tail ++ quit ++ .channelClosed :: held.trace ∧
      (∀ e ∈ tail, e.isWrite = false) ∧ Quits env held quit := by
  intro held down later closed
  have hdown : down = held.handleCommand env (.shutdown response) := run_append hb _
  have hd : Down down := hdown ▸ down_shutdown env held response
  have hlater : later = { down with trace := aftermath after ++ down.trace } := by
    rw [← hd.run after,hdown]
    exact run_append hb _
  have hclosed : closed = held.windDown env := run_append hb _
  refine ⟨?_,?_,?_,?_⟩
  · rw [hlater]
    exact ⟨hd.status,hd.connection,rfl,rfl,aftermath_quiet after⟩
  · rw [hclosed]
    exact setStatus_status _ _
  · rw [hclosed,ClientTask.windDown,setStatus_connection,quitConnection_connection]
  · rw [hclosed]
    exact windDown_trace env held

/-- A client connected to the loopback server that is shut down, configured
again, and asked for something, and one whose last handle goes instead. -/
theorem shutdown_terminal_loopback :
    let before := [.tick,.recv (some (.request (Loopback.echo [1,2]) 0))]
    let after :=
      [.recv (some (.configure none)),.tick,.recv (some (.request (Loopback.echo [3]) 2))]
    let held := (build (some Loopback.config)).run Loopback.env before
    let later := (build (some Loopback.config)).run Loopback.env
      (before ++ .recv (some (.shutdown 1)) :: after)
    let closed := (build (some Loopback.config)).run Loopback.env (before ++ .recv none :: after)
    (later.status = .shutdown ∧ later.connection = none ∧ later.config = some Loopback.config) ∧
    closed.status = .shutdown ∧ ∃ tail w, (∀ e ∈ tail, e.isWrite = false) ∧
      closed.trace = tail ++ .wrote 0 .quit ⟨0x07,[]⟩ w :: .channelClosed :: held.trace := by
  intro before after held later closed
  obtain ⟨h,hst,_,tail,quit,ht,hn,hq⟩ :=
    shutdown_terminal Loopback.env (some Loopback.config) before after 1 (by decide)
  have hc : held.connection = some ⟨0,⟨1⟩,1024 * 1024⟩ := by decide +kernel
  refine ⟨⟨h.1,h.2.1,h.2.2.1.trans rfl⟩,hst,tail,?_⟩
  rcases hq with ⟨_,hnone | ⟨_,herror⟩⟩ | ⟨connection,frame,w,hc',hframe,rfl⟩
  · exact absurd (hc.symm.trans hnone) (Option.some_ne_none _)
  · cases herror
  · obtain rfl := Option.some.inj (hc.symm.trans hc')
    cases hframe
    exact ⟨w,hn,ht.trans (List.append_assoc _ _ _)⟩

end BloopClient

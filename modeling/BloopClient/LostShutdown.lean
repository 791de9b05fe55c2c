import BloopClient.Handles
import BloopClient.Loopback
import BloopClient.StatusHistory

/-!
# Which shutdowns are lost

A call of `shutdown` returns when the task has answered it or when its timer has
fired. The timer also runs while the call waits for room in the command channel,
and a command that is still waiting then is dropped. Every returned call has had
its effect, or will have it, exactly if no timer fires at such a moment, unless
another shutdown was accepted before.
-/

namespace BloopClient
open Tracelib ClientTask

namespace Client

/-- A shutdown has been processed, is being processed, or is in the queue. -/
def Accepted (self : Client) : Prop :=
  self.task.shutdown = true ∨ (∃ response, self.busy = some (.recv (some (.shutdown response)))) ∨
    ∃ response, .shutdown response ∈ self.channel.queue

/-- The task has worked off everything that was queued. -/
def Drained (self : Client) : Prop := self.busy = none ∧ self.channel.queue = []

/-- No shutdown is lost: behind a call that has returned there is a shutdown
that was accepted, so the client is shut down once the queue is drained. -/
def Safe (self : Client) : Prop := ∀ i : ℕ, self.calls[i]? = some .returned →
  self.Accepted ∧ (self.Drained → self.task.shutdown = true ∧ self.task.status = .shutdown)

/-- The timer of a call does not fire while the call is waiting for room in the
channel, unless some shutdown has been accepted. -/
def Timely (self : Client) : Action → Prop
  | .expire i => self.calls[i]? = some .sending → self.Accepted
  | _ => True

end Client

/-- A task that is flagged as shut down is down. -/
theorem run_down (env : Env) (config : Option ConnectionConfig) (rounds : List Select) :
    ((build config).run env rounds).shutdown = true → Down ((build config).run env rounds) := by
  refine run_ends (P := Reported env) (Q := fun task => task.shutdown = true → Down task)
    (Linked.build config) (Reported.build config) (fun _ _ _ _ h hsel hr => h.round hsel hr)
    (fun _ _ h => h.down) ?_ rounds
  intro self task _ _ hr
  cases hr with
  | woundDown _ _ => exact fun hs => ⟨hs,rfl,rfl⟩

/-- The flag stays up. -/
theorem handle_shutdown {env : Env} {self : ClientTask} (h : self.shutdown = true)
    (select : Select) : (self.handle env select).shutdown = true := by
  rcases select with (_ | command) | _
  · simp [handle,windDown,emit,h]
  · cases command with
    | configure config => simp [handle,handleCommand,emit,h]
    | request message response => simp [handle,handleCommand,emit,answer,h]
    | shutdown response => simp [handle,handleCommand,emit]
  · simp [handle,handleTick,h]

namespace Client

variable {env : Env} {self client : Client} {action : Action}

/-- What was accepted is not lost on the way to the task. -/
theorem Accepted.moved (h : self.Accepted) (hm : Moved env self action client) :
    client.Accepted := by
  have hsent : ∀ {command channel}, self.channel.send? command = some channel →
      (∃ response, .shutdown response ∈ self.channel.queue) →
      ∃ response, .shutdown response ∈ channel.queue := by
    rintro command channel hc ⟨response,hm⟩
    refine ⟨response,?_⟩
    rw [(Channel.send?_eq_some.mp hc).2.2]
    exact List.mem_append_left _ hm
  have hfree : self.busy = none →
      self.task.shutdown = true ∨ ∃ response, .shutdown response ∈ self.channel.queue := by
    intro hb
    rcases h with h | ⟨response,h⟩ | h
    · exact .inl h
    · rw [hb] at h
      cases h
    · exact .inr h
  cases hm with
  | idle => exact h
  | handled => exact h
  | sent _ hc => exact h.imp id (Or.imp id (hsent hc))
  | called => exact h
  | accepted _ hc => exact h.imp id (Or.imp id (hsent hc))
  | expired _ => exact h
  | woken _ _ => exact h
  | @received command channel _ hb hc =>
    rcases hfree hb with h | ⟨response,h⟩
    · exact .inl h
    · rw [(Channel.recv?_eq_some.mp hc).1] at h
      rcases List.mem_cons.mp h with rfl | h
      · exact .inr (.inl ⟨response,rfl⟩)
      · exact .inr (.inr ⟨response,h⟩)
  | ticked _ hb => exact (hfree hb).imp id .inr
  | closed _ hb hq => exact (hfree hb).imp id .inr
  | @finished select hb =>
    rcases h with h | ⟨response,h⟩ | h
    · exact .inl (handle_shutdown h select)
    · rw [hb] at h
      cases h
      exact .inl (down_shutdown env self.task response).shutdown
    · exact .inr (.inr h)

/-- Either a shutdown was accepted, or no call has got beyond waiting for
room. -/
structure Keeping (env : Env) (config : Option ConnectionConfig) (client : Client) : Prop where
  serving : Serving env config client
  kept : client.Accepted ∨ ∀ call ∈ client.calls, call = .sending

variable {config : Option ConnectionConfig}

theorem Keeping.build (config : Option ConnectionConfig) : Keeping env config (build config) :=
  ⟨Serving.build config,.inr (by simp [Client.build])⟩

theorem Keeping.moved (h : Keeping env config self) (hm : Moved env self action client)
    (ht : self.Timely action) : Keeping env config client := by
  refine ⟨h.serving.moved hm,?_⟩
  rcases h.kept with ha | hall
  · exact .inl (ha.moved hm)
  · have hwaiting : ∀ i : ℕ, self.calls[i]? ≠ some .waiting := by
      intro i hi
      cases hall _ (List.mem_of_getElem? hi)
    cases hm with
    | @accepted i channel _ hc =>
      refine .inl (.inr (.inr ⟨i,?_⟩))
      rw [(Channel.send?_eq_some.mp hc).2.2]
      exact List.mem_append_right _ (List.mem_singleton_self _)
    | @expired i hi =>
      rcases hi with hi | hi
      · exact .inl (ht hi)
      · exact absurd hi (hwaiting i)
    | @woken i hi _ => exact absurd hi (hwaiting i)
    | called =>
      refine .inr ?_
      intro call hc
      rcases List.mem_append.mp hc with hc | hc
      · exact hall call hc
      · exact List.mem_singleton.mp hc
    | _ => exact .inr hall

/-- Behind a returned call there is an accepted shutdown, and a drained queue
holds none, so the task has processed it. -/
theorem Keeping.safe (h : Keeping env config self) : self.Safe := by
  intro i hi
  have ha : self.Accepted := by
    rcases h.kept with ha | hall
    · exact ha
    · cases hall _ (List.mem_of_getElem? hi)
  refine ⟨ha,?_⟩
  rintro ⟨hb,hq⟩
  have hs : self.task.shutdown = true := by
    rcases ha with ha | ⟨response,ha⟩ | ⟨response,ha⟩
    · exact ha
    · rw [hb] at ha
      cases ha
    · rw [hq] at ha
      cases ha
  obtain ⟨rounds,hr,_⟩ := h.serving.served
  refine ⟨hs,?_⟩
  rw [hr] at hs ⊢
  exact (run_down env config rounds hs).status

/-- A timer that fires while its call waits for room, with no shutdown accepted,
leaves a returned call without one. -/
theorem not_safe_of_not_timely (h : ¬ self.Timely action) : ¬ (self.step env action).Safe := by
  cases action with
  | expire i =>
    simp only [Timely,Classical.not_imp] at h
    intro hsafe
    have hlt : i < self.calls.length := (List.getElem?_eq_some_iff.mp h.1).1
    have hstep : self.step env (.expire i) =
        { self with calls := self.calls.set i .returned } := by
      simp [step,expire,h.1]
    rw [hstep] at hsafe
    exact h.2 (hsafe i (by simp [hlt])).1
  | _ => exact absurd trivial h

/-- In every run no shutdown is lost if and only if no timer fires while its call
is waiting for room in the channel before any shutdown was accepted. -/
theorem safe_iff_timely (env : Env) (config : Option ConnectionConfig) (actions : List Action) :
    (∀ past, past <+: actions → ((build config).run env past).Safe) ↔
      ∀ past action, past ++ [action] <+: actions → ((build config).run env past).Timely action := by
  have hrun : ∀ past action, (build config).run env (past ++ [action]) =
      ((build config).run env past).step env action := by
    intro past action
    simp [run,List.foldl_append]
  constructor
  · intro h past action hp
    by_contra ht
    have hs := h _ hp
    rw [hrun] at hs
    exact not_safe_of_not_timely ht hs
  · intro h past hp
    suffices hk : Keeping env config ((build config).run env past) from hk.safe
    induction past using List.reverseRecOn with
    | nil => exact Keeping.build config
    | append_singleton past action ih =>
      rw [hrun]
      exact (ih ((List.prefix_append past [action]).trans hp)).moved
        (step_moved env _ action) (h past action hp)

/-- A connected client with two handles. While the task is busy with a slow
request, sixteen more fill the channel; a call of `shutdown` then waits for room
until its timer fires, and the task works off the queue. -/
def fullQueue : List Action :=
  let request := .send (.request (Loopback.echo [1]) 0)
  [.tick,.finish,.clone,request,.recv] ++ List.replicate 16 request ++
    [.shutdown,.expire 0,.finish] ++ (List.replicate 16 [.recv,.finish]).flatten

/-- The call has returned, nothing is left to do, and the client is connected as
before. -/
theorem shutdown_lost :
    let client := (build (some Loopback.config)).run Loopback.env fullQueue
    ¬ client.Safe ∧ client.calls = [.returned] ∧ client.handles = 1 ∧
      client.task.status = .connected ⟨1⟩ := by
  refine ⟨?_,by decide +kernel,by decide +kernel,by decide +kernel⟩
  intro h
  have hs := ((h 0 (by decide +kernel)).2 ⟨by decide +kernel,by decide +kernel⟩).1
  exact absurd hs (by decide +kernel)

end Client

end BloopClient

import BloopClient.Rounds
import BloopClient.Tracelib.Channel

/-!
# Handles, the command channel and the task

Any number of cloned handles send commands through one bounded channel to the
connection task. What a handle does while it waits for room in the channel, and
while the task is busy with a round, is interleaved freely: a client is run by
a list of actions, and an action that is not possible at the moment does
nothing.
-/

namespace BloopClient
open Tracelib ClientTask

/-- A call of `shutdown`. It first waits for the channel to accept its command
and then for the task's answer; a timer runs over both. -/
inductive Call
  | sending
  | waiting
  | returned
  deriving DecidableEq, Repr

/-- A client: its connection task, the round the task is in the middle of, the
command channel, the handles outside of `shutdown`, and the calls of `shutdown`
in the order they were made, each answered on the oneshot of its number. -/
structure Client where
  task : ClientTask
  busy : Option Select
  running : Bool
  channel : Channel Command 16
  handles : ℕ
  calls : List Call

/-- What the parts of a client can do next. -/
inductive Action
  | clone
  | drop
  | send (command : Command)
  | shutdown
  | accept (i : ℕ)
  | expire (i : ℕ)
  | wake (i : ℕ)
  | recv
  | tick
  | close
  | finish
  deriving DecidableEq, Repr

/-- The command is one `configure` or `send_request` sends. -/
def Command.isOrdinary : Command → Bool
  | .configure _ => true
  | .request _ _ => true
  | .shutdown _ => false

namespace ClientTask

/-- The handler of a round. -/
def handle (env : Env) (self : ClientTask) : Select → ClientTask
  | .recv (some command) => self.handleCommand env command
  | .recv none => self.windDown env
  | .tick => self.handleTick env

end ClientTask

namespace Client

/-- The client a builder hands out, with its one handle. -/
def build (config : Option ConnectionConfig) : Client where
  task := ClientTask.build config
  busy := none
  running := true
  channel := .empty
  handles := 1
  calls := []

/-- A handle's command is accepted by the channel. A send that gives up before
there is room leaves no trace. -/
def send (self : Client) (command : Command) : Client :=
  if self.handles = 0 ∨ command.isOrdinary = false then self
  else
    match self.channel.send? command with
    | some channel => { self with channel }
    | none => self

/-- A handle is turned into a call of `shutdown`. -/
def shutdown (self : Client) : Client :=
  if self.handles = 0 then self
  else { self with handles := self.handles - 1, calls := self.calls ++ [.sending] }

/-- The channel accepts the command of a call of `shutdown`. -/
def accept (self : Client) (i : ℕ) : Client :=
  if self.calls[i]? = some .sending then
    match self.channel.send? (.shutdown i) with
    | some channel => { self with channel, calls := self.calls.set i .waiting }
    | none => self
  else self

/-- The timer of a call of `shutdown` fires. A command that was still waiting
for room is dropped with the send. -/
def expire (self : Client) (i : ℕ) : Client :=
  if self.calls[i]? = some .sending ∨ self.calls[i]? = some .waiting then
    { self with calls := self.calls.set i .returned }
  else self

/-- The task's answer reaches a call of `shutdown`. -/
def wake (self : Client) (i : ℕ) : Client :=
  if self.calls[i]? = some .waiting ∧ .acknowledged i ∈ self.task.trace then
    { self with calls := self.calls.set i .returned }
  else self

/-- The loop of the task begins its next round with a command. -/
def recv (self : Client) : Client :=
  if self.running && self.busy.isNone then
    match self.channel.recv? with
    | some (command,channel) => { self with channel, busy := some (.recv (some command)) }
    | none => self
  else self

/-- The loop of the task begins its next round with a tick. -/
def tick (self : Client) : Client :=
  if self.running && self.busy.isNone then { self with busy := some .tick } else self

/-- All handles are gone and the queue is empty: the loop ends. -/
def close (self : Client) : Client :=
  if self.running && self.busy.isNone && self.handles == 0 && self.channel.queue.isEmpty &&
      self.calls.all (· == .returned) then
    { self with busy := some (.recv none), running := false }
  else self

/-- The round the task is in the middle of comes to its end. -/
def finish (env : Env) (self : Client) : Client :=
  match self.busy with
  | some select => { self with task := self.task.handle env select, busy := none }
  | none => self

def step (env : Env) (self : Client) : Action → Client
  | .clone => if self.handles = 0 then self else { self with handles := self.handles + 1 }
  | .drop => { self with handles := self.handles - 1 }
  | .send command => self.send command
  | .shutdown => self.shutdown
  | .accept i => self.accept i
  | .expire i => self.expire i
  | .wake i => self.wake i
  | .recv => self.recv
  | .tick => self.tick
  | .close => self.close
  | .finish => self.finish env

def run (env : Env) (self : Client) (actions : List Action) : Client :=
  actions.foldl (step env) self

/-- The ways an action can go. -/
inductive Moved (env : Env) (self : Client) : Action → Client → Prop
  | idle {action} : Moved env self action self
  | handled {action n} : Moved env self action { self with handles := n }
  | sent {command channel} (ho : command.isOrdinary = true)
      (hc : self.channel.send? command = some channel) :
      Moved env self (.send command) { self with channel }
  | called : Moved env self .shutdown
      { self with handles := self.handles - 1, calls := self.calls ++ [.sending] }
  | accepted {i channel} (hi : self.calls[i]? = some .sending)
      (hc : self.channel.send? (.shutdown i) = some channel) :
      Moved env self (.accept i) { self with channel, calls := self.calls.set i .waiting }
  | expired {i} (hi : self.calls[i]? = some .sending ∨ self.calls[i]? = some .waiting) :
      Moved env self (.expire i) { self with calls := self.calls.set i .returned }
  | woken {i} (hi : self.calls[i]? = some .waiting) (ha : .acknowledged i ∈ self.task.trace) :
      Moved env self (.wake i) { self with calls := self.calls.set i .returned }
  | received {command channel} (hr : self.running = true) (hb : self.busy = none)
      (hc : self.channel.recv? = some (command,channel)) :
      Moved env self .recv { self with channel, busy := some (.recv (some command)) }
  | ticked (hr : self.running = true) (hb : self.busy = none) :
      Moved env self .tick { self with busy := some .tick }
  | closed (hr : self.running = true) (hb : self.busy = none) (hq : self.channel.queue = []) :
      Moved env self .close { self with busy := some (.recv none), running := false }
  | finished {select} (hb : self.busy = some select) :
      Moved env self .finish { self with task := self.task.handle env select, busy := none }

theorem step_moved (env : Env) (self : Client) (action : Action) :
    Moved env self action (self.step env action) := by
  cases action with
  | clone =>
    dsimp only [step]
    split
    · exact .idle
    · exact .handled
  | drop => exact .handled
  | send command =>
    dsimp only [step,send]
    split
    · exact .idle
    · next hg =>
      split
      · next channel hc => exact .sent (by simpa using (not_or.mp hg).2) hc
      · exact .idle
  | shutdown =>
    dsimp only [step,shutdown]
    split
    · exact .idle
    · exact .called
  | accept i =>
    dsimp only [step,accept]
    split
    · next hi =>
      split
      · next channel hc => exact .accepted hi hc
      · exact .idle
    · exact .idle
  | expire i =>
    dsimp only [step,expire]
    split
    · next hi => exact .expired hi
    · exact .idle
  | wake i =>
    dsimp only [step,wake]
    split
    · next hi => exact .woken hi.1 hi.2
    · exact .idle
  | recv =>
    dsimp only [step,recv]
    split
    · next hg =>
      simp only [Bool.and_eq_true,Option.isNone_iff_eq_none] at hg
      split
      · next command channel hc => exact .received hg.1 hg.2 hc
      · exact .idle
    · exact .idle
  | tick =>
    dsimp only [step,tick]
    split
    · next hg =>
      simp only [Bool.and_eq_true,Option.isNone_iff_eq_none] at hg
      exact .ticked hg.1 hg.2
    · exact .idle
  | close =>
    dsimp only [step,close]
    split
    · next hg =>
      simp only [Bool.and_eq_true,Option.isNone_iff_eq_none,List.isEmpty_iff] at hg
      exact .closed hg.1.1.1.1 hg.1.1.1.2 hg.1.2
    · exact .idle
  | finish =>
    dsimp only [step,finish]
    split
    · next select hb => exact .finished hb
    · exact .idle

/-- A fact that every action keeps holds after every run. -/
theorem run_induction {P : Client → Prop} {env : Env} {self : Client} (h : P self)
    (hmoved : ∀ self action client, P self → Moved env self action client → P client)
    (actions : List Action) : P (self.run env actions) := by
  induction actions generalizing self with
  | nil => exact h
  | cons action actions ih => exact ih (hmoved _ _ _ h (step_moved env self action))

end Client

/-- The command a round of the loop handles. -/
def command : Select → List Command
  | .recv (some command) => [command]
  | _ => []

/-- The commands a task has received, oldest first. -/
def received : Trace → List Command
  | [] => []
  | .received command :: past => received past ++ [command]
  | _ :: past => received past

variable {env : Env} {config : Option ConnectionConfig} {t t' : Trace}

/-- Only receiving a command shows in the commands received. -/
theorem received_of_extends (h : Extends Event.OfAttempt t t') : received t' = received t := by
  refine h.congr ?_
  intro e past he
  cases e <;> first
    | exact absurd he id
    | rfl

theorem Idles.received (h : Idles t t') : received t' = received t :=
  received_of_extends h.ofAttempt

/-- A round receives the command it handles, and no other. -/
theorem Round.received {self task : ClientTask} {select : Select}
    (hr : Round env self select task) :
    received task.trace = received self.trace ++ command select := by
  cases hr with
  | ignored _ => rfl
  | configured _ hi _ => exact hi.received
  | refused _ => rfl
  | offline _ _ => rfl
  | answered _ _ _ => rfl
  | answeredFatal _ _ _ => exact (dropConnection_idles _).received
  | @lost message response connection r t _ _ _ hx =>
    refine (dropConnection_idles { self with trace := t }).received.trans ?_
    cases hx with
    | replied => rfl
    | unanswered _ => rfl
    | unsent _ => rfl
  | shutdown hi _ => exact hi.received
  | woundDown hi _ => exact hi.received.trans (List.append_nil _).symm
  | idle _ => exact (List.append_nil _).symm
  | pinged _ _ hg => exact hg.idles.received.trans (List.append_nil _).symm
  | @pingLost connection t _ _ hg =>
    exact (dropConnection_idles { self with trace := t }).received.trans
      (hg.idles.received.trans (List.append_nil _).symm)
  | attempted _ _ ha =>
    exact (received_of_extends ha.extends).trans (List.append_nil _).symm

/-- The task has served the channel's commands in order: it is the task of a
run over the commands taken so far, up to the one it is busy with. -/
structure Serving (env : Env) (config : Option ConnectionConfig) (client : Client) : Prop where
  served : ∃ rounds, client.task = (ClientTask.build config).run env rounds ∧
    (client.running = true ∨ client.busy ≠ none → .recv none ∉ rounds)
  order : received client.task.trace ++ (client.busy.map command).getD [] = client.channel.taken
  closing : client.busy = some (.recv none) → client.running = false

namespace Serving

variable {self client : Client} {action : Action}

theorem build (config : Option ConnectionConfig) : Serving env config (Client.build config) :=
  ⟨⟨[],rfl,by simp⟩,rfl,by simp [Client.build]⟩

/-- The task of a client is linked. -/
theorem linked (h : Serving env config self) : Linked env self.task := by
  obtain ⟨rounds,hr,_⟩ := h.served
  rw [hr]
  exact (Linked.build config).run rounds

theorem handle_round (hl : Linked env self.task) (select : Select) :
    Round env self.task select (self.task.handle env select) := by
  rcases select with (_ | command) | _
  · exact windDown_round hl
  · exact handleCommand_round hl command
  · exact handleTick_round hl

theorem moved (h : Serving env config self) (hm : Client.Moved env self action client) :
    Serving env config client := by
  cases hm with
  | idle => exact h
  | handled => exact ⟨h.served,h.order,h.closing⟩
  | sent _ hc =>
    refine ⟨h.served,?_,h.closing⟩
    rw [(Channel.send?_eq_some.mp hc).2.1]
    exact h.order
  | called => exact ⟨h.served,h.order,h.closing⟩
  | accepted _ hc =>
    refine ⟨h.served,?_,h.closing⟩
    rw [(Channel.send?_eq_some.mp hc).2.1]
    exact h.order
  | expired _ => exact ⟨h.served,h.order,h.closing⟩
  | woken _ _ => exact ⟨h.served,h.order,h.closing⟩
  | @received command channel hr hb hc =>
    obtain ⟨rounds,htask,hopen⟩ := h.served
    refine ⟨⟨rounds,htask,fun _ => hopen (.inl hr)⟩,?_,by simp⟩
    have ho := h.order
    rw [hb] at ho
    rw [(Channel.recv?_eq_some.mp hc).2,← ho]
    simp [BloopClient.command]
  | ticked hr hb =>
    obtain ⟨rounds,htask,hopen⟩ := h.served
    refine ⟨⟨rounds,htask,fun _ => hopen (.inl hr)⟩,?_,by simp⟩
    have ho := h.order
    rw [hb] at ho
    exact ho
  | closed hr hb hq =>
    obtain ⟨rounds,htask,hopen⟩ := h.served
    refine ⟨⟨rounds,htask,fun _ => hopen (.inl hr)⟩,?_,fun _ => rfl⟩
    have ho := h.order
    rw [hb] at ho
    exact ho
  | @finished select hb =>
    obtain ⟨rounds,htask,hopen⟩ := h.served
    have hno : Select.recv none ∉ rounds := hopen (.inr (by simp [hb]))
    refine ⟨⟨rounds ++ [select],?_,?_⟩,?_,by simp⟩
    · rw [run_append hno,← htask]
      rcases select with (_ | command) | _ <;> rfl
    · rintro (hr | hb')
      · simp only [List.mem_append,List.mem_singleton,not_or]
        refine ⟨hno,?_⟩
        rintro rfl
        rw [h.closing hb] at hr
        cases hr
      · exact absurd rfl hb'
    · have ho := h.order
      rw [hb] at ho
      rw [(handle_round h.linked select).received,← ho]
      simp

end Serving

end BloopClient

import BloopClient.Operations
import BloopClient.Reconfigure

/-!
# Calls on handles

`configure` and `send_request`, as calls that any number of handles make and await. A
call borrows its handle, so the handle cannot be dropped or turned into a `shutdown`
while the call is pending; the caller may drop the call itself at any moment. What
callers, the channel and the task do is interleaved freely. Seen from the task, every
such run is one of its client. The task is there as long as a handle is; what callers are
told of one that is lost before comes on top of this, in `LostTask`.
-/

namespace BloopClient
open Tracelib ClientTask

/-- What a call asks for. Every operation of a handle but `configure` and `shutdown` is a
request. -/
inductive Ask
  | configure (config : Option ConnectionConfig)
  | request (message : RawMessage)
  deriving DecidableEq, Repr

/-- The command a call sends. Its number names the oneshot of a request. -/
def Ask.command (i : ℕ) : Ask → Command
  | .configure config => .configure config
  | .request message => .request message i

/-- How far a call has come: its command waits for room in the channel, its future waits
for the oneshot, has returned, or was dropped before. -/
inductive Progress
  | sending
  | waiting
  | returned (result : Except RequestError (Option RawMessage))
  | dropped
  deriving DecidableEq

def Progress.isPending : Progress → Bool
  | .sending | .waiting => true
  | .returned _ | .dropped => false

/-- A call, with the place its command got in the order of the channel. -/
structure AskCall where
  handle : ℕ
  ask : Ask
  progress : Progress
  ticket : Option ℕ
  deriving DecidableEq

/-- Once its command is accepted `configure` returns, and a request waits. -/
def Ask.accepted : Ask → Progress
  | .configure _ => .returned (.ok none)
  | .request _ => .waiting

/-- The answer on a request's oneshot. -/
def answerOf (response : ℕ) : Trace → Option Answer
  | [] => none
  | .answered response' answer :: past =>
    if response' = response then some answer else answerOf response past
  | _ :: past => answerOf response past

/-- The task has returned, and the receiver of the channel is gone with it. -/
def Client.ended (self : Client) : Bool := !self.running && self.busy.isNone

/-- A client, which of the handles made so far are still there, and the calls in the
order they were made. -/
structure Callers where
  client : Client
  live : List Bool
  calls : List AskCall

inductive CallerAction
  | clone (h : ℕ)
  | drop (h : ℕ)
  | shutdown (h : ℕ)
  | call (h : ℕ) (ask : Ask)
  | accept (i : ℕ)
  | expire (i : ℕ)
  | wake (i : ℕ)
  | cancel (i : ℕ)
  | inner (action : Action)
  deriving DecidableEq, Repr

/-- What the task and the calls of `shutdown` do on their own. -/
def Action.isInner : Action → Bool
  | .clone | .drop | .send _ | .shutdown => false
  | .accept _ | .expire _ | .wake _ | .recv | .tick | .close | .finish => true

namespace Callers

def build (config : Option ConnectionConfig) : Callers := ⟨Client.build config,[true],[]⟩

variable (env : Env) (self : Callers)

def isLive (h : ℕ) : Bool := self.live[h]? == some true

/-- A pending call borrows the handle. -/
def isBorrowed (h : ℕ) : Bool :=
  self.calls.any fun call => call.handle == h && call.progress.isPending

def clone (h : ℕ) : Callers :=
  if self.isLive h then
    { self with client := self.client.step env .clone, live := self.live ++ [true] }
  else self

/-- A handle goes: it is dropped, or turned into a call of `shutdown`. -/
def discard (h : ℕ) (action : Action) : Callers :=
  if self.isLive h && !self.isBorrowed h then
    { self with client := self.client.step env action, live := self.live.set h false }
  else self

def call (h : ℕ) (ask : Ask) : Callers :=
  if self.isLive h then { self with calls := self.calls ++ [⟨h,ask,.sending,none⟩] } else self

/-- The channel accepts the command of a call. -/
def accept (i : ℕ) : Callers :=
  match self.calls[i]? with
  | some ⟨h,ask,.sending,_⟩ =>
    if self.client.ended then self
    else
      match self.client.channel.send? (ask.command i) with
      | some channel => { self with
          client := { self.client with channel }
          calls := self.calls.set i ⟨h,ask,ask.accepted,some self.client.channel.sent.length⟩ }
      | none => self
  | _ => self

/-- The deadline of `send_timeout` passes. `configure` has none. -/
def expire (i : ℕ) : Callers :=
  match self.calls[i]? with
  | some ⟨h,.request message,.sending,ticket⟩ => { self with
      calls := self.calls.set i
        ⟨h,.request message,.returned (.error .disconnected),ticket⟩ }
  | _ => self

/-- The future of a request returns what its oneshot holds. -/
def wake (i : ℕ) : Callers :=
  match self.calls[i]? with
  | some ⟨h,ask,.waiting,ticket⟩ =>
    match answerOf i self.client.task.trace with
    | some answer => { self with
        calls := self.calls.set i ⟨h,ask,.returned (answer.result.map some),ticket⟩ }
    | none => self
  | _ => self

/-- The future of a call is dropped. -/
def cancel (i : ℕ) : Callers :=
  match self.calls[i]? with
  | some call =>
    if call.progress.isPending then
      { self with calls := self.calls.set i { call with progress := .dropped } }
    else self
  | none => self

def step : CallerAction → Callers
  | .clone h => self.clone env h
  | .drop h => self.discard env h .drop
  | .shutdown h => self.discard env h .shutdown
  | .call h ask => self.call h ask
  | .accept i => self.accept i
  | .expire i => self.expire i
  | .wake i => self.wake i
  | .cancel i => self.cancel i
  | .inner action =>
    if action.isInner then { self with client := self.client.step env action } else self

def run (actions : List CallerAction) : Callers := actions.foldl (step env) self

/-- The ways a pending call can come to its end without the channel. -/
inductive Settles (self : Callers) (i : ℕ) (call : AskCall) : Progress → Prop
  | expired {message} (ha : call.ask = .request message) (hp : call.progress = .sending) :
      Settles self i call (.returned (.error .disconnected))
  | woken {answer} (hp : call.progress = .waiting)
      (ha : answerOf i self.client.task.trace = some answer) :
      Settles self i call (.returned (answer.result.map some))
  | dropped (hp : call.progress.isPending = true) : Settles self i call .dropped

/-- The ways an action can go. -/
inductive Moved (env : Env) (self : Callers) : Callers → Prop
  | idle : Moved env self self
  | cloned {h : ℕ} (hl : self.live[h]? = some true) : Moved env self
      { self with client := self.client.step env .clone, live := self.live ++ [true] }
  | discarded {h : ℕ} {action} (hl : self.live[h]? = some true)
      (hb : ∀ call ∈ self.calls, call.handle = h → call.progress.isPending = false)
      (ha : action = .drop ∨ action = .shutdown) : Moved env self
      { self with client := self.client.step env action, live := self.live.set h false }
  | called {h : ℕ} {ask} (hl : self.live[h]? = some true) : Moved env self
      { self with calls := self.calls ++ [⟨h,ask,.sending,none⟩] }
  | accepted {i : ℕ} {h ask ticket channel} (hi : self.calls[i]? = some ⟨h,ask,.sending,ticket⟩)
      (hc : self.client.channel.send? (ask.command i) = some channel) : Moved env self
      { self with
        client := { self.client with channel }
        calls := self.calls.set i ⟨h,ask,ask.accepted,some self.client.channel.sent.length⟩ }
  | settled {i : ℕ} {call progress} (hi : self.calls[i]? = some call)
      (hs : Settles self i call progress) : Moved env self
      { self with calls := self.calls.set i { call with progress } }
  | moved {action} (ha : action.isInner = true) : Moved env self
      { self with client := self.client.step env action }

variable {env self}

theorem isLive_iff {h : ℕ} : self.isLive h = true ↔ self.live[h]? = some true := by
  rw [isLive,beq_iff_eq]

theorem discard_moved {h : ℕ} {action : Action} (ha : action = .drop ∨ action = .shutdown) :
    Moved env self (self.discard env h action) := by
  unfold discard
  split
  · next hg =>
    rw [Bool.and_eq_true,isLive_iff,Bool.not_eq_true'] at hg
    refine .discarded hg.1 ?_ ha
    intro call hm hh
    have hfree := hg.2
    rw [isBorrowed,List.any_eq_false] at hfree
    simpa [hh] using hfree call hm
  · exact .idle

theorem step_moved (action : CallerAction) : Moved env self (self.step env action) := by
  cases action with
  | clone h =>
    dsimp only [step,clone]
    split
    · next hl => exact .cloned (isLive_iff.mp hl)
    · exact .idle
  | drop h => exact discard_moved (.inl rfl)
  | shutdown h => exact discard_moved (.inr rfl)
  | call h ask =>
    dsimp only [step,call]
    split
    · next hl => exact .called (isLive_iff.mp hl)
    · exact .idle
  | accept i =>
    dsimp only [step,accept]
    split
    · next hi =>
      split
      · exact .idle
      · split
        · next channel hc => exact .accepted hi hc
        · exact .idle
    · exact .idle
  | expire i =>
    dsimp only [step,expire]
    split
    · next hi => exact .settled hi (.expired rfl rfl)
    · exact .idle
  | wake i =>
    dsimp only [step,wake]
    split
    · next hi =>
      split
      · next answer ha => exact .settled hi (.woken rfl ha)
      · exact .idle
    · exact .idle
  | cancel i =>
    dsimp only [step,cancel]
    split
    · next call hi =>
      split
      · next hp => exact .settled hi (.dropped hp)
      · exact .idle
    · exact .idle
  | inner action =>
    dsimp only [step]
    split
    · next ha => exact .moved ha
    · exact .idle

/-- A fact that every action keeps holds after every run. -/
theorem run_induction {P : Callers → Prop} (h : P self)
    (hmoved : ∀ self callers, P self → Moved env self callers → P callers)
    (actions : List CallerAction) : P (self.run env actions) := by
  induction actions generalizing self with
  | nil => exact h
  | cons action actions ih => exact ih (hmoved _ _ h (step_moved action))

end Callers

end BloopClient

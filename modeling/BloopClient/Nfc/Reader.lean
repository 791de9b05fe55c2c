import BloopClient.Nfc.Machine
import BloopClient.Tracelib.Channel
import BloopClient.Tracelib.Service

/-!
# Reader handles and the thread that serves them

Any number of cloned handles send requests through one bounded channel to the
thread of the MFRC522 reader, which polls the chip for them one by one. A caller
may drop its future at any moment. What callers and the thread do is interleaved
freely: a reader is run by a list of actions, and an action that is not possible
at the moment does nothing.
-/

namespace BloopClient.Nfc
open Tracelib

-- ════════════════════════════════════════════════════════════════════════
-- The adapter
-- ════════════════════════════════════════════════════════════════════════

/-- The errors of the chip, as far as the adapter tells them apart. -/
inductive ChipError
  | collision
  | other (code : ℕ)
  deriving DecidableEq, Repr

/-- What the chip answers in the course of one call of the adapter. The adapter may
wake up a card twice in one call. -/
structure Chip (Atqa Uid : Type) where
  reqa : Except ChipError Atqa
  select : Atqa → Except ChipError Uid
  wupa : Except ChipError Atqa
  wupaAgain : Except ChipError Atqa
  tag : Tag

/-- The text of a tag, or why there is none. -/
def Tag.text (tag : Tag) : Except String String :=
  match h : (readNdefText tag).1 with
  | .ok text => .ok text
  | .error (.error reason) => .error reason
  | .error .panic => absurd h (readNdefText_ne_panic tag)

namespace Chip

variable {Atqa Uid NfcUid : Type}

def selectTarget (nfcUidFromMfrc522 : Uid → NfcUid) (chip : Chip Atqa Uid) : Option NfcUid := do
  let atqa ← chip.reqa.toOption
  let uid ← (chip.select atqa).toOption
  return nfcUidFromMfrc522 uid

/-- The chip switches between the found and the not found state, so a card is only
gone if it was not found twice. -/
def checkForRelease (chip : Chip Atqa Uid) : Bool :=
  match chip.wupa with
  | .ok _ => false
  | .error _ =>
    match chip.wupaAgain with
    | .ok _ => false
    | .error error => error != .collision

end Chip

/-- The results of the adapter, by the number of calls made before. -/
structure Adapter (NfcUid : Type) where
  selectTarget : ℕ → Option NfcUid
  checkForRelease : ℕ → Bool
  readNdefText : ℕ → Except String String

def Adapter.ofChip {Atqa Uid NfcUid : Type} (nfcUidFromMfrc522 : Uid → NfcUid)
    (chip : ℕ → Chip Atqa Uid) : Adapter NfcUid where
  selectTarget n := (chip n).selectTarget nfcUidFromMfrc522
  checkForRelease n := (chip n).checkForRelease
  readNdefText n := (chip n).tag.text

-- ════════════════════════════════════════════════════════════════════════
-- Requests and answers
-- ════════════════════════════════════════════════════════════════════════

/-- The operations of a handle. Each has its kind of request. -/
inductive Operation
  | waitForCard
  | waitForRemoval
  | readNdefText
  deriving DecidableEq, Repr

/-- A request, with the number of the oneshot its answer goes to. -/
structure NfcReaderRequest where
  operation : Operation
  response : ℕ
  deriving DecidableEq, Repr

/-- What goes through the oneshot of a request. -/
inductive Reply (NfcUid : Type)
  | card (uid : NfcUid)
  | removed
  | text (result : Except String String)
  deriving DecidableEq

/-- The call of the adapter a request is served with. Polling for a card or its
removal goes on until there is a reply; reading has one at once. -/
def Adapter.poll {NfcUid : Type} (adapter : Adapter NfcUid) (n : ℕ)
    (request : NfcReaderRequest) : Option (Reply NfcUid) :=
  match request.operation with
  | .waitForCard => (adapter.selectTarget n).map .card
  | .waitForRemoval => if adapter.checkForRelease n then some .removed else none
  | .readNdefText => some (.text (adapter.readNdefText n))

/-- How far a call of a handle has come: its request waits for room in the channel,
its future waits for the oneshot, the oneshot holds the reply, the future has
returned it, or the future was dropped before. -/
inductive CallStage (NfcUid : Type)
  | sending
  | waiting
  | replied (reply : Reply NfcUid)
  | returned (reply : Reply NfcUid)
  | cancelled
  deriving DecidableEq

/-- The future is still there. -/
def CallStage.isPending {NfcUid : Type} : CallStage NfcUid → Bool
  | .sending | .waiting | .replied _ => true
  | .returned _ | .cancelled => false

structure Roundtrip (NfcUid : Type) where
  operation : Operation
  stage : CallStage NfcUid
  deriving DecidableEq

/-- Where the thread is: it waits for a request, is about to look whether the
caller is still there, about to call the adapter, about to send a reply, or has
returned. The sleep between two polls is as good as any other pause. -/
inductive Serve (NfcUid : Type)
  | receiving
  | checking (request : NfcReaderRequest)
  | polling (request : NfcReaderRequest)
  | sending (request : NfcReaderRequest) (reply : Reply NfcUid)
  | returned
  deriving DecidableEq

-- ════════════════════════════════════════════════════════════════════════
-- The reader
-- ════════════════════════════════════════════════════════════════════════

/-- The handles, the channel, the calls in the order they were made, each with the
oneshot of its number, and the thread with the number of its calls of the adapter.
What happens to requests is logged. -/
structure ReaderSystem (NfcUid : Type) where
  handles : ℕ
  channel : Channel NfcReaderRequest 4
  roundtrips : List (Roundtrip NfcUid)
  serve : Serve NfcUid
  polls : ℕ
  trace : List (ServiceEvent NfcReaderRequest (Reply NfcUid))

/-- What the parts of a reader can do next. -/
inductive ReaderAction
  | clone
  | drop
  | call (operation : Operation)
  | accept (i : ℕ)
  | cancel (i : ℕ)
  | wake (i : ℕ)
  | serve
  deriving DecidableEq, Repr

namespace ReaderSystem

variable {NfcUid : Type}

/-- A handle with the thread serving it. -/
def spawn : ReaderSystem NfcUid where
  handles := 1
  channel := .empty
  roundtrips := []
  serve := .receiving
  polls := 0
  trace := []

def call (self : ReaderSystem NfcUid) (operation : Operation) : ReaderSystem NfcUid :=
  if self.handles = 0 then self
  else { self with roundtrips := self.roundtrips ++ [⟨operation,.sending⟩] }

/-- The channel accepts the request of a call. -/
def accept (self : ReaderSystem NfcUid) (i : ℕ) : ReaderSystem NfcUid :=
  match self.roundtrips[i]? with
  | some ⟨operation,.sending⟩ =>
    match self.channel.send? ⟨operation,i⟩ with
    | some channel => { self with
        channel
        roundtrips := self.roundtrips.set i ⟨operation,.waiting⟩
        trace := .submitted ⟨operation,i⟩ :: self.trace }
    | none => self
  | _ => self

/-- The future of a call is dropped, and with it the receiving end of its oneshot. A
request that waits for room in the channel is dropped as well. -/
def cancel (self : ReaderSystem NfcUid) (i : ℕ) : ReaderSystem NfcUid :=
  match self.roundtrips[i]? with
  | some ⟨operation,stage⟩ =>
    if stage.isPending then { self with
      roundtrips := self.roundtrips.set i ⟨operation,.cancelled⟩
      trace := .cancelled ⟨operation,i⟩ :: self.trace }
    else self
  | none => self

/-- The future of a call returns what its oneshot holds. -/
def wake (self : ReaderSystem NfcUid) (i : ℕ) : ReaderSystem NfcUid :=
  match self.roundtrips[i]? with
  | some ⟨operation,.replied reply⟩ =>
    { self with roundtrips := self.roundtrips.set i ⟨operation,.returned reply⟩ }
  | _ => self

/-- The receiving end of a request's oneshot is gone. -/
def isClosed (self : ReaderSystem NfcUid) (request : NfcReaderRequest) : Bool :=
  match self.roundtrips[request.response]? with
  | some ⟨_,.cancelled⟩ => true
  | _ => false

/-- The arm of a request begins. Only the two waits look whether the caller is still
there. -/
def arm (request : NfcReaderRequest) : Serve NfcUid :=
  match request.operation with
  | .waitForCard | .waitForRemoval => .checking request
  | .readNdefText => .polling request

/-- The next step of the thread. The channel is closed once there is neither a handle
nor a call that holds on to one. -/
def serveStep (adapter : Adapter NfcUid) (self : ReaderSystem NfcUid) : ReaderSystem NfcUid :=
  match self.serve with
  | .receiving =>
    match self.channel.recv? with
    | some (request,channel) => { self with
        channel
        serve := arm request
        trace := .dequeued request :: self.trace }
    | none =>
      if self.handles = 0 ∧ self.roundtrips.all (fun r => !r.stage.isPending) then
        { self with serve := .returned }
      else self
  | .checking request =>
    if self.isClosed request then { self with
      serve := .receiving
      trace := .abandoned request :: self.trace }
    else { self with serve := .polling request }
  | .polling request =>
    let result := adapter.poll self.polls request
    { self with
      serve := match result with
        | some reply => .sending request reply
        | none => .checking request
      polls := self.polls + 1
      trace := .polled request result :: self.trace }
  | .sending request reply =>
    match self.roundtrips[request.response]? with
    | some ⟨operation,.waiting⟩ => { self with
        roundtrips := self.roundtrips.set request.response ⟨operation,.replied reply⟩
        serve := .receiving
        trace := .answered request reply :: self.trace }
    | _ => { self with
        serve := .receiving
        trace := .lost request :: self.trace }
  | .returned => self

def step (adapter : Adapter NfcUid) (self : ReaderSystem NfcUid) :
    ReaderAction → ReaderSystem NfcUid
  | .clone => if self.handles = 0 then self else { self with handles := self.handles + 1 }
  | .drop => { self with handles := self.handles - 1 }
  | .call operation => self.call operation
  | .accept i => self.accept i
  | .cancel i => self.cancel i
  | .wake i => self.wake i
  | .serve => self.serveStep adapter

def run (adapter : Adapter NfcUid) (self : ReaderSystem NfcUid) (actions : List ReaderAction) :
    ReaderSystem NfcUid :=
  actions.foldl (step adapter) self

/-- The ways an action can go. -/
inductive Moved (adapter : Adapter NfcUid) (self : ReaderSystem NfcUid) :
    ReaderSystem NfcUid → Prop
  | idle : Moved adapter self self
  | handled {n} (hn : self.handles = 0 → n = 0) : Moved adapter self { self with handles := n }
  | called {operation} (hh : self.handles ≠ 0) : Moved adapter self
      { self with roundtrips := self.roundtrips ++ [⟨operation,.sending⟩] }
  | accepted {operation i channel} (hi : self.roundtrips[i]? = some ⟨operation,.sending⟩)
      (hc : self.channel.send? ⟨operation,i⟩ = some channel) : Moved adapter self
      { self with
        channel
        roundtrips := self.roundtrips.set i ⟨operation,.waiting⟩
        trace := .submitted ⟨operation,i⟩ :: self.trace }
  | cancelled {operation stage i} (hi : self.roundtrips[i]? = some ⟨operation,stage⟩)
      (hp : stage.isPending = true) : Moved adapter self
      { self with
        roundtrips := self.roundtrips.set i ⟨operation,.cancelled⟩
        trace := .cancelled ⟨operation,i⟩ :: self.trace }
  | woken {operation reply i} (hi : self.roundtrips[i]? = some ⟨operation,.replied reply⟩) :
      Moved adapter self
      { self with roundtrips := self.roundtrips.set i ⟨operation,.returned reply⟩ }
  | dequeued {request channel} (hs : self.serve = .receiving)
      (hc : self.channel.recv? = some (request,channel)) : Moved adapter self
      { self with channel, serve := arm request, trace := .dequeued request :: self.trace }
  | closed (hs : self.serve = .receiving) (hc : self.channel.recv? = none)
      (hh : self.handles = 0) (hp : ∀ r ∈ self.roundtrips, r.stage.isPending = false) :
      Moved adapter self { self with serve := .returned }
  | abandoned {request} (hs : self.serve = .checking request)
      (hc : self.isClosed request = true) : Moved adapter self
      { self with serve := .receiving, trace := .abandoned request :: self.trace }
  | checked {request} (hs : self.serve = .checking request)
      (hc : self.isClosed request = false) : Moved adapter self
      { self with serve := .polling request }
  | missed {request} (hs : self.serve = .polling request)
      (hr : adapter.poll self.polls request = none) : Moved adapter self
      { self with
        serve := .checking request
        polls := self.polls + 1
        trace := .polled request none :: self.trace }
  | hit {request reply} (hs : self.serve = .polling request)
      (hr : adapter.poll self.polls request = some reply) : Moved adapter self
      { self with
        serve := .sending request reply
        polls := self.polls + 1
        trace := .polled request (some reply) :: self.trace }
  | answered {request reply operation} (hs : self.serve = .sending request reply)
      (hi : self.roundtrips[request.response]? = some ⟨operation,.waiting⟩) : Moved adapter self
      { self with
        roundtrips := self.roundtrips.set request.response ⟨operation,.replied reply⟩
        serve := .receiving
        trace := .answered request reply :: self.trace }
  | lost {request reply} (hs : self.serve = .sending request reply)
      (hi : ∀ operation, self.roundtrips[request.response]? ≠ some ⟨operation,.waiting⟩) :
      Moved adapter self
      { self with serve := .receiving, trace := .lost request :: self.trace }

theorem serveStep_moved (adapter : Adapter NfcUid) (self : ReaderSystem NfcUid) :
    Moved adapter self (self.serveStep adapter) := by
  unfold serveStep
  split
  · next hs =>
    split
    · next request channel hc => exact .dequeued hs hc
    · next hc =>
      split
      · next hg => exact .closed hs hc hg.1 (by simpa using hg.2)
      · exact .idle
  · next request hs =>
    split
    · next hc => exact .abandoned hs hc
    · next hc => exact .checked hs (by simpa using hc)
  · next request hs =>
    dsimp only
    cases hr : adapter.poll self.polls request with
    | none => exact .missed hs hr
    | some reply => exact .hit hs hr
  · next request reply hs =>
    split
    · next operation hi => exact .answered hs hi
    · next hi => exact .lost hs hi
  · exact .idle

theorem step_moved (adapter : Adapter NfcUid) (self : ReaderSystem NfcUid)
    (action : ReaderAction) : Moved adapter self (self.step adapter action) := by
  cases action with
  | clone =>
    dsimp only [step]
    split
    · exact .idle
    · next hh => exact .handled fun h => absurd h hh
  | drop =>
    refine .handled ?_
    intro h
    rw [h]
  | call operation =>
    dsimp only [step,call]
    split
    · exact .idle
    · next hh => exact .called hh
  | accept i =>
    dsimp only [step,accept]
    split
    · next operation hi =>
      split
      · next channel hc => exact .accepted hi hc
      · exact .idle
    · exact .idle
  | cancel i =>
    dsimp only [step,cancel]
    split
    · next operation stage hi =>
      split
      · next hp => exact .cancelled hi hp
      · exact .idle
    · exact .idle
  | wake i =>
    dsimp only [step,wake]
    split
    · next operation reply hi => exact .woken hi
    · exact .idle
  | serve => exact serveStep_moved adapter self

/-- A fact that every action keeps holds after every run. -/
theorem run_induction {P : ReaderSystem NfcUid → Prop} {adapter : Adapter NfcUid}
    {self : ReaderSystem NfcUid} (h : P self)
    (hmoved : ∀ self reader, P self → Moved adapter self reader → P reader)
    (actions : List ReaderAction) : P (self.run adapter actions) := by
  induction actions generalizing self with
  | nil => exact h
  | cons action actions ih => exact ih (hmoved _ _ h (step_moved adapter self action))

end ReaderSystem

end BloopClient.Nfc

import BloopClient.Protocol

/-!
# What a connection task does, as events

The client's public data types, the commands its handles send, and the events
by which the task's actions are observed. A trace lists the events of a run
most recent first, so the tail at an event is everything that happened before
it.
-/

namespace BloopClient

/-- Server address and credentials for a connection. -/
structure ConnectionConfig where
  host : String
  port : UInt16
  clientId : String
  clientSecret : String
  deriving DecidableEq, Repr

/-- The client's connection state, as published on the status watch. -/
inductive ConnectionStatus
  | unconfigured
  | disconnected
  | connected (capabilities : Capabilities)
  | invalidCredentials
  | shutdown
  deriving DecidableEq, Repr

/-- How the client behaves after the server rejects its credentials. -/
inductive InvalidCredentialsPolicy
  | latch
  | retry
  deriving DecidableEq, Repr

/-- A command of a handle. The oneshot it is answered on is named by a number. -/
inductive Command
  | configure (config : Option ConnectionConfig)
  | request (message : RawMessage) (response : ℕ)
  | shutdown (response : ℕ)
  deriving DecidableEq, Repr

/-- Errors that can occur while establishing a connection. -/
inductive ConnectError
  | resolve (host : String)
  | invalidDnsName (host : String)
  | io (error : IoError)
  | frame (error : FrameError)
  | encode (error : EncodeError)
  | timeout
  | unsupportedVersion (version : UInt8)
  | unsupportedVersionRange
  | unexpected (error : RequestError)
  deriving DecidableEq, Repr

/-- The code path that issues a frame, and awaits its reply. -/
inductive Role
  | handshake
  | authentication
  | session
  | request (response : ℕ)
  | ping
  | quit
  deriving DecidableEq, Repr

/-- The frame belongs to a request of a handle. -/
def Role.isRequest : Role → Bool
  | .request _ => true
  | _ => false

/-- Whether a frame was written whole. A write that failed or was cut off may
still have handed the whole frame to the peer. -/
inductive Written
  | complete
  | broken (delivered : Bool)
  deriving DecidableEq, Repr

/-- How a call of `connect` ended. -/
inductive Attempt
  | accepted
  | rejected
  | failed (error : ConnectError)
  | timedOut
  deriving DecidableEq, Repr

/-- How the on-connect hook ended. -/
inductive Hooked
  | ok
  | failed
  | timedOut
  deriving DecidableEq, Repr

/-- An answer on a request's oneshot. -/
inductive Answer
  | ok (raw : RawMessage)
  | error (error : RequestError)
  deriving DecidableEq, Repr

/-- An action of the connection task. Connections are numbered in the order of
their connect attempts. -/
inductive Event
  | received (command : Command)
  | configured (config : Option ConnectionConfig)
  | connecting (c : ℕ) (config : ConnectionConfig)
  | opened (c : ℕ) (localIp : IpAddr)
  | wrote (c : ℕ) (role : Role) (frame : RawMessage) (written : Written)
  | read (c : ℕ) (role : Role) (bound : UInt32) (reply : Option RawMessage)
  | closed (c : ℕ)
  | connectReturned (c : ℕ) (attempt : Attempt)
  | hookReturned (c : ℕ) (hooked : Hooked)
  | stored (c : ℕ)
  | published (status : ConnectionStatus)
  | answered (response : ℕ) (answer : Answer)
  | acknowledged (response : ℕ)
  | channelClosed
  deriving DecidableEq, Repr

/-- The events of a run, most recent first. -/
abbrev Trace := List Event

namespace Event

/-- The connection an event belongs to. -/
def conn : Event → Option ℕ
  | .connecting c _ => some c
  | .opened c _ => some c
  | .wrote c _ _ _ => some c
  | .read c _ _ _ => some c
  | .closed c => some c
  | .connectReturned c _ => some c
  | .hookReturned c _ => some c
  | .stored c => some c
  | _ => none

/-- The event opens or closes the stream of connection `c`, or moves a frame on
it that is no request of a handle. -/
def OnLink (c : ℕ) : Event → Prop
  | .opened c' _ => c' = c
  | .wrote c' role _ _ => c' = c ∧ role.isRequest = false
  | .read c' role _ _ => c' = c ∧ role.isRequest = false
  | .closed c' => c' = c
  | _ => False

/-- The event starts a connect attempt. -/
def isConnecting : Event → Bool
  | .connecting _ _ => true
  | _ => false

end Event

/-- The number of connect attempts so far, which is the next connection's
number. -/
def dials (t : Trace) : ℕ := t.countP Event.isConnecting

end BloopClient

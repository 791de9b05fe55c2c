import BloopClient.Events
import BloopClient.Tracelib.Future

/-!
# Connection establishment and the per-connection request primitive

The frame exchange of an established connection, the session handed to an
on-connect hook, and the steps of `connect`. The network decides what each
await comes to; it may do so from everything that has happened so far, so a
statement over all networks is one over all outcomes, cancellations included.
-/

namespace BloopClient
open Tracelib

/-- An await before the stream exists. The inner deadline of `connect` and the
deadline of the whole attempt can both cut it off. -/
inductive Wait (α : Type)
  | ready (value : α)
  | ioTimeout
  | elapsed

/-- What `write_frame` came to. Anything but `complete` says whether the peer
nevertheless received the whole frame. -/
inductive WriteOutcome
  | complete
  | failed (error : FrameError) (delivered : Bool)
  | dropped (delivered : Bool)
  | elapsed (delivered : Bool)

/-- What `read_frame` came to. -/
inductive ReadOutcome
  | frame (raw : RawMessage)
  | failed (error : FrameError)
  | dropped
  | elapsed

abbrev SocketAddr := List UInt8

/-- The network and the peer. -/
structure Net where
  serverName : String → Bool
  lookupHost : Trace → Wait (Except IoError (List SocketAddr))
  tcpConnect : Trace → SocketAddr → Wait (Except IoError Unit)
  localAddr : Trace → Except IoError IpAddr
  tlsConnect : Trace → Wait (Except IoError Unit)
  writeFrame : Trace → ℕ → RawMessage → WriteOutcome
  readFrame : Trace → ℕ → UInt32 → ReadOutcome

structure OnConnectError where
  text : String
  deriving DecidableEq, Repr

/-- An on-connect hook, as the session sees it: the hook runs requests on the
session and goes on with what each one came to, `none` for a request future it
dropped. `custom` and `retrieve_audio` are requests whose reply is decoded. A
hook that waits for something else for too long stalls. -/
inductive Hook
  | done (result : Except OnConnectError Unit)
  | stall
  | request (message : RawMessage) (next : Option (Except RequestError RawMessage) → Hook)

/-- Everything a connection task is given and never writes: the protocol's
codec, the network, and the builder's settings. A hook is an `Fn` that may
behave differently each time it runs, so it is indexed by the connection it
runs on; it can ask its session for the capabilities of the server. -/
structure Env where
  protocol : Protocol
  net : Net
  maxPayloadLen : UInt32
  invalidCredentialsPolicy : InvalidCredentialsPolicy
  onConnect : Option (ℕ → Capabilities → Hook)

/-- An established connection: its stream, named by the connection's number,
and what was learnt about the peer. -/
structure Connection where
  id : ℕ
  capabilities : Capabilities
  maxPayloadLen : UInt32
  deriving DecidableEq, Repr

inductive ConnectOutcome
  | connected (connection : Connection)
  | invalidCredentials
  deriving DecidableEq, Repr

section Wire

variable (env : Env)

def writeFrame (c : ℕ) (role : Role) (frame : RawMessage) : Fut Trace FrameError Unit := fun t =>
  match env.net.writeFrame t c frame with
  | .complete => (.ok (),.wrote c role frame .complete :: t)
  | .failed error delivered => (.err error,.wrote c role frame (.broken delivered) :: t)
  | .dropped delivered => (.dropped,.wrote c role frame (.broken delivered) :: t)
  | .elapsed delivered => (.elapsed,.wrote c role frame (.broken delivered) :: t)

def readFrame (c : ℕ) (role : Role) (bound : UInt32) : Fut Trace FrameError RawMessage := fun t =>
  match env.net.readFrame t c bound with
  | .frame raw => (.ok raw,.read c role bound (some raw) :: t)
  | .failed error => (.err error,.read c role bound none :: t)
  | .dropped => (.dropped,.read c role bound none :: t)
  | .elapsed => (.elapsed,.read c role bound none :: t)

namespace Connection

/-- Performs one request-response exchange with raw frames. -/
def requestRaw (self : Connection) (role : Role) (message : RawMessage) :
    Fut Trace FrameError RawMessage := do
  writeFrame env self.id role message
  readFrame env self.id role self.maxPayloadLen

/-- Sends a ping and awaits the pong. -/
def ping (self : Connection) : Fut Trace RequestError Unit := do
  let message ← Fut.lift (env.protocol.encodePing.mapError .encode)
  let raw ← (self.requestRaw env .ping message).mapErr (fun _ => .disconnected)
  Fut.lift (decodeResponse env.protocol env.protocol.decodePong raw)

/-- Announces the disconnect to the server; best effort. -/
def quit (self : Connection) (t : Trace) : Trace :=
  match env.protocol.encodeQuit with
  | .ok message => (writeFrame env self.id .quit message t).2
  | .error _ => t

end Connection

namespace Session

/-- Performs a raw frame exchange. -/
def requestRaw (connection : Connection) (message : RawMessage) :
    Fut Trace RequestError RawMessage :=
  (connection.requestRaw env .session message).mapErr (fun _ => .disconnected)

/-- Performs a typed custom request. Requesting the audio data of an
achievement is one. -/
def custom {M : Type} (connection : Connection) (message : Except EncodeError RawMessage)
    (decode : RawMessage → Except MessageSetError M) : Fut Trace RequestError M := do
  let message ← Fut.lift (message.mapError .encode)
  let raw ← requestRaw env connection message
  Fut.lift (decodeResponse env.protocol decode raw)

end Session

namespace Hook

/-- A typed request inside a hook. -/
def custom {M : Type} (protocol : Protocol) (message : Except EncodeError RawMessage)
    (decode : RawMessage → Except MessageSetError M)
    (next : Option (Except RequestError M) → Hook) : Hook :=
  match message with
  | .error error => next (some (.error (.encode error)))
  | .ok message => .request message fun result =>
    match result with
    | none => next none
    | some (.error error) => next (some (.error error))
    | some (.ok raw) => next (some (decodeResponse protocol decode raw))

/-- Runs a hook on a session. A request the hook drops does not end the hook;
the deadline around the hook does. -/
def run (connection : Connection) : Hook → Fut Trace OnConnectError Unit
  | .done (.ok ()) => pure ()
  | .done (.error error) => Fut.fail error
  | .stall => fun t => (.elapsed,t)
  | .request message next => fun t =>
    match Session.requestRaw env connection message t with
    | (.ok raw,t) => run connection (next (some (.ok raw))) t
    | (.err error,t) => run connection (next (some (.error error))) t
    | (.dropped,t) => run connection (next none) t
    | (.elapsed,t) => (.elapsed,t)

/-- A typed request of a hook is one of its session. -/
theorem run_custom {M : Type} (connection : Connection) (message : Except EncodeError RawMessage)
    (decode : RawMessage → Except MessageSetError M)
    (next : Option (Except RequestError M) → Hook) (t : Trace) :
    (custom env.protocol message decode next).run env connection t =
      match Session.custom env connection message decode t with
      | (.ok value,t) => (next (some (.ok value))).run env connection t
      | (.err error,t) => (next (some (.error error))).run env connection t
      | (.dropped,t) => (next none).run env connection t
      | (.elapsed,t) => (.elapsed,t) := by
  cases message with
  | error error => rfl
  | ok message =>
    have hs : Session.custom env connection (.ok message) decode t =
        (do Fut.lift (decodeResponse env.protocol decode
          (← Session.requestRaw env connection message))) t := rfl
    rw [hs,Fut.bind_apply]
    simp only [custom,run]
    rcases Session.requestRaw env connection message t with ⟨r,t₁⟩
    cases r with
    | ok raw =>
      dsimp only
      cases decodeResponse env.protocol decode raw with
      | ok value => rfl
      | error error => rfl
    | err error => rfl
    | dropped => rfl
    | elapsed => rfl

end Hook

/-- Awaits a step taken before the stream exists. -/
def await {α : Type} (step : Trace → Wait α) : Fut Trace ConnectError α := fun t =>
  match step t with
  | .ready value => (.ok value,t)
  | .ioTimeout => (.err .timeout,t)
  | .elapsed => (.elapsed,t)

/-- The first address a host resolved to. -/
def firstAddress (host : String) : Except IoError (List SocketAddr) → Except ConnectError SocketAddr
  | .error _ => .error (.resolve host)
  | .ok [] => .error (.resolve host)
  | .ok (address :: _) => .ok address

/-- The host as the name the server's certificate must carry. -/
def serverName (host : String) : Except ConnectError Unit :=
  if env.net.serverName host then .ok () else .error (.invalidDnsName host)

/-- Resolves the host and establishes the TCP and TLS layers, yielding the
local address. -/
def dial (config : ConnectionConfig) : Fut Trace ConnectError IpAddr := do
  let addresses ← await env.net.lookupHost
  let address ← Fut.lift (firstAddress config.host addresses)
  let tcpStream ← await (env.net.tcpConnect · address)
  Fut.lift (tcpStream.mapError .io)
  let localAddr ← await (fun t => .ready (env.net.localAddr t))
  let localIp ← Fut.lift (localAddr.mapError .io)
  Fut.lift (serverName env config.host)
  let tlsStream ← await env.net.tlsConnect
  Fut.lift (tlsStream.mapError .io)
  pure localIp

def negotiateVersion (connection : Connection) : Fut Trace ConnectError Capabilities := do
  let message ← Fut.lift ((env.protocol.encodeClientHandshake ⟨3,3⟩).mapError .encode)
  let raw ← (connection.requestRaw env .handshake message).mapErr .frame
  match decodeResponse env.protocol env.protocol.decodeServerHandshake raw with
  | .ok handshake =>
    if handshake.acceptedVersion ≠ 3 then
      Fut.fail (.unsupportedVersion handshake.acceptedVersion)
    else
      pure handshake.capabilities
  | .error (.error .unsupportedVersionRange) => Fut.fail .unsupportedVersionRange
  | .error error => Fut.fail (.unexpected error)

def authenticate (connection : Connection) (config : ConnectionConfig) (localIp : IpAddr) :
    Fut Trace ConnectError Bool := do
  let message ← Fut.lift ((env.protocol.encodeAuthentication
    ⟨config.clientId,config.clientSecret,localIp⟩).mapError .encode)
  let raw ← (connection.requestRaw env .authentication message).mapErr .frame
  match decodeResponse env.protocol env.protocol.decodeAuthenticationAccepted raw with
  | .ok () => pure true
  | .error (.error .invalidCredentials) => pure false
  | .error error => Fut.fail (.unexpected error)

/-- Negotiates and authenticates on a fresh stream. The largest legal message
of a server before authentication completes is a 9-byte handshake, hence the
tight bound until then. -/
def establish (c : ℕ) (config : ConnectionConfig) (localIp : IpAddr) :
    Fut Trace ConnectError ConnectOutcome := do
  let connection : Connection := ⟨c,Capabilities.none,1024⟩
  let capabilities ← negotiateVersion env connection
  let connection := { connection with capabilities }
  let authenticated ← authenticate env connection config localIp
  if !authenticated then
    pure .invalidCredentials
  else
    pure (.connected { connection with maxPayloadLen := env.maxPayloadLen })

/-- Only a connected outcome carries the stream out of `connect`. -/
def keepsStream : Outcome ConnectError ConnectOutcome → Bool
  | .ok (.connected _) => true
  | _ => false

/-- Establishes, negotiates, and authenticates a connection. The stream is
closed with the future that owns it on every way out that does not hand it
over. -/
def connect (c : ℕ) (config : ConnectionConfig) : Fut Trace ConnectError ConnectOutcome := do
  let localIp ← dial env config
  Fut.modify (.opened c localIp :: ·)
  (establish env c config localIp).cleanup keepsStream (.closed c :: ·)

end Wire

end BloopClient

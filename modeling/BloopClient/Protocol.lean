import Mathlib.Tactic.Common

/-!
# Messages, requests and their errors

The frame and message types the client exchanges, and `decode_response`. The
encoders and decoders belong to the protocol crate, whose code is not part of
the client: they are the fields of `Protocol`, and nothing is assumed about
them here.
-/

namespace BloopClient

/-- A frame: its opcode and its payload. -/
structure RawMessage where
  messageType : UInt8
  payload : List UInt8
  deriving DecidableEq, Repr, Inhabited

/-- The bit set a server declares in its handshake. -/
structure Capabilities where
  bits : UInt64
  deriving DecidableEq, Repr

def Capabilities.none : Capabilities := ⟨0⟩

structure ClientHandshake where
  minVersion : UInt8
  maxVersion : UInt8
  deriving DecidableEq, Repr

structure ServerHandshake where
  acceptedVersion : UInt8
  capabilities : Capabilities
  deriving DecidableEq, Repr

abbrev IpAddr := List UInt8

structure Authentication where
  clientId : String
  clientSecret : String
  ipAddress : IpAddr
  deriving DecidableEq, Repr

/-- The error codes of a server. The client matches on the first two only; all
the others, the extension codes included, are numbered. -/
inductive ErrorResponse
  | unsupportedVersionRange
  | invalidCredentials
  | other (variant : ℕ)
  deriving DecidableEq, Repr

/-- Errors of the protocol crate and of the operating system, whose content the
client only logs. -/
structure EncodeError where
  text : String
  deriving DecidableEq, Repr

structure FrameError where
  text : String
  deriving DecidableEq, Repr

structure IoError where
  text : String
  deriving DecidableEq, Repr

inductive MessageSetError
  | unknownOpcode (opcode : UInt8)
  | decode (text : String)
  deriving DecidableEq, Repr

/-- Errors that can occur while performing a request. -/
inductive RequestError
  | disconnected
  | shutdown
  | error (response : ErrorResponse)
  | unexpectedResponse (raw : RawMessage)
  | malformed (error : MessageSetError)
  | encode (error : EncodeError)
  deriving DecidableEq, Repr

/-- The codec of the protocol crate, as the client calls it. -/
structure Protocol where
  encodeClientHandshake : ClientHandshake → Except EncodeError RawMessage
  encodeAuthentication : Authentication → Except EncodeError RawMessage
  encodePing : Except EncodeError RawMessage
  encodeQuit : Except EncodeError RawMessage
  errorOpcode : UInt8
  quitOpcode : UInt8
  decodeErrorResponse : RawMessage → Except MessageSetError ErrorResponse
  decodeServerHandshake : RawMessage → Except MessageSetError ServerHandshake
  decodeAuthenticationAccepted : RawMessage → Except MessageSetError Unit
  decodePong : RawMessage → Except MessageSetError Unit
  isFatal : ErrorResponse → Bool

/-- Decodes a response, routing protocol errors and foreign opcodes. -/
def decodeResponse {M : Type} (p : Protocol) (decode : RawMessage → Except MessageSetError M)
    (raw : RawMessage) : Except RequestError M :=
  if raw.messageType = p.errorOpcode then
    match p.decodeErrorResponse raw with
    | .ok error => .error (.error error)
    | .error error => .error (.malformed error)
  else
    match decode raw with
    | .ok message => .ok message
    | .error (.unknownOpcode _) => .error (.unexpectedResponse raw)
    | .error error => .error (.malformed error)

/-- A reply the server closes the connection after: an error response that
decodes and is fatal. -/
def Protocol.fatalReply (p : Protocol) (raw : RawMessage) : Bool :=
  raw.messageType == p.errorOpcode &&
    match p.decodeErrorResponse raw with
    | .ok error => p.isFatal error
    | .error _ => false

/-- Only an error response reports a protocol error. -/
theorem decodeErrorResponse_of_decodeResponse_error {M : Type} {p : Protocol}
    {decode : RawMessage → Except MessageSetError M} {raw : RawMessage} {e : ErrorResponse}
    (h : decodeResponse p decode raw = .error (.error e)) :
    raw.messageType = p.errorOpcode ∧ p.decodeErrorResponse raw = .ok e := by
  unfold decodeResponse at h
  split at h
  · next he =>
    split at h
    · next error hd => cases h; exact ⟨he,hd⟩
    · cases h
  · split at h <;> cases h

end BloopClient

import BloopClient.ClientTask

/-!
# A loopback server

A peer for runs of the client, after the server of the repository's loopback
tests: it accepts version 3 and the credentials, answers a ping with a pong and
an echo request with its reversal, in the order the frames came. Its codec is a
small stand-in for the protocol crate's.
-/

namespace BloopClient.Loopback

/-- A decoder that accepts one opcode. -/
def expect {M : Type} (opcode : UInt8) (decode : List UInt8 → Option M) (raw : RawMessage) :
    Except MessageSetError M :=
  if raw.messageType = opcode then
    match decode raw.payload with
    | some message => .ok message
    | none => .error (.decode "payload")
  else .error (.unknownOpcode raw.messageType)

def protocol : Protocol where
  encodeClientHandshake handshake := .ok ⟨0x01,[handshake.minVersion,handshake.maxVersion]⟩
  encodeAuthentication authentication := .ok ⟨0x03,authentication.ipAddress⟩
  encodePing := .ok ⟨0x05,[]⟩
  encodeQuit := .ok ⟨0x07,[]⟩
  errorOpcode := 0x00
  quitOpcode := 0x07
  decodeErrorResponse := expect 0x00 fun
    | [0] => some .unsupportedVersionRange
    | [1] => some .invalidCredentials
    | [n] => some (.other n.toNat)
    | _ => none
  decodeServerHandshake := expect 0x02 fun
    | [version,bits] => some ⟨version,⟨bits.toUInt64⟩⟩
    | _ => none
  decodeAuthenticationAccepted := expect 0x04 fun
    | [] => some ()
    | _ => none
  decodePong := expect 0x06 fun
    | [] => some ()
    | _ => none
  isFatal
    | .unsupportedVersionRange => true
    | .invalidCredentials => true
    | .other n => n < 0x80

/-- The server's answer to a frame. -/
def answer (frame : RawMessage) : RawMessage :=
  if frame.messageType = 0x01 then ⟨0x02,[3,1]⟩
  else if frame.messageType = 0x03 then ⟨0x04,[]⟩
  else if frame.messageType = 0x05 then ⟨0x06,[]⟩
  else if frame.messageType = 0x80 then ⟨0x81,frame.payload.reverse⟩
  else ⟨0x00,[2]⟩

/-- The frames a connection has delivered to the server, latest first. -/
def inbox (c : ℕ) (t : Trace) : List RawMessage := t.filterMap fun
  | .wrote c' _ frame written =>
    if c' = c ∧ frame.messageType ≠ protocol.quitOpcode ∧ written ≠ .broken false then some frame
    else none
  | _ => none

/-- The number of replies read from a connection. -/
def taken (c : ℕ) (t : Trace) : ℕ := t.countP fun
  | .read c' _ _ (some _) => c' = c
  | _ => false

/-- The next reply of a connection, if the server has one. -/
def next (c : ℕ) (t : Trace) : Option RawMessage :=
  ((inbox c t).reverse.map answer)[taken c t]?

/-- A network on which everything the server has to say arrives in time. -/
def net : Net where
  serverName _ := true
  lookupHost _ := .ready (.ok [[127,0,0,1]])
  tcpConnect _ _ := .ready (.ok ())
  localAddr _ := .ok [127,0,0,1]
  tlsConnect _ := .ready (.ok ())
  writeFrame _ _ _ := .complete
  readFrame t c _ :=
    match next c t with
    | some raw => .frame raw
    | none => .elapsed

def env : Env where
  protocol := protocol
  net := net
  maxPayloadLen := 1024 * 1024
  invalidCredentialsPolicy := .latch
  onConnect := none

def config : ConnectionConfig := ⟨"localhost",4444,"client","secret"⟩

/-- The echo request of the loopback tests. -/
def echo (text : List UInt8) : RawMessage := ⟨0x80,text⟩

end BloopClient.Loopback

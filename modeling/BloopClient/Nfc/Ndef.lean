import BloopClient.Tracelib.Feed

/-!
# NDEF messages and text records

The incremental parser that extracts an NDEF message from a tag's TLV stream,
and the parser of a text record. An index or a slice that is out of bounds
panics, so each is an outcome of its own.
-/

namespace BloopClient.Nfc
open Tracelib

/-- Errors that can occur while parsing an NDEF record. -/
inductive NdefError
  | truncated (part : String)
  | chunked
  | notWellKnown
  | notTextRecord
  | invalidUtf8
  deriving DecidableEq, Repr

def NdefError.toString : NdefError → String
  | .truncated part => "record is truncated: " ++ part ++ " missing"
  | .chunked => "chunked records are not supported"
  | .notWellKnown => "not a well-known payload type"
  | .notTextRecord => "not a text record"
  | .invalidUtf8 => "text payload is not valid UTF-8"

/-- How a function can end without a value: it returns an error, or it panics. -/
inductive Fault (ε : Type)
  | error (error : ε)
  | panic
  deriving DecidableEq, Repr

def Fault.map {ε ε' : Type} (f : ε → ε') : Fault ε → Fault ε'
  | .error e => .error (f e)
  | .panic => .panic

inductive State
  | init
  | length
  | value
  deriving DecidableEq, Repr

structure NdefMessageParser where
  state : State
  length : Int32
  data : List UInt8
  deriving DecidableEq, Repr

namespace NdefMessageParser

def new : NdefMessageParser := ⟨.init,-1,[]⟩

/-- The complete message has been extracted. -/
def isDone (self : NdefMessageParser) : Bool := Int32.ofNat self.data.length == self.length

/-- The start of an NDEF message has been seen. -/
def hasStarted (self : NdefMessageParser) : Bool := self.state != .init

/-- The body of the loop over a chunk's bytes. -/
def addByte (self : NdefMessageParser) (byte : UInt8) : NdefMessageParser :=
  match self.state with
  | .init =>
    if byte = 0x00 then self
    else if byte = 0x03 then { self with state := .length }
    else self
  | .length =>
    if self.length = -1 then
      if byte = 0xff then { self with length := -2 }
      else { self with length := Int32.ofNat byte.toNat, state := .value }
    else if self.length = -2 then { self with length := Int32.ofNat byte.toNat }
    else { self with length := self.length <<< 8 ||| Int32.ofNat byte.toNat, state := .value }
  | .value => { self with data := self.data ++ [byte] }

/-- The loop returns after this byte: it completes the value. -/
def completes (self : NdefMessageParser) (byte : UInt8) : Bool :=
  self.state = .value ∧ (self.addByte byte).isDone

/-- Feeds the next chunk of tag data into the parser. -/
def addData (self : NdefMessageParser) (data : List UInt8) : NdefMessageParser :=
  feed addByte completes self data

end NdefMessageParser

/-- A byte of a slice. -/
def byteAt (data : List UInt8) (index : ℕ) : Except (Fault NdefError) UInt8 :=
  match data[index]? with
  | some byte => .ok byte
  | none => .error .panic

/-- The bytes of a slice in a range. -/
def slice (data : List UInt8) (start stop : ℕ) : Except (Fault NdefError) (List UInt8) :=
  if start ≤ stop ∧ stop ≤ data.length then .ok ((data.take stop).drop start) else .error .panic

def u32FromBeBytes : List UInt8 → Except (Fault NdefError) UInt32
  | [a,b,c,d] => .ok (a.toUInt32 <<< 24 ||| b.toUInt32 <<< 16 ||| c.toUInt32 <<< 8 ||| d.toUInt32)
  | _ => .error .panic

structure NdefTextRecord where
  value : List UInt8
  deriving DecidableEq, Repr

/-- The record's text, stripped of its language code. -/
def NdefTextRecord.text (self : NdefTextRecord) : Except (Fault NdefError) String := do
  if self.value.isEmpty then
    return ""
  let codeLength := (← byteAt self.value 0) &&& 0b00111111
  let start := codeLength.toNat + 1
  if self.value.length < start then
    throw (.error (.truncated "text payload"))
  match String.fromUTF8? ⟨(self.value.drop start).toArray⟩ with
  | some text => return text
  | none => throw (.error .invalidUtf8)

/-- Parses an NDEF message as a single text record. -/
def parseNdefTextRecord (data : List UInt8) : Except (Fault NdefError) NdefTextRecord := do
  let recordLength := data.length
  let index := 0
  if recordLength ≤ index then
    throw (.error (.truncated "flags"))
  let flags ← byteAt data index
  let isChunked := flags &&& 0b00100000 != 0
  let isShortRecord := flags &&& 0b00010000 != 0
  let hasIdLength := flags &&& 0b00001000 != 0
  let typeNameFormat := flags &&& 0b00000111
  if isChunked then
    throw (.error .chunked)
  let index := index + 1
  if recordLength ≤ index then
    throw (.error (.truncated "type length"))
  let typeLength ← byteAt data index
  let index := index + 1
  let (payloadLength,index) ←
    if isShortRecord then do
      if recordLength ≤ index then
        throw (.error (.truncated "payload length"))
      pure ((← byteAt data index).toUInt32,index + 1)
    else do
      if recordLength ≤ index + 3 then
        throw (.error (.truncated "payload length"))
      pure (← u32FromBeBytes (← slice data index (index + 4)),index + 4)
  let (idLength,index) ←
    if hasIdLength then do
      if recordLength ≤ index then
        throw (.error (.truncated "ID length"))
      pure (← byteAt data index,index + 1)
    else pure (0,index)
  let (payloadType,index) ←
    if typeLength > 0 then do
      if recordLength < index + typeLength.toNat then
        throw (.error (.truncated "type"))
      pure (← slice data index (index + typeLength.toNat),index + typeLength.toNat)
    else pure ([],index)
  let index ←
    if idLength > 0 then do
      if recordLength < index + idLength.toNat then
        throw (.error (.truncated "ID"))
      pure (index + idLength.toNat)
    else pure index
  let payloadValue ←
    if payloadLength > 0 then do
      if payloadLength.toNat > recordLength - index then
        throw (.error (.truncated "payload"))
      slice data index (index + payloadLength.toNat)
    else pure []
  if typeNameFormat ≠ 1 then
    throw (.error .notWellKnown)
  if payloadType ≠ [0x54] then
    throw (.error .notTextRecord)
  return ⟨payloadValue⟩

-- a short text record: "en" language code plus the text
example : (do (← parseNdefTextRecord [0xd1,0x01,8,0x54,0x02,101,110,98,108,111,111,112]).text) =
    .ok "bloop" := by decide +kernel

-- the status byte claims a 63-byte language code in a 1-byte payload
example : (do (← parseNdefTextRecord [0xd1,0x01,0x01,0x54,0x3f]).text) =
    .error (.error (.truncated "text payload")) := by decide +kernel

end BloopClient.Nfc

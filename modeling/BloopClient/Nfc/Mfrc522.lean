import BloopClient.Nfc.Ndef

/-!
# Reading the text of a tag

`read_ndef_text` of the MFRC522 adapter, over a tag whose blocks can be read or
not. A run returns its result and the addresses of the blocks it has read, in
order; a block is read once at most, so what a tag yields is a function of the
address.
-/

namespace BloopClient.Nfc

/-- What reading a block of a tag yields: sixteen bytes, that is four pages from
the address on. -/
structure Tag where
  mfRead : UInt8 → Option (Vector UInt8 16)

/-- The number of quads to read, from the capability container. The clamp keeps
the address of a block in a byte. -/
def totalQuads (capabilities : Vector UInt8 16) : UInt8 :=
  let totalBytes := capabilities[2].toNat * 8
  let totalPages := totalBytes / 4
  UInt8.ofNat (min (totalPages / 4) 63)

/-- `count` quads behind the first `done`. -/
def quadsFrom (done count : ℕ) : List UInt8 := (List.range' (done + 1) count).map UInt8.ofNat

/-- The loop over the quads. -/
def readQuads (tag : Tag) : List UInt8 → NdefMessageParser →
    Except String NdefMessageParser × List UInt8
  | [], parser => (.ok parser,[])
  | quad :: quads, parser =>
    match tag.mfRead (4 * quad) with
    | none => (.error s!"failed to read block {4 * quad}",[4 * quad])
    | some quadData =>
      let parser := parser.addData quadData.toList
      if parser.isDone then (.ok parser,[4 * quad])
      else if quad = 2 ∧ parser.hasStarted = false then
        (.error "no NDEF message found in first sector",[4 * quad])
      else
        let rest := readQuads tag quads parser
        (rest.1,4 * quad :: rest.2)

/-- The text of a message that is a text record. -/
def textOf (data : List UInt8) : Except (Fault NdefError) String := do
  (← parseNdefTextRecord data).text

/-- What becomes of the parser once the loop is over. -/
def finish (parser : NdefMessageParser) : Except (Fault String) String :=
  if parser.isDone then (textOf parser.data).mapError (Fault.map NdefError.toString)
  else .error (.error "NDEF message incomplete")

def readNdefText (tag : Tag) : Except (Fault String) String × List UInt8 :=
  match tag.mfRead 3 with
  | none => (.error (.error "failed to read capability container"),[3])
  | some capabilities =>
    let loop := readQuads tag (quadsFrom 0 (totalQuads capabilities).toNat) .new
    match loop.1 with
    | .ok parser => (finish parser,3 :: loop.2)
    | .error reason => (.error (.error reason),3 :: loop.2)

end BloopClient.Nfc

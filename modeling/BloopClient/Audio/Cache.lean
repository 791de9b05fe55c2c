import BloopClient.Audio.Disk

/-!
# The disk cache for achievement audio

`AudioCache` and its functions. What the cache is given and never writes is a
`Setting`: the texts of identifiers and hashes, which belong to other crates,
the classification of error responses, and the host. Downloads go to a temporary
name first and are renamed once they are complete.
-/

namespace BloopClient.Audio
open Tracelib

variable {Uuid DataHash : Type}

/-- The texts of identifiers and hashes. They have no path separators, so a text
made of them names an entry of its directory; different identifiers have
different texts, and none contains the character that ends it in a file name. -/
structure Texts (Uuid DataHash : Type) where
  uuid : Uuid → List Char
  hash : DataHash → List Char
  uuid_injective : Function.Injective uuid
  uuid_plain : ∀ id, '_' ∉ uuid id

structure AchievementRecord (Uuid DataHash : Type) where
  id : Uuid
  audioHash : Option DataHash
  deriving DecidableEq, Repr

structure Setting (Uuid DataHash : Type) where
  texts : Texts Uuid DataHash
  isFatal : ErrorResponse → Bool
  host : Host Uuid

/-- Errors that can occur while maintaining the audio cache. -/
inductive AudioCacheError
  | io (error : IoError)
  | request (error : RequestError)
  deriving DecidableEq, Repr

abbrev mp3 : List Char := ['m','p','3']

abbrev download : List Char := ['d','o','w','n','l','o','a','d']

structure AudioCache where
  basePath : String
  deriving DecidableEq, Repr

namespace AudioCache

variable (setting : Setting Uuid DataHash) (self : AudioCache)

/-- The cache path for a record's audio file, if the achievement has audio. -/
def pathFor (record : AchievementRecord Uuid DataHash) : Option Path :=
  record.audioHash.map fun hash =>
    ⟨self.basePath,
      setting.texts.uuid record.id ++ '_' :: setting.texts.hash hash ++ '.' :: mp3⟩

/-- The name a download is written under until it is complete. -/
def tempPath (id : Uuid) (n : UInt64) : Path :=
  ⟨self.basePath,setting.texts.uuid id ++ '.' :: Nat.toDigits 10 n.toNat ++ '.' :: download⟩

/-- Puts downloaded data in its place. Write-then-rename keeps a crash from leaving
a truncated file under the final name. -/
def store (id : Uuid) (path : Path) (data : List UInt8) :
    Fut (Disk Uuid) AudioCacheError (Option Path) := do
  let n ← fetchAdd
  let tempPath := self.tempPath setting id n
  (setting.host.write tempPath data).mapErr .io
  (setting.host.rename tempPath path).mapErr .io
  return some path

/-- Ensures a record's audio file is cached, downloading it if missing. -/
def ensureInner (record : AchievementRecord Uuid DataHash) :
    Fut (Disk Uuid) AudioCacheError (Option Path) :=
  match self.pathFor setting record with
  | none => pure none
  | some path => do
    if ← (setting.host.tryExists path).mapErr .io then
      return some path
    setting.host.createDirAll.mapErr .io
    let data ← (setting.host.retrieveAudio record.id).mapErr .request
    self.store setting record.id path data

def ensure (record : AchievementRecord Uuid DataHash) :
    Fut (Disk Uuid) AudioCacheError (Option Path) := self.ensureInner setting record

/-- Audio no record refers to, or the leftover of an interrupted download. -/
def Stale (expected : List Path) (path : Path) : Prop :=
  (path.extension = some mp3 ∧ path ∉ expected) ∨ path.extension = some download

instance (expected : List Path) (path : Path) : Decidable (Stale expected path) :=
  inferInstanceAs (Decidable (_ ∨ _))

/-- The loop of `sync` over the entries of the directory. -/
def prune (expected : List Path) : List Path → Fut (Disk Uuid) AudioCacheError Unit
  | [] => setting.host.nextEntry.mapErr .io
  | path :: entries => do
    setting.host.nextEntry.mapErr .io
    if Stale expected path then
      setting.host.removeFile path
    prune expected entries

/-- The part of `sync` in front of the records. -/
def prepare (records : List (AchievementRecord Uuid DataHash)) :
    Fut (Disk Uuid) AudioCacheError Unit := do
  setting.host.createDirAll.mapErr .io
  let expected := records.filterMap (self.pathFor setting)
  let entries ← (setting.host.readDir self.basePath).mapErr .io
  prune setting expected entries

/-- The loop of `sync` over the records. A fatal error means the server closed the
connection; that is a failed sync, not a skippable record. -/
def ensureAll (skipped : List Uuid) :
    List (AchievementRecord Uuid DataHash) → Fut (Disk Uuid) AudioCacheError (List Uuid)
  | [] => pure skipped
  | record :: records => do
    match ← (self.ensureInner setting record).attempt with
    | .ok _ => ensureAll skipped records
    | .error (.request (.error error)) =>
      if setting.isFatal error then Fut.fail (.request (.error error))
      else ensureAll (skipped ++ [record.id]) records
    | .error error => Fut.fail error

/-- Brings the cache in line with a full list of achievement records. -/
def sync (records : List (AchievementRecord Uuid DataHash)) :
    Fut (Disk Uuid) AudioCacheError (List Uuid) := do
  self.prepare setting records
  self.ensureAll setting [] records

end AudioCache

end BloopClient.Audio

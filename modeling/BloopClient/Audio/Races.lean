import BloopClient.Audio.Works
import BloopClient.Tracelib.Interference
import Mathlib.Algebra.Group.Nat.Defs

/-!
# `sync` and `ensure` at the same time

Any number of calls of `sync` and `ensure` in one process, on any caches and records,
interleaved operation by operation, with `sync` removing files while others write and
rename theirs. A file that is removed while it is written stays removed; renaming a file
that is gone fails. Calls may be dropped at any point, and a crash is the end of the list of
actions.
-/

namespace BloopClient.Audio
open Tracelib AudioCache

variable {Uuid DataHash : Type}

/-- What the calls share: the files and the counter of temporary names. Beside it stand
which call each number was handed to, the names under which a write under way has created
its file, the downloads, the files that were removed, and the ones a rename looked for in
vain. -/
structure Shop (Uuid : Type) where
  files : Path → Option Entry
  tempCounter : UInt64
  owners : List (UInt64 × ℕ)
  created : List Path
  downloads : List (Uuid × List UInt8)
  removed : List Path
  missed : List Path

/-- What the world decides about an operation. An operation that fails may have taken
effect all the same. -/
inductive Upshot
  | succeed
  | fail (error : IoError) (took : Bool)
  | reply (data : List UInt8)
  | refuse (error : RequestError)
  | list (names : List (List Char))
  | part (n : ℕ)
  deriving DecidableEq, Repr

namespace Shop

def new (files : Path → Option Entry) (tempCounter : UInt64) : Shop Uuid :=
  ⟨files,tempCounter,[],[],[],[],[]⟩

variable (self : Shop Uuid)

/-- A write gets so far. It creates its file, but does not bring it back. -/
def put (path : Path) (data : List UInt8) : Shop Uuid :=
  if path ∈ self.created ∧ self.files path = none then self
  else { self with
    files := Function.update self.files path (some (.file data))
    created := path :: self.created }

/-- A write is over. -/
def close (path : Path) : Shop Uuid :=
  { self with created := self.created.filter (· ≠ path) }

def remove (path : Path) : Shop Uuid :=
  if self.files path = none then self
  else { self with
    files := Function.update self.files path none
    removed := path :: self.removed }

def move (source target : Path) : Shop Uuid := { self with
  files := Function.update (Function.update self.files source none) target (self.files source) }

/-- The next number goes to a call. -/
def fetch (i : ℕ) : Shop Uuid := { self with
  tempCounter := self.tempCounter + 1
  owners := (self.tempCounter,i) :: self.owners }

def download (id : Uuid) (data : List UInt8) : Shop Uuid := { self with
  downloads := (id,data) :: self.downloads }

def miss (path : Path) : Shop Uuid := { self with missed := path :: self.missed }

/-- The operation of a call comes to its end. -/
def act (i : ℕ) (fate : Upshot) (o : CacheOp Uuid) (self : Shop Uuid) :
    Option (CacheOp.Res o × Shop Uuid) :=
  match o,fate with
  | .tryExists path,.succeed => some (.ok (self.files path).isSome,self)
  | .tryExists _,.fail error _ => some (.error error,self)
  | .createDirAll,.succeed => some (.ok (),self)
  | .createDirAll,.fail error _ => some (.error error,self)
  | .readDir dir,.list names => some (.ok (names.map (Path.mk dir)),self)
  | .readDir _,.fail error _ => some (.error error,self)
  | .nextEntry,.succeed => some (.ok (),self)
  | .nextEntry,.fail error _ => some (.error error,self)
  | .removeFile path,.succeed => some ((),self.remove path)
  | .removeFile path,.fail _ took => some ((),if took then self.remove path else self)
  | .retrieveAudio id,.reply data => some (.ok data,self.download id data)
  | .retrieveAudio _,.refuse error => some (.error error,self)
  | .fetchAdd,_ => some (self.tempCounter,self.fetch i)
  | .write path data,.succeed => some (.ok (),(self.put path data).close path)
  | .write path _,.fail error _ => some (.error error,self.close path)
  | .rename source target,.succeed =>
    if self.files source = none then none else some (.ok (),self.move source target)
  | .rename source target,.fail error took =>
    if self.files source = none then some (.error error,self.miss source)
    else some (.error error,if took then self.move source target else self)
  | _,_ => none

/-- A write under way shows any part of its data. -/
def touch (_ : ℕ) : Upshot → CacheOp Uuid → Shop Uuid → Shop Uuid
  | .part n,.write path data,self => self.put path (data.take n)
  | _,_,self => self

end Shop

/-- The operations of the cache on what the calls share. -/
def machine : Machine (Shop Uuid) Upshot (CacheOp Uuid) CacheOp.Res := ⟨Shop.act,Shop.touch⟩

/-- A call and what it returned. -/
inductive Finished (Uuid DataHash : Type)
  | ensured (cache : AudioCache) (record : AchievementRecord Uuid DataHash)
      (result : Except AudioCacheError (Option Path))
  | synced (cache : AudioCache) (records : List (AchievementRecord Uuid DataHash))
      (result : Except AudioCacheError (List Uuid))

abbrev Calls (Uuid DataHash : Type) :=
  Crew (Shop Uuid) (CacheOp Uuid) CacheOp.Res AudioCacheError (Finished Uuid DataHash)

inductive CallAction (Uuid DataHash : Type)
  | ensure (cache : AudioCache) (record : AchievementRecord Uuid DataHash)
  | sync (cache : AudioCache) (records : List (AchievementRecord Uuid DataHash))
  | turn (i : ℕ) (what : Turn Upshot)

section Calls

variable (setting : Setting Uuid DataHash)

def ensureCall (cache : AudioCache) (record : AchievementRecord Uuid DataHash) :
    Work Uuid (Finished Uuid DataHash) := do
  return .ensured cache record (← (cache.ensureWork setting record).attempt)

def syncCall (cache : AudioCache) (records : List (AchievementRecord Uuid DataHash)) :
    Work Uuid (Finished Uuid DataHash) := do
  return .synced cache records (← (cache.syncWork setting records).attempt)

def CallAction.crewAction : CallAction Uuid DataHash →
    CrewAction Upshot (CacheOp Uuid) CacheOp.Res AudioCacheError (Finished Uuid DataHash)
  | .ensure cache record => .hire (ensureCall setting cache record)
  | .sync cache records => .hire (syncCall setting cache records)
  | .turn i what => .turn i what

/-- The process after the actions. -/
def calls (files : Path → Option Entry) (counter : UInt64)
    (actions : List (CallAction Uuid DataHash)) : Calls Uuid DataHash :=
  Crew.run machine ⟨Shop.new files counter,[]⟩ (actions.map (·.crewAction setting))

theorem calls_append (files : Path → Option Entry) (counter : UInt64)
    (earlier later : List (CallAction Uuid DataHash)) :
    calls setting files counter (earlier ++ later) =
      (calls setting files counter earlier).run machine (later.map (·.crewAction setting)) := by
  rw [calls,List.map_append,Crew.run_append]
  rfl

end Calls

-- ════════════════════════════════════════════════════════════════════════
-- What a call guarantees
-- ════════════════════════════════════════════════════════════════════════

section Guarantee

variable (setting : Setting Uuid DataHash) (start : Path → Option Entry) (base : ℕ)
  (keep : Path → Prop)

/-- What holds of the shared state of a process that started with the files `start` and the
counter at `base`, as long as the counter does not wrap. -/
structure Sane (shop : Shop Uuid) : Prop where
  counted : shop.tempCounter.toNat = base + shop.owners.length
  numbered : ∀ {n i}, (n,i) ∈ shop.owners → n.toNat < shop.tempCounter.toNat
  unique : ∀ {n i j}, (n,i) ∈ shop.owners → (n,j) ∈ shop.owners → i = j
  created : ∀ {path}, path ∈ shop.created → ∃ (cache : AudioCache) (id : Uuid) (n : UInt64) (i : ℕ),
    path = cache.tempPath setting id n ∧ (n,i) ∈ shop.owners
  complete : ∀ {cache record path}, AudioCache.pathFor setting cache record = some path →
    shop.files path = none ∨ shop.files path = start path ∨
      ∃ data, (record.id,data) ∈ shop.downloads ∧ shop.files path = some (.file data)
  kept : ∀ {path : Path}, keep path → path.extension = some mp3 → start path ≠ none →
    shop.files path = start path
  missed : ∀ {path}, path ∈ shop.missed → path ∈ shop.removed

/-- The path is a temporary name of a call. -/
def OwnTemp (i : ℕ) (path : Path) (shop : Shop Uuid) : Prop :=
  ∃ (cache : AudioCache) (id : Uuid) (n : UInt64), path = cache.tempPath setting id n ∧
    (n,i) ∈ shop.owners

/-- What a step of a call does to what is shared: content is new only under the call's own
temporary names, complete data at the path of its record, or a file is removed that is none
of those to keep. A file to keep that was there at the start is not written over. -/
structure Changes (i : ℕ) (shop shop' : Shop Uuid) : Prop where
  owners : ∀ {n j}, (n,j) ∈ shop.owners → (n,j) ∈ shop'.owners
  downloads : ∀ {x}, x ∈ shop.downloads → x ∈ shop'.downloads
  removed : ∀ {path}, path ∈ shop.removed → path ∈ shop'.removed
  created : ∀ {path}, path ∈ shop'.created → path ∈ shop.created ∨ OwnTemp setting i path shop
  files : ∀ path, shop'.files path = shop.files path ∨ OwnTemp setting i path shop ∨
    (shop'.files path = none ∧ path ∈ shop'.removed ∧ ¬ keep path) ∨
    ∃ cache record data, AudioCache.pathFor setting cache record = some path ∧
      (keep path → start path = none) ∧ (record.id,data) ∈ shop.downloads ∧
      shop'.files path = some (.file data)

def Follows (i : ℕ) (shop shop' : Shop Uuid) : Prop :=
  Changes setting start keep i shop shop' ∧ Sane setting start base keep shop'

/-- The counter has wrapped. -/
def Wrapped (shop : Shop Uuid) : Prop := 2 ^ 64 ≤ base + shop.owners.length

end Guarantee

end BloopClient.Audio

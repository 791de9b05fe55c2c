import BloopClient.Audio.Cache
import BloopClient.Tracelib.Program

/-!
# The functions of the cache as programs

`ensure` and `sync` as programs over the operations they await, for runs in which others
do something between two of them. Run by the host on its own, each program is the function
of `Audio.Cache`.
-/

namespace BloopClient.Audio
open Tracelib

variable {Uuid DataHash : Type}

/-- What the cache awaits. -/
inductive CacheOp (Uuid : Type)
  | tryExists (path : Path)
  | createDirAll
  | readDir (dir : String)
  | nextEntry
  | removeFile (path : Path)
  | retrieveAudio (id : Uuid)
  | fetchAdd
  | write (path : Path) (data : List UInt8)
  | rename (source target : Path)

/-- What an operation comes to. The cache does not look at what removing a file came to. -/
abbrev CacheOp.Res : CacheOp Uuid → Type
  | .tryExists _ => Except IoError Bool
  | .createDirAll => Except IoError Unit
  | .readDir _ => Except IoError (List Path)
  | .nextEntry => Except IoError Unit
  | .removeFile _ => Unit
  | .retrieveAudio _ => Except RequestError (List UInt8)
  | .fetchAdd => UInt64
  | .write _ _ => Except IoError Unit
  | .rename _ _ => Except IoError Unit

abbrev Work (Uuid α : Type) := Program (CacheOp Uuid) CacheOp.Res AudioCacheError α

namespace Work

def io {α : Type} (r : Except IoError α) : Work Uuid α := .lift (r.mapError .io)

def tryExists (path : Path) : Work Uuid Bool := do
  io (← Program.perform (CacheOp.tryExists path))

def createDirAll : Work Uuid Unit := do io (← Program.perform CacheOp.createDirAll)

def readDir (dir : String) : Work Uuid (List Path) := do
  io (← Program.perform (CacheOp.readDir dir))

def nextEntry : Work Uuid Unit := do io (← Program.perform CacheOp.nextEntry)

def removeFile (path : Path) : Work Uuid Unit := Program.perform (CacheOp.removeFile path)

def retrieveAudio (id : Uuid) : Work Uuid (List UInt8) := do
  let r ← Program.perform (CacheOp.retrieveAudio id)
  .lift (r.mapError .request)

def fetchAdd : Work Uuid UInt64 := Program.perform CacheOp.fetchAdd

def write (path : Path) (data : List UInt8) : Work Uuid Unit := do
  io (← Program.perform (CacheOp.write path data))

def rename (source target : Path) : Work Uuid Unit := do
  io (← Program.perform (CacheOp.rename source target))

end Work

namespace AudioCache

variable (setting : Setting Uuid DataHash) (self : AudioCache)

def storeWork (id : Uuid) (path : Path) (data : List UInt8) : Work Uuid (Option Path) := do
  let n ← Work.fetchAdd
  let tempPath := self.tempPath setting id n
  Work.write tempPath data
  Work.rename tempPath path
  return some path

def ensureWork (record : AchievementRecord Uuid DataHash) : Work Uuid (Option Path) :=
  match self.pathFor setting record with
  | none => pure none
  | some path => do
    if ← Work.tryExists path then
      return some path
    Work.createDirAll
    let data ← Work.retrieveAudio record.id
    self.storeWork setting record.id path data

def pruneWork (expected : List Path) : List Path → Work Uuid Unit
  | [] => Work.nextEntry
  | path :: entries => do
    Work.nextEntry
    if Stale expected path then
      Work.removeFile path
    pruneWork expected entries

def prepareWork (records : List (AchievementRecord Uuid DataHash)) : Work Uuid Unit := do
  Work.createDirAll
  let expected := records.filterMap (self.pathFor setting)
  let entries ← Work.readDir self.basePath
  pruneWork expected entries

def ensureAllWork (skipped : List Uuid) :
    List (AchievementRecord Uuid DataHash) → Work Uuid (List Uuid)
  | [] => pure skipped
  | record :: records => do
    match ← (self.ensureWork setting record).attempt with
    | .ok _ => ensureAllWork skipped records
    | .error (.request (.error error)) =>
      if setting.isFatal error then .fail (.request (.error error))
      else ensureAllWork (skipped ++ [record.id]) records
    | .error error => .fail error

def syncWork (records : List (AchievementRecord Uuid DataHash)) : Work Uuid (List Uuid) := do
  self.prepareWork setting records
  self.ensureAllWork setting [] records

end AudioCache

-- ════════════════════════════════════════════════════════════════════════
-- The programs on their own
-- ════════════════════════════════════════════════════════════════════════

/-- The host runs the operations one at a time. -/
def Host.handle (host : Host Uuid) :
    (o : CacheOp Uuid) → Fut (Disk Uuid) AudioCacheError (CacheOp.Res o)
  | .tryExists path => (host.tryExists path).attempt
  | .createDirAll => host.createDirAll.attempt
  | .readDir dir => (host.readDir dir).attempt
  | .nextEntry => host.nextEntry.attempt
  | .removeFile path => host.removeFile path
  | .retrieveAudio id => (host.retrieveAudio id).attempt
  | .fetchAdd => Audio.fetchAdd
  | .write path data => (host.write path data).attempt
  | .rename source target => (host.rename source target).attempt

theorem Host.handle_total (host : Host Uuid) : Program.Total host.handle := by
  have hattempt : ∀ {ε α : Type} (m : Fut (Disk Uuid) ε α) (s : Disk Uuid) (e : AudioCacheError),
      (m.attempt s).1 ≠ .err e := by
    intro ε α m s e
    rw [Fut.attempt]
    rcases m s with ⟨r,s'⟩
    cases r <;> simp
  intro o s e
  cases o with
  | removeFile path =>
    simp only [handle,Host.removeFile]
    cases host.remove s.clock <;> simp
  | fetchAdd => simp [handle,Audio.fetchAdd]
  | _ => exact hattempt _ s e

namespace Work

variable (host : Host Uuid)

/-- An operation on the disk whose error is propagated. -/
theorem run_io {α : Type} {p : Work Uuid (Except IoError α)} {m : Fut (Disk Uuid) IoError α}
    (h : p.run host.handle = m.attempt) : (p >>= io).run host.handle = m.mapErr .io := by
  rw [Program.run_bind,h]
  simp only [io,Program.run_lift,Program.attempt_lift]

theorem run_tryExists (path : Path) :
    (tryExists path).run host.handle = (host.tryExists path).mapErr .io :=
  run_io host (Program.run_perform _ _)

theorem run_createDirAll : createDirAll.run host.handle = host.createDirAll.mapErr .io :=
  run_io host (Program.run_perform _ _)

theorem run_readDir (dir : String) :
    (readDir dir).run host.handle = (host.readDir dir).mapErr .io :=
  run_io host (Program.run_perform _ _)

theorem run_nextEntry : nextEntry.run host.handle = host.nextEntry.mapErr .io :=
  run_io host (Program.run_perform _ _)

theorem run_write (path : Path) (data : List UInt8) :
    (write path data).run host.handle = (host.write path data).mapErr .io :=
  run_io host (Program.run_perform _ _)

theorem run_rename (source target : Path) :
    (rename source target).run host.handle = (host.rename source target).mapErr .io :=
  run_io host (Program.run_perform _ _)

theorem run_removeFile (path : Path) :
    (removeFile path).run host.handle = host.removeFile path := Program.run_perform _ _

theorem run_fetchAdd : fetchAdd.run host.handle = Audio.fetchAdd := Program.run_perform _ _

theorem run_retrieveAudio (id : Uuid) :
    (retrieveAudio id).run host.handle = (host.retrieveAudio id).mapErr .request := by
  rw [retrieveAudio,Program.run_bind]
  simp only [Program.run_perform,Program.run_lift,Host.handle,Program.attempt_lift]

end Work

namespace AudioCache

variable (setting : Setting Uuid DataHash) (self : AudioCache)

theorem run_storeWork (id : Uuid) (path : Path) (data : List UInt8) :
    (self.storeWork setting id path data).run setting.host.handle =
      self.store setting id path data := by
  simp only [storeWork,store,Program.run_bind,Work.run_fetchAdd,Work.run_write,Work.run_rename]
  rfl

theorem run_ensureWork (record : AchievementRecord Uuid DataHash) :
    (self.ensureWork setting record).run setting.host.handle = self.ensureInner setting record := by
  rw [ensureWork,ensureInner]
  cases self.pathFor setting record with
  | none => rfl
  | some path =>
    simp only [Program.run_bind,Work.run_tryExists]
    congr 1
    funext found
    cases found with
    | true => rfl
    | false =>
      simp only [Bool.false_eq_true,if_false,Program.run_bind,Work.run_createDirAll,
        Work.run_retrieveAudio,run_storeWork]

theorem run_pruneWork (expected entries : List Path) :
    (pruneWork expected entries).run setting.host.handle = prune setting expected entries := by
  induction entries with
  | nil => exact Work.run_nextEntry _
  | cons path entries ih =>
    simp only [pruneWork,prune,Program.run_bind,Work.run_nextEntry]
    congr 1
    funext _
    split
    · simp only [Program.run_bind,Work.run_removeFile,ih]
    · exact ih

theorem run_ensureAllWork (skipped : List Uuid) (records : List (AchievementRecord Uuid DataHash)) :
    (self.ensureAllWork setting skipped records).run setting.host.handle =
      self.ensureAll setting skipped records := by
  induction records generalizing skipped with
  | nil => rfl
  | cons record records ih =>
    simp only [ensureAllWork,ensureAll,Program.run_bind,
      Program.run_attempt setting.host.handle_total,run_ensureWork]
    congr 1
    funext r
    cases r with
    | ok path => exact ih skipped
    | error e =>
      cases e with
      | io e => rfl
      | request e =>
        cases e with
        | error e =>
          dsimp only
          split
          · rfl
          · exact ih _
        | _ => rfl

/-- Without others the program of `sync` is `sync`. -/
theorem run_syncWork (records : List (AchievementRecord Uuid DataHash)) :
    (self.syncWork setting records).run setting.host.handle = self.sync setting records := by
  simp only [syncWork,sync,prepareWork,prepare,Program.run_bind,Work.run_createDirAll,
    Work.run_readDir,run_pruneWork,run_ensureAllWork]

end AudioCache

end BloopClient.Audio

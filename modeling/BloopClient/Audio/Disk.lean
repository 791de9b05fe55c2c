import BloopClient.Protocol
import BloopClient.Tracelib.Future
import Mathlib.Logic.Function.Basic

/-!
# The disk under the audio cache

Paths, directory entries and the operations the cache awaits. The host decides
what each operation comes to. Operations are counted, and the host sees the
count, so a statement over all hosts is one over every outcome of every single
operation: an error, a cancellation, and with either of them whatever the
operation may have done before.
-/

namespace BloopClient.Audio
open Tracelib

/-- A path: a directory, and the name of an entry in it. -/
structure Path where
  dir : String
  name : List Char
  deriving DecidableEq, Repr

/-- What stands behind the last dot of a name, unless there is no dot or nothing
in front of it. -/
def extension (name : List Char) : Option (List Char) :=
  if name = ['.','.'] then none
  else
    match name.reverse.dropWhile (· ≠ '.') with
    | [] => none
    | [_] => none
    | _ => some (name.reverse.takeWhile (· ≠ '.')).reverse

def Path.extension (path : Path) : Option (List Char) := Audio.extension path.name

inductive Entry
  | file (data : List UInt8)
  | directory
  deriving DecidableEq, Repr

variable {Uuid : Type}

/-- The files there are, the counter of temporary names, the number of operations
so far, and the downloads with what each came to, latest first. -/
structure Disk (Uuid : Type) where
  files : Path → Option Entry
  tempCounter : UInt64
  clock : ℕ
  requests : List (Uuid × Outcome RequestError (List UInt8))

namespace Disk

def tick (self : Disk Uuid) : Disk Uuid := { self with clock := self.clock + 1 }

def set (self : Disk Uuid) (path : Path) (entry : Option Entry) : Disk Uuid :=
  { self with files := Function.update self.files path entry }

@[simp] theorem tick_files (self : Disk Uuid) : self.tick.files = self.files := rfl

@[simp] theorem tick_requests (self : Disk Uuid) : self.tick.requests = self.requests := rfl

@[simp] theorem set_files (self : Disk Uuid) (path : Path) (entry : Option Entry) :
    (self.set path entry).files = Function.update self.files path entry := rfl

end Disk

/-- What each operation comes to: whether one that did not succeed took effect all
the same, how much of its data a write that did not succeed left, in which order
a directory is enumerated, and what the provider answers. -/
structure Host (Uuid : Type) where
  io : ℕ → Outcome IoError Unit
  remove : ℕ → Outcome IoError Unit
  took : ℕ → Bool
  written : ℕ → ℕ
  listing : ℕ → List (List Char)
  audio : ℕ → Uuid → Outcome RequestError (List UInt8)

namespace Host

variable (host : Host Uuid)

/-- An operation with an effect on the disk. -/
def operate (effect : Disk Uuid → Disk Uuid) : Fut (Disk Uuid) IoError Unit := fun s =>
  (host.io s.clock,
    if host.io s.clock = .ok () ∨ host.took s.clock = true then effect s.tick else s.tick)

def createDirAll : Fut (Disk Uuid) IoError Unit := host.operate id

def tryExists (path : Path) : Fut (Disk Uuid) IoError Bool := do
  host.operate id
  fun s => (.ok (s.files path).isSome,s)

def write (path : Path) (data : List UInt8) : Fut (Disk Uuid) IoError Unit := fun s =>
  match host.io s.clock with
  | .ok () => (.ok (),s.tick.set path (some (.file data)))
  | r => (r,
    if host.took s.clock then s.tick.set path (some (.file (data.take (host.written s.clock))))
    else s.tick)

/-- Renaming is atomic and replaces the target. -/
def rename (source target : Path) : Fut (Disk Uuid) IoError Unit :=
  host.operate fun s => (s.set source none).set target (s.files source)

/-- The entries of a directory, as they are at the time. -/
def readDir (dir : String) : Fut (Disk Uuid) IoError (List Path) := fun s =>
  (do host.operate id; pure ((host.listing s.clock).map (Path.mk dir))) s

def nextEntry : Fut (Disk Uuid) IoError Unit := host.operate id

/-- Removes a file. An error is ignored by the caller. -/
def removeFile {ε : Type} (path : Path) : Fut (Disk Uuid) ε Unit := fun s =>
  let removed := s.tick.set path none
  let rest := if host.took s.clock then removed else s.tick
  match host.remove s.clock with
  | .ok () => (.ok (),removed)
  | .err _ => (.ok (),rest)
  | .dropped => (.dropped,rest)
  | .elapsed => (.elapsed,rest)

def retrieveAudio (id : Uuid) : Fut (Disk Uuid) RequestError (List UInt8) := fun s =>
  (host.audio s.clock id,
    { s.tick with requests := (id,host.audio s.clock id) :: s.requests })

end Host

/-- The next number for a temporary name. -/
def fetchAdd {ε : Type} : Fut (Disk Uuid) ε UInt64 := fun s =>
  (.ok s.tempCounter,{ s with tempCounter := s.tempCounter + 1 })

/-- A name that ends in a dot and a text without dots has that text as its
extension, if there is something in front. -/
theorem extension_append {stem ext : List Char} (hs : stem ≠ []) (he : '.' ∉ ext)
    (hn : ext ≠ []) : extension (stem ++ '.' :: ext) = some ext := by
  have hdots : stem ++ '.' :: ext ≠ ['.','.'] := by
    intro h
    have hl := congrArg List.length h
    have h₁ := List.length_pos_iff.mpr hs
    have h₂ := List.length_pos_iff.mpr hn
    simp only [List.length_append,List.length_cons,List.length_nil] at hl
    omega
  have hext : ∀ c ∈ ext.reverse, decide (c ≠ '.') = true := by
    intro c hc
    rw [decide_eq_true_eq]
    rintro rfl
    exact he (List.mem_reverse.mp hc)
  have hr : (stem ++ '.' :: ext).reverse = ext.reverse ++ '.' :: stem.reverse := by simp
  have hdrop : (ext.reverse ++ '.' :: stem.reverse).dropWhile (· ≠ '.') =
      '.' :: stem.reverse := by
    rw [List.dropWhile_append_of_pos hext]
    simp
  have htake : (ext.reverse ++ '.' :: stem.reverse).takeWhile (· ≠ '.') = ext.reverse := by
    rw [List.takeWhile_append_of_pos hext]
    simp
  obtain ⟨c,cs,hc⟩ := List.exists_cons_of_ne_nil (List.reverse_ne_nil_iff.mpr hs)
  rw [extension,if_neg hdots,hr,hdrop,htake,List.reverse_reverse,hc]

end BloopClient.Audio

import BloopClient.Audio.Sync

/-!
# What a sync leaves alone

However a sync ends, each path is as it was, or was pruned, or is a temporary
name, or holds the complete download of a record whose file was missing.
-/

namespace BloopClient.Audio
open Tracelib AudioCache

variable {Uuid DataHash : Type} {setting : Setting Uuid DataHash} {cache : AudioCache}
  {record : AchievementRecord Uuid DataHash} {records : List (AchievementRecord Uuid DataHash)}
  {s s' : Disk Uuid} {path : Path}

/-- The provider answers a request for the achievement with the data. -/
def Host.Provides (host : Host Uuid) (id : Uuid) (data : List UInt8) : Prop :=
  ∃ n, host.audio n id = .ok data

/-- What can become of a path in one call of `ensure_inner`. -/
inductive Brought (setting : Setting Uuid DataHash) (cache : AudioCache)
    (record : AchievementRecord Uuid DataHash) (path : Path) :
    Option Entry → Option Entry → Prop
  | kept {entry} : Brought setting cache record path entry entry
  | temp {entry entry'} (n : UInt64) (ht : path = cache.tempPath setting record.id n) :
      Brought setting cache record path entry entry'
  | fetched {data} (hp : cache.pathFor setting record = some path)
      (hd : setting.host.Provides record.id data) :
      Brought setting cache record path none (some (.file data))

-- ════════════════════════════════════════════════════════════════════════
-- One record
-- ════════════════════════════════════════════════════════════════════════

/-- A write leaves other files alone, and when it succeeds its own file is complete. -/
theorem write_triple {host : Host Uuid} {temp : Path} {data : List UInt8} {entry : Option Entry}
    (hne : path ≠ temp) :
    Fut.Triple (fun s => s.files path = entry) (host.write temp data)
      (fun _ s => s.files path = entry ∧ s.files temp = some (.file data))
      (fun s => s.files path = entry) := by
  intro s hs
  have hset : ∀ data, Function.update s.files temp (some (.file data)) path = entry := by
    intro data
    rw [Function.update_of_ne hne,hs]
  rw [Host.write]
  cases host.io s.clock with
  | ok u => exact ⟨hset data,Function.update_self _ _ _⟩
  | _ =>
    dsimp only [Outcome.Holds]
    split
    · exact hset _
    · exact hs

/-- A rename leaves other files alone, and its target too or gives it all of the
source. -/
theorem rename_triple {host : Host Uuid} {temp target : Path} {entry entry' : Option Entry}
    (hne : path ≠ temp) :
    Fut.Triple (fun s => s.files path = entry ∧ s.files temp = entry') (host.rename temp target)
      (fun _ s => s.files path = entry ∨ path = target ∧ s.files path = entry')
      (fun s => s.files path = entry ∨ path = target ∧ s.files path = entry') := by
  rintro s ⟨hs,ht⟩
  have hend : (host.rename temp target s).2.files path = entry ∨
      path = target ∧ (host.rename temp target s).2.files path = entry' := by
    rw [Host.rename,Host.operate]
    dsimp only
    split
    · by_cases hp : path = target
      · subst hp
        exact .inr ⟨rfl,(Function.update_self _ _ _).trans ht⟩
      · left
        rw [Disk.set_files,Function.update_of_ne hp,Disk.set_files,Function.update_of_ne hne]
        exact hs
    · exact .inl hs
  cases (host.rename temp target s).1 <;> exact hend

/-- Storing data changes the temporary file, and the path only by putting all of the
data there. -/
theorem store_triple {id : Uuid} {target : Path} {data : List UInt8} {entry : Option Entry}
    (htemp : ∀ n, path ≠ cache.tempPath setting id n) :
    Fut.Triple (fun s => s.files path = entry) (cache.store setting id target data)
      (fun _ s => s.files path = entry ∨ path = target ∧ s.files path = some (.file data))
      (fun s => s.files path = entry ∨ path = target ∧ s.files path = some (.file data)) := by
  have hfetch : Fut.Triple (fun s : Disk Uuid => s.files path = entry)
      (fetchAdd : Fut (Disk Uuid) AudioCacheError UInt64) (fun _ s => s.files path = entry)
      (fun s => s.files path = entry ∨ path = target ∧ s.files path = some (.file data)) :=
    fun s hs => hs
  refine hfetch.bind fun n => ?_
  refine Fut.Triple.bind ((write_triple (htemp n)).mapErr.consequence (fun _ h => h)
    (fun _ _ h => h) (fun _ h => .inl h)) fun _ => ?_
  exact (rename_triple (htemp n)).mapErr.bind fun _ => Fut.Triple.pure fun _ h => h

/-- An operation without an effect. -/
theorem operate_id_triple {host : Host Uuid} {P : Option Entry → Prop} :
    Fut.Triple (fun s => P (s.files path)) (host.operate id) (fun _ s => P (s.files path))
      (fun s => P (s.files path)) := by
  intro s hs
  rw [operate_id]
  cases host.io s.clock <;> exact hs

theorem tryExists_triple {host : Host Uuid} {target : Path} {entry : Option Entry} :
    Fut.Triple (fun s => s.files path = entry) (host.tryExists target)
      (fun found s => (path = target → found = entry.isSome) ∧ s.files path = entry)
      (fun s => s.files path = entry) := by
  refine (operate_id_triple (P := (· = entry))).bind fun _ s hs => ?_
  refine ⟨?_,hs⟩
  rintro rfl
  exact congrArg Option.isSome hs

theorem retrieveAudio_triple {host : Host Uuid} {id : Uuid} {entry : Option Entry} :
    Fut.Triple (fun s => s.files path = entry) (host.retrieveAudio id)
      (fun data s => host.Provides id data ∧ s.files path = entry)
      (fun s => s.files path = entry) := by
  intro s hs
  rw [Host.retrieveAudio]
  cases hr : host.audio s.clock id with
  | ok data => exact ⟨⟨s.clock,hr⟩,hs⟩
  | _ => exact hs

/-- What one record changes, however its call ends. -/
theorem ensureInner_brought (setting : Setting Uuid DataHash) (cache : AudioCache)
    (record : AchievementRecord Uuid DataHash) (s : Disk Uuid) (path : Path) :
    Brought setting cache record path (s.files path)
      ((cache.ensureInner setting record s).2.files path) := by
  by_cases htemp : ∃ n, path = cache.tempPath setting record.id n
  · obtain ⟨n,ht⟩ := htemp
    exact .temp n ht
  have hne : ∀ n, path ≠ cache.tempPath setting record.id n := fun n h => htemp ⟨n,h⟩
  generalize he : s.files path = entry
  have kept : ∀ d : Disk Uuid, d.files path = entry →
      Brought setting cache record path entry (d.files path) := fun d hd => hd ▸ .kept
  suffices htriple : Fut.Triple (fun d => d.files path = entry) (cache.ensureInner setting record)
      (fun _ d => Brought setting cache record path entry (d.files path))
      (fun d => Brought setting cache record path entry (d.files path)) from htriple.holds he
  rw [ensureInner]
  cases hp : cache.pathFor setting record with
  | none => exact Fut.Triple.pure kept
  | some target =>
    refine Fut.Triple.bind (tryExists_triple.mapErr.consequence (fun _ h => h) (fun _ _ h => h)
      kept) fun found => Fut.Triple.of_pure fun hfound => ?_
    cases found with
    | true => exact Fut.Triple.pure kept
    | false =>
      refine Fut.Triple.bind ((operate_id_triple (P := (· = entry))).mapErr.consequence
        (fun _ h => h) (fun _ _ h => h) kept) fun _ => ?_
      refine Fut.Triple.bind (retrieveAudio_triple.mapErr.consequence (fun _ h => h)
        (fun _ _ h => h) kept) fun data => Fut.Triple.of_pure fun hd => ?_
      have hend : ∀ d : Disk Uuid, (d.files path = entry ∨ path = target ∧
          d.files path = some (.file data)) →
          Brought setting cache record path entry (d.files path) := by
        rintro d (h | ⟨rfl,h⟩)
        · exact kept d h
        · have hnone : entry = none := by simpa using (hfound rfl).symm
          rw [h,hnone]
          exact .fetched hp hd
      exact (store_triple hne).consequence (fun _ h => h) (fun _ d h => hend d h) hend

-- ════════════════════════════════════════════════════════════════════════
-- A whole sync
-- ════════════════════════════════════════════════════════════════════════

/-- What can become of a path in a sync. -/
inductive Fate (setting : Setting Uuid DataHash) (cache : AudioCache)
    (records : List (AchievementRecord Uuid DataHash)) (path : Path) :
    Option Entry → Option Entry → Prop
  | kept {entry} : Fate setting cache records path entry entry
  | pruned {entry} (hdir : path.dir = cache.basePath)
      (hs : Stale (records.filterMap (cache.pathFor setting)) path) :
      Fate setting cache records path entry none
  | temp {entry entry' record} (n : UInt64) (hr : record ∈ records)
      (ht : path = cache.tempPath setting record.id n) :
      Fate setting cache records path entry entry'
  | fetched {record data} (hr : record ∈ records) (hp : cache.pathFor setting record = some path)
      (hd : setting.host.Provides record.id data) :
      Fate setting cache records path none (some (.file data))

/-- The path of a record in the list is never stale. -/
theorem not_stale_of_mem (hr : record ∈ records) (hp : cache.pathFor setting record = some path) :
    ¬ Stale (records.filterMap (cache.pathFor setting)) path := by
  have hext := pathFor_extension hp
  rintro (⟨_,hnot⟩ | hdown)
  · exact hnot (List.mem_filterMap.mpr ⟨record,hr,hp⟩)
  · rw [hext] at hdown
    exact absurd hdown (by decide)

theorem Fate.trans {a b c : Option Entry} (h₁ : Fate setting cache records path a b)
    (h₂ : Fate setting cache records path b c) : Fate setting cache records path a c := by
  cases h₁ with
  | kept => exact h₂
  | temp n hr ht => exact .temp n hr ht
  | pruned hdir hs =>
    cases h₂ with
    | kept => exact .pruned hdir hs
    | pruned => exact .pruned hdir hs
    | temp n hr ht => exact .temp n hr ht
    | fetched hr hp hd => exact absurd hs (not_stale_of_mem hr hp)
  | fetched hr hp hd =>
    cases h₂ with
    | kept => exact .fetched hr hp hd
    | pruned _ hs => exact absurd hs (not_stale_of_mem hr hp)
    | temp n hr ht => exact .temp n hr ht

theorem Brought.fate {a b : Option Entry} (hr : record ∈ records)
    (h : Brought setting cache record path a b) : Fate setting cache records path a b := by
  cases h with
  | kept => exact .kept
  | temp n ht => exact .temp n hr ht
  | fetched hp hd => exact .fetched hr hp hd

variable {entry : Option Entry}

/-- A sync that met the condition so far meets it after one more future. -/
abbrev Fated (setting : Setting Uuid DataHash) (cache : AudioCache)
    (records : List (AchievementRecord Uuid DataHash)) (path : Path) (entry : Option Entry)
    {α : Type} (m : Fut (Disk Uuid) AudioCacheError α) : Prop :=
  Fut.Triple (fun s => Fate setting cache records path entry (s.files path)) m
    (fun _ s => Fate setting cache records path entry (s.files path))
    (fun s => Fate setting cache records path entry (s.files path))

theorem removeFile_fated {target : Path} (hdir : target.dir = cache.basePath)
    (hs : Stale (records.filterMap (cache.pathFor setting)) target) :
    Fated setting cache records path entry (setting.host.removeFile target) := by
  intro s h
  have hset : Fate setting cache records path entry ((s.tick.set target none).files path) := by
    by_cases he : path = target
    · subst he
      rw [Disk.set_files,Function.update_self]
      exact h.trans (.pruned hdir hs)
    · rw [Disk.set_files,Function.update_of_ne he]
      exact h
  have hrest : Fate setting cache records path entry
      ((if setting.host.took s.clock then s.tick.set target none else s.tick).files path) := by
    split
    · exact hset
    · exact h
  rw [Host.removeFile]
  cases setting.host.remove s.clock with
  | ok u => exact hset
  | _ => exact hrest

theorem prune_fated {entries : List Path} (hdir : ∀ target ∈ entries, target.dir = cache.basePath) :
    Fated setting cache records path entry
      (prune setting (records.filterMap (cache.pathFor setting)) entries) := by
  induction entries with
  | nil => exact operate_id_triple.mapErr
  | cons target entries ih =>
    obtain ⟨htarget,hentries⟩ := List.forall_mem_cons.mp hdir
    refine Fut.Triple.bind operate_id_triple.mapErr fun _ => ?_
    split
    case isTrue hs => exact (removeFile_fated htarget hs).bind fun _ => ih hentries
    case isFalse => exact ih hentries

/-- The entries of a directory are in that directory. -/
theorem readDir_triple {host : Host Uuid} {dir : String} {Q : Disk Uuid → Prop}
    (hid : Fut.Triple Q (host.operate id) (fun _ => Q) Q) :
    Fut.Triple Q (host.readDir dir)
      (fun entries s => (∀ target ∈ entries, target.dir = dir) ∧ Q s) Q := by
  intro s
  have hentries : ∀ target ∈ (host.listing s.clock).map (Path.mk dir), target.dir = dir := by
    intro target ht
    obtain ⟨name,_,rfl⟩ := List.mem_map.mp ht
    rfl
  have h : Fut.Triple Q (do host.operate id; pure ((host.listing s.clock).map (Path.mk dir)))
      (fun entries s => (∀ target ∈ entries, target.dir = dir) ∧ Q s) Q :=
    hid.bind fun _ => Fut.Triple.pure fun _ h => ⟨hentries,h⟩
  exact h s

theorem prepare_fated :
    Fated setting cache records path entry (cache.prepare setting records) := by
  refine Fut.Triple.bind operate_id_triple.mapErr fun _ => ?_
  refine Fut.Triple.bind (readDir_triple operate_id_triple).mapErr fun entries =>
    Fut.Triple.of_pure fun hdir => ?_
  exact prune_fated hdir

theorem ensureInner_fated (hr : record ∈ records) :
    Fated setting cache records path entry (cache.ensureInner setting record) := by
  intro s h
  have hend := h.trans ((ensureInner_brought setting cache record s path).fate hr)
  cases (cache.ensureInner setting record s).1 <;> exact hend

theorem ensureAll_fated {skipped : List Uuid} {rest : List (AchievementRecord Uuid DataHash)}
    (hsub : ∀ record ∈ rest, record ∈ records) :
    Fated setting cache records path entry (cache.ensureAll setting skipped rest) := by
  induction rest generalizing skipped with
  | nil => exact Fut.Triple.pure fun _ h => h
  | cons record rest ih =>
    obtain ⟨hr,hrest⟩ := List.forall_mem_cons.mp hsub
    refine Fut.Triple.bind (ensureInner_fated hr).attempt fun r => ?_
    split
    · exact ih hrest
    · split
      · exact Fut.Triple.fail fun _ h => h
      · exact ih hrest
    · exact Fut.Triple.fail fun _ h => h

/-- What can become of a path, however the sync ends. -/
theorem sync_fate (setting : Setting Uuid DataHash) (cache : AudioCache)
    (records : List (AchievementRecord Uuid DataHash)) (s : Disk Uuid) (path : Path) :
    Fate setting cache records path (s.files path)
      ((cache.sync setting records s).2.files path) := by
  have hsync : Fated setting cache records path (s.files path) (cache.sync setting records) :=
    prepare_fated.bind fun _ => ensureAll_fated fun _ h => h
  exact hsync.holds .kept

/-- For every directory, list of records and host, and however a sync ends: the files
of the listed records are as they were, entries that are neither audio nor downloads
are as they were, and an entry that was not there before is the file of a listed
record or a temporary one. -/
theorem sync_harmless (setting : Setting Uuid DataHash) (cache : AudioCache)
    (records : List (AchievementRecord Uuid DataHash)) (s : Disk Uuid) :
    (∀ record ∈ records, ∀ path entry, cache.pathFor setting record = some path →
      s.files path = some entry → (cache.sync setting records s).2.files path = some entry) ∧
    (∀ path : Path, path.extension ≠ some mp3 → path.extension ≠ some download →
      (cache.sync setting records s).2.files path = s.files path) ∧
    ∀ path entry, s.files path = none → (cache.sync setting records s).2.files path = some entry →
      (∃ record ∈ records, cache.pathFor setting record = some path) ∨
      ∃ record ∈ records, ∃ n, path = cache.tempPath setting record.id n ∧
        path.extension = some download := by
  refine ⟨?_,?_,?_⟩
  · intro record hr path entry hp he
    have hfate := sync_fate setting cache records s path
    rw [he] at hfate
    generalize (cache.sync setting records s).2.files path = after at hfate ⊢
    cases hfate with
    | kept => rfl
    | pruned _ hs => exact absurd hs (not_stale_of_mem hr hp)
    | temp n _ ht =>
      have hext := pathFor_extension hp
      rw [ht,tempPath_extension] at hext
      exact absurd hext (by decide)
  · intro path haudio hdown
    have hfate := sync_fate setting cache records s path
    generalize (cache.sync setting records s).2.files path = after at hfate ⊢
    generalize s.files path = before at hfate ⊢
    cases hfate with
    | kept => rfl
    | pruned _ hs =>
      obtain ⟨h,_⟩ | h := hs
      · exact absurd h haudio
      · exact absurd h hdown
    | temp n _ ht => exact absurd (ht ▸ tempPath_extension _ n) hdown
    | fetched _ hp _ => exact absurd (pathFor_extension hp) haudio
  · intro path entry hnone hsome
    have hfate := sync_fate setting cache records s path
    rw [hnone,hsome] at hfate
    cases hfate with
    | temp n hr ht => exact .inr ⟨_,hr,n,ht,ht ▸ tempPath_extension _ n⟩
    | fetched hr hp _ => exact .inl ⟨_,hr,hp⟩

/-- With audio of a listed record among the leftovers, and a record whose download is
refused. -/
theorem sync_harmless_leftovers :
    (AudioCache.sync leftoversSetting ⟨"cache"⟩ [⟨2,some 1⟩,⟨3,some 1⟩]
      (leftoversDisk.set ⟨"cache","aa_f.mp3".toList⟩ (some (.file [7])))).2.files
        ⟨"cache","aa_f.mp3".toList⟩ = some (.file [7]) ∧
    (AudioCache.sync leftoversSetting ⟨"cache"⟩ [⟨2,some 1⟩,⟨3,some 1⟩]
      (leftoversDisk.set ⟨"cache","aa_f.mp3".toList⟩ (some (.file [7])))).2.files
        ⟨"cache","notes.txt".toList⟩ = some (.file [9]) := by
  have h := sync_harmless leftoversSetting ⟨"cache"⟩ [⟨2,some 1⟩,⟨3,some 1⟩]
    (leftoversDisk.set ⟨"cache","aa_f.mp3".toList⟩ (some (.file [7])))
  refine ⟨h.1 ⟨2,some 1⟩ (by decide) _ _ (by decide +kernel) (by decide +kernel),?_⟩
  rw [h.2.1 ⟨"cache","notes.txt".toList⟩ (by decide +kernel) (by decide +kernel)]
  decide +kernel

end BloopClient.Audio

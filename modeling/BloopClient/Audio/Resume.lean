import BloopClient.Audio.Frame

/-!
# Syncs that are resumed or repeated

What an uninterrupted sync against a provider leaves is a function of the files it
finds. A sync that is cut off leaves files for which that function has the same
value, so the next sync makes up for it; and a sync in which nothing was skipped
leaves nothing to do.
-/

namespace BloopClient.Audio
open Tracelib AudioCache

variable {Uuid DataHash : Type}

/-- A provider by the audio it has, or the refusal it answers with. -/
abbrev Library (Uuid : Type) := Uuid → Except ErrorResponse (List UInt8)

def answer : Except ErrorResponse (List UInt8) → Outcome RequestError (List UInt8)
  | .ok data => .ok data
  | .error error => .err (.error error)

/-- Nothing fails, and the provider behaves as the function says. -/
structure Host.Serves (host : Host Uuid) (f : Library Uuid) : Prop where
  io : ∀ n, host.io n = .ok ()
  removes : host.Removes
  audio : ∀ n id, host.audio n id = answer (f id)

/-- The same texts and errors on another host. -/
def Setting.on (setting : Setting Uuid DataHash) (host : Host Uuid) : Setting Uuid DataHash :=
  { setting with host }

variable (setting : Setting Uuid DataHash) (cache : AudioCache) (f : Library Uuid)

def audioOf : Except ErrorResponse (List UInt8) → Option Entry
  | .ok data => some (.file data)
  | .error _ => none

/-- The audio a path should hold for the records. -/
def wanted (records : List (AchievementRecord Uuid DataHash)) (path : Path) : Option Entry :=
  (records.find? fun record => cache.pathFor setting record = some path).bind fun record =>
    audioOf (f record.id)

/-- The provider refuses the audio of a record, and it is missing. -/
def isRefused (files : Path → Option Entry) (record : AchievementRecord Uuid DataHash) : Bool :=
  match cache.pathFor setting record, f record.id with
  | some path, .error _ => (files path).isNone
  | _, _ => false

/-- What a sync makes of the files it finds. -/
def settled (records : List (AchievementRecord Uuid DataHash)) (files : Path → Option Entry)
    (path : Path) : Option Entry :=
  if path.dir = cache.basePath ∧ Stale (records.filterMap (cache.pathFor setting)) path then none
  else (files path).or (wanted setting cache f records path)

/-- The records a sync skips. -/
def skips (records : List (AchievementRecord Uuid DataHash)) (files : Path → Option Entry) :
    List Uuid := (records.filter (isRefused setting cache f files)).map (·.id)

variable {setting cache f}
variable {record : AchievementRecord Uuid DataHash}
  {records : List (AchievementRecord Uuid DataHash)} {s s' : Disk Uuid} {path : Path}

theorem wanted_cons_self (hp : cache.pathFor setting record = some path) :
    wanted setting cache f (record :: records) path = audioOf (f record.id) := by
  simp [wanted,hp]

theorem wanted_cons_of_ne (hp : cache.pathFor setting record ≠ some path) :
    wanted setting cache f (record :: records) path = wanted setting cache f records path := by
  simp [wanted,hp]

/-- All records of one path want the same. -/
theorem wanted_of_pathFor (hr : record ∈ records)
    (hp : cache.pathFor setting record = some path) :
    wanted setting cache f records path = audioOf (f record.id) := by
  induction records with
  | nil => cases hr
  | cons first rest ih =>
    by_cases hfirst : cache.pathFor setting first = some path
    · rw [wanted_cons_self hfirst,pathFor_id hfirst hp]
    · rw [wanted_cons_of_ne hfirst]
      refine ih ((List.mem_cons.mp hr).resolve_left ?_)
      rintro rfl
      exact hfirst hp

/-- A path no record has is not wanted, and one whose audio is refused is not either. -/
theorem wanted_eq_none (h : ∀ record ∈ records, cache.pathFor setting record = some path →
    audioOf (f record.id) = none) : wanted setting cache f records path = none := by
  cases hw : records.find? (fun record => cache.pathFor setting record = some path) with
  | none => rw [wanted,hw]; rfl
  | some record =>
    have hp : cache.pathFor setting record = some path := by simpa using List.find?_some hw
    rw [wanted_of_pathFor (List.mem_of_find?_eq_some hw) hp]
    exact h record (List.mem_of_find?_eq_some hw) hp

-- ════════════════════════════════════════════════════════════════════════
-- An uninterrupted sync
-- ════════════════════════════════════════════════════════════════════════

section Serves

variable (hserves : setting.host.Serves f)
include hserves

theorem prune_serves (expected entries : List Path) (s : Disk Uuid) :
    ∃ s', prune setting expected entries s = (.ok (),s') := by
  induction entries generalizing s with
  | nil => exact ⟨_,Fut.mapErr_eq_ok.mpr (operate_ok id (hserves.io _))⟩
  | cons target entries ih =>
    have hnext : setting.host.nextEntry s = (.ok (),s.tick) := operate_ok id (hserves.io _)
    rw [prune,Fut.bind_ok (Fut.mapErr_eq_ok.mpr hnext)]
    dsimp only
    split
    · have hremove : (setting.host.removeFile target : Fut _ AudioCacheError Unit) s.tick =
          (.ok (),s.tick.tick.set target none) := by
        simp [Host.removeFile,hserves.removes s.tick.clock]
      rw [Fut.bind_ok hremove]
      exact ih _
    · exact ih _

theorem prepare_serves (cache : AudioCache) (records : List (AchievementRecord Uuid DataHash))
    (s : Disk Uuid) :
    ∃ s', cache.prepare setting records s = (.ok (),s') := by
  rw [prepare,Fut.bind_ok (Fut.mapErr_eq_ok.mpr (createDirAll_ok (hserves.io _)))]
  have hread : setting.host.readDir cache.basePath s.tick =
      (.ok ((setting.host.listing s.tick.clock).map (Path.mk cache.basePath)),s.tick.tick) :=
    Fut.bind_ok (operate_ok id (hserves.io _))
  rw [Fut.bind_ok (Fut.mapErr_eq_ok.mpr hread)]
  exact prune_serves hserves _ _ _

theorem ensureInner_cached (hp : cache.pathFor setting record = some path)
    (hf : s.files path ≠ none) :
    cache.ensureInner setting record s = (.ok (some path),s.tick) := by
  obtain ⟨entry,he⟩ := Option.ne_none_iff_exists'.mp hf
  rw [ensureInner,hp]
  dsimp only
  rw [Fut.bind_ok (Fut.mapErr_eq_ok.mpr (tryExists_ok path (hserves.io _))),he]
  rfl

/-- A missing file is asked for. -/
theorem ensureInner_missing (hp : cache.pathFor setting record = some path)
    (hf : s.files path = none) :
    cache.ensureInner setting record s =
      ((setting.host.retrieveAudio record.id).mapErr .request >>=
        cache.store setting record.id path) s.tick.tick := by
  rw [ensureInner,hp]
  dsimp only
  rw [Fut.bind_ok (Fut.mapErr_eq_ok.mpr (tryExists_ok path (hserves.io _))),hf]
  simp only [Option.isSome_none,Bool.false_eq_true,if_false]
  rw [Fut.bind_ok (Fut.mapErr_eq_ok.mpr (createDirAll_ok (hserves.io _)))]

theorem store_serves (id : Uuid) (data : List UInt8) (s : Disk Uuid) :
    ∃ s', cache.store setting id path data s = (.ok (some path),s') ∧
      s'.files = Function.update (Function.update s.files
        (cache.tempPath setting id s.tempCounter) none) path (some (.file data)) := by
  have hn : (fetchAdd : Fut (Disk Uuid) AudioCacheError UInt64) s =
    (.ok s.tempCounter,{ s with tempCounter := s.tempCounter + 1 }) := rfl
  rw [store,Fut.bind_ok hn,Fut.bind_ok (Fut.mapErr_eq_ok.mpr (write_ok _ _ (hserves.io _))),
    Fut.bind_ok (Fut.mapErr_eq_ok.mpr (rename_ok _ _ (hserves.io _)))]
  refine ⟨_,rfl,?_⟩
  simp

theorem ensureInner_fetched {data : List UInt8} (hp : cache.pathFor setting record = some path)
    (hs : s.files path = none) (hf : f record.id = .ok data) :
    ∃ s', cache.ensureInner setting record s = (.ok (some path),s') ∧
      s'.files = Function.update (Function.update s.files
        (cache.tempPath setting record.id s.tempCounter) none) path (some (.file data)) := by
  rw [ensureInner_missing hserves hp hs]
  have haudio : (setting.host.retrieveAudio record.id) s.tick.tick = (.ok data,
      { s.tick.tick.tick with requests := (record.id,.ok data) :: s.requests }) := by
    simp [Host.retrieveAudio,hserves.audio,hf,answer]
  rw [Fut.bind_ok (Fut.mapErr_eq_ok.mpr haudio)]
  exact store_serves hserves _ _ _

theorem ensureInner_refused {error : ErrorResponse}
    (hp : cache.pathFor setting record = some path) (hs : s.files path = none)
    (hf : f record.id = .error error) :
    ∃ s', cache.ensureInner setting record s = (.err (.request (.error error)),s') ∧
      s'.files = s.files := by
  rw [ensureInner_missing hserves hp hs,Fut.bind_apply,Fut.mapErr]
  simp only [Host.retrieveAudio,hserves.audio,hf,answer,Outcome.mapErr]
  exact ⟨_,rfl,rfl⟩

end Serves

/-- No temporary file is in the way. -/
def Clean (setting : Setting Uuid DataHash) (cache : AudioCache)
    (files : Path → Option Entry) : Prop :=
  ∀ id n, files (cache.tempPath setting id n) = none

/-- The files after one record. -/
def brought (setting : Setting Uuid DataHash) (cache : AudioCache) (f : Library Uuid)
    (record : AchievementRecord Uuid DataHash) (files : Path → Option Entry) (path : Path) :
    Option Entry :=
  (files path).or (if cache.pathFor setting record = some path then audioOf (f record.id) else none)

theorem brought_of_ne (hp : cache.pathFor setting record ≠ some path)
    (files : Path → Option Entry) : brought setting cache f record files path = files path := by
  rw [brought,if_neg hp,Option.or_none]

theorem Clean.brought {files : Path → Option Entry} (h : Clean setting cache files) :
    Clean setting cache (brought setting cache f record files) := by
  intro id n
  rw [brought_of_ne,h]
  intro hp
  have hext := pathFor_extension hp
  rw [tempPath_extension] at hext
  exact absurd hext (by decide)

/-- Whether a record is refused does not depend on what was downloaded before. -/
theorem isRefused_brought (other : AchievementRecord Uuid DataHash)
    (files : Path → Option Entry) :
    isRefused setting cache f (brought setting cache f record files) other =
      isRefused setting cache f files other := by
  rw [isRefused,isRefused]
  split
  case h_1 path error hp hf =>
    by_cases he : cache.pathFor setting record = some path
    · rw [brought,if_pos he,pathFor_id he hp,hf,audioOf,Option.or_none]
    · rw [brought_of_ne he]
  case h_2 => rfl

/-- The records of a list, the first one apart. -/
theorem brought_or_wanted (files : Path → Option Entry) (path : Path) :
    (brought setting cache f record files path).or (wanted setting cache f records path) =
      (files path).or (wanted setting cache f (record :: records) path) := by
  by_cases hp : cache.pathFor setting record = some path
  · rw [brought,if_pos hp,wanted_cons_self hp,Option.or_assoc]
    cases hf : audioOf (f record.id) with
    | some entry => rfl
    | none =>
      rw [Option.none_or,wanted_eq_none]
      intro other _ ho
      rw [pathFor_id ho hp,hf]
  · rw [brought_of_ne hp,wanted_cons_of_ne hp]

/-- One record against a provider: it is skipped if it is refused. -/
theorem ensureInner_serves (hserves : setting.host.Serves f) (hclean : Clean setting cache s.files)
    (record : AchievementRecord Uuid DataHash) :
    ∃ s', s'.files = brought setting cache f record s.files ∧
      ((isRefused setting cache f s.files record = false ∧
        ∃ value, cache.ensureInner setting record s = (.ok value,s')) ∨
      (isRefused setting cache f s.files record = true ∧ ∃ error, f record.id = .error error ∧
        cache.ensureInner setting record s = (.err (.request (.error error)),s'))) := by
  cases hp : cache.pathFor setting record with
  | none =>
    refine ⟨s,?_,.inl ⟨by simp [isRefused,hp],none,by rw [ensureInner,hp]; rfl⟩⟩
    funext path
    rw [brought_of_ne (by simp [hp])]
  | some target =>
    by_cases hs : s.files target = none
    · cases hf : f record.id with
      | ok data =>
        obtain ⟨s',hinner,hs'⟩ := ensureInner_fetched hserves hp hs hf
        refine ⟨s',?_,.inl ⟨by simp [isRefused,hp,hf],_,hinner⟩⟩
        rw [hs']
        funext path
        by_cases he : path = target
        · subst he
          rw [Function.update_self,brought,hs,if_pos hp,hf]
          rfl
        · rw [Function.update_of_ne he,brought_of_ne (by simpa [hp] using Ne.symm he)]
          exact congrFun (Function.update_eq_self_iff.mpr (hclean _ _).symm) path
      | error error =>
        obtain ⟨s',hinner,hs'⟩ := ensureInner_refused hserves hp hs hf
        refine ⟨s',?_,.inr ⟨by simp [isRefused,hp,hf,hs],error,rfl,hinner⟩⟩
        funext path
        rw [hs',brought,hf]
        simp [audioOf]
    · obtain ⟨entry,he⟩ := Option.ne_none_iff_exists'.mp hs
      refine ⟨s.tick,?_,.inl ⟨?_,_,ensureInner_cached hserves hp hs⟩⟩
      · funext path
        by_cases hpath : path = target
        · subst hpath
          rw [brought,Disk.tick_files,he,Option.some_or]
        · rw [brought_of_ne (by simpa [hp] using Ne.symm hpath),Disk.tick_files]
      · cases hf : f record.id with
        | ok data => simp [isRefused,hp,hf]
        | error error => simp [isRefused,hp,hf,he]

/-- The records, one after the other, against a provider. -/
theorem ensureAll_serves (hserves : setting.host.Serves f)
    (hfatal : ∀ id error, f id = .error error → setting.isFatal error = false)
    (records : List (AchievementRecord Uuid DataHash)) (done : List Uuid)
    (hclean : Clean setting cache s.files) :
    ∃ s', cache.ensureAll setting done records s =
        (.ok (done ++ skips setting cache f records s.files),s') ∧
      ∀ path, s'.files path = (s.files path).or (wanted setting cache f records path) := by
  induction records generalizing s done with
  | nil => exact ⟨s,by simp [ensureAll,skips],by simp [wanted]⟩
  | cons record records ih =>
    obtain ⟨s₁,hs₁,hcase⟩ := ensureInner_serves hserves hclean record
    have hskips : skips setting cache f records s₁.files =
        skips setting cache f records s.files := by
      rw [skips,skips,hs₁]
      congr 1
      exact List.filter_congr fun other _ => isRefused_brought other s.files
    have hwanted : ∀ path, (s₁.files path).or (wanted setting cache f records path) =
        (s.files path).or (wanted setting cache f (record :: records) path) := by
      intro path
      rw [hs₁,brought_or_wanted]
    have hclean₁ : Clean setting cache s₁.files := hs₁ ▸ hclean.brought
    obtain ⟨hr,value,hinner⟩ | ⟨hr,error,hf,hinner⟩ := hcase
    · obtain ⟨s',hrun,hfiles⟩ := ih done hclean₁
      refine ⟨s',?_,fun path => (hfiles path).trans (hwanted path)⟩
      rw [ensureAll_ok hinner,hrun,hskips,skips,skips,List.filter_cons_of_neg (by simp [hr])]
    · obtain ⟨s',hrun,hfiles⟩ := ih (done ++ [record.id]) hclean₁
      refine ⟨s',?_,fun path => (hfiles path).trans (hwanted path)⟩
      rw [ensureAll_skip hinner ⟨error,rfl,hfatal _ _ hf⟩,hrun,hskips,skips,skips,
        List.filter_cons_of_pos hr,List.map_cons,List.append_assoc]
      rfl

theorem tempPath_stale (expected : List Path) (id : Uuid) (n : UInt64) :
    (cache.tempPath setting id n).dir = cache.basePath ∧
      Stale expected (cache.tempPath setting id n) :=
  ⟨rfl,.inr (tempPath_extension id n)⟩

/-- An uninterrupted sync against a provider, as a function of the files. -/
theorem sync_serves (setting : Setting Uuid DataHash) (cache : AudioCache)
    (records : List (AchievementRecord Uuid DataHash)) (hserves : setting.host.Serves f)
    (hfatal : ∀ id error, f id = .error error → setting.isFatal error = false)
    (hls : setting.host.Lists cache.basePath s (s.clock + 1)) :
    ∃ s', cache.sync setting records s = (.ok (skips setting cache f records s.files),s') ∧
      s'.files = settled setting cache f records s.files := by
  obtain ⟨s₁,hprep⟩ := prepare_serves hserves cache records s
  obtain ⟨_,hs₁⟩ := prepare_files hserves.removes hls hprep
  have hclean : Clean setting cache s₁.files := by
    intro id n
    rw [hs₁,if_pos (tempPath_stale _ id n)]
  obtain ⟨s',hrun,hfiles⟩ := ensureAll_serves hserves hfatal records [] hclean
  refine ⟨s',?_,?_⟩
  · rw [sync,Fut.bind_ok hprep,hrun,List.nil_append,skips,skips]
    congr 3
    refine List.filter_congr fun record hr => ?_
    rw [isRefused,isRefused]
    split
    case h_1 path _ hp _ => rw [hs₁,if_neg fun h => not_stale_of_mem hr hp h.2]
    case h_2 => rfl
  · funext path
    rw [hfiles,hs₁,settled]
    split
    case isTrue hstale =>
      rw [Option.none_or]
      exact wanted_eq_none fun record hr hp => absurd hstale.2 (not_stale_of_mem hr hp)
    case isFalse => rfl

-- ════════════════════════════════════════════════════════════════════════
-- After a sync that was cut off
-- ════════════════════════════════════════════════════════════════════════

section Resume

variable (hprovides : ∀ id data, setting.host.Provides id data → f id = .ok data)
include hprovides

/-- Whatever a sync against the provider left, another one settles it the same way. -/
theorem Fate.settled {a b : Option Entry} (h : Fate setting cache records path a b)
    (hstale : ¬ (path.dir = cache.basePath ∧
      Stale (records.filterMap (cache.pathFor setting)) path)) :
    b.or (wanted setting cache f records path) = a.or (wanted setting cache f records path) := by
  cases h with
  | kept => rfl
  | pruned hdir hs => exact absurd ⟨hdir,hs⟩ hstale
  | temp n hr ht => exact absurd (ht ▸ tempPath_stale _ _ n) hstale
  | fetched hr hp hd =>
    rw [wanted_of_pathFor hr hp,hprovides _ _ hd]
    rfl

theorem Fate.isNone {a b : Option Entry} {error : ErrorResponse} (hr : record ∈ records)
    (hp : cache.pathFor setting record = some path) (hf : f record.id = .error error)
    (h : Fate setting cache records path a b) : b.isNone = a.isNone := by
  cases h with
  | kept => rfl
  | pruned _ hs => exact absurd hs (not_stale_of_mem hr hp)
  | temp n _ ht => exact absurd (ht ▸ tempPath_stale _ _ n).2 (not_stale_of_mem hr hp)
  | fetched _ hp' hd =>
    rw [pathFor_id hp hp',hprovides _ _ hd] at hf
    cases hf

theorem settled_sync (s : Disk Uuid) :
    settled setting cache f records (cache.sync setting records s).2.files =
      settled setting cache f records s.files := by
  funext path
  rw [settled,settled]
  split
  case isTrue => rfl
  case isFalse hstale => exact (sync_fate setting cache records s path).settled hprovides hstale

theorem skips_sync (s : Disk Uuid) :
    skips setting cache f records (cache.sync setting records s).2.files =
      skips setting cache f records s.files := by
  rw [skips,skips]
  congr 1
  refine List.filter_congr fun record hr => ?_
  rw [isRefused,isRefused]
  split
  case h_1 path error hp hf =>
    exact Fate.isNone hprovides hr hp hf (sync_fate setting cache records s path)
  case h_2 => rfl

end Resume

-- ════════════════════════════════════════════════════════════════════════
-- After a sync that skipped nothing
-- ════════════════════════════════════════════════════════════════════════

section Repeat

variable {files : Path → Option Entry} {requests : List (Uuid × Outcome RequestError (List UInt8))}

/-- The future changes no file and asks for nothing. -/
abbrev Still (files : Path → Option Entry)
    (requests : List (Uuid × Outcome RequestError (List UInt8))) {ε α : Type}
    (m : Fut (Disk Uuid) ε α) : Prop :=
  Fut.Triple (fun s => s.files = files ∧ s.requests = requests) m
    (fun _ s => s.files = files ∧ s.requests = requests)
    (fun s => s.files = files ∧ s.requests = requests)

theorem operate_id_still {host : Host Uuid} : Still files requests (host.operate id) := by
  intro s hs
  rw [operate_id]
  cases host.io s.clock <;> exact hs

theorem removeFile_still {host : Host Uuid} (hnone : files path = none) :
    Still files requests (host.removeFile path : Fut _ AudioCacheError Unit) := by
  rintro s ⟨rfl,hr⟩
  have hset : (s.tick.set path none).files = s.files :=
    Function.update_eq_self_iff.mpr hnone.symm
  rw [Host.removeFile]
  have hrest : (if host.took s.clock then s.tick.set path none else s.tick).files = s.files ∧
      (if host.took s.clock then s.tick.set path none else s.tick).requests = requests := by
    split
    · exact ⟨hset,hr⟩
    · exact ⟨rfl,hr⟩
  cases host.remove s.clock with
  | ok u => exact ⟨hset,hr⟩
  | _ => exact hrest

theorem prune_still {expected entries : List Path}
    (hnone : ∀ target ∈ entries, Stale expected target → files target = none) :
    Still files requests (prune setting expected entries) := by
  induction entries with
  | nil => exact operate_id_still.mapErr
  | cons target entries ih =>
    obtain ⟨htarget,hentries⟩ := List.forall_mem_cons.mp hnone
    refine Fut.Triple.bind operate_id_still.mapErr fun _ => ?_
    split
    case isTrue hs => exact (removeFile_still (htarget hs)).bind fun _ => ih hentries
    case isFalse => exact ih hentries

theorem prepare_still (hnone : ∀ target : Path, target.dir = cache.basePath →
    Stale (records.filterMap (cache.pathFor setting)) target → files target = none) :
    Still files requests (cache.prepare setting records) := by
  refine Fut.Triple.bind operate_id_still.mapErr fun _ => ?_
  refine Fut.Triple.bind (readDir_triple operate_id_still).mapErr fun entries =>
    Fut.Triple.of_pure fun hdir => ?_
  exact prune_still fun target ht hs => hnone target (hdir target ht) hs

theorem ensureInner_still (hpresent : ∀ path, cache.pathFor setting record = some path →
    files path ≠ none) : Still files requests (cache.ensureInner setting record) := by
  rw [ensureInner]
  cases hp : cache.pathFor setting record with
  | none => exact Fut.Triple.pure fun _ h => h
  | some path =>
    have htry : Fut.Triple (fun s => s.files = files ∧ s.requests = requests)
        (setting.host.tryExists path)
        (fun found s => found = true ∧ s.files = files ∧ s.requests = requests)
        (fun s => s.files = files ∧ s.requests = requests) := by
      refine operate_id_still.bind fun _ s hs => ?_
      refine ⟨?_,hs⟩
      obtain ⟨entry,he⟩ := Option.ne_none_iff_exists'.mp (hpresent path hp)
      exact congrArg Option.isSome (congrFun hs.1 path ▸ he)
    refine htry.mapErr.bind fun found => Fut.Triple.of_pure ?_
    rintro rfl
    exact Fut.Triple.pure fun _ h => h

theorem ensureAll_still {skipped : List Uuid}
    (hpresent : ∀ record ∈ records, ∀ path, cache.pathFor setting record = some path →
      files path ≠ none) : Still files requests (cache.ensureAll setting skipped records) := by
  induction records generalizing skipped with
  | nil => exact Fut.Triple.pure fun _ h => h
  | cons record records ih =>
    obtain ⟨hrecord,hrecords⟩ := List.forall_mem_cons.mp hpresent
    refine Fut.Triple.bind (ensureInner_still hrecord).attempt fun r => ?_
    split
    · exact ih hrecords
    · split
      · exact Fut.Triple.fail fun _ h => h
      · exact ih hrecords
    · exact Fut.Triple.fail fun _ h => h

/-- A directory in which nothing is stale and nothing missing is left as it is, on
any host. -/
theorem Synced.still (h : Synced setting cache records [] s s') (next : Host Uuid) :
    Still s'.files requests (cache.sync (setting.on next) records) := by
  have hnone : ∀ target : Path, target.dir = cache.basePath →
      Stale (records.filterMap (cache.pathFor setting)) target → s'.files target = none := by
    intro target hdir hstale
    by_contra hne
    obtain ⟨hext,hnot⟩ | hext := hstale
    · obtain ⟨record,hr,hp⟩ := h.audio target hdir hext hne
      exact hnot (List.mem_filterMap.mpr ⟨record,hr,hp⟩)
    · exact hne (h.downloads target hdir hext)
  have hprepare : Still s'.files requests (cache.prepare (setting.on next) records) :=
    prepare_still hnone
  refine hprepare.bind fun _ => ensureAll_still ?_
  intro record hr path hp
  exact h.present record hr path hp (List.not_mem_nil)

end Repeat

/-- Interrupted syncs are resumable and completed ones idempotent. The first part is
about a provider: a first sync on a host on which anything may fail, whose answers
with data are the provider's, and a second sync, on which nothing fails, from any disk
with the files the first one left. The second part is about any hosts. -/
theorem sync_resumes (setting : Setting Uuid DataHash) (cache : AudioCache)
    (records : List (AchievementRecord Uuid DataHash)) :
    (∀ (f : Library Uuid) (first second whole : Host Uuid) (s s₁ : Disk Uuid),
      (∀ id error, f id = .error error → setting.isFatal error = false) →
      (∀ n id data, first.audio n id = .ok data → f id = .ok data) →
      s₁.files = (cache.sync (setting.on first) records s).2.files →
      second.Serves f → second.Lists cache.basePath s₁ (s₁.clock + 1) →
      whole.Serves f → whole.Lists cache.basePath s (s.clock + 1) →
      ∃ skipped, (cache.sync (setting.on second) records s₁).1 = .ok skipped ∧
        (cache.sync (setting.on whole) records s).1 = .ok skipped ∧
        (cache.sync (setting.on second) records s₁).2.files =
          (cache.sync (setting.on whole) records s).2.files) ∧
    ∀ (host next : Host Uuid) (s s' : Disk Uuid), host.Removes →
      host.Lists cache.basePath s (s.clock + 1) →
      cache.sync (setting.on host) records s = (.ok [],s') →
      (cache.sync (setting.on next) records s').2.files = s'.files ∧
        (cache.sync (setting.on next) records s').2.requests = s'.requests := by
  constructor
  · intro f first second whole s s₁ hfatal hfirst hs₁ hsecond hls₁ hwhole hls
    have hprovides : ∀ id data, (setting.on first).host.Provides id data → f id = .ok data :=
      fun id data ⟨n,h⟩ => hfirst n id data h
    obtain ⟨s₂,h₂,hf₂⟩ := sync_serves (setting.on second) cache records hsecond hfatal hls₁
    obtain ⟨s₀,h₀,hf₀⟩ := sync_serves (setting.on whole) cache records hwhole hfatal hls
    have hskips : skips setting cache f records s₁.files =
        skips setting cache f records s.files := by
      rw [hs₁]
      exact skips_sync hprovides s
    have hsettled : settled setting cache f records s₁.files =
        settled setting cache f records s.files := by
      rw [hs₁]
      exact settled_sync hprovides s
    refine ⟨skips setting cache f records s.files,?_,?_,?_⟩
    · rw [h₂,← hskips]
      rfl
    · rw [h₀]
      rfl
    · rw [h₂,h₀]
      exact hf₂.trans (hsettled.trans hf₀.symm)
  · intro host next s s' hrm hls h
    have hsynced : Synced (setting.on host) cache records [] s s' := synced_of_ok hrm hls h
    exact (hsynced.still next).holds ⟨rfl,rfl⟩

/-- A process that is cut off in the middle of its first download, before it has
removed anything. -/
def cutHost : Host ℕ where
  io n := if n = 6 then .dropped else .ok ()
  remove _ := .ok ()
  took _ := true
  written _ := 1
  listing _ := []
  audio := leftoversSetting.host.audio

def cutDisk : Disk ℕ :=
  leftoversDisk.set ⟨"cache","aa.0.download".toList⟩ (some (.file [1]))

def leftoversLibrary : Library ℕ := fun id => if id = 3 then .error (.other 4) else .ok [1,2,3]

/-- A sync that was cut off and is resumed, and one that has downloaded everything and is
repeated on another host. -/
theorem sync_resumes_cut :
    let records : List (AchievementRecord ℕ ℕ) := [⟨2,some 1⟩,⟨3,some 1⟩]
    let complete := (AudioCache.sync leftoversSetting ⟨"cache"⟩ [⟨2,some 1⟩] leftoversDisk).2
    let again := (AudioCache.sync (leftoversSetting.on cutHost) ⟨"cache"⟩ [⟨2,some 1⟩] complete).2
    ((AudioCache.sync (leftoversSetting.on cutHost) ⟨"cache"⟩ records leftoversDisk).1 = .dropped ∧
      (AudioCache.sync leftoversSetting ⟨"cache"⟩ records cutDisk).1 = .ok [3] ∧
      (AudioCache.sync leftoversSetting ⟨"cache"⟩ records cutDisk).2.files =
        (AudioCache.sync leftoversSetting ⟨"cache"⟩ records leftoversDisk).2.files) ∧
    complete.requests = [(2,.ok [1,2,3])] ∧ again.files = complete.files ∧
      again.requests = complete.requests := by
  intro records complete again
  have hserves : leftoversSetting.host.Serves leftoversLibrary := by
    refine ⟨fun _ => rfl,fun _ => rfl,?_⟩
    intro n id
    by_cases h : id = 3 <;> simp [leftoversSetting,leftoversLibrary,answer,h]
  have hls : leftoversSetting.host.Lists "cache" leftoversDisk (leftoversDisk.clock + 1) := by
    intro name
    simp [leftoversSetting,leftoversDisk]
  have hcut : leftoversSetting.host.Lists "cache" cutDisk (cutDisk.clock + 1) := by
    intro name
    by_cases h : name = "aa.0.download".toList
    · subst h
      exact iff_of_true (by decide) (by decide)
    · have hne : (⟨"cache",name⟩ : Path) ≠ ⟨"cache","aa.0.download".toList⟩ := by
        simpa using h
      rw [cutDisk,Disk.set_files,Function.update_of_ne hne]
      exact hls name
  have hfirst : ∀ n id data, cutHost.audio n id = .ok data → leftoversLibrary id = .ok data := by
    intro n id data h
    have haudio : cutHost.audio n id =
        if id = 3 then .err (.error (.other 4)) else .ok [1,2,3] := rfl
    rw [haudio] at h
    rw [leftoversLibrary]
    split at h
    · cases h
    · next hid =>
      cases h
      rw [if_neg hid]
  have hok : AudioCache.sync leftoversSetting ⟨"cache"⟩ [⟨2,some 1⟩] leftoversDisk =
      (.ok [],complete) := Prod.ext (by decide +kernel) rfl
  obtain ⟨skipped,h₁,_,h₃⟩ := (sync_resumes leftoversSetting ⟨"cache"⟩ records).1
    leftoversLibrary cutHost leftoversSetting.host leftoversSetting.host leftoversDisk cutDisk
    (fun _ _ _ => rfl) hfirst rfl hserves hcut hserves hls
  exact ⟨⟨by decide +kernel,by decide +kernel,h₃⟩,by decide +kernel,
    (sync_resumes leftoversSetting ⟨"cache"⟩ [⟨2,some 1⟩]).2 leftoversSetting.host cutHost
      leftoversDisk complete (fun _ => rfl) hls hok⟩

end BloopClient.Audio

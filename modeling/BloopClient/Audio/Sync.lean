import BloopClient.Audio.Cache

/-!
# What a sync leaves behind

The ways a record can go (`Ensured`), the course of a sync through its records
(`Course`), and from these the directory a successful sync leaves: the audio of
the records that were not refused, and nothing else of the cache's own.
-/

namespace BloopClient.Audio
open Tracelib AudioCache

variable {Uuid DataHash : Type}

-- ════════════════════════════════════════════════════════════════════════
-- One record
-- ════════════════════════════════════════════════════════════════════════

/-- The ways `ensure_inner` can go. -/
inductive Ensured (setting : Setting Uuid DataHash) (cache : AudioCache)
    (record : AchievementRecord Uuid DataHash) (s : Disk Uuid) :
    Outcome AudioCacheError (Option Path) → Disk Uuid → Prop
  | silent (hp : cache.pathFor setting record = none) :
      Ensured setting cache record s (.ok none) s
  | cached {path} (hp : cache.pathFor setting record = some path) (hf : s.files path ≠ none) :
      Ensured setting cache record s (.ok (some path)) s.tick
  | downloaded {path n data s'} (hp : cache.pathFor setting record = some path)
      (hf : s.files path = none) (hr : s'.requests = (record.id,.ok data) :: s.requests)
      (hs : s'.files = Function.update (Function.update s.files
        (cache.tempPath setting record.id n) none) path (some (.file data))) :
      Ensured setting cache record s (.ok (some path)) s'
  | refused {path error s'} (hp : cache.pathFor setting record = some path)
      (hf : s.files path = none) (hr : s'.requests = (record.id,.err error) :: s.requests)
      (hs : s'.files = s.files) :
      Ensured setting cache record s (.err (.request error)) s'
  | stopped {r s'} (hok : ∀ value, r ≠ .ok value) (herr : ∀ error, r ≠ .err (.request error)) :
      Ensured setting cache record s r s'

/-- The error is a refusal, for which the loop skips the record. -/
def Skippable (setting : Setting Uuid DataHash) (error : AudioCacheError) : Prop :=
  ∃ response, error = .request (.error response) ∧ setting.isFatal response = false

/-- A way of a sync through its records, and the records it skipped. -/
inductive Course (setting : Setting Uuid DataHash) (cache : AudioCache) :
    Disk Uuid → List (AchievementRecord Uuid DataHash) → List Uuid → Disk Uuid → Prop
  | nil {s} : Course setting cache s [] [] s
  | kept {s s₁ s' record records skipped value}
      (h : cache.ensureInner setting record s = (.ok value,s₁))
      (hrest : Course setting cache s₁ records skipped s') :
      Course setting cache s (record :: records) skipped s'
  | skip {s s₁ s' record records skipped error}
      (h : cache.ensureInner setting record s = (.err error,s₁)) (he : Skippable setting error)
      (hrest : Course setting cache s₁ records skipped s') :
      Course setting cache s (record :: records) (record.id :: skipped) s'

variable {setting : Setting Uuid DataHash} {cache : AudioCache}
  {record : AchievementRecord Uuid DataHash} {s s' : Disk Uuid} {path : Path}

@[simp] theorem operate_id (host : Host Uuid) (s : Disk Uuid) :
    host.operate id s = (host.io s.clock,s.tick) := by
  simp [Host.operate]

theorem operate_ok {host : Host Uuid} (effect : Disk Uuid → Disk Uuid)
    (h : host.io s.clock = .ok ()) : host.operate effect s = (.ok (),effect s.tick) := by
  simp [Host.operate,h]

theorem createDirAll_ok {host : Host Uuid} (h : host.io s.clock = .ok ()) :
    host.createDirAll s = (.ok (),s.tick) := operate_ok id h

theorem rename_ok {host : Host Uuid} (source target : Path) (h : host.io s.clock = .ok ()) :
    host.rename source target s =
      (.ok (),(s.tick.set source none).set target (s.files source)) := operate_ok _ h

theorem tryExists_ok {host : Host Uuid} (path : Path) (h : host.io s.clock = .ok ()) :
    host.tryExists path s = (.ok (s.files path).isSome,s.tick) :=
  Fut.bind_ok (operate_ok id h)

theorem tryExists_ne {host : Host Uuid} (path : Path) (h : host.io s.clock ≠ .ok ()) (b : Bool) :
    (host.tryExists path s).1 ≠ .ok b :=
  (Fut.bind_of_ne (by simpa using fun _ => h)).1 b

theorem write_ok {host : Host Uuid} (path : Path) (data : List UInt8)
    (h : host.io s.clock = .ok ()) :
    host.write path data s = (.ok (),s.tick.set path (some (.file data))) := by
  simp [Host.write,h]

theorem write_ne {host : Host Uuid} (path : Path) (data : List UInt8)
    (h : host.io s.clock ≠ .ok ()) (u : Unit) : (host.write path data s).1 ≠ .ok u := by
  cases hr : host.io s.clock with
  | ok value => exact absurd hr h
  | _ => simp [Host.write,hr]

/-- An operation that does not succeed ends the function. -/
theorem Ensured.of_io {α : Type} {m : Fut (Disk Uuid) IoError α}
    {f : α → Fut (Disk Uuid) AudioCacheError (Option Path)} {d : Disk Uuid}
    (h : ∀ a, (m d).1 ≠ .ok a) :
    Ensured setting cache record s ((m.mapErr .io >>= f) d).1 ((m.mapErr .io >>= f) d).2 := by
  have hm : ∀ a, ((m.mapErr AudioCacheError.io) d).1 ≠ .ok a := by
    intro a ha
    cases hr : (m d).1 <;> simp_all [Fut.mapErr,Outcome.mapErr]
  obtain ⟨hok,herr,_⟩ := Fut.bind_of_ne (f := f) hm
  refine .stopped hok ?_
  intro error he
  have he' := (herr _).mp he
  cases hr : (m d).1 <;> simp_all [Fut.mapErr,Outcome.mapErr]

theorem store_ensured {data : List UInt8} {d : Disk Uuid}
    (hp : cache.pathFor setting record = some path) (hf : s.files path = none)
    (hr : d.requests = (record.id,.ok data) :: s.requests) (hs : d.files = s.files) :
    Ensured setting cache record s (cache.store setting record.id path data d).1
      (cache.store setting record.id path data d).2 := by
  have hn : (fetchAdd : Fut (Disk Uuid) AudioCacheError UInt64) d =
    (.ok d.tempCounter,{ d with tempCounter := d.tempCounter + 1 }) := rfl
  rw [store,Fut.bind_ok hn]
  generalize hd : { d with tempCounter := d.tempCounter + 1 } = d₁
  have hr₁ : d₁.requests = (record.id,.ok data) :: s.requests := by rw [← hd,← hr]
  have hs₁ : d₁.files = s.files := by rw [← hd,← hs]
  by_cases hw : setting.host.io d₁.clock = .ok ()
  · rw [Fut.bind_ok (Fut.mapErr_eq_ok.mpr (write_ok _ _ hw))]
    generalize hd : d₁.tick.set _ _ = d₂
    by_cases hm : setting.host.io d₂.clock = .ok ()
    · rw [Fut.bind_ok (Fut.mapErr_eq_ok.mpr (rename_ok _ _ hm))]
      have hr₂ : d₂.requests = (record.id,.ok data) :: s.requests := by rw [← hd,← hr₁]; rfl
      refine .downloaded (n := d.tempCounter) hp hf hr₂ ?_
      show Function.update (Function.update d₂.files _ _) path _ = _
      rw [← hd]
      simp [hs₁]
    · exact .of_io fun _ => hm
  · exact .of_io (write_ne _ _ hw)

/-- Once the provider is asked, its answer decides. -/
theorem retrieve_ensured {d : Disk Uuid} (hp : cache.pathFor setting record = some path)
    (hf : s.files path = none) (hr : d.requests = s.requests) (hs : d.files = s.files) :
    Ensured setting cache record s
      (((setting.host.retrieveAudio record.id).mapErr .request >>=
        cache.store setting record.id path) d).1
      (((setting.host.retrieveAudio record.id).mapErr .request >>=
        cache.store setting record.id path) d).2 := by
  have hget : ((setting.host.retrieveAudio record.id).mapErr AudioCacheError.request) d =
      ((setting.host.audio d.clock record.id).mapErr .request,{ d.tick with
        requests := (record.id,setting.host.audio d.clock record.id) :: d.requests }) := rfl
  cases ha : setting.host.audio d.clock record.id with
  | ok data =>
    rw [ha,hr] at hget
    rw [Fut.bind_ok hget]
    exact store_ensured hp hf rfl hs
  | err error =>
    rw [ha,hr] at hget
    rw [Fut.bind_apply,hget]
    exact .refused hp hf rfl hs
  | _ =>
    rw [ha] at hget
    rw [Fut.bind_apply,hget]
    exact .stopped (by simp [Outcome.mapErr]) (by simp [Outcome.mapErr])

theorem ensureInner_ensured (setting : Setting Uuid DataHash) (cache : AudioCache)
    (record : AchievementRecord Uuid DataHash) (s : Disk Uuid) :
    Ensured setting cache record s (cache.ensureInner setting record s).1
      (cache.ensureInner setting record s).2 := by
  cases hp : cache.pathFor setting record with
  | none =>
    simp only [ensureInner,hp]
    exact .silent hp
  | some path =>
    simp only [ensureInner,hp]
    by_cases hio : setting.host.io s.clock = .ok ()
    · rw [Fut.bind_ok (Fut.mapErr_eq_ok.mpr (tryExists_ok path hio))]
      cases hf : s.files path with
      | some entry => exact .cached hp (by simp [hf])
      | none =>
        simp only [Option.isSome_none,Bool.false_eq_true,if_false]
        by_cases hdir : setting.host.io s.tick.clock = .ok ()
        · rw [Fut.bind_ok (Fut.mapErr_eq_ok.mpr (createDirAll_ok hdir))]
          exact retrieve_ensured hp hf rfl rfl
        · exact .of_io fun _ => hdir
    · exact .of_io (tryExists_ne path hio)

theorem ensured_of_eq {r : Outcome AudioCacheError (Option Path)}
    (h : cache.ensureInner setting record s = (r,s')) : Ensured setting cache record s r s' := by
  have he := ensureInner_ensured setting cache record s
  rwa [h] at he

-- ════════════════════════════════════════════════════════════════════════
-- The directory in front of the records
-- ════════════════════════════════════════════════════════════════════════

/-- Removing always succeeds. -/
def Host.Removes (host : Host Uuid) : Prop := ∀ n, host.remove n = .ok ()

/-- The directory is enumerated as it is. -/
def Host.Lists (host : Host Uuid) (dir : String) (s : Disk Uuid) (n : ℕ) : Prop :=
  ∀ name, name ∈ host.listing n ↔ s.files ⟨dir,name⟩ ≠ none

/-- An operation without an effect that succeeded only took its time. -/
theorem of_operate_ok {host : Host Uuid} {u : Unit}
    (h : ((host.operate id).mapErr AudioCacheError.io) s = (.ok u,s')) : s' = s.tick := by
  have h₂ := congrArg Prod.snd h
  simpa [Fut.mapErr] using h₂.symm

/-- One entry of the directory is looked at, and removed if it is stale. -/
theorem prune_cons {expected entries : List Path} {entry : Path} {u : Unit}
    (hrm : setting.host.Removes)
    (h : prune setting expected (entry :: entries) s = (.ok u,s')) :
    ∃ s₁, prune setting expected entries s₁ = (.ok u,s') ∧ s₁.requests = s.requests ∧
      ∀ path, s₁.files path =
        if path = entry ∧ Stale expected path then none else s.files path := by
  obtain ⟨_,s₁,h₁,h₂⟩ := Fut.bind_eq_ok.mp h
  rw [of_operate_ok h₁] at h₂
  by_cases hstale : Stale expected entry
  · simp only [hstale,if_true] at h₂
    have hremove : (setting.host.removeFile entry : Fut _ AudioCacheError Unit) s.tick =
        (.ok (),s.tick.tick.set entry none) := by simp [Host.removeFile,hrm s.tick.clock]
    rw [Fut.bind_ok hremove] at h₂
    refine ⟨_,h₂,rfl,?_⟩
    intro path
    by_cases he : path = entry
    · subst he
      simp [hstale]
    · simp [he]
  · simp only [hstale,if_false] at h₂
    refine ⟨_,h₂,rfl,?_⟩
    intro path
    by_cases he : path = entry
    · subst he
      simp [hstale]
    · simp [he]

/-- Pruning removes what is stale among the entries it is given. -/
theorem prune_ok {expected entries : List Path} {u : Unit} (hrm : setting.host.Removes)
    (h : prune setting expected entries s = (.ok u,s')) :
    s'.requests = s.requests ∧ ∀ path, s'.files path =
      if path ∈ entries ∧ Stale expected path then none else s.files path := by
  induction entries generalizing s with
  | nil =>
    rw [of_operate_ok h]
    simp
  | cons entry entries ih =>
    obtain ⟨s₁,h₁,hr₁,hf₁⟩ := prune_cons hrm h
    obtain ⟨hr,hf⟩ := ih h₁
    refine ⟨hr.trans hr₁,?_⟩
    intro path
    rw [hf,hf₁]
    by_cases hstale : Stale expected path
    · by_cases he : path = entry
      · subst he
        simp [hstale]
      · simp [hstale,he]
    · simp [hstale]

/-- What the part in front of the records leaves: nothing of the cache's own that
no record refers to, and otherwise what there was. -/
structure Pruned (setting : Setting Uuid DataHash) (cache : AudioCache)
    (records : List (AchievementRecord Uuid DataHash)) (s s' : Disk Uuid) : Prop where
  requests : s'.requests = s.requests
  files : ∀ path, s'.files path = s.files path ∨ s'.files path = none
  fresh : ∀ path, path.dir = cache.basePath → s'.files path ≠ none →
    ¬ Stale (records.filterMap (cache.pathFor setting)) path

theorem readDir_ok {dir : String} {entries : List Path}
    (h : ((setting.host.readDir dir).mapErr AudioCacheError.io) s = (.ok entries,s')) :
    entries = (setting.host.listing s.clock).map (Path.mk dir) ∧ s' = s.tick := by
  obtain ⟨_,s₁,h₁,hpure⟩ := Fut.bind_eq_ok.mp (Fut.mapErr_eq_ok.mp h)
  simp only [operate_id,Prod.mk.injEq] at h₁
  obtain ⟨rfl,rfl⟩ : _ ∧ s.tick = s' := by simpa [h₁.2] using hpure
  exact ⟨rfl,rfl⟩

/-- The part in front of the records removes what is stale in the directory. -/
theorem prepare_files {records : List (AchievementRecord Uuid DataHash)} {u : Unit}
    (hrm : setting.host.Removes) (hls : setting.host.Lists cache.basePath s (s.clock + 1))
    (h : cache.prepare setting records s = (.ok u,s')) :
    s'.requests = s.requests ∧ ∀ path, s'.files path =
      if path.dir = cache.basePath ∧ Stale (records.filterMap (cache.pathFor setting)) path
      then none else s.files path := by
  obtain ⟨_,s₁,h₁,h⟩ := Fut.bind_eq_ok.mp h
  obtain rfl : s₁ = s.tick := of_operate_ok h₁
  obtain ⟨entries,s₂,h₂,h⟩ := Fut.bind_eq_ok.mp h
  obtain ⟨rfl,rfl⟩ := readDir_ok h₂
  obtain ⟨hr,hf⟩ := prune_ok hrm h
  refine ⟨hr,?_⟩
  rintro ⟨dir,name⟩
  rw [hf]
  by_cases hdir : dir = cache.basePath
  · subst hdir
    by_cases hp : s.files ⟨cache.basePath,name⟩ = none
    · simp [hp]
    · have hm : name ∈ setting.host.listing s.tick.clock := (hls name).mpr hp
      simp [hm]
  · simp [hdir,Ne.symm hdir]

theorem prepare_ok {records : List (AchievementRecord Uuid DataHash)} {u : Unit}
    (hrm : setting.host.Removes) (hls : setting.host.Lists cache.basePath s (s.clock + 1))
    (h : cache.prepare setting records s = (.ok u,s')) :
    Pruned setting cache records s s' := by
  obtain ⟨hr,hf⟩ := prepare_files hrm hls h
  refine ⟨hr,?_,?_⟩
  · intro path
    rw [hf]
    split
    · exact .inr rfl
    · exact .inl rfl
  · intro path hdir hne hstale
    rw [hf,if_pos ⟨hdir,hstale⟩] at hne
    exact hne rfl

-- ════════════════════════════════════════════════════════════════════════
-- Through the records
-- ════════════════════════════════════════════════════════════════════════

variable {records rest : List (AchievementRecord Uuid DataHash)} {skipped : List Uuid}

section Loop

variable {done : List Uuid} {r : Outcome AudioCacheError (Option Path)} {error : AudioCacheError}

theorem ensureAll_ok {value : Option Path}
    (h : cache.ensureInner setting record s = (.ok value,s')) :
    cache.ensureAll setting done (record :: records) s =
      cache.ensureAll setting done records s' := by
  rw [ensureAll,Fut.bind_apply,Fut.attempt,h]

theorem ensureAll_skip (h : cache.ensureInner setting record s = (.err error,s'))
    (he : Skippable setting error) :
    cache.ensureAll setting done (record :: records) s =
      cache.ensureAll setting (done ++ [record.id]) records s' := by
  obtain ⟨response,rfl,hf⟩ := he
  rw [ensureAll,Fut.bind_apply,Fut.attempt,h]
  simp [hf]

theorem ensureAll_err (h : cache.ensureInner setting record s = (.err error,s'))
    (he : ¬ Skippable setting error) :
    cache.ensureAll setting done (record :: records) s = (.err error,s') := by
  rw [ensureAll,Fut.bind_apply,Fut.attempt,h]
  cases error with
  | io error => rfl
  | request error =>
    cases error with
    | error response =>
      have hf : setting.isFatal response = true := by
        by_contra hf
        exact he ⟨response,rfl,by simpa using hf⟩
      simp [hf,Fut.fail]
    | _ => rfl

theorem ensureAll_course (h : cache.ensureAll setting done records s = (.ok skipped,s')) :
    ∃ more, skipped = done ++ more ∧ Course setting cache s records more s' := by
  induction records generalizing s done with
  | nil =>
    cases h
    exact ⟨[],by simp,.nil⟩
  | cons record records ih =>
    rcases hr : cache.ensureInner setting record s with ⟨r,s₁⟩
    cases r with
    | ok value =>
      rw [ensureAll_ok hr] at h
      obtain ⟨more,he,hc⟩ := ih h
      exact ⟨more,he,.kept hr hc⟩
    | err error =>
      by_cases he : Skippable setting error
      · rw [ensureAll_skip hr he] at h
        obtain ⟨more,hm,hc⟩ := ih h
        exact ⟨record.id :: more,by simpa using hm,.skip hr he hc⟩
      · rw [ensureAll_err hr he] at h
        cases h
    | dropped =>
      rw [ensureAll,Fut.bind_apply,Fut.attempt,hr] at h
      cases h
    | elapsed =>
      rw [ensureAll,Fut.bind_apply,Fut.attempt,hr] at h
      cases h

/-- A loop that got through some records goes on with the others. -/
theorem Course.ensureAll_append (hc : Course setting cache s records skipped s')
    (done : List Uuid) : cache.ensureAll setting done (records ++ rest) s =
      cache.ensureAll setting (done ++ skipped) rest s' := by
  induction hc generalizing done with
  | nil => simp
  | kept h _ ih => rw [List.cons_append,ensureAll_ok h,ih]
  | skip h he _ ih => rw [List.cons_append,ensureAll_skip h he,ih,List.append_assoc]; rfl

end Loop

-- ════════════════════════════════════════════════════════════════════════
-- What the records change
-- ════════════════════════════════════════════════════════════════════════

theorem pathFor_extension (h : cache.pathFor setting record = some path) :
    path.extension = some mp3 := by
  obtain ⟨hash,_,rfl⟩ := Option.map_eq_some_iff.mp h
  exact extension_append (by simp) (by decide) (by decide)

theorem tempPath_extension (id : Uuid) (n : UInt64) :
    (cache.tempPath setting id n).extension = some download :=
  extension_append (by simp) (by decide) (by decide)

/-- A path tells whose audio it is. -/
theorem pathFor_id {record' : AchievementRecord Uuid DataHash}
    (h : cache.pathFor setting record = some path)
    (h' : cache.pathFor setting record' = some path) : record.id = record'.id := by
  obtain ⟨hash,_,rfl⟩ := Option.map_eq_some_iff.mp h
  obtain ⟨hash',_,he⟩ := Option.map_eq_some_iff.mp h'
  simp only [Path.mk.injEq,true_and] at he
  have hw := congrArg (List.takeWhile (· ≠ '_')) he
  have ht : ∀ (id : Uuid) (cs : List Char),
      (setting.texts.uuid id ++ '_' :: cs).takeWhile (· ≠ '_') = setting.texts.uuid id := by
    intro id cs
    have hplain : ∀ c ∈ setting.texts.uuid id, decide (c ≠ '_') = true := by
      intro c hc
      rw [decide_eq_true_eq]
      rintro rfl
      exact setting.texts.uuid_plain id hc
    rw [List.takeWhile_append_of_pos hplain]
    simp
  simp only [List.append_assoc,List.cons_append] at hw
  rw [ht,ht] at hw
  exact (setting.texts.uuid_injective hw).symm

/-- All that changed is that temporary files are gone and that audio of some
records, which was missing, is there as it was downloaded. -/
def Fetches (setting : Setting Uuid DataHash) (cache : AudioCache)
    (records : List (AchievementRecord Uuid DataHash))
    (calls : List (Uuid × Outcome RequestError (List UInt8))) (s s' : Disk Uuid) : Prop :=
  s'.requests = calls ++ s.requests ∧ ∀ path, s'.files path = s.files path ∨
    (path.extension = some download ∧ s'.files path = none) ∨
    (s.files path = none ∧ ∃ record ∈ records, cache.pathFor setting record = some path ∧
      ∃ data, s'.files path = some (.file data) ∧ (record.id,.ok data) ∈ calls)

theorem Fetches.refl (records : List (AchievementRecord Uuid DataHash)) (s : Disk Uuid) :
    Fetches setting cache records [] s s :=
  ⟨rfl,fun _ => .inl rfl⟩

theorem Fetches.cons {calls calls' : List (Uuid × Outcome RequestError (List UInt8))}
    {s₁ : Disk Uuid} (h : Fetches setting cache [record] calls s s₁)
    (h' : Fetches setting cache records calls' s₁ s') :
    Fetches setting cache (record :: records) (calls' ++ calls) s s' := by
  refine ⟨by rw [h'.1,h.1,List.append_assoc],?_⟩
  intro path
  rcases h'.2 path with hsame | hgone | ⟨hnone,record',hm,hp,data,hf,hc⟩
  · rw [hsame]
    rcases h.2 path with hsame | hgone | ⟨hnone,record',hm,hp,data,hf,hc⟩
    · exact .inl hsame
    · exact .inr (.inl hgone)
    · rw [List.mem_singleton] at hm
      subst hm
      exact .inr (.inr ⟨hnone,_,List.mem_cons_self,hp,data,hf,by simp [hc]⟩)
  · exact .inr (.inl hgone)
  · have hnone' : s.files path = none := by
      rcases h.2 path with hsame | ⟨hdownload,_⟩ | ⟨_,_,_,_,_,hf',_⟩
      · rw [← hsame,hnone]
      · rw [pathFor_extension hp] at hdownload
        cases hdownload
      · rw [hnone] at hf'
        cases hf'
    exact .inr (.inr ⟨hnone',record',List.mem_cons_of_mem _ hm,hp,data,hf,by simp [hc]⟩)

/-- What is not the name of a temporary file stays. -/
theorem Fetches.keeps {calls : List (Uuid × Outcome RequestError (List UInt8))}
    (h : Fetches setting cache records calls s s') (he : path.extension ≠ some download)
    (hf : s.files path ≠ none) : s'.files path = s.files path := by
  rcases h.2 path with hsame | ⟨hdownload,_⟩ | ⟨hnone,_⟩
  · exact hsame
  · exact absurd hdownload he
  · exact absurd hnone hf

/-- A record that is not the end of the sync changes nothing but its own file. -/
theorem Ensured.fetches {r : Outcome AudioCacheError (Option Path)}
    (h : Ensured setting cache record s r s')
    (hr : (∃ value, r = .ok value) ∨ ∃ error, r = .err (.request error)) :
    ∃ calls, Fetches setting cache [record] calls s s' := by
  cases h with
  | silent hp => exact ⟨[],.refl _ _⟩
  | cached hp hf => exact ⟨[],rfl,fun _ => .inl rfl⟩
  | @downloaded path n data s' hp hf hreq hs =>
    refine ⟨[(record.id,.ok data)],hreq,?_⟩
    intro path'
    rw [hs]
    by_cases he : path' = path
    · subst he
      exact .inr (.inr ⟨hf,record,List.mem_singleton_self _,hp,data,by simp⟩)
    · rw [Function.update_of_ne he]
      by_cases ht : path' = cache.tempPath setting record.id n
      · subst ht
        exact .inr (.inl ⟨tempPath_extension _ _,by simp⟩)
      · rw [Function.update_of_ne ht]
        exact .inl rfl
  | @refused path error s' hp hf hreq hs =>
    exact ⟨[(record.id,.err error)],hreq,fun _ => .inl (by rw [hs])⟩
  | stopped hok herr =>
    rcases hr with ⟨value,rfl⟩ | ⟨error,rfl⟩
    · exact absurd rfl (hok value)
    · exact absurd rfl (herr error)

theorem Course.fetches (hc : Course setting cache s records skipped s') :
    ∃ calls, Fetches setting cache records calls s s' := by
  induction hc with
  | nil => exact ⟨[],.refl _ _⟩
  | @kept s s₁ s' record records skipped value h _ ih =>
    obtain ⟨calls,hf⟩ := (ensured_of_eq h).fetches (.inl ⟨value,rfl⟩)
    obtain ⟨calls',hf'⟩ := ih
    exact ⟨_,hf.cons hf'⟩
  | @skip s s₁ s' record records skipped error h hskip _ ih =>
    obtain ⟨response,rfl,_⟩ := hskip
    obtain ⟨calls,hf⟩ := (ensured_of_eq h).fetches (.inr ⟨_,rfl⟩)
    obtain ⟨calls',hf'⟩ := ih
    exact ⟨_,hf.cons hf'⟩

theorem Ensured.present {value : Option Path} (h : Ensured setting cache record s (.ok value) s')
    (hp : cache.pathFor setting record = some path) : s'.files path ≠ none := by
  cases h with
  | silent hp' =>
    rw [hp'] at hp
    cases hp
  | cached hp' hf =>
    rw [hp'] at hp
    cases hp
    exact hf
  | downloaded hp' hf hreq hs =>
    rw [hp'] at hp
    cases hp
    simp [hs]
  | stopped hok _ => exact absurd rfl (hok value)

/-- A record that was not skipped has its file in the end. -/
theorem Course.present (hc : Course setting cache s records skipped s')
    (hm : record ∈ records) (hp : cache.pathFor setting record = some path)
    (hs : record.id ∉ skipped) : s'.files path ≠ none := by
  have hne : path.extension ≠ some download := by
    rw [pathFor_extension hp]
    decide
  induction hc with
  | nil => cases hm
  | @kept s s₁ s' head records skipped value h hrest ih =>
    rcases List.mem_cons.mp hm with rfl | hm
    · have hf := (ensured_of_eq h).present hp
      obtain ⟨calls,hk⟩ := hrest.fetches
      rwa [hk.keeps hne hf]
    · exact ih hm hs
  | @skip s s₁ s' head records skipped error h _ _ ih =>
    rw [List.mem_cons,not_or] at hs
    rcases List.mem_cons.mp hm with rfl | hm
    · exact absurd rfl hs.1
    · exact ih hm hs.2

-- ════════════════════════════════════════════════════════════════════════
-- Skipped records
-- ════════════════════════════════════════════════════════════════════════

/-- The records, each with the disk as it was when the loop reached it. -/
def reached (setting : Setting Uuid DataHash) (cache : AudioCache) :
    Disk Uuid → List (AchievementRecord Uuid DataHash) →
      List (AchievementRecord Uuid DataHash × Disk Uuid)
  | _, [] => []
  | s, record :: records =>
    (record,s) :: reached setting cache (cache.ensureInner setting record s).2 records

/-- The file of the record was absent, and its download was answered with an error
that is not fatal. -/
def Refused (setting : Setting Uuid DataHash) (cache : AudioCache)
    (record : AchievementRecord Uuid DataHash) (s : Disk Uuid) : Prop :=
  ∃ path response, cache.pathFor setting record = some path ∧ s.files path = none ∧
    (cache.ensureInner setting record s).2.requests =
      (record.id,.err (.error response)) :: s.requests ∧ setting.isFatal response = false

open Classical in
/-- The identifiers of the records that were refused, in order. -/
noncomputable def refusals (setting : Setting Uuid DataHash) (cache : AudioCache) (s : Disk Uuid)
    (records : List (AchievementRecord Uuid DataHash)) : List Uuid :=
  ((reached setting cache s records).filter fun v => Refused setting cache v.1 v.2).map (·.1.id)

theorem not_refused_of_ok {value : Option Path}
    (h : cache.ensureInner setting record s = (.ok value,s')) :
    ¬ Refused setting cache record s := by
  rintro ⟨path,response,hp,hf,hreq,_⟩
  rw [h] at hreq
  cases ensured_of_eq h with
  | silent hp' =>
    rw [hp'] at hp
    cases hp
  | cached hp' hf' =>
    rw [hp'] at hp
    cases hp
    exact hf' hf
  | downloaded _ _ hreq' _ =>
    rw [hreq] at hreq'
    cases hreq'
  | stopped hok _ => exact absurd rfl (hok value)

theorem refused_of_skippable {error : AudioCacheError}
    (h : cache.ensureInner setting record s = (.err error,s')) (he : Skippable setting error) :
    Refused setting cache record s := by
  obtain ⟨response,rfl,hfatal⟩ := he
  cases ensured_of_eq h with
  | refused hp hf hreq _ => exact ⟨_,response,hp,hf,by rw [h,hreq],hfatal⟩
  | stopped _ herr => exact absurd rfl (herr _)

theorem Course.skipped_eq (hc : Course setting cache s records skipped s') :
    skipped = refusals setting cache s records := by
  induction hc with
  | nil => rfl
  | @kept s s₁ s' record records skipped value h _ ih =>
    simp [refusals,reached,not_refused_of_ok h,h,ih]
  | @skip s s₁ s' record records skipped error h he _ ih =>
    simp [refusals,reached,refused_of_skippable h he,h,ih]

-- ════════════════════════════════════════════════════════════════════════
-- Syncs
-- ════════════════════════════════════════════════════════════════════════

/-- What a sync that succeeded leaves behind. -/
structure Synced (setting : Setting Uuid DataHash) (cache : AudioCache)
    (records : List (AchievementRecord Uuid DataHash)) (skipped : List Uuid)
    (s s' : Disk Uuid) : Prop where
  /-- All audio in the directory is the audio of records. -/
  audio : ∀ path, path.dir = cache.basePath → path.extension = some mp3 → s'.files path ≠ none →
    ∃ record ∈ records, cache.pathFor setting record = some path
  /-- No download is left over. -/
  downloads : ∀ path, path.dir = cache.basePath → path.extension = some download →
    s'.files path = none
  /-- The records that were not skipped have their audio. -/
  present : ∀ record ∈ records, ∀ path, cache.pathFor setting record = some path →
    record.id ∉ skipped → s'.files path ≠ none
  /-- A new file is what a download of this sync returned. -/
  fetched : ∃ calls, s'.requests = calls ++ s.requests ∧
    ∀ path entry, s.files path = none → s'.files path = some entry →
      (∃ record ∈ records, cache.pathFor setting record = some path) ∧
      ∃ data, entry = .file data ∧
        ∀ record, cache.pathFor setting record = some path → (record.id,.ok data) ∈ calls
  /-- Skipped are the records that were refused. -/
  skips : skipped = refusals setting cache (cache.prepare setting records s).2 records

/-- A sync got through the records in front of one and has this disk. -/
def Reaches (setting : Setting Uuid DataHash) (cache : AudioCache)
    (records before : List (AchievementRecord Uuid DataHash)) (s d : Disk Uuid) : Prop :=
  ∃ skipped, (do
    cache.prepare setting records
    cache.ensureAll setting [] before) s = (.ok skipped,d)

section Assembly

variable {s₁ : Disk Uuid} {calls : List (Uuid × Outcome RequestError (List UInt8))}

/-- Audio that is there in the end was kept for a record or downloaded for one. -/
theorem Pruned.audio (h : Pruned setting cache records s s₁)
    (hf : Fetches setting cache records calls s₁ s') (hdir : path.dir = cache.basePath)
    (hext : path.extension = some mp3) (hne : s'.files path ≠ none) :
    ∃ record ∈ records, cache.pathFor setting record = some path := by
  rcases hf.2 path with hsame | ⟨hdownload,_⟩ | ⟨_,record,hm,hp,_⟩
  · rw [hsame] at hne
    by_contra hno
    refine h.fresh path hdir hne (.inl ⟨hext,?_⟩)
    intro hm
    obtain ⟨record,hm,hp⟩ := List.mem_filterMap.mp hm
    exact hno ⟨record,hm,hp⟩
  · rw [hext] at hdownload
    cases hdownload
  · exact ⟨record,hm,hp⟩

/-- The leftovers are gone, and every download was renamed. -/
theorem Pruned.downloads (h : Pruned setting cache records s s₁)
    (hf : Fetches setting cache records calls s₁ s') (hdir : path.dir = cache.basePath)
    (hext : path.extension = some download) : s'.files path = none := by
  rcases hf.2 path with hsame | ⟨_,hnone⟩ | ⟨_,record,_,hp,_⟩
  · rw [hsame]
    by_contra hne
    exact h.fresh path hdir hne (.inr hext)
  · exact hnone
  · rw [pathFor_extension hp] at hext
    cases hext

/-- A file that was missing holds what a download for it returned. -/
theorem Pruned.fetched {entry : Entry} (h : Pruned setting cache records s s₁)
    (hf : Fetches setting cache records calls s₁ s') (hnone : s.files path = none)
    (hsome : s'.files path = some entry) :
    (∃ record ∈ records, cache.pathFor setting record = some path) ∧
    ∃ data, entry = .file data ∧
      ∀ record, cache.pathFor setting record = some path → (record.id,.ok data) ∈ calls := by
  have hnone₁ : s₁.files path = none := by
    rcases h.files path with hsame | hgone
    · rw [hsame,hnone]
    · exact hgone
  rcases hf.2 path with hsame | ⟨_,hgone⟩ | ⟨_,record,hm,hp,data,hdata,hcall⟩
  · rw [hsame,hnone₁] at hsome
    cases hsome
  · rw [hgone] at hsome
    cases hsome
  · rw [hdata] at hsome
    cases hsome
    refine ⟨⟨record,hm,hp⟩,data,rfl,?_⟩
    intro record' hp'
    rwa [pathFor_id hp' hp]

theorem synced_of_ok (hrm : setting.host.Removes)
    (hls : setting.host.Lists cache.basePath s (s.clock + 1))
    (h : cache.sync setting records s = (.ok skipped,s')) :
    Synced setting cache records skipped s s' := by
  obtain ⟨_,s₁,hprep,hall⟩ := Fut.bind_eq_ok.mp h
  have hpruned : Pruned setting cache records s s₁ := prepare_ok hrm hls hprep
  obtain ⟨more,hmore,hc⟩ := ensureAll_course hall
  obtain rfl : skipped = more := by simpa using hmore
  obtain ⟨calls,hf⟩ := hc.fetches
  refine ⟨?_,?_,?_,?_,?_⟩
  · intro path hdir hext hne
    exact hpruned.audio hf hdir hext hne
  · intro path hdir hext
    exact hpruned.downloads hf hdir hext
  · intro record hm path hp hs
    exact hc.present hm hp hs
  · refine ⟨calls,by rw [hf.1,hpruned.requests],?_⟩
    intro path entry hnone hsome
    exact hpruned.fetched hf hnone hsome
  · rw [hprep]
    exact hc.skipped_eq

end Assembly

theorem sync_of_reaches {before after : List (AchievementRecord Uuid DataHash)} {d : Disk Uuid}
    {error : AudioCacheError} (hrec : records = before ++ record :: after)
    (hd : Reaches setting cache records before s d)
    (he : (cache.ensureInner setting record d).1 = .err error) (hn : ¬ Skippable setting error) :
    cache.sync setting records s = (.err error,(cache.ensureInner setting record d).2) := by
  obtain ⟨skipped,h⟩ := hd
  obtain ⟨_,s₁,hprep,hall⟩ := Fut.bind_eq_ok.mp h
  obtain ⟨more,_,hc⟩ := ensureAll_course hall
  have hrecord : cache.ensureInner setting record d =
      (.err error,(cache.ensureInner setting record d).2) := by rw [← he]
  rw [sync,Fut.bind_ok hprep,hrec,hc.ensureAll_append,ensureAll_err hrecord hn]

/-- Without other users of the cache, with a faithful enumeration and with
removing succeeding: a sync that returns `Ok` leaves the directory as it should
be and reports the records that were refused; and a record that is reached and
fails in another way ends the sync with its error. -/
theorem sync_post (setting : Setting Uuid DataHash) (cache : AudioCache)
    (records : List (AchievementRecord Uuid DataHash)) (s : Disk Uuid)
    (hrm : setting.host.Removes) (hls : setting.host.Lists cache.basePath s (s.clock + 1)) :
    (∀ skipped s', cache.sync setting records s = (.ok skipped,s') →
      Synced setting cache records skipped s s') ∧
    ∀ before record after d error, records = before ++ record :: after →
      Reaches setting cache records before s d →
      (cache.ensureInner setting record d).1 = .err error → ¬ Skippable setting error →
      cache.sync setting records s = (.err error,(cache.ensureInner setting record d).2) :=
  ⟨fun _ _ h => synced_of_ok hrm hls h,
    fun _ _ _ _ _ hrec hd he hn => sync_of_reaches hrec hd he hn⟩

/-- A directory with audio of the past, the leftover of a download and a file that
is not the cache's own; the provider has all audio but that of one achievement. -/
def leftovers : List (List Char) :=
  ["stale.mp3".toList,"aa.0.download".toList,"notes.txt".toList]

def leftoversDisk : Disk ℕ where
  files path := if path.dir = "cache" ∧ path.name ∈ leftovers then some (.file [9]) else none
  tempCounter := 0
  clock := 0
  requests := []

def leftoversSetting : Setting ℕ ℕ where
  texts :=
    { uuid := fun id => List.replicate id 'a'
      hash := fun hash => List.replicate hash 'f'
      uuid_injective := fun _ _ h => by simpa using congrArg List.length h
      uuid_plain := fun id h => by simpa using List.eq_of_mem_replicate h }
  isFatal := fun _ => false
  host :=
    { io := fun _ => .ok ()
      remove := fun _ => .ok ()
      took := fun _ => false
      written := fun _ => 0
      listing := fun _ => leftovers
      audio := fun _ id => if id = 3 then .err (.error (.other 4)) else .ok [1,2,3] }

/-- The record without audio needs nothing, the one the provider refuses is skipped,
and the other has its file. -/
theorem sync_post_leftovers :
    ∃ s', AudioCache.sync leftoversSetting ⟨"cache"⟩ [⟨2,some 1⟩,⟨3,some 1⟩,⟨4,none⟩]
        leftoversDisk = (.ok [3],s') ∧
      s'.files ⟨"cache","aa_f.mp3".toList⟩ = some (.file [1,2,3]) ∧
      s'.files ⟨"cache","stale.mp3".toList⟩ = none ∧
      Synced leftoversSetting ⟨"cache"⟩ [⟨2,some 1⟩,⟨3,some 1⟩,⟨4,none⟩] [3] leftoversDisk s' := by
  have hls : leftoversSetting.host.Lists "cache" leftoversDisk (leftoversDisk.clock + 1) := by
    intro name
    simp [leftoversSetting,leftoversDisk]
  refine ⟨_,rfl,by decide +kernel,by decide +kernel,?_⟩
  exact (sync_post leftoversSetting ⟨"cache"⟩ _ leftoversDisk (fun _ => rfl) hls).1 _ _ rfl

end BloopClient.Audio

import BloopClient.Preload

/-!
# Connections with a preload

What holds of every connection the client stores when its hook syncs the cache first: the
sync went through, the files it added are what the server sent on this very connection, and
the connection is not one the server has given up. The last is up to `sync`: it skips what
the server refuses, but fails on an error after which the server closes the connection.
-/

namespace BloopClient
open Tracelib ClientTask Audio

variable {NfcUid Uuid DataHash Record α : Type} {env : Env}

-- ════════════════════════════════════════════════════════════════════════
-- A sync does not get over a lost connection
-- ════════════════════════════════════════════════════════════════════════

/-- A download whose result tells that the connection is lost. -/
def CacheOp.Severing (p : Protocol) : (o : CacheOp Uuid) → CacheOp.Res o → Prop
  | .retrieveAudio _,r => Severs p r
  | _,_ => False

/-- The error of such a download. -/
def Severed (p : Protocol) (e : AudioCacheError) : Prop :=
  ∃ error, e = .request error ∧ Severs p (.error error : Except RequestError (List UInt8))

section Strict

variable {p : Protocol} {setting : Setting Uuid DataHash} {cache : AudioCache}

abbrev StrictWork (p : Protocol) (work : Work Uuid α) : Prop :=
  work.Strict (CacheOp.Severing p) (Severed p)

/-- An operation on the disk, with its error handed on. -/
theorem strict_disk {β : Type} {o : CacheOp Uuid} (f : CacheOp.Res o → Except AudioCacheError β)
    (ho : ∀ r, ¬ CacheOp.Severing p o r) :
    StrictWork p (Program.perform o >>= fun r => Program.lift (f r)) :=
  fun r => ⟨fun h => absurd h (ho r),.lift _⟩

theorem strict_retrieveAudio (id : Uuid) : StrictWork p (Work.retrieveAudio id) := by
  intro r
  refine ⟨fun h => ?_,.lift _⟩
  cases r with
  | ok data => exact absurd h (not_severs_ok data)
  | error error => exact ⟨error,rfl,h⟩

theorem strict_storeWork (id : Uuid) (path : Path) (data : List UInt8) :
    StrictWork p (cache.storeWork setting id path data) := by
  intro n
  refine ⟨fun h => h.elim,?_⟩
  have hwrite : StrictWork p (Work.write (cache.tempPath setting id n) data : Work Uuid Unit) :=
    strict_disk _ fun _ h => h
  have hrename : StrictWork p (Work.rename (cache.tempPath setting id n) path : Work Uuid Unit) :=
    strict_disk _ fun _ h => h
  exact hwrite.bind fun _ => hrename.bind fun _ => trivial

theorem strict_createDirAll : StrictWork p (Work.createDirAll : Work Uuid Unit) :=
  strict_disk _ fun _ h => h

theorem strict_ensureWork (record : AchievementRecord Uuid DataHash) :
    StrictWork p (cache.ensureWork setting record) := by
  rw [AudioCache.ensureWork]
  cases cache.pathFor setting record with
  | none => trivial
  | some path =>
    have hexists : StrictWork p (Work.tryExists path : Work Uuid Bool) :=
      strict_disk _ fun _ h => h
    refine hexists.bind fun found => ?_
    split
    · trivial
    · exact strict_createDirAll.bind fun _ => (strict_retrieveAudio record.id).bind fun data =>
        strict_storeWork record.id path data

theorem strict_pruneWork (expected entries : List Path) :
    StrictWork p (AudioCache.pruneWork expected entries : Work Uuid Unit) := by
  have hnext : StrictWork p (Work.nextEntry : Work Uuid Unit) := strict_disk _ fun _ h => h
  induction entries with
  | nil => exact hnext
  | cons path entries ih =>
    refine hnext.bind fun _ => ?_
    split
    · exact fun _ => ⟨fun h => h.elim,ih⟩
    · exact ih

/-- The loop over the records skips refusals only: it ends at an error that severs. -/
theorem strict_ensureAllWork (hfatal : setting.isFatal = p.isFatal) (skipped : List Uuid)
    (records : List (AchievementRecord Uuid DataHash)) :
    StrictWork p (cache.ensureAllWork setting skipped records) := by
  induction records generalizing skipped with
  | nil => trivial
  | cons record records ih =>
    refine (strict_ensureWork record).attempt_bind (fun r => ?_) ?_
    · split
      · exact ih skipped
      · split
        · trivial
        · exact ih _
      · trivial
    · rintro _ ⟨error,rfl,hs⟩
      rcases severs_error_iff.mp hs with rfl | ⟨e,rfl,he⟩
      · exact ⟨_,rfl,hs⟩
      · dsimp only
        rw [if_pos (by rw [hfatal]; exact he)]
        exact ⟨_,rfl,hs⟩

theorem strict_syncWork (hfatal : setting.isFatal = p.isFatal)
    (records : List (AchievementRecord Uuid DataHash)) :
    StrictWork p (cache.syncWork setting records) := by
  have hread : StrictWork p (Work.readDir cache.basePath : Work Uuid (List Path)) :=
    strict_disk _ fun _ h => h
  have hprepare : StrictWork p (cache.prepareWork setting records) :=
    strict_createDirAll.bind fun _ => hread.bind fun _ => strict_pruneWork _ _
  exact hprepare.bind fun _ => strict_ensureAllWork hfatal [] records

end Strict

-- ════════════════════════════════════════════════════════════════════════
-- The hook of a strict program is honest
-- ════════════════════════════════════════════════════════════════════════

section Honest

variable {p : Protocol} {messages : Messages NfcUid Uuid DataHash Record} {host : Host Uuid}
  {next : Except AudioCacheError α → Disk Uuid → Hook} {E : AudioCacheError → Prop}

theorem hookOp_disk {disk : Disk Uuid} {o : CacheOp Uuid}
    {more : CacheOp.Res o → Disk Uuid → Hook} (ho : ∀ id, o ≠ .retrieveAudio id) :
    hookOp p messages host disk o more = diskHook (host.handle o) disk more := by
  cases o with
  | retrieveAudio id => exact absurd rfl (ho id)
  | _ => rfl

/-- A hook that returns `Ok` got past its first operation, and an exchange that operation
damaged told it so. -/
theorem hookOp_accepts {disk : Disk Uuid} {o : CacheOp Uuid}
    {more : CacheOp.Res o → Disk Uuid → Hook} {xs : List Exchange}
    (h : (hookOp p messages host disk o more).Accepts xs) :
    ∃ r disk' ys, (more r disk').Accepts ys ∧
      ∀ x ∈ xs, x ∈ ys ∨ (x.damages p = true → CacheOp.Severing p o r) := by
  by_cases ho : ∃ id, o = .retrieveAudio id
  · obtain ⟨id,rfl⟩ := ho
    cases hm : messages.encodeRetrieveAudio id with
    | error error =>
      simp only [hookOp,hm,Hook.custom] at h
      exact ⟨_,_,xs,h,fun x hx => .inl hx⟩
    | ok frame =>
      simp only [hookOp,hm,Hook.custom] at h
      cases xs with
      | nil => exact absurd h fun h => h
      | cons x xs =>
        cases x with
        | replied raw =>
          refine ⟨_,_,xs,h,fun y hy => ?_⟩
          rcases List.mem_cons.mp hy with rfl | hy
          · exact .inr fun hd => (severs_map_iff _ _).mpr ((severs_decodeResponse _ raw).mpr hd)
          · exact .inl hy
        | failed =>
          refine ⟨_,_,xs,h,fun y hy => ?_⟩
          rcases List.mem_cons.mp hy with rfl | hy
          · exact .inr fun _ => .inl rfl
          · exact .inl hy
        | dropped => exact absurd h (by cases xs <;> exact fun h => h)
  · have ho' : ∀ id, o ≠ .retrieveAudio id := fun id h => ho ⟨id,h⟩
    rw [hookOp_disk ho',diskHook] at h
    revert h
    rcases host.handle o disk with ⟨r,disk'⟩
    intro h
    cases r with
    | ok value => exact ⟨value,disk',xs,h,fun x hx => .inl hx⟩
    | _ => exact absurd h (by cases xs <;> exact fun h => h)

/-- A program that fails is not accepted by a hook that hands the error on. -/
theorem workHook_refuses (hnext : ∀ e disk xs, E e → ¬ (next (.error e) disk).Accepts xs)
    {work : Work Uuid α} (hw : work.Ends (fun _ => False) E) (disk : Disk Uuid)
    (xs : List Exchange) : ¬ (workHook p messages host next work disk).Accepts xs := by
  induction work generalizing disk xs with
  | done a => exact absurd hw id
  | fail e => exact hnext e disk xs hw
  | await o more ih =>
    intro h
    obtain ⟨r,disk',ys,hr,_⟩ := hookOp_accepts h
    exact ih r (hw r) disk' ys hr

theorem workHook_honest (hnext : ∀ e disk xs, Severed p e → ¬ (next (.error e) disk).Accepts xs)
    (hhonest : ∀ r disk, (next r disk).Honest p) {work : Work Uuid α} (hw : StrictWork p work)
    (disk : Disk Uuid) : (workHook p messages host next work disk).Honest p := by
  induction work generalizing disk with
  | done a => exact hhonest _ disk
  | fail e => exact hhonest _ disk
  | await o more ih =>
    intro xs h x hx
    obtain ⟨r,disk',ys,hr,hxs⟩ := hookOp_accepts h
    rcases hxs x hx with hy | hsevers
    · exact ih r (hw r).2 disk' ys hr x hy
    · by_contra hd
      have hbad := hsevers (by simpa using hd)
      exact workHook_refuses hnext ((hw r).1 hbad) disk' ys hr

end Honest

-- ════════════════════════════════════════════════════════════════════════
-- Every stored connection
-- ════════════════════════════════════════════════════════════════════════

namespace Preload

variable (preload : Preload NfcUid Uuid DataHash Record)

/-- The setting of the sync, with the answers of a session as its provider. -/
def answering (audio : ℕ → Uuid → Outcome RequestError (List UInt8)) : Setting Uuid DataHash :=
  { preload.setting with host := preload.setting.host.answering audio }

/-- The files a sync added are what the connection delivered for their records. -/
def Filled (env : Env) (connection : Connection) (t t' : Trace)
    (records : List (AchievementRecord Uuid DataHash)) (s s' : Disk Uuid) : Prop :=
  ∀ path entry, s.files path = none → s'.files path = some entry →
    ∃ record ∈ records, preload.cache.pathFor preload.setting record = some path ∧
      ∃ data, entry = .file data ∧ SentAudio env preload.messages connection t t' record.id data

/-- The sync of the hook, on the disk and the stream of the connection together. -/
def syncOn (env : Env) (connection : Connection) :
    Fut (Disk Uuid × Trace) AudioCacheError (List Uuid) :=
  (preload.cache.syncWork preload.setting
    (preload.records connection.id connection.capabilities)).run
      (sessionHandle env preload.messages preload.setting.host connection)

/-- The hook has run on a connection the server accepted, with the capabilities it declared
there: the sync returned `Ok` and left this disk and this stream, the rest of the hook went
on from them and returned `Ok` as well, and nothing came in between. What the disk saw is a
sync with some provider, so on a disk that removes and lists what it is asked to, the cache
is in line with the records; and what the sync added is what this stream delivered to it. -/
def Ran (env : Env) (c : ℕ) (past : Trace) : Prop :=
  ∃ capabilities skipped disk t t₁ t₂,
    let connection : Connection := ⟨c,capabilities,env.maxPayloadLen⟩
    let records := preload.records c capabilities
    let accepted : Trace := .connectReturned c .accepted :: t
    Declared env c capabilities t ∧
    preload.syncOn env connection (preload.disk c,accepted) = (.ok skipped,disk,t₁) ∧
    (preload.rest skipped disk).run env connection t₁ = (.ok (),t₂) ∧
    .hookReturned c .ok :: t₂ <:+ past ∧
    ∃ audio, preload.cache.sync (preload.answering audio) records (preload.disk c) =
        (.ok skipped,disk) ∧
      (preload.setting.host.Removes →
        preload.setting.host.Lists preload.cache.basePath (preload.disk c)
          ((preload.disk c).clock + 1) →
        Synced (preload.answering audio) preload.cache records skipped (preload.disk c) disk ∧
        preload.Filled env connection accepted t₁ records (preload.disk c) disk)

/-- A connection is stored only behind its preload. -/
def StoredBehind (env : Env) : Event → Trace → Prop
  | .stored c,past => preload.Ran env c past
  | _,_ => True

variable {preload}

/-- A hook that returned `Ok` has synced the cache, and gone on from there. -/
theorem hook_ok {connection : Connection} {t t' : Trace}
    (h : (preload.hook env.protocol connection.id connection.capabilities).run env connection t =
      (.ok (),t')) :
    ∃ skipped disk t₁, preload.syncOn env connection (preload.disk connection.id,t) =
        (.ok skipped,disk,t₁) ∧
      (preload.rest skipped disk).run env connection t₁ = (.ok (),t') := by
  rw [hook,run_workHook] at h
  rw [syncOn]
  revert h
  rcases (preload.cache.syncWork preload.setting
    (preload.records connection.id connection.capabilities)).run
      (sessionHandle env preload.messages preload.setting.host connection)
      (preload.disk connection.id,t) with ⟨r,disk,t₁⟩
  intro h
  cases r with
  | ok skipped => exact ⟨skipped,disk,t₁,rfl,h⟩
  | _ => cases h

theorem ensureAllWork_answering (audio : ℕ → Uuid → Outcome RequestError (List UInt8))
    (skipped : List Uuid) (records : List (AchievementRecord Uuid DataHash)) :
    preload.cache.ensureAllWork (preload.answering audio) skipped records =
      preload.cache.ensureAllWork preload.setting skipped records := by
  induction records generalizing skipped with
  | nil => rfl
  | cons record records ih =>
    have hone : preload.cache.ensureWork (preload.answering audio) record =
        preload.cache.ensureWork preload.setting record := rfl
    have hfatal : (preload.answering audio).isFatal = preload.setting.isFatal := rfl
    simp only [AudioCache.ensureAllWork,hone,hfatal,ih]

/-- The program of the sync is the same for every provider. -/
theorem syncWork_answering (audio : ℕ → Uuid → Outcome RequestError (List UInt8))
    (records : List (AchievementRecord Uuid DataHash)) :
    preload.cache.syncWork (preload.answering audio) records =
      preload.cache.syncWork preload.setting records := by
  have hprepare : preload.cache.prepareWork (preload.answering audio) records =
      preload.cache.prepareWork preload.setting records := rfl
  rw [AudioCache.syncWork,AudioCache.syncWork,hprepare]
  simp only [ensureAllWork_answering]

/-- What the disk saw of the sync is a sync with some provider. -/
theorem exists_sync {connection : Connection} {t t₁ : Trace} {skipped : List Uuid}
    {s disk : Disk Uuid} (h : preload.syncOn env connection (s,t) = (.ok skipped,disk,t₁)) :
    ∃ audio, preload.cache.sync (preload.answering audio)
      (preload.records connection.id connection.capabilities) s = (.ok skipped,disk) := by
  obtain ⟨audio,haudio⟩ := exists_replay env preload.messages preload.setting.host connection
    (preload.cache.syncWork preload.setting
      (preload.records connection.id connection.capabilities)) s t
  refine ⟨audio,?_⟩
  have hrun := haudio audio fun _ _ => rfl
  rw [← syncOn,h] at hrun
  rw [← AudioCache.run_syncWork,syncWork_answering]
  exact hrun

theorem filled_of_synced {connection : Connection} {t t₁ : Trace} {skipped : List Uuid}
    {records : List (AchievementRecord Uuid DataHash)} {s disk : Disk Uuid}
    {audio : ℕ → Uuid → Outcome RequestError (List UInt8)}
    (h : Synced (preload.answering audio) preload.cache records skipped s disk)
    (hd : Downloads env preload.messages connection (s,t) (disk,t₁)) :
    preload.Filled env connection t t₁ records s disk := by
  intro path entry hnone hsome
  obtain ⟨calls,hcalls,hfetched⟩ := h.fetched
  obtain ⟨_,calls',hcalls',hdelivered⟩ := hd
  obtain rfl : calls' = calls := List.append_cancel_right (hcalls'.symm.trans hcalls)
  obtain ⟨⟨record,hr,hp⟩,data,rfl,hmem⟩ := hfetched path entry hnone hsome
  exact ⟨record,hr,hp,data,rfl,hdelivered record.id data (hmem record hp)⟩

theorem ran_of_hooks (henv : env.onConnect = some (preload.hook env.protocol)) {c : ℕ}
    {capabilities : Capabilities} {t t' past : Trace} (hdeclared : Declared env c capabilities t)
    (h : Hooks env ⟨c,capabilities,env.maxPayloadLen⟩ (.connectReturned c .accepted :: t) t')
    (hp : t' <:+ past) : preload.Ran env c past := by
  rcases h with ⟨hnone,_⟩ | ⟨hook,t₂,hsome,hrun,rfl⟩
  · cases henv.symm.trans hnone
  · cases henv.symm.trans hsome
    obtain ⟨skipped,disk,t₁,hwork,hrest⟩ := hook_ok hrun
    obtain ⟨audio,hsync⟩ := exists_sync hwork
    refine ⟨capabilities,skipped,disk,t,t₁,t₂,hdeclared,hwork,hrest,hp,audio,hsync,?_⟩
    intro hrm hls
    have hsynced : Synced (preload.answering audio) preload.cache
        (preload.records c capabilities) skipped (preload.disk c) disk :=
      synced_of_ok hrm hls hsync
    have hd := Program.run_respects
      (sessionHandle_downloads env preload.messages ⟨c,capabilities,env.maxPayloadLen⟩
        preload.setting.host)
      (preload.cache.syncWork preload.setting (preload.records c capabilities))
      (preload.disk c,.connectReturned c .accepted :: t)
    rw [syncOn] at hwork
    rw [hwork] at hd
    exact ⟨hsynced,filled_of_synced hsynced hd⟩

theorem plain_storedBehind {e : Event} (h : e.Plain) (past : Trace) :
    preload.StoredBehind env e past := by
  cases e with
  | stored c => exact absurd h id
  | _ => trivial

theorem round_storedBehind (henv : env.onConnect = some (preload.hook env.protocol))
    {self task : ClientTask} {select : Select} (hr : Round env self select task)
    (h : Always (preload.StoredBehind env) self.trace) :
    Always (preload.StoredBehind env) task.trace := by
  refine hr.always h (fun _ past he => plain_storedBehind he past) (fun _ _ _ _ _ => trivial)
    (fun _ _ _ _ _ _ => trivial) (fun _ _ _ _ _ _ _ => trivial) (fun _ _ _ _ _ => trivial) ?_
  intro config hello t t₁ past hl hh hp
  refine ran_of_hooks henv (hl.declared rfl) hh ?_
  rcases hp with rfl | ⟨status,rfl⟩
  · exact List.suffix_refl _
  · exact List.suffix_cons _ _

/-- In every run, a connection is stored only after its hook has run on it: `sync` has
returned `Ok` over the stream of that connection, and the audio it added to the cache is what
the server sent there since it accepted it. -/
theorem stored_behind_preload (henv : env.onConnect = some (preload.hook env.protocol))
    (initial : Option ConnectionConfig) (rounds : List Select) :
    Always (preload.StoredBehind env) ((build initial).run env rounds).trace :=
  run_induction (P := fun task => Always (preload.StoredBehind env) task.trace)
    (Linked.build initial) (by simp [build])
    (fun _ _ _ _ h hr => round_storedBehind henv hr h) rounds

/-- Audio over the echo of the loopback server, and a disk on which everything works. -/
def loopback : Preload Unit ℕ ℕ Unit where
  messages :=
    { encodeBloop := fun _ => .error ⟨"unused"⟩
      encodeRetrieveAudio := fun id => .ok (Loopback.echo [id.toUInt8,9])
      encodePreloadCheck := fun _ => .error ⟨"unused"⟩
      preloadMatchOpcode := 0x82
      decodeBloopAccepted := fun raw => .error (.unknownOpcode raw.messageType)
      decodeAudioData := Loopback.expect 0x81 fun data => some ⟨data⟩
      decodePreloadMatch := fun raw => .error (.unknownOpcode raw.messageType)
      decodePreloadMismatch := fun raw => .error (.unknownOpcode raw.messageType) }
  setting :=
    { leftoversSetting with
      isFatal := Loopback.protocol.isFatal
      host := { leftoversSetting.host with listing := fun _ => [] } }
  cache := ⟨"cache"⟩
  records _ _ := [⟨2,some 1⟩,⟨4,none⟩]
  disk _ := { files := fun _ => none, tempCounter := 0, clock := 0, requests := [] }
  convert _ := ⟨"sync"⟩
  rest _ _ := .done (.ok ())

def loopbackEnv : Env :=
  { Loopback.env with onConnect := some (loopback.hook Loopback.protocol) }

/-- The loopback connection is stored, behind the request for the one record with audio. -/
theorem stored_behind_preload_loopback :
    let t := ((build (some Loopback.config)).run loopbackEnv [.tick]).trace
    .wrote 0 .session (Loopback.echo [2,9]) .complete ∈ t ∧
      ∃ past, .stored 0 :: past <:+ t ∧ loopback.Ran loopbackEnv 0 past := by
  intro t
  have henv : loopbackEnv.onConnect = some (loopback.hook loopbackEnv.protocol) := rfl
  have hstored : .stored 0 ∈ t := by decide +kernel
  exact ⟨by decide +kernel,(stored_behind_preload henv _ _).of_mem hstored⟩

theorem hook_honest (hfatal : preload.setting.isFatal = env.protocol.isFatal)
    (hrest : ∀ skipped disk, (preload.rest skipped disk).Honest env.protocol) (c : ℕ)
    (capabilities : Capabilities) :
    (preload.hook env.protocol c capabilities).Honest env.protocol := by
  have hfail : ∀ e disk xs, ¬ (preload.after (.error e) disk).Accepts xs := by
    intro e disk xs h
    cases xs <;> exact h
  refine workHook_honest (fun e disk xs _ => hfail e disk xs) ?_
    (strict_syncWork hfatal _) _
  intro r disk
  cases r with
  | ok skipped => exact hrest skipped disk
  | error e => exact fun xs h => absurd h (hfail e disk xs)

/-- A preload that hands the error of `sync` on never has the client store a connection on
which an exchange was cut short or the server announced that it closes it. -/
theorem preload_stored_undamaged (henv : env.onConnect = some (preload.hook env.protocol))
    (hfatal : preload.setting.isFatal = env.protocol.isFatal)
    (hrest : ∀ skipped disk, (preload.rest skipped disk).Honest env.protocol)
    (initial : Option ConnectionConfig) (rounds : List Select) :
    Always (StoredUndamaged env.protocol) ((build initial).run env rounds).trace := by
  refine run_induction (P := fun task => Always (StoredUndamaged env.protocol) task.trace)
    (Linked.build initial) (by simp [build]) ?_ rounds
  intro self select task _ h hr
  refine hr.storedUndamaged ?_ h
  intro hook c capabilities ho _
  cases henv.symm.trans ho
  exact hook_honest hfatal hrest c capabilities

theorem preload_stored_undamaged_loopback :
    .stored 0 ∈ ((build (some Loopback.config)).run loopbackEnv [.tick]).trace ∧
    Always (StoredUndamaged Loopback.protocol)
      ((build (some Loopback.config)).run loopbackEnv [.tick]).trace := by
  have henv : loopbackEnv.onConnect = some (loopback.hook loopbackEnv.protocol) := rfl
  refine ⟨by decide +kernel,preload_stored_undamaged henv rfl ?_ _ _⟩
  intro _ _ xs h x hx
  cases xs with
  | nil => cases hx
  | cons y ys => exact absurd h id

end Preload

end BloopClient

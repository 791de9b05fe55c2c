import BloopClient.Audio.Sync
import BloopClient.Audio.Works
import BloopClient.HookDamage
import BloopClient.Operations

/-!
# Syncing the cache inside the on-connect hook

The cache accepts the session of an on-connect hook as its provider. `Preload` is a hook
that syncs the cache, hands an error on with `?`, and goes on to do anything else. The cache
works on the disk and the session on the stream, and the hook is the two of them together:
what the sync sees of the session is replayed as a provider of its own, so that what holds
of every sync holds of this one.
-/

namespace BloopClient
open Tracelib ClientTask Audio

variable {NfcUid Uuid DataHash Record ε α β : Type}

/-- Requests the audio data for an achievement. -/
def Session.retrieveAudio (env : Env) (messages : Messages NfcUid Uuid DataHash Record)
    (connection : Connection) (achievementId : Uuid) : Fut Trace RequestError (List UInt8) := do
  let audio ← Session.custom env connection (messages.encodeRetrieveAudio achievementId)
    messages.decodeAudioData
  return audio.data

/-- The disk once a download has come to something. -/
def Audio.Disk.answered (self : Disk Uuid) (id : Uuid)
    (r : Outcome RequestError (List UInt8)) : Disk Uuid :=
  { self.tick with requests := (id,r) :: self.requests }

/-- A download that was neither given up nor cut off. -/
def finished : Except RequestError (List UInt8) → Outcome RequestError (List UInt8)
  | .ok data => .ok data
  | .error error => .err error

/-- Something on the disk inside a hook. The hook awaits it to its end, so one that has none
leaves the hook to its deadline. -/
def diskHook (m : Fut (Disk Uuid) ε β) (disk : Disk Uuid) (next : β → Disk Uuid → Hook) : Hook :=
  match m disk with
  | (.ok r,disk) => next r disk
  | _ => .stall

section Hooks

variable (protocol : Protocol) (messages : Messages NfcUid Uuid DataHash Record)
  (host : Host Uuid)

/-- An operation of the cache inside a hook: a request on the session, or something on the
disk. -/
def hookOp (disk : Disk Uuid) : (o : CacheOp Uuid) → (CacheOp.Res o → Disk Uuid → Hook) → Hook
  | .retrieveAudio id,next =>
    Hook.custom protocol (messages.encodeRetrieveAudio id) messages.decodeAudioData fun
      | none => .stall
      | some r => next (r.map (·.data)) (disk.answered id (finished (r.map (·.data))))
  | o,next => diskHook (host.handle o) disk next

/-- A program of the cache as the first part of a hook. -/
def workHook (next : Except AudioCacheError α → Disk Uuid → Hook) :
    Work Uuid α → Disk Uuid → Hook
  | .done a,disk => next (.ok a) disk
  | .fail e,disk => next (.error e) disk
  | .await o more,disk =>
    hookOp protocol messages host disk o fun r disk => workHook next (more r) disk

end Hooks

/-- A hook that syncs the cache first. The records, the disk as the hook finds it, the
conversion `?` makes of an error and the rest of the hook are the application's. -/
structure Preload (NfcUid Uuid DataHash Record : Type) where
  messages : Messages NfcUid Uuid DataHash Record
  setting : Setting Uuid DataHash
  cache : AudioCache
  records : ℕ → Capabilities → List (AchievementRecord Uuid DataHash)
  disk : ℕ → Disk Uuid
  convert : AudioCacheError → OnConnectError
  rest : List Uuid → Disk Uuid → Hook

namespace Preload

variable (preload : Preload NfcUid Uuid DataHash Record)

/-- The hook behind its sync. -/
def after : Except AudioCacheError (List Uuid) → Disk Uuid → Hook
  | .ok skipped,disk => preload.rest skipped disk
  | .error error,_ => .done (.error (preload.convert error))

def hook (protocol : Protocol) (c : ℕ) (capabilities : Capabilities) : Hook :=
  workHook protocol preload.messages preload.setting.host preload.after
    (preload.cache.syncWork preload.setting (preload.records c capabilities)) (preload.disk c)

end Preload

-- ════════════════════════════════════════════════════════════════════════
-- The disk and the stream together
-- ════════════════════════════════════════════════════════════════════════

/-- A future on the disk leaves the stream alone. -/
def onDisk (m : Fut (Disk Uuid) ε β) : Fut (Disk Uuid × Trace) ε β := fun s =>
  ((m s.1).1,(m s.1).2,s.2)

section Together

variable (env : Env) (messages : Messages NfcUid Uuid DataHash Record) (host : Host Uuid)
  (connection : Connection)

/-- A download on the session, on the record of the disk. -/
def download (id : Uuid) :
    Fut (Disk Uuid × Trace) AudioCacheError (Except RequestError (List UInt8)) := fun s =>
  let answer := Session.retrieveAudio env messages connection id
  ((answer.attempt s.2 : Outcome AudioCacheError _ × Trace).1,
    s.1.answered id (answer s.2).1,(answer s.2).2)

/-- The operations of the cache with the session as its provider. -/
def sessionHandle : (o : CacheOp Uuid) → Fut (Disk Uuid × Trace) AudioCacheError (CacheOp.Res o)
  | .retrieveAudio id => download env messages connection id
  | o => onDisk (host.handle o)

/-- The hook goes on behind an operation that came to something, and waits for its deadline
otherwise. -/
def goOn (next : β → Disk Uuid → Hook) :
    Outcome ε β × Disk Uuid × Trace → Outcome OnConnectError Unit × Trace
  | (.ok r,disk,t) => (next r disk).run env connection t
  | (_,_,t) => (.elapsed,t)

/-- The hook goes on behind a program that ended. -/
def resume (next : Except AudioCacheError α → Disk Uuid → Hook) :
    Outcome AudioCacheError α × Disk Uuid × Trace → Outcome OnConnectError Unit × Trace
  | (.ok a,disk,t) => (next (.ok a) disk).run env connection t
  | (.err e,disk,t) => (next (.error e) disk).run env connection t
  | (_,_,t) => (.elapsed,t)

variable (disk : Disk Uuid) (t : Trace)

theorem run_diskHook (m : Fut (Disk Uuid) ε β) (next : β → Disk Uuid → Hook) :
    (diskHook m disk next).run env connection t =
      goOn env connection next (onDisk m (disk,t)) := by
  simp only [diskHook,onDisk]
  rcases m disk with ⟨r,disk₁⟩
  cases r <;> rfl

theorem run_hookOp (o : CacheOp Uuid) (next : CacheOp.Res o → Disk Uuid → Hook) :
    (hookOp env.protocol messages host disk o next).run env connection t =
      goOn env connection next (sessionHandle env messages host connection o (disk,t)) := by
  cases o with
  | retrieveAudio id =>
    rw [hookOp,Hook.run_custom,sessionHandle]
    simp only [download,Session.retrieveAudio,Fut.attempt,Fut.bind_apply]
    rcases Session.custom env connection (messages.encodeRetrieveAudio id)
      messages.decodeAudioData t with ⟨r,t₁⟩
    cases r <;> rfl
  | fetchAdd => exact run_diskHook env connection disk t (host.handle .fetchAdd) next
  | _ => exact run_diskHook env connection disk t _ next

theorem sessionHandle_total : Program.Total (sessionHandle env messages host connection) := by
  intro o s e
  cases o with
  | retrieveAudio id =>
    simp only [sessionHandle,download,Fut.attempt]
    rcases Session.retrieveAudio env messages connection id s.2 with ⟨r,t₁⟩
    cases r <;> simp
  | _ => exact host.handle_total _ s.1 e

variable {disk t}

/-- Running the hook of a program runs the program on the disk and the stream. -/
theorem run_workHook (next : Except AudioCacheError α → Disk Uuid → Hook) (work : Work Uuid α) :
    (workHook env.protocol messages host next work disk).run env connection t =
      resume env connection next
        (work.run (sessionHandle env messages host connection) (disk,t)) := by
  induction work generalizing disk t with
  | done a => rfl
  | fail e => rfl
  | await o more ih =>
    have htotal := sessionHandle_total env messages host connection o (disk,t)
    rw [workHook,run_hookOp,Program.run,Fut.bind_apply]
    rcases hr : sessionHandle env messages host connection o (disk,t) with ⟨r,disk₁,t₁⟩
    rw [hr] at htotal
    cases r with
    | ok value => exact ih value
    | err e => exact absurd rfl (htotal e)
    | dropped => rfl
    | elapsed => rfl

end Together

-- ════════════════════════════════════════════════════════════════════════
-- The session as a provider of its own
-- ════════════════════════════════════════════════════════════════════════

/-- Time passed on the disk, and nothing was downloaded. -/
def Audio.Disk.Works (s s' : Disk Uuid) : Prop := s.clock ≤ s'.clock ∧ s'.requests = s.requests

instance : Std.Refl (@Disk.Works Uuid) := ⟨fun _ => ⟨le_rfl,rfl⟩⟩

instance : IsTrans (Disk Uuid) Disk.Works :=
  ⟨fun _ _ _ h h' => ⟨h.1.trans h'.1,h'.2.trans h.2⟩⟩

namespace Audio.Host

variable (host : Host Uuid)

theorem operate_works {effect : Disk Uuid → Disk Uuid} (he : ∀ s : Disk Uuid, s.Works (effect s)) :
    (host.operate effect).Respects Disk.Works := by
  intro s
  have htick : s.Works s.tick := ⟨Nat.le_succ _,rfl⟩
  rw [operate]
  dsimp only
  split
  · exact IsTrans.trans _ _ _ htick (he _)
  · exact htick

theorem operate_id_works : (host.operate id).Respects Disk.Works :=
  host.operate_works fun _ => ⟨le_rfl,rfl⟩

theorem write_works (path : Path) (data : List UInt8) :
    (host.write path data).Respects Disk.Works := by
  intro s
  rw [write]
  split
  · exact ⟨Nat.le_succ _,rfl⟩
  · dsimp only
    split <;> exact ⟨Nat.le_succ _,rfl⟩

theorem removeFile_works (path : Path) :
    (host.removeFile path : Fut _ AudioCacheError Unit).Respects Disk.Works := by
  intro s
  have hrest : s.Works (if host.took s.clock then s.tick.set path none else s.tick) := by
    split <;> exact ⟨Nat.le_succ _,rfl⟩
  rw [removeFile]
  cases host.remove s.clock with
  | ok _ => exact ⟨Nat.le_succ _,rfl⟩
  | _ => exact hrest

/-- Only a download is a download. -/
theorem handle_works {o : CacheOp Uuid} (ho : ∀ id, o ≠ .retrieveAudio id) :
    (host.handle o).Respects Disk.Works := by
  cases o with
  | retrieveAudio id => exact absurd rfl (ho id)
  | tryExists path =>
    refine Fut.Respects.attempt (host.operate_id_works.bind fun _ => ?_)
    exact fun _ => ⟨le_rfl,rfl⟩
  | createDirAll => exact host.operate_id_works.attempt
  | readDir dir =>
    refine Fut.Respects.attempt fun s => ?_
    exact (host.operate_id_works.bind fun _ => Fut.Respects.pure _) s
  | nextEntry => exact host.operate_id_works.attempt
  | removeFile path => exact host.removeFile_works path
  | fetchAdd => exact fun _ => ⟨le_rfl,rfl⟩
  | write path data => exact (host.write_works path data).attempt
  | rename source target =>
    have hmove : ∀ s : Disk Uuid, s.Works ((s.set source none).set target (s.files source)) :=
      fun _ => ⟨le_rfl,rfl⟩
    exact (host.operate_works hmove).attempt

/-- The host with another provider. -/
def answering (audio : ℕ → Uuid → Outcome RequestError (List UInt8)) : Host Uuid :=
  { host with audio }

theorem handle_answering {o : CacheOp Uuid} (ho : ∀ id, o ≠ .retrieveAudio id)
    (audio : ℕ → Uuid → Outcome RequestError (List UInt8)) :
    (host.answering audio).handle o = host.handle o := by
  cases o with
  | retrieveAudio id => exact absurd rfl (ho id)
  | _ => rfl

end Audio.Host

section Replay

variable (env : Env) (messages : Messages NfcUid Uuid DataHash Record) (host : Host Uuid)
  (connection : Connection)

theorem sessionHandle_disk {o : CacheOp Uuid} (ho : ∀ id, o ≠ .retrieveAudio id) :
    sessionHandle env messages host connection o = onDisk (host.handle o) := by
  cases o with
  | retrieveAudio id => exact absurd rfl (ho id)
  | _ => rfl

/-- A provider that answers at its time what the session did makes the same of a download. -/
theorem handle_download {audio : ℕ → Uuid → Outcome RequestError (List UInt8)} {id : Uuid}
    {disk : Disk Uuid} {t : Trace}
    (h : audio disk.clock id = (Session.retrieveAudio env messages connection id t).1) :
    (host.answering audio).handle (.retrieveAudio id) disk =
      ((download env messages connection id (disk,t)).1,
        (download env messages connection id (disk,t)).2.1) := by
  have hr : (host.answering audio).retrieveAudio id disk =
      (audio disk.clock id,disk.answered id (audio disk.clock id)) := rfl
  simp only [Host.handle,download,Fut.attempt,hr,h]
  rcases Session.retrieveAudio env messages connection id t with ⟨r,t₁⟩
  cases r <;> rfl

/-- What the session answers is what some provider answers: with it the program does the
same to the disk. Only the answers from now on matter, which carries the induction. -/
theorem exists_replay (work : Work Uuid α) (disk : Disk Uuid) (t : Trace) :
    ∃ audio : ℕ → Uuid → Outcome RequestError (List UInt8), ∀ audio',
      (∀ n, disk.clock ≤ n → audio' n = audio n) →
      work.run (host.answering audio').handle disk =
        ((work.run (sessionHandle env messages host connection) (disk,t)).1,
          (work.run (sessionHandle env messages host connection) (disk,t)).2.1) := by
  induction work generalizing disk t with
  | done a => exact ⟨host.audio,fun _ _ => rfl⟩
  | fail e => exact ⟨host.audio,fun _ _ => rfl⟩
  | await o more ih =>
    by_cases ho : ∃ id, o = .retrieveAudio id
    · obtain ⟨id,rfl⟩ := ho
      have hstep : ∀ {audio : ℕ → Uuid → Outcome RequestError (List UInt8)},
          audio disk.clock id = (Session.retrieveAudio env messages connection id t).1 → _ :=
        fun h => handle_download env messages host connection h
      have hclock : (download env messages connection id (disk,t)).2.1.clock = disk.clock + 1 := rfl
      simp only [Program.run,Fut.bind_apply,sessionHandle]
      revert hstep hclock
      rcases download env messages connection id (disk,t) with ⟨r,disk₁,t₁⟩
      intro hstep hclock
      cases r with
      | ok value =>
        obtain ⟨audio,haudio⟩ := ih value disk₁ t₁
        refine ⟨Function.update audio disk.clock fun _ =>
          (Session.retrieveAudio env messages connection id t).1,fun audio' h => ?_⟩
        rw [hstep (by rw [h _ le_rfl,Function.update_self])]
        refine haudio audio' fun n hn => ?_
        have hlt : disk.clock < n := by
          have : disk.clock + 1 ≤ n := hclock ▸ hn
          exact this
        rw [h n hlt.le,Function.update_of_ne hlt.ne']
      | _ =>
        refine ⟨fun _ _ => (Session.retrieveAudio env messages connection id t).1,
          fun audio' h => ?_⟩
        rw [hstep (by rw [h _ le_rfl])]
    · have ho' : ∀ id, o ≠ .retrieveAudio id := fun id h => ho ⟨id,h⟩
      have hclock := (host.handle_works ho' disk).1
      simp only [Program.run,Fut.bind_apply,host.handle_answering ho',
        sessionHandle_disk env messages host connection ho',onDisk]
      revert hclock
      rcases host.handle o disk with ⟨r,disk₁⟩
      intro hclock
      cases r with
      | ok value =>
        obtain ⟨audio,haudio⟩ := ih value disk₁ t
        exact ⟨audio,fun audio' h => haudio audio' fun n hn => h n (hclock.trans hn)⟩
      | _ => exact ⟨host.audio,fun _ _ => rfl⟩

end Replay

-- ════════════════════════════════════════════════════════════════════════
-- What was downloaded came in on the connection
-- ════════════════════════════════════════════════════════════════════════

section Deliveries

variable (env : Env) (messages : Messages NfcUid Uuid DataHash Record) (connection : Connection)

/-- Between two moments the achievement was asked for on the connection, and the frame read
right behind that is the data. -/
def SentAudio (t t' : Trace) (id : Uuid) (data : List UInt8) : Prop :=
  ∃ frame raw past, messages.encodeRetrieveAudio id = .ok frame ∧
    decodeResponse env.protocol messages.decodeAudioData raw = .ok ⟨data⟩ ∧
    t <:+ past ∧ exchangeTrace connection .session frame (some raw) past <:+ t'

/-- Every download that returned data was delivered. -/
def Downloads (s s' : Disk Uuid × Trace) : Prop :=
  s.2 <:+ s'.2 ∧ ∃ calls, s'.1.requests = calls ++ s.1.requests ∧
    ∀ id data, (id,.ok data) ∈ calls → SentAudio env messages connection s.2 s'.2 id data

variable {env messages connection}

theorem SentAudio.mono {t₀ t t' t₁ : Trace} {id : Uuid} {data : List UInt8}
    (h : SentAudio env messages connection t t' id data) (h₀ : t₀ <:+ t) (h₁ : t' <:+ t₁) :
    SentAudio env messages connection t₀ t₁ id data := by
  obtain ⟨frame,raw,past,he,hd,hp,hx⟩ := h
  exact ⟨frame,raw,past,he,hd,h₀.trans hp,hx.trans h₁⟩

instance : Std.Refl (Downloads env messages connection) :=
  ⟨fun s => ⟨List.suffix_refl _,[],rfl,by simp⟩⟩

instance : IsTrans (Disk Uuid × Trace) (Downloads env messages connection) where
  trans := by
    rintro s s₁ s₂ ⟨ht,calls,hr,hd⟩ ⟨ht',calls',hr',hd'⟩
    refine ⟨ht.trans ht',calls' ++ calls,by rw [hr',hr,List.append_assoc],?_⟩
    intro id data hm
    rcases List.mem_append.mp hm with hm | hm
    · exact (hd' id data hm).mono ht (List.suffix_refl _)
    · exact (hd id data hm).mono (List.suffix_refl _) ht'

variable (env messages connection)

/-- A typed request of a session that returned a value has read it right behind its frame. -/
theorem custom_exchanged {M : Type} (message : Except EncodeError RawMessage)
    (decode : RawMessage → Except MessageSetError M) (t : Trace) :
    t <:+ (Session.custom env connection message decode t).2 ∧
      ∀ value, (Session.custom env connection message decode t).1 = .ok value →
        ∃ frame raw, message = .ok frame ∧ decodeResponse env.protocol decode raw = .ok value ∧
          (Session.custom env connection message decode t).2 =
            exchangeTrace connection .session frame (some raw) t := by
  cases message with
  | error error => exact ⟨List.suffix_refl _,by intro value h; cases h⟩
  | ok frame =>
    have hx := requestRaw_exchanged env connection .session frame t
    have hs : Session.custom env connection (.ok frame) decode t =
        ((Session.requestRaw env connection frame >>= fun raw =>
          Fut.lift (decodeResponse env.protocol decode raw)) t) := rfl
    rw [hs,Fut.bind_apply]
    simp only [Session.requestRaw,Fut.mapErr]
    revert hx
    rcases connection.requestRaw env .session frame t with ⟨r,t₁⟩
    intro hx
    have ht : t <:+ t₁ := by
      cases hx with
      | replied => exact (List.suffix_cons _ _).trans (List.suffix_cons _ _)
      | unanswered _ => exact (List.suffix_cons _ _).trans (List.suffix_cons _ _)
      | unsent _ => exact List.suffix_cons _ _
    cases r with
    | ok raw =>
      have ht₁ : t₁ = exchangeTrace connection .session frame (some raw) t := by
        cases hx with
        | replied => rfl
        | unanswered hr => exact absurd rfl (hr raw)
        | unsent hr => exact absurd rfl (hr raw)
      simp only [Outcome.mapErr]
      cases hd : decodeResponse env.protocol decode raw with
      | ok value =>
        refine ⟨ht,fun value' h => ?_⟩
        cases h
        exact ⟨frame,raw,rfl,hd,ht₁⟩
      | error error => exact ⟨ht,by intro value h; cases h⟩
    | _ => exact ⟨ht,by intro value h; cases h⟩

theorem download_downloads (id : Uuid) :
    (download env messages connection id).Respects (Downloads env messages connection) := by
  rintro ⟨disk,t⟩
  obtain ⟨ht,hok⟩ := custom_exchanged env connection (messages.encodeRetrieveAudio id)
    messages.decodeAudioData t
  simp only [download,Session.retrieveAudio,Fut.bind_apply]
  revert ht hok
  rcases Session.custom env connection (messages.encodeRetrieveAudio id)
    messages.decodeAudioData t with ⟨r,t₁⟩
  intro ht hok
  cases r with
  | ok audio =>
    obtain ⟨frame,raw,hf,hd,rfl⟩ := hok audio rfl
    refine ⟨ht,[(id,.ok audio.data)],rfl,?_⟩
    intro id' data hm
    cases List.mem_singleton.mp hm
    exact ⟨frame,raw,t,hf,hd,List.suffix_refl _,List.suffix_refl _⟩
  | err error => exact ⟨ht,[(id,.err error)],rfl,by simp⟩
  | dropped => exact ⟨ht,[(id,.dropped)],rfl,by simp⟩
  | elapsed => exact ⟨ht,[(id,.elapsed)],rfl,by simp⟩

theorem sessionHandle_downloads (host : Host Uuid) (o : CacheOp Uuid) :
    (sessionHandle env messages host connection o).Respects
      (Downloads env messages connection) := by
  by_cases ho : ∃ id, o = .retrieveAudio id
  · obtain ⟨id,rfl⟩ := ho
    exact download_downloads env messages connection id
  · have ho' : ∀ id, o ≠ .retrieveAudio id := fun id h => ho ⟨id,h⟩
    rw [sessionHandle_disk env messages host connection ho']
    exact fun s => ⟨List.suffix_refl _,[],(host.handle_works ho' s.1).2,by simp⟩

end Deliveries

end BloopClient

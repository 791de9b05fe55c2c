import BloopClient.Audio.Races
import BloopClient.Tracelib.Emulation

/-!
# A call on its own

What `ensure` and `sync` do on a disk of their own, as `Audio.Cache` has it, is one of the
things they can do among other calls: whatever the host lets a call come to, some turns of
it in a process come to, with the same files and the same counter.
-/

namespace BloopClient.Audio
open Tracelib AudioCache

variable {Uuid DataHash α : Type} {setting : Setting Uuid DataHash} {host : Host Uuid} {i : ℕ}
  {shop : Shop Uuid} {disk : Disk Uuid} {cache : AudioCache} {path : Path}

/-- A process and a disk with the same files and the same counter. -/
structure Agree (shop : Shop Uuid) (disk : Disk Uuid) : Prop where
  files : shop.files = disk.files
  counter : shop.tempCounter = disk.tempCounter

/-- No write is under way besides. -/
structure Alike (shop : Shop Uuid) (disk : Disk Uuid) : Prop extends Agree shop disk where
  idle : shop.created = []

theorem Alike.tick (h : Alike shop disk) : Alike shop disk.tick :=
  ⟨⟨h.files,h.counter⟩,h.idle⟩

/-- Call `i` can follow the host through a program. -/
abbrev Emulates (host : Host Uuid) (i : ℕ) (post : α → Shop Uuid → Disk Uuid → Prop)
    (work : Work Uuid α) (shop : Shop Uuid) (disk : Disk Uuid) : Prop :=
  Emulated machine host.handle i post (fun _ => Alike) Agree work shop disk

/-- What the host decides about an operation without an effect. -/
def handed {ε β : Type} (value : β) (failed : IoError → β) : Outcome IoError Unit → Outcome ε β
  | .ok _ => .ok value
  | .err error => .ok (failed error)
  | .dropped => .dropped
  | .elapsed => .elapsed

section Operations

/-- One operation whose error is propagated. -/
theorem emulates_call {o : CacheOp Uuid} {f : CacheOp.Res o → Except AudioCacheError α}
    {post : α → Shop Uuid → Disk Uuid → Prop}
    (hok : ∀ r d, host.handle o disk = (.ok r,d) → ∃ cs fate shop',
      machine.act i fate o (touches machine i o shop cs) = some (r,shop') ∧ Alike shop' d ∧
        ∀ a, f r = .ok a → post a shop' d)
    (hcut : ∀ d, host.handle o disk = (.dropped,d) ∨ host.handle o disk = (.elapsed,d) →
      ∃ shop', Leaves machine i o shop shop' ∧ Agree shop' d) :
    Emulates host i post (Program.perform o >>= fun r => .lift (f r)) shop disk := by
  refine ⟨?_,hcut⟩
  intro r d hr
  obtain ⟨cs,fate,shop',ha,halike,hpost⟩ := hok r d hr
  exact ⟨cs,fate,shop',ha,.lift hpost fun _ _ => halike⟩

/-- An operation that changes nothing. -/
theorem emulates_still {o : CacheOp Uuid} {f : CacheOp.Res o → Except AudioCacheError α}
    (h : Alike shop disk) (value : CacheOp.Res o) (failed : IoError → CacheOp.Res o)
    (hhandle : host.handle o disk = (handed value failed (host.io disk.clock),disk.tick))
    (hvalue : ∃ fate, Shop.act i fate o shop = some (value,shop))
    (hfailed : ∀ error, ∃ fate, Shop.act i fate o shop = some (failed error,shop)) :
    Emulates host i (fun _ => Alike) (Program.perform o >>= fun r => .lift (f r)) shop disk := by
  have htick : Alike shop disk.tick := h.tick
  refine emulates_call ?_ ?_
  · intro r d hr
    rw [hhandle] at hr
    cases hio : host.io disk.clock with
    | ok u =>
      rw [hio] at hr
      cases hr
      obtain ⟨fate,ha⟩ := hvalue
      exact ⟨[],fate,shop,ha,htick,fun _ _ => htick⟩
    | err error =>
      rw [hio] at hr
      cases hr
      obtain ⟨fate,ha⟩ := hfailed error
      exact ⟨[],fate,shop,ha,htick,fun _ _ => htick⟩
    | _ =>
      rw [hio] at hr
      cases hr
  · intro d hd
    have hd' : d = disk.tick := by
      rw [hhandle] at hd
      rcases hd with hd | hd <;> exact (congrArg Prod.snd hd).symm
    subst hd'
    exact ⟨shop,⟨[],.inl rfl⟩,htick.toAgree⟩

theorem emulates_tryExists (h : Alike shop disk) (path : Path) :
    Emulates host i (fun _ => Alike) (Work.tryExists path) shop disk := by
  refine emulates_still h (.ok (shop.files path).isSome) .error ?_ ⟨.succeed,rfl⟩
    (fun error => ⟨.fail error false,rfl⟩)
  have hlook : host.tryExists path = Fut.bind (host.operate id)
      fun _ s => (.ok (s.files path).isSome,s) := rfl
  rw [h.files]
  simp only [Host.handle,Fut.attempt,hlook,Fut.bind,Host.operate,id_eq,ite_self]
  cases host.io disk.clock <;> rfl

theorem emulates_createDirAll (h : Alike shop disk) :
    Emulates host i (fun _ => Alike) Work.createDirAll shop disk := by
  refine emulates_still h (.ok ()) .error ?_ ⟨.succeed,rfl⟩ (fun error => ⟨.fail error false,rfl⟩)
  simp only [Host.handle,Fut.attempt,Host.createDirAll,Host.operate,id_eq,ite_self]
  cases host.io disk.clock <;> rfl

theorem emulates_nextEntry (h : Alike shop disk) :
    Emulates host i (fun _ => Alike) Work.nextEntry shop disk := by
  refine emulates_still h (.ok ()) .error ?_ ⟨.succeed,rfl⟩ (fun error => ⟨.fail error false,rfl⟩)
  simp only [Host.handle,Fut.attempt,Host.nextEntry,Host.operate,id_eq,ite_self]
  cases host.io disk.clock <;> rfl

theorem emulates_readDir (h : Alike shop disk) (dir : String) :
    Emulates host i (fun _ => Alike) (Work.readDir dir) shop disk := by
  refine emulates_still h (.ok ((host.listing disk.clock).map (Path.mk dir))) .error ?_
    ⟨.list (host.listing disk.clock),rfl⟩ (fun error => ⟨.fail error false,rfl⟩)
  simp only [Host.handle,Fut.attempt,Host.readDir,Fut.bind_apply,Host.operate,id_eq,ite_self]
  cases host.io disk.clock <;> rfl

/-- Removing what is not there changes nothing. -/
theorem Shop.remove_files (shop : Shop Uuid) (path : Path) :
    (shop.remove path).files = Function.update shop.files path none := by
  unfold Shop.remove
  split
  · next hnone => rw [← hnone,Function.update_eq_self]
  · rfl

theorem Alike.remove (h : Alike shop disk) (path : Path) :
    Alike (shop.remove path) (disk.tick.set path none) := by
  refine ⟨⟨?_,?_⟩,?_⟩
  · rw [Shop.remove_files,h.files]
    rfl
  · unfold Shop.remove
    split <;> exact h.counter
  · unfold Shop.remove
    split <;> exact h.idle

theorem emulates_removeFile (h : Alike shop disk) (path : Path) :
    Emulates host i (fun _ => Alike) (Work.removeFile path) shop disk := by
  have hremoved : Alike (shop.remove path) (disk.tick.set path none) := h.remove path
  have htick : Alike shop disk.tick := h.tick
  have hleft : Leaves machine i (.removeFile path) shop (shop.remove path) :=
    ⟨[],.inr ⟨.succeed,(),rfl⟩⟩
  constructor
  · intro r d hr
    simp only [Host.handle,Host.removeFile] at hr
    cases hrm : host.remove disk.clock with
    | ok u =>
      rw [hrm] at hr
      cases hr
      exact ⟨[],.succeed,_,rfl,hremoved⟩
    | err error =>
      rw [hrm] at hr
      cases ht : host.took disk.clock with
      | true =>
        rw [ht] at hr
        cases hr
        exact ⟨[],.fail error true,_,rfl,hremoved⟩
      | false =>
        rw [ht] at hr
        cases hr
        exact ⟨[],.fail error false,_,rfl,htick⟩
    | _ =>
      rw [hrm] at hr
      cases hr
  · intro d hd
    have hd' : d = if host.took disk.clock then disk.tick.set path none else disk.tick := by
      simp only [Host.handle,Host.removeFile] at hd
      cases hrm : host.remove disk.clock <;> rw [hrm] at hd <;> rcases hd with hd | hd <;>
        cases hd <;> rfl
    subst hd'
    cases host.took disk.clock with
    | true => exact ⟨_,hleft,hremoved.toAgree⟩
    | false => exact ⟨shop,⟨[],.inl rfl⟩,htick.toAgree⟩

theorem emulates_retrieveAudio (h : Alike shop disk) (id : Uuid) :
    Emulates host i (fun _ => Alike) (Work.retrieveAudio id) shop disk := by
  refine emulates_call ?_ ?_
  · intro r d hr
    simp only [Host.handle,Fut.attempt,Host.retrieveAudio] at hr
    cases haudio : host.audio disk.clock id with
    | ok data =>
      rw [haudio] at hr
      cases hr
      have halike : Alike (shop.download id data)
          { disk.tick with requests := (id,.ok data) :: disk.requests } :=
        ⟨⟨h.files,h.counter⟩,h.idle⟩
      exact ⟨[],.reply data,_,rfl,halike,fun _ _ => halike⟩
    | err error =>
      rw [haudio] at hr
      cases hr
      have halike : Alike shop
          { disk.tick with requests := (id,.err error) :: disk.requests } :=
        ⟨⟨h.files,h.counter⟩,h.idle⟩
      exact ⟨[],.refuse error,_,rfl,halike,fun _ _ => halike⟩
    | _ =>
      rw [haudio] at hr
      cases hr
  · intro d hd
    have hfiles : d.files = disk.files ∧ d.tempCounter = disk.tempCounter := by
      simp only [Host.handle,Fut.attempt,Host.retrieveAudio] at hd
      cases haudio : host.audio disk.clock id <;> rw [haudio] at hd <;> rcases hd with hd | hd <;>
        cases hd <;> exact ⟨rfl,rfl⟩
    exact ⟨shop,⟨[],.inl rfl⟩,h.files.trans hfiles.1.symm,h.counter.trans hfiles.2.symm⟩

theorem emulates_fetchAdd (h : Alike shop disk) :
    Emulates host i (fun _ => Alike) Work.fetchAdd shop disk := by
  constructor
  · intro r d hr
    cases hr
    refine ⟨[],.succeed,shop.fetch i,?_,⟨h.files,?_⟩,h.idle⟩
    · show some (shop.tempCounter,shop.fetch i) = some (disk.tempCounter,shop.fetch i)
      rw [h.counter]
    · show shop.tempCounter + 1 = disk.tempCounter + 1
      rw [h.counter]
  · intro d hd
    rcases hd with hd | hd <;> cases hd

/-- A write that has got so far, if none was under way before. -/
theorem Alike.put (h : Alike shop disk) (path : Path) (data : List UInt8) :
    Alike ((shop.put path data).close path) (disk.tick.set path (some (.file data))) ∧
      (shop.put path data).files = (disk.tick.set path (some (.file data))).files ∧
      (shop.put path data).tempCounter = disk.tempCounter := by
  have hput : shop.put path data = { shop with
      files := Function.update shop.files path (some (.file data))
      created := path :: shop.created } := by
    unfold Shop.put
    rw [if_neg]
    rintro ⟨hm,_⟩
    rw [h.idle] at hm
    cases hm
  have hfiles : Function.update shop.files path (some (.file data)) =
      (disk.tick.set path (some (.file data))).files := by
    rw [h.files]
    rfl
  rw [hput]
  refine ⟨⟨⟨hfiles,h.counter⟩,?_⟩,hfiles,h.counter⟩
  simp [Shop.close,h.idle]

theorem Alike.close (h : Alike shop disk) (path : Path) : Alike (shop.close path) disk.tick := by
  refine ⟨⟨h.files,h.counter⟩,?_⟩
  simp [Shop.close,h.idle]

theorem emulates_write (h : Alike shop disk) (path : Path) (data : List UInt8) :
    Emulates host i (fun _ shop disk => Alike shop disk ∧ disk.files path ≠ none)
      (Work.write path data) shop disk := by
  obtain ⟨hwhole,_⟩ := h.put path data
  obtain ⟨hpart,hfiles,hcounter⟩ := h.put path (data.take (host.written disk.clock))
  have htick : Alike (shop.close path) disk.tick := h.close path
  refine emulates_call ?_ ?_
  · intro r d hr
    simp only [Host.handle,Fut.attempt,Host.write] at hr
    cases hio : host.io disk.clock with
    | ok u =>
      rw [hio] at hr
      cases hr
      refine ⟨[],.succeed,_,rfl,hwhole,fun _ _ => ⟨hwhole,?_⟩⟩
      simp
    | err error =>
      rw [hio] at hr
      cases ht : host.took disk.clock with
      | true =>
        rw [ht] at hr
        cases hr
        exact ⟨[.part (host.written disk.clock)],.fail error false,_,rfl,hpart,
          fun a ha => by cases ha⟩
      | false =>
        rw [ht] at hr
        cases hr
        exact ⟨[],.fail error false,_,rfl,htick,fun a ha => by cases ha⟩
    | _ =>
      rw [hio] at hr
      cases hr
  · intro d hd
    have hd' : d = if host.took disk.clock then
        disk.tick.set path (some (.file (data.take (host.written disk.clock))))
        else disk.tick := by
      simp only [Host.handle,Fut.attempt,Host.write] at hd
      cases hio : host.io disk.clock <;> rw [hio] at hd <;> rcases hd with hd | hd <;>
        cases hd <;> rfl
    subst hd'
    cases host.took disk.clock with
    | true => exact ⟨_,⟨[.part (host.written disk.clock)],.inl rfl⟩,hfiles,hcounter⟩
    | false => exact ⟨shop,⟨[],.inl rfl⟩,h.files,h.counter⟩

theorem emulates_rename (h : Alike shop disk) {source : Path} (hsource : disk.files source ≠ none)
    (target : Path) :
    Emulates host i (fun _ => Alike) (Work.rename source target) shop disk := by
  have hthere : shop.files source ≠ none := by
    rw [h.files]
    exact hsource
  have hmoved : Alike (shop.move source target)
      ((disk.tick.set source none).set target (disk.tick.files source)) := by
    refine ⟨⟨?_,h.counter⟩,h.idle⟩
    rw [Shop.move,h.files]
    rfl
  have htick : Alike shop disk.tick := h.tick
  have hleft : Leaves machine i (.rename source target) shop (shop.move source target) := by
    refine ⟨[],.inr ⟨.succeed,.ok (),?_⟩⟩
    simp [touches,machine,Shop.act,hthere]
  refine emulates_call ?_ ?_
  · intro r d hr
    simp only [Host.handle,Fut.attempt,Host.rename,Host.operate] at hr
    cases hio : host.io disk.clock with
    | ok u =>
      simp only [hio,true_or,if_true] at hr
      cases hr
      refine ⟨[],.succeed,shop.move source target,?_,hmoved,fun _ _ => hmoved⟩
      simp [touches,machine,Shop.act,hthere]
    | err error =>
      cases ht : host.took disk.clock with
      | true =>
        simp only [hio,ht,or_true,if_true] at hr
        cases hr
        refine ⟨[],.fail error true,shop.move source target,?_,hmoved,fun a ha => by cases ha⟩
        simp [touches,machine,Shop.act,hthere]
      | false =>
        simp only [hio,ht,reduceCtorEq,or_false,Bool.false_eq_true,if_false] at hr
        cases hr
        refine ⟨[],.fail error false,shop,?_,htick,fun a ha => by cases ha⟩
        simp [touches,machine,Shop.act,hthere]
    | _ =>
      simp only [hio] at hr
      cases hr
  · intro d hd
    have hd' : d = if host.took disk.clock then
        (disk.tick.set source none).set target (disk.tick.files source) else disk.tick := by
      simp only [Host.handle,Fut.attempt,Host.rename,Host.operate] at hd
      cases hio : host.io disk.clock <;> simp only [hio] at hd <;> rcases hd with hd | hd <;>
        cases hd <;> simp
    subst hd'
    cases host.took disk.clock with
    | true => exact ⟨_,hleft,hmoved.toAgree⟩
    | false => exact ⟨shop,⟨[],.inl rfl⟩,htick.toAgree⟩

end Operations

-- ════════════════════════════════════════════════════════════════════════
-- The programs
-- ════════════════════════════════════════════════════════════════════════

section Works

variable (setting : Setting Uuid DataHash) (cache : AudioCache)

theorem emulates_store (h : Alike shop disk) (id : Uuid) (path : Path) (data : List UInt8) :
    Emulates host i (fun _ => Alike) (cache.storeWork setting id path data) shop disk := by
  refine (emulates_fetchAdd h).bind ?_
  intro n shop disk h
  refine (emulates_write h _ data).bind ?_
  -- the file it has written is there to be renamed
  rintro _ shop disk ⟨h,hthere⟩
  exact (emulates_rename h hthere path).bind fun _ _ _ h => h

theorem emulates_ensure (h : Alike shop disk) (record : AchievementRecord Uuid DataHash) :
    Emulates host i (fun _ => Alike) (cache.ensureWork setting record) shop disk := by
  rw [ensureWork]
  cases cache.pathFor setting record with
  | none => exact h
  | some path =>
    refine (emulates_tryExists h path).bind ?_
    intro found shop disk h
    cases found with
    | true => exact h
    | false =>
      refine (emulates_createDirAll h).bind fun _ shop disk h => ?_
      refine (emulates_retrieveAudio h record.id).bind fun data shop disk h => ?_
      exact emulates_store setting cache h record.id path data

theorem emulates_prune (h : Alike shop disk) (expected entries : List Path) :
    Emulates host i (fun _ => Alike) (pruneWork expected entries) shop disk := by
  induction entries generalizing shop disk with
  | nil => exact emulates_nextEntry h
  | cons path entries ih =>
    refine (emulates_nextEntry h).bind fun _ shop disk h => ?_
    by_cases hstale : Stale expected path
    · simp only [if_pos hstale]
      exact (emulates_removeFile h path).bind fun _ _ _ h => ih h
    · simp only [if_neg hstale]
      exact ih h

theorem emulates_ensureAll (h : Alike shop disk) (skipped : List Uuid)
    (records : List (AchievementRecord Uuid DataHash)) :
    Emulates host i (fun _ => Alike) (cache.ensureAllWork setting skipped records) shop disk := by
  induction records generalizing shop disk skipped with
  | nil => exact h
  | cons record records ih =>
    have hattempt : Emulates host i (fun _ => Alike) (cache.ensureWork setting record).attempt
        shop disk :=
      (emulates_ensure setting cache h record).attempt (fun _ _ _ h => h) (fun _ _ _ h => h)
    refine hattempt.bind fun r shop disk h => ?_
    cases r with
    | ok value => exact ih h skipped
    | error error =>
      cases error with
      | io error => exact h
      | request error =>
        cases error with
        | error error =>
          dsimp only
          split
          · exact h
          · exact ih h _
        | _ => exact h

theorem emulates_sync (h : Alike shop disk) (records : List (AchievementRecord Uuid DataHash)) :
    Emulates host i (fun _ => Alike) (cache.syncWork setting records) shop disk := by
  have hprepare : Emulates host i (fun _ => Alike) (cache.prepareWork setting records) shop disk :=
    (emulates_createDirAll h).bind fun _ _ _ h =>
      (emulates_readDir h cache.basePath).bind fun entries _ _ h => emulates_prune h _ entries
  exact hprepare.bind fun _ _ _ h => emulates_ensureAll setting cache h [] records

end Works

/-- How a call stands after an outcome, with what it has returned. -/
def Shows (returned : Except AudioCacheError α → Finished Uuid DataHash)
    (worker : Option (Worker (CacheOp Uuid) CacheOp.Res AudioCacheError
      (Finished Uuid DataHash))) : Outcome AudioCacheError α → Prop
  | .ok a => worker = some (.running (.done (returned (.ok a))))
  | .err error => worker = some (.running (.done (returned (.error error))))
  | .dropped => ∀ program, worker ≠ some (.running program)
  | .elapsed => ∀ program, worker ≠ some (.running program)

/-- A call that follows the host gets to where the host lets it get. -/
theorem exists_turns {work : Work Uuid α} {returned : Except AudioCacheError α →
      Finished Uuid DataHash} {crew : Calls Uuid DataHash}
    (hwork : Emulates host i (fun _ => Alike) work crew.shared disk)
    (hi : crew.workers[i]? = some (.running (do return returned (← work.attempt)))) :
    ∃ turns : List (Turn Upshot),
      Agree (crew.run machine (turns.map (.turn i))).shared (work.run host.handle disk).2 ∧
        Shows returned (crew.run machine (turns.map (.turn i))).workers[i]?
          (work.run host.handle disk).1 := by
  have hcall : Emulated machine host.handle i (fun _ => Alike) (fun _ _ _ => False) Agree
      (do return returned (← work.attempt)) crew.shared disk :=
    (hwork.attempt (fun _ _ _ h => h) (fun _ _ _ h => h)).bind fun _ _ _ h => h
  obtain ⟨turns,harrived⟩ := hcall.exists_turns host.handle_total hi
  refine ⟨turns,?_⟩
  rw [Program.run_bind,Program.run_attempt host.handle_total,Fut.bind_apply,Fut.attempt] at harrived
  rcases hrun : work.run host.handle disk with ⟨r,d⟩
  rw [hrun] at harrived
  cases r with
  | ok a => exact ⟨harrived.2.toAgree,harrived.1⟩
  | err error => exact ⟨harrived.2.toAgree,harrived.1⟩
  | dropped => exact ⟨harrived.2,harrived.1⟩
  | elapsed => exact ⟨harrived.2,harrived.1⟩

section Calls

variable (setting : Setting Uuid DataHash) (cache : AudioCache) (disk : Disk Uuid)

theorem calls_turns (action : CallAction Uuid DataHash) (turns : List (Turn Upshot)) :
    calls setting disk.files disk.tempCounter (action :: turns.map (.turn 0)) =
      (calls setting disk.files disk.tempCounter [action]).run machine (turns.map (.turn 0)) := by
  rw [← List.singleton_append,calls_append,List.map_map]
  rfl

/-- `ensure` as the cache runs it, among the interleavings of a process. -/
theorem ensure_alone (record : AchievementRecord Uuid DataHash) :
    ∃ turns : List (Turn Upshot),
      let crew := calls setting disk.files disk.tempCounter
        (.ensure cache record :: turns.map (.turn 0))
      Agree crew.shared (cache.ensure setting record disk).2 ∧
        Shows (.ensured cache record) crew.workers[0]? (cache.ensure setting record disk).1 := by
  have hstart : Alike (calls setting disk.files disk.tempCounter [.ensure cache record]).shared
      disk := ⟨⟨rfl,rfl⟩,rfl⟩
  have hi : (calls setting disk.files disk.tempCounter [.ensure cache record]).workers[0]? =
      some (.running do
        return .ensured cache record (← (cache.ensureWork setting record).attempt)) := rfl
  obtain ⟨turns,hturns⟩ := exists_turns (emulates_ensure setting cache hstart record) hi
  refine ⟨turns,?_⟩
  rw [calls_turns,ensure,← run_ensureWork]
  exact hturns

/-- `sync` as the cache runs it. -/
theorem sync_alone (records : List (AchievementRecord Uuid DataHash)) :
    ∃ turns : List (Turn Upshot),
      let crew := calls setting disk.files disk.tempCounter
        (.sync cache records :: turns.map (.turn 0))
      Agree crew.shared (cache.sync setting records disk).2 ∧
        Shows (.synced cache records) crew.workers[0]? (cache.sync setting records disk).1 := by
  have hstart : Alike (calls setting disk.files disk.tempCounter [.sync cache records]).shared
      disk := ⟨⟨rfl,rfl⟩,rfl⟩
  have hi : (calls setting disk.files disk.tempCounter [.sync cache records]).workers[0]? =
      some (.running do
        return .synced cache records (← (cache.syncWork setting records).attempt)) := rfl
  obtain ⟨turns,hturns⟩ := exists_turns (emulates_sync setting cache hstart records) hi
  refine ⟨turns,?_⟩
  rw [calls_turns,← run_syncWork]
  exact hturns

end Calls

end BloopClient.Audio

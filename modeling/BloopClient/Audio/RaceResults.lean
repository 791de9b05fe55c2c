import BloopClient.Audio.RaceSafety

/-!
# What survives a race

No race of `sync` and `ensure` tears a file, loses one that every `sync` expects, or keeps a
call from finding its temporary file in any other way than by removing it.
-/

namespace BloopClient.Audio
open Tracelib AudioCache

variable {Uuid DataHash : Type} {setting : Setting Uuid DataHash} {start : Path → Option Entry}
  {base : ℕ} {keep : Path → Prop} {i j : ℕ} {shop shop' : Shop Uuid} {cache : AudioCache}
  {record : AchievementRecord Uuid DataHash} {path : Path} {data : List UInt8}

section Works

/-- What a download is known by is not forgotten. -/
theorem downloads_kept {x : Uuid × List UInt8} (j : ℕ) (shop shop' : Shop Uuid)
    (h : x ∈ shop.downloads) (hg : Follows setting start base keep j shop shop') :
    x ∈ shop'.downloads := hg.1.downloads h

theorem safely_store (hs : Sane setting start base keep shop)
    (hp : cache.pathFor setting record = some path) (hnew : keep path → start path = none)
    (hd : (record.id,data) ∈ shop.downloads) :
    Safely setting start base keep i
      (fun value shop => value = some path ∧ (keep path → shop.files path ≠ none))
      (cache.storeWork setting record.id path data) shop := by
  refine (safely_fetchAdd hs cache record.id).bind_frame downloads_kept hd ?_
  rintro n shop hd ⟨hs,hreserved⟩
  refine (safely_write hs hreserved data).bind_frame downloads_kept hd ?_
  rintro _ shop hd ⟨hs,hfilled⟩
  refine (safely_rename hs hp hnew hd hfilled).bind ?_
  rintro _ shop ⟨hs,hthere⟩
  refine .done (stable_and ?_) ⟨hs,rfl,hthere⟩
  rintro shop shop' j _ _ ⟨he,hf⟩ hc
  exact ⟨he,fun hk => hc.present (pathFor_extension hp) hk (hf hk)⟩

/-- What `ensure` returns: the path of the record, with a file there if it is one to
keep. -/
def Provided (setting : Setting Uuid DataHash) (keep : Path → Prop) (cache : AudioCache)
    (record : AchievementRecord Uuid DataHash) (value : Option Path) (shop : Shop Uuid) : Prop :=
  cache.pathFor setting record = value ∧
    ∀ path, value = some path → keep path → shop.files path ≠ none

theorem Provided.changes {value : Option Path} (h : Provided setting keep cache record value shop)
    (hc : Changes setting start keep j shop shop') :
    Provided setting keep cache record value shop' := by
  refine ⟨h.1,?_⟩
  intro path hv hk
  exact hc.present (pathFor_extension (h.1.trans hv)) hk (h.2 path hv hk)

theorem safely_ensure (hs : Sane setting start base keep shop) (cache : AudioCache)
    (record : AchievementRecord Uuid DataHash) :
    Safely setting start base keep i (Provided setting keep cache record)
      (cache.ensureWork setting record) shop := by
  have hdone : ∀ {value : Option Path} {shop : Shop Uuid}, Sane setting start base keep shop →
      Provided setting keep cache record value shop → Safely setting start base keep i
        (Provided setting keep cache record) (.done value) shop :=
    fun hs he => .done (stable_and fun _ _ _ _ _ he hc => he.changes hc) ⟨hs,he⟩
  rw [ensureWork]
  cases hp : cache.pathFor setting record with
  | none => exact hdone hs ⟨hp,by simp⟩
  | some path =>
    refine (safely_tryExists hs (pathFor_extension hp)).bind ?_
    rintro found shop ⟨hs,hfound,hnew⟩
    cases found with
    | true =>
      refine hdone hs ⟨hp,?_⟩
      rintro _ ⟨⟩ hk
      exact hfound rfl hk
    | false =>
      refine (safely_createDirAll hs).bind ?_
      rintro _ shop ⟨hs,_⟩
      refine (safely_retrieveAudio hs record.id).bind ?_
      rintro data shop ⟨hs,hd⟩
      refine (safely_store hs hp (hnew rfl) hd).mono ?_ (fun _ _ h => h)
      rintro value shop ⟨hs,rfl,hf⟩
      refine ⟨hs,hp,?_⟩
      rintro _ ⟨⟩ hk
      exact hf hk

/-- Every file to keep in a directory is expected. -/
def Spares (keep : Path → Prop) (dir : String) (expected : List Path) : Prop :=
  ∀ path, keep path → path.extension = some mp3 ∧ (path.dir = dir → path ∈ expected)

theorem Spares.not_stale {dir : String} {expected : List Path} (h : Spares keep dir expected)
    (hd : path.dir = dir) (hk : keep path) : ¬ Stale expected path := by
  obtain ⟨hp,hin⟩ := h path hk
  rintro (⟨_,hn⟩ | he)
  · exact hn (hin hd)
  · rw [hp] at he
    exact absurd he (by decide)

theorem safely_prune (hs : Sane setting start base keep shop) {dir : String} {expected : List Path}
    (hspares : Spares keep dir expected) (entries : List Path)
    (hdir : ∀ path ∈ entries, path.dir = dir) :
    Safely setting start base keep i (fun _ _ => True) (pruneWork expected entries) shop := by
  induction entries generalizing shop with
  | nil => exact safely_nextEntry hs
  | cons path entries ih =>
    have hrest : ∀ {shop : Shop Uuid}, Sane setting start base keep shop → Safely setting start base
        keep i (fun _ _ => True) (pruneWork expected entries) shop :=
      fun hs => ih hs fun path hp => hdir path (List.mem_cons_of_mem _ hp)
    refine (safely_nextEntry hs).bind ?_
    rintro _ shop ⟨hs,_⟩
    by_cases hstale : Stale expected path
    · have hk : ¬ keep path :=
        fun hk => hspares.not_stale (hdir path List.mem_cons_self) hk hstale
      simp only [if_pos hstale]
      exact (safely_removeFile hs hk).bind fun _ shop h => hrest h.1
    · simp only [if_neg hstale]
      exact hrest hs

/-- The records so far that were not skipped have their files, if they are ones to keep. -/
def Stocked (setting : Setting Uuid DataHash) (keep : Path → Prop) (cache : AudioCache)
    (records : List (AchievementRecord Uuid DataHash)) (skipped : List Uuid)
    (shop : Shop Uuid) : Prop :=
  ∀ record ∈ records, ∀ path, cache.pathFor setting record = some path → keep path →
    record.id ∈ skipped ∨ shop.files path ≠ none

theorem Stocked.changes {records : List (AchievementRecord Uuid DataHash)} {skipped : List Uuid}
    (h : Stocked setting keep cache records skipped shop)
    (hc : Changes setting start keep j shop shop') :
    Stocked setting keep cache records skipped shop' := by
  intro record hr path hp hk
  exact (h record hr path hp hk).imp id (hc.present (pathFor_extension hp) hk)

theorem Stocked.concat {records : List (AchievementRecord Uuid DataHash)}
    {skipped skipped' : List Uuid} (h : Stocked setting keep cache records skipped shop)
    (hsub : skipped ⊆ skipped')
    (hrecord : ∀ path, cache.pathFor setting record = some path → keep path →
      record.id ∈ skipped' ∨ shop.files path ≠ none) :
    Stocked setting keep cache (records ++ [record]) skipped' shop := by
  intro other ho path hp hk
  rcases List.mem_append.mp ho with ho | ho
  · exact (h other ho path hp hk).imp (fun h => hsub h) id
  · rw [List.mem_singleton.mp ho] at hp ⊢
    exact hrecord path hp hk

theorem safely_ensureAll (hs : Sane setting start base keep shop)
    {stocked : List (AchievementRecord Uuid DataHash)} {skipped : List Uuid}
    (hstocked : Stocked setting keep cache stocked skipped shop)
    (records : List (AchievementRecord Uuid DataHash)) :
    Safely setting start base keep i (Stocked setting keep cache (stocked ++ records))
      (cache.ensureAllWork setting skipped records) shop := by
  induction records generalizing shop stocked skipped with
  | nil =>
    rw [List.append_nil]
    exact .done (stable_and fun _ _ _ _ _ h hc => h.changes hc) ⟨hs,hstocked⟩
  | cons record records ih =>
    have hgo : ∀ {shop : Shop Uuid} {skipped : List Uuid}, Sane setting start base keep shop →
        Stocked setting keep cache (stocked ++ [record]) skipped shop →
        Safely setting start base keep i (Stocked setting keep cache (stocked ++ record :: records))
          (cache.ensureAllWork setting skipped records) shop := by
      intro shop skipped hs h
      have hnext : Safely setting start base keep i
          (Stocked setting keep cache (stocked ++ [record] ++ records))
          (cache.ensureAllWork setting skipped records) shop := ih hs h
      rwa [List.append_assoc] at hnext
    refine Safe.bind_frame (F := Stocked setting keep cache stocked skipped)
      (q := fun r shop => Sane setting start base keep shop ∧
        ∀ value, r = .ok value → Provided setting keep cache record value shop)
      (fun _ _ _ h hg => h.changes hg.1) ?_ hstocked ?_
    · refine (safely_ensure hs cache record).attempt ?_ ?_
      · rintro value shop ⟨hs,he⟩
        refine ⟨hs,?_⟩
        rintro _ ⟨⟩
        exact he
      · intro e shop hs
        exact ⟨hs,by simp⟩
    · rintro r shop hstocked ⟨hs,hr⟩
      cases r with
      | ok value =>
        refine hgo hs (hstocked.concat (List.Subset.refl _) ?_)
        intro path hp hk
        obtain ⟨hv,hf⟩ := hr value rfl
        exact .inr (hf path (hv.symm.trans hp) hk)
      | error e =>
        have hfail : Safely setting start base keep i
            (Stocked setting keep cache (stocked ++ record :: records)) (.fail e) shop :=
          .fail stable_sane hs
        cases e with
        | io e => exact hfail
        | request e =>
          cases e with
          | error e =>
            dsimp only
            split
            · exact hfail
            · exact hgo hs (hstocked.concat (List.subset_append_left _ _) fun _ _ _ =>
                .inl (List.mem_append_right _ (List.mem_singleton_self _)))
          | _ => exact hfail

theorem safely_sync (hs : Sane setting start base keep shop) (cache : AudioCache)
    (records : List (AchievementRecord Uuid DataHash))
    (hspares : Spares keep cache.basePath (records.filterMap (cache.pathFor setting))) :
    Safely setting start base keep i (Stocked setting keep cache records)
      (cache.syncWork setting records) shop := by
  refine Safe.bind (q := fun _ shop => Sane setting start base keep shop) ?_ ?_
  · refine (safely_createDirAll hs).bind ?_
    rintro _ shop ⟨hs,_⟩
    refine (safely_readDir hs cache.basePath).bind ?_
    rintro entries shop ⟨hs,hdir⟩
    exact (safely_prune hs hspares entries hdir).mono (fun _ _ h => h.1) (fun _ _ h => h)
  · intro _ shop hs
    have hnone : Stocked setting keep cache [] [] shop := by simp [Stocked]
    exact safely_ensureAll hs hnone records

end Works

-- ════════════════════════════════════════════════════════════════════════
-- Whole runs
-- ════════════════════════════════════════════════════════════════════════

/-- What a call that has returned may count on. -/
def Finished.Holds (setting : Setting Uuid DataHash) (keep : Path → Prop) :
    Finished Uuid DataHash → Shop Uuid → Prop
  | .ensured cache record (.ok value),shop => Provided setting keep cache record value shop
  | .synced cache records (.ok skipped),shop => Stocked setting keep cache records skipped shop
  | .ensured _ _ (.error _),_ => True
  | .synced _ _ (.error _),_ => True

theorem Finished.Holds.changes {finished : Finished Uuid DataHash}
    (h : finished.Holds setting keep shop) (hc : Changes setting start keep j shop shop') :
    finished.Holds setting keep shop' := by
  cases finished with
  | ensured cache record result =>
    cases result with
    | ok value => exact Provided.changes h hc
    | error e => trivial
  | synced cache records result =>
    cases result with
    | ok skipped => exact Stocked.changes h hc
    | error e => trivial

theorem safely_return {finished : Finished Uuid DataHash} (hs : Sane setting start base keep shop)
    (h : finished.Holds setting keep shop) :
    Safely setting start base keep i (Finished.Holds setting keep) (.done finished) shop :=
  .done (stable_and fun _ _ _ _ _ h hc => h.changes hc) ⟨hs,h⟩

theorem safely_ensureCall (hs : Sane setting start base keep shop) (cache : AudioCache)
    (record : AchievementRecord Uuid DataHash) :
    Safely setting start base keep i (Finished.Holds setting keep)
      (ensureCall setting cache record) shop := by
  refine Safe.bind (q := fun r shop => Sane setting start base keep shop ∧
    (Finished.ensured cache record r).Holds setting keep shop) ?_ ?_
  · exact (safely_ensure hs cache record).attempt (fun _ _ h => h) (fun _ _ hs => ⟨hs,trivial⟩)
  · intro r shop h
    exact safely_return h.1 h.2

theorem safely_syncCall (hs : Sane setting start base keep shop) (cache : AudioCache)
    (records : List (AchievementRecord Uuid DataHash))
    (hspares : Spares keep cache.basePath (records.filterMap (cache.pathFor setting))) :
    Safely setting start base keep i (Finished.Holds setting keep)
      (syncCall setting cache records) shop := by
  refine Safe.bind (q := fun r shop => Sane setting start base keep shop ∧
    (Finished.synced cache records r).Holds setting keep shop) ?_ ?_
  · exact (safely_sync hs cache records hspares).attempt (fun _ _ h => h)
      (fun _ _ hs => ⟨hs,trivial⟩)
  · intro r shop h
    exact safely_return h.1 h.2

theorem sane_new (setting : Setting Uuid DataHash) (start : Path → Option Entry)
    (counter : UInt64) (keep : Path → Prop) :
    Sane setting start counter.toNat keep (Shop.new start counter : Shop Uuid) where
  counted := rfl
  numbered h := by cases h
  unique h := by cases h
  created h := by cases h
  complete _ := .inr (.inl rfl)
  kept _ _ _ := rfl
  missed h := by cases h

/-- No operation gives a number back. -/
theorem owners_act {fate : Upshot} {o : CacheOp Uuid} {r : CacheOp.Res o}
    (h : machine.act i fate o shop = some (r,shop')) :
    shop.owners.length ≤ shop'.owners.length := by
  have hput : ∀ path data, (shop.put path data).owners = shop.owners := by
    intro path data
    unfold Shop.put
    split <;> rfl
  have hremove : ∀ path, (shop.remove path).owners = shop.owners := by
    intro path
    unfold Shop.remove
    split <;> rfl
  have hsame : shop' = shop → shop.owners.length ≤ shop'.owners.length := by
    rintro rfl
    exact Nat.le_refl _
  cases o with
  | removeFile path =>
    cases fate with
    | succeed =>
      cases h
      rw [hremove]
    | fail error took =>
      cases took <;> cases h
      · exact hsame rfl
      · rw [if_pos rfl,hremove]
    | _ => cases h
  | fetchAdd =>
    have h' : some (shop.tempCounter,shop.fetch i) = some (r,shop') := by cases fate <;> exact h
    cases h'
    exact Nat.le_succ _
  | write path data =>
    cases fate <;> cases h
    · exact Nat.le_of_eq (congrArg List.length (hput path data)).symm
    · exact Nat.le_refl _
  | rename source target =>
    by_cases hf : shop.files source = none
    · cases fate <;> simp only [machine,Shop.act,hf,if_true] at h <;> cases h
      exact Nat.le_refl _
    · cases fate with
      | succeed =>
        simp only [machine,Shop.act,hf,if_false] at h
        cases h
        exact Nat.le_refl _
      | fail error took =>
        simp only [machine,Shop.act,hf,if_false] at h
        cases took <;> cases h <;> exact Nat.le_refl _
      | _ => cases h
  | _ => cases fate <;> cases h <;> exact Nat.le_refl _

theorem owners_touch (i : ℕ) (fate : Upshot) (o : CacheOp Uuid) (shop : Shop Uuid) :
    (machine.touch i fate o shop).owners = shop.owners := by
  cases o with
  | write path data =>
    cases fate with
    | part n =>
      show (shop.put path (data.take n)).owners = shop.owners
      unfold Shop.put
      split <;> rfl
    | _ => rfl
  | _ => cases fate <;> rfl

/-- The path is that of an audio file, and every `sync` of the run expects it. -/
def Expected (setting : Setting Uuid DataHash) (actions : List (CallAction Uuid DataHash))
    (path : Path) : Prop :=
  path.extension = some mp3 ∧ ∀ cache records, .sync cache records ∈ actions →
    path.dir = cache.basePath → path ∈ records.filterMap (cache.pathFor setting)

/-- Every call of a process is safe, and what it returned holds. -/
abbrev Orderly (setting : Setting Uuid DataHash) (start : Path → Option Entry) (base : ℕ)
    (keep : Path → Prop) (crew : Calls Uuid DataHash) : Prop :=
  crew.Sound machine (Wrapped base) (Follows setting start base keep)
    (Sane setting start base keep)
    (fun a shop => Sane setting start base keep shop ∧ a.Holds setting keep shop)
    (fun _ shop => Sane setting start base keep shop)

/-- The calls of a run stay orderly, and move by steps that keep their guarantees. -/
theorem Orderly.run {crew : Calls Uuid DataHash} (hcrew : Orderly setting start base keep crew)
    (actions : List (CallAction Uuid DataHash))
    (hspares : ∀ cache records, .sync cache records ∈ actions →
      Spares keep cache.basePath (records.filterMap (AudioCache.pathFor setting cache)))
    (hwrap : ¬ Wrapped base (crew.run machine (actions.map (·.crewAction setting))).shared) :
    Orderly setting start base keep (crew.run machine (actions.map (·.crewAction setting))) ∧
    Crew.Steps (Follows setting start base keep) crew.shared
      (crew.run machine (actions.map (·.crewAction setting))).shared := by
  refine Crew.Sound.run (fun _ _ _ hg => hg.2) ?_ ?_ hcrew _ ?_ hwrap
  · intro i fate o shop r shop' ha hv
    exact hv.trans (Nat.add_le_add_left (owners_act ha) _)
  · intro i fate o shop hv
    rw [Wrapped,owners_touch]
    exact hv
  · intro p hp i shop hs
    obtain ⟨action,ha,he⟩ := List.mem_map.mp hp
    cases action with
    | ensure cache record =>
      cases he
      exact safely_ensureCall hs cache record
    | sync cache records =>
      cases he
      exact safely_syncCall hs cache records (hspares cache records ha)
    | turn i what => cases he

section Moments

variable (setting : Setting Uuid DataHash) (start : Path → Option Entry) (counter : UInt64)

/-- Every moment of a run is orderly, with the paths that a longer run expects. -/
theorem calls_orderly {earlier actions : List (CallAction Uuid DataHash)}
    (hsub : earlier ⊆ actions)
    (hwrap : counter.toNat + (calls setting start counter earlier).shared.owners.length < 2 ^ 64) :
    Orderly setting start counter.toNat (Expected setting actions)
      (calls setting start counter earlier) := by
  refine (Orderly.run ⟨sane_new setting start counter _,?_,?_⟩ earlier ?_
    (Nat.not_le.mpr hwrap)).1
  · intro i p hp
    cases hp
  · intro i o ho
    cases ho
  · intro cache records hs path hk
    exact ⟨hk.1,hk.2 cache records (hsub hs)⟩

/-- Numbers are handed out for good. -/
theorem owners_le (earlier later : List (CallAction Uuid DataHash)) :
    (calls setting start counter earlier).shared.owners.length ≤
      (calls setting start counter (earlier ++ later)).shared.owners.length := by
  let more : Shop Uuid → Prop := fun shop =>
    (calls setting start counter earlier).shared.owners.length ≤ shop.owners.length
  have hact : ∀ i fate o shop r shop', machine.act i fate o shop = some (r,shop') →
      more shop → more shop' := fun _ _ _ _ _ _ ha hv => hv.trans (owners_act ha)
  have htouch : ∀ i fate o shop, more shop → more (machine.touch i fate o shop) := by
    intro i fate o shop hv
    simp only [more,owners_touch]
    exact hv
  rw [calls_append]
  exact Crew.void_run hact htouch _ (Nat.le_refl _)

/-- A file that every `sync` of the run expects stays once it is there. -/
theorem expected_stays {earlier later : List (CallAction Uuid DataHash)} {path : Path}
    (hwrap : counter.toNat +
      (calls setting start counter (earlier ++ later)).shared.owners.length < 2 ^ 64)
    (hk : Expected setting (earlier ++ later) path)
    (hf : (calls setting start counter earlier).shared.files path ≠ none) :
    (calls setting start counter (earlier ++ later)).shared.files path ≠ none := by
  have hle := owners_le setting start counter earlier later
  have hearlier : Orderly setting start counter.toNat (Expected setting (earlier ++ later))
      (calls setting start counter earlier) :=
    calls_orderly setting start counter (List.subset_append_left earlier later) (by omega)
  rw [calls_append] at hwrap ⊢
  have hspares : ∀ cache records, .sync cache records ∈ later →
      Spares (Expected setting (earlier ++ later)) cache.basePath
        (records.filterMap (AudioCache.pathFor setting cache)) := by
    intro cache records hs path hk
    exact ⟨hk.1,hk.2 cache records (List.mem_append_right _ hs)⟩
  exact (hearlier.run later hspares (Nat.not_le.mpr hwrap)).2.keeps
    (P := fun shop => shop.files path ≠ none) (fun _ _ _ hf hg => hg.1.present hk.1 hk hf) hf

end Moments

/-- Whatever calls of `sync` and `ensure` race with each other, cut off at any point, as
long as the counter of temporary names does not wrap: the path of a record is absent, as it
was at the start, or holds the complete data of a download for the record; and a call
misses its temporary file only if that file was removed. -/
theorem race_never_tears (setting : Setting Uuid DataHash) (start : Path → Option Entry)
    (counter : UInt64) (actions : List (CallAction Uuid DataHash))
    (hwrap : counter.toNat + (calls setting start counter actions).shared.owners.length < 2 ^ 64) :
    let shop := (calls setting start counter actions).shared
    (∀ cache record path, AudioCache.pathFor setting cache record = some path →
      shop.files path = none ∨ shop.files path = start path ∨
        ∃ data, (record.id,data) ∈ shop.downloads ∧ shop.files path = some (.file data)) ∧
    ∀ path ∈ shop.missed, path ∈ shop.removed := by
  intro shop
  have hs := (calls_orderly setting start counter (List.Subset.refl actions) hwrap).inv
  exact ⟨fun cache record path hp => hs.complete hp,fun path hm => hs.missed hm⟩

/-- A download whose temporary file is pruned by a `sync` between its write and its
rename. -/
def pruning : List (CallAction ℕ ℕ) :=
  [.ensure ⟨"cache"⟩ ⟨2,some 1⟩,.turn 0 (.act .succeed),.turn 0 (.act .succeed),
    .turn 0 (.act (.reply [1,2])),.turn 0 (.act .succeed),.turn 0 (.touch (.part 1)),
    .sync ⟨"cache"⟩ [⟨2,some 1⟩],.turn 1 (.act .succeed),
    .turn 1 (.act (.list ["aa.0.download".toList])),.turn 1 (.act .succeed),
    .turn 1 (.act .succeed),.turn 0 (.act .succeed),.turn 0 (.act (.fail ⟨"gone"⟩ false))]

/-- The file is gone, and nothing is at the path of the record. -/
theorem race_never_tears_pruning :
    let shop := (calls leftoversSetting leftoversDisk.files 0 pruning).shared
    shop.missed = [⟨"cache","aa.0.download".toList⟩] ∧
      (∀ path ∈ shop.missed, path ∈ shop.removed) ∧
      shop.files ⟨"cache","aa_f.mp3".toList⟩ = none := by
  refine ⟨by decide +kernel,?_,by decide +kernel⟩
  exact (race_never_tears leftoversSetting leftoversDisk.files 0 pruning (by decide +kernel)).2

/-- In every such run a file that each `sync` expects stays once it is there; `ensure`
returns the path of its record, and there is a file if each `sync` expects it; and after a
`sync` has returned, the same holds for every record it has not skipped. -/
theorem race_keeps_expected (setting : Setting Uuid DataHash) (start : Path → Option Entry)
    (counter : UInt64) (actions : List (CallAction Uuid DataHash))
    (hwrap : counter.toNat + (calls setting start counter actions).shared.owners.length < 2 ^ 64) :
    let crew := calls setting start counter actions
    (∀ path, Expected setting actions path → ∀ earlier later, actions = earlier ++ later →
      (calls setting start counter earlier).shared.files path ≠ none →
      crew.shared.files path ≠ none) ∧
    (∀ (i : ℕ) cache record path,
      crew.workers[i]? = some (.running (.done (.ensured cache record (.ok (some path))))) →
      cache.pathFor setting record = some path ∧
        (Expected setting actions path → crew.shared.files path ≠ none)) ∧
    ∀ (i : ℕ) cache records skipped,
      crew.workers[i]? = some (.running (.done (.synced cache records (.ok skipped)))) →
      ∀ record ∈ records, ∀ path, cache.pathFor setting record = some path →
        Expected setting actions path →
        record.id ∈ skipped ∨ crew.shared.files path ≠ none := by
  intro crew
  have hsound := calls_orderly setting start counter (List.Subset.refl actions) hwrap
  refine ⟨?_,?_,?_⟩
  · rintro path hk earlier later rfl hf
    exact expected_stays setting start counter hwrap hk hf
  · intro i cache record path hi
    have h := (hsound.safe i _ hi _ .refl).2
    exact ⟨h.1,h.2 path rfl⟩
  · intro i cache records skipped hi record hr path hp hk
    exact (hsound.safe i _ hi _ .refl).2 record hr path hp hk

/-- A download that is complete, and a `sync` behind it that expects its file. -/
def fetching : List (CallAction ℕ ℕ) :=
  [.ensure ⟨"cache"⟩ ⟨2,some 1⟩,.turn 0 (.act .succeed),.turn 0 (.act .succeed),
    .turn 0 (.act (.reply [1,2])),.turn 0 (.act .succeed),.turn 0 (.act .succeed),
    .turn 0 (.act .succeed)]

def pruningBehind : List (CallAction ℕ ℕ) :=
  [.sync ⟨"cache"⟩ [⟨2,some 1⟩],.turn 1 (.act .succeed),
    .turn 1 (.act (.list ["aa_f.mp3".toList,"stale.mp3".toList])),.turn 1 (.act .succeed),
    .turn 1 (.act .succeed),.turn 1 (.act .succeed)]

/-- The stale file goes, the expected one stays. -/
theorem race_keeps_expected_fetching :
    let shop := (calls leftoversSetting leftoversDisk.files 0 (fetching ++ pruningBehind)).shared
    shop.files ⟨"cache","stale.mp3".toList⟩ = none ∧
      shop.files ⟨"cache","aa_f.mp3".toList⟩ ≠ none := by
  refine ⟨by decide +kernel,?_⟩
  refine (race_keeps_expected leftoversSetting leftoversDisk.files 0 (fetching ++ pruningBehind)
    (by decide +kernel)).1 _ ⟨by decide +kernel,?_⟩ fetching pruningBehind rfl (by decide +kernel)
  intro cache records hs _
  simp only [fetching,pruningBehind,List.cons_append,List.nil_append,List.mem_cons,
    List.not_mem_nil,CallAction.sync.injEq,reduceCtorEq,false_or,or_false] at hs
  obtain ⟨rfl,rfl⟩ := hs
  decide +kernel

end BloopClient.Audio

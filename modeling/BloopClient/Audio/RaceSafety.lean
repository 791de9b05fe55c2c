import BloopClient.Audio.Races
import BloopClient.Audio.Sync

/-!
# What an operation of a call does to the others

Every operation of `ensure` and `sync` keeps the guarantee of its call: content is new only
under temporary names of its own, complete at the path of a record, or gone because it was
stale.
-/

namespace BloopClient.Audio
open Tracelib AudioCache

variable {Uuid DataHash : Type} {setting : Setting Uuid DataHash} {start : Path → Option Entry}
  {base : ℕ} {keep : Path → Prop} {i j : ℕ} {shop shop' : Shop Uuid} {cache : AudioCache}
  {record : AchievementRecord Uuid DataHash} {path : Path} {id : Uuid} {n : UInt64}
  {data : List UInt8}

section Names

variable {setting : Setting Uuid DataHash} {cache cache' : AudioCache}
  {record record' : AchievementRecord Uuid DataHash} {path : Path} {id id' : Uuid} {n m : UInt64}

/-- What stands behind the last dot of a text. -/
theorem eq_of_append_dot {a b x y : List Char} (hx : '.' ∉ x) (hy : '.' ∉ y)
    (h : a ++ '.' :: x = b ++ '.' :: y) : x = y := by
  have hlast : ∀ (a x : List Char), '.' ∉ x →
      (a ++ '.' :: x).reverse.takeWhile (· ≠ '.') = x.reverse := by
    intro a x hx
    have hr : (a ++ '.' :: x).reverse = x.reverse ++ '.' :: a.reverse := by simp
    have hplain : ∀ c ∈ x.reverse, decide (c ≠ '.') = true := by
      intro c hc
      rw [decide_eq_true_eq]
      rintro rfl
      exact hx (List.mem_reverse.mp hc)
    rw [hr,List.takeWhile_append_of_pos hplain]
    simp
  have hrev : x.reverse = y.reverse := by rw [← hlast a x hx,h,hlast b y hy]
  exact List.reverse_inj.mp hrev

theorem dot_notMem_toDigits (n : ℕ) : '.' ∉ Nat.toDigits 10 n := by
  intro h
  have hd := Nat.isDigit_of_mem_toDigits (by decide) (by decide) h
  exact absurd hd (by decide)

/-- No two numbers give one temporary name, whatever cache and record they are for. -/
theorem tempPath_number (h : cache.tempPath setting id n = cache'.tempPath setting id' m) :
    n = m := by
  simp only [tempPath,Path.mk.injEq] at h
  have hdigits := eq_of_append_dot (dot_notMem_toDigits _) (dot_notMem_toDigits _)
    (List.append_cancel_right h.2)
  have hnat := congrArg (fun cs => Nat.ofDigitChars 10 cs 0) hdigits
  simp only [Nat.ofDigitChars_ten_toDigits] at hnat
  exact UInt64.toNat_inj.mp hnat

theorem pathFor_cache (h : cache.pathFor setting record = some path)
    (h' : cache'.pathFor setting record' = some path) : cache = cache' := by
  obtain ⟨hash,_,rfl⟩ := Option.map_eq_some_iff.mp h
  obtain ⟨hash',_,he⟩ := Option.map_eq_some_iff.mp h'
  cases cache
  cases cache'
  simp only [Path.mk.injEq] at he
  rw [he.1]

end Names

theorem OwnTemp.ne_final (h : OwnTemp setting i path shop) : path.extension ≠ some mp3 := by
  obtain ⟨cache,id,n,rfl,_⟩ := h
  rw [tempPath_extension]
  decide

/-- A temporary name belongs to one call. -/
theorem Sane.owner (hs : Sane setting start base keep shop) (hi : (n,i) ∈ shop.owners)
    (hj : OwnTemp setting j (cache.tempPath setting id n) shop) : j = i := by
  obtain ⟨cache',id',n',he,hn⟩ := hj
  rw [← tempPath_number he] at hn
  exact hs.unique hn hi

namespace Changes

theorem refl (shop : Shop Uuid) : Changes setting start keep i shop shop :=
  ⟨id,id,id,.inl,fun _ => .inl rfl⟩

/-- The path of a record is never left with a part of a file. -/
theorem complete (hc : Changes setting start keep i shop shop')
    (hs : Sane setting start base keep shop) (hp : cache.pathFor setting record = some path) :
    shop'.files path = none ∨ shop'.files path = start path ∨
      ∃ data, (record.id,data) ∈ shop'.downloads ∧ shop'.files path = some (.file data) := by
  obtain he | ht | ⟨hn,_⟩ | ⟨cache',record',data,hp',_,hd,hf⟩ := hc.files path
  · rw [he]
    refine (hs.complete hp).imp id (Or.imp id ?_)
    rintro ⟨data,hd,hf⟩
    exact ⟨data,hc.downloads hd,hf⟩
  · exact absurd (pathFor_extension hp) ht.ne_final
  · exact .inl hn
  · obtain rfl := pathFor_cache hp hp'
    rw [← pathFor_id hp hp'] at hd
    exact .inr (.inr ⟨data,hc.downloads hd,hf⟩)

/-- A file to keep that was there at the start stays as it was. -/
theorem kept (hc : Changes setting start keep i shop shop')
    (hs : Sane setting start base keep shop) (hk : keep path) (hp : path.extension = some mp3)
    (hstart : start path ≠ none) : shop'.files path = start path := by
  obtain he | ht | ⟨_,_,hn⟩ | ⟨_,_,_,_,hnew,_⟩ := hc.files path
  · rw [he]
    exact hs.kept hk hp hstart
  · exact absurd hp ht.ne_final
  · exact absurd hk hn
  · exact absurd (hnew hk) hstart

/-- A file to keep stays. -/
theorem present (hc : Changes setting start keep i shop shop') (hp : path.extension = some mp3)
    (hk : keep path) (hf : shop.files path ≠ none) : shop'.files path ≠ none := by
  obtain he | ht | ⟨_,_,hn⟩ | ⟨_,_,data,_,_,_,he⟩ := hc.files path
  · rwa [he]
  · exact absurd hp ht.ne_final
  · exact absurd hk hn
  · simp [he]

/-- Others leave the temporary file of a call alone, or remove it. -/
theorem temp (hc : Changes setting start keep j shop shop') (hs : Sane setting start base keep shop)
    (hi : (n,i) ∈ shop.owners) (hj : j ≠ i) (cache : AudioCache) (id : Uuid) :
    shop'.files (cache.tempPath setting id n) = shop.files (cache.tempPath setting id n) ∨
      (shop'.files (cache.tempPath setting id n) = none ∧
        cache.tempPath setting id n ∈ shop'.removed) := by
  obtain he | ht | ⟨hn,hr,_⟩ | ⟨_,_,_,hp,_⟩ := hc.files (cache.tempPath setting id n)
  · exact .inl he
  · exact absurd (hs.owner hi ht) hj
  · exact .inr ⟨hn,hr⟩
  · have he := pathFor_extension hp
    rw [tempPath_extension] at he
    exact absurd he (by decide)

/-- A change that hands out no number keeps the state sane. -/
theorem follows (hc : Changes setting start keep i shop shop')
    (hs : Sane setting start base keep shop)
    (hcounter : shop'.tempCounter = shop.tempCounter) (howners : shop'.owners = shop.owners)
    (hmissed : ∀ path, path ∈ shop'.missed → path ∈ shop'.removed) :
    Follows setting start base keep i shop shop' := by
  refine ⟨hc,?_,?_,?_,?_,fun hp => hc.complete hs hp,hc.kept hs,fun h => hmissed _ h⟩
  · rw [hcounter,howners]
    exact hs.counted
  · rw [hcounter,howners]
    exact hs.numbered
  · rw [howners]
    exact hs.unique
  · intro path hp
    rw [howners]
    rcases hc.created hp with hp | ⟨cache,id,n,rfl,hn⟩
    · exact hs.created hp
    · exact ⟨cache,id,n,i,rfl,hn⟩

end Changes

/-- That a write is over changes nothing else. -/
theorem Follows.close (h : Follows setting start base keep i shop shop') (path : Path) :
    Follows setting start base keep i shop (shop'.close path) := by
  obtain ⟨hc,hs⟩ := h
  have hsub : ∀ {path' : Path}, path' ∈ (shop'.close path).created → path' ∈ shop'.created :=
    fun hp => (List.mem_filter.mp hp).1
  exact ⟨⟨hc.owners,hc.downloads,hc.removed,fun hp => hc.created (hsub hp),hc.files⟩,
    ⟨hs.counted,hs.numbered,hs.unique,fun hp => hs.created (hsub hp),hs.complete,hs.kept,
      hs.missed⟩⟩

def CacheOp.isWrite : CacheOp Uuid → Bool
  | .write _ _ => true
  | _ => false

namespace Sane

variable (hs : Sane setting start base keep shop)
include hs

theorem follows_refl : Follows setting start base keep i shop shop := ⟨.refl shop,hs⟩

theorem follows_download (id : Uuid) (data : List UInt8) :
    Follows setting start base keep i shop (shop.download id data) := by
  have hc : Changes setting start keep i shop (shop.download id data) :=
    ⟨fun h => h,fun h => List.mem_cons_of_mem _ h,fun h => h,.inl,fun _ => .inl rfl⟩
  exact hc.follows hs rfl rfl fun path h => hs.missed h

theorem follows_fetch (hv : ¬ Wrapped base (shop.fetch i)) :
    Follows setting start base keep i shop (shop.fetch i) := by
  have hlt : base + (shop.owners.length + 1) < 2 ^ 64 := Nat.lt_of_not_le hv
  have hcounter : (shop.tempCounter + 1).toNat = shop.tempCounter.toNat + 1 := by
    rw [UInt64.toNat_add,UInt64.toNat_one,Nat.mod_eq_of_lt]
    rw [hs.counted]
    omega
  have hc : Changes setting start keep i shop (shop.fetch i) :=
    ⟨fun h => List.mem_cons_of_mem _ h,fun h => h,fun h => h,.inl,fun _ => .inl rfl⟩
  refine ⟨hc,?_,?_,?_,?_,fun hp => hc.complete hs hp,hc.kept hs,fun h => hs.missed h⟩
  · show (shop.tempCounter + 1).toNat = base + (shop.owners.length + 1)
    rw [hcounter,hs.counted]
    omega
  · intro n j hn
    show n.toNat < (shop.tempCounter + 1).toNat
    rcases List.mem_cons.mp hn with he | hn
    · cases he
      omega
    · have := hs.numbered hn
      omega
  · intro n j k hj hk
    -- the number is one nobody has
    rcases List.mem_cons.mp hj with he | hj <;> rcases List.mem_cons.mp hk with he' | hk
    · cases he
      cases he'
      rfl
    · cases he
      exact absurd (hs.numbered hk) (Nat.lt_irrefl _)
    · cases he'
      exact absurd (hs.numbered hj) (Nat.lt_irrefl _)
    · exact hs.unique hj hk
  · intro path hp
    obtain ⟨cache,id,n,j,he,hn⟩ := hs.created hp
    exact ⟨cache,id,n,j,he,List.mem_cons_of_mem _ hn⟩

theorem follows_put (hi : (n,i) ∈ shop.owners) (cache : AudioCache) (id : Uuid)
    (data : List UInt8) :
    Follows setting start base keep i shop (shop.put (cache.tempPath setting id n) data) := by
  unfold Shop.put
  split
  · exact hs.follows_refl
  · have hown : OwnTemp setting i (cache.tempPath setting id n) shop := ⟨cache,id,n,rfl,hi⟩
    refine Changes.follows ⟨fun h => h,fun h => h,fun h => h,?_,?_⟩ hs rfl rfl
      fun path h => hs.missed h
    · intro path hp
      rcases List.mem_cons.mp hp with rfl | hp
      · exact .inr hown
      · exact .inl hp
    · intro path
      by_cases he : path = cache.tempPath setting id n
      · exact .inr (.inl (he ▸ hown))
      · exact .inl (Function.update_of_ne he _ _)

theorem follows_remove (hk : ¬ keep path) :
    Follows setting start base keep i shop (shop.remove path) := by
  unfold Shop.remove
  split
  · exact hs.follows_refl
  · refine Changes.follows ⟨fun h => h,fun h => h,fun h => List.mem_cons_of_mem _ h,.inl,?_⟩ hs
      rfl rfl fun path h => List.mem_cons_of_mem _ (hs.missed h)
    intro path'
    by_cases he : path' = path
    · subst he
      exact .inr (.inr (.inl ⟨Function.update_self _ _ _,List.mem_cons_self,hk⟩))
    · exact .inl (Function.update_of_ne he _ _)

theorem follows_move (hi : (n,i) ∈ shop.owners) (hp : cache.pathFor setting record = some path)
    (hnew : keep path → start path = none) (hd : (record.id,data) ∈ shop.downloads)
    (hf : shop.files (cache.tempPath setting record.id n) = some (.file data)) :
    Follows setting start base keep i shop
      (shop.move (cache.tempPath setting record.id n) path) := by
  refine Changes.follows ⟨fun h => h,fun h => h,fun h => h,.inl,?_⟩ hs rfl rfl
    fun path h => hs.missed h
  intro path'
  by_cases he : path' = path
  · subst he
    exact .inr (.inr (.inr ⟨cache,record,data,hp,hnew,hd,(Function.update_self _ _ _).trans hf⟩))
  · by_cases ht : path' = cache.tempPath setting record.id n
    · exact .inr (.inl ⟨cache,record.id,n,ht,hi⟩)
    · exact .inl ((Function.update_of_ne he _ _).trans (Function.update_of_ne ht _ _))

theorem follows_miss (hr : path ∈ shop.removed) :
    Follows setting start base keep i shop (shop.miss path) := by
  refine Changes.follows ⟨fun h => h,fun h => h,fun h => h,.inl,fun _ => .inl rfl⟩ hs rfl rfl ?_
  intro path' hm
  rcases List.mem_cons.mp hm with rfl | hm
  · exact hr
  · exact hs.missed hm

/-- Only a write shows while it is under way. -/
theorem touch {o : CacheOp Uuid} (ho : o.isWrite = false) (fate : Upshot) :
    Follows setting start base keep i shop (machine.touch i fate o shop) ∧
      Sane setting start base keep (machine.touch i fate o shop) := by
  have ht : machine.touch i fate o shop = shop := by
    cases o with
    | write path data => cases ho
    | _ => cases fate <;> rfl
  rw [ht]
  exact ⟨hs.follows_refl,hs⟩

end Sane

-- ════════════════════════════════════════════════════════════════════════
-- The operations
-- ════════════════════════════════════════════════════════════════════════

section Works

variable (setting start base keep)

/-- A program of a call that keeps its guarantee, whatever the other calls do, and leaves a
sane state however it ends. -/
abbrev Safely {α : Type} (i : ℕ) (post : α → Shop Uuid → Prop) (work : Work Uuid α)
    (shop : Shop Uuid) : Prop :=
  Safe machine (Wrapped base) (Follows setting start base keep) i
    (fun a shop => Sane setting start base keep shop ∧ post a shop)
    (fun _ shop => Sane setting start base keep shop) work shop

variable {setting start base keep}

theorem stable_sane : Stable (Follows setting start base keep) i (Sane setting start base keep) :=
  fun _ _ _ _ _ hg => hg.2

/-- An assertion that others do not spoil in a sane state. -/
theorem stable_and {P : Shop Uuid → Prop}
    (hP : ∀ shop shop' j, j ≠ i → Sane setting start base keep shop → P shop →
      Changes setting start keep j shop shop' → P shop') :
    Stable (Follows setting start base keep) i
      (fun shop => Sane setting start base keep shop ∧ P shop) :=
  fun _ _ _ hj hs hg => ⟨hg.2,hP _ _ _ hj hs.1 hs.2 hg.1⟩

/-- An operation that changes nothing. -/
theorem safely_still {α : Type} {o : CacheOp Uuid} {f : CacheOp.Res o → Except AudioCacheError α}
    {post : α → Shop Uuid → Prop} (hs : Sane setting start base keep shop)
    (ho : o.isWrite = false)
    (hact : ∀ fate (shop : Shop Uuid) r shop', Sane setting start base keep shop →
      Shop.act i fate o shop = some (r,shop') → shop' = shop ∧ ∀ a, f r = .ok a → post a shop)
    (hpost : ∀ a shop shop' j, post a shop → Changes setting start keep j shop shop' →
      post a shop') :
    Safely setting start base keep i post (Program.perform o >>= fun r => .lift (f r)) shop := by
  refine Safe.call hs stable_sane ?_ ?_
    (fun a => stable_and fun shop shop' j _ _ hp hc => hpost a shop shop' j hp hc)
    (fun _ => stable_sane)
  · intro shop fate hs
    exact hs.touch ho fate
  · intro shop fate r shop' hs ha _
    obtain ⟨rfl,hok⟩ := hact fate shop r shop' hs ha
    exact ⟨hs.follows_refl,fun a hr => ⟨hs,hok a hr⟩,fun _ _ => hs⟩

/-- A file that is found stays if it is one to keep; one to keep that is not found was not
there at the start. -/
theorem safely_tryExists (hs : Sane setting start base keep shop)
    (hp : path.extension = some mp3) :
    Safely setting start base keep i
      (fun found shop => (found = true → keep path → shop.files path ≠ none) ∧
        (found = false → keep path → start path = none))
      (Work.tryExists path) shop := by
  refine safely_still hs rfl ?_ ?_
  · intro fate shop r shop' hs ha
    cases fate <;> cases ha
    · refine ⟨rfl,?_⟩
      rintro a ⟨⟩
      refine ⟨fun hfound _ => Option.isSome_iff_ne_none.mp hfound,?_⟩
      intro hfound hk
      have hnone : shop.files path = none := by simpa using hfound
      by_contra hstart
      exact hstart ((hs.kept hk hp hstart).symm.trans hnone)
    · exact ⟨rfl,fun a h => by cases h⟩
  · rintro a shop shop' j ⟨hfound,hnone⟩ hc
    exact ⟨fun hf hk => hc.present hp hk (hfound hf hk),hnone⟩

theorem safely_createDirAll (hs : Sane setting start base keep shop) :
    Safely setting start base keep i (fun _ _ => True) Work.createDirAll shop := by
  refine safely_still hs rfl ?_ (fun _ _ _ _ h _ => h)
  intro fate shop r shop' _ ha
  cases fate <;> cases ha <;> exact ⟨rfl,fun _ _ => trivial⟩

theorem safely_readDir (hs : Sane setting start base keep shop) (dir : String) :
    Safely setting start base keep i (fun entries _ => ∀ path ∈ entries, path.dir = dir)
      (Work.readDir dir) shop := by
  refine safely_still hs rfl ?_ (fun _ _ _ _ h _ => h)
  intro fate shop r shop' _ ha
  cases fate <;> cases ha
  · exact ⟨rfl,fun a h => by cases h⟩
  · refine ⟨rfl,?_⟩
    rintro entries ⟨⟩ path hp
    obtain ⟨name,_,rfl⟩ := List.mem_map.mp hp
    rfl

theorem safely_nextEntry (hs : Sane setting start base keep shop) :
    Safely setting start base keep i (fun _ _ => True) Work.nextEntry shop := by
  refine safely_still hs rfl ?_ (fun _ _ _ _ h _ => h)
  intro fate shop r shop' _ ha
  cases fate <;> cases ha <;> exact ⟨rfl,fun _ _ => trivial⟩

theorem safely_removeFile (hs : Sane setting start base keep shop) (hk : ¬ keep path) :
    Safely setting start base keep i (fun _ _ => True) (Work.removeFile path) shop := by
  refine Safe.perform hs stable_sane ?_ ?_ (fun _ => stable_and fun _ _ _ _ _ _ _ => trivial)
  · intro shop fate hs
    exact hs.touch rfl fate
  · intro shop fate r shop' hs ha _
    have hremoved : Follows setting start base keep i shop (shop.remove path) :=
      hs.follows_remove hk
    cases fate with
    | succeed =>
      cases ha
      exact ⟨hremoved,hremoved.2,trivial⟩
    | fail error took =>
      cases took <;> cases ha
      · exact ⟨hs.follows_refl,hs,trivial⟩
      · exact ⟨hremoved,hremoved.2,trivial⟩
    | _ => cases ha

theorem safely_retrieveAudio (hs : Sane setting start base keep shop) (id : Uuid) :
    Safely setting start base keep i (fun data shop => (id,data) ∈ shop.downloads)
      (Work.retrieveAudio id) shop := by
  refine Safe.call hs stable_sane ?_ ?_
    (fun _ => stable_and fun _ _ _ _ _ h hc => hc.downloads h) (fun _ => stable_sane)
  · intro shop fate hs
    exact hs.touch rfl fate
  · intro shop fate r shop' hs ha _
    cases fate with
    | reply data =>
      cases ha
      have hd : Follows setting start base keep i shop (shop.download id data) :=
        hs.follows_download id data
      refine ⟨hd,?_,fun _ _ => hd.2⟩
      rintro a ⟨⟩
      exact ⟨hd.2,List.mem_cons_self⟩
    | refuse error =>
      cases ha
      exact ⟨hs.follows_refl,fun a h => (by cases h),fun _ _ => hs⟩
    | _ => cases ha

/-- The number is the call's own, and if a write has created its file and the file is gone,
it was removed. -/
def Reserved (setting : Setting Uuid DataHash) (cache : AudioCache) (id : Uuid) (i : ℕ)
    (n : UInt64) (shop : Shop Uuid) : Prop :=
  (n,i) ∈ shop.owners ∧ (cache.tempPath setting id n ∈ shop.created →
    shop.files (cache.tempPath setting id n) = none → cache.tempPath setting id n ∈ shop.removed)

/-- The temporary file of the call is complete, or was removed. -/
def Filled (setting : Setting Uuid DataHash) (cache : AudioCache) (id : Uuid) (i : ℕ)
    (n : UInt64) (data : List UInt8) (shop : Shop Uuid) : Prop :=
  (n,i) ∈ shop.owners ∧ (shop.files (cache.tempPath setting id n) = some (.file data) ∨
    (shop.files (cache.tempPath setting id n) = none ∧
      cache.tempPath setting id n ∈ shop.removed))

theorem stable_reserved : Stable (Follows setting start base keep) i
    (fun shop => Sane setting start base keep shop ∧ Reserved setting cache id i n shop) := by
  refine stable_and ?_
  rintro shop shop' j hj hs ⟨hown,hgone⟩ hc
  refine ⟨hc.owners hown,?_⟩
  intro hcreated hnone
  rcases hc.created hcreated with hcreated | htemp
  · obtain he | ⟨_,hr⟩ := hc.temp hs hown hj cache id
    · exact hc.removed (hgone hcreated (he ▸ hnone))
    · exact hr
  · exact absurd (hs.owner hown htemp) hj

theorem stable_filled : Stable (Follows setting start base keep) i
    (fun shop => Sane setting start base keep shop ∧ Filled setting cache id i n data shop) := by
  refine stable_and ?_
  rintro shop shop' j hj hs ⟨hown,hfile⟩ hc
  refine ⟨hc.owners hown,?_⟩
  obtain he | hr := hc.temp hs hown hj cache id
  · rw [he]
    exact hfile.imp (fun h => h) (And.imp (fun h => h) hc.removed)
  · exact .inr hr

theorem safely_fetchAdd (hs : Sane setting start base keep shop) (cache : AudioCache) (id : Uuid) :
    Safely setting start base keep i (fun n shop => Reserved setting cache id i n shop)
      Work.fetchAdd shop := by
  refine Safe.perform hs stable_sane ?_ ?_ (fun _ => stable_reserved)
  · intro shop fate hs
    exact hs.touch rfl fate
  · intro shop fate r shop' hs ha hv
    have ha' : some (shop.tempCounter,shop.fetch i) = some (r,shop') := by
      cases fate <;> exact ha
    cases ha'
    have hf : Follows setting start base keep i shop (shop.fetch i) := hs.follows_fetch hv
    refine ⟨hf,hf.2,List.mem_cons_self,?_⟩
    intro hcreated
    -- no file has a name with this number yet
    obtain ⟨cache',id',n,j,he,hn⟩ := hs.created hcreated
    rw [← tempPath_number he] at hn
    exact absurd (hs.numbered hn) (Nat.lt_irrefl _)

theorem Reserved.put (h : Reserved setting cache id i n shop) (data : List UInt8) :
    Filled setting cache id i n data (shop.put (cache.tempPath setting id n) data) := by
  unfold Shop.put
  split
  · next hg => exact ⟨h.1,.inr ⟨hg.2,h.2 hg.1 hg.2⟩⟩
  · exact ⟨h.1,.inl (Function.update_self _ _ _)⟩

theorem Filled.reserved (h : Filled setting cache id i n data shop) :
    Reserved setting cache id i n shop := by
  refine ⟨h.1,?_⟩
  intro _ hnone
  rcases h.2 with hf | ⟨_,hr⟩
  · rw [hf] at hnone
    cases hnone
  · exact hr

theorem safely_write (hs : Sane setting start base keep shop)
    (hr : Reserved setting cache id i n shop) (data : List UInt8) :
    Safely setting start base keep i (fun _ shop => Filled setting cache id i n data shop)
      (Work.write (cache.tempPath setting id n) data) shop := by
  refine Safe.call (P := fun shop => Sane setting start base keep shop ∧
    Reserved setting cache id i n shop) ⟨hs,hr⟩ stable_reserved ?_ ?_ (fun _ => stable_filled)
    (fun _ => stable_sane)
  · rintro shop fate ⟨hs,hr⟩
    have hput : ∀ data, Follows setting start base keep i shop
        (shop.put (cache.tempPath setting id n) data) := hs.follows_put hr.1 cache id
    cases fate with
    | part k => exact ⟨hput _,(hput _).2,(hr.put _).reserved⟩
    | _ => exact ⟨hs.follows_refl,hs,hr⟩
  · rintro shop fate r shop' ⟨hs,hr⟩ ha _
    have hput : Follows setting start base keep i shop
        (shop.put (cache.tempPath setting id n) data) := hs.follows_put hr.1 cache id data
    cases fate <;> cases ha
    · have hclosed := hput.close (cache.tempPath setting id n)
      exact ⟨hclosed,fun _ _ => ⟨hclosed.2,hr.put data⟩,fun _ _ => hclosed.2⟩
    · have hclosed : Follows setting start base keep i shop
          (shop.close (cache.tempPath setting id n)) := hs.follows_refl.close _
      exact ⟨hclosed,fun a h => (by cases h),fun _ _ => hclosed.2⟩

/-- A file to keep that is there. -/
theorem stable_present (hp : path.extension = some mp3) : Stable (Follows setting start base keep) i
    (fun shop => Sane setting start base keep shop ∧ (keep path → shop.files path ≠ none)) := by
  refine stable_and ?_
  intro shop shop' j _ _ hf hc hk
  exact hc.present hp hk (hf hk)

theorem safely_rename (hs : Sane setting start base keep shop)
    (hp : cache.pathFor setting record = some path) (hnew : keep path → start path = none)
    (hd : (record.id,data) ∈ shop.downloads)
    (hw : Filled setting cache record.id i n data shop) :
    Safely setting start base keep i (fun _ shop => keep path → shop.files path ≠ none)
      (Work.rename (cache.tempPath setting record.id n) path) shop := by
  refine Safe.call (P := fun shop => (record.id,data) ∈ shop.downloads ∧
    Sane setting start base keep shop ∧ Filled setting cache record.id i n data shop) ⟨hd,hs,hw⟩
    ?_ ?_ ?_ (fun _ => stable_present (pathFor_extension hp)) (fun _ => stable_sane)
  · intro shop shop' j hj h hg
    exact ⟨hg.1.downloads h.1,stable_filled shop shop' j hj h.2 hg⟩
  · rintro shop fate ⟨hd,hs,hw⟩
    cases fate <;> exact ⟨hs.follows_refl,hd,hs,hw⟩
  · rintro shop fate r shop' ⟨hd,hs,hown,hfile⟩ ha _
    have hmoved : shop.files (cache.tempPath setting record.id n) = some (.file data) →
        Follows setting start base keep i shop
          (shop.move (cache.tempPath setting record.id n) path) :=
      fun hf => hs.follows_move hown hp hnew hd hf
    have hthere : shop.files (cache.tempPath setting record.id n) = some (.file data) →
        (shop.move (cache.tempPath setting record.id n) path).files path ≠ none := by
      intro hf
      rw [show (shop.move (cache.tempPath setting record.id n) path).files path = _ from
        Function.update_self _ _ _,hf]
      exact Option.some_ne_none _
    rcases hfile with hf | ⟨hnone,hremoved⟩
    · cases fate with
      | succeed =>
        simp only [machine,Shop.act,hf] at ha
        cases ha
        exact ⟨hmoved hf,fun _ _ => ⟨(hmoved hf).2,fun _ => hthere hf⟩,fun _ _ => (hmoved hf).2⟩
      | fail error took =>
        simp only [machine,Shop.act,hf] at ha
        cases took <;> cases ha
        · exact ⟨hs.follows_refl,fun a h => (by cases h),fun _ _ => hs⟩
        · exact ⟨hmoved hf,fun a h => (by cases h),fun _ _ => (hmoved hf).2⟩
      | _ => cases ha
    · cases fate with
      | succeed =>
        simp [machine,Shop.act,hnone] at ha
      | fail error took =>
        simp only [machine,Shop.act,hnone,if_true] at ha
        cases ha
        have hmissed : Follows setting start base keep i shop
            (shop.miss (cache.tempPath setting record.id n)) := hs.follows_miss hremoved
        exact ⟨hmissed,fun a h => (by cases h),fun _ _ => hmissed.2⟩
      | _ => cases ha

end Works

end BloopClient.Audio

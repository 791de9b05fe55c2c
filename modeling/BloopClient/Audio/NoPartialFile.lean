import BloopClient.Audio.RaceResults

/-!
# No partial file under a final name

Concurrent calls of `ensure` alone, however they are interleaved and wherever they are cut
off. Every temporary name belongs to one call, only complete data is renamed, and nothing
is removed, so the path of a record holds complete data from the moment it is there.
-/

namespace BloopClient.Audio
open Tracelib AudioCache

variable {Uuid DataHash : Type} {setting : Setting Uuid DataHash} {start : Path → Option Entry}
  {counter : UInt64} {actions : List (CallAction Uuid DataHash)} {cache : AudioCache}
  {record : AchievementRecord Uuid DataHash} {path : Path}

/-- Where nothing is pruned every audio file is to be kept. -/
theorem expected_of_ensures (hensures : ∀ cache records, .sync cache records ∉ actions)
    (hp : path.extension = some mp3) : Expected setting actions path :=
  ⟨hp,fun cache records hs => absurd hs (hensures cache records)⟩

/-- A call begins with its check, and is over if that finds the file. -/
theorem ensureCall_await (hp : cache.pathFor setting record = some path) :
    ∃ next, ensureCall setting cache record = .await (.tryExists path) next ∧
      next (.ok true) = .done (.ensured cache record (.ok (some path))) := by
  rw [ensureCall,ensureWork,hp]
  exact ⟨_,rfl,rfl⟩

theorem turn_found {crew : Calls Uuid DataHash} {i : ℕ}
    (hi : crew.workers[i]? = some (.running (ensureCall setting cache record)))
    (hp : cache.pathFor setting record = some path) (hf : crew.shared.files path ≠ none) :
    (crew.turn machine i (.act .succeed)).workers[i]? =
      some (.running (.done (.ensured cache record (.ok (some path))))) := by
  obtain ⟨next,hawait,hnext⟩ := ensureCall_await hp
  have hfound : (crew.shared.files path).isSome = true := Option.isSome_iff_ne_none.mpr hf
  rw [hawait] at hi
  simp only [Crew.turn,hi,machine,Shop.act,hfound,hnext]
  exact getElem?_set_of_some hi

/-- For any calls of `ensure` in one process, interleaved and cut off in any way, as long as
the counter of temporary names does not wrap: the path of a record is as it was at the start
if it was there, and otherwise absent or holds the complete data of a download for the
record; what is there stays there; a call whose check finds the file there returns at once,
and awaits nothing more; and a call that has returned a path returned that of its record,
with a file there. -/
theorem ensure_never_torn (setting : Setting Uuid DataHash) (start : Path → Option Entry)
    (counter : UInt64) (actions : List (CallAction Uuid DataHash))
    (hensures : ∀ cache records, .sync cache records ∉ actions)
    (hwrap : counter.toNat + (calls setting start counter actions).shared.owners.length < 2 ^ 64) :
    let crew := calls setting start counter actions
    (∀ cache record path, AudioCache.pathFor setting cache record = some path →
      (start path = none → crew.shared.files path = none ∨
        ∃ data, (record.id,data) ∈ crew.shared.downloads ∧
          crew.shared.files path = some (.file data)) ∧
      (start path ≠ none → crew.shared.files path = start path) ∧
      ∀ earlier later, actions = earlier ++ later →
        (calls setting start counter earlier).shared.files path ≠ none →
        crew.shared.files path ≠ none) ∧
    (∀ (i : ℕ) cache record path earlier later,
      actions = earlier ++ .turn i (.act .succeed) :: later →
      (calls setting start counter earlier).workers[i]? =
        some (.running (ensureCall setting cache record)) →
      cache.pathFor setting record = some path →
      (calls setting start counter earlier).shared.files path ≠ none →
      crew.workers[i]? = some (.running (.done (.ensured cache record (.ok (some path)))))) ∧
    ∀ (i : ℕ) cache record path,
      crew.workers[i]? = some (.running (.done (.ensured cache record (.ok (some path))))) →
      cache.pathFor setting record = some path ∧ crew.shared.files path ≠ none := by
  intro crew
  have horderly : Orderly setting start counter.toNat (Expected setting actions) crew :=
    calls_orderly setting start counter (List.Subset.refl actions) hwrap
  refine ⟨?_,?_,?_⟩
  · intro cache record path hp
    have hexpected : Expected setting actions path :=
      expected_of_ensures hensures (pathFor_extension hp)
    refine ⟨?_,horderly.inv.kept hexpected hexpected.1,?_⟩
    · intro hstart
      rcases horderly.inv.complete hp with hnone | he | hdata
      · exact .inl hnone
      · exact .inl (he.trans hstart)
      · exact .inr hdata
    · rintro earlier later rfl hf
      exact expected_stays setting start counter hwrap hexpected hf
  · rintro i cache record path earlier later rfl hi hp hf
    have hturn : crew = ((calls setting start counter earlier).turn machine i
        (.act .succeed)).run machine (later.map (·.crewAction setting)) := by
      show calls setting start counter _ = _
      rw [calls_append]
      rfl
    rw [hturn]
    exact Crew.run_done machine _ (turn_found hi hp hf)
  · intro i cache record path hi
    have hprovided := (horderly.safe i _ hi _ .refl).2
    refine ⟨hprovided.1,hprovided.2 path rfl ?_⟩
    exact expected_of_ensures hensures (pathFor_extension hprovided.1)

/-- Two calls for one record, both past their check: the first has its file in place while
the second has written half of its own and is dropped. -/
def racing : List (CallAction ℕ ℕ) :=
  [.ensure ⟨"cache"⟩ ⟨2,some 1⟩,.ensure ⟨"cache"⟩ ⟨2,some 1⟩,.turn 0 (.act .succeed),
    .turn 1 (.act .succeed),.turn 0 (.act .succeed),.turn 1 (.act .succeed),
    .turn 0 (.act (.reply [1,2])),.turn 1 (.act (.reply [3,4])),.turn 0 (.act .succeed),
    .turn 1 (.act .succeed),.turn 0 (.act .succeed),.turn 1 (.touch (.part 1)),
    .turn 0 (.act .succeed),.turn 1 .drop,.ensure ⟨"cache"⟩ ⟨2,some 1⟩]

/-- A third call finds the file of the first. -/
theorem ensure_never_torn_racing :
    let crew := calls leftoversSetting leftoversDisk.files 0
      (racing ++ [.turn 2 (.act .succeed)])
    crew.shared.files ⟨"cache","aa.1.download".toList⟩ = some (.file [3]) ∧
    crew.shared.files ⟨"cache","aa_f.mp3".toList⟩ = some (.file [1,2]) ∧
    (∃ data, (2,data) ∈ crew.shared.downloads ∧
      crew.shared.files ⟨"cache","aa_f.mp3".toList⟩ = some (.file data)) ∧
    crew.workers[2]? = some (.running (.done (.ensured ⟨"cache"⟩ ⟨2,some 1⟩
      (.ok (some ⟨"cache","aa_f.mp3".toList⟩))))) := by
  intro crew
  have hfile : crew.shared.files ⟨"cache","aa_f.mp3".toList⟩ = some (.file [1,2]) := by
    decide +kernel
  obtain ⟨hpath,hfound,_⟩ := ensure_never_torn leftoversSetting leftoversDisk.files 0
    (racing ++ [.turn 2 (.act .succeed)]) (by simp [racing]) (by decide +kernel)
  have hrecord := hpath ⟨"cache"⟩ ⟨2,some 1⟩ ⟨"cache","aa_f.mp3".toList⟩ (by decide +kernel)
  refine ⟨by decide +kernel,hfile,(hrecord.1 (by decide +kernel)).resolve_left ?_,?_⟩
  · exact fun hnone => absurd (hfile.symm.trans hnone) (Option.some_ne_none _)
  · exact hfound 2 ⟨"cache"⟩ ⟨2,some 1⟩ _ racing [] rfl rfl (by decide +kernel) (by decide +kernel)

end BloopClient.Audio

import BloopClient.Tracelib.Interference

/-!
# Programs on their own among others

A handler runs a program on its own, a crew runs it operation by operation. A program is
emulated if turns of its worker can come to whatever the handler lets it come to, with the
shared state related to the one of the handler. What is true of all runs of a crew is then
true of the program on its own.

## Main definitions

- `Emulated` — every operation of a program can go the way the handler has it go

## Main results

- `Emulated.bind`, `Emulated.attempt`, `Emulated.lift` — the rules for programs
- `Emulated.exists_turns` — a crew gets to where the handler gets
-/

namespace Tracelib

variable {σ τ Choice Op : Type} {Res : Op → Type} {ε α β : Type}

/-- The state after an operation under way has shown. -/
def touches (m : Machine σ Choice Op Res) (i : ℕ) (o : Op) (s : σ) (cs : List Choice) : σ :=
  cs.foldl (fun s c => m.touch i c o s) s

/-- What a worker that is dropped at an operation can leave. -/
def Leaves (m : Machine σ Choice Op Res) (i : ℕ) (o : Op) (s s' : σ) : Prop :=
  ∃ cs, s' = touches m i o s cs ∨ ∃ c r, m.act i c o (touches m i o s cs) = some (r,s')

/-- Worker `i` can follow the handler through the program: from related states each
operation can have the result it has there, and leave what it leaves there. -/
def Emulated (m : Machine σ Choice Op Res) (handle : (o : Op) → Fut τ ε (Res o)) (i : ℕ)
    (post : α → σ → τ → Prop) (stop : ε → σ → τ → Prop) (left : σ → τ → Prop) :
    Program Op Res ε α → σ → τ → Prop
  | .done a,s,d => post a s d
  | .fail e,s,d => stop e s d
  | .await o next,s,d =>
    (∀ r d', handle o d = (.ok r,d') → ∃ cs c s', m.act i c o (touches m i o s cs) = some (r,s') ∧
      Emulated m handle i post stop left (next r) s' d') ∧
    ∀ d', handle o d = (.dropped,d') ∨ handle o d = (.elapsed,d') →
      ∃ s', Leaves m i o s s' ∧ left s' d'

variable {m : Machine σ Choice Op Res} {handle : (o : Op) → Fut τ ε (Res o)} {i : ℕ}
  {post : α → σ → τ → Prop} {stop : ε → σ → τ → Prop} {left : σ → τ → Prop} {s : σ} {d : τ}
  {p : Program Op Res ε α}

namespace Emulated

/-- Sequencing: the second program starts where the first has got to. -/
theorem bind {q : α → σ → τ → Prop} {post : β → σ → τ → Prop} {f : α → Program Op Res ε β}
    (h : Emulated m handle i q stop left p s d)
    (hf : ∀ a s d, q a s d → Emulated m handle i post stop left (f a) s d) :
    Emulated m handle i post stop left (p >>= f) s d := by
  induction p generalizing s d with
  | done a => exact hf a s d h
  | fail e => exact h
  | await o next ih =>
    refine ⟨?_,h.2⟩
    intro r d' hr
    obtain ⟨cs,c,s',ha,hn⟩ := h.1 r d' hr
    exact ⟨cs,c,s',ha,ih r hn⟩

/-- An error that is handed on as a value. -/
theorem attempt {post' : Except ε α → σ → τ → Prop} {stop' : ε → σ → τ → Prop}
    (h : Emulated m handle i post stop left p s d)
    (hok : ∀ a s d, post a s d → post' (.ok a) s d)
    (herror : ∀ e s d, stop e s d → post' (.error e) s d) :
    Emulated m handle i post' stop' left p.attempt s d := by
  induction p generalizing s d with
  | done a => exact hok a s d h
  | fail e => exact herror e s d h
  | await o next ih =>
    refine ⟨?_,h.2⟩
    intro r d' hr
    obtain ⟨cs,c,s',ha,hn⟩ := h.1 r d' hr
    exact ⟨cs,c,s',ha,ih r hn⟩

theorem lift {x : Except ε α} (hok : ∀ a, x = .ok a → post a s d)
    (herror : ∀ e, x = .error e → stop e s d) :
    Emulated m handle i post stop left (.lift x) s d := by
  cases x with
  | ok a => exact hok a rfl
  | error e => exact herror e rfl

end Emulated

-- ════════════════════════════════════════════════════════════════════════
-- Turns
-- ════════════════════════════════════════════════════════════════════════

/-- A crew has come to where a program on its own has come to. -/
def Arrived (post : α → σ → τ → Prop) (stop : ε → σ → τ → Prop) (left : σ → τ → Prop) (i : ℕ)
    (crew : Crew σ Op Res ε α) : Outcome ε α × τ → Prop
  | (.ok a,d) => crew.workers[i]? = some (.running (.done a)) ∧ post a crew.shared d
  | (.err e,d) => crew.workers[i]? = some (.running (.fail e)) ∧ stop e crew.shared d
  | (.dropped,d) => (∀ p, crew.workers[i]? ≠ some (.running p)) ∧ left crew.shared d
  | (.elapsed,d) => (∀ p, crew.workers[i]? ≠ some (.running p)) ∧ left crew.shared d

namespace Crew

variable {crew : Crew σ Op Res ε α} {o : Op} {next : Res o → Program Op Res ε α}

/-- The operation a worker awaits shows. -/
theorem run_touches (hi : crew.workers[i]? = some (.running (.await o next))) (cs : List Choice) :
    crew.run m ((cs.map .touch).map (.turn i)) =
      ⟨touches m i o crew.shared cs,crew.workers⟩ := by
  induction cs generalizing crew with
  | nil => rfl
  | cons c cs ih =>
    have hstep : crew.step m (.turn i (.touch c)) =
        ⟨m.touch i c o crew.shared,crew.workers⟩ := by
      simp only [step,turn,hi]
    rw [List.map_cons,List.map_cons,run_cons,hstep]
    exact ih hi

/-- It shows, and then comes to its end. -/
theorem run_acts {cs : List Choice} {c : Choice} {r : Res o} {s' : σ}
    (hi : crew.workers[i]? = some (.running (.await o next)))
    (ha : m.act i c o (touches m i o crew.shared cs) = some (r,s')) (turns : List (Turn Choice)) :
    crew.run m ((cs.map Turn.touch ++ Turn.act c :: turns).map (.turn i)) =
      run m ⟨s',crew.workers.set i (.running (next r))⟩ (turns.map (.turn i)) := by
  have hact : step m ⟨touches m i o crew.shared cs,crew.workers⟩ (.turn i (.act c)) =
      ⟨s',crew.workers.set i (.running (next r))⟩ := by
    simp only [step,turn,hi,ha]
  rw [List.map_append,run_append,run_touches hi,List.map_cons,run_cons,hact]

/-- The worker is dropped, and what it awaited may still come to its end. -/
theorem exists_drops {s' : σ} (hi : crew.workers[i]? = some (.running (.await o next)))
    (hleaves : Leaves m i o crew.shared s') : ∃ turns : List (Turn Choice),
      (crew.run m (turns.map (.turn i))).shared = s' ∧
      ∀ p, (crew.run m (turns.map (.turn i))).workers[i]? ≠ some (.running p) := by
  obtain ⟨cs,hleft⟩ := hleaves
  have habandoned : (crew.workers.set i (.abandoned o))[i]? = some (.abandoned o) :=
    getElem?_set_of_some hi
  have hdrop : step m ⟨touches m i o crew.shared cs,crew.workers⟩ (.turn i .drop) =
      ⟨touches m i o crew.shared cs,crew.workers.set i (.abandoned o)⟩ := by
    simp only [step,turn,hi]
  have hrun : ∀ turns : List (Turn Choice),
      crew.run m ((cs.map Turn.touch ++ Turn.drop :: turns).map (.turn i)) =
        run m ⟨touches m i o crew.shared cs,crew.workers.set i (.abandoned o)⟩
          (turns.map (.turn i)) := by
    intro turns
    rw [List.map_append,run_append,run_touches hi,List.map_cons,run_cons,hdrop]
  rcases hleft with rfl | ⟨c,r,ha⟩
  · refine ⟨cs.map .touch ++ [.drop],?_⟩
    rw [hrun]
    refine ⟨rfl,fun p hp => ?_⟩
    cases habandoned.symm.trans hp
  · have hlinger : step m ⟨touches m i o crew.shared cs,crew.workers.set i (.abandoned o)⟩
        (.turn i (.act c)) = ⟨s',(crew.workers.set i (.abandoned o)).set i .gone⟩ := by
      simp only [step,turn,habandoned,ha]
    refine ⟨cs.map .touch ++ [.drop,.act c],?_⟩
    rw [hrun,List.map_cons,run_cons,hlinger]
    refine ⟨rfl,fun p hp => ?_⟩
    cases (getElem?_set_of_some habandoned).symm.trans hp

end Crew

/-- Whatever the handler lets an emulated program come to, its worker can come to. -/
theorem Emulated.exists_turns (hh : Program.Total handle) {crew : Crew σ Op Res ε α}
    (h : Emulated m handle i post stop left p crew.shared d)
    (hi : crew.workers[i]? = some (.running p)) :
    ∃ turns : List (Turn Choice), Arrived post stop left i
      (crew.run m (turns.map (.turn i))) (p.run handle d) := by
  induction p generalizing crew d with
  | done a => exact ⟨[],hi,h⟩
  | fail e => exact ⟨[],hi,h⟩
  | await o next ih =>
    rw [Program.run,Fut.bind_apply]
    rcases hr : handle o d with ⟨r,d'⟩
    cases r with
    | ok r =>
      obtain ⟨cs,c,s',ha,hn⟩ := h.1 r d' hr
      have hnext : Emulated m handle i post stop left (next r)
          (Crew.shared ⟨s',crew.workers.set i (.running (next r))⟩) d' := hn
      obtain ⟨turns,harrived⟩ := ih r hnext (getElem?_set_of_some hi)
      refine ⟨cs.map .touch ++ .act c :: turns,?_⟩
      rw [Crew.run_acts hi ha]
      exact harrived
    | err e => exact absurd (congrArg Prod.fst hr) (hh o d e)
    | dropped =>
      obtain ⟨s',hleaves,hleft⟩ := h.2 d' (.inl hr)
      obtain ⟨turns,hshared,hnot⟩ := Crew.exists_drops hi hleaves
      exact ⟨turns,hnot,hshared ▸ hleft⟩
    | elapsed =>
      obtain ⟨s',hleaves,hleft⟩ := h.2 d' (.inr hr)
      obtain ⟨turns,hshared,hnot⟩ := Crew.exists_drops hi hleaves
      exact ⟨turns,hnot,hshared ▸ hleft⟩

end Tracelib

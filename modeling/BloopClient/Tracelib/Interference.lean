import BloopClient.Tracelib.Program
import BloopClient.Tracelib.Table
import Mathlib.Logic.Relation

/-!
# Programs that interfere

Any number of programs over one shared state, interleaved operation by operation. An
operation under way may show before it ends; a program may be dropped at any of its
operations, which may then still come to its end. Reasoning is by rely and guarantee: each
worker says what its own steps do to the state, and its assertions hold out against what
the steps of the others may do.

## Main definitions

- `Machine` — what operations do to the shared state
- `Safe` — a program keeps a guarantee and meets its postconditions under interference
- `Crew` — workers over a shared state, and how they take turns
- `Crew.Sound` — every worker of a crew is safe

## Main results

- `Safe.bind`, `Safe.perform`, `Safe.call`, `Safe.attempt`, `Safe.frame` — the rules for
  programs
- `Crew.Sound.run` — a crew of safe programs stays sound
- `Crew.run_done` — what a worker has come to stays
-/

namespace Tracelib

variable {σ Choice Op : Type} {Res : Op → Type} {ε ε' α β : Type}

/-- What operations do, by the number of the worker and a choice of the world: `act` ends
an operation with a result, if that is possible, and `touch` lets one that is under way
show. -/
structure Machine (σ Choice Op : Type) (Res : Op → Type) where
  act : ℕ → Choice → (o : Op) → σ → Option (Res o × σ)
  touch : ℕ → Choice → Op → σ → σ

section Safe

variable (m : Machine σ Choice Op Res) (void : σ → Prop) (guar : ℕ → σ → σ → Prop) (i : ℕ)

/-- What others may do to the state. -/
def Rely : σ → σ → Prop := Relation.ReflTransGen fun s s' => ∃ j, j ≠ i ∧ guar j s s'

/-- What may happen to the state while worker `i` awaits an operation. -/
def Drift (o : Op) : σ → σ → Prop := Relation.ReflTransGen fun s s' =>
  (∃ j, j ≠ i ∧ guar j s s') ∨ ∃ c, s' = m.touch i c o s

/-- Whatever an operation under way does keeps the guarantee. -/
def Loose (o : Op) (s : σ) : Prop := ∀ s', Drift m guar i o s s' →
  (∀ c, guar i s' (m.touch i c o s')) ∧
    ∀ c r s'', m.act i c o s' = some (r,s'') → ¬ void s'' → guar i s' s''

/-- From the state `s` on, and whatever others do, every step of the program keeps the
guarantee, and it ends with `post` or `stop`. States that are void are not asked about. -/
def Safe (post : α → σ → Prop) (stop : ε → σ → Prop) : Program Op Res ε α → σ → Prop
  | .done a, s => ∀ s', Rely guar i s s' → post a s'
  | .fail e, s => ∀ s', Rely guar i s s' → stop e s'
  | .await o next, s => ∀ s', Drift m guar i o s s' →
      (∀ c, guar i s' (m.touch i c o s')) ∧
        ∀ c r s'', m.act i c o s' = some (r,s'') → ¬ void s'' →
          guar i s' s'' ∧ Safe post stop (next r) s''

end Safe

variable {m : Machine σ Choice Op Res} {void : σ → Prop} {guar : ℕ → σ → σ → Prop} {i : ℕ}
  {post post' : α → σ → Prop} {stop stop' : ε → σ → Prop} {s s' : σ} {o : Op}

theorem Rely.drift (h : Rely guar i s s') : Drift m guar i o s s' :=
  h.lift id fun _ _ => .inl

/-- An assertion of worker `i` that no step of another one spoils. -/
def Stable (guar : ℕ → σ → σ → Prop) (i : ℕ) (P : σ → Prop) : Prop :=
  ∀ s s' j, j ≠ i → P s → guar j s s' → P s'

theorem Rely.keeps {P : σ → Prop} (hP : Stable guar i P) (h : Rely guar i s s') (hs : P s) :
    P s' := by
  induction h with
  | refl => exact hs
  | tail _ hstep ih =>
    obtain ⟨j,hj,hg⟩ := hstep
    exact hP _ _ j hj ih hg

theorem Drift.keeps {P : σ → Prop} (hP : Stable guar i P)
    (htouch : ∀ s c, P s → P (m.touch i c o s)) (h : Drift m guar i o s s') (hs : P s) : P s' := by
  induction h with
  | refl => exact hs
  | tail _ hstep ih =>
    rcases hstep with ⟨j,hj,hg⟩ | ⟨c,rfl⟩
    · exact hP _ _ j hj ih hg
    · exact htouch _ c ih

namespace Safe

theorem loose {next : Res o → Program Op Res ε α}
    (h : Safe m void guar i post stop (.await o next) s) : Loose m void guar i o s := by
  intro s' hd
  obtain ⟨ht,ha⟩ := h s' hd
  exact ⟨ht,fun c r s'' hact hv => (ha c r s'' hact hv).1⟩

/-- What others do leaves a safe program safe. -/
theorem rely {p : Program Op Res ε α} (h : Safe m void guar i post stop p s)
    (hr : Rely guar i s s') : Safe m void guar i post stop p s' := by
  cases p with
  | done a => exact fun s'' hr' => h s'' (hr.trans hr')
  | fail e => exact fun s'' hr' => h s'' (hr.trans hr')
  | await o next => exact fun s'' hd => h s'' (hr.drift.trans hd)

theorem touch {next : Res o → Program Op Res ε α}
    (h : Safe m void guar i post stop (.await o next) s) (c : Choice) :
    Safe m void guar i post stop (.await o next) (m.touch i c o s) :=
  fun s'' hd => h s'' (Relation.ReflTransGen.head (.inr ⟨c,rfl⟩) hd)

theorem mono {p : Program Op Res ε α} (h : Safe m void guar i post stop p s)
    (hpost : ∀ a s, post a s → post' a s) (hstop : ∀ e s, stop e s → stop' e s) :
    Safe m void guar i post' stop' p s := by
  induction p generalizing s with
  | done a => exact fun s' hr => hpost a s' (h s' hr)
  | fail e => exact fun s' hr => hstop e s' (h s' hr)
  | await o next ih =>
    intro s' hd
    obtain ⟨ht,ha⟩ := h s' hd
    refine ⟨ht,fun c r s'' hact hv => ?_⟩
    obtain ⟨hg,hn⟩ := ha c r s'' hact hv
    exact ⟨hg,ih r hn⟩

/-- Sequencing: the postcondition of the first program is the precondition of the second. -/
theorem bind {p : Program Op Res ε α} {f : α → Program Op Res ε β} {q : α → σ → Prop}
    {post : β → σ → Prop} (h : Safe m void guar i q stop p s)
    (hf : ∀ a s, q a s → Safe m void guar i post stop (f a) s) :
    Safe m void guar i post stop (p >>= f) s := by
  induction p generalizing s with
  | done a => exact hf a s (h s .refl)
  | fail e => exact h
  | await o next ih =>
    intro s' hd
    obtain ⟨ht,ha⟩ := h s' hd
    refine ⟨ht,fun c r s'' hact hv => ?_⟩
    obtain ⟨hg,hn⟩ := ha c r s'' hact hv
    exact ⟨hg,ih r hn⟩

/-- An error that is handed on as a value. -/
theorem attempt {p : Program Op Res ε α} {post' : Except ε α → σ → Prop}
    {stop' : ε' → σ → Prop} (h : Safe m void guar i post stop p s)
    (hok : ∀ a s, post a s → post' (.ok a) s) (herror : ∀ e s, stop e s → post' (.error e) s) :
    Safe m void guar i post' stop' p.attempt s := by
  induction p generalizing s with
  | done a => exact fun s' hr => hok a s' (h s' hr)
  | fail e => exact fun s' hr => herror e s' (h s' hr)
  | await o next ih =>
    intro s' hd
    obtain ⟨ht,ha⟩ := h s' hd
    refine ⟨ht,fun c r s'' hact hv => ?_⟩
    obtain ⟨hg,hn⟩ := ha c r s'' hact hv
    exact ⟨hg,ih r hn⟩

/-- What every guarantee keeps may be carried along. -/
theorem frame {F : σ → Prop} {p : Program Op Res ε α}
    (hF : ∀ j s s', F s → guar j s s' → F s') (h : Safe m void guar i post stop p s) (hs : F s) :
    Safe m void guar i (fun a s => F s ∧ post a s) (fun e s => F s ∧ stop e s) p s := by
  have hstable : Stable guar i F := fun s s' j _ hs hg => hF j s s' hs hg
  induction p generalizing s with
  | done a => exact fun s' hr => ⟨hr.keeps hstable hs,h s' hr⟩
  | fail e => exact fun s' hr => ⟨hr.keeps hstable hs,h s' hr⟩
  | await o next ih =>
    have hdrift : ∀ s', Drift m guar i o s s' → F s' := by
      intro s' hd
      induction hd with
      | refl => exact hs
      | tail hd hstep ihd =>
        rcases hstep with ⟨j,_,hg⟩ | ⟨c,rfl⟩
        · exact hF j _ _ ihd hg
        · exact hF i _ _ ihd ((h _ hd).1 c)
    intro s' hd
    obtain ⟨ht,ha⟩ := h s' hd
    refine ⟨ht,fun c r s'' hact hv => ?_⟩
    obtain ⟨hg,hn⟩ := ha c r s'' hact hv
    exact ⟨hg,ih r hn (hF i _ _ (hdrift s' hd) hg)⟩

/-- Sequencing with a fact that is carried along the first program. -/
theorem bind_frame {F : σ → Prop} {p : Program Op Res ε α} {f : α → Program Op Res ε β}
    {q : α → σ → Prop} {post : β → σ → Prop} (hF : ∀ j s s', F s → guar j s s' → F s')
    (h : Safe m void guar i q stop p s) (hs : F s)
    (hf : ∀ a s, F s → q a s → Safe m void guar i post stop (f a) s) :
    Safe m void guar i post stop (p >>= f) s :=
  ((h.frame hF hs).mono (fun _ _ h => h) (fun _ _ h => h.2)).bind
    fun a s ha => hf a s ha.1 ha.2

/-- A program that ends with a value in a state others do not spoil. -/
theorem done {a : α} (hP : Stable guar i (post a)) (hs : post a s) :
    Safe m void guar i post stop (.done a) s :=
  fun _ hr => hr.keeps hP hs

theorem fail {e : ε} (hP : Stable guar i (stop e)) (hs : stop e s) :
    Safe m void guar i post stop (.fail e) s :=
  fun _ hr => hr.keeps hP hs

/-- One operation, under an assertion that holds out until it ends. -/
theorem perform {P : σ → Prop} {q : Res o → σ → Prop} (hs : P s) (hP : Stable guar i P)
    (htouch : ∀ s c, P s → guar i s (m.touch i c o s) ∧ P (m.touch i c o s))
    (hact : ∀ s c r s', P s → m.act i c o s = some (r,s') → ¬ void s' → guar i s s' ∧ q r s')
    (hq : ∀ r, Stable guar i (q r)) :
    Safe m void guar i q stop (.perform o) s := by
  intro s' hd
  have hs' : P s' := hd.keeps hP (fun s c h => (htouch s c h).2) hs
  refine ⟨fun c => (htouch s' c hs').1,fun c r s'' ha hv => ?_⟩
  obtain ⟨hg,hr⟩ := hact s' c r s'' hs' ha hv
  exact ⟨hg,.done (hq r) hr⟩

/-- One operation whose error is propagated. -/
theorem call {P : σ → Prop} {f : Res o → Except ε α} (hs : P s) (hP : Stable guar i P)
    (htouch : ∀ s c, P s → guar i s (m.touch i c o s) ∧ P (m.touch i c o s))
    (hact : ∀ s c r s', P s → m.act i c o s = some (r,s') → ¬ void s' → guar i s s' ∧
      (∀ a, f r = .ok a → post a s') ∧ ∀ e, f r = .error e → stop e s')
    (hpost : ∀ a, Stable guar i (post a)) (hstop : ∀ e, Stable guar i (stop e)) :
    Safe m void guar i post stop (.perform o >>= fun r => .lift (f r)) s := by
  intro s' hd
  have hs' : P s' := hd.keeps hP (fun s c h => (htouch s c h).2) hs
  refine ⟨fun c => (htouch s' c hs').1,fun c r s'' ha hv => ?_⟩
  obtain ⟨hg,hok,herror⟩ := hact s' c r s'' hs' ha hv
  refine ⟨hg,?_⟩
  show Safe m void guar i post stop (.lift (f r)) s''
  cases hr : f r with
  | ok a => exact .done (hpost a) (hok a hr)
  | error e => exact .fail (hstop e) (herror e hr)

end Safe

theorem Loose.rely (h : Loose m void guar i o s) (hr : Rely guar i s s') :
    Loose m void guar i o s' :=
  fun s'' hd => h s'' (hr.drift.trans hd)

theorem Loose.touch (h : Loose m void guar i o s) (c : Choice) :
    Loose m void guar i o (m.touch i c o s) :=
  fun s'' hd => h s'' (Relation.ReflTransGen.head (.inr ⟨c,rfl⟩) hd)

-- ════════════════════════════════════════════════════════════════════════
-- Crews
-- ════════════════════════════════════════════════════════════════════════

/-- A program that is awaited, one that was dropped with an operation still under way, or
nothing. -/
inductive Worker (Op : Type) (Res : Op → Type) (ε α : Type)
  | running (program : Program Op Res ε α)
  | abandoned (o : Op)
  | gone

/-- Workers over a shared state, in the order they were hired. -/
structure Crew (σ Op : Type) (Res : Op → Type) (ε α : Type) where
  shared : σ
  workers : List (Worker Op Res ε α)

/-- What can happen to a worker. -/
inductive Turn (Choice : Type)
  | act (c : Choice)
  | touch (c : Choice)
  | drop
  deriving DecidableEq, Repr

inductive CrewAction (Choice Op : Type) (Res : Op → Type) (ε α : Type)
  | hire (program : Program Op Res ε α)
  | turn (i : ℕ) (what : Turn Choice)

namespace Crew

/-- A turn of a worker. One that is not possible at the moment does nothing. -/
def turn (m : Machine σ Choice Op Res) (self : Crew σ Op Res ε α) (i : ℕ) (what : Turn Choice) :
    Crew σ Op Res ε α :=
  match self.workers[i]?,what with
  | some (.running (.await o next)),.act c =>
    match m.act i c o self.shared with
    | some (r,s) => ⟨s,self.workers.set i (.running (next r))⟩
    | none => self
  | some (.running (.await o _)),.touch c => { self with shared := m.touch i c o self.shared }
  | some (.running (.await o _)),.drop =>
    { self with workers := self.workers.set i (.abandoned o) }
  | some (.abandoned o),.act c =>
    match m.act i c o self.shared with
    | some (_,s) => ⟨s,self.workers.set i .gone⟩
    | none => self
  | some (.abandoned o),.touch c => { self with shared := m.touch i c o self.shared }
  | _,_ => self

def step (m : Machine σ Choice Op Res) (self : Crew σ Op Res ε α) :
    CrewAction Choice Op Res ε α → Crew σ Op Res ε α
  | .hire program => { self with workers := self.workers ++ [.running program] }
  | .turn i what => self.turn m i what

def run (m : Machine σ Choice Op Res) (self : Crew σ Op Res ε α)
    (actions : List (CrewAction Choice Op Res ε α)) : Crew σ Op Res ε α :=
  actions.foldl (step m) self

theorem run_cons (m : Machine σ Choice Op Res) (crew : Crew σ Op Res ε α)
    (action : CrewAction Choice Op Res ε α) (actions : List (CrewAction Choice Op Res ε α)) :
    crew.run m (action :: actions) = (crew.step m action).run m actions := rfl

theorem run_append (m : Machine σ Choice Op Res) (crew : Crew σ Op Res ε α)
    (earlier later : List (CrewAction Choice Op Res ε α)) :
    crew.run m (earlier ++ later) = (crew.run m earlier).run m later := List.foldl_append

/-- The invariant of a crew: the state is sane, every program is safe in it, and every
operation left behind keeps the guarantee. -/
structure Sound (m : Machine σ Choice Op Res) (void : σ → Prop) (guar : ℕ → σ → σ → Prop)
    (inv : σ → Prop) (post : α → σ → Prop) (stop : ε → σ → Prop)
    (crew : Crew σ Op Res ε α) : Prop where
  inv : inv crew.shared
  safe : ∀ (i : ℕ) p, crew.workers[i]? = some (.running p) →
    Safe m void guar i post stop p crew.shared
  loose : ∀ (i : ℕ) o, crew.workers[i]? = some (.abandoned o) →
    Loose m void guar i o crew.shared

/-- The ways a turn can go. -/
inductive Moved (m : Machine σ Choice Op Res) (crew : Crew σ Op Res ε α) (i : ℕ) :
    Crew σ Op Res ε α → Prop
  | idle : Moved m crew i crew
  | acted {o next c r s} (hi : crew.workers[i]? = some (.running (.await o next)))
      (ha : m.act i c o crew.shared = some (r,s)) :
      Moved m crew i ⟨s,crew.workers.set i (.running (next r))⟩
  | touched {o next c} (hi : crew.workers[i]? = some (.running (.await o next))) :
      Moved m crew i { crew with shared := m.touch i c o crew.shared }
  | dropped {o next} (hi : crew.workers[i]? = some (.running (.await o next))) :
      Moved m crew i { crew with workers := crew.workers.set i (.abandoned o) }
  | lingered {o c r s} (hi : crew.workers[i]? = some (.abandoned o))
      (ha : m.act i c o crew.shared = some (r,s)) :
      Moved m crew i ⟨s,crew.workers.set i .gone⟩
  | trailed {o c} (hi : crew.workers[i]? = some (.abandoned o)) :
      Moved m crew i { crew with shared := m.touch i c o crew.shared }

variable {inv : σ → Prop} {crew crew' : Crew σ Op Res ε α}

theorem turn_moved (m : Machine σ Choice Op Res) (crew : Crew σ Op Res ε α) (i : ℕ)
    (what : Turn Choice) : Moved m crew i (crew.turn m i what) := by
  unfold turn
  split
  · next o next c hi =>
    split
    · next r s ha => exact .acted hi ha
    · exact .idle
  · next o next c hi => exact .touched hi
  · next o next hi => exact .dropped hi
  · next o c hi =>
    split
    · next r s ha => exact .lingered hi ha
    · exact .idle
  · next o c hi => exact .trailed hi
  · exact .idle

/-- A worker that is done has no more turns. -/
theorem Moved.done {a : α} {j : ℕ} (hm : Moved m crew j crew')
    (hi : crew.workers[i]? = some (.running (.done a))) :
    crew'.workers[i]? = some (.running (.done a)) := by
  have hset : ∀ {w w' : Worker Op Res ε α}, crew.workers[j]? = some w →
      w ≠ .running (.done a) → (crew.workers.set j w')[i]? = some (.running (.done a)) := by
    intro w w' hj hw
    have hne : j ≠ i := by
      rintro rfl
      exact hw (Option.some.inj (hj.symm.trans hi))
    rw [List.getElem?_set_ne hne]
    exact hi
  cases hm with
  | idle => exact hi
  | acted hj _ => exact hset hj (by simp)
  | touched _ => exact hi
  | dropped hj => exact hset hj (by simp)
  | lingered hj _ => exact hset hj (by simp)
  | trailed _ => exact hi

theorem run_done {a : α} (m : Machine σ Choice Op Res)
    (actions : List (CrewAction Choice Op Res ε α))
    (hi : crew.workers[i]? = some (.running (.done a))) :
    (crew.run m actions).workers[i]? = some (.running (.done a)) := by
  induction actions generalizing crew with
  | nil => exact hi
  | cons action actions ih =>
    refine ih ?_
    cases action with
    | hire p => exact getElem?_concat_of_some hi
    | turn j what => exact (turn_moved m crew j what).done hi

/-- What a turn does to the state keeps the guarantee of its worker. -/
theorem Sound.guarantee (h : Sound m void guar inv post stop crew)
    (hm : Moved m crew i crew') (hv : ¬ void crew'.shared) :
    crew'.shared = crew.shared ∨ guar i crew.shared crew'.shared := by
  cases hm with
  | idle => exact .inl rfl
  | @acted o next c r s hi ha => exact .inr ((h.safe i _ hi).loose _ .refl |>.2 c r s ha hv)
  | @touched o next c hi => exact .inr (((h.safe i _ hi).loose _ .refl).1 c)
  | dropped hi => exact .inl rfl
  | @lingered o c r s hi ha => exact .inr ((h.loose i o hi _ .refl).2 c r s ha hv)
  | @trailed o c hi => exact .inr ((h.loose i o hi _ .refl).1 c)

/-- The other workers of a crew see a step of one that keeps its guarantee. -/
theorem Sound.others (h : Sound m void guar inv post stop crew) {s : σ}
    (hg : s = crew.shared ∨ guar i crew.shared s) {j : ℕ} (hj : j ≠ i) :
    (∀ p, crew.workers[j]? = some (.running p) → Safe m void guar j post stop p s) ∧
      ∀ o, crew.workers[j]? = some (.abandoned o) → Loose m void guar j o s := by
  have hrely : Rely guar j crew.shared s := by
    rcases hg with rfl | hg
    · exact .refl
    · exact .single ⟨i,hj.symm,hg⟩
  exact ⟨fun p hp => (h.safe j p hp).rely hrely,fun o ho => (h.loose j o ho).rely hrely⟩

theorem Sound.moved (h : Sound m void guar inv post stop crew)
    (hinv : ∀ i s s', guar i s s' → inv s') (hm : Moved m crew i crew')
    (hv : ¬ void crew'.shared) : Sound m void guar inv post stop crew' := by
  have hg := h.guarantee hm hv
  have hothers := fun j (hj : j ≠ i) => h.others hg hj
  have hsane : inv crew'.shared := by
    rcases hg with he | hg
    · rw [he]
      exact h.inv
    · exact hinv _ _ _ hg
  cases hm with
  | idle => exact h
  | @acted o next c r s hi ha =>
    refine ⟨hsane,?_,?_⟩
    · intro j p hp
      rcases getElem?_set_cases hp with ⟨rfl,hw⟩ | ⟨hj,hp⟩
      · cases hw
        exact ((h.safe _ _ hi _ .refl).2 c r s ha hv).2
      · exact (hothers j hj).1 p hp
    · intro j o ho
      rcases getElem?_set_cases ho with ⟨rfl,hw⟩ | ⟨hj,ho⟩
      · cases hw
      · exact (hothers j hj).2 o ho
  | @touched o next c hi =>
    refine ⟨hsane,?_,?_⟩
    · intro j p hp
      by_cases hj : j = i
      · subst hj
        rw [hi,Option.some.injEq,Worker.running.injEq] at hp
        subst hp
        exact (h.safe _ _ hi).touch c
      · exact (hothers j hj).1 p hp
    · intro j o' ho
      by_cases hj : j = i
      · subst hj
        rw [hi] at ho
        cases ho
      · exact (hothers j hj).2 o' ho
  | @dropped o next hi =>
    refine ⟨hsane,?_,?_⟩
    · intro j p hp
      rcases getElem?_set_cases hp with ⟨rfl,hw⟩ | ⟨hj,hp⟩
      · cases hw
      · exact h.safe j p hp
    · intro j o' ho
      rcases getElem?_set_cases ho with ⟨rfl,hw⟩ | ⟨hj,ho⟩
      · cases hw
        exact (h.safe _ _ hi).loose
      · exact h.loose j o' ho
  | @lingered o c r s hi ha =>
    refine ⟨hsane,?_,?_⟩
    · intro j p hp
      rcases getElem?_set_cases hp with ⟨rfl,hw⟩ | ⟨hj,hp⟩
      · cases hw
      · exact (hothers j hj).1 p hp
    · intro j o' ho
      rcases getElem?_set_cases ho with ⟨rfl,hw⟩ | ⟨hj,ho⟩
      · cases hw
      · exact (hothers j hj).2 o' ho
  | @trailed o c hi =>
    refine ⟨hsane,?_,?_⟩
    · intro j p hp
      by_cases hj : j = i
      · subst hj
        rw [hi] at hp
        cases hp
      · exact (hothers j hj).1 p hp
    · intro j o' ho
      by_cases hj : j = i
      · subst hj
        rw [hi,Option.some.injEq,Worker.abandoned.injEq] at ho
        subst ho
        exact (h.loose _ _ hi).touch c
      · exact (hothers j hj).2 o' ho

theorem Sound.hire (h : Sound m void guar inv post stop crew) {p : Program Op Res ε α}
    (hp : ∀ i, Safe m void guar i post stop p crew.shared) :
    Sound m void guar inv post stop { crew with workers := crew.workers ++ [.running p] } := by
  refine ⟨h.inv,?_,?_⟩
  · intro i p' hi
    rcases getElem?_concat_cases hi with ⟨_,hw⟩ | hi
    · cases hw
      exact hp i
    · exact h.safe i p' hi
  · intro i o hi
    rcases getElem?_concat_cases hi with ⟨_,hw⟩ | hi
    · cases hw
    · exact h.loose i o hi

/-- What every guarantee keeps: any number of steps, each of some worker. -/
def Steps (guar : ℕ → σ → σ → Prop) : σ → σ → Prop :=
  Relation.ReflTransGen fun s s' => ∃ i, guar i s s'

theorem Steps.keeps {P : σ → Prop} (hP : ∀ i s s', P s → guar i s s' → P s')
    (h : Steps guar s s') (hs : P s) : P s' := by
  induction h with
  | refl => exact hs
  | tail _ hstep ih =>
    obtain ⟨i,hg⟩ := hstep
    exact hP i _ _ ih hg

section Run

variable (hinv : ∀ i s s', guar i s s' → inv s')
  (hact : ∀ i c o s r s', m.act i c o s = some (r,s') → void s → void s')
  (htouch : ∀ i c o s, void s → void (m.touch i c o s))
include hact htouch

/-- A state that is void stays so. -/
theorem void_step (action : CrewAction Choice Op Res ε α) (hv : void crew.shared) :
    void (crew.step m action).shared := by
  cases action with
  | hire p => exact hv
  | turn i what =>
    have hm := turn_moved m crew i what
    rw [step]
    generalize crew.turn m i what = crew' at hm
    cases hm with
    | idle => exact hv
    | acted _ ha => exact hact _ _ _ _ _ _ ha hv
    | touched _ => exact htouch _ _ _ _ hv
    | dropped _ => exact hv
    | lingered _ ha => exact hact _ _ _ _ _ _ ha hv
    | trailed _ => exact htouch _ _ _ _ hv

theorem void_run (actions : List (CrewAction Choice Op Res ε α)) (hv : void crew.shared) :
    void (crew.run m actions).shared := by
  induction actions generalizing crew with
  | nil => exact hv
  | cons action actions ih => exact ih (void_step hact htouch action hv)

include hinv

/-- A crew that only hires programs that are safe in every sane state stays sound, up to a
state that is not void, and gets there by steps that keep the guarantees. -/
theorem Sound.run (h : Sound m void guar inv post stop crew)
    (actions : List (CrewAction Choice Op Res ε α))
    (hsafe : ∀ p, .hire p ∈ actions → ∀ i s, inv s → Safe m void guar i post stop p s)
    (hv : ¬ void (crew.run m actions).shared) :
    Sound m void guar inv post stop (crew.run m actions) ∧
      Steps guar crew.shared (crew.run m actions).shared := by
  induction actions generalizing crew with
  | nil => exact ⟨h,.refl⟩
  | cons action actions ih =>
    have hnow : ¬ void (crew.step m action).shared := fun hnow =>
      hv (void_run hact htouch actions hnow)
    have hstep : Sound m void guar inv post stop (crew.step m action) ∧
        ((crew.step m action).shared = crew.shared ∨
          ∃ i, guar i crew.shared (crew.step m action).shared) := by
      cases action with
      | hire p => exact ⟨h.hire fun i => hsafe p List.mem_cons_self i _ h.inv,.inl rfl⟩
      | turn i what =>
        have hm := turn_moved m crew i what
        exact ⟨h.moved hinv hm hnow,(h.guarantee hm hnow).imp id fun hg => ⟨i,hg⟩⟩
    obtain ⟨hend,hsteps⟩ := ih hstep.1 (fun p hp => hsafe p (List.mem_cons_of_mem _ hp)) hv
    refine ⟨hend,?_⟩
    rcases hstep.2 with he | hg
    · rw [he] at hsteps
      exact hsteps
    · exact hsteps.head hg

end Run

end Crew

end Tracelib

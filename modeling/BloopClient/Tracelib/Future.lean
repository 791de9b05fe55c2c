import Mathlib.Logic.Basic
import Mathlib.Tactic.Common

/-!
# Futures over an explicit state

A shallow embedding of sequential asynchronous code. A future is a function of
the state it finds; awaiting it either yields a value, fails, is given up by
the awaiting code, or is cut off by an enclosing deadline. Composition stops at
the first await that does not yield a value, which is how an error propagated
with `?` and a cancellation both behave.

## Main definitions

- `Outcome` — what one await came to
- `Fut` — a future, with its monad structure
- `Fut.Triple` — pre- and postconditions, one postcondition for a value and one
  for every other outcome
- `Fut.Respects` — the state a future leaves is related to the one it found
-/

namespace Tracelib

variable {σ ε ε' α β : Type}

/-- The four ways an await can end. -/
inductive Outcome (ε α : Type)
  | ok (value : α)
  | err (error : ε)
  | dropped
  | elapsed
  deriving DecidableEq, Repr

/-- The deadline that cut a future off. -/
inductive Elapsed
  | elapsed
  deriving DecidableEq, Repr

namespace Outcome

/-- Awaiting under a deadline: a future that was cut off reports the deadline. -/
def timeout : Outcome ε α → Except Elapsed (Except ε α)
  | .ok a => .ok (.ok a)
  | .err e => .ok (.error e)
  | .dropped => .error .elapsed
  | .elapsed => .error .elapsed

/-- One predicate for a value, another for every other outcome. -/
def Holds (Q : α → Prop) (R : Prop) : Outcome ε α → Prop
  | .ok a => Q a
  | .err _ => R
  | .dropped => R
  | .elapsed => R

def mapErr (f : ε → ε') : Outcome ε α → Outcome ε' α
  | .ok a => .ok a
  | .err e => .err (f e)
  | .dropped => .dropped
  | .elapsed => .elapsed

theorem Holds.imp {Q Q' : α → Prop} {R R' : Prop} {r : Outcome ε α}
    (h : r.Holds Q R) (hq : ∀ a, r = .ok a → Q a → Q' a) (hr : R → R') : r.Holds Q' R' := by
  cases r with
  | ok a => exact hq a rfl h
  | err e => exact hr h
  | dropped => exact hr h
  | elapsed => exact hr h

@[simp] theorem holds_mapErr (f : ε → ε') (Q : α → Prop) (R : Prop) (r : Outcome ε α) :
    (r.mapErr f).Holds Q R ↔ r.Holds Q R := by
  cases r <;> rfl

theorem timeout_ok_iff {r : Outcome ε α} {a : α} : r.timeout = .ok (.ok a) ↔ r = .ok a := by
  cases r <;> simp [timeout]

end Outcome

/-- A future reads a state, and leaves a state behind however it ends. -/
def Fut (σ ε α : Type) : Type := σ → Outcome ε α × σ

namespace Fut

/-- Stop without a value, keeping the outcome. -/
def bind (m : Fut σ ε α) (f : α → Fut σ ε β) : Fut σ ε β := fun s =>
  match m s with
  | (.ok a, s') => f a s'
  | (.err e, s') => (.err e, s')
  | (.dropped, s') => (.dropped, s')
  | (.elapsed, s') => (.elapsed, s')

instance : Monad (Fut σ ε) where
  pure a := fun s => (.ok a, s)
  bind := bind

/-- Fail at once. -/
def fail (e : ε) : Fut σ ε α := fun s => (.err e, s)

/-- A pure result propagated with `?`. -/
def lift : Except ε α → Fut σ ε α
  | .ok a => fun s => (.ok a, s)
  | .error e => fail e

/-- Convert the error on the way out. -/
def mapErr (f : ε → ε') (m : Fut σ ε α) : Fut σ ε' α := fun s =>
  ((m s).1.mapErr f, (m s).2)

/-- Hand an error on as a value. A future that was given up or cut off has none. -/
def attempt (m : Fut σ ε α) : Fut σ ε' (Except ε α) := fun s =>
  match m s with
  | (.ok a, s') => (.ok (.ok a), s')
  | (.err e, s') => (.ok (.error e), s')
  | (.dropped, s') => (.dropped, s')
  | (.elapsed, s') => (.elapsed, s')

/-- Update the state without awaiting anything. -/
def modify (f : σ → σ) : Fut σ ε Unit := fun s => (.ok (), f s)

/-- Run a cleanup on the state when the future ends with an outcome that keeps
nothing alive. A destructor runs on every way out. -/
def cleanup (keeps : Outcome ε α → Bool) (f : σ → σ) (m : Fut σ ε α) : Fut σ ε α := fun s =>
  ((m s).1, if keeps (m s).1 then (m s).2 else f (m s).2)

@[simp] theorem pure_apply (a : α) (s : σ) : (pure a : Fut σ ε α) s = (.ok a, s) := rfl

@[simp] theorem lift_ok (a : α) (s : σ) : (lift (.ok a) : Fut σ ε α) s = (.ok a, s) := rfl

@[simp] theorem lift_error (e : ε) (s : σ) :
    (lift (.error e) : Fut σ ε α) s = (.err e, s) := rfl

@[simp] theorem modify_apply (f : σ → σ) (s : σ) :
    (modify f : Fut σ ε Unit) s = (.ok (), f s) := rfl

theorem bind_apply (m : Fut σ ε α) (f : α → Fut σ ε β) (s : σ) :
    (m >>= f) s = match m s with
      | (.ok a, s') => f a s'
      | (.err e, s') => (.err e, s')
      | (.dropped, s') => (.dropped, s')
      | (.elapsed, s') => (.elapsed, s') := rfl

/-- Once the first future is known to end with a value, the second one runs. -/
theorem bind_ok {m : Fut σ ε α} {f : α → Fut σ ε β} {s s' : σ} {a : α}
    (h : m s = (.ok a, s')) : (m >>= f) s = f a s' := by
  rw [bind_apply, h]

/-- A sequence ends with a value just if both of its futures do. -/
theorem bind_eq_ok {m : Fut σ ε α} {f : α → Fut σ ε β} {s s' : σ} {b : β} :
    (m >>= f) s = (.ok b, s') ↔ ∃ a s₁, m s = (.ok a, s₁) ∧ f a s₁ = (.ok b, s') := by
  constructor
  · intro h
    rw [bind_apply] at h
    rcases hm : m s with ⟨r, s₁⟩
    rw [hm] at h
    cases r with
    | ok a => exact ⟨a, s₁, rfl, h⟩
    | _ => simp at h
  · rintro ⟨a, s₁, hm, hf⟩
    rw [bind_ok hm, hf]

theorem mapErr_eq_ok {m : Fut σ ε α} {f : ε → ε'} {s s' : σ} {a : α} :
    m.mapErr f s = (.ok a, s') ↔ m s = (.ok a, s') := by
  rcases hm : m s with ⟨r, s₁⟩
  cases r <;> simp [mapErr, hm, Outcome.mapErr]

/-- A first future that ends without a value ends the sequence the same way. -/
theorem bind_of_ne {m : Fut σ ε α} {f : α → Fut σ ε β} {s : σ} (h : ∀ a, (m s).1 ≠ .ok a) :
    (∀ b, ((m >>= f) s).1 ≠ .ok b) ∧ (∀ e, ((m >>= f) s).1 = .err e ↔ (m s).1 = .err e) ∧
      ((m >>= f) s).2 = (m s).2 := by
  rw [bind_apply]
  rcases hr : m s with ⟨r, s'⟩
  rw [hr] at h
  cases r with
  | ok a => exact absurd rfl (h a)
  | _ => simp

-- ════════════════════════════════════════════════════════════════════════
-- Pre- and postconditions
-- ════════════════════════════════════════════════════════════════════════

/-- From a state satisfying `pre`, a value comes with `post` and every other
outcome with `stop`. -/
def Triple (pre : σ → Prop) (m : Fut σ ε α) (post : α → σ → Prop) (stop : σ → Prop) : Prop :=
  ∀ s, pre s → (m s).1.Holds (fun a => post a (m s).2) (stop (m s).2)

variable {pre pre' stop stop' : σ → Prop} {post post' : α → σ → Prop}

theorem Triple.consequence {m : Fut σ ε α} (h : Triple pre m post stop)
    (hpre : ∀ s, pre' s → pre s) (hpost : ∀ a s, post a s → post' a s)
    (hstop : ∀ s, stop s → stop' s) : Triple pre' m post' stop' := by
  intro s hs
  exact (h s (hpre s hs)).imp (fun a _ ha => hpost a _ ha) (hstop _)

/-- What holds however the future ends. -/
theorem Triple.holds {Q : σ → Prop} {m : Fut σ ε α} {s : σ} (h : Triple pre m (fun _ => Q) Q)
    (hs : pre s) : Q (m s).2 := by
  have hend := h s hs
  cases hr : (m s).1 <;> rw [hr] at hend <;> exact hend

/-- Sequencing: the first future's postcondition is the second's precondition,
and either may stop. -/
theorem Triple.bind {m : Fut σ ε α} {f : α → Fut σ ε β} {q : α → σ → Prop}
    {post : β → σ → Prop} (hm : Triple pre m q stop)
    (hf : ∀ a, Triple (q a) (f a) post stop) : Triple pre (m >>= f) post stop := by
  intro s hs
  have h := hm s hs
  rw [bind_apply]
  rcases hr : m s with ⟨r, s'⟩
  rw [hr] at h
  cases r with
  | ok a => exact hf a s' h
  | err e => exact h
  | dropped => exact h
  | elapsed => exact h

theorem Triple.pure {a : α} (h : ∀ s, pre s → post a s) :
    Triple pre (pure a : Fut σ ε α) post stop :=
  fun s hs => h s hs

theorem Triple.fail {e : ε} (h : ∀ s, pre s → stop s) :
    Triple pre (fail e : Fut σ ε α) post stop :=
  fun s hs => h s hs

theorem Triple.mapErr {f : ε → ε'} {m : Fut σ ε α} (h : Triple pre m post stop) :
    Triple pre (m.mapErr f) post stop := by
  intro s hs
  simpa [Fut.mapErr] using h s hs

theorem Triple.attempt {Q : σ → Prop} {m : Fut σ ε α} (h : Triple pre m (fun _ => Q) Q) :
    Triple pre (m.attempt : Fut σ ε' (Except ε α)) (fun _ => Q) Q := by
  intro s hs
  have hend := h.holds hs
  rw [Fut.attempt]
  rcases hr : m s with ⟨r, s'⟩
  rw [hr] at hend
  cases r <;> exact hend

/-- A pure result is known in the rest of the computation. -/
theorem Triple.lift {r : Except ε α} (hok : ∀ a s, r = .ok a → pre s → post a s)
    (herr : ∀ s, pre s → stop s) : Triple pre (lift r : Fut σ ε α) post stop := by
  intro s hs
  cases r with
  | ok a => exact hok a s rfl hs
  | error e => exact herr s hs

theorem Triple.modify {f : σ → σ} {post : Unit → σ → Prop} (h : ∀ s, pre s → post () (f s)) :
    Triple pre (modify f : Fut σ ε Unit) post stop :=
  fun s hs => h s hs

/-- A fact that does not mention the state may be assumed. -/
theorem Triple.of_pure {p : Prop} {m : Fut σ ε α}
    (h : p → Triple pre m post stop) : Triple (fun s => p ∧ pre s) m post stop :=
  fun s hs => h hs.1 s hs.2

/-- An existential precondition is met at its witness. -/
theorem Triple.of_exists {ι : Type} {pre : ι → σ → Prop} {m : Fut σ ε α}
    (h : ∀ i, Triple (pre i) m post stop) : Triple (fun s => ∃ i, pre i s) m post stop :=
  fun s ⟨i, hi⟩ => h i s hi

-- ════════════════════════════════════════════════════════════════════════
-- Frames
-- ════════════════════════════════════════════════════════════════════════

/-- However the future ends, the state it leaves is related to the one it
found. -/
def Respects (R : σ → σ → Prop) (m : Fut σ ε α) : Prop := ∀ s, R s (m s).2

variable {R : σ → σ → Prop}

theorem Respects.bind [IsTrans σ R] {m : Fut σ ε α} {f : α → Fut σ ε β}
    (hm : Respects R m) (hf : ∀ a, Respects R (f a)) : Respects R (m >>= f) := by
  intro s
  have h := hm s
  rw [bind_apply]
  rcases hr : m s with ⟨r, s'⟩
  rw [hr] at h
  cases r with
  | ok a => exact IsTrans.trans _ _ _ h (hf a s')
  | err e => exact h
  | dropped => exact h
  | elapsed => exact h

theorem Respects.pure [Std.Refl R] (a : α) : Respects R (pure a : Fut σ ε α) :=
  fun s => Std.Refl.refl s

theorem Respects.fail [Std.Refl R] (e : ε) : Respects R (fail e : Fut σ ε α) :=
  fun s => Std.Refl.refl s

theorem Respects.lift [Std.Refl R] (r : Except ε α) : Respects R (lift r : Fut σ ε α) := by
  intro s
  cases r <;> exact Std.Refl.refl s

theorem Respects.mapErr {f : ε → ε'} {m : Fut σ ε α} (h : Respects R m) :
    Respects R (m.mapErr f) := h

theorem Respects.attempt {m : Fut σ ε α} (h : Respects R m) :
    Respects R (m.attempt : Fut σ ε' (Except ε α)) := by
  intro s
  have hs := h s
  rw [Fut.attempt]
  rcases hr : m s with ⟨r, s'⟩
  rw [hr] at hs
  cases r <;> exact hs

end Fut

end Tracelib

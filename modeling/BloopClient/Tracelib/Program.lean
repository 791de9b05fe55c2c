import BloopClient.Tracelib.Future

/-!
# Programs over awaited operations

Sequential asynchronous code as the tree of the operations it awaits, with what it does
next for each result. One program has several meanings: a handler runs it on its own as a
future, and a system of many programs interleaves their operations.

## Main definitions

- `Program` — the tree, with its monad structure
- `Program.run` — the future a handler makes of a program
- `Program.Ends` — what holds however a program ends
- `Program.Strict` — a program that does not get over some of its results
-/

namespace Tracelib

/-- A program over operations `Op`: it ends with a value, ends with an error, or awaits an
operation and goes on with its result. -/
inductive Program (Op : Type) (Res : Op → Type) (ε α : Type)
  | done (a : α)
  | fail (e : ε)
  | await (o : Op) (next : Res o → Program Op Res ε α)

namespace Program

variable {Op : Type} {Res : Op → Type} {σ ε ε' α β γ : Type}

/-- An error ends the sequence. -/
def bind : Program Op Res ε α → (α → Program Op Res ε β) → Program Op Res ε β
  | .done a, f => f a
  | .fail e, _ => .fail e
  | .await o next, f => .await o fun r => (next r).bind f

instance : Monad (Program Op Res ε) where
  pure := done
  bind := bind

/-- The program of one operation. -/
def perform (o : Op) : Program Op Res ε (Res o) := .await o .done

/-- A pure result propagated with `?`. -/
def lift : Except ε α → Program Op Res ε α
  | .ok a => .done a
  | .error e => .fail e

/-- Hand an error on as a value. -/
def attempt : Program Op Res ε α → Program Op Res ε' (Except ε α)
  | .done a => .done (.ok a)
  | .fail e => .done (.error e)
  | .await o next => .await o fun r => (next r).attempt

/-- The future of a program whose operations are run by a handler. -/
def run (handle : (o : Op) → Fut σ ε (Res o)) : Program Op Res ε α → Fut σ ε α
  | .done a => pure a
  | .fail e => Fut.fail e
  | .await o next => do (next (← handle o)).run handle

@[simp] theorem await_bind (o : Op) (next : Res o → Program Op Res ε α)
    (f : α → Program Op Res ε β) : (await o next >>= f) = await o fun r => next r >>= f := rfl

/-- A handler runs a sequence one part after the other. -/
theorem run_bind (handle : (o : Op) → Fut σ ε (Res o)) (p : Program Op Res ε α)
    (f : α → Program Op Res ε β) :
    (p >>= f).run handle = (p.run handle >>= fun a => (f a).run handle) := by
  induction p with
  | done a => rfl
  | fail e => rfl
  | await o next ih =>
    funext s
    rw [await_bind,run,run,Fut.bind_apply,Fut.bind_apply,Fut.bind_apply]
    rcases handle o s with ⟨r,s'⟩
    cases r with
    | ok value => exact congrFun (ih value) s'
    | _ => rfl

@[simp] theorem run_perform (handle : (o : Op) → Fut σ ε (Res o)) (o : Op) :
    (perform o : Program Op Res ε (Res o)).run handle = handle o := by
  funext s
  rw [perform,run,Fut.bind_apply]
  rcases handle o s with ⟨r,s'⟩
  cases r <;> rfl

@[simp] theorem run_lift (handle : (o : Op) → Fut σ ε (Res o)) (r : Except ε α) :
    (lift r : Program Op Res ε α).run handle = Fut.lift r := by
  cases r <;> rfl

/-- Handing an error on as a value and propagating it again converts it. -/
theorem attempt_lift (m : Fut σ ε α) (f : ε → ε') :
    (m.attempt >>= fun r => Fut.lift (r.mapError f)) = m.mapErr f := by
  funext s
  rw [Fut.bind_apply,Fut.attempt,Fut.mapErr]
  rcases m s with ⟨r,s'⟩
  cases r <;> rfl

/-- A handler that hands all errors on as values. -/
def Total (handle : (o : Op) → Fut σ ε (Res o)) : Prop := ∀ o s e, (handle o s).1 ≠ .err e

theorem run_attempt {handle : (o : Op) → Fut σ ε (Res o)} (hh : Total handle)
    (p : Program Op Res ε α) :
    (p.attempt : Program Op Res ε (Except ε α)).run handle = (p.run handle).attempt := by
  induction p with
  | done a => rfl
  | fail e => rfl
  | await o next ih =>
    funext s
    have herr := hh o s
    rw [attempt,run,run,Fut.bind_apply,Fut.attempt,Fut.bind_apply]
    rcases hr : handle o s with ⟨r,s'⟩
    rw [hr] at herr
    cases r with
    | ok value => exact congrFun (ih value) s'
    | err e => exact absurd rfl (herr e)
    | dropped => rfl
    | elapsed => rfl

/-- What every operation keeps, the program keeps. -/
theorem run_respects {handle : (o : Op) → Fut σ ε (Res o)} {R : σ → σ → Prop} [Std.Refl R]
    [IsTrans σ R] (hh : ∀ o, (handle o).Respects R) (p : Program Op Res ε α) :
    (p.run handle).Respects R := by
  induction p with
  | done a => exact Fut.Respects.pure a
  | fail e => exact Fut.Respects.fail e
  | await o next ih => exact (hh o).bind ih

-- ════════════════════════════════════════════════════════════════════════
-- Results a program does not get over
-- ════════════════════════════════════════════════════════════════════════

/-- Whatever the operations come to, the program ends with a value of one kind or with an
error of another. -/
def Ends (Q : α → Prop) (E : ε → Prop) : Program Op Res ε α → Prop
  | .done a => Q a
  | .fail e => E e
  | .await _ next => ∀ r, (next r).Ends Q E

/-- After a bad result the program fails, with an error of one kind. -/
def Strict (bad : (o : Op) → Res o → Prop) (E : ε → Prop) : Program Op Res ε α → Prop
  | .done _ => True
  | .fail _ => True
  | .await o next => ∀ r, (bad o r → (next r).Ends (fun _ => False) E) ∧ (next r).Strict bad E

variable {bad : (o : Op) → Res o → Prop} {E : ε → Prop} {E' : ε' → Prop}

theorem Ends.bind {Q : α → Prop} {Q' : β → Prop} {p : Program Op Res ε α}
    {f : α → Program Op Res ε β} (hp : p.Ends Q E) (hf : ∀ a, Q a → (f a).Ends Q' E) :
    (p >>= f).Ends Q' E := by
  induction p with
  | done a => exact hf a hp
  | fail e => exact hp
  | await o next ih => exact fun r => ih r (hp r)

/-- A program that fails hands on an error. -/
theorem Ends.attempt_bind {p : Program Op Res ε α} {f : Except ε α → Program Op Res ε' β}
    {Q : β → Prop} (hp : p.Ends (fun _ => False) E) (hf : ∀ e, E e → (f (.error e)).Ends Q E') :
    ((p.attempt : Program Op Res ε' (Except ε α)) >>= f).Ends Q E' := by
  induction p with
  | done a => exact absurd hp id
  | fail e => exact hf e hp
  | await o next ih => exact fun r => ih r (hp r)

theorem Strict.lift (r : Except ε α) : (lift r : Program Op Res ε α).Strict bad E := by
  cases r <;> trivial

theorem Strict.bind {p : Program Op Res ε α} {f : α → Program Op Res ε β}
    (hp : p.Strict bad E) (hf : ∀ a, (f a).Strict bad E) : (p >>= f).Strict bad E := by
  induction p with
  | done a => exact hf a
  | fail e => trivial
  | await o next ih =>
    exact fun r => ⟨fun hr => ((hp r).1 hr).bind fun _ h => absurd h id,ih r (hp r).2⟩

/-- A program whose errors are looked at is strict if the errors of bad results are not
got over. -/
theorem Strict.attempt_bind {p : Program Op Res ε α} {f : Except ε α → Program Op Res ε' β}
    (hp : p.Strict bad E) (hf : ∀ r, (f r).Strict bad E')
    (he : ∀ e, E e → (f (.error e)).Ends (fun _ => False) E') :
    ((p.attempt : Program Op Res ε' (Except ε α)) >>= f).Strict bad E' := by
  induction p with
  | done a => exact hf _
  | fail e => exact hf _
  | await o next ih =>
    exact fun r => ⟨fun hr => ((hp r).1 hr).attempt_bind he,ih r (hp r).2⟩

end Program

end Tracelib

import Mathlib.Data.List.Infix

/-!
# Bounded first-in first-out channels

A channel of fixed capacity, together with what was taken out of it. What went
in is then known as well, and in which order.

## Main definitions

- `Channel` — the queue of a channel and its past
- `Channel.sent` — everything the channel has accepted, in order
-/

namespace Tracelib

/-- A channel: what has been taken from it and what is waiting in it, oldest
first. -/
structure Channel (α : Type) (capacity : ℕ) where
  taken : List α
  queue : List α
  bounded : queue.length ≤ capacity

namespace Channel

variable {α : Type} {capacity : ℕ}

def empty : Channel α capacity := ⟨[],[],Nat.zero_le capacity⟩

/-- Everything the channel has accepted. -/
def sent (ch : Channel α capacity) : List α := ch.taken ++ ch.queue

/-- Accepts a value if there is room for it. -/
def send? (ch : Channel α capacity) (a : α) : Option (Channel α capacity) :=
  if h : ch.queue.length < capacity then
    some ⟨ch.taken,ch.queue ++ [a],by
      rw [List.length_append,List.length_singleton]
      omega⟩
  else none

/-- Takes the oldest value. -/
def recv? (ch : Channel α capacity) : Option (α × Channel α capacity) :=
  match hq : ch.queue with
  | [] => none
  | a :: rest => some (a,⟨ch.taken ++ [a],rest,by
      have hb := ch.bounded
      rw [hq,List.length_cons] at hb
      omega⟩)

variable {ch ch' : Channel α capacity} {a : α}

theorem send?_eq_some : ch.send? a = some ch' ↔
    ch.queue.length < capacity ∧ ch'.taken = ch.taken ∧ ch'.queue = ch.queue ++ [a] := by
  unfold send?
  by_cases h : ch.queue.length < capacity
  · rw [dif_pos h]
    constructor
    · rintro ⟨⟩
      exact ⟨h,rfl,rfl⟩
    · rintro ⟨_,ht,hq⟩
      cases ch'
      simp_all
  · rw [dif_neg h]
    simp [h]

theorem recv?_eq_some : ch.recv? = some (a,ch') ↔
    ch.queue = a :: ch'.queue ∧ ch'.taken = ch.taken ++ [a] := by
  cases ch with
  | mk taken queue bounded =>
    cases queue with
    | nil => simp [recv?]
    | cons b rest =>
      cases ch'
      simp only [recv?,Option.some.injEq,Prod.mk.injEq,mk.injEq,List.cons.injEq]
      constructor
      · rintro ⟨rfl,rfl,rfl⟩
        exact ⟨⟨rfl,rfl⟩,rfl⟩
      · rintro ⟨⟨rfl,rfl⟩,rfl⟩
        exact ⟨rfl,rfl,rfl⟩

theorem recv?_eq_none : ch.recv? = none ↔ ch.queue = [] := by
  cases ch with
  | mk taken queue bounded => cases queue <;> simp [recv?]

end Channel

end Tracelib

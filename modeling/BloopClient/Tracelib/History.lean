import Mathlib.Data.List.Infix

/-!
# Histories

Facts about the past of a running system. A history lists what happened, most
recent first: its tail at an event is that event's past, and the histories of
the earlier moments are its suffixes.

## Main definitions

- `Extends` — a history grew by events of one kind
- `Always` — every event of a history met a guard on its past
-/

namespace Tracelib

variable {α : Type} {P Q : α → Prop} {new p t t' t'' : List α}

/-- The history grew, by events of one kind only. -/
def Extends (P : α → Prop) (t t' : List α) : Prop := ∃ new, t' = new ++ t ∧ ∀ e ∈ new, P e

theorem Extends.refl (t : List α) : Extends P t t := ⟨[],rfl,by simp⟩

theorem Extends.trans (h : Extends P t t') (h' : Extends P t' t'') : Extends P t t'' := by
  obtain ⟨new,rfl,hn⟩ := h
  obtain ⟨new',rfl,hn'⟩ := h'
  refine ⟨new' ++ new,by simp,?_⟩
  intro e he
  rcases List.mem_append.mp he with he | he
  · exact hn' e he
  · exact hn e he

instance : Std.Refl (Extends P) := ⟨Extends.refl⟩

instance : IsTrans (List α) (Extends P) := ⟨fun _ _ _ => Extends.trans⟩

theorem Extends.cons {e : α} (h : Extends P t t') (he : P e) : Extends P t (e :: t') := by
  obtain ⟨new,rfl,hn⟩ := h
  refine ⟨e :: new,rfl,?_⟩
  intro e' he'
  rcases List.mem_cons.mp he' with rfl | he'
  · exact he
  · exact hn e' he'

theorem Extends.mono (hPQ : ∀ e, P e → Q e) (h : Extends P t t') : Extends Q t t' := by
  obtain ⟨new,rfl,hn⟩ := h
  exact ⟨new,rfl,fun e he => hPQ e (hn e he)⟩

/-- What each single event of a kind keeps, growth by that kind keeps. -/
theorem Extends.induction {motive : List α → Prop} (h : Extends P t t')
    (cons : ∀ e past, P e → motive past → motive (e :: past)) (ht : motive t) : motive t' := by
  obtain ⟨new,rfl,hn⟩ := h
  induction new with
  | nil => exact ht
  | cons e new ih =>
    exact cons e _ (hn e (by simp)) (ih (fun e' he' => hn e' (by simp [he'])))

/-- A function of the history that ignores a kind of events does not tell the
histories apart. -/
theorem Extends.congr {β : Type} {f : List α → β} (h : Extends P t t')
    (hf : ∀ e past, P e → f (e :: past) = f past) : f t' = f t := by
  refine h.induction (motive := fun past => f past = f t) ?_ rfl
  intro e past he ih
  rw [hf e past he,ih]

theorem Extends.suffix (h : Extends P t t') : t <:+ t' := by
  obtain ⟨new,rfl,_⟩ := h
  exact List.suffix_append new t

/-- Every event of the history met the guard when it happened. -/
def Always (G : α → List α → Prop) : List α → Prop
  | [] => True
  | e :: past => G e past ∧ Always G past

variable {G : α → List α → Prop}

@[simp] theorem always_nil : Always G [] := trivial

@[simp] theorem always_cons {e : α} {past : List α} :
    Always G (e :: past) ↔ G e past ∧ Always G past := Iff.rfl

theorem Always.of_suffix (hp : p <:+ t) (h : Always G t) : Always G p := by
  obtain ⟨new,rfl⟩ := hp
  induction new with
  | nil => exact h
  | cons e new ih => exact ih h.2

/-- An event of the history met the guard on its own past. -/
theorem Always.of_mem {e : α} (h : Always G t) (he : e ∈ t) :
    ∃ past, e :: past <:+ t ∧ G e past := by
  obtain ⟨new,past,rfl⟩ := List.append_of_mem he
  have hp : e :: past <:+ new ++ e :: past := List.suffix_append _ _
  exact ⟨past,hp,(h.of_suffix hp).1⟩

/-- The guard holds at each moment of the history. -/
theorem always_iff : Always G t ↔ ∀ e past, (e :: past) <:+ t → G e past := by
  constructor
  · intro h e past hp
    exact (h.of_suffix hp).1
  · intro h
    induction t with
    | nil => trivial
    | cons e past ih =>
      refine ⟨h e past (List.suffix_refl _),ih ?_⟩
      intro e' past' hp
      exact h e' past' (hp.trans (List.suffix_cons e past))

/-- Events the guard says nothing about may be added freely. -/
theorem Always.extend (h : Always G t) (hx : Extends P t t') (hG : ∀ e past, P e → G e past) :
    Always G t' :=
  hx.induction (fun e past he hp => ⟨hG e past he,hp⟩) h

instance [∀ e past, Decidable (G e past)] : ∀ t, Decidable (Always G t)
  | [] => .isTrue trivial
  | e :: past =>
    have := instDecidableAlways past
    inferInstanceAs (Decidable (G e past ∧ Always G past))

end Tracelib

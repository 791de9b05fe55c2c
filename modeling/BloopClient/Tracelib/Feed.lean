import Mathlib.Data.List.Infix

/-!
# Machines that stop

A machine takes its inputs one by one, and may be told by an input to stop and
leave the rest. What it takes is a prefix of the inputs: all of them, or those
up to the first one it stops at.

## Main definitions

- `feed` — the state of a machine that has been fed
- `Unstopped` — no input is one the machine stops at
- `feedChunks` — the state of a machine that is fed in chunks until it is done
-/

namespace Tracelib

variable {σ α : Type} {step : σ → α → σ} {stops : σ → α → Bool} {s : σ} {a : α} {as bs : List α}

/-- Feeds a machine, up to the first input it stops at. -/
def feed (step : σ → α → σ) (stops : σ → α → Bool) : σ → List α → σ
  | s, [] => s
  | s, a :: as => if stops s a then step s a else feed step stops (step s a) as

/-- The machine takes all the inputs without stopping. -/
def Unstopped (step : σ → α → σ) (stops : σ → α → Bool) : σ → List α → Prop
  | _, [] => True
  | s, a :: as => stops s a = false ∧ Unstopped step stops (step s a) as

theorem unstopped_iff : Unstopped step stops s as ↔
    ∀ before a, before ++ [a] <+: as → stops (before.foldl step s) a = false := by
  induction as generalizing s with
  | nil => simp [Unstopped]
  | cons a as ih =>
    constructor
    · rintro ⟨ha,has⟩ before b hb
      cases before with
      | nil =>
        obtain rfl : b = a := by simpa using hb
        exact ha
      | cons c before =>
        obtain ⟨rfl,hb'⟩ := List.cons_prefix_cons.mp hb
        exact ih.mp has before b hb'
    · intro h
      refine ⟨h [] a (by simp),ih.mpr ?_⟩
      intro before b hb
      exact h (a :: before) b (List.cons_prefix_cons.mpr ⟨rfl,hb⟩)

theorem feed_append (h : Unstopped step stops s as) :
    feed step stops s (as ++ bs) = feed step stops (as.foldl step s) bs := by
  induction as generalizing s with
  | nil => rfl
  | cons a as ih =>
    rw [List.cons_append,feed,if_neg (by simp [h.1])]
    exact ih h.2

theorem feed_of_unstopped (h : Unstopped step stops s as) :
    feed step stops s as = as.foldl step s := by
  have hf : feed step stops s (as ++ []) = as.foldl step s := feed_append h
  rwa [List.append_nil] at hf

/-- What stands behind the input a machine stops at makes no difference. -/
theorem feed_stopped (h : Unstopped step stops s as) (ha : stops (as.foldl step s) a = true) :
    feed step stops s (as ++ a :: bs) = (as ++ [a]).foldl step s := by
  rw [feed_append h,feed,if_pos ha,List.foldl_append]
  rfl

/-- A machine takes all its inputs, or those up to the first it stops at. -/
theorem feed_cases (step : σ → α → σ) (stops : σ → α → Bool) (s : σ) (as : List α) :
    Unstopped step stops s as ∨ ∃ before a after, as = before ++ a :: after ∧
      Unstopped step stops s before ∧ stops (before.foldl step s) a = true := by
  induction as generalizing s with
  | nil => exact .inl trivial
  | cons a as ih =>
    by_cases ha : stops s a = true
    · exact .inr ⟨[],a,as,rfl,trivial,ha⟩
    · have hf : stops s a = false := by simpa using ha
      rcases ih (step s a) with h | ⟨before,b,after,rfl,h,hb⟩
      · exact .inl ⟨hf,h⟩
      · exact .inr ⟨a :: before,b,after,rfl,⟨hf,h⟩,hb⟩

theorem unstopped_append : Unstopped step stops s (as ++ bs) ↔
    Unstopped step stops s as ∧ Unstopped step stops (as.foldl step s) bs := by
  induction as generalizing s with
  | nil => simp [Unstopped]
  | cons a as ih => rw [List.cons_append,Unstopped,Unstopped,ih,and_assoc,List.foldl_cons]

section Chunks

variable {done : σ → Bool} {chunk : List α} {chunks : List (List α)}

/-- Feeds a machine chunk by chunk, up to the first chunk behind which it is done.
Within a chunk it may stop. -/
def feedChunks (step : σ → α → σ) (stops : σ → α → Bool) (done : σ → Bool) :
    σ → List (List α) → σ :=
  feed (feed step stops) fun s chunk => done (feed step stops s chunk)

/-- The machine is done behind these inputs although none of them stops it. -/
def DoneAt (step : σ → α → σ) (stops : σ → α → Bool) (done : σ → Bool) (s : σ) (as : List α) :
    Prop := Unstopped step stops s as ∧ done (as.foldl step s) = true

theorem feedChunks_done (h : done (feed step stops s chunk) = true) :
    feedChunks step stops done s (chunk :: chunks) = feed step stops s chunk := if_pos h

theorem feedChunks_not_done (h : ¬ done (feed step stops s chunk) = true) :
    feedChunks step stops done s (chunk :: chunks) =
      feedChunks step stops done (feed step stops s chunk) chunks := if_neg h

/-- Unless a chunk ends where the machine is done without having stopped, chunks
make no difference. -/
theorem feedChunks_eq_feed (hdone : ∀ s a, stops s a = true → done (step s a) = true)
    (h : ∀ p, p <+: chunks → p ≠ [] → ¬ DoneAt step stops done s p.flatten) :
    feedChunks step stops done s chunks = feed step stops s chunks.flatten := by
  induction chunks generalizing s with
  | nil => rfl
  | cons chunk chunks ih =>
    rcases feed_cases step stops s chunk with hu | ⟨before,a,after,rfl,hu,ha⟩
    · have hf := feed_of_unstopped hu
      have hd : ¬ done (feed step stops s chunk) = true := by
        intro hd
        refine h [chunk] (by simp) (by simp) ⟨by simpa using hu,?_⟩
        simpa [hf] using hd
      rw [feedChunks_not_done hd,hf,List.flatten_cons,feed_append hu]
      refine ih ?_
      rintro p hp - ⟨hp',hd'⟩
      refine h (chunk :: p) (List.cons_prefix_cons.mpr ⟨rfl,hp⟩) (by simp) ⟨?_,?_⟩
      · rw [List.flatten_cons]
        exact unstopped_append.mpr ⟨hu,hp'⟩
      · rwa [List.flatten_cons,List.foldl_append]
    · have hf : feed step stops s (before ++ a :: after) = (before ++ [a]).foldl step s :=
        feed_stopped hu ha
      have hd : done (feed step stops s (before ++ a :: after)) = true := by
        rw [hf,List.foldl_append]
        exact hdone _ a ha
      rw [feedChunks_done hd,hf,List.flatten_cons,List.append_assoc,List.cons_append,
        feed_stopped hu ha]

/-- If a chunk ends there, the machine is left behind the first one that does. -/
theorem feedChunks_of_doneAt {p : List (List α)} (hp : p <+: chunks) (hne : p ≠ [])
    (h : DoneAt step stops done s p.flatten) : ∃ q, q <+: p ∧
      DoneAt step stops done s q.flatten ∧
        feedChunks step stops done s chunks = q.flatten.foldl step s := by
  induction chunks generalizing s p with
  | nil => exact absurd (List.prefix_nil.mp hp) hne
  | cons chunk chunks ih =>
    obtain ⟨first,p,rfl⟩ := List.exists_cons_of_ne_nil hne
    obtain ⟨rfl,hp'⟩ := List.cons_prefix_cons.mp hp
    obtain ⟨hu,hd⟩ := h
    rw [List.flatten_cons] at hu hd
    obtain ⟨hu,hu'⟩ := unstopped_append.mp hu
    rw [List.foldl_append] at hd
    have hf := feed_of_unstopped hu
    by_cases hc : done (feed step stops s first) = true
    · refine ⟨[first],by simp,⟨by simpa using hu,by simpa [hf] using hc⟩,?_⟩
      rw [feedChunks_done hc,hf]
      simp
    · have hne' : p ≠ [] := by
        rintro rfl
        exact hc (by simpa [hf] using hd)
      obtain ⟨q,hq,⟨hqu,hqd⟩,he⟩ := ih hp' hne' ⟨hu',hd⟩
      refine ⟨first :: q,List.cons_prefix_cons.mpr ⟨rfl,hq⟩,?_,?_⟩
      · rw [List.flatten_cons]
        exact ⟨unstopped_append.mpr ⟨hu,hqu⟩,by rwa [List.foldl_append]⟩
      · rw [feedChunks_not_done hc,hf,he,List.flatten_cons,List.foldl_append]

end Chunks

end Tracelib

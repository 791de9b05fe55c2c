import Mathlib.Data.List.Infix

/-!
# Tables

A table lists its rows in the order they were made, so that the number of a row is its
index. A row is replaced in its place, and new ones are added at the end.
-/

namespace Tracelib

variable {α : Type} {l : List α} {i j : ℕ} {a b : α}

/-- The rows after one was replaced. -/
theorem getElem?_set_cases (h : (l.set i a)[j]? = some b) :
    (j = i ∧ b = a) ∨ (j ≠ i ∧ l[j]? = some b) := by
  by_cases hj : j = i
  · subst hj
    obtain ⟨hlt,hb⟩ := List.getElem?_eq_some_iff.mp h
    rw [List.getElem_set_self] at hb
    exact .inl ⟨rfl,hb.symm⟩
  · rw [List.getElem?_set_ne (Ne.symm hj)] at h
    exact .inr ⟨hj,h⟩

theorem getElem?_set_of_some (h : l[i]? = some b) : (l.set i a)[i]? = some a :=
  List.getElem?_set_self (List.getElem?_eq_some_iff.mp h).1

/-- The rows after one was added. -/
theorem getElem?_concat_cases (h : (l ++ [a])[j]? = some b) :
    (j = l.length ∧ b = a) ∨ l[j]? = some b := by
  rcases Nat.lt_or_ge j l.length with hlt | hge
  · rw [List.getElem?_append_left hlt] at h
    exact .inr h
  · rw [List.getElem?_append_right hge,List.getElem?_singleton] at h
    split at h
    · cases h
      exact .inl ⟨by omega,rfl⟩
    · cases h

theorem getElem?_prefix_of_lt {l' : List α} (hp : l <+: l') (hj : j < l.length) :
    l[j]? = l'[j]? := by
  obtain ⟨new,rfl⟩ := hp
  exact (List.getElem?_append_left hj).symm

/-- What a table held at an earlier moment it still holds. -/
theorem getElem?_of_isPrefix {l' : List α} (hp : l <+: l') (h : l[j]? = some b) :
    l'[j]? = some b := by
  rw [← getElem?_prefix_of_lt hp (List.getElem?_eq_some_iff.mp h).1]
  exact h

theorem getElem?_concat_of_some (h : l[j]? = some b) : (l ++ [a])[j]? = some b :=
  getElem?_of_isPrefix (List.prefix_append _ _) h

/-- A property that one row has at most. -/
theorem countP_le_one {p : α → Bool}
    (h : ∀ (j k : ℕ) a b, l[j]? = some a → l[k]? = some b → p a = true → p b = true → j = k) :
    l.countP p ≤ 1 := by
  induction l with
  | nil => simp
  | cons a l ih =>
    by_cases ha : p a = true
    · have hl : l.countP p = 0 := by
        rw [List.countP_eq_zero]
        intro b hb hp
        obtain ⟨k,hk⟩ := List.mem_iff_getElem?.mp hb
        exact absurd (h 0 (k + 1) a b rfl hk ha hp) (by omega)
      rw [List.countP_cons_of_pos ha,hl]
    · rw [List.countP_cons_of_neg ha]
      refine ih ?_
      intro j k b c hj hk hb hc
      exact Nat.succ.inj (h (j + 1) (k + 1) b c hj hk hb hc)

end Tracelib

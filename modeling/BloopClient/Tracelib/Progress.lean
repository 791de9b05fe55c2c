import Mathlib.Data.List.Infix

/-!
# Bounded progress

A run is a list of actions, some of which are turns of the part of a system that is to get
somewhere. What the others do in between is up to them. `Leads` says how many turns it takes
at most, whatever that is.

## Main definitions

- `Leads` — some turns lead from one kind of state to another

## Main results

- `Leads.of_rank` — a rank that every turn lowers and no other action raises
- `Leads.trans`, `Leads.frame` — one bound after the other, with what no action spoils
- `Leads.lasting` — what is reached and no action spoils holds in the end
-/

namespace Tracelib

variable {σ Act : Type} {step : σ → Act → σ} {turn : Act → Bool} {P Q R : σ → Prop} {k l : ℕ}

theorem foldl_keeps (hP : ∀ s a, P s → P (step s a)) (actions : List Act) {s : σ} (hs : P s) :
    P (actions.foldl step s) := by
  induction actions generalizing s with
  | nil => exact hs
  | cons a actions ih => exact ih (hP s a hs)

/-- From a state with `P`, any actions with at least `k` turns among them pass a state with
`Q`, after at most `k` turns. -/
def Leads (step : σ → Act → σ) (turn : Act → Bool) (k : ℕ) (P Q : σ → Prop) : Prop :=
  ∀ s, P s → ∀ actions : List Act, k ≤ actions.countP turn →
    ∃ earlier later, actions = earlier ++ later ∧ earlier.countP turn ≤ k ∧
      Q (earlier.foldl step s)

namespace Leads

theorem refl (h : ∀ s, P s → Q s) : Leads step turn 0 P Q :=
  fun s hs actions _ => ⟨[],actions,rfl,Nat.le_refl 0,h s hs⟩

theorem trans (hPQ : Leads step turn k P Q) (hQR : Leads step turn l Q R) :
    Leads step turn (k + l) P R := by
  intro s hs actions hk
  obtain ⟨first,rest,rfl,hfirst,hq⟩ := hPQ s hs actions (by omega)
  rw [List.countP_append] at hk
  obtain ⟨second,later,rfl,hsecond,hr⟩ := hQR _ hq rest (by omega)
  refine ⟨first ++ second,later,(List.append_assoc _ _ _).symm,?_,?_⟩
  · rw [List.countP_append]
    omega
  · rwa [List.foldl_append]

/-- What no action spoils is carried along. -/
theorem frame {F : σ → Prop} (hF : ∀ s a, F s → F (step s a)) (h : Leads step turn k P Q) :
    Leads step turn k (fun s => P s ∧ F s) (fun s => Q s ∧ F s) := by
  intro s hs actions hk
  obtain ⟨earlier,later,he,hc,hq⟩ := h s hs.1 actions hk
  exact ⟨earlier,later,he,hc,hq,foldl_keeps hF earlier hs.2⟩

theorem lasting (hQ : ∀ s a, Q s → Q (step s a)) (h : Leads step turn k P Q) {s : σ} (hs : P s)
    {actions : List Act} (hk : k ≤ actions.countP turn) : Q (actions.foldl step s) := by
  obtain ⟨earlier,later,rfl,_,hq⟩ := h s hs actions hk
  rw [List.foldl_append]
  exact foldl_keeps hQ later hq

/-- A rank that is positive, that every turn lowers as long as it does not get there, and
that no other action raises. -/
theorem of_rank (rank : σ → ℕ) (hpos : ∀ s, P s → 0 < rank s) (hle : ∀ s, P s → rank s ≤ k)
    (hturn : ∀ s a, P s → turn a = true →
      Q (step s a) ∨ (P (step s a) ∧ rank (step s a) < rank s))
    (hother : ∀ s a, P s → turn a = false → P (step s a) ∧ rank (step s a) ≤ rank s) :
    Leads step turn k P Q := by
  have hrank : ∀ (actions : List Act) s, P s → rank s ≤ actions.countP turn →
      ∃ earlier later, actions = earlier ++ later ∧ earlier.countP turn ≤ rank s ∧
        Q (earlier.foldl step s) := by
    intro actions
    induction actions with
    | nil =>
      intro s hs hn
      exact absurd (hpos s hs) (Nat.not_lt.mpr hn)
    | cons a actions ih =>
      intro s hs hn
      cases ha : turn a with
      | true =>
        rw [List.countP_cons_of_pos ha] at hn
        rcases hturn s a hs ha with hq | ⟨hs',hlt⟩
        · refine ⟨[a],actions,rfl,?_,hq⟩
          rw [List.countP_cons_of_pos ha]
          exact hpos s hs
        · obtain ⟨earlier,later,rfl,he,hq⟩ := ih (step s a) hs' (by omega)
          refine ⟨a :: earlier,later,rfl,?_,hq⟩
          rw [List.countP_cons_of_pos ha]
          omega
      | false =>
        have hna : ¬ turn a = true := by simp [ha]
        rw [List.countP_cons_of_neg hna] at hn
        obtain ⟨hs',hlt⟩ := hother s a hs ha
        obtain ⟨earlier,later,rfl,he,hq⟩ := ih (step s a) hs' (by omega)
        refine ⟨a :: earlier,later,rfl,?_,hq⟩
        rw [List.countP_cons_of_neg hna]
        omega
  intro s hs actions hn
  obtain ⟨earlier,later,he,hc,hq⟩ := hrank actions s hs (Nat.le_trans (hle s hs) hn)
  exact ⟨earlier,later,he,Nat.le_trans hc (hle s hs),hq⟩

end Leads

end Tracelib

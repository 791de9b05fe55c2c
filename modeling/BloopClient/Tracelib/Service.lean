import BloopClient.Tracelib.History

/-!
# Logs of a server

A server takes requests out of a queue and works on them one at a time: it polls
until there is a result, and sends it. Whoever made a request may give it up at
any moment. What happens is logged, most recent first. `Lawful` lists the rules a
server keeps to, event by event; what they amount to for a whole log follows from
the rules alone.

## Main definitions

- `ServiceEvent` — what happens to a request
- `serving` — the request in service, with the result there is for it
- `Lawful` — the rule for each kind of event
-/

namespace Tracelib

inductive ServiceEvent (ρ α : Type)
  | submitted (r : ρ)
  | cancelled (r : ρ)
  | dequeued (r : ρ)
  | polled (r : ρ) (result : Option α)
  | abandoned (r : ρ)
  | answered (r : ρ) (a : α)
  | lost (r : ρ)
  deriving DecidableEq

namespace Service

variable {ρ α : Type} {poll : ℕ → ρ → Option α} {r : ρ} {a : α} {x : Option α}
  {t past : List (ServiceEvent ρ α)}

/-- The requests that entered the queue, oldest first. -/
def submitted : List (ServiceEvent ρ α) → List ρ
  | [] => []
  | .submitted r :: past => submitted past ++ [r]
  | _ :: past => submitted past

/-- The requests that left the queue, oldest first. -/
def dequeued : List (ServiceEvent ρ α) → List ρ
  | [] => []
  | .dequeued r :: past => dequeued past ++ [r]
  | _ :: past => dequeued past

/-- The request in service, with the result of the last poll for it. -/
def serving : List (ServiceEvent ρ α) → Option (ρ × Option α)
  | [] => none
  | .submitted _ :: past => serving past
  | .cancelled _ :: past => serving past
  | .dequeued r :: _ => some (r,none)
  | .polled r result :: _ => some (r,result)
  | .abandoned _ :: _ => none
  | .answered _ _ :: _ => none
  | .lost _ :: _ => none

/-- The number of polls. -/
def polls : List (ServiceEvent ρ α) → ℕ
  | [] => 0
  | .polled _ _ :: past => polls past + 1
  | _ :: past => polls past

/-- A poll was made for a request that had been given up. -/
def Late (r : ρ) (t : List (ServiceEvent ρ α)) : Prop :=
  ∃ later past result, t = later ++ .cancelled r :: past ∧ .polled r result ∈ later

/-- The rules of a server whose n-th poll has the result `poll n`. Requests are served
one by one in the order they were submitted in. It polls until there is a result,
but not twice for a request that was given up, and sends the result unless the request
was given up. -/
def Lawful (poll : ℕ → ρ → Option α) : ServiceEvent ρ α → List (ServiceEvent ρ α) → Prop
  | .submitted r, past => r ∉ submitted past
  | .cancelled _, _ => True
  | .dequeued r, past => serving past = none ∧ dequeued past ++ [r] <+: submitted past
  | .polled r result, past =>
    serving past = some (r,none) ∧ ¬ Late r past ∧ result = poll (polls past) r
  | .abandoned r, past => serving past = some (r,none) ∧ .cancelled r ∈ past
  | .answered r a, past => serving past = some (r,some a) ∧ .cancelled r ∉ past
  | .lost r, past => (∃ a, serving past = some (r,some a)) ∧ .cancelled r ∈ past

-- ════════════════════════════════════════════════════════════════════════
-- The order of service
-- ════════════════════════════════════════════════════════════════════════

theorem mem_of_late (h : Late r t) : .cancelled r ∈ t := by
  obtain ⟨later,past,_,rfl,_⟩ := h
  simp

theorem polled_of_late (h : Late r t) : ∃ result, .polled r result ∈ t := by
  obtain ⟨later,past,result,rfl,hm⟩ := h
  exact ⟨result,List.mem_append_left _ hm⟩

/-- A poll is late only if the log was late before, or the request given up. -/
theorem late_cons {e : ServiceEvent ρ α} (h : Late r (e :: t)) :
    Late r t ∨ ∃ result, e = .polled r result ∧ .cancelled r ∈ t := by
  obtain ⟨later,past,result,he,hm⟩ := h
  cases later with
  | nil => cases hm
  | cons e' later =>
    cases he
    rcases List.mem_cons.mp hm with rfl | hm
    · exact .inr ⟨result,rfl,by simp⟩
    · exact .inl ⟨later,past,result,rfl,hm⟩

theorem mem_submitted_cons {e : ServiceEvent ρ α} :
    r ∈ submitted (e :: t) ↔ r ∈ submitted t ∨ e = .submitted r := by
  cases e with
  | submitted r' =>
    rw [submitted,List.mem_append,List.mem_singleton,ServiceEvent.submitted.injEq,
      eq_comm (a := r)]
  | _ => exact (or_iff_left nofun).symm

theorem mem_submitted_of_suffix (hs : past <:+ t) (h : r ∈ submitted past) : r ∈ submitted t := by
  obtain ⟨new,rfl⟩ := hs
  induction new with
  | nil => exact h
  | cons e new ih => exact mem_submitted_cons.mpr (.inl ih)

theorem nodup_submitted (h : Always (Lawful poll) t) : (submitted t).Nodup := by
  induction t with
  | nil => exact List.nodup_nil
  | cons e t ih =>
    obtain ⟨he,h⟩ := h
    cases e with
    | submitted r =>
      rw [submitted,List.nodup_append]
      refine ⟨ih h,List.nodup_cons.mpr ⟨List.not_mem_nil,List.nodup_nil⟩,?_⟩
      rintro r₁ h₁ r₂ h₂ rfl
      cases List.mem_singleton.mp h₂
      exact he h₁
    | _ => exact ih h

theorem dequeued_isPrefix (h : Always (Lawful poll) t) : dequeued t <+: submitted t := by
  induction t with
  | nil => exact List.prefix_rfl
  | cons e t ih =>
    obtain ⟨he,h⟩ := h
    cases e with
    | submitted r => exact (ih h).trans (List.prefix_append _ _)
    | dequeued r => exact he.2
    | _ => exact ih h

theorem mem_dequeued_of_serving (h : Always (Lawful poll) t) (hs : serving t = some (r,x)) :
    r ∈ dequeued t := by
  induction t generalizing x with
  | nil => cases hs
  | cons e t ih =>
    obtain ⟨he,h⟩ := h
    cases e with
    | submitted _ => exact ih h hs
    | cancelled _ => exact ih h hs
    | dequeued _ =>
      cases hs
      simp [dequeued]
    | polled _ _ =>
      cases hs
      exact ih h he.1
    | abandoned _ => cases hs
    | answered _ _ => cases hs
    | lost _ => cases hs

theorem mem_dequeued_of_suffix (hs : past <:+ t) (h : r ∈ dequeued past) : r ∈ dequeued t := by
  obtain ⟨new,rfl⟩ := hs
  induction new with
  | nil => exact h
  | cons e new ih =>
    cases e with
    | dequeued _ => exact List.mem_append_left _ ih
    | _ => exact ih

/-- What was in service at some time was dequeued before. -/
theorem mem_dequeued_of_past {e : ServiceEvent ρ α} (h : Always (Lawful poll) t)
    (hs : e :: past <:+ t) (hserving : serving past = some (r,x)) : r ∈ dequeued t :=
  mem_dequeued_of_suffix ((List.suffix_cons e past).trans hs)
    (mem_dequeued_of_serving (h.of_suffix hs).2 hserving)

theorem mem_dequeued_of_answered (h : Always (Lawful poll) t) (hm : .answered r a ∈ t) :
    r ∈ dequeued t := by
  obtain ⟨new,past,rfl⟩ := List.append_of_mem hm
  have hs := List.suffix_append new (.answered r a :: past)
  exact mem_dequeued_of_past h hs (h.of_suffix hs).1.1

theorem mem_dequeued_of_polled (h : Always (Lawful poll) t) (hm : .polled r x ∈ t) :
    r ∈ dequeued t := by
  obtain ⟨new,past,rfl⟩ := List.append_of_mem hm
  have hs := List.suffix_append new (.polled r x :: past)
  exact mem_dequeued_of_past h hs (h.of_suffix hs).1.1

/-- What is dequeued next has not been dequeued before. -/
theorem not_mem_dequeued (h : Always (Lawful poll) t)
    (hp : dequeued t ++ [r] <+: submitted t) : r ∉ dequeued t := by
  have hn := hp.sublist.nodup (nodup_submitted h)
  rw [List.nodup_append] at hn
  intro hm
  exact hn.2.2 r hm r (List.mem_singleton_self r) rfl

/-- A request in service has no answer yet. -/
theorem not_answered_of_serving (h : Always (Lawful poll) t) (hs : serving t = some (r,x)) :
    .answered r a ∉ t := by
  induction t generalizing x with
  | nil => simp
  | cons e t ih =>
    obtain ⟨he,h⟩ := h
    rw [List.mem_cons,not_or]
    cases e with
    | submitted _ => exact ⟨nofun,ih h hs⟩
    | cancelled _ => exact ⟨nofun,ih h hs⟩
    | dequeued _ =>
      cases hs
      refine ⟨nofun,fun hm => ?_⟩
      exact not_mem_dequeued h he.2 (mem_dequeued_of_answered h hm)
    | polled _ _ =>
      cases hs
      exact ⟨nofun,ih h he.1⟩
    | abandoned _ => cases hs
    | answered _ _ => cases hs
    | lost _ => cases hs

/-- A request that was dequeued is in service, or its service has come to an end. -/
theorem ended_or_serving (h : Always (Lawful poll) t) (hm : r ∈ dequeued t) :
    (∃ x, serving t = some (r,x)) ∨ (∃ a, .answered r a ∈ t) ∨ .abandoned r ∈ t ∨
      .lost r ∈ t := by
  induction t with
  | nil => cases hm
  | cons e t ih =>
    obtain ⟨he,h⟩ := h
    -- what has ended stays so; what is in service ends with this event or goes on
    have hkeep : (∃ a, .answered r a ∈ t) ∨ .abandoned r ∈ t ∨ .lost r ∈ t →
        (∃ a, .answered r a ∈ e :: t) ∨ .abandoned r ∈ e :: t ∨ .lost r ∈ e :: t := by
      rintro (⟨a,hm⟩ | hm | hm)
      · exact .inl ⟨a,List.mem_cons_of_mem _ hm⟩
      · exact .inr (.inl (List.mem_cons_of_mem _ hm))
      · exact .inr (.inr (List.mem_cons_of_mem _ hm))
    have hlast : ∀ {r' y}, serving t = some (r',y) → r ∈ dequeued t →
        r = r' ∨ (∃ a, .answered r a ∈ t) ∨ .abandoned r ∈ t ∨ .lost r ∈ t := by
      intro r' y hserving hm
      rcases ih h hm with ⟨x,hs⟩ | hended
      · rw [hserving] at hs
        cases hs
        exact .inl rfl
      · exact .inr hended
    cases e with
    | submitted _ => exact (ih h hm).imp id hkeep
    | cancelled _ => exact (ih h hm).imp id hkeep
    | dequeued r' =>
      rcases List.mem_append.mp hm with hm | hm
      · rcases ih h hm with ⟨x,hs⟩ | hended
        · rw [he.1] at hs
          cases hs
        · exact .inr (hkeep hended)
      · cases List.mem_singleton.mp hm
        exact .inl ⟨none,rfl⟩
    | polled r' result =>
      rcases hlast he.1 hm with rfl | hended
      · exact .inl ⟨result,rfl⟩
      · exact .inr (hkeep hended)
    | abandoned r' =>
      rcases hlast he.1 hm with rfl | hended
      · exact .inr (.inr (.inl List.mem_cons_self))
      · exact .inr (hkeep hended)
    | answered r' a =>
      rcases hlast he.1 hm with rfl | hended
      · exact .inr (.inl ⟨a,List.mem_cons_self⟩)
      · exact .inr (hkeep hended)
    | lost r' =>
      obtain ⟨⟨a,hserving⟩,_⟩ := he
      rcases hlast hserving hm with rfl | hended
      · exact .inr (.inr (.inr List.mem_cons_self))
      · exact .inr (hkeep hended)

-- ════════════════════════════════════════════════════════════════════════
-- Answers and polls
-- ════════════════════════════════════════════════════════════════════════

/-- The time a request has been in service: nothing else was dequeued in it, and the
result there is comes from a poll for the request. -/
structure Window (poll : ℕ → ρ → Option α) (r : ρ) (x : Option α)
    (window before : List (ServiceEvent ρ α)) : Prop where
  alone : ∀ r', .dequeued r' ∉ window
  result : ∀ a, x = some a → ∃ later earlier, window = later ++ .polled r (some a) :: earlier ∧
    poll (polls (earlier ++ .dequeued r :: before)) r = some a

theorem Window.cons {window before : List (ServiceEvent ρ α)} {e : ServiceEvent ρ α}
    (h : Window poll r x window before) (he : ∀ r', e ≠ .dequeued r') :
    Window poll r x (e :: window) before where
  alone r' := List.not_mem_cons_of_ne_of_not_mem (he r').symm (h.alone r')
  result := by
    intro a hx
    obtain ⟨later,earlier,rfl,hr⟩ := h.result a hx
    exact ⟨e :: later,earlier,rfl,hr⟩

/-- What is in service was dequeued at some time, and has been in service since. -/
theorem serving_window (h : Always (Lawful poll) t) (hs : serving t = some (r,x)) :
    ∃ window before, t = window ++ .dequeued r :: before ∧ Window poll r x window before := by
  induction t generalizing x with
  | nil => cases hs
  | cons e t ih =>
    obtain ⟨he,h⟩ := h
    cases e with
    | submitted r' =>
      obtain ⟨window,before,rfl,hw⟩ := ih h hs
      exact ⟨.submitted r' :: window,before,rfl,hw.cons nofun⟩
    | cancelled r' =>
      obtain ⟨window,before,rfl,hw⟩ := ih h hs
      exact ⟨.cancelled r' :: window,before,rfl,hw.cons nofun⟩
    | dequeued _ =>
      cases hs
      exact ⟨[],t,rfl,nofun,nofun⟩
    | polled _ _ =>
      cases hs
      obtain ⟨window,before,rfl,hw⟩ := ih h he.1
      have hnext : Window poll r none (.polled r x :: window) before := hw.cons nofun
      refine ⟨.polled r x :: window,before,rfl,hnext.alone,?_⟩
      rintro a rfl
      exact ⟨[],window,rfl,he.2.2.symm⟩
    | abandoned _ => cases hs
    | answered _ _ => cases hs
    | lost _ => cases hs

section Counting

variable [DecidableEq ρ]

/-- The event is an answer to the request. -/
def isAnswer (r : ρ) : ServiceEvent ρ α → Bool
  | .answered r' _ => r' = r
  | _ => false

/-- The event is a poll for the request. -/
def isPoll (r : ρ) : ServiceEvent ρ α → Bool
  | .polled r' _ => r' = r
  | _ => false

theorem isAnswer_iff {e : ServiceEvent ρ α} : isAnswer r e = true ↔ ∃ a, e = .answered r a := by
  cases e <;> simp [isAnswer]

theorem isPoll_iff {e : ServiceEvent ρ α} : isPoll r e = true ↔ ∃ x, e = .polled r x := by
  cases e <;> simp [isPoll]

theorem countP_isAnswer_eq_zero (h : ∀ a, .answered r a ∉ t) : t.countP (isAnswer r) = 0 := by
  rw [List.countP_eq_zero]
  intro e he hr
  obtain ⟨a,rfl⟩ := isAnswer_iff.mp hr
  exact h a he

/-- No request is answered twice. -/
theorem countP_isAnswer_le (h : Always (Lawful poll) t) (r : ρ) :
    t.countP (isAnswer r) ≤ 1 := by
  induction t with
  | nil => exact Nat.zero_le _
  | cons e t ih =>
    obtain ⟨he,h⟩ := h
    by_cases hr : isAnswer r e = true
    · obtain ⟨a,rfl⟩ := isAnswer_iff.mp hr
      have hzero : t.countP (isAnswer r) = 0 :=
        countP_isAnswer_eq_zero fun _ => not_answered_of_serving h he.1
      rw [List.countP_cons_of_pos hr,hzero]
    · rw [List.countP_cons_of_neg hr]
      exact ih h

theorem countP_isAnswer_eq_one (h : Always (Lawful poll) t) (hm : .answered r a ∈ t) :
    t.countP (isAnswer r) = 1 := by
  have hpos : 0 < t.countP (isAnswer r) := List.countP_pos_iff.mpr ⟨_,hm,by simp [isAnswer]⟩
  exact Nat.le_antisymm (countP_isAnswer_le h r) hpos

/-- A request that was given up gets no answer, and at most one more poll. -/
theorem quiet_of_cancelled (h : Always (Lawful poll) t) {later : List (ServiceEvent ρ α)}
    (ht : t = later ++ .cancelled r :: past) :
    (∀ a, .answered r a ∉ later) ∧ later.countP (isPoll r) ≤ 1 := by
  induction later generalizing t with
  | nil => exact ⟨nofun,Nat.zero_le _⟩
  | cons e later ih =>
    subst ht
    obtain ⟨he,h⟩ := h
    obtain ⟨hanswers,hpolls⟩ := ih h rfl
    constructor
    · intro a hm
      rcases List.mem_cons.mp hm with rfl | hm
      · exact he.2 (by simp)
      · exact hanswers a hm
    · by_cases hr : isPoll r e = true
      · obtain ⟨x,rfl⟩ := isPoll_iff.mp hr
        have hzero : later.countP (isPoll r) = 0 := by
          rw [List.countP_eq_zero]
          intro e' he' hr'
          obtain ⟨x',rfl⟩ := isPoll_iff.mp hr'
          exact he.2.1 ⟨later,past,x',rfl,he'⟩
        rw [List.countP_cons_of_pos hr,hzero]
      · rw [List.countP_cons_of_neg hr]
        exact hpolls

end Counting

end Service

end Tracelib

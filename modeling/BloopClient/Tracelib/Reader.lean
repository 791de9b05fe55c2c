import Mathlib.Data.List.Infix

/-!
# Readers of a list

A reader looks at a list from an index on and returns a value with the index it
got to, or fails. It reads a code if it succeeds just on what begins with a word
of the code, and gets to the end of that word.

## Main definitions

- `Reads` — a reader reads a code
- `Incremental` — a reader of a list that is still arriving
-/

namespace Tracelib

variable {ε α β γ : Type}

theorem throw_bind (e : ε) (f : α → Except ε β) : throw e >>= f = throw e := rfl

theorem ite_bind (c : Prop) [Decidable c] (x y : Except ε α) (f : α → Except ε β) :
    (if c then x else y) >>= f = if c then x >>= f else y >>= f :=
  apply_ite (· >>= f) c x y

theorem bind_ok_iff {x : Except ε α} {f : α → Except ε β} {b : β} :
    x >>= f = .ok b ↔ ∃ a, x = .ok a ∧ f a = .ok b := by
  constructor
  · intro h
    cases x with
    | ok a => exact ⟨a,rfl,h⟩
    | error e => cases h
  · rintro ⟨a,rfl,h⟩
    exact h

theorem pure_ok_iff {a b : α} : (pure a : Except ε α) = .ok b ↔ a = b := Except.ok.injEq a b ▸ .rfl

/-- What comes second matters only for the values of what comes first. -/
theorem bind_eq_bind {x y : Except ε α} {f g : α → Except ε β} (h : x = y)
    (hfg : ∀ a, y = .ok a → f a = g a) : x >>= f = y >>= g := by
  subst h
  cases x with
  | ok a => exact hfg a rfl
  | error e => rfl

/-- A check is passed. -/
theorem guard_ok_iff {c : Prop} [Decidable c] {e : ε} {f : α → Except ε β} {x : Except ε β}
    {b : β} :
    (if c then throw e >>= f else x) = .ok b ↔ ¬ c ∧ x = .ok b := by
  by_cases hc : c
  · rw [if_pos hc]
    exact iff_of_false nofun fun h => h.1 hc
  · rw [if_neg hc]
    exact (and_iff_right hc).symm

/-- A reader succeeds on the words of a code, whatever stands around them. -/
def Reads (read : List γ → ℕ → Except ε (α × ℕ)) (code : α → List γ → Prop) : Prop :=
  ∀ past rest a index, read (past ++ rest) past.length = .ok (a,index) ↔
    ∃ word more, rest = word ++ more ∧ code a word ∧ index = (past ++ word).length

/-- What does not look at the list reads the empty word. -/
theorem reads_pure (a : α) : Reads (fun (_ : List γ) index => (.ok (a,index) : Except ε _))
    (fun b word => b = a ∧ word = []) := by
  intro past rest b index
  constructor
  · intro h
    cases h
    exact ⟨[],rest,rfl,⟨rfl,rfl⟩,by rw [List.append_nil]⟩
  · rintro ⟨_,_,_,⟨rfl,rfl⟩,rfl⟩
    rw [List.append_nil]

namespace Reads

variable {read : List γ → ℕ → Except ε (α × ℕ)} {code code' : α → List γ → Prop}
  {next : α → List γ → ℕ → Except ε (β × ℕ)} {codes : α → β → List γ → Prop}

theorem congr (h : Reads read code) (hc : ∀ a word, code a word ↔ code' a word) :
    Reads read code' := by
  intro past rest a index
  simp only [← hc]
  exact h past rest a index

/-- A check that every word passes may stand in front of a reader. -/
theorem check {c : List γ → ℕ → Prop} [∀ data index, Decidable (c data index)] {e : ε}
    {f : List γ → ℕ → β → Except ε (α × ℕ)} (h : Reads read code)
    (hc : ∀ past word more a, code a word → ¬ c (past ++ (word ++ more)) past.length) :
    Reads (fun data index => if c data index then throw e >>= f data index else read data index)
      code := by
  intro past rest a index
  rw [guard_ok_iff,h past rest]
  constructor
  · exact And.right
  · rintro ⟨word,more,rfl,hw,hi⟩
    exact ⟨hc past word more a hw,word,more,rfl,hw,hi⟩

/-- A check that has nothing to do with the list. -/
theorem guard (c : Prop) [Decidable c] (e : ε) (h : Reads read code) :
    Reads (fun data index => if c then throw e else read data index)
      (fun a word => ¬ c ∧ code a word) := by
  intro past rest a index
  rw [← throw_bind e (pure (f := Except ε)),guard_ok_iff,h past rest]
  constructor
  · rintro ⟨hc,word,more,hrest,hw,hi⟩
    exact ⟨word,more,hrest,⟨hc,hw⟩,hi⟩
  · rintro ⟨word,more,hrest,⟨hc,hw⟩,hi⟩
    exact ⟨hc,word,more,hrest,hw,hi⟩

/-- Two readers, one behind the other, read a word of the first code and one of the
second. -/
theorem bind (h : Reads read code) (hn : ∀ a, Reads (next a) (codes a)) :
    Reads (fun data index => read data index >>= fun x => next x.1 data x.2)
      (fun b word => ∃ a u v, word = u ++ v ∧ code a u ∧ codes a b v) := by
  intro past rest b index
  simp only [bind_ok_iff,Prod.exists,h past rest]
  constructor
  · rintro ⟨a,_,⟨u,rest,rfl,hu,rfl⟩,hb⟩
    rw [← List.append_assoc] at hb
    obtain ⟨v,more,rfl,hv,rfl⟩ := (hn a _ rest b index).mp hb
    exact ⟨u ++ v,more,(List.append_assoc u v more).symm,⟨a,u,v,rfl,hu,hv⟩,
      by rw [List.append_assoc]⟩
  · rintro ⟨_,more,rfl,⟨a,u,v,rfl,hu,hv⟩,rfl⟩
    refine ⟨a,_,⟨u,v ++ more,List.append_assoc u v more,hu,rfl⟩,?_⟩
    have hb := (hn a (past ++ u) (v ++ more) b _).mpr ⟨v,more,rfl,hv,rfl⟩
    simpa only [List.append_assoc] using hb

end Reads

-- ════════════════════════════════════════════════════════════════════════
-- Readers of a list that is still arriving
-- ════════════════════════════════════════════════════════════════════════

/-- A result that stands: a value, or an error of a kind that is final. -/
def Settled (final : ε → Prop) (x : Except ε α) : Prop := ∀ e, x = .error e → final e

/-- A reader of as much of a list as has arrived. It stays inside of it, and fails
because it is short of more or for good. A result that stands is not changed by
what arrives later, and something can arrive that leads to one. -/
structure Incremental (short final : ε → Prop) (read : List γ → ℕ → Except ε (α × ℕ)) :
    Prop where
  inside : ∀ {data index a i}, index ≤ data.length → read data index = .ok (a,i) →
    i ≤ data.length
  fails : ∀ {data index e}, index ≤ data.length → read data index = .error e →
    short e ∨ final e
  stable : ∀ {data index} (tail : List γ), index ≤ data.length →
    Settled final (read data index) → read (data ++ tail) index = read data index
  completes : ∀ data index, index ≤ data.length →
    ∃ tail, Settled final (read (data ++ tail) index)

namespace Incremental

variable {short final : ε → Prop} {read : List γ → ℕ → Except ε (α × ℕ)}
  {next : α → List γ → ℕ → Except ε (β × ℕ)}

theorem of_pure (a : α) :
    Incremental short final (fun (_ : List γ) index => (.ok (a,index) : Except ε _)) where
  inside := by
    intro data index b i hi h
    cases h
    exact hi
  fails := by
    intro data index e hi h
    cases h
  stable := fun _ _ _ => rfl
  completes := fun _ _ _ => ⟨[],nofun⟩

/-- A number of elements that has to be there before they are looked at. -/
theorem of_need [Inhabited γ] {n : ℕ} {e : ε} (hshort : short e) (hfinal : ¬ final e)
    {c : List γ → ℕ → Prop} [∀ data index, Decidable (c data index)]
    (hc : ∀ data index, index ≤ data.length → (c data index ↔ data.length < index + n))
    {f : List γ → ℕ → β → Except ε (α × ℕ)}
    (hread : ∀ data index, index + n ≤ data.length →
      ∃ a, ∀ tail, read (data ++ tail) index = .ok (a,index + n)) :
    Incremental short final (fun data index =>
      if c data index then throw e >>= f data index else read data index) := by
  have hthrow : ∀ {data index}, index ≤ data.length → data.length < index + n →
      (if c data index then throw e >>= f data index else read data index) = .error e := by
    intro data index hi hlt
    exact if_pos ((hc data index hi).mpr hlt)
  have hok : ∀ {data index}, index + n ≤ data.length → ∃ a,
      (if c data index then throw e >>= f data index else read data index) = .ok (a,index + n) ∧
      ∀ tail, (if c (data ++ tail) index then throw e >>= f (data ++ tail) index
        else read (data ++ tail) index) = .ok (a,index + n) := by
    intro data index hle
    obtain ⟨a,ha⟩ := hread data index hle
    have htail : ∀ tail, (if c (data ++ tail) index then throw e >>= f (data ++ tail) index
        else read (data ++ tail) index) = .ok (a,index + n) := by
      intro tail
      have hlen : (data ++ tail).length = data.length + tail.length := List.length_append
      rw [if_neg,ha tail]
      rw [hc _ _ (by omega)]
      omega
    exact ⟨a,by simpa only [List.append_nil] using htail [],htail⟩
  constructor
  · intro data index a i hi h
    rcases Nat.lt_or_ge data.length (index + n) with hlt | hle
    · rw [hthrow hi hlt] at h
      cases h
    · obtain ⟨b,hb,_⟩ := hok hle
      rw [hb] at h
      cases h
      exact hle
  · intro data index e' hi h
    rcases Nat.lt_or_ge data.length (index + n) with hlt | hle
    · rw [hthrow hi hlt] at h
      cases h
      exact .inl hshort
    · obtain ⟨b,hb,_⟩ := hok hle
      rw [hb] at h
      cases h
  · intro data index tail hi h
    rcases Nat.lt_or_ge data.length (index + n) with hlt | hle
    · exact absurd (h e (hthrow hi hlt)) hfinal
    · obtain ⟨b,hb,htail⟩ := hok hle
      exact (htail tail).trans hb.symm
  · intro data index hi
    have hle : index + n ≤ (data ++ List.replicate n default).length := by
      rw [List.length_append,List.length_replicate]
      omega
    obtain ⟨b,hb,_⟩ := hok hle
    refine ⟨List.replicate n default,?_⟩
    intro e' he'
    rw [hb] at he'
    cases he'

/-- A check that has nothing to do with the list. -/
theorem guard (c : Prop) [Decidable c] {e : ε} (he : final e) (h : Incremental short final read) :
    Incremental short final (fun data index => if c then throw e else read data index) := by
  by_cases hc : c
  · simp only [hc,if_true]
    refine ⟨?_,?_,fun _ _ _ => rfl,?_⟩
    · intro data index a i _ h
      cases h
    · intro data index e' _ h
      cases h
      exact .inr he
    · intro data index _
      refine ⟨[],?_⟩
      intro e' h
      cases h
      exact he
  · simp only [hc,if_false]
    exact h

/-- Two readers, one behind the other. -/
theorem bind (h : Incremental short final read)
    (hn : ∀ a, Incremental short final (next a)) :
    Incremental short final (fun data index => read data index >>= fun x => next x.1 data x.2) := by
  have hstay : ∀ {data index a i} (tail : List γ), index ≤ data.length →
      read data index = .ok (a,i) → read (data ++ tail) index = .ok (a,i) := by
    intro data index a i tail hi hx
    rw [h.stable tail hi (by rw [hx]; nofun),hx]
  constructor
  · intro data index b j hi hb
    obtain ⟨⟨a,i⟩,hx,hy⟩ := bind_ok_iff.mp hb
    exact (hn a).inside (h.inside hi hx) hy
  · intro data index e hi he
    cases hx : read data index with
    | ok x =>
      rw [hx] at he
      exact (hn x.1).fails (h.inside hi hx) he
    | error e' =>
      rw [hx] at he
      cases he
      exact h.fails hi hx
  · intro data index tail hi hs
    cases hx : read data index with
    | ok x =>
      rw [hx] at hs
      rw [hstay tail hi hx]
      exact (hn x.1).stable tail (h.inside hi hx) hs
    | error e =>
      rw [hx] at hs
      have hs' : Settled final (read data index) := by
        rw [hx]
        rintro _ ⟨⟩
        exact hs e rfl
      rw [h.stable tail hi hs',hx]
      rfl
  · intro data index hi
    obtain ⟨tail,ht⟩ := h.completes data index hi
    have hi' : index ≤ (data ++ tail).length := by
      rw [List.length_append]
      omega
    cases hx : read (data ++ tail) index with
    | ok x =>
      obtain ⟨tail',ht'⟩ := (hn x.1).completes (data ++ tail) x.2 (h.inside hi' hx)
      refine ⟨tail ++ tail',?_⟩
      rw [← List.append_assoc,hstay tail' hi' hx]
      exact ht'
    | error e =>
      refine ⟨tail,?_⟩
      rw [hx]
      rintro _ ⟨⟩
      exact ht e hx

end Incremental

end Tracelib

import Mathlib.Data.Set.Card

/-! Counting holders. The tally of a resource is the number of parties that hold it; a change of one party moves two
tallies by one. -/

namespace AutoHarness.Foundation

universe u v

variable {S : Type u} {K : Type v}

/-- How many parties hold `k`. -/
noncomputable def tally (f : S → Option K) (k : K) : ℕ := {s | f s = some k}.ncard

def FinitelyHeld (f : S → Option K) : Prop := {s | f s ≠ none}.Finite

variable {f : S → Option K} {k : K}

theorem finite_holders (h : FinitelyHeld f) (k : K) : {s | f s = some k}.Finite :=
  h.subset fun s hs => by
    change f s ≠ none
    rw [hs]
    exact Option.some_ne_none k

theorem tally_eq_zero (h : ∀ s, f s ≠ some k) : tally f k = 0 := by
  have hempty : {s | f s = some k} = ∅ := Set.eq_empty_of_forall_notMem h
  rw [tally, hempty, Set.ncard_empty]

theorem tally_pos {s : S} (hf : FinitelyHeld f) (h : f s = some k) : 0 < tally f k :=
  (Set.ncard_pos (finite_holders hf k)).mpr ⟨s, h⟩

section Update

variable [DecidableEq S]

variable {f : S → Option K}

theorem FinitelyHeld.update (h : FinitelyHeld f) (s : S) (v : Option K) : FinitelyHeld (Function.update f s v) := by
  refine (h.insert s).subset fun t ht => ?_
  by_cases hts : t = s
  · exact .inl hts
  · change Function.update f s v t ≠ none at ht
    rw [Function.update_of_ne hts] at ht
    exact .inr ht

variable [DecidableEq K]

/-- The holders of `k` are those other than `s`, and `s` if it holds `k`. -/
theorem tally_split (h : FinitelyHeld f) (s : S) (k : K) :
    tally f k = {t | t ≠ s ∧ f t = some k}.ncard + if f s = some k then 1 else 0 := by
  have hfin : {t | t ≠ s ∧ f t = some k}.Finite := (finite_holders h k).subset fun t ht => ht.2
  by_cases hs : f s = some k
  · have hset : {t | f t = some k} = insert s {t | t ≠ s ∧ f t = some k} := by
      ext t
      by_cases hts : t = s
      · simp [hts, hs]
      · simp [hts]
    rw [tally, hset, Set.ncard_insert_of_notMem (by simp) hfin, if_pos hs]
  · have hset : {t | f t = some k} = {t | t ≠ s ∧ f t = some k} := by
      ext t
      by_cases hts : t = s
      · simp [hts, hs]
      · simp [hts]
    rw [tally, hset, if_neg hs, add_zero]

/-- **Update rule.** -/
theorem tally_update (h : FinitelyHeld f) (s : S) (v : Option K) (k : K) :
    tally (Function.update f s v) k + (if f s = some k then 1 else 0) = tally f k + if v = some k then 1 else 0 := by
  have hrest : {t | t ≠ s ∧ Function.update f s v t = some k} = {t | t ≠ s ∧ f t = some k} := by
    ext t
    by_cases hts : t = s
    · simp [hts]
    · simp [hts]
  rw [tally_split (h.update s v) s k, tally_split h s k, hrest, Function.update_self]
  omega

end Update

end AutoHarness.Foundation

import AutoHarness.Foundation.Increasing
import Mathlib.Data.List.Induction

/-! Merging sorted runs by their heads: each round takes the least head, the first of equal ones. -/

namespace AutoHarness.Foundation
open List

universe u v

section Merge

variable {α : Type u} (before : α → α → Bool)

def leastHead (runs : List (List α)) : Option (ℕ × α) :=
  runs.zipIdx.foldl
    (fun winner x =>
      match x.1.head? with
      | none => winner
      | some candidate =>
        if winner.all fun w => before candidate w.2 then some (x.2, candidate) else winner)
    none

/-- As many rounds as `fuel` allows. -/
def mergeHeads : ℕ → List (List α) → List α
  | 0, _ => []
  | fuel + 1, runs =>
    match leastHead before runs with
    | none => []
    | some (i, a) => a :: mergeHeads fuel (runs.modify i List.tail)

variable {before}

theorem leastHead_concat (runs : List (List α)) (run : List α) : leastHead before (runs ++ [run]) = match run.head? with
      | none => leastHead before runs | some candidate =>
        if (leastHead before runs).all fun w => before candidate w.2 then some (runs.length, candidate)
        else leastHead before runs := by
  unfold leastHead
  rw [zipIdx_append, foldl_append, Nat.zero_add]
  rfl

variable {runs : List (List α)}

theorem leastHead_eq_none (h : leastHead before runs = none) : runs.flatten = [] := by
  induction runs using reverseRecOn with
  | nil => rfl
  | append_singleton runs run ih =>
    rw [leastHead_concat] at h
    cases run with
    | nil => simpa using ih h
    | cons a t =>
      dsimp only [head?_cons] at h
      split_ifs at h with hall
      rw [h] at hall
      exact absurd rfl hall

variable {i : ℕ} {a : α}

theorem leastHead_eq_some (h : leastHead before runs = some (i, a)) : ∃ t, runs[i]? = some (a :: t) := by
  induction runs using reverseRecOn with
  | nil => cases h
  | append_singleton runs run ih =>
    have hold : leastHead before runs = some (i, a) → ∃ t, (runs ++ [run])[i]? = some (a :: t) := by
      intro hold
      obtain ⟨t, ht⟩ := ih hold
      exact ⟨t, by rw [List.getElem?_append_left (List.getElem?_eq_some_iff.mp ht).1, ht]⟩
    rw [leastHead_concat] at h
    cases run with
    | nil => exact hold h
    | cons b t =>
      dsimp only [head?_cons] at h
      split_ifs at h with hall
      · cases h
        exact ⟨t, List.getElem?_concat_length⟩
      · exact hold h

variable {K : Type v} [LinearOrder K] {rank : α → K}

theorem leastHead_le (hbefore : ∀ a ∈ runs.flatten, ∀ b ∈ runs.flatten,
      before a b = true ↔ rank a < rank b) (h : leastHead before runs = some (i, a)) :
    ∀ b t, b :: t ∈ runs → rank a ≤ rank b := by
  induction runs using reverseRecOn generalizing i a with
  | nil => cases h
  | append_singleton runs run ih =>
    have hsub : ∀ x ∈ runs.flatten, x ∈ (runs ++ [run]).flatten := fun x hx => by
      rw [flatten_append]
      exact mem_append_left _ hx
    have ih' := fun {i a} => ih (fun x hx y hy => hbefore x (hsub x hx) y (hsub y hy)) (i := i) (a := a)
    intro b t hmem
    rw [leastHead_concat] at h
    cases run with
    | nil =>
      rcases mem_append.mp hmem with hmem | hmem
      · exact ih' h b t hmem
      · cases mem_singleton.mp hmem
    | cons c u =>
      have hc : c ∈ (runs ++ [c :: u]).flatten := by simp
      dsimp only [head?_cons] at h
      split_ifs at h with hall
      · cases h
        rcases mem_append.mp hmem with hmem | hmem
        · -- the old winner ranks below every old head, and the new one below the old
          cases hw : leastHead before runs with
          | none =>
            have hb : b ∈ runs.flatten := mem_flatten.mpr ⟨_, hmem, mem_cons_self⟩
            rw [leastHead_eq_none hw] at hb
            cases hb
          | some w =>
            obtain ⟨j, d⟩ := w
            obtain ⟨v, hv⟩ := leastHead_eq_some hw
            have hd : d ∈ runs.flatten :=
              mem_flatten.mpr ⟨_, mem_of_getElem? hv, mem_cons_self⟩
            rw [hw, Option.all_some] at hall
            exact ((hbefore a hc d (hsub d hd)).mp hall).le.trans (ih' hw b t hmem)
        · cases mem_singleton.mp hmem
          exact le_rfl
      · rcases mem_append.mp hmem with hmem | hmem
        · exact ih' h b t hmem
        · cases mem_singleton.mp hmem
          obtain ⟨v, hv⟩ := leastHead_eq_some h
          have ha : a ∈ runs.flatten := mem_flatten.mpr ⟨_, mem_of_getElem? hv, mem_cons_self⟩
          rw [h, Option.all_some, hbefore b hc a (hsub a ha)] at hall
          exact not_lt.mp hall

theorem perm_flatten_modify_tail {t : List α}
    (h : runs[i]? = some (a :: t)) : runs.flatten.Perm (a :: (runs.modify i List.tail).flatten) := by
  obtain ⟨hlt, hget⟩ := List.getElem?_eq_some_iff.mp h
  have hsplit : runs = runs.take i ++ (a :: t) :: runs.drop (i + 1) := by
    rw [← hget, List.getElem_cons_drop hlt, List.take_append_drop]
  rw [List.modify_eq_take_cons_drop hlt, hget, List.tail_cons]
  conv_lhs => rw [hsplit]
  simp only [flatten_append, flatten_cons, cons_append]
  exact perm_middle

theorem mem_modify_tail {run : List α} (h : run ∈ runs.modify i List.tail) :
    ∃ old ∈ runs, run = old ∨ run = old.tail := by
  obtain ⟨j, hj⟩ := mem_iff_getElem?.mp h
  rw [List.getElem?_modify] at hj
  obtain ⟨old, hold, hrun⟩ := Option.map_eq_some_iff.mp hj
  refine ⟨old, mem_of_getElem? hold, ?_⟩
  split_ifs at hrun
  · exact .inr hrun.symm
  · exact .inl hrun.symm

/-- **Merge.** Enough rounds over increasing runs without a common rank give all their members, in increasing
rank. -/
theorem mergeHeads_spec {fuel : ℕ} (hfuel : runs.flatten.length ≤ fuel) (hruns : ∀ run ∈ runs, Increasing rank run)
    (hinj : (runs.flatten.map rank).Nodup)
    (hbefore : ∀ a ∈ runs.flatten, ∀ b ∈ runs.flatten, before a b = true ↔ rank a < rank b) :
    (mergeHeads before fuel runs).Perm runs.flatten ∧ Increasing rank (mergeHeads before fuel runs) := by
  induction fuel generalizing runs with
  | zero =>
    rw [length_eq_zero_iff.mp (Nat.le_zero.mp hfuel)]
    exact ⟨.refl _, List.Pairwise.nil⟩
  | succ fuel ih =>
    unfold mergeHeads
    cases hw : leastHead before runs with
    | none =>
      rw [leastHead_eq_none hw]
      exact ⟨.refl _, List.Pairwise.nil⟩
    | some w =>
      obtain ⟨i, a⟩ := w
      obtain ⟨t, ht⟩ := leastHead_eq_some hw
      have hperm := perm_flatten_modify_tail ht
      have hmem : ∀ b ∈ (runs.modify i List.tail).flatten, b ∈ runs.flatten := fun b hb =>
        hperm.mem_iff.mpr (mem_cons_of_mem a hb)
      have hlen := hperm.length_eq
      rw [length_cons] at hlen
      have hnodup := (hperm.map rank).nodup_iff.mp hinj
      rw [map_cons, nodup_cons] at hnodup
      have hrest : ∀ run ∈ runs.modify i List.tail, Increasing rank run := by
        intro run hrun
        obtain ⟨old, hold, rfl | rfl⟩ := mem_modify_tail hrun
        · exact hruns _ hold
        · exact (hruns _ hold).sublist (tail_sublist _)
      obtain ⟨hpermRest, hincr⟩ := ih (by omega) hrest hnodup.2
        (fun b hb c hc => hbefore b (hmem b hb) c (hmem c hc))
      refine ⟨(hpermRest.cons a).trans hperm.symm, pairwise_cons.mpr ⟨fun b hb => ?_, hincr⟩⟩
      -- whatever is left stands behind the head of its run, which does not rank below `a`
      have hb' := hpermRest.mem_iff.mp hb
      have hne : rank a ≠ rank b := fun heq => hnodup.1 (heq ▸ mem_map_of_mem hb')
      obtain ⟨run, hrun, hbrun⟩ := mem_flatten.mp (hmem b hb')
      refine lt_of_le_of_ne ?_ hne
      cases run with
      | nil => cases hbrun
      | cons c u =>
        have hac := leastHead_le hbefore hw c u hrun
        rcases mem_cons.mp hbrun with rfl | hbu
        · exact hac
        · exact hac.trans ((pairwise_cons.mp (hruns _ hrun)).1 b hbu).le

end Merge

end AutoHarness.Foundation

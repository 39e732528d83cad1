import Mathlib.Data.List.Basic
import Mathlib.Logic.Function.Basic

/-! A chain of fences for each key. Whoever joins a key waits for its tail and leaves a new tail. A fence resolves
after the one it waits for, and a resolved tail is deleted. -/

namespace AutoHarness.Foundation
open Function Option

universe u

structure Fence (κ : Type u) where
  key : κ
  previous : Option ℕ
  resolved : Bool := false

structure FenceChain (κ : Type u) where
  fences : List (Fence κ) := []
  tails : κ → Option ℕ := fun _ => none

namespace FenceChain

variable {κ : Type u}

/-- The fence `i` has resolved. -/
def resolved (c : FenceChain κ) (i : ℕ) : Bool :=
  c.fences[i]?.any (·.resolved)

/-- The fence `i` waits for no other, or for one that has resolved. -/
def clear (c : FenceChain κ) (i : ℕ) : Bool :=
  c.fences[i]?.any fun f => f.previous.all c.resolved

def key (c : FenceChain κ) (i : ℕ) : Option κ :=
  c.fences[i]?.map (·.key)

variable {c : FenceChain κ} {i j : ℕ} {k : κ}

theorem lt_of_key (h : c.key i = some k) : i < c.fences.length := by
  obtain ⟨f, hf, -⟩ := map_eq_some_iff.mp h
  exact (List.getElem?_eq_some_iff.mp hf).1

/-- The tail is the latest fence of its key, and each fence waits for the latest before it. -/
structure Chained (c : FenceChain κ) : Prop where
  tail_last : ∀ k n, c.tails k = some n → c.key n = some k ∧ ∀ i, c.key i = some k → i ≤ n
  tail_none : ∀ k, c.tails k = none → ∀ i, c.key i = some k → c.resolved i = true
  previous_last : ∀ j f p, c.fences[j]? = some f → f.previous = some p →
    p < j ∧ c.key p = some f.key ∧ ∀ i < j, c.key i = some f.key → i ≤ p
  previous_none : ∀ j f, c.fences[j]? = some f → f.previous = none →
    ∀ i < j, c.key i = some f.key → c.resolved i = true
  resolved_earlier : ∀ i j k, i < j → c.key i = some k → c.key j = some k →
    c.resolved j = true → c.resolved i = true

theorem Chained.empty : (({} : FenceChain κ)).Chained where
  tail_last _ _ h := nomatch h
  tail_none _ _ _ h := nomatch h
  previous_last _ _ _ h := nomatch h
  previous_none _ _ h := nomatch h
  resolved_earlier _ _ _ _ h := nomatch h

theorem Chained.earlier_resolved (h : c.Chained) (hclear : c.clear j = true)
    (hij : i < j) (hi : c.key i = some k) (hj : c.key j = some k) : c.resolved i = true := by
  obtain ⟨f, hf, hkey⟩ := map_eq_some_iff.mp hj
  rw [← hkey] at hi
  unfold clear at hclear
  rw [hf, any_some] at hclear
  cases hprev : f.previous with
  | none => exact h.previous_none j f hf hprev i hij hi
  | some p =>
    obtain ⟨-, hkeyp, hlast⟩ := h.previous_last j f p hf hprev
    rw [hprev, all_some] at hclear
    rcases Nat.lt_or_eq_of_le (hlast i hij hi) with hlt | heq
    · exact h.resolved_earlier i p f.key hlt hi hkeyp hclear
    · rw [heq]
      exact hclear

theorem Chained.clear_of_earlier (h : c.Chained) (hj : j < c.fences.length)
    (hall : ∀ i < j, c.resolved i = true) : c.clear j = true := by
  unfold clear
  rw [List.getElem?_eq_getElem hj, any_some]
  cases hprev : c.fences[j].previous with
  | none => rfl
  | some p => exact hall p (h.previous_last j _ p (List.getElem?_eq_getElem hj) hprev).1

section Operations

variable [DecidableEq κ]

def join (c : FenceChain κ) (k : κ) : FenceChain κ where
  fences := c.fences ++ [{ key := k, previous := c.tails k }]
  tails := Function.update c.tails k (some c.fences.length)

def resolve (c : FenceChain κ) (i : ℕ) : FenceChain κ :=
  match c.fences[i]? with
  | some f =>
    { fences := c.fences.set i { f with resolved := true }
      tails := if c.tails f.key = some i then Function.update c.tails f.key none else c.tails }
  | none => c

@[simp] theorem length_join (c : FenceChain κ) (k : κ) : (c.join k).fences.length = c.fences.length + 1 := by
  simp [join]

theorem key_join (c : FenceChain κ) (k : κ) (i : ℕ) :
    (c.join k).key i = if i = c.fences.length then some k else c.key i := by
  unfold key join
  rw [List.getElem?_append]
  split_ifs with hlt heq heq
  · omega
  · rfl
  · rw [heq, Nat.sub_self]
    rfl
  · rw [List.getElem?_eq_none (by simp only [List.length_singleton]; omega),
      List.getElem?_eq_none (by omega : c.fences.length ≤ i)]

theorem resolved_join (c : FenceChain κ) (k : κ) (i : ℕ) : (c.join k).resolved i = c.resolved i := by
  unfold resolved join
  rw [List.getElem?_append]
  split_ifs with hlt
  · rfl
  · rw [List.getElem?_eq_none (by omega : c.fences.length ≤ i)]
    cases hlast : [({ key := k, previous := c.tails k } : Fence κ)][i - c.fences.length]? with
    | none => rfl
    | some f =>
      have hf := List.mem_of_getElem? hlast
      rw [List.mem_singleton] at hf
      rw [hf]
      rfl

theorem getElem?_resolve (c : FenceChain κ) (i j : ℕ) : (c.resolve i).fences[j]? =
      c.fences[j]?.map fun f => { f with resolved := f.resolved || decide (i = j) } := by
  unfold resolve
  cases hf : c.fences[i]? with
  | none =>
    have hlen := List.getElem?_eq_none_iff.mp hf
    cases hg : c.fences[j]? with
    | none => rfl
    | some g =>
      have hlt := (List.getElem?_eq_some_iff.mp hg).1
      have hne : i ≠ j := by omega
      simp [hne]
  | some f =>
    rw [List.getElem?_set]
    by_cases hij : i = j
    · subst hij
      rw [if_pos rfl, if_pos (List.getElem?_eq_some_iff.mp hf).1, hf]
      simp
    · simp [hij]

theorem key_resolve (c : FenceChain κ) (i j : ℕ) : (c.resolve i).key j = c.key j := by
  unfold key
  rw [getElem?_resolve, map_map]
  rfl

theorem resolved_resolve (c : FenceChain κ) (i j : ℕ) :
    (c.resolve i).resolved j = (c.resolved j || decide (i = j ∧ i < c.fences.length)) := by
  unfold resolved
  rw [getElem?_resolve, any_map]
  cases hg : c.fences[j]? with
  | none =>
    have hlen := List.getElem?_eq_none_iff.mp hg
    have hno : ¬(i = j ∧ i < c.fences.length) := by omega
    simp [hno]
  | some g =>
    have hlt := (List.getElem?_eq_some_iff.mp hg).1
    have hiff : (i = j ∧ i < c.fences.length) ↔ i = j := ⟨And.left, fun h => ⟨h, by omega⟩⟩
    simp [hiff]

variable {c : FenceChain κ} {i : ℕ}

theorem resolved_mono (h : c.resolved j = true) : (c.resolve i).resolved j = true := by
  rw [resolved_resolve, h, Bool.true_or]

theorem clear_join (k : κ) (h : c.clear i = true) : (c.join k).clear i = true := by
  unfold clear at h ⊢
  cases hf : c.fences[i]? with
  | none =>
    rw [hf] at h
    cases h
  | some f =>
    rw [hf, any_some] at h
    have hlt := (List.getElem?_eq_some_iff.mp hf).1
    rw [join, List.getElem?_append_left hlt, hf, any_some, ← join, funext (resolved_join c k)]
    exact h

theorem clear_resolve (j : ℕ) (h : c.clear i = true) : (c.resolve j).clear i = true := by
  unfold clear at h ⊢
  rw [getElem?_resolve, any_map]
  cases hf : c.fences[i]? with
  | none =>
    rw [hf] at h
    cases h
  | some f =>
    rw [hf, any_some] at h
    dsimp only [any_some, comp_apply]
    cases hp : f.previous with
    | none => rfl
    | some p =>
      rw [hp, all_some] at h
      exact resolved_mono h

variable {k : κ}

theorem getElem?_join {f : Fence κ} (h : (c.join k).fences[j]? = some f) :
    (c.fences[j]? = some f ∧ j < c.fences.length) ∨
      (j = c.fences.length ∧ f = { key := k, previous := c.tails k }) := by
  unfold join at h
  rw [List.getElem?_append] at h
  split_ifs at h with hlt
  · exact .inl ⟨h, hlt⟩
  · obtain ⟨hidx, hf⟩ := List.getElem?_eq_some_iff.mp h
    rw [List.length_singleton] at hidx
    refine .inr ⟨by omega, ?_⟩
    rw [← hf, List.getElem_singleton]

theorem tails_resolve_some {n : ℕ} (h : (c.resolve i).tails k = some n) : c.tails k = some n := by
  unfold resolve at h
  split at h
  · dsimp only at h
    split_ifs at h with htail
    · rw [update_apply] at h
      split_ifs at h
      exact h
    · exact h
  · exact h

theorem tails_resolve_none (h : (c.resolve i).tails k = none) :
    c.tails k = none ∨ c.key i = some k ∧ c.tails k = some i := by
  unfold resolve at h
  split at h
  · next f hf =>
    dsimp only at h
    split_ifs at h with htail
    · rw [update_apply] at h
      split_ifs at h with hk
      · subst hk
        exact .inr ⟨by rw [key, hf]; rfl, htail⟩
      · exact .inl h
    · exact .inl h
  · exact .inl h

theorem Chained.join (h : c.Chained) (k : κ) : (c.join k).Chained where
  tail_last k' n hn := by
    simp only [FenceChain.join, update_apply] at hn
    split_ifs at hn with hk
    · cases hn
      subst hk
      refine ⟨by rw [key_join, if_pos rfl], fun i hi => ?_⟩
      have hlt := lt_of_key hi
      rw [length_join] at hlt
      omega
    · obtain ⟨hkey, hlast⟩ := h.tail_last k' n hn
      have hlt := lt_of_key hkey
      refine ⟨by rw [key_join, if_neg (by omega), hkey], fun i hi => ?_⟩
      rw [key_join] at hi
      split_ifs at hi with heq
      · exact absurd (some.inj hi).symm hk
      · exact hlast i hi
  tail_none k' hn i hi := by
    simp only [FenceChain.join, update_apply] at hn
    split_ifs at hn with hk
    rw [key_join] at hi
    split_ifs at hi with heq
    · exact absurd (some.inj hi).symm hk
    · rw [resolved_join]
      exact h.tail_none k' hn i hi
  previous_last j f p hf hp := by
    obtain ⟨hold, hlt⟩ | ⟨heq, rfl⟩ := getElem?_join hf
    · obtain ⟨hpj, hkey, hlast⟩ := h.previous_last j f p hold hp
      refine ⟨hpj, by rw [key_join, if_neg (by omega), hkey], fun i hi hki => ?_⟩
      rw [key_join, if_neg (by omega)] at hki
      exact hlast i hi hki
    · obtain ⟨hkey, hlast⟩ := h.tail_last k p hp
      have hlt := lt_of_key hkey
      refine ⟨by omega, by rw [key_join, if_neg (by omega), hkey], fun i hi hki => ?_⟩
      rw [key_join, if_neg (by omega)] at hki
      exact hlast i hki
  previous_none j f hf hp i hi hki := by
    rw [resolved_join]
    obtain ⟨hold, hlt⟩ | ⟨heq, rfl⟩ := getElem?_join hf
    · rw [key_join, if_neg (by omega)] at hki
      exact h.previous_none j f hold hp i hi hki
    · rw [key_join, if_neg (by omega)] at hki
      exact h.tail_none k hp i hki
  resolved_earlier i j k' hij hi hj hr := by
    have hlt := lt_of_key hj
    rw [length_join] at hlt
    rw [resolved_join] at hr ⊢
    rw [key_join, if_neg (by omega)] at hi
    rw [key_join] at hj
    split_ifs at hj with heq
    · rw [resolved, List.getElem?_eq_none (by omega : c.fences.length ≤ j)] at hr
      cases hr
    · exact h.resolved_earlier i j k' hij hi hj hr

theorem Chained.resolve (h : c.Chained) (hclear : c.clear i = true) : (c.resolve i).Chained where
  tail_last k n hn := by
    simp only [key_resolve]
    exact h.tail_last k n (tails_resolve_some hn)
  tail_none k hn j hj := by
    rw [key_resolve] at hj
    obtain hold | ⟨hkey, htail⟩ := tails_resolve_none hn
    · exact resolved_mono (h.tail_none k hold j hj)
    · -- the deleted tail was the last fence of its key, and all before it have resolved
      rcases Nat.lt_or_eq_of_le ((h.tail_last k i htail).2 j hj) with hlt | heq
      · exact resolved_mono (h.earlier_resolved hclear hlt hj hkey)
      · rw [resolved_resolve, heq, decide_eq_true ⟨rfl, lt_of_key hkey⟩, Bool.or_true]
  previous_last j f p hf hp := by
    rw [getElem?_resolve] at hf
    obtain ⟨g, hg, rfl⟩ := map_eq_some_iff.mp hf
    simp only [key_resolve]
    exact h.previous_last j g p hg hp
  previous_none j f hf hp l hl hkl := by
    rw [getElem?_resolve] at hf
    obtain ⟨g, hg, rfl⟩ := map_eq_some_iff.mp hf
    rw [key_resolve] at hkl
    exact resolved_mono (h.previous_none j g hg hp l hl hkl)
  resolved_earlier l j k hlj hl hj hr := by
    rw [key_resolve] at hl hj
    rw [resolved_resolve, Bool.or_eq_true] at hr
    rcases hr with hr | hr
    · exact resolved_mono (h.resolved_earlier l j k hlj hl hj hr)
    · have hij := (of_decide_eq_true hr).1
      subst hij
      exact resolved_mono (h.earlier_resolved hclear hlj hl hj)

end Operations

end FenceChain

end AutoHarness.Foundation

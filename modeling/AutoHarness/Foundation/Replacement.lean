import Mathlib.Data.List.Infix

/-! Replacing every occurrence of a word, from the left and without overlaps, in a text that arrives in pieces. -/

namespace AutoHarness.Foundation
open List

universe u

variable {α : Type u}

/-- `out` is `text` with the first occurrence of `w` replaced by `m`, then the first one behind it, and so on. -/
inductive Replaced (w m : List α) : List α → List α → Prop
  | rest {text : List α} (h : ¬ w <:+: text) : Replaced w m text text
  | next {before after out : List α}
      (hfirst : ∀ i < before.length, ¬ w <+: (before ++ w ++ after).drop i)
      (h : Replaced w m after out) : Replaced w m (before ++ w ++ after) (before ++ m ++ out)

variable [DecidableEq α]

/-- The position of the first occurrence of `w`. -/
def indexOf (w : List α) : List α → Option ℕ
  | [] => if w.isPrefixOf [] then some 0 else none
  | c :: text => if w.isPrefixOf (c :: text) then some 0 else (indexOf w text).map (· + 1)

/-- The settled part with its occurrences replaced, and what follows the last of them. -/
def replaceRounds (w m : List α) : ℕ → List α → List α × List α
  | 0, text => ([], text)
  | n + 1, text =>
    match indexOf w text with
    | none => ([], text)
    | some i =>
      let s := replaceRounds w m n (text.drop (i + w.length))
      (text.take i ++ m ++ s.1, s.2)

/-- No more occurrences than the text is long: `w` is not empty wherever this is used. -/
def replaceScan (w m text : List α) : List α × List α :=
  replaceRounds w m text.length text

def replaceAll (w m text : List α) : List α :=
  (replaceScan w m text).1 ++ (replaceScan w m text).2

/-- The length of the longest prefix of `w`, of at most the given length, that ends the text. -/
def longestBorder (w text : List α) : ℕ → ℕ
  | 0 => 0
  | n + 1 => if (w.take (n + 1)).isSuffixOf text then n + 1 else longestBorder w text n

/-! ## The first occurrence -/

variable {w text r : List α} {i : ℕ}

theorem indexOf_spec (h : indexOf w text = some i) : w <+: text.drop i ∧ ∀ j < i, ¬ w <+: text.drop j := by
  induction text generalizing i with
  | nil =>
    rw [indexOf] at h
    split at h
    · next hp =>
      cases h
      exact ⟨List.isPrefixOf_iff_prefix.mp hp, fun j hj => absurd hj (Nat.not_lt_zero j)⟩
    · cases h
  | cons c text ih =>
    rw [indexOf] at h
    split at h
    · next hp =>
      cases h
      exact ⟨List.isPrefixOf_iff_prefix.mp hp, fun j hj => absurd hj (Nat.not_lt_zero j)⟩
    · next hp =>
      obtain ⟨k, hk, rfl⟩ := Option.map_eq_some_iff.mp h
      refine ⟨(ih hk).1, fun j hj => ?_⟩
      cases j with
      | zero => exact fun hpre => hp (List.isPrefixOf_iff_prefix.mpr hpre)
      | succ j => exact (ih hk).2 j (by omega)

theorem indexOf_eq_none (h : indexOf w text = none) : ¬ w <:+: text := by
  induction text with
  | nil =>
    rw [indexOf] at h
    split at h
    · cases h
    · next hp =>
      intro hin
      rw [infix_nil] at hin
      exact hp (List.isPrefixOf_iff_prefix.mpr (by rw [hin]))
  | cons c text ih =>
    rw [indexOf] at h
    split at h
    · cases h
    · next hp =>
      rw [infix_cons_iff]
      rintro (hpre | hin)
      · exact hp (List.isPrefixOf_iff_prefix.mpr hpre)
      · exact ih (Option.map_eq_none_iff.mp h) hin

theorem indexOf_none_of_absent (h : ¬ w <:+: text) : indexOf w text = none := by
  cases hi : indexOf w text with
  | none => rfl
  | some i => exact absurd ((indexOf_spec hi).1.isInfix.trans (drop_suffix i text).isInfix) h

theorem indexOf_append (t : List α) (h : indexOf w text = some i) : indexOf w (text ++ t) = some i := by
  induction text generalizing i with
  | nil =>
    have hw : w = [] := by simpa using (indexOf_spec h).1
    subst hw
    cases h
    cases t <;> rfl
  | cons c text ih =>
    rw [indexOf] at h
    rw [cons_append, indexOf]
    split at h
    · next hp =>
      cases h
      have hp' : w <+: c :: (text ++ t) :=
        (List.isPrefixOf_iff_prefix.mp hp).trans (prefix_append (c :: text) t)
      rw [if_pos (List.isPrefixOf_iff_prefix.mpr hp')]
    · next hp =>
      obtain ⟨k, hk, rfl⟩ := Option.map_eq_some_iff.mp h
      -- an occurrence further on fits into the text, so one at the front would fit too
      have hlen : w.length ≤ (c :: text).length := by
        have hle := (indexOf_spec hk).1.length_le
        rw [length_drop] at hle
        rw [length_cons]
        omega
      have hp' : ¬ w <+: c :: (text ++ t) := fun hpre =>
        hp (List.isPrefixOf_iff_prefix.mpr
          (prefix_of_prefix_length_le hpre (prefix_append (c :: text) t) hlen))
      rw [if_neg (fun hpre => hp' (List.isPrefixOf_iff_prefix.mp hpre)), ih hk]
      rfl

section Replace

variable {w m : List α}

/-! ## Replacing in a whole text -/

variable {text : List α} {i : ℕ}

theorem lt_length_of_indexOf (hw : w ≠ []) (h : indexOf w text = some i) :
    i + w.length ≤ text.length ∧ (text.drop (i + w.length)).length < text.length := by
  have hle := (indexOf_spec h).1.length_le
  have hpos : 0 < w.length := length_pos_iff.mpr hw
  rw [length_drop] at hle
  rw [length_drop]
  omega

theorem replaceRounds_of_none (h : indexOf w text = none) (n : ℕ) : replaceRounds w m n text = ([], text) := by
  cases n with
  | zero => rfl
  | succ n => rw [replaceRounds, h]

theorem replaceRounds_congr (hw : w ≠ []) {n k : ℕ} (hn : text.length ≤ n)
    (hk : text.length ≤ k) : replaceRounds w m n text = replaceRounds w m k text := by
  induction n generalizing k text with
  | zero =>
    have hnone : indexOf w text = none := by
      cases hi : indexOf w text with
      | none => rfl
      | some i =>
        have hlt := (lt_length_of_indexOf hw hi).2
        omega
    rw [replaceRounds_of_none hnone, replaceRounds_of_none hnone]
  | succ n ih =>
    cases hi : indexOf w text with
    | none => rw [replaceRounds_of_none hi, replaceRounds_of_none hi]
    | some i =>
      have hlt := (lt_length_of_indexOf hw hi).2
      obtain ⟨k, rfl⟩ : ∃ j, k = j + 1 := ⟨k - 1, by omega⟩
      have e : replaceRounds w m n (text.drop (i + w.length)) = replaceRounds w m k (text.drop (i + w.length)) :=
        ih (by omega) (by omega)
      rw [replaceRounds, replaceRounds, hi]
      dsimp only
      rw [e]

theorem replaceScan_of_none (h : indexOf w text = none) : replaceScan w m text = ([], text) :=
  replaceRounds_of_none h _

theorem replaceScan_of_some (hw : w ≠ []) (h : indexOf w text = some i) : replaceScan w m text =
      (text.take i ++ m ++ (replaceScan w m (text.drop (i + w.length))).1,
        (replaceScan w m (text.drop (i + w.length))).2) := by
  have hlt := (lt_length_of_indexOf hw h).2
  obtain ⟨k, hk⟩ : ∃ k, text.length = k + 1 := ⟨text.length - 1, by omega⟩
  have e : replaceRounds w m k (text.drop (i + w.length)) = replaceScan w m (text.drop (i + w.length)) :=
    replaceRounds_congr hw (by omega) (Nat.le_refl _)
  rw [replaceScan, hk, replaceRounds, h]
  dsimp only
  rw [e]

theorem replaceAll_of_none (h : indexOf w text = none) : replaceAll w m text = text := by
  rw [replaceAll, replaceScan_of_none h, nil_append]

variable (hw : w ≠ [])
include hw

theorem replaceAll_of_some (h : indexOf w text = some i) :
    replaceAll w m text = text.take i ++ m ++ replaceAll w m (text.drop (i + w.length)) := by
  rw [replaceAll, replaceScan_of_some hw h, replaceAll, ← append_assoc]

theorem not_infix_replaceScan (text : List α) : ¬ w <:+: (replaceScan w m text).2 := by
  induction hn : text.length using Nat.strong_induction_on generalizing text with
  | _ n ih =>
    cases h : indexOf w text with
    | none =>
      rw [replaceScan_of_none h]
      exact indexOf_eq_none h
    | some i =>
      rw [replaceScan_of_some hw h]
      exact ih _ (hn ▸ (lt_length_of_indexOf hw h).2) _ rfl

theorem replaceAll_append (text t : List α) : replaceAll w m (text ++ t) =
      (replaceScan w m text).1 ++ replaceAll w m ((replaceScan w m text).2 ++ t) := by
  induction hn : text.length using Nat.strong_induction_on generalizing text with
  | _ n ih =>
    cases h : indexOf w text with
    | none => rw [replaceScan_of_none h, nil_append]
    | some i =>
      obtain ⟨hle, hlt⟩ := lt_length_of_indexOf hw h
      have htake : (text ++ t).take i = text.take i := take_append_of_le_length (by omega)
      have hdrop : (text ++ t).drop (i + w.length) = text.drop (i + w.length) ++ t :=
        drop_append_of_le_length hle
      rw [replaceAll_of_some hw (indexOf_append t h), htake, hdrop, ih _ (hn ▸ hlt) _ rfl, replaceScan_of_some hw h]
      simp only [append_assoc]

theorem replaceAll_cons {c : α} (h : ¬ w <+: c :: text) : replaceAll w m (c :: text) = c :: replaceAll w m text := by
  have hc : indexOf w (c :: text) = (indexOf w text).map (· + 1) := by
    rw [indexOf, if_neg (fun hp => h (List.isPrefixOf_iff_prefix.mp hp))]
  cases hi : indexOf w text with
  | none => rw [replaceAll_of_none hi, replaceAll_of_none (by rw [hc, hi]; rfl)]
  | some i =>
    have hs : indexOf w (c :: text) = some (i + 1) := by rw [hc, hi]; rfl
    have e : i + 1 + w.length = i + w.length + 1 := by omega
    rw [replaceAll_of_some hw hi, replaceAll_of_some hw hs, e, drop_succ_cons, take_succ_cons]
    rfl

theorem replaceAll_skip {a b : List α} (h : ∀ i < a.length, ¬ w <+: (a ++ b).drop i) :
    replaceAll w m (a ++ b) = a ++ replaceAll w m b := by
  induction a with
  | nil => rfl
  | cons c a ih =>
    have hc : ¬ w <+: c :: (a ++ b) := h 0 (Nat.succ_pos _)
    rw [cons_append, replaceAll_cons hw hc, ih fun i hi => h (i + 1) (Nat.succ_lt_succ hi), cons_append]

theorem replaceAll_word (text : List α) : replaceAll w m (w ++ text) = m ++ replaceAll w m text := by
  have hzero : indexOf w (w ++ text) = some 0 := by
    have hp : w.isPrefixOf (w ++ text) = true := List.isPrefixOf_iff_prefix.mpr (prefix_append w text)
    cases hwt : w ++ text with
    | nil => exact absurd (append_eq_nil_iff.mp hwt).1 hw
    | cons c rest => rw [indexOf, if_pos (hwt ▸ hp)]
  rw [replaceAll_of_some hw hzero, Nat.zero_add, drop_left, take_zero, nil_append]

/-- **The replaced text.** The left-to-right replacement exists and is the only one. -/
theorem replaced_iff {out : List α} : Replaced w m text out ↔ out = replaceAll w m text := by
  constructor
  · intro h
    induction h with
    | rest h => rw [replaceAll_of_none (indexOf_none_of_absent h)]
    | next hfirst _ ih => rw [append_assoc _ w, replaceAll_skip hw (by simpa using hfirst), replaceAll_word hw, ih,
        append_assoc]
  · rintro rfl
    induction hn : text.length using Nat.strong_induction_on generalizing text with
    | _ n ih =>
      cases h : indexOf w text with
      | none =>
        rw [replaceAll_of_none h]
        exact .rest (indexOf_eq_none h)
      | some i =>
        obtain ⟨hp, hfirst⟩ := indexOf_spec h
        obtain ⟨hle, hlt⟩ := lt_length_of_indexOf hw h
        have hsplit : text.take i ++ w ++ text.drop (i + w.length) = text := by
          have hd : w ++ (text.drop i).drop w.length = text.drop i := prefix_iff_eq_append.mp hp
          rw [drop_drop] at hd
          rw [append_assoc, hd, take_append_drop]
        have hnext := ih _ (hn ▸ hlt) rfl
        rw [replaceAll_of_some hw h]
        nth_rewrite 1 [← hsplit]
        refine .next (fun j hj => ?_) hnext
        rw [hsplit]
        rw [length_take] at hj
        exact hfirst j (by omega)

end Replace

/-! ## Replacing in pieces -/

theorem longestBorder_max {n k : ℕ} (hk : k ≤ n) (h : w.take k <:+ text) : k ≤ longestBorder w text n := by
  induction n with
  | zero => exact hk
  | succ n ih =>
    rw [longestBorder]
    split
    · exact hk
    · next hn =>
      have hne : k ≠ n + 1 := by
        rintro rfl
        exact hn (isSuffixOf_iff_suffix.mpr h)
      exact ih (by omega)

/-- A text without an occurrence may be given out up to its longest border: no occurrence that more text
completes starts before it. -/
theorem replaceAll_hold {m : List α} (hw : w ≠ []) (h : ¬ w <:+: r) (t : List α) :
    let k := longestBorder w r (min (w.length - 1) r.length)
    replaceAll w m (r ++ t) =
      r.take (r.length - k) ++ replaceAll w m (r.drop (r.length - k) ++ t) := by
  intro k
  have hskip : ∀ i < (r.take (r.length - k)).length,
      ¬ w <+: (r.take (r.length - k) ++ (r.drop (r.length - k) ++ t)).drop i := by
    intro i hi hpre
    rw [length_take] at hi
    rw [← append_assoc, take_append_drop, drop_append_of_le_length (by omega)] at hpre
    by_cases hfit : w.length ≤ (r.drop i).length
    · -- the occurrence lies in the text already here
      have hin : w <+: r.drop i := prefix_of_prefix_length_le hpre (prefix_append _ t) hfit
      exact h (hin.isInfix.trans (drop_suffix i r).isInfix)
    · -- what is here of the occurrence is a longer border
      have hin : r.drop i <+: w :=
        prefix_of_prefix_length_le (prefix_append _ t) hpre (by omega)
      have hsuf : w.take (r.drop i).length <:+ r := by
        rw [← prefix_iff_eq_take.mp hin]
        exact drop_suffix i r
      have hmax := longestBorder_max (n := min (w.length - 1) r.length)
        (by rw [length_drop] at *; omega) hsuf
      rw [length_drop] at hmax
      omega
  rw [← replaceAll_skip hw hskip, ← append_assoc, take_append_drop]

end AutoHarness.Foundation

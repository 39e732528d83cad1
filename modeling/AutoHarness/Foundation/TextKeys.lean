import Mathlib.Data.String.Basic
import Mathlib.Tactic.Ring

/-! The order of texts with a common beginning, and of texts whose beginnings have one width. -/

namespace AutoHarness.Foundation
open List
open Nat (succ toDigits ofDigitChars)
open String (lt_iff_toList_lt toList_append)

variable {x a b : String}

theorem append_lt_append_iff : x ++ a < x ++ b ↔ a < b := by
  rw [lt_iff_toList_lt, lt_iff_toList_lt, toList_append, toList_append]
  generalize x.toList = l
  induction l with
  | nil => rfl
  | cons c l ih =>
    rw [cons_append, cons_append, cons_lt_cons_iff, ih]
    constructor
    · rintro (h | ⟨-, h⟩)
      · exact absurd h (lt_irrefl c)
      · exact h
    · exact fun h => .inr ⟨rfl, h⟩

theorem append_le_append_iff : x ++ a ≤ x ++ b ↔ a ≤ b := by
  rw [← not_lt, ← not_lt, append_lt_append_iff]

theorem le_append : x ≤ x ++ a := by
  have h : x ++ "" ≤ x ++ a := by
    rw [append_le_append_iff, ← not_lt, lt_iff_toList_lt]
    exact not_lt_nil _
  rwa [String.append_empty] at h

variable {y c : String}

section

variable (hlen : x.length = y.length)
include hlen

theorem append_lt_append (h : x < y) : x ++ a < y ++ b := by
  rw [lt_iff_toList_lt] at h ⊢
  rw [toList_append, toList_append]
  rw [← String.length_toList, ← String.length_toList] at hlen
  generalize x.toList = l at h hlen ⊢
  generalize y.toList = m at h hlen ⊢
  induction l generalizing m with
  | nil =>
    cases m with
    | nil => exact absurd h (not_lt_nil _)
    | cons d m => cases hlen
  | cons c l ih =>
    cases m with
    | nil => cases hlen
    | cons d m =>
      rw [cons_lt_cons_iff] at h
      rw [cons_append, cons_append, cons_lt_cons_iff]
      obtain hlt | ⟨heq, hlt⟩ := h
      · exact .inl hlt
      · exact .inr ⟨heq, ih m hlt (succ.inj hlen)⟩

theorem le_of_append_le_append (h : x ++ a ≤ y ++ b) : x ≤ y := by
  exact fun hlt => h (append_lt_append hlen.symm hlt)

theorem eq_of_between (hlow : x ++ a ≤ y ++ b) (hhigh : y ++ b ≤ x ++ c) : y = x :=
  le_antisymm (le_of_append_le_append hlen.symm hhigh) (le_of_append_le_append hlen hlow)

end

variable {l m : List Char} {c d : Char}

theorem lt_of_head_lt {s t : String} (hs : s.toList = c :: l) (ht : t.toList = d :: m) (h : c < d) : s < t := by
  rw [lt_iff_toList_lt, hs, ht, cons_lt_cons_iff]
  exact .inl h

theorem compare_append (hlen : x.length = y.length) : compare (x ++ a) (y ++ b) = (compare x y).then (compare a b) := by
  rcases lt_trichotomy x y with h | h | h
  · rw [compare_lt_iff_lt.mpr h, compare_lt_iff_lt.mpr (append_lt_append hlen h)]
    rfl
  · subst h
    rw [compare_eq_iff_eq.mpr rfl, Ordering.eq_then]
    rcases lt_trichotomy a b with h | h | h
    · rw [compare_lt_iff_lt.mpr h, compare_lt_iff_lt.mpr (append_lt_append_iff.mpr h)]
    · rw [h, compare_eq_iff_eq.mpr rfl, compare_eq_iff_eq.mpr rfl]
    · rw [compare_gt_iff_gt.mpr h, compare_gt_iff_gt.mpr (append_lt_append_iff.mpr h)]
  · rw [compare_gt_iff_gt.mpr h, compare_gt_iff_gt.mpr (append_lt_append hlen.symm h)]
    rfl

/-! ## Decimal numbers, filled up with zeros -/

theorem toString_head_lt (n : ℕ) (hd : '9' < d) : ∃ c l, (toString n).toList = c :: l ∧ c < d := by
  have hdigits : (toString n).toList = toDigits 10 n := by
    simp [Nat.repr]
  cases hl : toDigits 10 n with
  | nil => exact absurd hl Nat.toDigits_ne_nil
  | cons c l =>
    have hdigit : c.isDigit = true :=
      Nat.isDigit_of_mem_toDigits (by decide) (by decide) (hl ▸ mem_cons_self)
    refine ⟨c, l, by rw [hdigits, hl], lt_of_le_of_lt ?_ hd⟩
    rw [Char.isDigit, Bool.and_eq_true, decide_eq_true_iff, decide_eq_true_iff] at hdigit
    exact hdigit.2

theorem ofDigitChars_eq_add (l : List Char) (init : ℕ) :
    ofDigitChars 10 l init = init * 10 ^ l.length + ofDigitChars 10 l 0 := by
  unfold ofDigitChars
  induction l generalizing init with
  | nil => simp
  | cons c l ih =>
    rw [foldl_cons, foldl_cons, ih, ih (10 * 0 + _), length_cons, Nat.pow_succ]
    ring

theorem ofDigitChars_cons (c : Char) (l : List Char) :
    ofDigitChars 10 (c :: l) 0 = (c.toNat - '0'.toNat) * 10 ^ l.length + ofDigitChars 10 l 0 := by
  rw [← ofDigitChars_eq_add, ofDigitChars, foldl_cons, ofDigitChars]
  simp

theorem ofDigitChars_lt (hl : ∀ c ∈ l, c.isDigit = true) : ofDigitChars 10 l 0 < 10 ^ l.length := by
  induction l with
  | nil => exact Nat.one_pos
  | cons c l ih =>
    have hrest := ih fun d hd => hl d (mem_cons_of_mem c hd)
    have hc : c.toNat - '0'.toNat ≤ 9 := by
      have h := hl c mem_cons_self
      rw [Char.isDigit, Bool.and_eq_true, decide_eq_true_iff, decide_eq_true_iff] at h
      have h9 : c.toNat ≤ '9'.toNat := h.2
      have e : '9'.toNat = '0'.toNat + 9 := rfl
      omega
    have hmul := Nat.mul_le_mul_right (10 ^ l.length) hc
    rw [ofDigitChars_cons, length_cons, Nat.pow_succ]
    omega

theorem digits_lt_of_value_lt (hlen : l.length = m.length) (hl : ∀ c ∈ l, c.isDigit = true)
    (hm : ∀ c ∈ m, c.isDigit = true) (h : ofDigitChars 10 l 0 < ofDigitChars 10 m 0) : l < m := by
  induction l generalizing m with
  | nil =>
    cases m with
    | nil => exact absurd h (Nat.lt_irrefl _)
    | cons d m => cases hlen
  | cons c l ih =>
    cases m with
    | nil => cases hlen
    | cons d m =>
      have hlen' : l.length = m.length := succ.inj hlen
      have hvl := ofDigitChars_lt fun x hx => hl x (mem_cons_of_mem c hx)
      have hvm := ofDigitChars_lt fun x hx => hm x (mem_cons_of_mem d hx)
      rw [ofDigitChars_cons, ofDigitChars_cons, hlen'] at h
      rw [cons_lt_cons_iff]
      rcases lt_trichotomy c d with hcd | hcd | hcd
      · exact .inl hcd
      · subst hcd
        exact .inr ⟨rfl, ih hlen' (fun x hx => hl x (mem_cons_of_mem c hx))
          (fun x hx => hm x (mem_cons_of_mem c hx)) (by omega)⟩
      · -- a greater first digit outweighs the rest
        have hd := hm d mem_cons_self
        rw [Char.isDigit, Bool.and_eq_true, decide_eq_true_iff, decide_eq_true_iff] at hd
        have hd0 : '0'.toNat ≤ d.toNat := hd.1
        have hcd' : d.toNat < c.toNat := hcd
        have hle : d.toNat - '0'.toNat + 1 ≤ c.toNat - '0'.toNat := by omega
        have hmul := Nat.mul_le_mul_right (10 ^ m.length) hle
        rw [Nat.add_mul, Nat.one_mul] at hmul
        omega

theorem value_leftpad (n width : ℕ) : ofDigitChars 10 ((toDigits 10 n).leftpad width '0') 0 = n := by
  have hzeros : ∀ k, ofDigitChars 10 (replicate k '0') 0 = 0 := by
    intro k
    induction k with
    | zero => rfl
    | succ k ih => rwa [replicate_succ, ofDigitChars, foldl_cons]
  have happend : ∀ l m : List Char, ofDigitChars 10 (l ++ m) 0 = ofDigitChars 10 m (ofDigitChars 10 l 0) :=
    fun _ _ => foldl_append
  rw [leftpad, happend, hzeros]
  exact Nat.ofDigitChars_toDigits (by decide) (by decide)

variable {n width : ℕ}

theorem isDigit_leftpad (hc : c ∈ (toDigits 10 n).leftpad width '0') : c.isDigit = true := by
  rcases mem_append.mp hc with hc | hc
  · rw [eq_of_mem_replicate hc]
    rfl
  · exact Nat.isDigit_of_mem_toDigits (by decide) (by decide) hc

theorem length_leftpad_toDigits (hwidth : 0 < width) (h : n < 10 ^ width) :
    ((toDigits 10 n).leftpad width '0').length = width := by
  have hlen := (Nat.length_toDigits_le_iff (b := 10) (by decide) hwidth).mpr h
  rw [length_leftpad]
  omega

/-- Numbers of at most `width` digits, filled up to that width, are ordered as the numbers. -/
theorem leftpad_lt_leftpad {m : ℕ} (hwidth : 0 < width) (h : n < m) (hm : m < 10 ^ width) :
    (toDigits 10 n).leftpad width '0' < (toDigits 10 m).leftpad width '0' := by
  refine digits_lt_of_value_lt ?_ (fun _ => isDigit_leftpad) (fun _ => isDigit_leftpad) ?_
  · rw [length_leftpad_toDigits hwidth hm, length_leftpad_toDigits hwidth (h.trans hm)]
  · rwa [value_leftpad, value_leftpad]

end AutoHarness.Foundation

import Mathlib.Data.List.Basic
import AutoHarness.Store.Rows

/-! The concurrency-locks table holds caller ids, provider-account slots and catalog deletion markers in disjoint
namespaces. -/

namespace AutoHarness.Store
open Foundation List

/-- `value.startsWith(p)`. -/
def hasPrefix (p value : String) : Bool := p.toList.isPrefixOf value.toList

def PROVIDER_ACCOUNT_LEASE_PREFIX : String := "provider-lease:"

def providerAccountLeaseConcurrencyId (providerAccountId : String) (slot : ℕ) : String :=
  PROVIDER_ACCOUNT_LEASE_PREFIX ++ providerAccountId ++ ":" ++ toString slot

/-- The prefixes of the ids that the plane makes itself. -/
def isReservedConcurrencyId (value : String) : Bool :=
  hasPrefix "catalog-delete:" value || hasPrefix "provider-account:" value ||
  hasPrefix PROVIDER_ACCOUNT_LEASE_PREFIX value || hasPrefix "session-spawn:" value ||
  hasPrefix "webhook:" value || hasPrefix "github-comment:" value

/-- What validation accepts from a caller, and what the child, webhook and comment ingresses build. -/
def creatableConcurrencyId (value : String) : Bool :=
  value != "" && (!isReservedConcurrencyId value || hasPrefix "session-spawn:" value ||
    hasPrefix "webhook:" value || hasPrefix "github-comment:" value)

example : (List.range 3).map (providerAccountLeaseConcurrencyId "a:1") =
    ["provider-lease:a:1:0", "provider-lease:a:1:1", "provider-lease:a:1:2"] := by decide

variable {p v : String}

theorem hasPrefix_iff : hasPrefix p v = true ↔ p.toList <+: v.toList := by
  simp [hasPrefix]

/-! ## Slots have distinct keys -/

theorem colon_not_mem_toString (n : ℕ) : ':' ∉ (toString n).toList := by
  rw [Nat.toString_eq_repr, Nat.toList_repr]
  intro h
  have hd := Nat.isDigit_of_mem_toDigits (by decide) (by decide) h
  exact absurd hd (by decide)

theorem append_cons_inj_of_not_mem {α : Type} {c : α} {xs xs' ys ys' : List α} (h : c ∉ xs) (h' : c ∉ xs')
    (e : xs ++ c :: ys = xs' ++ c :: ys') : xs = xs' ∧ ys = ys' := by
  induction xs generalizing xs' with
  | nil =>
    cases xs' with
    | nil => exact ⟨rfl, (cons.inj e).2⟩
    | cons x xs' => exact absurd (cons.inj e).1 (fun hx => h' (by simp [hx]))
  | cons x xs ih =>
    cases xs' with
    | nil => exact absurd (cons.inj e).1 (fun hx => h (by simp [hx]))
    | cons x' xs' =>
      rw [cons_append, cons_append, cons.injEq] at e
      obtain ⟨rfl, ht⟩ := ih (fun hm => h (mem_cons_of_mem _ hm)) (fun hm => h' (mem_cons_of_mem _ hm)) e.2
      exact ⟨by rw [e.1], ht⟩

variable {a b : String} {n m : ℕ}

theorem accountConcurrencyId_inj
    (h : providerAccountLeaseConcurrencyId a n = providerAccountLeaseConcurrencyId b m) : a = b ∧ n = m := by
  have hl := congrArg (fun s : String => s.toList.reverse) h
  have hc : (":".toList).reverse = [':'] := rfl
  simp only [providerAccountLeaseConcurrencyId, String.toList_append, reverse_append, hc, singleton_append] at hl
  obtain ⟨hn, ha⟩ := append_cons_inj_of_not_mem (by simpa using colon_not_mem_toString n)
    (by simpa using colon_not_mem_toString m) hl
  rw [append_left_inj, reverse_inj, String.toList_inj] at ha
  rw [reverse_inj, Nat.toString_eq_repr, Nat.toString_eq_repr, Nat.toList_repr, Nat.toList_repr] at hn
  have hv := congrArg (fun l => Nat.ofDigitChars 10 l 0) hn
  rw [Nat.ofDigitChars_toDigits (by decide) (by decide), Nat.ofDigitChars_toDigits (by decide) (by decide)] at hv
  exact ⟨ha, hv⟩

/-! ## Namespaces are disjoint -/

variable {q : String}

theorem hasPrefix_or_hasPrefix (hp : hasPrefix p v = true) (hq : hasPrefix q v = true) :
    hasPrefix p q = true ∨ hasPrefix q p = true := by
  rw [hasPrefix_iff] at hp hq
  rw [hasPrefix_iff, hasPrefix_iff]
  exact prefix_or_prefix_of_prefix hp hq

theorem hasPrefix_account (a : String) (n : ℕ) :
    hasPrefix PROVIDER_ACCOUNT_LEASE_PREFIX (providerAccountLeaseConcurrencyId a n) = true := by
  rw [hasPrefix_iff]
  simp only [providerAccountLeaseConcurrencyId, String.toList_append, append_assoc]
  exact prefix_append _ _

theorem hasPrefix_eq_false (hpq : hasPrefix p q = false) (hqp : hasPrefix q p = false)
    (hq : hasPrefix q v = true) : hasPrefix p v = false := by
  rw [Bool.eq_false_iff]
  intro hp
  obtain h | h := hasPrefix_or_hasPrefix hp hq
  · rw [hpq] at h
    cases h
  · rw [hqp] at h
    cases h

variable {c : String}

theorem creatable_cases (hc : creatableConcurrencyId c = true) :
    isReservedConcurrencyId c = false ∨ hasPrefix "session-spawn:" c = true ∨ hasPrefix "webhook:" c = true ∨
      hasPrefix "github-comment:" c = true := by
  simp only [creatableConcurrencyId, Bool.and_eq_true, Bool.or_eq_true, Bool.not_eq_true', or_assoc] at hc
  exact hc.2

theorem creatable_not_account (hc : creatableConcurrencyId c = true) :
    hasPrefix PROVIDER_ACCOUNT_LEASE_PREFIX c = false := by
  obtain h | h | h | h := creatable_cases hc
  · simp only [isReservedConcurrencyId, Bool.or_eq_false_iff] at h
    exact h.1.1.1.2
  all_goals exact hasPrefix_eq_false (by decide) (by decide) h

variable {key : String}

theorem creatable_ne_marker (hc : creatableConcurrencyId c = true) : c ≠ "catalog-delete:" ++ key := by
  have hfalse : hasPrefix "catalog-delete:" c = false := by
    obtain h | h | h | h := creatable_cases hc
    · simp only [isReservedConcurrencyId, Bool.or_eq_false_iff] at h
      exact h.1.1.1.1.1
    all_goals exact hasPrefix_eq_false (by decide) (by decide) h
  rintro rfl
  rw [Bool.eq_false_iff] at hfalse
  exact hfalse (hasPrefix_iff.mpr (by rw [String.toList_append]; exact prefix_append _ _))

theorem account_ne_marker : providerAccountLeaseConcurrencyId a n ≠ "catalog-delete:" ++ key := by
  intro h
  have hp := hasPrefix_account a n
  rw [h] at hp
  have hm : hasPrefix "catalog-delete:" ("catalog-delete:" ++ key) = true :=
    hasPrefix_iff.mpr (by rw [String.toList_append]; exact prefix_append _ _)
  rw [hasPrefix_eq_false (by decide) (by decide) hm] at hp
  cases hp

theorem creatable_ne_account (hc : creatableConcurrencyId c = true) : c ≠ providerAccountLeaseConcurrencyId a n := by
  rintro rfl
  have hl := hasPrefix_account a n
  rw [creatable_not_account hc] at hl
  exact Bool.false_ne_true hl

end AutoHarness.Store

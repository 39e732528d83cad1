import Mathlib.Logic.Relation

/-! Labelled transition systems, the states their runs reach, and the invariant rule. -/

namespace AutoHarness.Foundation
open List

universe u v w

/-- A transition system: its initial states and its labelled steps. -/
structure System (σ : Type u) (α : Type v) where
  init : σ → Prop
  step : σ → α → σ → Prop

namespace System

variable {σ : Type u} {α : Type v}

/-- The states reached from an initial one by finitely many steps. -/
inductive Reachable (M : System σ α) : σ → Prop
  | init {s : σ} (h : M.init s) : Reachable M s
  | step {s s' : σ} {a : α} (h : Reachable M s) (hs : M.step s a s') : Reachable M s'

/-- The system that takes only the steps meeting `ok`, a condition on the state before the step and
its label. -/
def restrict (M : System σ α) (ok : σ → α → Prop) : System σ α where
  init := M.init
  step s a s' := ok s a ∧ M.step s a s'

def observe {β : Type w} (M : System σ α) (see : σ → α → List β) : System (σ × List β) α where
  init x := M.init x.1 ∧ x.2 = []
  step x a y := M.step x.1 a y.1 ∧ y.2 = see x.1 a ++ x.2

variable {M : System σ α} {P : σ → Prop}

/-- **Invariant rule.** -/
theorem Reachable.invariant (hinit : ∀ s, M.init s → P s)
    (hstep : ∀ s a s', M.Reachable s → P s → M.step s a s' → P s') {s : σ} (h : M.Reachable s) : P s := by
  induction h with
  | init h => exact hinit _ h
  | step h hs ih => exact hstep _ _ _ h ih hs

theorem Reachable.of_restrict {ok : σ → α → Prop} {s : σ} (h : (M.restrict ok).Reachable s) : M.Reachable s := by
  induction h with
  | init h => exact .init h
  | step _ hs ih => exact .step ih hs.2

/-- A run whose steps meet one condition also meets any other that follows from it in the states it
reaches. -/
theorem Reachable.restrict_imp {ok ok' : σ → α → Prop}
    (himp : ∀ s a s', (M.restrict ok).Reachable s → ok s a → M.step s a s' → ok' s a) {s : σ}
    (h : (M.restrict ok).Reachable s) : (M.restrict ok').Reachable s := by
  induction h with
  | init h => exact .init h
  | step hr hs ih => exact .step ih ⟨himp _ _ _ hr hs.1 hs.2, hs.2⟩

theorem Reachable.foldlM {next : σ → α → Option σ} (hnext : ∀ s a s', next s a = some s' → M.step s a s')
    {labels : List α} {s s' : σ} (h : M.Reachable s) (hrun : labels.foldlM next s = some s') : M.Reachable s' := by
  induction labels generalizing s with
  | nil =>
    cases hrun
    exact h
  | cons a labels ih =>
    rw [foldlM_cons] at hrun
    obtain ⟨s₁, hs₁, hrun⟩ := Option.bind_eq_some_iff.mp hrun
    exact ih (.step h (hnext s a s₁ hs₁)) hrun

theorem Reachable.of_observe {β : Type w} {see : σ → α → List β} {x : σ × List β}
    (h : (M.observe see).Reachable x) : M.Reachable x.1 := by
  induction h with
  | init h => exact .init h.1
  | step _ hs ih => exact .step ih hs.1

end System

/-! ## A pass: one turn for each key of a list -/

section Pass

variable {σ : Type u} {κ : Type v} {turn : σ → κ → σ} {P Q : σ → Prop} {keys : List κ} {s : σ}

end Pass

end AutoHarness.Foundation

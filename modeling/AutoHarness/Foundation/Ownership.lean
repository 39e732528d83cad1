import Mathlib.Logic.Basic

/-! Two-sided ownership: a resource records its owner, and an owner what it holds. The records are `Consistent` when
they say the same. -/

namespace AutoHarness.Foundation
open Option

universe u v

variable {R : Type u} {S : Type v}

def Consistent (owner : R → Option S) (holds : S → R → Prop) : Prop :=
  ∀ i s, owner i = some s ↔ holds s i

namespace Consistent

variable {owner owner' : R → Option S} {holds holds' : S → R → Prop} {s : S} {i : R} {x : Option R}

variable (h : Consistent owner holds)
include h

theorem unique {t : S} (hs : holds s i) (ht : holds t i) : s = t := by
  have hi := ((h i s).mpr hs).symm.trans ((h i t).mpr ht)
  exact some.inj hi

theorem not_holds (hi : owner i = none) : ¬ holds s i := by
  intro hs
  rw [(h i s).mpr hs] at hi
  cases hi

theorem congr (howner : ∀ i, owner' i = owner i)
    (hholds : ∀ s i, holds' s i ↔ holds s i) : Consistent owner' holds' := by
  intro i s
  rw [howner, hholds]
  exact h i s

theorem give [DecidableEq R]
    (hown : ∀ i, x = some i → owner i = some s) (howner : ∀ i, owner' i = if x = some i then none else owner i)
    (hself : ∀ i, holds' s i ↔ holds s i ∧ x ≠ some i) (hother : ∀ t, t ≠ s → ∀ i, holds' t i ↔ holds t i) :
    Consistent owner' holds' := by
  intro i t
  rw [howner]
  by_cases hx : x = some i
  · rw [if_pos hx]
    refine ⟨nofun, fun ht => ?_⟩
    by_cases hts : t = s
    · rw [hts, hself] at ht
      exact absurd hx ht.2
    · rw [hother t hts, ← h i t, hown i hx] at ht
      exact absurd (some.inj ht).symm hts
  · rw [if_neg hx, h i t]
    by_cases hts : t = s
    · rw [hts, hself]
      exact ⟨fun ht => ⟨ht, hx⟩, fun ht => ht.1⟩
    · rw [hother t hts]

theorem take [DecidableEq R]
    (hfree : ∀ i, x = some i → owner i = none) (howner : ∀ i, owner' i = if x = some i then some s else owner i)
    (hself : ∀ i, holds' s i ↔ holds s i ∨ x = some i) (hother : ∀ t, t ≠ s → ∀ i, holds' t i ↔ holds t i) :
    Consistent owner' holds' := by
  intro i t
  rw [howner]
  by_cases hx : x = some i
  · rw [if_pos hx]
    by_cases hts : t = s
    · rw [hts, hself]
      exact ⟨fun _ => .inr hx, fun _ => rfl⟩
    · rw [hother t hts]
      refine ⟨fun ht => absurd (some.inj ht).symm hts, fun ht => ?_⟩
      exact absurd ht (h.not_holds (hfree i hx))
  · rw [if_neg hx, h i t]
    by_cases hts : t = s
    · rw [hts, hself]
      exact ⟨.inl, fun ht => ht.resolve_right hx⟩
    · rw [hother t hts]

end Consistent

/-- One-sided: what an owner holds names it. A resource may name an owner that no longer holds it. -/
def Backed (owner : R → Option S) (holds : S → R → Prop) : Prop :=
  ∀ s i, holds s i → owner i = some s

namespace Backed

variable {owner owner' : R → Option S} {holds holds' : S → R → Prop}

variable (h : Backed owner holds)
include h

theorem unique {s t : S} {i : R} (hs : holds s i) (ht : holds t i) : s = t :=
  some.inj ((h s i hs).symm.trans (h t i ht))

theorem mono (howner : ∀ i, owner' i = owner i) (hholds : ∀ s i, holds' s i → holds s i) : Backed owner' holds' := by
  intro s i hs
  rw [howner]
  exact h s i (hholds s i hs)

theorem give {s : S} {freed : R → Prop} (hown : ∀ i, freed i → owner i = some s)
    (howner : ∀ i, ¬ freed i → owner' i = owner i) (hself : ∀ i, holds' s i → owner i = some s ∧ ¬ freed i)
    (hother : ∀ t, t ≠ s → ∀ i, holds' t i → holds t i) : Backed owner' holds' := by
  intro t i ht
  by_cases hts : t = s
  · subst hts
    obtain ⟨hnamed, hkept⟩ := hself i ht
    rw [howner i hkept]
    exact hnamed
  · have hold := hother t hts i ht
    have hkept : ¬ freed i := fun hf => hts (some.inj ((h t i hold).symm.trans (hown i hf)))
    rw [howner i hkept]
    exact h t i hold

theorem take {s : S} {taken : R → Prop} (hfree : ∀ i, taken i → owner i = none)
    (hnow : ∀ i, taken i → owner' i = some s) (howner : ∀ i, ¬ taken i → owner' i = owner i)
    (hself : ∀ i, holds' s i → holds s i ∨ taken i) (hother : ∀ t, t ≠ s → ∀ i, holds' t i → holds t i) :
    Backed owner' holds' := by
  have keeps : ∀ t i, holds t i → owner' i = some t := by
    intro t i hold
    have hkept : ¬ taken i := by
      intro ht
      have := (h t i hold).symm.trans (hfree i ht)
      cases this
    rw [howner i hkept]
    exact h t i hold
  intro t i ht
  by_cases hts : t = s
  · subst hts
    obtain hold | hnew := hself i ht
    · exact keeps t i hold
    · exact hnow i hnew
  · exact keeps t i (hother t hts i ht)

end Backed

end AutoHarness.Foundation

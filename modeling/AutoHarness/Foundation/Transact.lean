import Mathlib.Data.List.Nodup
import Mathlib.Logic.Function.Basic

/-! Conditional all-or-nothing transactions. `transact` refuses two items on one target, cancels when a condition
fails, and otherwise runs every write. `Attr` tells a missing attribute from a stored null. -/

namespace AutoHarness.Foundation

universe u v w

/-! ## Attributes -/

/-- An attribute of a document: missing, stored as null, or stored with a value. -/
inductive Attr (α : Type u) where
  | missing
  | null
  | value (a : α)
deriving DecidableEq, Repr

namespace Attr

variable {α : Type u}

/-- The reading `x ?? null`: a missing attribute and a null one are both `none`. -/
def toOption : Attr α → Option α
  | missing => none
  | null => none
  | value a => some a

def ofOption : Option α → Attr α
  | none => null
  | some a => value a

@[simp] theorem toOption_missing : (missing : Attr α).toOption = none := rfl
@[simp] theorem toOption_null : (null : Attr α).toOption = none := rfl
@[simp] theorem toOption_value (a : α) : (value a).toOption = some a := rfl
@[simp] theorem ofOption_none : (ofOption none : Attr α) = null := rfl
@[simp] theorem ofOption_some (a : α) : ofOption (some a) = value a := rfl

@[simp] theorem toOption_ofOption (o : Option α) : (ofOption o).toOption = o := by
  cases o <;> rfl

theorem toOption_eq_some {x : Attr α} {a : α} : x.toOption = some a ↔ x = value a := by
  cases x <;> simp

end Attr

/-- The truthiness test `x && …` of an optional string: present and not empty. -/
def given (o : Option String) : Option String := o.filter (· ≠ "")

theorem given_eq_some {o : Option String} {s : String} : given o = some s ↔ o = some s ∧ s ≠ "" := by
  simp [given, Option.filter_eq_some_iff]

theorem given_of_ne {s : String} (h : s ≠ "") : given (some s) = some s := given_eq_some.mpr ⟨rfl, h⟩

@[simp] theorem given_none : given none = none := rfl

/-! ## Items and transactions -/

/-- One operation of a transaction. -/
structure Item (σ : Type u) (τ : Type v) where
  target : τ
  holds : σ → Bool
  run : σ → σ

variable {σ : Type u} {τ : Type v} {α β : Type w}

def Item.check (target : τ) (holds : σ → Bool) : Item σ τ := ⟨target, holds, id⟩

@[simp] theorem Item.check_target (t : τ) (c : σ → Bool) : (Item.check t c).target = t := rfl
@[simp] theorem Item.check_holds (t : τ) (c : σ → Bool) (s : σ) : (Item.check t c).holds s = c s := rfl
@[simp] theorem Item.check_run (t : τ) (c : σ → Bool) (s : σ) : (Item.check t c).run s = s := rfl

def targets (items : List (Item σ τ)) : List τ := items.map Item.target

/-- Every condition of the list holds in `s`. -/
def Ready (items : List (Item σ τ)) (s : σ) : Prop := ∀ i ∈ items, i.holds s = true

instance (items : List (Item σ τ)) (s : σ) : Decidable (Ready items s) :=
  inferInstanceAs (Decidable (∀ i ∈ items, i.holds s = true))

def runAll (items : List (Item σ τ)) (s : σ) : σ := items.foldl (fun s i => i.run s) s

/-- The answer to a transaction: the new state, one reason per item, or a refusal of its shape. -/
inductive Outcome (σ : Type u) where
  | committed (s : σ)
  | cancelled (reasons : List Bool)
  | rejected

/-- All-or-nothing execution. A list that names a target twice is refused before any condition is
looked at. -/
def transact [DecidableEq τ] (items : List (Item σ τ)) (s : σ) : Outcome σ :=
  if (targets items).Nodup then
    if Ready items s then .committed (runAll items s) else .cancelled (items.map fun i => i.holds s)
  else .rejected

/-- The state after a transaction that started in `s`. -/
def Outcome.state (o : Outcome σ) (s : σ) : σ :=
  match o with
  | .committed s' => s'
  | .cancelled _ => s
  | .rejected => s

/-! ## Composition -/

@[simp] theorem targets_nil : targets ([] : List (Item σ τ)) = [] := rfl
@[simp] theorem targets_cons (i : Item σ τ) (l : List (Item σ τ)) : targets (i :: l) = i.target :: targets l := rfl
@[simp] theorem targets_append (l l' : List (Item σ τ)) : targets (l ++ l') = targets l ++ targets l' := List.map_append

@[simp] theorem ready_nil (s : σ) : Ready ([] : List (Item σ τ)) s := by
  intro i hi; cases hi
@[simp] theorem ready_cons (i : Item σ τ) (l : List (Item σ τ)) (s : σ) :
    Ready (i :: l) s ↔ i.holds s = true ∧ Ready l s := by
  simp [Ready]
@[simp] theorem ready_append (l l' : List (Item σ τ)) (s : σ) : Ready (l ++ l') s ↔ Ready l s ∧ Ready l' s := by
  simp only [Ready, List.mem_append]
  exact ⟨fun h => ⟨fun i hi => h i (.inl hi), fun i hi => h i (.inr hi)⟩, fun h i hi => hi.elim (h.1 i) (h.2 i)⟩

@[simp] theorem runAll_nil (s : σ) : runAll ([] : List (Item σ τ)) s = s := rfl
@[simp] theorem runAll_cons (i : Item σ τ) (l : List (Item σ τ)) (s : σ) : runAll (i :: l) s = runAll l (i.run s) := rfl
@[simp] theorem runAll_append (l l' : List (Item σ τ)) (s : σ) :
    runAll (l ++ l') s = runAll l' (runAll l s) := List.foldl_append

/-- **Frame rule.** What no write of the list changes is unchanged by all of them. -/
theorem runAll_frame (f : σ → α) (items : List (Item σ τ))
    (h : ∀ i ∈ items, ∀ s, f (i.run s) = f s) (s : σ) : f (runAll items s) = f s := by
  induction items generalizing s with
  | nil => rfl
  | cons i l ih =>
    rw [runAll_cons, ih (fun j hj => h j (List.mem_cons_of_mem i hj))]
    exact h i List.mem_cons_self s

theorem nodup_toList_map (o : Option β) (f : β → τ) : (o.toList.map f).Nodup := by
  cases o <;> simp

/-! ## The three answers -/

variable [DecidableEq τ] {items : List (Item σ τ)} {s s' : σ}

theorem committed_iff :
    transact items s = .committed s' ↔ (targets items).Nodup ∧ Ready items s ∧ s' = runAll items s := by
  unfold transact
  by_cases hn : (targets items).Nodup
  · by_cases hr : Ready items s
    · simp only [hn, hr, if_true, Outcome.committed.injEq, true_and]
      exact eq_comm
    · simp [hn, hr]
  · simp [hn]

theorem transact_of_ready (hn : (targets items).Nodup) (hr : Ready items s) :
    transact items s = .committed (runAll items s) :=
  committed_iff.mpr ⟨hn, hr, rfl⟩

theorem transact_of_not_ready (hn : (targets items).Nodup) (hr : ¬ Ready items s) :
    transact items s = .cancelled (items.map fun i => i.holds s) := by
  simp [transact, hn, hr]

theorem transact_rejected_iff : transact items s = .rejected ↔ ¬ (targets items).Nodup := by
  unfold transact
  by_cases hn : (targets items).Nodup
  · by_cases hr : Ready items s <;> simp [hn, hr]
  · simp [hn]

theorem state_of_not_committed (h : ∀ t, transact items s ≠ .committed t) : (transact items s).state s = s := by
  cases ht : transact items s with
  | committed t => exact absurd ht (h t)
  | cancelled | rejected => rfl

end AutoHarness.Foundation

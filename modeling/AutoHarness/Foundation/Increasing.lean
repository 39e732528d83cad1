import Mathlib.Data.List.Sort

/-! Lists in strictly increasing rank: sorting, initial segments, and equality by members. -/

namespace AutoHarness.Foundation
open List

universe u v

variable {α : Type u} {K : Type v} [LinearOrder K] (rank : α → K)

def Increasing (l : List α) : Prop := l.Pairwise (rank · < rank ·)

variable {rank} {l m : List α} {a b : α}

section

variable (h : Increasing rank l)
include h

theorem Increasing.filter (p : α → Bool) : Increasing rank (l.filter p) :=
  List.Pairwise.sublist filter_sublist h

theorem Increasing.nodup : l.Nodup :=
  List.Pairwise.imp (fun hlt heq => absurd (congrArg rank heq) (ne_of_lt hlt)) h

theorem Increasing.inj (ha : a ∈ l) (hb : b ∈ l) (hr : rank a = rank b) : a = b := by
  by_contra hne
  obtain hlt | hlt := List.Pairwise.forall_of_forall_of_flip
    (R := fun a b => a ≠ b → rank a < rank b ∨ rank b < rank a) (by simp)
    (h.imp fun hlt _ => .inl hlt) (h.imp fun hlt _ => .inr hlt) ha hb hne
  · exact absurd hr hlt.ne
  · exact absurd hr hlt.ne'

end

theorem Increasing.lt_of_append (h : Increasing rank (l ++ m)) (ha : a ∈ l) (hb : b ∈ m) : rank a < rank b :=
  (pairwise_append.mp h).2.2 a ha b hb

theorem Increasing.append (hl : Increasing rank l) (hm : Increasing rank m)
    (h : ∀ a ∈ l, ∀ b ∈ m, rank a < rank b) : Increasing rank (l ++ m) :=
  pairwise_append.mpr ⟨hl, hm, h⟩

theorem Increasing.mem_left (h : Increasing rank (l ++ m)) (ha : a ∈ l) (hb : b ∈ l ++ m)
    (hlt : rank b < rank a) : b ∈ l := by
  obtain hb | hb := mem_append.mp hb
  · exact hb
  · exact absurd (h.lt_of_append ha hb) hlt.not_gt

theorem Increasing.mem_take (h : Increasing rank l) {n : ℕ} (ha : a ∈ l.take n) (hb : b ∈ l)
    (hlt : rank b < rank a) : b ∈ l.take n := by
  rw [← take_append_drop n l] at h hb
  exact h.mem_left ha hb hlt

/-- An increasing list that holds, with each of its members, all that `l` has below it, is an initial
segment of `l`. -/
theorem Increasing.prefix_of_lower (hl : Increasing rank l) (hm : Increasing rank m) (hsub : ∀ a ∈ m, a ∈ l)
    (hlow : ∀ a ∈ m, ∀ b ∈ l, rank b < rank a → b ∈ m) : m <+: l := by
  induction m generalizing l with
  | nil => exact nil_prefix
  | cons a m ih =>
    cases l with
    | nil => exact absurd (hsub a mem_cons_self) not_mem_nil
    | cons b l =>
      obtain ⟨hb, hl'⟩ := pairwise_cons.mp hl
      obtain ⟨ha, hm'⟩ := pairwise_cons.mp hm
      -- the two heads agree: neither can rank below the other
      have hab : a = b := by
        obtain rfl | hmem := mem_cons.mp (hsub a mem_cons_self)
        · rfl
        · have hlt : rank b < rank a := hb a hmem
          obtain rfl | hbm := mem_cons.mp (hlow a mem_cons_self b mem_cons_self hlt)
          · rfl
          · exact absurd (ha b hbm) hlt.not_gt
      subst hab
      rw [prefix_cons_inj]
      refine ih hl' hm' (fun c hc => ?_) (fun c hc d hd hlt => ?_)
      · obtain rfl | hcl := mem_cons.mp (hsub c (mem_cons_of_mem _ hc))
        · exact absurd (ha c hc) (lt_irrefl _)
        · exact hcl
      · obtain rfl | hdm := mem_cons.mp
          (hlow c (mem_cons_of_mem _ hc) d (mem_cons_of_mem _ hd) hlt)
        · exact absurd (hb d hd) (lt_irrefl _)
        · exact hdm

theorem Increasing.eq_of_mem_iff (hl : Increasing rank l) (hm : Increasing rank m) (h : ∀ a, a ∈ m ↔ a ∈ l) :
    m = l := by
  have hml := hl.prefix_of_lower hm (fun a ha => (h a).mp ha) (fun _ _ b hb _ => (h b).mpr hb)
  have hlm := hm.prefix_of_lower hl (fun a ha => (h a).mpr ha) (fun _ _ b hb _ => (h b).mp hb)
  exact hml.eq_of_length (le_antisymm hml.length_le hlm.length_le)

/-! ## Sorting -/

section Sorting

variable (r : α → α → Prop) [DecidableRel r]

theorem increasing_insertionSort (hnodup : l.Nodup) (hinj : ∀ a ∈ l, ∀ b ∈ l, rank a = rank b → a = b)
    (hr : ∀ a ∈ l, ∀ b ∈ l, r a b ↔ rank a ≤ rank b) : Increasing rank (l.insertionSort r) := by
  have hsort : l.insertionSort r = l.insertionSort (fun a b => rank a ≤ rank b) := by
    have h := map_insertionSort r (fun a b => rank a ≤ rank b) id l hr
    rwa [map_id, map_id] at h
  have htotal : Std.Total (fun a b : α => rank a ≤ rank b) := ⟨fun a b => le_total (rank a) (rank b)⟩
  have htrans : IsTrans α (fun a b => rank a ≤ rank b) := ⟨fun _ _ _ => le_trans⟩
  have hle := pairwise_insertionSort (fun a b => rank a ≤ rank b) l
  have hne : (l.insertionSort r).Nodup := (perm_insertionSort r l).nodup_iff.mpr hnodup
  rw [hsort] at hne ⊢
  refine (hle.and hne).imp_of_mem fun {a b} ha hb hab => lt_of_le_of_ne hab.1 fun heq => hab.2 ?_
  exact hinj a ((mem_insertionSort _).mp ha) b ((mem_insertionSort _).mp hb) heq

end Sorting

end AutoHarness.Foundation

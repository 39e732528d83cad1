import Mathlib.Algebra.BigOperators.Group.Finset.Basic
import Mathlib.Algebra.Order.BigOperators.Group.Finset
import Mathlib.Algebra.Group.Action.Defs
import Mathlib.Data.Nat.ModEq
import AutoHarness.Foundation.Increasing

/-! A sweep over shards of rows in increasing rank, one page a turn, round and round: how many turns it takes to visit
every row, from any position. -/

namespace AutoHarness.Foundation
open Finset
open Nat (add_assoc zero_add mod_eq_of_lt mod_add_mod mod_lt)

universe u v

variable {α : Type u} {K : Type v} [LinearOrder K]

def rowsAfter (rank : α → K) (rows : List α) : Option K → List α
  | none => rows
  | some k => rows.filter fun a => k < rank a

def rowsUpTo (rank : α → K) (rows : List α) : Option K → List α
  | none => []
  | some k => rows.filter fun a => rank a ≤ k

structure Sweep (α : Type u) (K : Type v) where
  rows : ℕ → List α
  shard : ℕ
  after : Option K
  visited : List α

namespace Sweep

variable (rank : α → K) (limit : ℕ)

def left (s : Sweep α K) : List α := rowsAfter rank (s.rows s.shard) s.after

def page (s : Sweep α K) : List α := (s.left rank).take limit

/-- One turn. A page that holds all rows left may be taken for the last one of its shard or not when it
is full. -/
structure Turn (shards : ℕ) (s t : Sweep α K) : Prop where
  others : ∀ i, i ≠ s.shard → t.rows i = s.rows i
  pruned : (t.rows s.shard).Sublist (s.rows s.shard)
  kept : ∀ a ∈ s.rows s.shard, a ∉ s.page rank limit → a ∈ t.rows s.shard
  visited : t.visited = s.visited ++ s.page rank limit
  moves : ((s.left rank).length ≤ limit ∧ t.shard = (s.shard + 1) % shards ∧ t.after = none) ∨
    (limit ≤ (s.left rank).length ∧ t.shard = s.shard ∧ t.after = ((s.page rank limit).getLast?).map rank)

variable {rank limit}

section Rows

variable {rows rows' : List α} {after : Option K} {a : α}

theorem mem_rowsAfter : a ∈ rowsAfter rank rows after ↔ a ∈ rows ∧ ∀ k, after = some k → k < rank a := by
  cases after with
  | none | some => simp [rowsAfter]

theorem increasing_rowsAfter (h : Increasing rank rows) (after : Option K) :
    Increasing rank (rowsAfter rank rows after) := by
  cases after with
  | none => exact h
  | some k => exact h.filter _

theorem mem_rowsUpTo : a ∈ rowsUpTo rank rows after ↔ a ∈ rows ∧ ∃ k, after = some k ∧ rank a ≤ k := by
  cases after with
  | none | some => simp [rowsUpTo]

theorem increasing_rowsUpTo (h : Increasing rank rows) (after : Option K) :
    Increasing rank (rowsUpTo rank rows after) := by
  cases after with
  | none => exact List.Pairwise.nil
  | some k => exact h.filter _

theorem rowsUpTo_sublist (h : rows'.Sublist rows) (after : Option K) :
    (rowsUpTo rank rows' after).Sublist (rowsUpTo rank rows after) := by
  cases after with
  | none => exact List.Sublist.refl _
  | some k => exact h.filter _

theorem rowsUpTo_append (h : Increasing rank rows) (after : Option K) :
    rowsUpTo rank rows after ++ rowsAfter rank rows after = rows := by
  refine h.eq_of_mem_iff ((increasing_rowsUpTo h after).append (increasing_rowsAfter h after) ?_) fun a => ?_
  · intro a ha b hb
    obtain ⟨-, k, hk, hle⟩ := mem_rowsUpTo.mp ha
    exact hle.trans_lt ((mem_rowsAfter.mp hb).2 k hk)
  · rw [List.mem_append, mem_rowsAfter, mem_rowsUpTo]
    constructor
    · rintro (h | h)
      all_goals exact h.1
    · intro ha
      by_cases hafter : ∀ k, after = some k → k < rank a
      · exact .inr ⟨ha, hafter⟩
      · simp only [not_forall, not_lt] at hafter
        obtain ⟨k, hk, hle⟩ := hafter
        exact .inl ⟨ha, k, hk, hle⟩

end Rows

/-! ## One turn -/

section Turn

variable {shards i : ℕ} {s t : Sweep α K} (h : Turn rank limit shards s t)

include h

theorem Turn.sublist (i : ℕ) : (t.rows i).Sublist (s.rows i) := by
  by_cases hi : i = s.shard
  · subst hi
    exact h.pruned
  · rw [h.others i hi]

theorem Turn.mem_page {a : α} (ha : a ∈ s.page rank limit) : a ∈ t.visited := by
  rw [h.visited]
  exact List.mem_append_right _ ha

theorem Turn.mem_or_visited {a : α} (ha : a ∈ s.rows i) : a ∈ t.rows i ∨ a ∈ t.visited := by
  by_cases hi : i = s.shard
  · subst hi
    by_cases hp : a ∈ s.page rank limit
    · exact .inr (h.mem_page hp)
    · exact .inl (h.kept a ha hp)
  · rw [h.others i hi]
    exact .inl ha

theorem Turn.left_eq (hinc : Increasing rank (s.rows s.shard)) (hlimit : 0 < limit)
    (hfull : limit ≤ (s.left rank).length) (hshard : t.shard = s.shard)
    (hafter : t.after = ((s.page rank limit).getLast?).map rank) : t.left rank = (s.left rank).drop limit := by
  have hleft := increasing_rowsAfter hinc s.after
  have hcut : s.left rank = s.page rank limit ++ (s.left rank).drop limit := (List.take_append_drop _ _).symm
  have hinc' : Increasing rank (s.page rank limit ++ (s.left rank).drop limit) := hcut ▸ hleft
  have hne : s.page rank limit ≠ [] := by
    intro he
    have hlen := congrArg List.length he
    rw [page, List.length_take, List.length_nil] at hlen
    omega
  obtain ⟨before, last, hlast⟩ : ∃ before last, s.page rank limit = before ++ [last] :=
    ⟨_, _, (List.dropLast_append_getLast hne).symm⟩
  rw [hlast, List.getLast?_append, List.getLast?_singleton, Option.some_or, Option.map_some] at hafter
  have hmem : last ∈ s.page rank limit := by
    rw [hlast]
    exact List.mem_append_right _ (List.mem_singleton_self _)
  have hpage : ∀ a ∈ s.page rank limit, rank a ≤ rank last := by
    intro a ha
    have hinc'' := (List.pairwise_append.mp hinc').1
    rw [hlast] at ha hinc''
    rcases List.mem_append.mp ha with ha | ha
    · exact (Increasing.lt_of_append hinc'' ha (List.mem_singleton_self _)).le
    · rw [List.mem_singleton.mp ha]
  have hinct : Increasing rank (t.rows s.shard) := List.Pairwise.sublist h.pruned hinc
  have hdrop : Increasing rank ((s.left rank).drop limit) := List.Pairwise.sublist (List.drop_sublist _ _) hleft
  refine hdrop.eq_of_mem_iff ?_ fun a => ?_
  · rw [left, hshard]
    exact increasing_rowsAfter hinct _
  · rw [left, hshard, hafter, mem_rowsAfter]
    constructor
    · rintro ⟨ha, hgt⟩
      have hmemleft : a ∈ s.left rank := by
        have hlastleft : last ∈ s.left rank := List.mem_of_mem_take hmem
        refine mem_rowsAfter.mpr ⟨h.pruned.subset ha, fun k hk => ?_⟩
        exact ((mem_rowsAfter.mp hlastleft).2 k hk).trans (hgt _ rfl)
      rw [hcut, List.mem_append] at hmemleft
      rcases hmemleft with hp | hd
      · exact absurd (hgt _ rfl) (hpage a hp).not_gt
      · exact hd
    · intro hd
      have hgt : ∀ b ∈ s.page rank limit, rank b < rank a := fun b hb => hinc'.lt_of_append hb hd
      refine ⟨h.kept a (mem_rowsAfter.mp (List.mem_of_mem_drop hd)).1 fun hp => lt_irrefl _ (hgt a hp), ?_⟩
      intro k hk
      rw [← Option.some.inj hk]
      exact hgt last hmem

end Turn

/-! ## Runs -/

section Run

variable {shards : ℕ} {σ : ℕ → Sweep α K} (hturn : ∀ n, Turn rank limit shards (σ n) (σ (n + 1)))

include hturn

theorem rows_sublist (n m : ℕ) (i : ℕ) : ((σ (n + m)).rows i).Sublist ((σ n).rows i) := by
  induction m with
  | zero => exact List.Sublist.refl _
  | succ m ih => exact ((hturn (n + m)).sublist i).trans ih

theorem visited_mono (n m : ℕ) {a : α} (ha : a ∈ (σ n).visited) : a ∈ (σ (n + m)).visited := by
  induction m with
  | zero => exact ha
  | succ m ih =>
    rw [← add_assoc, (hturn (n + m)).visited]
    exact List.mem_append_left _ ih

theorem mem_or_visited (n m : ℕ) {i : ℕ} {a : α} (ha : a ∈ (σ n).rows i) :
    a ∈ (σ (n + m)).rows i ∨ a ∈ (σ (n + m)).visited := by
  induction m with
  | zero => exact .inl ha
  | succ m ih =>
    rcases ih with ih | ih
    · exact (hturn (n + m)).mem_or_visited ih
    · exact .inr (visited_mono hturn (n + m) 1 ih)

variable (hinc : ∀ i, Increasing rank ((σ 0).rows i)) (hlimit : 0 < limit)

include hinc

theorem increasing_rows (n i : ℕ) : Increasing rank ((σ n).rows i) := by
  have h := rows_sublist hturn 0 n i
  rw [zero_add] at h
  exact List.Pairwise.sublist h (hinc i)

include hlimit

theorem pass (n : ℕ) : ∃ m, m ≤ ((σ n).left rank).length / limit + 1 ∧
    (σ (n + m)).shard = ((σ n).shard + 1) % shards ∧ (σ (n + m)).after = none ∧
    ∀ a ∈ (σ n).left rank, a ∈ (σ (n + m)).visited := by
  generalize hk : ((σ n).left rank).length = k
  induction k using Nat.strong_induction_on generalizing n with
  | _ k ih =>
    rcases (hturn n).moves with ⟨hshort, hshard, hafter⟩ | ⟨hfull, hshard, hafter⟩
    · refine ⟨1, Nat.le_add_left _ _, hshard, hafter, fun a ha => (hturn n).mem_page ?_⟩
      rwa [page, List.take_of_length_le hshort]
    · have hleft := (hturn n).left_eq (increasing_rows hturn hinc n _) hlimit hfull hshard hafter
      have hlen : ((σ (n + 1)).left rank).length = k - limit := by rw [hleft, List.length_drop, hk]
      rw [hk] at hfull
      obtain ⟨m, hm, hshard', hafter', hvisited⟩ := ih (k - limit) (by omega) (n + 1) hlen
      have e : n + 1 + m = n + (m + 1) := by omega
      rw [e] at hshard' hafter' hvisited
      refine ⟨m + 1, ?_, hshard'.trans (by rw [hshard]), hafter', fun a ha => ?_⟩
      · have hdiv : k / limit = (k - limit) / limit + 1 := Nat.div_eq_sub_div hlimit hfull
        omega
      · -- the page of this turn, or what it leaves
        rw [← List.take_append_drop limit ((σ n).left rank)] at ha
        rcases List.mem_append.mp ha with ha | ha
        · rw [← e]
          exact visited_mono hturn (n + 1) m ((hturn n).mem_page ha)
        · exact hvisited a (hleft ▸ ha)

theorem front (n : ℕ) {f : List α} (hf : f <+: (σ n).left rank) :
    ∃ m, m ≤ (f.length + (limit - 1)) / limit ∧ ∀ a ∈ f, a ∈ (σ (n + m)).visited := by
  generalize hk : f.length = k
  induction k using Nat.strong_induction_on generalizing n f with
  | _ k ih =>
    have hpage : f.take limit <+: (σ n).page rank limit := hf.take limit
    have hfirst : ∀ a ∈ f.take limit, a ∈ (σ (n + 1)).visited := fun a ha => (hturn n).mem_page (hpage.subset ha)
    rcases Nat.eq_zero_or_pos k with hzero | hpos
    · refine ⟨0, Nat.zero_le _, fun a ha => ?_⟩
      rw [List.eq_nil_of_length_eq_zero (hk.trans hzero)] at ha
      cases ha
    · rcases Nat.lt_or_ge limit k with hlong | hshort
      · have hlen := hf.length_le
        rcases (hturn n).moves with ⟨hle, -⟩ | ⟨hfull, hshard, hafter⟩
        · omega
        have hleft := (hturn n).left_eq (increasing_rows hturn hinc n _) hlimit hfull hshard hafter
        have hrest : f.drop limit <+: (σ (n + 1)).left rank := hleft ▸ hf.drop limit
        obtain ⟨m, hm, hvisited⟩ := ih (k - limit) (by omega) (n + 1) hrest (by rw [List.length_drop, hk])
        have e : n + 1 + m = n + (m + 1) := by omega
        rw [e] at hvisited
        refine ⟨m + 1, ?_, fun a ha => ?_⟩
        · have hdiv := Nat.div_eq_sub_div hlimit (show limit ≤ k + (limit - 1) by omega)
          have e' : k + (limit - 1) - limit = k - limit + (limit - 1) := by omega
          rw [e'] at hdiv
          omega
        · rw [← List.take_append_drop limit f] at ha
          rcases List.mem_append.mp ha with ha | ha
          · rw [← e]
            exact visited_mono hturn (n + 1) m (hfirst a ha)
          · exact hvisited a ha
      · refine ⟨1, ?_, fun a ha => hfirst a ?_⟩
        · rw [Nat.le_div_iff_mul_le hlimit]
          omega
        · rwa [List.take_of_length_le (hk ▸ hshort)]

theorem passes (n k : ℕ) (hshard : (σ n).shard < shards) (hafter : (σ n).after = none) : ∃ m,
    m ≤ ∑ j ∈ range k, (((σ n).rows (((σ n).shard + j) % shards)).length / limit + 1) ∧
    (σ (n + m)).shard = ((σ n).shard + k) % shards ∧ (σ (n + m)).after = none ∧
    ∀ j < k, ∀ a ∈ (σ n).rows (((σ n).shard + j) % shards), a ∈ (σ (n + m)).visited := by
  induction k with
  | zero => exact ⟨0, Nat.zero_le _, (mod_eq_of_lt hshard).symm, hafter, fun j hj => absurd hj (Nat.not_lt_zero j)⟩
  | succ k ih =>
    obtain ⟨m, hm, hs, ha, hvisited⟩ := ih
    obtain ⟨m', hm', hs', ha', hvisited'⟩ := pass hturn hinc hlimit (n + m)
    have hleft : (σ (n + m)).left rank = (σ (n + m)).rows (((σ n).shard + k) % shards) := by
      rw [left, ha, hs, rowsAfter]
    have hlen : ((σ (n + m)).left rank).length / limit ≤
        ((σ n).rows (((σ n).shard + k) % shards)).length / limit := by
      rw [hleft]
      exact Nat.div_le_div_right (rows_sublist hturn n m _).length_le
    rw [add_assoc] at hs' ha' hvisited'
    refine ⟨m + m', ?_, ?_, ha', fun j hj a hj' => ?_⟩
    · rw [sum_range_succ]
      omega
    · rw [hs', hs, mod_add_mod, add_assoc]
    · rcases Nat.lt_succ_iff_lt_or_eq.mp hj with hlt | rfl
      · rw [← add_assoc]
        exact visited_mono hturn (n + m) m' (hvisited j hlt a hj')
      · rcases mem_or_visited hturn n m hj' with hrow | hseen
        · exact hvisited' a (hleft ▸ hrow)
        · rw [← add_assoc]
          exact visited_mono hturn (n + m) m' hseen

end Run

/-! ## A whole round -/

def pages (limit : ℕ) (rows : List α) : ℕ := (rows.length + (limit - 1)) / limit

theorem div_le_pages (limit : ℕ) (rows : List α) : rows.length / limit ≤ pages limit rows :=
  Nat.div_le_div_right (Nat.le_add_right _ _)

/-- The rows after a position and those before it take one turn more than their pages. -/
theorem parts_le_pages {limit x y y' m m' : ℕ} {rows : List α} (hlimit : 0 < limit) (hrows : y + x = rows.length)
    (hy : y' ≤ y) (hm : m ≤ x / limit + 1) (hm' : m' ≤ (y' + (limit - 1)) / limit) : m + m' ≤ pages limit rows + 1 := by
  have hceil : (y' + (limit - 1)) / limit + x / limit ≤ pages limit rows := by
    rw [← Nat.add_mul_div_left _ _ hlimit, pages]
    have hmul := Nat.mul_div_le x limit
    exact Nat.div_le_div_right (by omega)
  omega

theorem sum_rotate (g : ℕ → ℕ) {shards i : ℕ} (hi : i < shards) :
    ∑ j ∈ range shards, g ((i + j) % shards) = ∑ j ∈ range shards, g j := by
  have hmaps : ∀ j ∈ range shards, (i + j) % shards ∈ range shards := fun j _ =>
    mem_range.mpr (mod_lt _ (Nat.zero_lt_of_lt hi))
  have hinj : Set.InjOn (fun j => (i + j) % shards) (range shards) := by
    intro a ha b hb hab
    rw [mem_coe, mem_range] at ha hb
    exact Nat.ModEq.eq_of_lt_of_lt (Nat.ModEq.add_left_cancel' i hab) ha hb
  exact sum_nbij (fun j => (i + j) % shards) hmaps hinj (surjOn_of_injOn_of_card_le _ hmaps hinj le_rfl)
    fun _ _ => rfl

/-- **Coverage.** Every row is visited in as many turns as there are pages and shards. -/
theorem covers {shards : ℕ} {σ : ℕ → Sweep α K} (hturn : ∀ n, Turn rank limit shards (σ n) (σ (n + 1)))
    (hinc : ∀ i, Increasing rank ((σ 0).rows i)) (hlimit : 0 < limit) (hshard : (σ 0).shard < shards) :
    ∃ n, n ≤ ∑ i ∈ range shards, pages limit ((σ 0).rows i) + shards ∧
      ∀ i < shards, ∀ a ∈ (σ 0).rows i, a ∈ (σ n).visited := by
  obtain ⟨rest, rfl⟩ : ∃ rest, shards = rest + 1 := ⟨shards - 1, by omega⟩
  -- the rest of the first shard, the other shards, and the beginning of the first shard
  obtain ⟨m, hm, hs, ha, hvisited⟩ := pass hturn hinc hlimit 0
  rw [zero_add] at hs ha hvisited
  have hs_lt : (σ m).shard < rest + 1 := hs ▸ mod_lt _ (Nat.succ_pos _)
  obtain ⟨m', hm', hs', ha', hvisited'⟩ := passes hturn hinc hlimit m rest hs_lt ha
  have hback : (σ (m + m')).shard = (σ 0).shard := by
    rw [hs', hs, mod_add_mod, show (σ 0).shard + 1 + rest = (σ 0).shard + (rest + 1) by omega,
      Nat.add_mod_right, mod_eq_of_lt hshard]
  have hfront : rowsUpTo rank ((σ (m + m')).rows (σ 0).shard) (σ 0).after <+: (σ (m + m')).left rank := by
    rw [left, ha', hback, rowsAfter]
    exact ⟨_, rowsUpTo_append (increasing_rows hturn hinc _ _) (σ 0).after⟩
  obtain ⟨m'', hm'', hvisited''⟩ := front hturn hinc hlimit (m + m') hfront
  refine ⟨m + m' + m'', ?_, fun i hi a hrow => ?_⟩
  · -- the two visits of the first shard take one turn more than its pages
    have hfirst : m + m'' ≤ pages limit ((σ 0).rows (σ 0).shard) + 1 := by
      have hcut := congrArg List.length (rowsUpTo_append (hinc (σ 0).shard) (σ 0).after)
      have hsub := rows_sublist hturn 0 (m + m') (σ 0).shard
      rw [zero_add] at hsub
      rw [List.length_append] at hcut
      exact parts_le_pages hlimit hcut (rowsUpTo_sublist hsub _).length_le hm hm''
    have hothers : m' ≤ ∑ j ∈ range rest, pages limit ((σ 0).rows (((σ 0).shard + (j + 1)) % (rest + 1))) + rest := by
      have hones : ∑ _j ∈ range rest, 1 = rest := by rw [sum_const, card_range, smul_eq_mul, Nat.mul_one]
      refine hm'.trans ?_
      rw [sum_add_distrib, hones]
      refine Nat.add_le_add_right (sum_le_sum fun j _ => ?_) rest
      have e : ((σ m).shard + j) % (rest + 1) = ((σ 0).shard + (j + 1)) % (rest + 1) := by
        rw [hs, mod_add_mod, add_assoc, Nat.add_comm 1 j]
      have hsub := rows_sublist hturn 0 m (((σ 0).shard + (j + 1)) % (rest + 1))
      rw [zero_add] at hsub
      rw [e]
      exact (Nat.div_le_div_right hsub.length_le).trans (div_le_pages limit _)
    have hsum := sum_rotate (fun i => pages limit ((σ 0).rows i)) hshard
    rw [sum_range_succ', show ((σ 0).shard + 0) % (rest + 1) = (σ 0).shard from mod_eq_of_lt hshard] at hsum
    omega
  · by_cases hfirst : i = (σ 0).shard
    · subst hfirst
      rw [← rowsUpTo_append (hinc _) (σ 0).after, List.mem_append] at hrow
      rcases hrow with hup | hleft
      · obtain ⟨hmem, hle⟩ := mem_rowsUpTo.mp hup
        rcases mem_or_visited hturn 0 (m + m') hmem with hstill | hseen
        · rw [zero_add] at hstill
          exact hvisited'' a (mem_rowsUpTo.mpr ⟨hstill, hle⟩)
        · rw [zero_add] at hseen
          exact visited_mono hturn (m + m') m'' hseen
      · exact visited_mono hturn (m + m') m'' (visited_mono hturn m m' (hvisited a hleft))
    · refine visited_mono hturn (m + m') m'' ?_
      -- the shard is one of those after the first
      obtain ⟨j, hj, hji⟩ : ∃ j < rest, ((σ m).shard + j) % (rest + 1) = i := by
        rw [hs]
        rcases Nat.lt_or_gt_of_ne hfirst with hlt | hgt
        · refine ⟨i + rest - (σ 0).shard, by omega, ?_⟩
          rw [mod_add_mod, show (σ 0).shard + 1 + (i + rest - (σ 0).shard) = i + (rest + 1) by omega,
            Nat.add_mod_right, mod_eq_of_lt hi]
        · refine ⟨i - (σ 0).shard - 1, by omega, ?_⟩
          rw [mod_add_mod, show (σ 0).shard + 1 + (i - (σ 0).shard - 1) = i by omega, mod_eq_of_lt hi]
      rcases mem_or_visited hturn 0 m hrow with hstill | hseen
      · rw [zero_add] at hstill
        exact hvisited' j hj a (hji ▸ hstill)
      · rw [zero_add] at hseen
        exact visited_mono hturn m m' hseen

end Sweep

end AutoHarness.Foundation

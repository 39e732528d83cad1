import Mathlib.Order.Basic
import Mathlib.Order.Nat

/-! A client that follows cursors. A service may answer differently each time, so a page depends on its number. -/

namespace AutoHarness.Foundation

universe u v w

variable {α : Type u} {κ : Type v} {ε : Type w}

/-- What a service answers to the request with a cursor, or to the first one, with none. -/
abbrev Service (α : Type u) (κ : Type v) (ε : Type w) := Option κ → Except ε (List α × Option κ)

/-- Where the client stands: about to send a request, past the last page, or refused. -/
inductive Standing (κ : Type v) where
  | asking (cursor : Option κ)
  | finished
  | refused
deriving DecidableEq

def Standing.ofNext : Option κ → Standing κ
  | none => .finished
  | some c => .asking (some c)

structure Walk (α : Type u) (κ : Type v) where
  items : List α
  standing : Standing κ

def Walk.next (service : Service α κ ε) (s : Walk α κ) : Walk α κ :=
  match s.standing with
  | .asking cursor =>
    match service cursor with
    | .ok (page, next) => ⟨s.items ++ page, .ofNext next⟩
    | .error _ => ⟨s.items, .refused⟩
  | _ => s

/-- The client after its first `n` requests. -/
def walk (serve : ℕ → Service α κ ε) : ℕ → Walk α κ
  | 0 => ⟨[], .asking none⟩
  | n + 1 => (walk serve n).next (serve n)

variable {service : Service α κ ε} {s t : Walk α κ}

theorem Walk.next_page {cursor next : Option κ} {page : List α}
    (hs : s.standing = .asking cursor) (h : service cursor = .ok (page, next)) :
    s.next service = ⟨s.items ++ page, .ofNext next⟩ := by
  unfold Walk.next
  rw [hs]
  dsimp only
  rw [h]

theorem Walk.next_still (hs : ∀ cursor, s.standing ≠ .asking cursor) : s.next service = s := by
  unfold Walk.next
  split
  case h_1 cursor h => exact absurd h (hs cursor)
  case h_2 => rfl

theorem Walk.next_standing (h : s.standing = t.standing) : (s.next service).standing = (t.next service).standing := by
  unfold Walk.next
  rw [h]
  cases t.standing with
  | asking cursor =>
    dsimp only
    cases service cursor <;> rfl
  | finished | refused => exact h

variable {serve : ℕ → Service α κ ε}

theorem walk_succ (n : ℕ) : walk serve (n + 1) = (walk serve n).next (serve n) := rfl

/-! ## What every walk keeps -/

/-- `P` relates the items so far to the cursor about to be sent; `Q` holds of all items. -/
def Walk.Meets (P : List α → Option κ → Prop) (Q : List α → Prop) (s : Walk α κ) : Prop :=
  match s.standing with
  | .asking cursor => P s.items cursor
  | .finished => Q s.items
  | .refused => False

section Meets

variable {P : List α → Option κ → Prop} {Q R : List α → Prop} {s : Walk α κ}

variable (h : s.Meets P Q)
include h

theorem Walk.Meets.items (hP : ∀ items cursor, P items cursor → R items)
    (hQ : ∀ items, Q items → R items) : R s.items := by
  unfold Walk.Meets at h
  split at h
  · exact hP _ _ h
  · exact hQ _ h
  · exact h.elim

theorem Walk.Meets.not_refused : s.standing ≠ .refused := by
  intro hs
  unfold Walk.Meets at h
  rw [hs] at h
  exact h

theorem Walk.Meets.finished (hs : s.standing = .finished) : Q s.items := by
  unfold Walk.Meets at h
  rw [hs] at h
  exact h

end Meets

/-- **Invariant rule.** What holds at first and is kept by every page holds all along the walk. -/
theorem walk_invariant {P : ℕ → List α → Option κ → Prop} {Q : List α → Prop} (hstart : P 0 [] none)
    (hpage : ∀ n items cursor, P n items cursor → ∃ page next, serve n cursor = .ok (page, next) ∧
      Walk.Meets (P (n + 1)) Q ⟨items ++ page, .ofNext next⟩) (n : ℕ) : (walk serve n).Meets (P n) Q := by
  induction n with
  | zero => exact hstart
  | succ n ih =>
    rw [walk_succ]
    cases hs : (walk serve n).standing with
    | asking cursor =>
      unfold Walk.Meets at ih
      rw [hs] at ih
      obtain ⟨page, next, hserve, hnext⟩ := hpage n _ _ ih
      rw [Walk.next_page hs hserve]
      exact hnext
    | finished =>
      rw [Walk.next_still fun cursor h => by rw [hs] at h; cases h]
      unfold Walk.Meets at ih ⊢
      rw [hs] at ih ⊢
      exact ih
    | refused =>
      unfold Walk.Meets at ih
      rw [hs] at ih
      exact ih.elim

/-- **Termination rule.** Every page is the last one or lowers the measure of the cursor. -/
theorem walk_finishes {P : Option κ → Prop} (measure : Option κ → ℕ) (hstart : P none)
    (hpage : ∀ n cursor, (walk serve n).standing = .asking cursor → P cursor →
      ∃ page next, serve n cursor = .ok (page, next) ∧
        ∀ c, next = some c → P (some c) ∧ 0 < measure (some c) ∧ measure (some c) < measure cursor) :
    ∃ n, n ≤ max 1 (measure none) ∧ (walk serve n).standing = .finished := by
  have hrun : ∀ n, (∃ k ≤ n, (walk serve k).standing = .finished) ∨
      ∃ cursor, (walk serve n).standing = .asking cursor ∧ P cursor ∧
        measure cursor + n ≤ measure none ∧ (n = 0 ∨ 0 < measure cursor) := by
    intro n
    induction n with
    | zero => exact .inr ⟨none, rfl, hstart, by omega, .inl rfl⟩
    | succ n ih =>
      obtain ⟨k, hk, hdone⟩ | ⟨cursor, hs, hP, hle, -⟩ := ih
      · exact .inl ⟨k, by omega, hdone⟩
      · obtain ⟨page, next, hserve, hnext⟩ := hpage n cursor hs hP
        have hstep : (walk serve (n + 1)).standing = .ofNext next := by
          rw [walk_succ, Walk.next_page hs hserve]
        cases next with
        | none => exact .inl ⟨n + 1, by omega, hstep⟩
        | some c =>
          obtain ⟨hc, hpos, hlt⟩ := hnext c rfl
          exact .inr ⟨some c, hstep, hc, by omega, .inr hpos⟩
  obtain ⟨k, hk, hdone⟩ | ⟨cursor, -, -, hle, hpos⟩ := hrun (max 1 (measure none))
  · exact ⟨k, hk, hdone⟩
  · omega

variable {n m : ℕ}

theorem walk_asking_none (h : (walk serve n).standing = .asking none) : n = 0 := by
  cases n with
  | zero => rfl
  | succ n =>
    rw [walk_succ, Walk.next] at h
    split at h
    · split at h
      case h_1 page next _ => cases next <;> cases h
      case h_2 => cases h
    case h_2 hs => exact absurd h (hs none)

theorem walk_finished_mono (h : (walk serve n).standing = .finished) (m : ℕ) :
    (walk serve (n + m)).standing = .finished := by
  induction m with
  | zero => exact h
  | succ m ih =>
    rw [← Nat.add_assoc, walk_succ, Walk.next_still fun cursor hs => by rw [ih] at hs; cases hs]
    exact ih

def Standing.holds (test : κ → Bool) : Standing κ → Bool
  | .asking (some c) => test c
  | _ => true

theorem walk_holds (test : κ → Bool) (hdone : (walk serve n).standing = .finished)
    (h : ∀ m < n, (walk serve m).standing.holds test = true) {c : κ}
    (hm : (walk serve m).standing = .asking (some c)) : test c = true := by
  obtain hlt | hle := lt_or_ge m n
  · have hholds := h m hlt
    rw [hm] at hholds
    exact hholds
  · have hfinished := walk_finished_mono hdone (m - n)
    have e : n + (m - n) = m := by omega
    rw [e, hm] at hfinished
    cases hfinished

/-! ## Walks that go round -/

/-- A service that has the client stand where it stood never gives the last page. -/
theorem walk_cycles {i d : ℕ} (hd : 0 < d)
    (hagain : (walk (fun _ => service) (i + d)).standing = (walk (fun _ => service) i).standing)
    (hasking : (walk (fun _ => service) i).standing ≠ .finished) (n : ℕ) :
    (walk (fun _ => service) n).standing ≠ .finished := by
  -- from the first time on, the walk stands where it stood `d` pages before
  have hperiod : ∀ k, (walk (fun _ => service) (i + k + d)).standing = (walk (fun _ => service) (i + k)).standing := by
    intro k
    induction k with
    | zero => exact hagain
    | succ k ih =>
      have e : i + (k + 1) + d = (i + k + d) + 1 := by omega
      rw [e]
      exact Walk.next_standing ih
  have hround : ∀ m, (walk (fun _ => service) (i + m * d)).standing = (walk (fun _ => service) i).standing := by
    intro m
    induction m with
    | zero => rw [Nat.zero_mul, Nat.add_zero]
    | succ m ih =>
      have e : i + (m + 1) * d = i + m * d + d := by rw [Nat.succ_mul, ← Nat.add_assoc]
      rw [e, hperiod, ih]
  intro hdone
  have hlarge : n ≤ n * d := Nat.le_mul_of_pos_right n hd
  have hlast := walk_finished_mono hdone (i + n * d - n)
  have e : n + (i + n * d - n) = i + n * d := by omega
  rw [e, hround n] at hlast
  exact hasking hlast

end AutoHarness.Foundation

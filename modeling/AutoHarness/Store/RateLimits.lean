import Mathlib.Algebra.Order.Ring.Int
import Mathlib.Data.PNat.Defs
import AutoHarness.Foundation.Transition

/-! The durable rate limit: one counter row per actor and bucket, which all API workers update under conditions. -/

namespace AutoHarness.RateLimits
open Foundation Function

inductive RateLimitBucket
  | login
  | read
  | mutation
  | scheduler
  | host
  | publicIngress
deriving DecidableEq

/-- The answer to a request; `resetAtMs` is the end of the window it was counted in. -/
structure RateLimitDecision where
  allowed : Bool
  limit : ℕ
  remaining : ℕ
  resetAtMs : ℤ
deriving DecidableEq

/-- `Math.floor(nowMs / size) * size`. -/
def windowStartMs (nowMs : ℤ) (windowSeconds : ℕ+) : ℤ := nowMs / (windowSeconds * 1000) * (windowSeconds * 1000)

/-! ## The durable counter -/

structure DurableRateLimitInput where
  actorKey : String
  bucket : RateLimitBucket
  limit : ℕ
  windowSeconds : ℕ+
  nowMs : ℤ

def DurableRateLimitInput.start (input : DurableRateLimitInput) : ℤ := windowStartMs input.nowMs input.windowSeconds

/-- A row of the table; a row that does not exist has no attributes. -/
structure Counter where
  windowStartMs : Option ℤ := none
  count : Option ℕ := none
deriving DecidableEq

/-- What one attempt makes of the row: it has read `current`, and `row` is there when its write is applied. Without a
decision the condition of the write has failed. -/
def attemptWrite (input : DurableRateLimitInput) (current row : Counter) : Counter × Option RateLimitDecision :=
  let start := input.start
  let resetAtMs := start + input.windowSeconds * 1000
  if current.windowStartMs.any (start < ·) then
    (row, some ⟨false, input.limit, 0, current.windowStartMs.getD 0 + input.windowSeconds * 1000⟩)
  else if current.windowStartMs = some start then
    if input.limit ≤ current.count.getD 0 then (row, some ⟨false, input.limit, 0, resetAtMs⟩)
    else if row.windowStartMs = some start ∧ row.count.any (· < input.limit) then
      let nextCount := row.count.getD 0 + 1
      ({ row with count := some nextCount }, some ⟨true, input.limit, input.limit - nextCount, resetAtMs⟩)
    else (row, none)
  else if row.windowStartMs = current.windowStartMs then
    (⟨some start, some 1⟩, some ⟨true, input.limit, input.limit - 1, resetAtMs⟩)
  else (row, none)

/-- A call of `consumeRateLimit` in its loop, with what the attempt has read. -/
structure Call where
  input : DurableRateLimitInput
  attempt : ℕ := 0
  current : Option Counter := none

/-- The table, the calls of the workers, and what the calls have returned. -/
structure Limiter where
  rateLimits : String → Counter := fun _ => {}
  calls : ℕ → Option Call := fun _ => none
  results : List (DurableRateLimitInput × RateLimitDecision) := []

/-- `throws` is any other store error: it ends the call, and its write may have been applied all the same. -/
inductive Event
  | call (worker : ℕ) (input : DurableRateLimitInput)
  | get (worker : ℕ)
  | write (worker : ℕ)
  | throws (worker : ℕ) (applied : Bool)

section Workers

variable (rateLimitStorageKey : String → RateLimitBucket → String) (limits : RateLimitBucket → ℕ)

def Limiter.get (s : Limiter) (worker : ℕ) (c : Call) : Limiter :=
  let current := s.rateLimits (rateLimitStorageKey c.input.actorKey c.input.bucket)
  { s with calls := update s.calls worker (some { c with current := some current }) }

/-- After the eighth attempt the call throws. -/
def Call.continue (c : Call) : Option Call :=
  if c.attempt + 1 < 8 then some { c with attempt := c.attempt + 1, current := none } else none

def Limiter.write (s : Limiter) (worker : ℕ) (c : Call) (current : Counter) : Limiter :=
  let key := rateLimitStorageKey c.input.actorKey c.input.bucket
  let written := attemptWrite c.input current (s.rateLimits key)
  { rateLimits := update s.rateLimits key written.1
    calls := update s.calls worker (if written.2.isSome then none else c.continue)
    results := (written.2.map (c.input, ·)).toList ++ s.results }

/-- The row without the answer, when the write was applied. -/
def Limiter.throws (s : Limiter) (worker : ℕ) (c : Call) (applied : Bool) : Limiter :=
  let key := rateLimitStorageKey c.input.actorKey c.input.bucket
  let row := s.rateLimits key
  { s with
    rateLimits := update s.rateLimits key <|
      match c.current, applied with
      | some current, true => (attemptWrite c.input current row).1
      | _, _ => row
    calls := update s.calls worker none }

/-- Any number of workers; the limit of a bucket is fixed and the times of the requests are arbitrary. -/
def limiterSystem : System Limiter Event where
  init s := s = {}
  step s e s' := match e with
    | .call worker input => s.calls worker = none ∧ input.limit = limits input.bucket ∧
        s' = { s with calls := update s.calls worker (some { input }) }
    | .get worker => ∃ c, s.calls worker = some c ∧ c.current = none ∧ s' = s.get rateLimitStorageKey worker c
    | .write worker => ∃ c current, s.calls worker = some c ∧ c.current = some current ∧
        s' = s.write rateLimitStorageKey worker c current
    | .throws worker applied => ∃ c, s.calls worker = some c ∧ s' = s.throws rateLimitStorageKey worker c applied

end Workers

/-- The call was allowed, for this actor, bucket and window. -/
def granted (actorKey : String) (bucket : RateLimitBucket) (start : ℤ) (r : DurableRateLimitInput × RateLimitDecision) :
    Bool :=
  r.2.allowed && r.1.actorKey == actorKey && r.1.bucket == bucket && r.1.start == start

/-- The row accounts for `n` grants in a window: they are at most its count while it is in that window, and it is in no
earlier window once there are any. -/
structure Accounts (limit n : ℕ) (start : ℤ) (row : Counter) : Prop where
  le_limit : n ≤ limit
  le_count : row.windowStartMs = some start → n ≤ row.count.getD 0
  reached : 0 < n → ∃ current, row.windowStartMs = some current ∧ start ≤ current

variable {input : DurableRateLimitInput} {current row : Counter} {limit n : ℕ} {start : ℤ}
  {key : String → RateLimitBucket → String} {limits : RateLimitBucket → ℕ} {s s' : Limiter} {e : Event}

theorem Accounts.attemptWrite (h : Accounts limit n start row) :
    Accounts limit n start (attemptWrite input current row).1 := by
  obtain ⟨hlimit, hcount, hreached⟩ := h
  unfold RateLimits.attemptWrite
  dsimp only
  split_ifs <;> constructor <;> grind

/-- A grant is counted: it either opens the window or finds the count below the limit. -/
theorem Accounts.grant {decision : RateLimitDecision} (h : Accounts input.limit n input.start row)
    (hlimit : 1 ≤ input.limit) (hdecision : (RateLimits.attemptWrite input current row).2 = some decision)
    (hallowed : decision.allowed = true) :
    Accounts input.limit (n + 1) input.start (RateLimits.attemptWrite input current row).1 := by
  obtain ⟨hle, hcount, hreached⟩ := h
  obtain ⟨_, _ | count⟩ := row <;> unfold RateLimits.attemptWrite at hdecision ⊢
  all_goals
    dsimp only at hdecision ⊢
    split_ifs at hdecision ⊢ <;> constructor <;> grind

theorem start_le_attemptWrite (h : row.windowStartMs = some start) :
    ∃ start', (attemptWrite input current row).1.windowStartMs = some start' ∧ start ≤ start' := by
  unfold attemptWrite
  dsimp only
  split_ifs <;> grind

/-- Between the steps, every row accounts for the grants of each window and actor that use it. -/
structure Counted (key : String → RateLimitBucket → String) (limits : RateLimitBucket → ℕ) (s : Limiter) : Prop where
  limit : ∀ w c, s.calls w = some c → c.input.limit = limits c.input.bucket
  accounts : ∀ actor bucket start, Accounts (limits bucket) (s.results.countP (granted actor bucket start)) start
    (s.rateLimits (key actor bucket))

theorem countP_write {worker : ℕ} {c : Call} {actor : String} {bucket : RateLimitBucket} :
    (s.write key worker c current).results.countP (granted actor bucket start) =
      (if (attemptWrite c.input current (s.rateLimits (key c.input.actorKey c.input.bucket))).2.any
        fun decision => granted actor bucket start (c.input, decision) then 1 else 0) +
      s.results.countP (granted actor bucket start) := by
  rw [Limiter.write, List.countP_append]
  congr 1
  cases (attemptWrite c.input current (s.rateLimits (key c.input.actorKey c.input.bucket))).2 <;> simp [List.countP_cons]

theorem Counted.write {worker : ℕ} {c : Call} (h : Counted key limits s) (hlimits : ∀ b, 1 ≤ limits b)
    (hc : s.calls worker = some c) : Counted key limits (s.write key worker c current) := by
  have hlimit := h.limit worker c hc
  constructor
  · intro w d hd
    have := h.limit w d
    simp only [Limiter.write, Call.continue, update_apply] at hd
    grind
  · intro actor bucket start
    have hold := h.accounts actor bucket start
    rw [countP_write]
    split
    · next hgrant =>
      obtain ⟨decision, hdecision, hgrant⟩ := (Option.any_eq_true _ _).mp hgrant
      simp only [granted, Bool.and_eq_true, beq_iff_eq] at hgrant
      obtain ⟨⟨⟨hallowed, rfl⟩, rfl⟩, rfl⟩ := hgrant
      rw [Nat.add_comm, ← hlimit]
      rw [← hlimit] at hold
      simpa [Limiter.write] using hold.grant (hlimit ▸ hlimits _) hdecision hallowed
    · rw [Nat.zero_add, Limiter.write]
      dsimp only
      rw [update_apply]
      split
      · next hkey => exact (hkey ▸ hold).attemptWrite
      · exact hold

/-- What the row of a call is after its store error: as it was, or as the write leaves it. -/
theorem throws_row (s : Limiter) (worker : ℕ) (c : Call) (applied : Bool) {P : Counter → Prop} (k : String)
    (hrow : P (s.rateLimits k)) (hwrite : ∀ current, P (attemptWrite c.input current (s.rateLimits k)).1) :
    P ((s.throws key worker c applied).rateLimits k) := by
  simp only [Limiter.throws, update_apply]
  split
  · next hk =>
    subst hk
    split
    · exact hwrite _
    · exact hrow
  · exact hrow

theorem Counted.of_reachable (hlimits : ∀ b, 1 ≤ limits b) (h : (limiterSystem key limits).Reachable s) :
    Counted key limits s := by
  refine h.invariant ?_ fun s e s' _ ih hs => ?_
  · rintro _ rfl
    exact ⟨nofun, fun _ _ _ => ⟨Nat.zero_le _, fun _ => Nat.zero_le _, nofun⟩⟩
  · cases e with
    | call worker input =>
      obtain ⟨-, hlimit, rfl⟩ := hs
      refine ⟨fun w c hw => ?_, ih.accounts⟩
      have := ih.limit w c
      simp only [update_apply] at hw
      grind
    | get worker =>
      obtain ⟨c, hc, -, rfl⟩ := hs
      refine ⟨fun w d hw => ?_, ih.accounts⟩
      have := ih.limit w d
      have := ih.limit worker c hc
      simp only [Limiter.get, update_apply] at hw
      grind
    | write worker =>
      obtain ⟨c, current, hc, -, rfl⟩ := hs
      exact ih.write hlimits hc
    | throws worker applied =>
      obtain ⟨c, -, rfl⟩ := hs
      refine ⟨fun w d hw => ?_, fun actor bucket start => ?_⟩
      · have := ih.limit w d
        simp only [Limiter.throws, update_apply] at hw
        grind
      · have hold := ih.accounts actor bucket start
        exact throws_row s worker c applied _ hold fun _ => hold.attemptWrite

/-- **The durable limit.** However the reads and writes of the workers interleave and whatever times their requests
bear, an actor is granted at most its limit in each window of a bucket, and no step takes the stored start of a window
back. -/
theorem consumeRateLimit_bounded (hlimits : ∀ b, 1 ≤ limits b) (h : (limiterSystem key limits).Reachable s) :
    (∀ actor bucket start, s.results.countP (granted actor bucket start) ≤ limits bucket) ∧
    ∀ e s' k start, (limiterSystem key limits).step s e s' → (s.rateLimits k).windowStartMs = some start →
      ∃ start', (s'.rateLimits k).windowStartMs = some start' ∧ start ≤ start' := by
  refine ⟨fun actor bucket start => ((Counted.of_reachable hlimits h).accounts actor bucket start).le_limit, ?_⟩
  intro e s' k start hs hstart
  cases e with
  | call worker input =>
    obtain ⟨-, -, rfl⟩ := hs
    exact ⟨start, hstart, le_rfl⟩
  | get worker =>
    obtain ⟨c, -, -, rfl⟩ := hs
    exact ⟨start, hstart, le_rfl⟩
  | write worker =>
    obtain ⟨c, current, -, -, rfl⟩ := hs
    rw [Limiter.write]
    dsimp only
    rw [update_apply]
    split
    · next hk => exact start_le_attemptWrite (hk ▸ hstart)
    · exact ⟨start, hstart, le_rfl⟩
  | throws worker applied =>
    obtain ⟨c, -, rfl⟩ := hs
    exact throws_row (P := fun row => ∃ start', row.windowStartMs = some start' ∧ start ≤ start') s worker c applied k
      ⟨start, hstart, le_rfl⟩ fun _ => start_le_attemptWrite hstart

/-- Two workers race for the one call of a window: the first is granted it, the second is refused after another read. -/
theorem consumeRateLimit_bounded_race :
    ∃ s, (limiterSystem (fun actor _ => actor) fun _ => 1).Reachable s ∧
      s.results.map (·.2.allowed) = [false, true] ∧ s.results.countP (granted "actor" .login 60000) = 1 ∧
      ∀ actor bucket start, s.results.countP (granted actor bucket start) ≤ 1 := by
  let input : DurableRateLimitInput := ⟨"actor", .login, 1, 60, 61000⟩
  have hcalls := System.Reachable.init (M := limiterSystem (fun actor _ => actor) fun _ => 1) rfl
    |>.step (a := Event.call 0 input) ⟨rfl, rfl, rfl⟩ |>.step (a := Event.call 1 input) ⟨rfl, rfl, rfl⟩
  have hreads := hcalls.step (a := Event.get 0) ⟨⟨input, 0, none⟩, rfl, rfl, rfl⟩
    |>.step (a := Event.get 1) ⟨⟨input, 0, none⟩, rfl, rfl, rfl⟩
  have hwrites := hreads.step (a := Event.write 0) ⟨_, _, rfl, rfl, rfl⟩ |>.step (a := Event.write 1) ⟨_, _, rfl, rfl, rfl⟩
  have hrefused := hwrites.step (a := Event.get 1) ⟨⟨input, 1, none⟩, rfl, rfl, rfl⟩
    |>.step (a := Event.write 1) ⟨_, _, rfl, rfl, rfl⟩
  exact ⟨_, hrefused, by decide, by decide, (consumeRateLimit_bounded (fun _ => le_rfl) hrefused).1⟩

end AutoHarness.RateLimits

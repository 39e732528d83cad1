import Mathlib.Data.List.Basic
import AutoHarness.Foundation.Transition

/-! One record of the Slack outbox and the workers that claim it. The rescheduling write counts an attempt, under the
lease; the claim counts nothing, also when it takes over a record whose lease has expired. -/

namespace AutoHarness.Plane.SlackOutbox
open Foundation Function

inductive SlackDeliveryStatus where
  | pending | delivering | sent | dead
deriving DecidableEq

structure SlackDeliveryRecord where
  status : SlackDeliveryStatus := .pending
  attempts : ℕ := 0
  maxAttempts : ℕ
  nextAttemptAt : ℕ
  leaseToken : Option ℕ := none

variable (token : ℕ)

/-- A due record in the expected status is leased to `token`. -/
def claim (expected : SlackDeliveryStatus) (now leaseExpiresAt : ℕ) (r : SlackDeliveryRecord) :
    Option SlackDeliveryRecord :=
  if r.status = expected ∧ r.nextAttemptAt ≤ now then
    some { r with status := .delivering, leaseToken := some token, nextAttemptAt := leaseExpiresAt }
  else none

/-- Only the token of the current lease may write. -/
def updateClaimed (change : SlackDeliveryRecord → SlackDeliveryRecord) (r : SlackDeliveryRecord) :
    Option SlackDeliveryRecord :=
  if r.status = .delivering ∧ r.leaseToken = some token then some { change r with leaseToken := none } else none

def complete := updateClaimed token fun r => { r with status := .sent }

def reschedule (dead : Bool) (attempts nextAttemptAt : ℕ) :=
  updateClaimed token fun r =>
    { r with status := if dead then .dead else .pending, attempts := attempts, nextAttemptAt := nextAttemptAt }

/-- Where a call of `processSlackOutboxOnce` stands. A worker that stops stays where it is. -/
inductive Phase where
  | claimed | delivering | delivered | failed | done
deriving DecidableEq

/-- A call of `processSlackOutboxOnce`, with the record as it claimed it. -/
structure Worker where
  phase : Phase := .claimed
  claimed : SlackDeliveryRecord

/-- The record, the calls by their lease tokens, and the number of deliver calls so far. -/
structure Outbox where
  record : SlackDeliveryRecord
  workers : ℕ → Option Worker := fun _ => none
  deliverCalls : ℕ := 0

/-- The claim of a due record, what its dependencies come to, the answer of the transport, and the writes. Workers read
their own clocks and take their delays from their options, so the times are free. The write of a success may be answered
by an error, whether it was `applied` or not. -/
inductive Event where
  | claimDue (token now leaseExpiresAt : ℕ) (takeOver : Bool)
  | ready (token : ℕ)
  | notReady (token : ℕ) (dead : Bool) (nextAttemptAt : ℕ)
  | answered (token : ℕ) (success : Bool)
  | complete (token : ℕ)
  | completeThrows (token : ℕ) (applied : Bool)
  | reschedule (token nextAttemptAt : ℕ)

namespace Outbox

def at_ (s : Outbox) (phase : Phase) (go : Worker → Outbox) : Option Outbox :=
  ((s.workers token).filter (·.phase = phase)).map go

def move (s : Outbox) (w : Worker) (phase : Phase) : Outbox :=
  { s with workers := update s.workers token (some { w with phase := phase }) }

/-- One request of a worker; an event that cannot happen has no successor. -/
def next (s : Outbox) : Event → Option Outbox
  | .claimDue token now leaseExpiresAt takeOver =>
    if (s.workers token).isSome then none
    else (claim token (if takeOver then .delivering else .pending) now leaseExpiresAt s.record).map fun r =>
      { s with record := r, workers := update s.workers token (some ⟨.claimed, r⟩) }
  | .ready token => s.at_ token .claimed fun w =>
      { s.move token w .delivering with deliverCalls := s.deliverCalls + 1 }
  | .notReady token dead nextAttemptAt => s.at_ token .claimed fun w => { s.move token w .done with
      record := (SlackOutbox.reschedule token dead w.claimed.attempts nextAttemptAt s.record).getD s.record }
  | .answered token success => s.at_ token .delivering fun w => s.move token w (if success then .delivered else .failed)
  | .complete token => s.at_ token .delivered fun w =>
      match SlackOutbox.complete token s.record with
      | some r => { s.move token w .done with record := r }
      | none => s.move token w .failed
  | .completeThrows token applied => s.at_ token .delivered fun w => { s.move token w .failed with
      record := if applied then (SlackOutbox.complete token s.record).getD s.record else s.record }
  | .reschedule token nextAttemptAt => s.at_ token .failed fun w =>
      let attempts := w.claimed.attempts + 1
      { s.move token w .done with record := (SlackOutbox.reschedule token (w.claimed.maxAttempts ≤ attempts) attempts
          nextAttemptAt s.record).getD s.record }

theorem at_eq_some {s s' : Outbox} {token : ℕ} {phase : Phase} {go : Worker → Outbox}
    (h : s.at_ token phase go = some s') : ∃ w, s.workers token = some w ∧ w.phase = phase ∧ go w = s' := by
  obtain ⟨w, hw, rfl⟩ := Option.map_eq_some_iff.mp h
  rw [Option.filter_eq_some_iff, decide_eq_true_eq] at hw
  exact ⟨w, hw.1, hw.2, rfl⟩

end Outbox

/-- The runs of one record from its insertion. -/
def outbox : System Outbox Event where
  init s := ∃ maxAttempts now, s = { record := { maxAttempts := maxAttempts, nextAttemptAt := now } }
  step s e s' := s.next e = some s'

/-- A claim of the step meets a record that no other worker had claimed, and that allows an attempt. -/
def Exclusive (s : Outbox) (e : Event) : Prop :=
  1 ≤ s.record.maxAttempts ∧ ∀ token now expires, e ≠ .claimDue token now expires true

/-- The invariant: a call that is not done holds the lease, or has had its success stored. -/
structure Inv (s : Outbox) : Prop where
  held : ∀ t w, s.workers t = some w → w.phase ≠ .done →
    (w.phase = .failed ∧ s.record.status = .sent) ∨ (s.record.status = .delivering ∧ s.record.leaseToken = some t ∧
      w.claimed.attempts = s.record.attempts ∧ w.claimed.maxAttempts = s.record.maxAttempts)
  left : 1 ≤ s.record.maxAttempts → s.record.status = .pending ∨ s.record.status = .delivering →
    s.record.attempts < s.record.maxAttempts
  claimed : ∀ t w, s.workers t = some w → w.phase = .claimed → s.deliverCalls ≤ s.record.attempts
  pending : s.record.status = .pending → s.deliverCalls ≤ s.record.attempts
  called : s.record.status = .delivering → s.deliverCalls ≤ s.record.attempts + 1
  bound : s.deliverCalls ≤ s.record.maxAttempts

theorem Inv.step {s s' : Outbox} {e : Event} (h : Inv s) (he : Exclusive s e)
    (hs : s.next e = some s') : Inv s' := by
  obtain ⟨hmax, hfresh⟩ := he
  obtain ⟨held, left, claimed, pending, called, bound⟩ := h
  cases e with
  | claimDue token now leaseExpiresAt takeOver =>
    cases takeOver with
    | true => exact absurd rfl (hfresh token now leaseExpiresAt)
    | false =>
      simp only [Outbox.next, claim, Bool.false_eq_true, if_false] at hs
      split_ifs at hs with hsome hdue
      · cases hs
        constructor <;> grind [update_apply]
      · cases hs
  | complete token =>
    obtain ⟨w, hw, hphase, rfl⟩ := Outbox.at_eq_some hs
    obtain ⟨hst, htoken, -⟩ := (held token w hw (by simp [hphase])).resolve_left (by simp [hphase])
    simp only [complete, updateClaimed, hst, htoken, and_self, if_true, Outbox.move]
    constructor <;> grind [update_apply]
  | _ =>
    obtain ⟨w, hw, hphase, rfl⟩ := Outbox.at_eq_some hs
    have hheld := held _ w hw
    simp only [complete, reschedule, updateClaimed, Outbox.move]
    constructor <;> grind [update_apply]

/-- **Deliver calls are bounded** in every run whose claims are all of records that nobody had claimed, of which at least
one attempt is allowed. -/
theorem deliverCalls_bounded {s : Outbox} (h : (outbox.restrict Exclusive).Reachable s) :
    s.deliverCalls ≤ s.record.maxAttempts := by
  have hinv : Inv s := by
    induction h with
    | init hs =>
      obtain ⟨maxAttempts, now, rfl⟩ := hs
      exact ⟨nofun, fun hmax _ => hmax, nofun, fun _ => Nat.le_refl 0, nofun, Nat.zero_le _⟩
    | step _ hs ih => exact ih.step hs.1 hs.2
  exact hinv.bound

def once : Outbox := { record := { maxAttempts := 1, nextAttemptAt := 0 } }

theorem deliverCalls_bounded_once : ∃ s, (outbox.restrict Exclusive).Reachable s ∧ s.deliverCalls = 1 ∧
    s.deliverCalls ≤ s.record.maxAttempts := by
  have h₁ := (System.Reachable.init ⟨1, 0, rfl⟩ : (outbox.restrict Exclusive).Reachable once).step
    (a := .claimDue 0 0 30 false) ⟨⟨Nat.le_refl 1, nofun⟩, rfl⟩
  have h₂ := h₁.step (a := .ready 0) ⟨⟨Nat.le_refl 1, nofun⟩, rfl⟩
  exact ⟨_, h₂, rfl, deliverCalls_bounded h₂⟩

/-- The worker of the only attempt is slower than its lease, and the claim that takes the record over counts nothing. -/
theorem deliverCalls_exceed : ∃ s, outbox.Reachable s ∧ s.record.maxAttempts < s.deliverCalls := by
  have hrun : [.claimDue 0 0 30 false, .ready 0, .claimDue 1 30 60 true, .ready 1].foldlM Outbox.next once = some _ := rfl
  exact ⟨_, System.Reachable.foldlM (fun _ _ _ h => h) (.init ⟨1, 0, rfl⟩) hrun, Nat.lt_succ_self 1⟩

end AutoHarness.Plane.SlackOutbox

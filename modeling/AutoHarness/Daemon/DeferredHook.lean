import AutoHarness.Foundation.Transition

/-! One attempt whose terminal hook was deferred: the claim it retains, its pending status, and the handlers that
settle them. The hook runs between two steps. -/

namespace AutoHarness.Daemon
open Foundation Option Bool

/-- What `runClaimed` holds for the attempt. -/
inductive Claim
  | mainCheckout (repositoryId : String)
  | worktree (worktreeId : String)
deriving DecidableEq, Repr

/-- The closure of `retainClaimForDeferredTerminalHook`: not called, its promise running, or settled. -/
inductive Retained
  | unsettled
  | running (deadlineAtMs : Option Nat) (hookStarted : Bool)
  | settled
deriving DecidableEq, Repr

/-- The settlement promise of a pending status. `handoff`: the acknowledgement behind it carried a handoff id. -/
inductive Settlement
  | waitingForSlot (deadlineAtMs : Option Nat)
  | settling (handoff : Bool)
deriving DecidableEq, Repr

/-- `session:status-acknowledged`, and the clock. `expiresAt` is the parsed handoff expiry, when finite. -/
structure StatusAcknowledged where
  retryAccepted : Bool := false
  handoff : Bool := false
  expiresAt : Option Nat := none
  now : Nat
deriving DecidableEq, Repr

/-- `session:terminal-hook`, the clock when it is processed, and whether the handoff buffer is full. -/
structure TerminalHook where
  expiresAt : Option Nat
  now : Nat
  bufferFull : Bool := false
deriving DecidableEq, Repr

/-- An attempt whose hook waits for the answer to its report. -/
structure Attempt where
  claim : Claim
  retained : Retained := .unsettled
  /-- The release calls made, the latest first. -/
  released : List Claim := []
  hookStarts : Nat := 0
  /-- The entry of `pendingTerminalStatus`, and its fields. -/
  pending : Bool := true
  settlement : Option Settlement := none
  acknowledged : Bool := false
  aborted : Bool := false
  /-- `resolveDeferredDisposition` was called. -/
  disposed : Bool := false
  /-- The state of `runAssign`: the status send settled, it awaits a settlement of its own, it returned. -/
  sent : Bool := false
  settles : Bool := false
  returned : Bool := false
  /-- An entry of `pendingTerminalHookHandoffs`, and a hook it may still start. -/
  recorded : Bool := false
  handoffHook : Bool := false
  /-- Whether the first acknowledgement refused the hook. -/
  firstAcknowledgement : Option Bool := none
deriving DecidableEq, Repr

/-- A handoff that has no expiry or is past it. -/
def StatusAcknowledged.unusable (m : StatusAcknowledged) : Bool :=
  m.handoff && !m.retryAccepted && !m.expiresAt.any (m.now < ·)

/-- The hook is not to be run. -/
def StatusAcknowledged.refuses (m : StatusAcknowledged) : Bool :=
  m.retryAccepted || m.unusable

def StatusAcknowledged.deadline (m : StatusAcknowledged) : Option Nat :=
  if m.handoff then m.expiresAt else none

namespace Attempt

/-- Without the hook nothing is awaited, and the release follows at once. -/
def settleDeferredTerminalHook (s : Attempt) (runHook : Bool) (deadlineAtMs : Option Nat) : Attempt :=
  match s.retained with
  | .unsettled =>
    if runHook then { s with retained := .running deadlineAtMs false }
    else { s with retained := .settled, released := s.claim :: s.released }
  | _ => s

def finishPendingTerminalStatus (s : Attempt) : Attempt :=
  if s.retained = .settled then { s with pending := s.pending && !s.acknowledged, disposed := true } else s

def settlementOver (s : Attempt) : Attempt :=
  if s.retained = .settled then
    finishPendingTerminalStatus
      { s with recorded := s.recorded || decide (s.settlement = some (.settling true)) }
  else s

/-- `acknowledge` of the pending status. -/
def acknowledge (s : Attempt) (m : StatusAcknowledged) : Attempt :=
  if m.unusable then { s with pending := false, disposed := true }
  else
    match s.settlement with
    | some (.waitingForSlot _) => s
    | some (.settling _) => finishPendingTerminalStatus { s with acknowledged := true }
    | none =>
      if m.retryAccepted then
        finishPendingTerminalStatus
          (settleDeferredTerminalHook { s with settlement := some (.settling false), acknowledged := true } false none)
      else { s with settlement := some (.waitingForSlot m.deadline), acknowledged := true }

def handleStatusAcknowledged (s : Attempt) (m : StatusAcknowledged) : Attempt :=
  { (if s.pending then s.acknowledge m else s) with
    firstAcknowledgement := s.firstAcknowledgement.or (some m.refuses) }

def acquireExecutionSlot (s : Attempt) : Option Attempt :=
  match s.settlement with
  | some (.waitingForSlot deadline) =>
    if s.aborted then none
    else some (settlementOver
      (settleDeferredTerminalHook { s with settlement := some (.settling deadline.isSome) } true deadline))
  | _ => none

def accepts (s : Attempt) (m : TerminalHook) : Bool :=
  m.expiresAt.any (m.now < ·) && !s.recorded && !m.bufferFull

/-- A pending status settles its own hook; without one the handoff starts the hook. -/
def handleTerminalHookHandoff (s : Attempt) (m : TerminalHook) : Attempt :=
  if !s.accepts m then s
  else if !s.pending then { s with recorded := true, handoffHook := true }
  else
    match s.settlement with
    | some _ => { s with recorded := true }
    | none =>
      finishPendingTerminalStatus
        (settleDeferredTerminalHook { s with recorded := true, settlement := some (.settling false) } true m.expiresAt)

/-- The age-out of `retryPendingTerminalStatuses`, and `discardSupersededTerminalStatuses`. -/
def giveUp (s : Attempt) : Attempt :=
  if s.pending then
    finishPendingTerminalStatus (settleDeferredTerminalHook { s with pending := false, aborted := true } false none)
  else s

/-- The end of the status send in `runAssign`. -/
def sendSettles (s : Attempt) : Option Attempt :=
  if s.sent then none
  else if s.pending then some { s with sent := true }
  else some (finishPendingTerminalStatus
    (settleDeferredTerminalHook { s with sent := true, settles := true } true none))

/-- Not after the deadline. -/
def startHook (s : Attempt) (now : Nat) : Option Attempt :=
  match s.retained with
  | .running deadline false =>
    if deadline.all (now < ·) then
      some { s with retained := .running deadline true, hookStarts := s.hookStarts + 1 }
    else none
  | _ => none

def finishSettlement (s : Attempt) : Option Attempt :=
  match s.retained with
  | .running _ _ =>
    some (settlementOver { s with retained := .settled, released := s.claim :: s.released })
  | _ => none

def startHandoffHook (s : Attempt) : Option Attempt :=
  if s.handoffHook then some { s with handoffHook := false, hookStarts := s.hookStarts + 1 } else none

/-- `runAssign` returns once the disposition is resolved and its own settlement, if any, is over. -/
def returnAssign (s : Attempt) : Option Attempt :=
  if s.sent && s.disposed && (!s.settles || decide (s.retained = .settled)) then some { s with returned := true }
  else none

end Attempt

inductive Event
  | statusAcknowledged (m : StatusAcknowledged)
  | slotAcquired
  | terminalHook (m : TerminalHook)
  /-- The completion of the handoff was acknowledged, or it expired. -/
  | handoffForgotten
  | agedOut
  | superseded
  | sendSettles
  | hookStarts (now : Nat)
  | settlementEnds
  | handoffHookStarts
  | assignReturns
deriving DecidableEq, Repr

def step (s : Attempt) : Event → Option Attempt
  | .statusAcknowledged m => some (s.handleStatusAcknowledged m)
  | .slotAcquired => s.acquireExecutionSlot
  | .terminalHook m => some (s.handleTerminalHookHandoff m)
  | .handoffForgotten => some { s with recorded := false }
  | .agedOut | .superseded => some s.giveUp
  | .sendSettles => s.sendSettles
  | .hookStarts now => s.startHook now
  | .settlementEnds => s.finishSettlement
  | .handoffHookStarts => s.startHandoffHook
  | .assignReturns => s.returnAssign

def daemon : System Attempt Event where
  init s := ∃ claim, s = { claim := claim }
  step s e s' := step s e = some s'

/-- The claim is released once by the end, and the hook starts at most once, never after a refusal. -/
structure Attempt.Settles (s : Attempt) : Prop where
  released : s.pending = false → s.returned = true → s.released = [s.claim]
  once : s.hookStarts ≤ 1
  refused : s.firstAcknowledgement = some true → s.hookStarts = 0

/-! ## When the handlers keep to it -/

/-- No hook ran or is about to. -/
def Attempt.quiet (s : Attempt) : Bool :=
  decide (s.hookStarts = 0) && !s.handoffHook &&
    match s.retained with
    | .running _ _ => false
    | _ => true

/-- A lease that cannot be used refuses only a settled status; a first refusal finds no hook; an accepted handoff
finds the status pending, or no hook and no refusal. -/
def Orderly (s : Attempt) : Event → Bool
  | .statusAcknowledged m =>
    (!s.pending || !m.unusable || decide (s.retained = .settled)) &&
      (s.firstAcknowledgement.isSome || !m.refuses || s.quiet)
  | .terminalHook m =>
    !s.accepts m || s.pending || (s.quiet && decide (s.firstAcknowledgement ≠ some true))
  | _ => true

/-- The claim is released once, and at most one hook starts. -/
def Attempt.Counted (s : Attempt) : Prop :=
  match s.retained with
  | .unsettled => s.released = [] ∧ s.hookStarts = 0
  | .running _ started => s.released = [] ∧ s.hookStarts = started.toNat
  | .settled => s.released = [s.claim] ∧ s.hookStarts ≤ 1

structure Attempt.Consistent (s : Attempt) : Prop where
  counted : s.Counted
  disposed : s.disposed = true → s.retained = .settled
  returned : s.returned = true → s.retained = .settled
  refused : s.firstAcknowledgement = some true → s.retained = .settled ∧ s.hookStarts = 0 ∧ s.handoffHook = false
  handoff : s.handoffHook = true → s.retained = .settled ∧ s.hookStarts = 0

/-- What holds between two steps. -/
structure Attempt.Sound (s : Attempt) : Prop extends s.Consistent where
  removed : s.pending = false → s.retained ≠ .unsettled
  settling : ∀ b, s.settlement = some (.settling b) → s.retained ≠ .unsettled
  waiting : ∀ d, s.settlement = some (.waitingForSlot d) → s.firstAcknowledgement.isSome = true

namespace Attempt

variable {s s' : Attempt} {m : StatusAcknowledged}

theorem Sound.settles (h : s.Sound) : s.Settles where
  released _ hret := by
    have hc := h.counted
    rw [Counted, h.returned hret] at hc
    exact hc.1
  once := by
    have hc := h.counted
    unfold Counted at hc
    split at hc
    · omega
    · have := toNat_le ‹Bool›
      omega
    · exact hc.2
  refused hf := (h.refused hf).2.1

/-! ### The closure and what waits for it -/

theorem settle_eq (b : Bool) (d : Option Nat) :
    ∃ r l, s.settleDeferredTerminalHook b d = { s with retained := r, released := l } := by
  unfold settleDeferredTerminalHook
  split
  · split
    all_goals exact ⟨_, _, rfl⟩
  · exact ⟨_, _, rfl⟩

theorem settle_called (b : Bool) (d : Option Nat) : (s.settleDeferredTerminalHook b d).retained ≠ .unsettled := by
  unfold settleDeferredTerminalHook
  split
  · split <;> simp
  · assumption

theorem Consistent.settle (h : s.Consistent) (b : Bool) (d : Option Nat) :
    (s.settleDeferredTerminalHook b d).Consistent := by
  unfold settleDeferredTerminalHook
  split
  · rename_i hr
    have hc := h.counted
    rw [Counted, hr] at hc
    split
    · exact {
        counted := hc
        disposed := fun hd => absurd (h.disposed hd) (by simp [hr])
        returned := fun hd => absurd (h.returned hd) (by simp [hr])
        refused := fun hd => absurd (h.refused hd).1 (by simp [hr])
        handoff := fun hd => absurd (h.handoff hd).1 (by simp [hr]) }
    · exact {
        counted := ⟨by simp [hc.1], by simp [hc.2]⟩
        disposed := fun _ => rfl
        returned := fun _ => rfl
        refused := fun hd => ⟨rfl, (h.refused hd).2⟩
        handoff := fun hd => ⟨rfl, (h.handoff hd).2⟩ }
  · exact h

theorem finish_eq : ∃ p x, s.finishPendingTerminalStatus = { s with pending := p, disposed := x } ∧
    (s.retained ≠ .settled → p = s.pending ∧ x = s.disposed) := by
  unfold finishPendingTerminalStatus
  split
  · exact ⟨_, _, rfl, fun hr => absurd ‹_› hr⟩
  · exact ⟨_, _, rfl, fun _ => ⟨rfl, rfl⟩⟩

theorem Consistent.finish (h : s.Consistent) : s.finishPendingTerminalStatus.Consistent := by
  unfold finishPendingTerminalStatus
  split
  · exact { h with disposed := fun _ => ‹_› }
  · exact h

theorem Sound.finish (h : s.Sound) : s.finishPendingTerminalStatus.Sound := by
  have hc := h.toConsistent.finish
  obtain ⟨p, x, heq, hsame⟩ := s.finish_eq
  rw [heq] at hc ⊢
  refine { hc with removed := fun hp hr => ?_, settling := h.settling, waiting := h.waiting }
  have hr' : s.retained ≠ .settled := by
    rw [show s.retained = .unsettled from hr]
    simp
  exact h.removed ((hsame hr').1 ▸ hp) hr

theorem Sound.over (h : s.Sound) : s.settlementOver.Sound := by
  unfold settlementOver
  split
  · exact Sound.finish { h with }
  · exact h

theorem Consistent.settle_sound (h : s.Consistent)
    (hw : ∀ d, s.settlement = some (.waitingForSlot d) → s.firstAcknowledgement.isSome = true) (b : Bool)
    (d : Option Nat) : (s.settleDeferredTerminalHook b d).Sound where
  toConsistent := h.settle b d
  removed _ := settle_called b d
  settling _ _ := settle_called b d
  waiting d' := by
    obtain ⟨r, l, heq⟩ := s.settle_eq b d
    rw [heq]
    exact hw d'

/-! ### The handlers -/

section

variable (h : s.Sound)
include h

theorem Sound.giveUp : s.giveUp.Sound := by
  unfold Attempt.giveUp
  split
  · refine Sound.finish (Consistent.settle_sound ?_ ?_ false none)
    · exact { h.toConsistent with }
    · exact h.waiting
  · exact h

theorem Sound.sendSettles (hs : s.sendSettles = some s') : s'.Sound := by
  unfold Attempt.sendSettles at hs
  split at hs
  · cases hs
  · split at hs
    · cases hs
      exact { h with }
    · cases hs
      refine Sound.finish (Consistent.settle_sound ?_ ?_ true none)
      · exact { h.toConsistent with }
      · exact h.waiting

theorem Sound.acquireExecutionSlot (hs : s.acquireExecutionSlot = some s') : s'.Sound := by
  unfold Attempt.acquireExecutionSlot at hs
  split at hs
  · split at hs
    · cases hs
    · cases hs
      refine Sound.over (Consistent.settle_sound ?_ (fun _ hd => by cases hd) true _)
      exact { h.toConsistent with }
  · cases hs

theorem Sound.startHook {now : Nat} (hs : s.startHook now = some s') : s'.Sound := by
  unfold Attempt.startHook at hs
  split at hs
  · rename_i deadline hr
    split at hs
    · cases hs
      have hc := h.counted
      rw [Counted, hr] at hc
      have hne : s.retained ≠ .settled := by simp [hr]
      exact {
        counted := ⟨hc.1, by simp [hc.2]⟩
        disposed := fun hd => absurd (h.disposed hd) hne
        returned := fun hd => absurd (h.returned hd) hne
        refused := fun hd => absurd (h.refused hd).1 hne
        handoff := fun hd => absurd (h.handoff hd).1 hne
        removed := fun _ => by simp
        settling := fun _ _ => by simp
        waiting := h.waiting }
    · cases hs
  · cases hs

theorem Sound.finishSettlement (hs : s.finishSettlement = some s') : s'.Sound := by
  unfold Attempt.finishSettlement at hs
  split at hs
  · rename_i deadline started hr
    cases hs
    have hc := h.counted
    rw [Counted, hr] at hc
    have hne : s.retained ≠ .settled := by simp [hr]
    have hle := started.toNat_le
    refine Sound.over ?_
    exact {
      counted := ⟨by simp [hc.1], show s.hookStarts ≤ 1 by omega⟩
      disposed := fun _ => rfl
      returned := fun _ => rfl
      refused := fun hd => absurd (h.refused hd).1 hne
      handoff := fun hd => absurd (h.handoff hd).1 hne
      removed := fun _ => by simp
      settling := fun _ _ => by simp
      waiting := h.waiting }
  · cases hs

theorem Sound.startHandoffHook (hs : s.startHandoffHook = some s') : s'.Sound := by
  unfold Attempt.startHandoffHook at hs
  split at hs
  · rename_i hh
    cases hs
    obtain ⟨hr, hstarts⟩ := h.handoff hh
    have hc := h.counted
    rw [Counted, hr] at hc
    refine { h with counted := ?_, refused := fun hd => ?_, handoff := fun hd => (by cases hd) }
    · simp only [Counted, hr]
      exact ⟨hc.1, by omega⟩
    · exact absurd hh (by simp [(h.refused hd).2.2])
  · cases hs

theorem Sound.returnAssign (hs : s.returnAssign = some s') : s'.Sound := by
  unfold Attempt.returnAssign at hs
  split at hs
  · rename_i hg
    cases hs
    simp only [Bool.and_eq_true] at hg
    exact { h with returned := fun _ => h.disposed hg.1.2 }
  · cases hs

end

theorem quiet_iff : s.quiet = true ↔ s.hookStarts = 0 ∧ s.handoffHook = false ∧ ∀ d b, s.retained ≠ .running d b := by
  unfold quiet
  cases s.retained <;> simp

theorem Sound.handleTerminalHookHandoff (h : s.Sound) {m : TerminalHook}
    (hok : Orderly s (.terminalHook m) = true) : (s.handleTerminalHookHandoff m).Sound := by
  unfold Attempt.handleTerminalHookHandoff
  split
  · exact h
  · rename_i hacc
    split
    · rename_i hp
      rw [Bool.not_eq_true'] at hp
      simp only [Orderly, hacc, hp, Bool.false_or, Bool.and_eq_true, decide_eq_true_eq] at hok
      obtain ⟨hquiet, hfirst⟩ := hok
      obtain ⟨hstarts, -, hrun⟩ := quiet_iff.mp hquiet
      have hr : s.retained = .settled := by
        cases hr : s.retained with
        | unsettled => exact absurd hr (h.removed hp)
        | running d b => exact absurd hr (hrun d b)
        | settled => rfl
      exact { h with refused := fun hd => absurd hd hfirst, handoff := fun _ => ⟨hr, hstarts⟩ }
    · split
      · exact { h with }
      · refine Sound.finish (Consistent.settle_sound ?_ (fun _ hd => by cases hd) true _)
        exact { h.toConsistent with }

/-! ### The acknowledgement -/

/-- What an acknowledgement keeps: all but the slot wait, which the note of it accounts for. -/
structure Noted (s : Attempt) : Prop extends s.Consistent where
  removed : s.pending = false → s.retained ≠ .unsettled
  settling : ∀ b, s.settlement = some (.settling b) → s.retained ≠ .unsettled

theorem Sound.noted (h : s.Sound) : s.Noted := { h with }

theorem Noted.sound (h : s.Noted) {refuses : Bool} (hr : s.firstAcknowledgement = none → refuses = true →
      s.retained = .settled ∧ s.hookStarts = 0 ∧ s.handoffHook = false) :
    Sound { s with firstAcknowledgement := s.firstAcknowledgement.or (some refuses) } := by
  refine { h with refused := fun hd => ?_, waiting := fun _ _ => ?_ }
  · cases hf : s.firstAcknowledgement with
    | some b =>
      simp only [hf, some_or] at hd
      exact h.refused (hf.trans hd)
    | none =>
      simp only [hf, none_or, some.injEq] at hd
      exact hr hf hd
  · cases s.firstAcknowledgement <;> rfl

theorem Sound.acknowledge (h : s.Sound) (hu : m.unusable = true → s.retained = .settled) : (s.acknowledge m).Noted := by
  unfold Attempt.acknowledge
  split
  · have hr := hu ‹_›
    exact { h with disposed := fun _ => hr, removed := fun _ => (by simp [hr]) }
  · split
    · exact h.noted
    · refine Sound.noted (Sound.finish ?_)
      exact { h with }
    · split
      · refine Sound.noted (Sound.finish (Consistent.settle_sound ?_ (fun _ hd => by cases hd) false none))
        exact { h.toConsistent with }
      · exact { h with settling := fun _ hd => (by cases hd) }

theorem acknowledge_frame (m : StatusAcknowledged) : (s.acknowledge m).firstAcknowledgement = s.firstAcknowledgement ∧
      (s.acknowledge m).hookStarts = s.hookStarts ∧ (s.acknowledge m).handoffHook = s.handoffHook := by
  unfold Attempt.acknowledge
  split
  · exact ⟨rfl, rfl, rfl⟩
  · split
    · exact ⟨rfl, rfl, rfl⟩
    · obtain ⟨p, x, heq, -⟩ := finish_eq (s := { s with acknowledged := true })
      rw [heq]
      exact ⟨rfl, rfl, rfl⟩
    · split
      · obtain ⟨p, x, heq, -⟩ := finish_eq
          (s := settleDeferredTerminalHook { s with settlement := some (.settling false), acknowledged := true } false none)
        obtain ⟨r, l, hset⟩ := settle_eq
          (s := { s with settlement := some (.settling false), acknowledged := true }) false none
        rw [heq, hset]
        exact ⟨rfl, rfl, rfl⟩
      · exact ⟨rfl, rfl, rfl⟩

theorem Sound.acknowledge_refuses (h : s.Sound)
    (hu : m.unusable = true → s.retained = .settled) (hfirst : s.firstAcknowledgement = none)
    (hr : m.refuses = true) (hq : s.quiet = true) : (s.acknowledge m).retained = .settled := by
  obtain ⟨-, -, hrun⟩ := quiet_iff.mp hq
  unfold Attempt.acknowledge
  split
  · exact hu ‹_›
  · rename_i hnu
    have hretry : m.retryAccepted = true := by
      rw [StatusAcknowledged.refuses, or_eq_true] at hr
      exact hr.resolve_right hnu
    split
    · rename_i d hw
      have hsome := h.waiting d hw
      rw [hfirst] at hsome
      cases hsome
    · rename_i b hset
      obtain ⟨p, x, heq, -⟩ := finish_eq (s := { s with acknowledged := true })
      cases hret : s.retained with
      | unsettled => exact absurd hret (h.settling b hset)
      | running d c => exact absurd hret (hrun d c)
      | settled => rfl
    · rw [if_pos hretry]
      obtain ⟨p, x, heq, -⟩ := finish_eq
        (s := settleDeferredTerminalHook { s with settlement := some (.settling false), acknowledged := true } false none)
      rw [heq]
      cases hret : s.retained with
      | unsettled | settled => simp [settleDeferredTerminalHook]
      | running d c => exact absurd hret (hrun d c)

theorem Sound.handleStatusAcknowledged (h : s.Sound)
    (hok : Orderly s (.statusAcknowledged m) = true) : (s.handleStatusAcknowledged m).Sound := by
  simp only [Orderly, Bool.and_eq_true, or_eq_true, Bool.not_eq_true', decide_eq_true_eq] at hok
  obtain ⟨hlease, hquiet⟩ := hok
  have hq : s.firstAcknowledgement = none → m.refuses = true → s.quiet = true := by
    intro hnone hr
    simpa [hnone, hr] using hquiet
  unfold Attempt.handleStatusAcknowledged
  split
  · rename_i hp
    have hu : m.unusable = true → s.retained = .settled := by
      intro hu
      simpa [hp, hu] using hlease
    obtain ⟨hf, hs, hh⟩ := s.acknowledge_frame m
    rw [← hf]
    refine (h.acknowledge hu).sound fun hnone hr => ?_
    rw [hf] at hnone
    have hqs := hq hnone hr
    obtain ⟨hstarts, hhook, -⟩ := quiet_iff.mp hqs
    exact ⟨h.acknowledge_refuses hu hnone hr hqs, hs.trans hstarts, hh.trans hhook⟩
  · rename_i hp
    rw [not_eq_true] at hp
    refine h.noted.sound fun hnone hr => ?_
    obtain ⟨hstarts, hhook, hrun⟩ := quiet_iff.mp (hq hnone hr)
    refine ⟨?_, hstarts, hhook⟩
    cases hret : s.retained with
    | unsettled => exact absurd hret (h.removed hp)
    | running d b => exact absurd hret (hrun d b)
    | settled => rfl

/-! ### Whole runs -/

theorem Sound.step {e : Event} (h : s.Sound) (hok : Orderly s e = true) (hs : Daemon.step s e = some s') :
    s'.Sound := by
  cases e with
  | statusAcknowledged m =>
    cases hs
    exact h.handleStatusAcknowledged hok
  | slotAcquired => exact h.acquireExecutionSlot hs
  | terminalHook m =>
    cases hs
    exact h.handleTerminalHookHandoff hok
  | handoffForgotten =>
    cases hs
    exact { h with }
  | agedOut | superseded =>
    cases hs
    exact h.giveUp
  | sendSettles => exact h.sendSettles hs
  | hookStarts now => exact h.startHook hs
  | settlementEnds => exact h.finishSettlement hs
  | handoffHookStarts => exact h.startHandoffHook hs
  | assignReturns => exact h.returnAssign hs

theorem Sound.initial (claim : Claim) : Sound { claim := claim } where
  counted := ⟨rfl, rfl⟩
  disposed := nofun
  returned := nofun
  refused := nofun
  handoff := nofun
  removed := nofun
  settling := nofun
  waiting := nofun

end Attempt

/-- In every run of orderly steps the claim is released exactly once, and the hook starts at most once and never after
a refusal. -/
theorem deferredClaim_released {s : Attempt}
    (h : (daemon.restrict fun s e => Orderly s e = true).Reachable s) : s.Settles := by
  refine Attempt.Sound.settles (h.invariant (P := Attempt.Sound) ?_ ?_)
  · rintro _ ⟨claim, rfl⟩
    exact Attempt.Sound.initial claim
  · rintro t e t' - ht ⟨hok, hstep⟩
    exact ht.step hok hstep

/-- The events of a run, each taken where `ok` allows it. -/
def runEvents (ok : Attempt → Event → Bool) (s : Attempt) : List Event → Option Attempt
  | [] => some s
  | e :: es => if ok s e then (step s e).bind (runEvents ok · es) else none

theorem reachable_of_runEvents {ok : Attempt → Event → Bool} {s t : Attempt} {es : List Event}
    (hs : (daemon.restrict fun s e => ok s e = true).Reachable s) (hrun : runEvents ok s es = some t) :
    (daemon.restrict fun s e => ok s e = true).Reachable t := by
  induction es generalizing s with
  | nil =>
    cases hrun
    exact hs
  | cons e es ih =>
    simp only [runEvents] at hrun
    split at hrun
    · obtain ⟨s', hstep, hrest⟩ := bind_eq_some_iff.mp hrun
      exact ih (hs.step ⟨‹_›, hstep⟩) hrest
    · cases hrun

theorem exists_of_runEvents (ok : Attempt → Event → Bool) (es : List Event) (p : Attempt → Bool)
    (hp : (runEvents ok { claim := .worktree "w1" } es).any p = true) :
    ∃ s, (daemon.restrict fun s e => ok s e = true).Reachable s ∧ p s = true := by
  obtain ⟨s, hrun, hs⟩ := (any_eq_true _ _).mp hp
  exact ⟨s, reachable_of_runEvents (.init ⟨_, rfl⟩) hrun, hs⟩

/-- A handoff message that overlaps the hook starts no second one. -/
theorem deferredClaim_released_handoff :
    ∃ s, (daemon.restrict fun s e => Orderly s e = true).Reachable s ∧ s.pending = false ∧ s.returned = true ∧
      s.hookStarts = 1 ∧ s.Settles := by
  obtain ⟨s, h, hp⟩ := exists_of_runEvents Orderly
    [.sendSettles, .statusAcknowledged { handoff := true, expiresAt := some 9, now := 1 }, .slotAcquired, .hookStarts 2,
      .terminalHook { expiresAt := some 9, now := 3 }, .settlementEnds, .assignReturns]
    (fun s => !s.pending && s.returned && decide (s.hookStarts = 1)) (by decide)
  simp only [Bool.and_eq_true, Bool.not_eq_true', decide_eq_true_eq] at hp
  exact ⟨s, h, hp.1.1, hp.1.2, hp.2, deferredClaim_released h⟩

/-- An acknowledgement with an expired lease leaves the claim, or starts a refused hook; a late handoff starts the
hook again. -/
theorem deferredClaim_kept :
    (∃ s, daemon.Reachable s ∧ s.pending = false ∧ s.returned = true ∧ s.released = [] ∧ s.retained = .unsettled) ∧
    (∃ s, daemon.Reachable s ∧ s.firstAcknowledgement = some true ∧ s.hookStarts = 1) ∧
    ∃ s, daemon.Reachable s ∧ s.hookStarts = 2 := by
  refine ⟨?_, ?_, ?_⟩
  · obtain ⟨s, h, hp⟩ := exists_of_runEvents (fun _ _ => true)
      [.sendSettles, .statusAcknowledged { handoff := true, expiresAt := some 5, now := 6 }, .assignReturns]
      (fun s => !s.pending && s.returned && decide (s.released = []) && decide (s.retained = .unsettled)) (by decide)
    simp only [Bool.and_eq_true, Bool.not_eq_true', decide_eq_true_eq] at hp
    exact ⟨s, h.of_restrict, hp.1.1.1, hp.1.1.2, hp.1.2, hp.2⟩
  · obtain ⟨s, h, hp⟩ := exists_of_runEvents (fun _ _ => true)
      [.statusAcknowledged { handoff := true, expiresAt := some 5, now := 6 }, .sendSettles, .hookStarts 7]
      (fun s => decide (s.firstAcknowledgement = some true) && decide (s.hookStarts = 1)) (by decide)
    simp only [Bool.and_eq_true, decide_eq_true_eq] at hp
    exact ⟨s, h.of_restrict, hp.1, hp.2⟩
  · obtain ⟨s, h, hp⟩ := exists_of_runEvents (fun _ _ => true)
      [.sendSettles, .statusAcknowledged { now := 1 }, .slotAcquired, .hookStarts 2, .agedOut,
        .terminalHook { expiresAt := some 9, now := 3 }, .handoffHookStarts]
      (fun s => decide (s.hookStarts = 2)) (by decide)
    exact ⟨s, h.of_restrict, decide_eq_true_eq.mp hp⟩

end AutoHarness.Daemon

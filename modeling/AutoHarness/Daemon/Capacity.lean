import AutoHarness.Foundation.Transition
import Mathlib.Data.List.Count

/-! Execution capacity of one `DaemonLoop`. What occupies a slot is recomputed each time; some steps ask for a slot,
others let an attempt occupy one without asking. -/

namespace AutoHarness.Daemon.Capacity
open Foundation List Option
open Bool (and_eq_true not_eq_true' or_eq_true)

/-! ## The daemon -/

/-- `pending.settlement`. `finishes` says that an acknowledgement waits for its end, and then takes the status out. -/
inductive Settlement
  | none
  | waiting
  | cancelled
  | running (finishes : Bool)
deriving DecidableEq, Repr

/-- One attempt: its entry of `inflight`, `runAssign`, and its entry of `pendingTerminalStatus`. -/
structure Attempt where
  sessionId : String
  attemptId : String
  inflight : Bool := true
  executing : Bool := false
  aborted : Bool := false
  /-- The runner is done, and its deferred disposition is resolved. -/
  reported : Bool := false
  disposed : Bool := false
  /-- The status is in `pendingTerminalStatus`, and its fields. -/
  retained : Bool := false
  deferred : Bool := false
  settlement : Settlement := .none
  settlementOccupies : Bool := false
  claimedExecutionSlot : Bool := false
  controllerAborted : Bool := false
deriving DecidableEq, Repr

namespace Attempt

def live (w : Attempt) : Bool :=
  w.inflight && !w.aborted

/-- `pendingOccupiesAssignmentCapacity`. -/
def pendingOccupies (w : Attempt) : Bool :=
  !w.retained || w.settlementOccupies

/-- What `executingAssignmentCount` counts of the attempts in flight. -/
def occupies (w : Attempt) : Bool :=
  w.live && w.executing && w.pendingOccupies

/-- What `occupyingOrphanedDeferredSettlements` counts. -/
def orphaned (w : Attempt) : Bool :=
  w.retained && w.claimedExecutionSlot && !w.live

/-- The status leaves `pendingTerminalStatus`. A hook that has not started is settled without running. -/
def dropped (w : Attempt) : Attempt :=
  match w.settlement with
  | .running _ => { w with retained := false, controllerAborted := true, settlement := .running true }
  | _ => { w with retained := false, controllerAborted := true, settlement := .none, disposed := true }

end Attempt

structure DaemonLoop where
  attempts : List Attempt := []
  activeTerminalHookHandoffs : ℕ := 0
  settleDeferredOnCompletion : Bool := false

/-- What `session:status-acknowledged` says about a deferred hook. -/
inductive Disposition
  | retryAccepted
  | leaseUnusable
  | runHook
deriving DecidableEq, Repr

/-- Messages, timers, and the daemon's own steps, as far as they concern the attempt `i`. -/
inductive Event
  | assign (sessionId attemptId : String) (retryBufferFull : Bool)
  | cancel (sessionId : String) (attemptId : Option String)
  | abortInflight
  | acquireExecutionSlot (i : ℕ)
  | runEnds (i : ℕ) (deferred retryBufferFull : Bool)
  | unwinds (i : ℕ)
  | settlesItself (i : ℕ)
  | statusAcknowledged (i : ℕ) (disposition : Disposition)
  | acquireSettlement (i : ℕ)
  | settlementAborted (i : ℕ)
  | settlementEnds (i : ℕ)
  | statusExpired (i : ℕ)
  | terminalHook (sessionId : String)
  | startHandoff
  | endHandoff
  | prepareForShutdown
  | shutdownDisposes (i : ℕ)
  | resumeFromDrain
deriving DecidableEq, Repr

namespace DaemonLoop

def executingAssignmentCount (s : DaemonLoop) : ℕ :=
  s.attempts.countP (·.occupies) + s.attempts.countP (·.orphaned)

def activeAssignmentCount (s : DaemonLoop) : ℕ :=
  s.attempts.countP (fun w => w.live && w.pendingOccupies) + s.attempts.countP (·.orphaned)

def hasSpareExecutionCapacity (s : DaemonLoop) (maxConcurrentAssignments : ℕ) : Bool :=
  decide (s.executingAssignmentCount + s.activeTerminalHookHandoffs < maxConcurrentAssignments)

def each (s : DaemonLoop) (f : Attempt → Attempt) : DaemonLoop :=
  { s with attempts := s.attempts.map f }

def change (s : DaemonLoop) (i : ℕ) (f : Attempt → Option Attempt) : Option DaemonLoop := do
  let w ← s.attempts[i]?
  let w' ← f w
  return { s with attempts := s.attempts.set i w' }

def abortWhere (p : Attempt → Bool) (w : Attempt) : Attempt :=
  { w with aborted := w.aborted || (w.inflight && p w) }

def handleAssign (s : DaemonLoop) (maxConcurrentAssignments : ℕ) (sessionId attemptId : String)
    (retryBufferFull : Bool) : DaemonLoop :=
  if s.attempts.any fun w => w.inflight && w.sessionId == sessionId && w.attemptId == attemptId then s
  else
    -- `abortSupersededAttempts`
    let s₁ := s.each (abortWhere fun w => w.sessionId == sessionId && w.attemptId != attemptId)
    if maxConcurrentAssignments ≤ s₁.activeAssignmentCount + s₁.activeTerminalHookHandoffs || retryBufferFull then s₁
    else
      -- `discardSupersededTerminalStatuses`
      let s₂ := s₁.each fun w => if w.retained && w.sessionId == sessionId then w.dropped else w
      { s₂ with attempts := s₂.attempts ++ [{ sessionId, attemptId }] }

/-- `acknowledge` of a status that is in `pendingTerminalStatus`. -/
def acknowledge (disposition : Disposition) (w : Attempt) : Option Attempt :=
  if !w.retained then none
  else if !w.deferred then some { w with retained := false }
  else
    match disposition, w.settlement with
    | .leaseUnusable, _ => some { w with retained := false, disposed := true }
    | _, .waiting | _, .cancelled => some w
    | _, .running _ => some { w with settlement := .running true }
    | .retryAccepted, .none => some { w with settlement := .running true }
    | .runHook, .none =>
      if w.inflight then some { w with settlement := if w.controllerAborted then .cancelled else .waiting }
      else some { w with settlement := .running true, settlementOccupies := true, claimedExecutionSlot := true }

/-- The reconciliation of a handoff settles the session's deferred hook that nobody settles yet. -/
def reconcile (sessionId : String) (w : Attempt) : Attempt :=
  if w.retained && w.deferred && w.sessionId == sessionId && decide (w.settlement = .none) then
    { w with settlementOccupies := true, settlement := .running false }
  else w

/-- `prepareForShutdown` of a retained status with a deferred hook. -/
def drainAborted (w : Attempt) : Attempt :=
  if w.retained && w.deferred then
    { w with
      controllerAborted := true
      disposed := true
      settlement := if w.settlement = .waiting then .cancelled else w.settlement }
  else w

def next (maxConcurrentAssignments : ℕ) (s : DaemonLoop) : Event → Option DaemonLoop
  | .assign sessionId attemptId retryBufferFull =>
    some (s.handleAssign maxConcurrentAssignments sessionId attemptId retryBufferFull)
  | .cancel sessionId attemptId =>
    some (s.each (abortWhere fun w => w.sessionId == sessionId && attemptId.all (· == w.attemptId)))
  | .abortInflight => some (s.each (abortWhere fun _ => true))
  | .acquireExecutionSlot i =>
    if s.hasSpareExecutionCapacity maxConcurrentAssignments then
      s.change i fun w => if w.live && !w.executing then some { w with executing := true } else none
    else none
  | .runEnds i deferred retryBufferFull =>
    s.change i fun w =>
      if w.inflight && w.executing && !w.reported then
        some { w with
          reported := true, disposed := !deferred, deferred := deferred, retained := deferred || !retryBufferFull }
      else none
  | .unwinds i =>
    s.change i fun w => if w.inflight && (!w.reported || w.disposed) then some { w with inflight := false } else none
  -- the status send has settled and the status is gone: `runAssign` settles its deferred hook itself
  | .settlesItself i =>
    s.change i fun w =>
      if w.reported && w.deferred && !w.retained then some { w with disposed := true } else none
  | .statusAcknowledged i disposition => s.change i (acknowledge disposition)
  | .acquireSettlement i =>
    if s.hasSpareExecutionCapacity maxConcurrentAssignments then
      s.change i fun w =>
        if w.settlement = .waiting then
          some { w with
            executing := true, settlement := .running true, settlementOccupies := true, claimedExecutionSlot := true }
        else none
    else none
  -- the cancelled wait for a slot ends, and `finishPendingTerminalStatus` follows
  | .settlementAborted i =>
    s.change i fun w =>
      if w.settlement = .cancelled then
        some { w with settlement := .none, retained := false, disposed := true }
      else none
  | .settlementEnds i =>
    s.change i fun w =>
      match w.settlement with
      | .running finishes => some { w with retained := w.retained && !finishes, disposed := true }
      | _ => none
  | .statusExpired i => s.change i fun w => if w.retained then some w.dropped else none
  | .terminalHook sessionId => some (s.each (reconcile sessionId))
  | .startHandoff =>
    if s.hasSpareExecutionCapacity maxConcurrentAssignments && !s.settleDeferredOnCompletion then
      some { s with activeTerminalHookHandoffs := s.activeTerminalHookHandoffs + 1 }
    else none
  | .endHandoff =>
    if 0 < s.activeTerminalHookHandoffs then
      some { s with activeTerminalHookHandoffs := s.activeTerminalHookHandoffs - 1 }
    else none
  | .prepareForShutdown => some { s.each drainAborted with settleDeferredOnCompletion := true }
  | .shutdownDisposes i =>
    if s.settleDeferredOnCompletion then
      s.change i fun w => if w.reported && w.retained then some { w with disposed := true } else none
    else none
  -- `rearmPendingTerminalStatusSends`
  | .resumeFromDrain =>
    some { s.each (fun w => if w.retained then { w with controllerAborted := false } else w) with
      settleDeferredOnCompletion := false }

end DaemonLoop

def daemon (maxConcurrentAssignments : ℕ) : System DaemonLoop Event where
  init s := s = {}
  step s e s' := s.next maxConcurrentAssignments e = some s'

/-! ## Steps that ask, and steps that need not -/

namespace Attempt

/-- What `executingAssignmentCount` counts of an attempt, once. -/
def counted (w : Attempt) : Bool :=
  w.occupies || w.orphaned

/-- Its retained status has given the slot up. -/
def vacates (w : Attempt) : Bool :=
  w.live && w.executing && w.retained && !w.settlementOccupies

/-- The event takes the status of the attempt out of `pendingTerminalStatus`. -/
def leaves (w : Attempt) : Event → Bool
  | .statusAcknowledged _ disposition => !w.deferred || decide (disposition = .leaseUnusable)
  | .settlementEnds _ => decide (w.settlement = .running true)
  | .settlementAborted _ => true
  | .statusExpired _ => true
  | _ => false

def startsUnasked (w : Attempt) (disposition : Disposition) : Bool :=
  w.retained && w.deferred && decide (w.settlement = .none) && !w.inflight && decide (disposition = .runHook)

def awakens (sessionId : String) (w : Attempt) : Bool :=
  w.vacates && w.deferred && w.sessionId == sessionId && decide (w.settlement = .none)

end Attempt

namespace DaemonLoop

/-- A step that does not ask for a slot finds one. -/
def roomy (s : DaemonLoop) (maxConcurrentAssignments : ℕ) : Event → Bool
  | .terminalHook sessionId =>
    decide (s.executingAssignmentCount + s.activeTerminalHookHandoffs + s.attempts.countP (·.awakens sessionId) ≤
      maxConcurrentAssignments)
  | .statusAcknowledged i disposition =>
    s.hasSpareExecutionCapacity maxConcurrentAssignments || s.attempts[i]?.all fun w =>
      !(w.leaves (.statusAcknowledged i disposition) && w.vacates) && !w.startsUnasked disposition
  | .settlementEnds i =>
    s.hasSpareExecutionCapacity maxConcurrentAssignments ||
      s.attempts[i]?.all fun w => !(w.leaves (.settlementEnds i) && w.vacates)
  | .settlementAborted i | .statusExpired i =>
    s.hasSpareExecutionCapacity maxConcurrentAssignments || s.attempts[i]?.all fun w => !w.vacates
  | _ => true

end DaemonLoop

/-- What the flags of an attempt say about each other. -/
structure Sound (w : Attempt) : Prop where
  claimed : w.claimedExecutionSlot = true → w.settlementOccupies = true ∧ w.reported = true
  retained : w.retained = true → w.executing = true ∧ w.reported = true
  waiting : w.settlement = .waiting → w.reported = true

variable {cap i : ℕ} {s s' : DaemonLoop} {e : Event} {w w' : Attempt}

theorem executingCount_eq (s : DaemonLoop) : s.executingAssignmentCount = s.attempts.countP (·.counted) := by
  unfold DaemonLoop.executingAssignmentCount
  induction s.attempts with
  | nil => rfl
  | cons w l ih =>
    -- an orphaned settlement belongs to no live attempt
    have hne : ¬(w.occupies = true ∧ w.orphaned = true) := by
      simp only [Attempt.occupies, Attempt.orphaned, and_eq_true, not_eq_true', not_and]
      rintro ⟨⟨hlive, -⟩, -⟩ - hnot
      rw [hlive] at hnot
      cases hnot
    simp only [countP_cons, Attempt.counted, or_eq_true]
    simp only [Attempt.counted] at ih
    split_ifs <;> first | omega | simp_all

/-- One step: a newly counted attempt needs spare capacity. -/
structure Keeps (spare : Prop) (w w' : Attempt) : Prop where
  sound : Sound w'
  counted : w'.counted = true → w.counted = true ∨ spare

theorem Attempt.counted_iff : w.counted = true ↔
    (w.inflight = true ∧ w.aborted = false ∧ w.executing = true ∧ (w.retained = false ∨ w.settlementOccupies = true)) ∨
      (w.retained = true ∧ w.claimedExecutionSlot = true ∧ (w.inflight = false ∨ w.aborted = true)) := by
  simp only [counted, occupies, orphaned, live, pendingOccupies, or_eq_true, and_eq_true,
    not_eq_true', Bool.and_eq_false_iff, Bool.not_eq_false', and_assoc]

theorem Attempt.vacates_iff : w.vacates = true ↔
    w.inflight = true ∧ w.aborted = false ∧ w.executing = true ∧ w.retained = true ∧ w.settlementOccupies = false := by
  simp only [vacates, live, and_eq_true, not_eq_true', and_assoc]

theorem keeps_abort (h : Sound w) (p : Attempt → Bool) (spare : Prop) : Keeps spare w (DaemonLoop.abortWhere p w) where
  sound := ⟨h.claimed, h.retained, h.waiting⟩
  counted hc := by
    have hclaimed := h.claimed
    have hretained := h.retained
    rw [Attempt.counted_iff] at hc ⊢
    dsimp only [DaemonLoop.abortWhere] at hc
    grind

theorem keeps_unwinds (h : Sound w) (spare : Prop) : Keeps spare w { w with inflight := false } where
  sound := ⟨h.claimed, h.retained, h.waiting⟩
  counted hc := by
    have hclaimed := h.claimed
    have hretained := h.retained
    rw [Attempt.counted_iff] at hc ⊢
    grind

structure Same (w w' : Attempt) : Prop where
  inflight : w'.inflight = w.inflight
  executing : w'.executing = w.executing
  aborted : w'.aborted = w.aborted
  reported : w'.reported = w.reported
  settlementOccupies : w'.settlementOccupies = w.settlementOccupies
  claimed : w'.claimedExecutionSlot = w.claimedExecutionSlot

theorem Keeps.same {spare : Prop} (h : Sound w) (hs : Same w w') (hr : w'.retained = w.retained)
    (hwait : w'.settlement = .waiting → w.reported = true) : Keeps spare w w' where
  sound := by
    refine ⟨?_, ?_, fun hset => by rw [hs.reported]; exact hwait hset⟩
    · rw [hs.claimed, hs.settlementOccupies, hs.reported]
      exact h.claimed
    · rw [hr, hs.executing, hs.reported]
      exact h.retained
  counted hc := by
    refine .inl ?_
    rw [Attempt.counted_iff] at hc ⊢
    rwa [hs.inflight, hs.aborted, hs.executing, hs.settlementOccupies, hs.claimed, hr] at hc

theorem Keeps.leaves {spare : Prop} (h : Sound w) (hs : Same w w') (hr : w'.retained = false)
    (hwait : w'.settlement = .waiting → w.reported = true) (hroom : w.vacates = true → spare) : Keeps spare w w' where
  sound := by
    refine ⟨?_, fun hret => absurd (hr.symm.trans hret) nofun, fun hset => by rw [hs.reported]; exact hwait hset⟩
    rw [hs.claimed, hs.settlementOccupies, hs.reported]
    exact h.claimed
  counted hc := by
    rw [Attempt.vacates_iff] at hroom
    rw [Attempt.counted_iff, hs.inflight, hs.aborted, hs.executing, hr] at hc
    rw [Attempt.counted_iff]
    rcases hc with ⟨hin, hab, hex, -⟩ | ⟨hret, -⟩
    · cases hret : w.retained with
      | false => exact .inl (.inl ⟨hin, hab, hex, .inl rfl⟩)
      | true =>
        cases hocc : w.settlementOccupies with
        | true => exact .inl (.inl ⟨hin, hab, hex, .inr rfl⟩)
        | false => exact .inr (hroom ⟨hin, hab, hex, hret, hocc⟩)
    · cases hret

theorem keeps_dropped {spare : Prop} (h : Sound w) (hroom : w.vacates = true → spare) : Keeps spare w w.dropped := by
  unfold Attempt.dropped
  split
  all_goals exact .leaves h ⟨rfl, rfl, rfl, rfl, rfl, rfl⟩ rfl nofun hroom

theorem keeps_acknowledge {spare : Prop} {disposition : Disposition} (h : Sound w)
    (hw : DaemonLoop.acknowledge disposition w = some w')
    (hleaves : (w.leaves (.statusAcknowledged i disposition) && w.vacates) = true → spare)
    (hstarts : w.startsUnasked disposition = true → spare) : Keeps spare w w' := by
  rw [and_eq_true, Attempt.leaves, or_eq_true, not_eq_true', decide_eq_true_eq] at hleaves
  unfold DaemonLoop.acknowledge at hw
  split at hw
  · cases hw
  · next hretained =>
    have hret : w.retained = true := by simpa using hretained
    have hreported := (h.retained hret).2
    split at hw
    · next hdeferred =>
      cases hw
      exact .leaves h ⟨rfl, rfl, rfl, rfl, rfl, rfl⟩ rfl h.waiting fun hv => hleaves ⟨.inl (by simpa using hdeferred), hv⟩
    · next hdeferred =>
      split at hw
      · cases hw
        exact .leaves h ⟨rfl, rfl, rfl, rfl, rfl, rfl⟩ rfl h.waiting fun hv => hleaves ⟨.inr rfl, hv⟩
      iterate 4
        · cases hw
          exact .same h ⟨rfl, rfl, rfl, rfl, rfl, rfl⟩ rfl fun _ => hreported
      · next hnone =>
        split at hw
        · cases hw
          exact .same h ⟨rfl, rfl, rfl, rfl, rfl, rfl⟩ rfl fun _ => hreported
        · next hinflight =>
          cases hw
          refine ⟨⟨fun _ => ⟨rfl, hreported⟩, h.retained, nofun⟩, fun _ => .inr (hstarts ?_)⟩
          simp_all [Attempt.startsUnasked]

/-! ## Counts -/

theorem change_eq_some {f : Attempt → Option Attempt} (h : s.change i f = some s') :
    ∃ w w', s.attempts[i]? = some w ∧ f w = some w' ∧ s' = { s with attempts := s.attempts.set i w' } := by
  obtain ⟨w, hw, h⟩ := bind_eq_some_iff.mp h
  obtain ⟨w', hw', h⟩ := bind_eq_some_iff.mp h
  exact ⟨w, w', hw, hw', (some.inj h).symm⟩

/-- The invariant: the counted work is within the bound. -/
structure Fits (maxConcurrentAssignments : ℕ) (s : DaemonLoop) : Prop where
  sound : ∀ w ∈ s.attempts, Sound w
  bound : s.executingAssignmentCount + s.activeTerminalHookHandoffs ≤ maxConcurrentAssignments

theorem Fits.change {f : Attempt → Option Attempt} (h : Fits cap s) (hs : s.change i f = some s')
    (hf : ∀ w w', s.attempts[i]? = some w → f w = some w' → Sound w →
      Keeps (s.hasSpareExecutionCapacity cap = true) w w') : Fits cap s' := by
  obtain ⟨w, w', hw, hfw, rfl⟩ := change_eq_some hs
  have hmem := List.mem_of_getElem? hw
  obtain ⟨hlt, hget⟩ := List.getElem?_eq_some_iff.mp hw
  have hkeeps := hf w w' hw hfw (h.sound w hmem)
  refine ⟨fun v hv => ?_, ?_⟩
  · rcases List.mem_or_eq_of_mem_set hv with hold | rfl
    · exact h.sound v hold
    · exact hkeeps.sound
  · have hbound := h.bound
    rw [executingCount_eq] at hbound ⊢
    dsimp only
    rw [countP_set hlt, hget]
    have hpos : w.counted = true → 0 < s.attempts.countP (·.counted) := fun hc =>
      countP_pos_iff.mpr ⟨w, hmem, hc⟩
    by_cases hc' : w'.counted = true
    · rcases hkeeps.counted hc' with hc | hspare
      · have := hpos hc
        rw [if_pos hc, if_pos hc']
        omega
      · have hroom := of_decide_eq_true hspare
        rw [executingCount_eq] at hroom
        rw [if_pos hc']
        omega
    · rw [if_neg hc']
      omega

theorem countP_counted_map_le (f : Attempt → Attempt) (q : Attempt → Bool) (l : List Attempt)
    (h : ∀ w ∈ l, (f w).counted = true → w.counted = true ∨ q w = true) :
    (l.map f).countP (·.counted) ≤ l.countP (·.counted) + l.countP q := by
  induction l with
  | nil => exact Nat.zero_le _
  | cons w l ih =>
    have hl := ih fun v hv => h v (mem_cons_of_mem w hv)
    simp only [map_cons, countP_cons]
    split_ifs <;> first | omega | simp_all

theorem Fits.each {f : Attempt → Attempt} (h : Fits cap s)
    (hf : ∀ w ∈ s.attempts, Sound w → Keeps False w (f w)) : Fits cap (s.each f) := by
  refine ⟨fun v hv => ?_, ?_⟩
  · obtain ⟨w, hw, rfl⟩ := mem_map.mp hv
    exact (hf w hw (h.sound w hw)).sound
  · have hle := countP_counted_map_le f (fun _ => false) s.attempts fun w hw hc =>
      .inl (((hf w hw (h.sound w hw)).counted hc).resolve_right id)
    have hbound := h.bound
    rw [countP_eq_zero.mpr (fun _ _ => Bool.false_ne_true)] at hle
    rw [executingCount_eq] at hbound ⊢
    unfold DaemonLoop.each
    dsimp only
    omega

theorem keeps_reconcile (sessionId : String) (h : Sound w) :
    Keeps (w.awakens sessionId = true) w (DaemonLoop.reconcile sessionId w) := by
  unfold DaemonLoop.reconcile
  split
  · next hc =>
    simp only [and_eq_true, beq_iff_eq, decide_eq_true_eq] at hc
    obtain ⟨⟨⟨hret, hdef⟩, hsession⟩, hnone⟩ := hc
    refine ⟨⟨fun hcl => ⟨rfl, (h.claimed hcl).2⟩, h.retained, nofun⟩, fun hcount => ?_⟩
    have hcount' := Attempt.counted_iff.mp hcount
    rw [Attempt.counted_iff]
    by_cases hocc : w.settlementOccupies = true
    · exact .inl (by simpa [hocc] using hcount')
    · rcases hcount' with ⟨hin, hab, hex, -⟩ | horphan
      · refine .inr ?_
        have hvacates : w.vacates = true :=
          Attempt.vacates_iff.mpr ⟨hin, hab, hex, hret, by simpa using hocc⟩
        simp [Attempt.awakens, hvacates, hdef, hsession, hnone]
      · exact .inl (.inr horphan)
  · exact .same h ⟨rfl, rfl, rfl, rfl, rfl, rfl⟩ rfl h.waiting

theorem Fits.terminalHook (sessionId : String) (h : Fits cap s)
    (hroomy : s.roomy cap (.terminalHook sessionId) = true) :
    Fits cap (s.each (DaemonLoop.reconcile sessionId)) := by
  refine ⟨fun v hv => ?_, ?_⟩
  · obtain ⟨w, hw, rfl⟩ := mem_map.mp hv
    exact (keeps_reconcile sessionId (h.sound w hw)).sound
  · have hle := countP_counted_map_le (DaemonLoop.reconcile sessionId) (·.awakens sessionId) s.attempts
      fun w hw => (keeps_reconcile sessionId (h.sound w hw)).counted
    have hroom := of_decide_eq_true hroomy
    rw [executingCount_eq] at hroom ⊢
    unfold DaemonLoop.each
    dsimp only
    omega

theorem Fits.assign (h : Fits cap s) (sessionId attemptId : String) (retryBufferFull : Bool) :
    Fits cap (s.handleAssign cap sessionId attemptId retryBufferFull) := by
  unfold DaemonLoop.handleAssign
  split
  · exact h
  · next hknown =>
    have habort := h.each fun w _ hw =>
      keeps_abort hw (fun w => w.sessionId == sessionId && w.attemptId != attemptId) False
    dsimp only
    split
    · exact habort
    · have hdrop := habort.each fun w hw hsound => (?_ : Keeps False w
        (if w.retained && w.sessionId == sessionId then w.dropped else w))
      · refine ⟨fun v hv => ?_, ?_⟩
        · rcases mem_append.mp hv with hold | hnew
          · exact hdrop.sound v hold
          · rw [mem_singleton.mp hnew]
            exact ⟨nofun, nofun, nofun⟩
        · have hbound := hdrop.bound
          rw [executingCount_eq] at hbound ⊢
          rw [countP_append]
          exact hbound
      · split
        · next hc =>
          refine keeps_dropped hsound fun hv => ?_
          -- what is still live in the session is the attempt itself, which is not in flight
          obtain ⟨hin, hab, -⟩ := Attempt.vacates_iff.mp hv
          obtain ⟨v, hmem, rfl⟩ := mem_map.mp hw
          simp only [DaemonLoop.abortWhere, and_eq_true, beq_iff_eq] at hin hab hc
          refine hknown (any_eq_true.mpr ⟨v, hmem, ?_⟩)
          simp_all
        · exact .same hsound ⟨rfl, rfl, rfl, rfl, rfl, rfl⟩ rfl hsound.waiting

/-- **One step.** -/
theorem Fits.step (h : Fits cap s) (hroomy : s.roomy cap e = true)
    (hs : s.next cap e = some s') : Fits cap s' := by
  cases e with
  | assign sessionId attemptId retryBufferFull =>
    cases hs
    exact h.assign sessionId attemptId retryBufferFull
  | cancel | abortInflight =>
    cases hs
    exact h.each fun w _ hw => keeps_abort hw _ _
  | acquireExecutionSlot i =>
    simp only [DaemonLoop.next] at hs
    split_ifs at hs with hspare
    refine h.change hs fun w w' _ hf hw => ?_
    split_ifs at hf
    cases hf
    exact ⟨⟨hw.claimed, fun hr => ⟨rfl, (hw.retained hr).2⟩, hw.waiting⟩, fun _ => .inr hspare⟩
  | runEnds i deferred retryBufferFull =>
    refine h.change hs fun w w' _ hf hw => ?_
    split_ifs at hf with hc
    cases hf
    simp only [and_eq_true, not_eq_true'] at hc
    obtain ⟨⟨hin, hex⟩, hrep⟩ := hc
    have hno : w.retained = false := Bool.eq_false_iff.mpr fun hr => by
      rw [(hw.retained hr).2] at hrep
      cases hrep
    have hnocl : w.claimedExecutionSlot = false := Bool.eq_false_iff.mpr fun hcl => by
      rw [(hw.claimed hcl).2] at hrep
      cases hrep
    refine ⟨⟨fun hcl => absurd (hnocl.symm.trans hcl) nofun, fun _ => ⟨hex, rfl⟩, fun _ => rfl⟩, fun hcount => .inl ?_⟩
    rw [Attempt.counted_iff] at hcount ⊢
    rcases hcount with ⟨-, hab, -, -⟩ | ⟨-, hcl, -⟩
    · exact .inl ⟨hin, hab, hex, .inl hno⟩
    · cases hnocl.symm.trans hcl
  | unwinds i =>
    refine h.change hs fun w w' _ hf hw => ?_
    split_ifs at hf
    cases hf
    exact keeps_unwinds hw _
  | settlesItself i =>
    refine h.change hs fun w w' _ hf hw => ?_
    split_ifs at hf
    cases hf
    exact .same hw ⟨rfl, rfl, rfl, rfl, rfl, rfl⟩ rfl hw.waiting
  | statusAcknowledged i disposition =>
    refine h.change hs fun w w' hget hf hw => ?_
    simp only [DaemonLoop.roomy, hget, all_some, or_eq_true, and_eq_true, not_eq_true'] at hroomy
    refine keeps_acknowledge (i := i) hw hf (fun hl => hroomy.elim id fun hno => ?_)
      fun hst => hroomy.elim id fun hno => ?_
    · rw [hl] at hno
      cases hno.1
    · rw [hst] at hno
      cases hno.2
  | acquireSettlement i =>
    simp only [DaemonLoop.next] at hs
    split_ifs at hs with hspare
    refine h.change hs fun w w' _ hf hw => ?_
    split_ifs at hf with hwait
    cases hf
    have hreported := hw.waiting hwait
    exact ⟨⟨fun _ => ⟨rfl, hreported⟩, fun _ => ⟨rfl, hreported⟩, nofun⟩, fun _ => .inr hspare⟩
  | settlementAborted i =>
    refine h.change hs fun w w' hget hf hw => ?_
    simp only [DaemonLoop.roomy, hget, all_some, or_eq_true, not_eq_true'] at hroomy
    split_ifs at hf
    cases hf
    refine .leaves hw ⟨rfl, rfl, rfl, rfl, rfl, rfl⟩ rfl nofun fun hv => hroomy.elim id fun hno => ?_
    rw [hv] at hno
    cases hno
  | settlementEnds i =>
    refine h.change hs fun w w' hget hf hw => ?_
    simp only [DaemonLoop.roomy, hget, all_some, or_eq_true, not_eq_true'] at hroomy
    split at hf
    · next finishes hset =>
      cases hf
      cases finishes with
      | false => exact .same hw ⟨rfl, rfl, rfl, rfl, rfl, rfl⟩ (by simp) hw.waiting
      | true =>
        refine .leaves hw ⟨rfl, rfl, rfl, rfl, rfl, rfl⟩ (by simp) hw.waiting fun hv => hroomy.elim id fun hno => ?_
        simp [Attempt.leaves, hset, hv] at hno
    · cases hf
  | statusExpired i =>
    refine h.change hs fun w w' hget hf hw => ?_
    simp only [DaemonLoop.roomy, hget, all_some, or_eq_true, not_eq_true'] at hroomy
    split_ifs at hf
    cases hf
    refine keeps_dropped hw fun hv => hroomy.elim id fun hno => ?_
    rw [hv] at hno
    cases hno
  | terminalHook sessionId =>
    cases hs
    exact h.terminalHook sessionId hroomy
  | startHandoff =>
    simp only [DaemonLoop.next, and_eq_true] at hs
    split_ifs at hs with hc
    cases hs
    have hspare := of_decide_eq_true hc.1
    exact ⟨h.sound, hspare⟩
  | endHandoff =>
    simp only [DaemonLoop.next] at hs
    split_ifs at hs
    cases hs
    exact ⟨h.sound, Nat.le_trans (Nat.add_le_add_left (Nat.sub_le _ _) _) h.bound⟩
  | prepareForShutdown =>
    cases hs
    have heach := h.each fun w _ hw => (?_ : Keeps False w (DaemonLoop.drainAborted w))
    · exact ⟨heach.sound, heach.bound⟩
    · unfold DaemonLoop.drainAborted
      split
      · refine .same hw ⟨rfl, rfl, rfl, rfl, rfl, rfl⟩ rfl fun hset => ?_
        split_ifs at hset with hwait
        exact hw.waiting hset
      · exact .same hw ⟨rfl, rfl, rfl, rfl, rfl, rfl⟩ rfl hw.waiting
  | shutdownDisposes i =>
    simp only [DaemonLoop.next] at hs
    split_ifs at hs
    refine h.change hs fun w w' _ hf hw => ?_
    split_ifs at hf
    cases hf
    exact .same hw ⟨rfl, rfl, rfl, rfl, rfl, rfl⟩ rfl hw.waiting
  | resumeFromDrain =>
    cases hs
    have heach := h.each fun w _ hw => (?_ : Keeps False w
      (if w.retained then { w with controllerAborted := false } else w))
    · exact ⟨heach.sound, heach.bound⟩
    · split
      all_goals exact .same hw ⟨rfl, rfl, rfl, rfl, rfl, rfl⟩ rfl hw.waiting

/-- **Execution capacity**, in runs where the steps that do not ask for a slot find one. -/
theorem execution_capacity {maxConcurrentAssignments : ℕ} {s : DaemonLoop}
    (h : ((daemon maxConcurrentAssignments).restrict fun s e =>
      s.roomy maxConcurrentAssignments e = true).Reachable s) :
    s.executingAssignmentCount + s.activeTerminalHookHandoffs ≤ maxConcurrentAssignments := by
  refine Fits.bound (h.invariant (fun s hinit => ?_) fun _ _ _ _ hfits hs => hfits.step hs.1 hs.2)
  cases hinit
  exact ⟨fun _ hw => absurd hw not_mem_nil, Nat.zero_le _⟩

/-! ## Runs -/

def deferredRun (sessionId : String) (i : ℕ) : List Event :=
  [.assign sessionId "1" false, .acquireExecutionSlot i, .runEnds i true false]

def settledRun : List Event :=
  deferredRun "a" 0 ++ [.assign "b" "1" false, .acquireExecutionSlot 1, .statusAcknowledged 0 .runHook,
    .runEnds 1 false false, .unwinds 1, .acquireSettlement 0]

def nextRoomy (maxConcurrentAssignments : ℕ) (s : DaemonLoop) (e : Event) : Option DaemonLoop :=
  if s.roomy maxConcurrentAssignments e then s.next maxConcurrentAssignments e else none

theorem execution_capacity_settled : ∃ s, ((daemon 1).restrict fun s e => s.roomy 1 e = true).Reachable s ∧
      s.attempts.map (·.settlement) = [.running true, .none] ∧ s.executingAssignmentCount = 1 ∧
      s.executingAssignmentCount + s.activeTerminalHookHandoffs ≤ 1 := by
  have hrun : (settledRun.foldlM (nextRoomy 1) {}).map (fun s =>
      (s.attempts.map (·.settlement), s.executingAssignmentCount)) = some ([.running true, .none], 1) := by
    decide +kernel
  obtain ⟨s, hs, hseen⟩ := map_eq_some_iff.mp hrun
  have hreach : ((daemon 1).restrict fun s e => s.roomy 1 e = true).Reachable s := by
    refine System.Reachable.foldlM (fun s e s' h => ?_) (.init rfl) hs
    unfold nextRoomy at h
    split_ifs at h with hroomy
    exact ⟨hroomy, h⟩
  exact ⟨s, hreach, congrArg Prod.fst hseen, congrArg Prod.snd hseen, execution_capacity hreach⟩

/-- With one slot, and another session in it. -/
def overflows : List (List Event) :=
  let other (i : ℕ) : List Event := [.assign "b" "1" false, .acquireExecutionSlot i]
  [deferredRun "a" 0 ++ other 1 ++ [.terminalHook "a"],
    deferredRun "a" 0 ++ [.prepareForShutdown, .unwinds 0, .resumeFromDrain] ++ other 1 ++
      [.statusAcknowledged 0 .runHook],
    deferredRun "a" 0 ++ other 1 ++ [.statusAcknowledged 0 .retryAccepted, .settlementEnds 0]]

theorem execution_capacity_exceeded : overflows.map (fun run => (run.foldlM (DaemonLoop.next 1) {}).map fun s =>
      s.executingAssignmentCount + s.activeTerminalHookHandoffs) = [some 2, some 2, some 2] := by
  decide +kernel

end AutoHarness.Daemon.Capacity

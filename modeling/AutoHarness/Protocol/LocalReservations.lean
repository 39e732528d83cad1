import AutoHarness.Protocol.LocalReports
import AutoHarness.Protocol.Reservations

/-! Reservations of handoffs in both modes. Without a store they are lost to the reconnect-deadline sweep and to late
reports, and kept in every run without those turns. -/

namespace AutoHarness.Protocol
open Foundation Store Plane Option Bool

/-! ## A process without a store -/

/-- The turns of a process, each with the ids and the times it draws. -/
inductive LocalOp where
  | create (sessionId : String) (session : SessionRow)
  | assign (o : AssignSessionOpts)
  | assignScheduled (o : AssignMainCheckoutOpts)
  | expireQueued (sessionId : String) (now : Timestamp)
  | acknowledge (sessionId : String) (worktreeId : Option String) (attemptId : String) (now : Timestamp)
  | startCommand (sessionId : String) (worktreeId : Option String) (attemptId : String) (now : Timestamp)
  | confirm (sessionId hostId : String) (connectionId : Option String)
  | confirmScheduled (sessionId hostId connectionId : String)
  | link (worktreeId : String) (online : Bool) (connectionId : Option String)
  | cancel (sessionId : String) (now : Timestamp)
  | timeOut (sessionId : String) (now : Timestamp)
  | offlineWorktree (worktreeId reason : String) (deadlineAt : Timestamp)
  | offlineScheduled (sessionId hostId reason : String) (deadlineAt : Timestamp)
  | omittedWorktree (sessionId hostId reason handoffId : String) (now : Timestamp)
  | omittedScheduled (sessionId reason handoffId : String) (now : Timestamp)
  | ackDeadline (sessionId : String) (pending : PendingAck) (now : Timestamp)
  | status (c : StatusReport) (sourceHostId : Option String) (account : Option ℕ)
  | settle (sessionId handoffId hostId : String) (current : Bool) (result : Option SessionResult)
  | expire (sessionId : String) (now : Timestamp)
  | reclaim (sessionId handoffId : String) (now : Timestamp)

namespace LocalOp

def apply (st : ControlPlaneState) : LocalOp → ControlPlaneState
  | create s r => st.setSession s r
  | assign o => st.assignQueued o
  | assignScheduled o => st.assignScheduledQueued o
  | expireQueued s now => st.expireQueuedLocal s now
  | acknowledge s w a now => st.acknowledge s w a now
  | startCommand s w a now => st.startCommand s w a now
  | confirm s host k => st.confirmReportedSession s host k
  | confirmScheduled s host k => st.confirmScheduledReconnect s host k
  | link i online k => st.linkWorktree i online k
  | cancel s now => st.cancelSession s now
  | timeOut s now => st.timeOutAcknowledgedSession s now
  | offlineWorktree i reason deadlineAt => st.offlineWorktree i reason deadlineAt
  | offlineScheduled s host reason deadlineAt => st.offlineScheduled s host reason deadlineAt
  | omittedWorktree s host reason id now => st.requeueOmittedWorktree s host reason id now
  | omittedScheduled s reason id now => st.requeueOmittedScheduled s reason id now
  | ackDeadline s p now => (ackTurn now (st, []) (s, p)).1
  | status c source account => st.applySessionStatus c source account
  | settle s id host current result => st.settleTerminalHookHandoff s id host current result
  | expire s now => st.expireTerminalHookHandoffIfNeeded s now
  | reclaim s id now => st.reclaimReconnectDeadline s id now

/-- The handoff id that the operation draws. -/
def minted : LocalOp → Option String
  | omittedWorktree _ _ _ id _ => some id
  | omittedScheduled _ _ id _ => some id
  | status c _ _ => some c.handoffId
  | reclaim _ id _ => some id
  | _ => none

/-- The handoff that it settles or expires. -/
def disposal (st : ControlPlaneState) : LocalOp → Option (String × String)
  | settle s id _ _ _ => some (s, id)
  | expire s now => dueHandoff st s now
  | reclaim s _ now => dueHandoff st s now
  | _ => none

/-- New sessions hold nothing, hosts have names, no queued status is reported, and the deadline pass visits what
waits. -/
def promised (st : ControlPlaneState) : LocalOp → Bool
  | create s r => (st.sessions s).isNone && SessionRow.isNew r
  | assignScheduled o => o.hostId != ""
  | status c _ _ => c.msg.status != .queued
  | ackDeadline s p _ => st.pendingAcks.entries.contains (s, p)
  | _ => true

def spares (st : ControlPlaneState) : LocalOp → Bool
  | reclaim s _ now => (st.sessions s).all fun r => !recoversReserved now r
  | status c _ _ => (st.sessions c.msg.sessionId).all fun r => !dropsReservation c r
  | _ => true

theorem step {st : ControlPlaneState} (h : LocalInv st) {op : LocalOp} (hp : op.promised st = true)
    (hs : op.spares st = true) : LocalStep op.minted (op.disposal st) st (op.apply st) := by
  cases op with
  | create s r =>
    simp only [promised, and_eq_true, isNone_iff_eq_none] at hp
    obtain ⟨hnew, hblank⟩ := hp
    obtain ⟨hq, hw, -, hm, -, -, -, hh, -⟩ := blank_of_isNew hblank
    have hw' : r.worktreeId.toOption = none := by rw [hw]; rfl
    exact .create hnew rfl (fun _ => not_holdsTarget hw' hm hh) (.of_queued hq hw' hm hh) hh
  | assign o => exact h.assignQueued_step o
  | assignScheduled o => exact h.assignScheduledQueued_step o (by simpa [promised] using hp)
  | expireQueued s now => exact h.expireQueuedLocal_step
  | acknowledge s w a now => exact h.acknowledge_step
  | startCommand s w a now => exact h.startCommand_step
  | confirm s host k => exact h.confirmReportedSession_step
  | confirmScheduled s host k => exact h.confirmScheduledReconnect_step
  | link i online k => exact LocalInv.linkWorktree_step
  | cancel s now => exact h.cancelSession_step
  | timeOut s now => exact h.timeOutAcknowledged_step
  | offlineWorktree i reason deadlineAt => exact h.offlineWorktree_step
  | offlineScheduled s host reason deadlineAt => exact h.offlineScheduled_step
  | omittedWorktree s host reason id now => exact h.requeueOmittedWorktree_step
  | omittedScheduled s reason id now => exact h.requeueOmittedScheduled_step
  | ackDeadline s p now => exact h.ackTurn_step (by simpa [promised] using hp) []
  | status c source account => exact h.applyStatus_step (by simpa [promised] using hp) hs
  | settle s id host current result => exact h.settleHandoff_step
  | expire s now => exact h.expireHandoffIfNeeded_step
  | reclaim s id now => exact h.reclaimReconnectDeadline_step hs

end LocalOp

/-- The process, and the handoff ids it has drawn. -/
structure LocalMemory where
  state : ControlPlaneState
  handoffs : List String := []

/-- A process before its first session: worktrees are idle, and no main checkout is leased. -/
structure LocalMemory.Fresh (m : LocalMemory) : Prop where
  sessions : ∀ s, m.state.sessions s = none
  pending : m.state.pendingAcks.entries = []
  worktrees : ∀ i x, m.state.worktrees i = some x → x.currentSessionId.toOption = none
  worktreeKey : m.state.worktrees "" = none

def LocalOp.allowed (m : LocalMemory) (op : LocalOp) : Bool :=
  op.promised m.state && op.minted.all fun id => !m.handoffs.contains id

def LocalMemory.apply (m : LocalMemory) (op : LocalOp) : LocalMemory where
  state := op.apply m.state
  handoffs := op.minted.toList ++ m.handoffs

def localPlane : System LocalMemory LocalOp where
  init := LocalMemory.Fresh
  step m op m' := op.allowed m = true ∧ m' = m.apply op

variable {m : LocalMemory}

theorem LocalMemory.Fresh.inv (h : m.Fresh) : LocalInv m.state := by
  have hrows : ∀ {s : String} {r : SessionRow}, m.state.sessions s = some r → False := fun hr => by
    rw [h.sessions] at hr
    cases hr
  refine ⟨fun s t ht => ?_, ⟨fun i x hx hne => absurd (h.worktrees i x hx) hne, h.worktreeKey⟩,
    fun s r hr => (hrows hr).elim, fun i s hs => ?_, fun s p hp => ?_⟩
  · obtain ⟨r, hr, -⟩ := ht
    exact (hrows hr).elim
  · obtain ⟨x, hx, hcur⟩ := bind_eq_some_iff.mp hs
    rw [h.worktrees i x hx] at hcur
    cases hcur
  · rw [h.pending] at hp
    cases hp

/-- **Step lemma.** -/
theorem LocalOp.allowed_step (h : LocalInv m.state) {op : LocalOp} (ha : op.allowed m = true)
    (hs : op.spares m.state = true) : LocalStep op.minted (op.disposal m.state) m.state (m.apply op).state ∧
      ∀ id, op.minted = some id → id ∉ m.handoffs := by
  simp only [LocalOp.allowed, and_eq_true] at ha
  refine ⟨LocalOp.step h ha.1 hs, fun id hid => ?_⟩
  simpa [hid] using ha.2

/-- **Run lemma.** Runs that spare reservations keep the invariant, and know the handoffs they store. -/
theorem localInv_of_reachable (h : (localPlane.restrict fun m op => op.spares m.state = true).Reachable m) :
    LocalInv m.state ∧ (localView m.state).Known m.handoffs := by
  induction h with
  | init hm =>
    refine ⟨LocalMemory.Fresh.inv hm, ?_⟩
    rintro s h ⟨r, hr, -⟩
    cases (LocalMemory.Fresh.sessions hm s).symm.trans hr
  | @step m m' op _ hs ih =>
    obtain ⟨hspares, ha, rfl⟩ := hs
    obtain ⟨hstep, -⟩ := LocalOp.allowed_step ih.1 ha hspares
    refine ⟨ih.1.step hstep, fun s h hst => ?_⟩
    obtain hold | hnew := hstep.stores hst
    · exact List.mem_append_right _ (ih.2 s h hold)
    · exact List.mem_append_left _ (by simp [hnew])

/-- In both modes, in every run whose requests spare reservations: what a handoff reserves is busy for its session
alone, until its disposal frees it; no handoff id is stored anew. -/
theorem hookTarget_reserved {w : World} (hw : (plane.restrict fun w op => op.reserving w = true).Reachable w)
    (hm : (localPlane.restrict fun m op => op.spares m.state = true).Reachable m) :
    (w.hookView.Reserved ∧ w.hookView.Known w.handoffs ∧ ∀ op, op.allowed w = true → op.reserving w = true →
      w.hookView.Disposes (w.apply op).hookView w.handoffs op.disposal) ∧
    (localView m.state).Reserved ∧ (localView m.state).Known m.handoffs ∧
      ∀ op, op.allowed m = true → op.spares m.state = true →
        (localView m.state).Disposes (localView (m.apply op).state) m.handoffs (op.disposal m.state) := by
  obtain ⟨hreserved, hdisposes⟩ := reserved_durable hw
  obtain ⟨hinv, hknown⟩ := localInv_of_reachable hm
  refine ⟨⟨hreserved, ?_, hdisposes⟩, hinv.reserved, hknown, fun op ha hs => ?_⟩
  · rintro s h ⟨r, hr, hh⟩
    exact handoff_known hw.of_restrict (World.hasRead_current hr) hh
  · obtain ⟨hstep, hfresh⟩ := LocalOp.allowed_step hinv ha hs
    exact hstep.disposes hfresh

/-! ## Reservations that are lost -/

def checkoutCatalog : Catalog :=
  { providerAccounts := smallDb.providerAccounts, repositories := smallDb.repositories
    workspacePools := smallDb.workspacePools, hostInventories := smallDb.hostInventories
    connections := fun k => if k = "k1" then
      some { hostId := "h1", capabilities := ["scheduled-main-checkout"], repositoryIds := ["repo"] } else none
    users := smallDb.users, integrations := smallDb.integrations, sessionDrains := smallDb.sessionDrains }

def checkoutSession : SessionRow :=
  { status := .queued, type := .scheduled, repositoryId := "repo", queueExpiresAt := 100 }

def checkoutAssign : AssignMainCheckoutOpts :=
  { sessionId := "s1", hostId := "h1", connectionId := "k1", now := 1, attemptId := "a1"
    resolvedRoute := { targetIndex := 0, commandId := "cmd", hostId := "h1", attemptId := "a1" }
    repositoryId := "repo" }

def checkoutAck : SessionNotes :=
  { assignmentSentAt := some 1, ackReceivedAt := some 2, assignmentConnectionId := some "k1" }

def checkoutCancel : CancelRunningOpts :=
  { sessionId := "s1", hostId := "h1", connectionId := "k1", attemptId := "a1", completedAt := 3
    errorMessage := "cancelled by operator" }

def cancelledCheckoutRow : SessionRow :=
  { checkoutCancel.cancelled (checkoutAck.apply (checkoutAssign.claimed checkoutSession)) with
    reconnectDeadlineAt := some 9 }

def checkoutHandoff : TerminalHookHandoff :=
  { handoffId := "h1", attemptId := some "a1", hostId := "h1", repositoryId := "repo", mainCheckoutLease := true
    status := .failed, errorCode := some "checkout_fetch_failed", expiresAt := 1000 }

def lateCheckoutReport : ReleaseMainCheckoutOpts :=
  { sessionId := "s1", hostId := "h1", repositoryId := "repo", connectionId := "k1", status := .cancelled
    attemptId := some "a1", expectedStatus := some .cancelled, expectedTerminalHookHandoffAbsent := true
    hostAssignmentLease := cancelledCheckoutRow.hostAssignmentLease, terminalHookHandoff := some checkoutHandoff }

def reportedCheckoutRow : SessionRow := lateCheckoutReport.released cancelledCheckoutRow

/-- A scheduled session is cancelled while it runs, and its late report leaves a handoff. -/
def checkoutHandoffOps : List Op :=
  [.catalog checkoutCatalog, .createPlain { sessionId := "s1", session := checkoutSession },
   .assignMainCheckout checkoutAssign, .write (.note "s1" checkoutAck),
   .write (.cancelRunningMainCheckout checkoutCancel 9),
   .write (.releaseMainCheckout cancelledCheckoutRow lateCheckoutReport none)]

def checkoutRecovery : Op :=
  .write (.releaseMainCheckout reportedCheckoutRow
    { sessionId := "s1", hostId := "h1", repositoryId := "repo", connectionId := "k1", status := .cancelled
      attemptId := some "a1", reason := some "cancelled by operator", expectedStatus := some .cancelled
      hostAssignmentLease := reportedCheckoutRow.hostAssignmentLease } none)

def storesCheckoutHandoff (w : World) : Bool :=
  (w.db.sessions "s1").any fun r => r.terminalHookHandoff == some checkoutHandoff

def checkoutLeased (w : World) : Bool :=
  (w.db.hostLocks "h1").any fun h => (h.mainCheckoutLeases "repo").isSome

def smallMemory : LocalMemory where
  state :=
    { ackDeadlineMs := 10, pendingAcks := .empty, sessions := fun _ => none
      worktrees := fun i => if i = "w1" then some { hostId := "h1", repositoryId := "repo" } else none }

theorem smallMemory_fresh : smallMemory.Fresh where
  sessions _ := rfl
  pending := rfl
  worktrees i x h := by
    simp only [smallMemory] at h
    split at h
    · cases h
      rfl
    · cases h
  worktreeKey := rfl

def LocalMemory.next (ok : LocalMemory → LocalOp → Bool) (m : LocalMemory) (op : LocalOp) : Option LocalMemory :=
  if op.allowed m && ok m op then some (m.apply op) else none

theorem exists_localReachable (ok : LocalMemory → LocalOp → Bool) (ops : List LocalOp) (p : LocalMemory → Bool)
    (hrun : (ops.foldlM (LocalMemory.next ok) smallMemory).any p = true) :
    ∃ m, (localPlane.restrict fun m op => ok m op = true).Reachable m ∧ p m = true := by
  rw [any_eq_true] at hrun
  obtain ⟨m, hm, hp⟩ := hrun
  refine ⟨m, System.Reachable.foldlM ?_ (.init smallMemory_fresh) hm, hp⟩
  intro m op m' hnext
  simp only [LocalMemory.next, ite_none_right_eq_some, and_eq_true, some.injEq] at hnext
  exact ⟨hnext.1.2, hnext.1.1, hnext.2.symm⟩

def lostWorktreeOps : List LocalOp :=
  [.create "s1" { status := .queued, repositoryId := "repo", queueExpiresAt := 100, worktreeId := .null }, .assign {
     sessionId := "s1", hostId := "h1", connectionId := "k1", now := 1, attemptId := "a1"
     resolvedRoute := { targetIndex := 0, commandId := "cmd", hostId := "h1", attemptId := "a1" }
     repositoryId := "repo", worktreeId := "w1" }, .acknowledge "s1" (some "w1") "a1" 2,
   .startCommand "s1" (some "w1") "a1" 3, .offlineWorktree "w1" "host disconnected; requeued" 9]

/-- Session `s1` stores a handoff that reserves the worktree. -/
def storesWorktreeHandoff (m : LocalMemory) : Bool :=
  (m.state.sessions "s1").any fun r => r.terminalHookHandoff.any fun h => h.worktreeId == some "w1"

def worktreeIdle (m : LocalMemory) : Bool :=
  (m.state.worktrees "w1").any fun x => x.status == .idle && x.currentSessionId == .null

theorem hookTarget_lost : (∃ w, plane.Reachable w ∧ w.hookView.Stores "s1" checkoutHandoff ∧
      Reserves checkoutHandoff (.mainCheckout "h1" "repo") ∧ w.hookView.occupancy.Idle (.mainCheckout "h1" "repo")) ∧
    ∃ m h, localPlane.Reachable m ∧ (localView m.state).Stores "s1" h ∧ Reserves h (.worktree "w1") ∧
      (localView m.state).occupancy.Idle (.worktree "w1") := by
  constructor
  · obtain ⟨w, hw, hp⟩ := World.exists_reachable_of_run (fun w op => op.named w)
      (checkoutHandoffOps ++ [checkoutRecovery]) (fun w => storesCheckoutHandoff w && !checkoutLeased w)
      smallWorld_fresh (by decide)
    simp only [storesCheckoutHandoff, checkoutLeased, and_eq_true, any_eq_true, beq_iff_eq] at hp
    obtain ⟨⟨r, hr, hh⟩, hfree⟩ := hp
    refine ⟨w, hw.of_restrict, ⟨r, hr, hh⟩, ⟨rfl, rfl, rfl⟩, ?_⟩
    show (w.db.hostLocks "h1").bind (fun x => x.mainCheckoutLeases "repo") = none
    cases hl : w.db.hostLocks "h1" with
    | none => rfl
    | some l => simpa [hl] using hfree
  · obtain ⟨m, hm, hp⟩ := exists_localReachable (fun _ _ => true) (lostWorktreeOps ++ [.reclaim "s1" "t1" 10])
      (fun m => storesWorktreeHandoff m && worktreeIdle m) (by decide)
    simp only [storesWorktreeHandoff, worktreeIdle, and_eq_true, any_eq_true, beq_iff_eq] at hp
    obtain ⟨⟨r, hr, h, hh, hres⟩, x, hx, hidle⟩ := hp
    exact ⟨m, h, hm.of_restrict, ⟨r, hr, hh⟩, hres, x, hx, hidle⟩

/-- A late report of a cancelled session reserves its main checkout, and an unreported session its
worktree. -/
theorem hookTarget_held : ∃ w m h, plane.Reachable w ∧ localPlane.Reachable m ∧ w.hookView.Stores "s1" checkoutHandoff ∧
      w.hookView.occupancy.Taken "s1" (.mainCheckout "h1" "repo") ∧ (localView m.state).Stores "s1" h ∧
      Reserves h (.worktree "w1") ∧ (localView m.state).occupancy.Taken "s1" (.worktree "w1") := by
  obtain ⟨w, hw, hp⟩ := World.exists_reachable_of_run (fun w op => op.reserving w) checkoutHandoffOps
    storesCheckoutHandoff smallWorld_fresh (by decide)
  simp only [storesCheckoutHandoff, any_eq_true, beq_iff_eq] at hp
  obtain ⟨r, hr, hh⟩ := hp
  have hst : w.hookView.Stores "s1" checkoutHandoff := ⟨r, hr, hh⟩
  obtain ⟨m, hm, hp⟩ := exists_localReachable (fun m op => op.spares m.state)
    (lostWorktreeOps ++ [.omittedWorktree "s1" "h1" "not reported" "t1" 10]) storesWorktreeHandoff (by decide)
  simp only [storesWorktreeHandoff, any_eq_true, beq_iff_eq] at hp
  obtain ⟨r', hr', h, hh', hres⟩ := hp
  have hst' : (localView m.state).Stores "s1" h := ⟨r', hr', hh'⟩
  obtain ⟨⟨hdurable, -⟩, hlocal, -⟩ := hookTarget_reserved hw hm
  exact ⟨w, m, h, hw.of_restrict, hm.of_restrict, hst,
    (hdurable _ _ (.mainCheckout "h1" "repo") hst ⟨rfl, rfl, rfl⟩).1, hst', hres,
    (hlocal _ _ (.worktree "w1") hst' hres).1⟩

end AutoHarness.Protocol

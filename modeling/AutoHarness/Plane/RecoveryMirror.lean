import AutoHarness.Plane.RecoveryCache

/-! When the caches agree with the store after a committed recovery step: the session part, site by site, then the
worktree or slot. -/

namespace AutoHarness.Plane
open Foundation Store Function Option ControlPlaneState FinishSessionOpts
open Attr (toOption)

/-! ## The second writes of a slot, against the released row -/

section Slot

variable {slotId connectionId : String} {slot row : WorkspaceSlotRow} {st : ControlPlaneState} {db : Db}

theorem retirement_sessions : (removeReleasedRetiredWorkspaceSlotDurable slotId st db).2.1.sessions = st.sessions ∧
      (removeReleasedRetiredWorkspaceSlotDurable slotId st db).2.2.sessions = db.sessions := by
  unfold removeReleasedRetiredWorkspaceSlotDurable deleteRetiredWorkspaceSlotIfIdle
  split
  · split <;> exact ⟨rfl, rfl⟩
  · exact ⟨rfl, rfl⟩

theorem offlineReleasedSlot_sessions : (offlineReleasedSlot slotId slot connectionId st db).1.sessions = st.sessions ∧
      (offlineReleasedSlot slotId slot connectionId st db).2.sessions = db.sessions := by
  unfold offlineReleasedSlot putWorkspaceSlotFenced
  dsimp only
  split
  · exact retirement_sessions
  · split <;> exact ⟨rfl, rfl⟩

theorem retirement_released (hrow : db.workspaceSlots slotId = some row) (hidle : row.status = .idle)
    (hfree : row.currentSessionId = .null) : removeReleasedRetiredWorkspaceSlotDurable slotId st db =
      if ((st.workspaceSlots slotId).any fun x => x.retired && x.currentSessionId.toOption.isNone) ∧ row.retired then
        (true, st.setSlot slotId none, { db with workspaceSlots := update db.workspaceSlots slotId none })
      else (false, st, db) := by
  have hremovable : removableSlot row = row.retired := by
    simp [removableSlot, hidle, hfree, toOption]
  unfold removeReleasedRetiredWorkspaceSlotDurable deleteRetiredWorkspaceSlotIfIdle
  rw [hrow, any_some, hremovable]
  by_cases hcached : ((st.workspaceSlots slotId).any fun x => x.retired && x.currentSessionId.toOption.isNone) = true
  · by_cases hretired : row.retired = true
    all_goals simp [hcached, hretired]
  · simp [hcached]

theorem retirement_agrees (hslot : st.workspaceSlots slotId = some slot) (hcached : slot.status = .idle)
    (hrow : db.workspaceSlots slotId = some row) (hidle : row.status = .idle) (hfree : row.currentSessionId = .null) :
    ((removeReleasedRetiredWorkspaceSlotDurable slotId st db).2.1.workspaceSlots slotId).map (·.status) =
      ((removeReleasedRetiredWorkspaceSlotDurable slotId st db).2.2.workspaceSlots slotId).map (·.status) := by
  rw [retirement_released hrow hidle hfree]
  split
  · simp [setSlot]
  · simp [hslot, hrow, hcached, hidle]

theorem offlineReleasedSlot_agrees_iff (hrow : db.workspaceSlots slotId = some row) (hidle : row.status = .idle)
    (hfree : row.currentSessionId = .null) :
    ((offlineReleasedSlot slotId slot connectionId st db).1.workspaceSlots slotId).map (·.status) =
        ((offlineReleasedSlot slotId slot connectionId st db).2.workspaceSlots slotId).map (·.status) ↔
      (((st.workspaceSlots slotId).any fun x => x.retired && x.currentSessionId.toOption.isNone) = true ∧
          row.retired = true) ∨ row.connectionId = given ((given slot.connectionId).map fun _ => connectionId) ∨
        (st.workspaceSlots slotId).map (·.status) = some .idle := by
  unfold offlineReleasedSlot putWorkspaceSlotFenced
  rw [retirement_released hrow hidle hfree]
  by_cases hgone : ((st.workspaceSlots slotId).any fun x => x.retired && x.currentSessionId.toOption.isNone) = true ∧
      row.retired = true
  · simp [hgone, setSlot]
  · rw [if_neg hgone]
    by_cases hput : row.connectionId = given ((given slot.connectionId).map fun _ => connectionId)
    · simp [hput, hrow, hfree, toOption, setSlot]
    · simp [hgone, hput, hrow, hidle]

end Slot

namespace Recovery

variable {c : Recovery}

/-! ## What the mirror leaves alone -/

section

variable (st : ControlPlaneState)
include st

theorem mirrorLease_caches :
    (c.mirrorLease st).worktrees = st.worktrees ∧ (c.mirrorLease st).workspaceSlots = st.workspaceSlots := by
  have hrelease : ∀ read, (st.releaseScheduledLeaseLocal c.sessionId read).worktrees = st.worktrees ∧
      (st.releaseScheduledLeaseLocal c.sessionId read).workspaceSlots = st.workspaceSlots := by
    intro read
    unfold releaseScheduledLeaseLocal
    split <;> exact ⟨rfl, rfl⟩
  unfold mirrorLease
  split
  · exact hrelease _
  · split
    · exact ⟨rfl, rfl⟩
    · exact hrelease _
  · exact ⟨rfl, rfl⟩

theorem mirrorSession_caches :
    (c.mirrorSession st).sessions c.sessionId = some c.record ∧ (c.mirrorSession st).worktrees = st.worktrees ∧
      (c.mirrorSession st).workspaceSlots = st.workspaceSlots := by
  have hlease : ∀ st' : ControlPlaneState,
      (st'.releaseProviderAccountLeaseLocal c.sessionId c.read).worktrees = st'.worktrees ∧
        (st'.releaseProviderAccountLeaseLocal c.sessionId c.read).workspaceSlots = st'.workspaceSlots := by
    intro st'
    unfold releaseProviderAccountLeaseLocal
    split
    · split <;> exact ⟨rfl, rfl⟩
    · exact ⟨rfl, rfl⟩
  obtain ⟨hw, hs⟩ := hlease (c.mirrorLease st)
  have hset : (((c.mirrorLease st).releaseProviderAccountLeaseLocal c.sessionId c.read).setSession c.sessionId
      c.record).sessions c.sessionId = some c.record := update_self ..
  unfold mirrorSession
  split <;> exact ⟨hset, hw.trans (mirrorLease_caches st).1, hs.trans (mirrorLease_caches st).2⟩

theorem mirror_sessions (db : Db) :
    (c.mirror st db).1.sessions c.sessionId = some c.record ∧ (c.mirror st db).2.sessions = db.sessions := by
  have hrecord := (mirrorSession_caches (c := c) st).1
  unfold mirror
  cases c.site with
  | cancelledWorktree | requeuedWorktree | disconnectedCheckout | omittedCheckout | overdueCheckout =>
    exact ⟨hrecord, rfl⟩
  | lostWorktree pass w wt fence => cases pass <;> exact ⟨hrecord, rfl⟩
  | disconnectedSlot s slot f reason =>
    exact ⟨(congrFun offlineReleasedSlot_sessions.1 _).trans hrecord, offlineReleasedSlot_sessions.2⟩
  | omittedSlot s slot f reason =>
    exact ⟨(congrFun retirement_sessions.1 _).trans hrecord, retirement_sessions.2⟩
  | overdueSlot s slot => exact ⟨(congrFun retirement_sessions.1 _).trans hrecord, retirement_sessions.2⟩

end

/-! ## What the write stores -/

variable {cleanup : Option (DrainScope × DrainRecord)} {db db' : Db} {r : SessionRow} {o : FinishSessionOpts}

theorem stored_of_finish (hr : db.sessions o.sessionId = some r) (hslot : o.preserveWorkspaceSlotLease = false)
    (hcommit : transact (finishSessionItems o cleanup) db = .committed db') :
    (db'.sessions o.sessionId).map recoveryView =
      some (o.status, none, none, o.terminalHookHandoff.or r.terminalHookHandoff) := by
  obtain ⟨r', hr', -, -, -, rfl⟩ := finishSession_committed hcommit
  obtain rfl := some.inj (hr.symm.trans hr')
  simp [after, recoveryView, finished, hslot, toOption]

theorem stored_of_release {o : ReleaseMainCheckoutOpts} (hr : db.sessions o.sessionId = some r)
    (hcommit : transact (releaseMainCheckoutSessionItems o cleanup) db = .committed db') :
    (db'.sessions o.sessionId).map recoveryView =
      some (o.status, none, given r.workspaceSlotId.toOption, o.terminalHookHandoff.or r.terminalHookHandoff) := by
  obtain ⟨r', hl, hr', -, -, -, -, -, rfl⟩ := releaseCheckout_committed hcommit
  obtain rfl := some.inj (hr.symm.trans hr')
  simp [recoveryView, ReleaseMainCheckoutOpts.released, toOption]

variable {session : SessionRow}

theorem not_terminal_of_retryable (h : retryableHostLoss session = true) : terminalHostLoss session = false := by
  unfold retryableHostLoss at h
  unfold terminalHostLoss
  simp_all

variable {reason handoffId : String} {now : Timestamp}

theorem view_hostLossOutcome {handoff : Option TerminalHookHandoff} :
    recoveryView (hostLossOutcome session reason now handoff) = if terminalHostLoss session then
        (.failed, none, given session.workspaceSlotId.toOption, handoff.or session.terminalHookHandoff)
      else (.queued, none, none, session.terminalHookHandoff) := by
  unfold hostLossOutcome
  by_cases hr : retryableHostLoss session = true
  · rw [if_pos hr, not_terminal_of_retryable hr]
    rfl
  · rw [if_neg hr]
    by_cases ht : terminalHostLoss session = true
    · rw [if_pos ht, if_pos ht]
      cases hm : handoff.any (·.mainCheckoutLease) <;>
        simp [recoveryView, finishHostLostSession, withoutLeases, withoutMainCheckout, hm, toOption]
    · rw [if_neg ht, if_neg ht]
      rfl

theorem view_workspaceLossOutcome :
    recoveryView (workspaceLossOutcome handoffId now session reason) = if terminalHostLoss session then
        (.failed, none, none, (hostLostTerminalHookHandoff handoffId now session).or session.terminalHookHandoff)
      else (.queued, none, none, session.terminalHookHandoff) := by
  unfold workspaceLossOutcome
  by_cases hr : retryableHostLoss session = true
  · rw [if_pos hr, not_terminal_of_retryable hr]
    rfl
  · rw [if_neg hr]
    by_cases ht : terminalHostLoss session = true
    · rw [if_pos ht, if_pos ht]
      rfl
    · rw [if_neg ht, if_neg ht]
      rfl

/-! ## The session -/

def storedView (c : Recovery) (db : Db) := (db.sessions c.sessionId).map recoveryView

/-- The drawn handoff id is not the one stored. -/
def Fresh (c : Recovery) (r : SessionRow) : Prop :=
  ∀ h, r.terminalHookHandoff = some h → h.handoffId ≠ c.handoffId

theorem handoff_ne_of_fresh (hfresh : c.Fresh r) {h : TerminalHookHandoff}
    (hh : c.handoff = some h) : some h ≠ r.terminalHookHandoff := by
  intro he
  apply hfresh h he.symm
  obtain ⟨hostId, -, rfl⟩ := map_eq_some_iff.mp hh
  rfl

theorem handoff_eq_none_iff : c.handoff = none ↔ given c.read.hostId.toOption = none := by
  simp [handoff, hostLostTerminalHookHandoff]

theorem or_eq_or_iff {α : Type} {a b b' : Option α} : a.or b = a.or b' ↔ (a = none → b = b') := by
  cases a <;> simp

theorem loss_agrees_iff (reason : String) (hfresh : c.Fresh r)
    (hrecord : recoveryView c.record = recoveryView (workspaceLossOutcome c.handoffId c.now c.read reason))
    (hstored : c.storedView db' =
      some (if terminalHostLoss c.read then .failed else .queued, none, none, r.terminalHookHandoff)) :
    some (recoveryView c.record) = c.storedView db' ↔ c.LossMirrored r := by
  rw [hrecord, hstored, view_workspaceLossOutcome]
  unfold LossMirrored SameHandoff
  by_cases ht : terminalHostLoss c.read = true
  · simp only [ht, if_true, forall_const, ← handoff_eq_none_iff, some.injEq, Prod.mk.injEq, true_and]
    change c.handoff.or _ = _ ↔ _
    cases hh : c.handoff with
    | none => simp
    | some h => simpa using handoff_ne_of_fresh hfresh hh
  · simp [ht]

theorem checkout_agrees_iff
    {stored : Option (SessionStatus × Option String × Option String × Option TerminalHookHandoff)} (hactive : c.read.status ≠ .cancelled)
    (hstored : stored = some (if terminalHostLoss c.read then .failed else .queued, none,
      given r.workspaceSlotId.toOption, c.checkoutHandoff.or r.terminalHookHandoff)) :
    some (recoveryView (hostLossOutcome c.read reason c.now c.checkoutHandoff)) = stored ↔ c.CheckoutMirrored r := by
  have hhandoff : c.checkoutHandoff = if terminalHostLoss c.read then c.handoff else none := by
    unfold checkoutHandoff
    rw [if_neg hactive]
    rfl
  rw [hstored, view_hostLossOutcome, hhandoff]
  unfold CheckoutMirrored
  split
  · simp only [some.injEq, Prod.mk.injEq, true_and, or_eq_or_iff, SameHandoff, SameSlot]
    exact and_comm
  · simp only [some.injEq, Prod.mk.injEq, true_and, none_or, SameHandoff]
    rw [and_comm, eq_comm (a := none)]

section Session

variable {w : String} {wt : WorktreeRow} {f : Fence}
  (hr : db.sessions c.sessionId = some r) (hcommit : transact (c.items cleanup) db = .committed db')

include hr hcommit

theorem cancelled_agrees_iff (hsite : c.site = .cancelledWorktree w wt f) (hg : c.guard = true) :
    some (recoveryView c.record) = c.storedView db' ↔ c.SameHandoff r ∧ c.SameSlot r := by
  simp only [guard, hsite] at hg
  simp only [items, hsite] at hcommit
  have hrecord : recoveryView c.record =
      (c.read.status, none, given c.read.workspaceSlotId.toOption, c.read.terminalHookHandoff) := by
    simp only [record, hsite]
    rfl
  obtain ⟨r', hr', hcond, -, -, rfl⟩ := releaseCancelled_committed hcommit
  obtain rfl : r = r' := some.inj (hr.symm.trans hr')
  have hstatus : r.status = .cancelled := (ReleaseCancelledOpts.condition_iff.mp hcond).1
  have hread : c.read.status = .cancelled := by simpa [ReleaseCancelledCall.guard] using hg
  rw [hrecord]
  simp [storedView, ReleaseCancelledOpts.after, ReleaseCancelledOpts.released, ReleaseCancelledCall.opts,
    recoveryView, hstatus, hread, SameHandoff, SameSlot, and_comm, toOption]

theorem requeued_agrees_iff {site : RequeueSite} (hsite : c.site = .requeuedWorktree w wt site) :
    some (recoveryView c.record) = c.storedView db' ↔
      c.SameHandoff r ∧ if site.keepsSlot then c.SameSlot r else given r.workspaceSlotId.toOption = none := by
  simp only [items, hsite] at hcommit
  obtain ⟨r', hr', -, -, rfl⟩ := requeueSession_committed hcommit
  rw [RequeueCall.opts_sessionId] at hr'
  obtain rfl : r = r' := some.inj (hr.symm.trans hr')
  have hrecord : recoveryView c.record =
      (.queued, none, if site.keepsSlot then given c.read.workspaceSlotId.toOption else none,
        c.read.terminalHookHandoff) := by
    simp only [record, hsite]
    cases site <;> rfl
  have hstored : recoveryView ((c.requeueCall w site).opts.requeued r) =
      (.queued, none, given r.workspaceSlotId.toOption, r.terminalHookHandoff) := rfl
  simp only [storedView, RequeueCall.opts_sessionId, requeueCall] at hstored ⊢
  rw [hrecord, update_self, map_some, hstored]
  simp only [some.injEq, Prod.mk.injEq, true_and, SameHandoff, SameSlot]
  rw [and_comm]
  split
  · exact Iff.rfl
  · rw [eq_comm (a := none)]

theorem lost_agrees_iff {pass : RecoveryPass} {fence : Option Fence} (hsite : c.site = .lostWorktree pass w wt fence) :
    some (recoveryView c.record) = c.storedView db' ↔
      (c.handoff = none → c.SameHandoff r) ∧ given c.read.workspaceSlotId.toOption = none := by
  simp only [items, hsite] at hcommit
  have hrecord : recoveryView c.record = (.failed, none, given c.read.workspaceSlotId.toOption,
      c.handoff.or c.read.terminalHookHandoff) := by
    simp only [record, hsite]
    cases hm : c.handoff.any (·.mainCheckoutLease) <;>
      simp [recoveryView, finishHostLostSession, withoutLeases, withoutMainCheckout, hm, toOption]
  have hstored : c.storedView db' =
      some (.failed, none, none, c.handoff.or r.terminalHookHandoff) := stored_of_finish hr rfl hcommit
  rw [hrecord, hstored]
  simp only [some.injEq, Prod.mk.injEq, true_and, or_eq_or_iff, SameHandoff]
  exact and_comm

variable {s reason h k : String} {slot : WorkspaceSlotRow}

theorem disconnectedSlot_agrees_iff (hsite : c.site = .disconnectedSlot s slot f reason) :
    some (recoveryView c.record) = c.storedView db' ↔
      c.SameHandoff r ∧ given c.read.worktreeId.toOption = none := by
  simp only [items, hsite] at hcommit
  have hrecord : recoveryView c.record =
      (if c.read.status = .running then .queued else c.read.status, given c.read.worktreeId.toOption, none,
        c.read.terminalHookHandoff) := by
    simp only [record, hsite]
    rfl
  have hstored : c.storedView db' =
      some (if c.read.status = .running then .queued else c.read.status, none, none, r.terminalHookHandoff) :=
    stored_of_finish hr rfl hcommit
  rw [hrecord, hstored]
  simp only [some.injEq, Prod.mk.injEq, true_and, SameHandoff]
  exact and_comm

theorem omittedSlot_agrees_iff (hsite : c.site = .omittedSlot s slot f reason) (hfresh : c.Fresh r) :
    some (recoveryView c.record) = c.storedView db' ↔ c.LossMirrored r := by
  simp only [items, hsite] at hcommit
  exact loss_agrees_iff reason hfresh (by simp only [record, hsite]) (stored_of_finish hr rfl hcommit)

theorem overdueSlot_running_iff
    (hsite : c.site = .overdueSlot s slot) (hrun : c.read.status = .running) (hfresh : c.Fresh r) :
    some (recoveryView c.record) = c.storedView db' ↔ c.LossMirrored r := by
  simp only [items, hsite] at hcommit
  have hrecord : recoveryView c.record =
      recoveryView (workspaceLossOutcome c.handoffId c.now c.read RECONNECT_DEADLINE_REASON) := by
    simp only [record, hsite, reclaimedWorkspaceSession, if_pos hrun]
    rfl
  have hstatus : (c.finishCall (.deadlineSlot s)).opts.status =
      if terminalHostLoss c.read then .failed else .queued := by
    simp only [finishCall, FinishCall.opts, FinishCall.base, hrun]
    rfl
  refine loss_agrees_iff _ hfresh hrecord ?_
  rw [← hstatus]
  exact stored_of_finish hr rfl hcommit

theorem overdueSlot_stopped_iff (hsite : c.site = .overdueSlot s slot) (hrun : c.read.status ≠ .running) :
    some (recoveryView c.record) = c.storedView db' ↔
      c.SameHandoff r ∧ given c.read.worktreeId.toOption = none := by
  simp only [items, hsite] at hcommit
  have hrecord : recoveryView c.record =
      (c.read.status, given c.read.worktreeId.toOption, none, c.read.terminalHookHandoff) := by
    simp only [record, hsite, reclaimedWorkspaceSession, if_neg hrun]
    rfl
  have hstatus : (c.finishCall (.deadlineSlot s)).opts.status = c.read.status := by
    simp [finishCall, FinishCall.opts, FinishCall.base, hrun]
  have hstored : c.storedView db' =
      some (c.read.status, none, none, r.terminalHookHandoff) := by
    rw [← hstatus]
    exact stored_of_finish hr rfl hcommit
  rw [hrecord, hstored]
  simp only [some.injEq, Prod.mk.injEq, true_and, SameHandoff]
  exact and_comm

theorem disconnectedCheckout_agrees_iff (hsite : c.site = .disconnectedCheckout h k reason) :
    some (recoveryView c.record) = c.storedView db' ↔
      c.SameHandoff r ∧ given r.workspaceSlotId.toOption = none := by
  simp only [items, hsite] at hcommit
  have hrecord : recoveryView c.record = (.queued, none, none, c.read.terminalHookHandoff) := by
    simp only [record, hsite]
    rfl
  have hstored : c.storedView db' =
      some (.queued, none, given r.workspaceSlotId.toOption, r.terminalHookHandoff) :=
    stored_of_release hr hcommit
  rw [hrecord, hstored]
  simp only [some.injEq, Prod.mk.injEq, true_and, SameHandoff]
  rw [and_comm, eq_comm (a := none)]

theorem omittedCheckout_agrees_iff (hsite : c.site = .omittedCheckout h reason) (hg : c.guard = true) :
    some (recoveryView c.record) = c.storedView db' ↔ c.CheckoutMirrored r := by
  simp only [guard, hsite] at hg
  simp only [items, hsite] at hcommit
  have hrun : c.read.status = .running := by simp only [Bool.and_eq_true, beq_iff_eq] at hg; exact hg.1.2
  have hrecord : recoveryView c.record =
      recoveryView (hostLossOutcome c.read reason c.now c.checkoutHandoff) := by
    simp only [record, hsite]
  rw [hrecord]
  exact checkout_agrees_iff (by rw [hrun]; decide) (stored_of_release hr hcommit)

theorem overdueCheckout_cancelled_iff (hsite : c.site = .overdueCheckout) (hcancel : c.read.status = .cancelled) :
    some (recoveryView c.record) = c.storedView db' ↔
      c.SameHandoff r ∧ c.SameSlot r ∧ given c.read.worktreeId.toOption = none := by
  simp only [items, hsite, overdueCheckoutOpts, if_pos hcancel] at hcommit
  have hrecord : recoveryView c.record =
      (.cancelled, given c.read.worktreeId.toOption, given c.read.workspaceSlotId.toOption,
        c.read.terminalHookHandoff) := by
    simp only [record, hsite, if_pos hcancel]
    rw [← hcancel]
    rfl
  have hstored : c.storedView db' =
      some (.cancelled, none, given r.workspaceSlotId.toOption, r.terminalHookHandoff) :=
    stored_of_release hr hcommit
  rw [hrecord, hstored]
  simp only [some.injEq, Prod.mk.injEq, true_and, SameHandoff, SameSlot]
  tauto

theorem overdueCheckout_active_iff (hsite : c.site = .overdueCheckout) (hactive : c.read.status ≠ .cancelled) :
    some (recoveryView c.record) = c.storedView db' ↔ c.CheckoutMirrored r := by
  simp only [items, hsite, overdueCheckoutOpts, if_neg hactive] at hcommit
  have hrecord : recoveryView c.record =
      recoveryView (hostLossOutcome c.read RECONNECT_DEADLINE_REASON c.now c.checkoutHandoff) := by
    simp only [record, hsite, if_neg hactive]
  rw [hrecord]
  exact checkout_agrees_iff hactive (stored_of_release hr hcommit)

theorem session_agrees_iff (hg : c.guard = true) (hfresh : c.Fresh r) :
    some (recoveryView c.record) = c.storedView db' ↔ c.SessionMirrored r := by
  unfold SessionMirrored
  cases hsite : c.site with
  | cancelledWorktree w wt f => exact cancelled_agrees_iff hr hcommit hsite hg
  | requeuedWorktree w wt site => exact requeued_agrees_iff hr hcommit hsite
  | lostWorktree pass w wt fence => exact lost_agrees_iff hr hcommit hsite
  | disconnectedSlot s slot f reason => exact disconnectedSlot_agrees_iff hr hcommit hsite
  | omittedSlot s slot f reason => exact omittedSlot_agrees_iff hr hcommit hsite hfresh
  | overdueSlot s slot =>
    by_cases hrun : c.read.status = .running
    · simpa only [if_pos hrun] using overdueSlot_running_iff hr hcommit hsite hrun hfresh
    · simpa only [if_neg hrun] using overdueSlot_stopped_iff hr hcommit hsite hrun
  | disconnectedCheckout h k reason => exact disconnectedCheckout_agrees_iff hr hcommit hsite
  | omittedCheckout h reason => exact omittedCheckout_agrees_iff hr hcommit hsite hg
  | overdueCheckout =>
    by_cases hcancel : c.read.status = .cancelled
    · simpa only [if_pos hcancel] using overdueCheckout_cancelled_iff hr hcommit hsite hcancel
    · simpa only [if_neg hcancel] using overdueCheckout_active_iff hr hcommit hsite hcancel

end Session

/-! ## The worktree or slot -/

theorem slot_of_finish {s : String} (hfreed : o.freedSlot = some s) (herror : o.workspaceSlotError = none)
    (hcommit : transact (finishSessionItems o cleanup) db = .committed db') : ∃ row, db.workspaceSlots s = some row ∧
      db'.workspaceSlots s = some { row with status := .idle, currentSessionId := .null, errorMessage := none } := by
  obtain ⟨r, -, -, -, hready, rfl⟩ := finishSession_committed hcommit
  obtain ⟨row, hrow, -⟩ := hready.slot s hfreed
  refine ⟨row, hrow, ?_⟩
  simp [after, hfreed, herror, slotsReleased, hrow, WorkspaceSlotRow.freed]

theorem worktree_of_lost {pass : RecoveryPass} {w : String} {fence : Option Fence} (hw : w ≠ "") (hread : c.read.worktreeId = .value w)
    (hcommit : transact (finishSessionItems (c.lostCall pass w fence).opts cleanup) db = .committed db') :
    (db'.worktrees w).map (·.status) = if c.handoff.isSome then (db.worktrees w).map (·.status) else some .idle := by
  obtain ⟨r, -, -, -, hready, rfl⟩ := finishSession_committed hcommit
  have hfreed : (c.lostCall pass w fence).opts.freedWorktree =
      (some w).filter fun w => c.handoff.bind (·.worktreeId) ≠ some w := by
    unfold freedWorktree
    rw [show (c.lostCall pass w fence).opts.worktreeId = some w from rfl, given_of_ne hw]
    rfl
  cases hh : c.handoff with
  | none =>
    have hw' : (c.lostCall pass w fence).opts.freedWorktree = some w := by rw [hfreed, hh]; simp
    obtain ⟨row, hrow, -⟩ := hready.worktree w hw'
    simp [after, hw', worktreesReleased, hrow, WorktreeRow.freed]
  | some h =>
    have hkept : h.worktreeId = some w := by
      obtain ⟨hostId, -, rfl⟩ := map_eq_some_iff.mp hh
      rw [hread]
      rfl
    have hw' : (c.lostCall pass w fence).opts.freedWorktree = none := by rw [hfreed, hh]; simp [hkept]
    simp [after, hw']

theorem resource_agrees_iff {st : ControlPlaneState}
    (hg : c.guard = true) (hcommit : transact (c.items cleanup) db = .committed db') : ((∀ w, c.site.worktree = some w →
        ((c.mirror st db').1.worktrees w).map (·.status) = ((c.mirror st db').2.worktrees w).map (·.status)) ∧
      ∀ s, c.site.slot = some s → ((c.mirror st db').1.workspaceSlots s).map (·.status) =
          ((c.mirror st db').2.workspaceSlots s).map (·.status)) ↔ c.ResourceMirrored st db := by
  unfold guard at hg
  unfold items at hcommit
  unfold ResourceMirrored mirror RecoverySite.worktree RecoverySite.slot
  have hslots := (mirrorSession_caches (c := c) st).2.2
  cases hsite : c.site with
  | cancelledWorktree w wt f =>
    simp only [hsite] at hg hcommit
    obtain ⟨r, -, -, -, hready, rfl⟩ := releaseCancelled_committed hcommit
    obtain ⟨row, hrow, -⟩ := hready.worktree
    have hrow' : db.worktrees w = some row := hrow
    simp [setWorktree, ReleaseCancelledOpts.after,
      ReleaseCancelledCall.opts, worktreesReleased, hrow', WorktreeRow.freed]
  | requeuedWorktree w wt site =>
    simp only [hsite] at hg hcommit
    obtain ⟨r, -, -, hready, rfl⟩ := requeueSession_committed hcommit
    obtain ⟨row, hrow, -⟩ := hready.worktree
    have hid : (c.requeueCall w site).opts.worktreeId = w := by cases site <;> rfl
    rw [hid] at hrow
    simp [setWorktree, hid, worktreesReleased, hrow, WorktreeRow.freed]
  | lostWorktree pass w wt fence =>
    simp only [hsite, Bool.and_eq_true, bne_iff_ne, beq_iff_eq] at hg hcommit
    have hrow := worktree_of_lost hg.1.1.1.1 hg.1.1.2 hcommit
    cases pass <;> cases hh : c.handoff.isSome <;>
      simp [setWorktree, hrow, hh, eq_comm]
  | disconnectedSlot s slot f reason =>
    simp only [hsite, Bool.and_eq_true, bne_iff_ne] at hg hcommit
    have hfreed : (c.finishCall (.disconnectSlot s f reason)).opts.freedSlot = some s :=
      given_of_ne hg.1
    obtain ⟨row, hrow, hrow'⟩ := slot_of_finish hfreed rfl hcommit
    simp only [some.injEq, forall_eq', reduceCtorEq,
      IsEmpty.forall_iff, implies_true, true_and]
    rw [offlineReleasedSlot_agrees_iff hrow' rfl rfl, hslots, hrow]
    simp
  | omittedSlot s slot f reason =>
    simp only [hsite, FinishCall.guard, finishCall, Bool.and_eq_true, beq_iff_eq] at hg hcommit
    have hfreed : (c.finishCall (.omittedSlot s f reason)).opts.freedSlot = some s :=
      given_of_ne (given_eq_some.mp hg.2).2
    obtain ⟨row, hrow, hrow'⟩ := slot_of_finish hfreed rfl hcommit
    simp only [some.injEq, forall_eq', reduceCtorEq,
      IsEmpty.forall_iff, implies_true, true_and, iff_true]
    exact retirement_agrees (update_self ..) rfl hrow' rfl rfl
  | overdueSlot s slot =>
    simp only [hsite, FinishCall.guard, finishCall, Bool.and_eq_true, beq_iff_eq] at hg hcommit
    have hfreed : (c.finishCall (.deadlineSlot s)).opts.freedSlot = some s :=
      given_of_ne (given_eq_some.mp hg.1.2).2
    obtain ⟨row, hrow, hrow'⟩ := slot_of_finish hfreed rfl hcommit
    simp only [some.injEq, forall_eq', reduceCtorEq,
      IsEmpty.forall_iff, implies_true, true_and, iff_true]
    exact retirement_agrees (update_self ..) rfl hrow' rfl rfl
  | disconnectedCheckout | omittedCheckout | overdueCheckout => simp

/-- They agree exactly when the step's records fit the rows that its write met. -/
theorem recovery_mirrored_iff {cleanup : Option (DrainScope × DrainRecord)} {st : ControlPlaneState} {db db' : Db}
    {r : SessionRow} (hg : c.guard = true) (hr : db.sessions c.sessionId = some r) (hfresh : c.Fresh r)
    (hcommit : transact (c.items cleanup) db = .committed db') :
    c.Agrees (c.mirror st db').1 (c.mirror st db').2 ↔ c.SessionMirrored r ∧ c.ResourceMirrored st db := by
  obtain ⟨hrecord, hstore⟩ := mirror_sessions (c := c) st db'
  rw [← session_agrees_iff hr hcommit hg hfresh, ← resource_agrees_iff hg hcommit]
  constructor
  · intro h
    refine ⟨?_, h.worktree, h.slot⟩
    have hsession := h.session
    rwa [hrecord, hstore, map_some] at hsession
  · rintro ⟨hsession, hworktree, hslot⟩
    refine ⟨?_, hworktree, hslot⟩
    rw [hrecord, hstore, map_some]
    exact hsession

end Recovery

/-! ## A worktree session and a workspace session -/

section TwoSessions

private def overdueRow (start : CommandStartState) : SessionRow :=
  { status := .running, worktreeId := .value "w", hostId := .value "h", attemptId := some "t"
    ackReceivedAt := some 1, reconnectDeadlineAt := some 5, primaryCommandStartState := some start }

private def overdueStore (start : CommandStartState) : Db where
  sessions := fun id => if id = "s" then some (overdueRow start) else none
  worktrees := fun id =>
    if id = "w" then some { hostId := "h", repositoryId := "", status := .busy, currentSessionId := .value "s" }
    else none

private def busyWorktree : WorktreeRow :=
  { hostId := "h", repositoryId := "", status := .busy, currentSessionId := .value "s" }

private def overdueCaches (start : CommandStartState) : ControlPlaneState where
  ackDeadlineMs := 0
  pendingAcks := ⟨[], List.nodup_nil⟩
  sessions := (overdueStore start).sessions
  worktrees := (overdueStore start).worktrees

private def overdueLoss : Recovery :=
  ⟨"s", overdueRow .authorized, 6, "x", .lostWorktree .deadline "w" busyWorktree none⟩

private def overdueRetry : Recovery :=
  ⟨"s", overdueRow .pending, 6, "x", .requeuedWorktree "w" busyWorktree (.reconnectDeadline "h" none)⟩

private def slotRow : SessionRow :=
  { status := .running, workspaceSlotId := .value "slot", workspaceSlotLease := true, hostId := .value "h"
    attemptId := some "t", ackReceivedAt := some 1, primaryCommandStartState := some .authorized }

private def busySlot : WorkspaceSlotRow :=
  { hostId := "h", workspacePoolId := "p", status := .busy, currentSessionId := .value "s" }

private def slotStore : Db where
  sessions := fun id => if id = "s" then some slotRow else none
  workspaceSlots := fun id => if id = "slot" then some busySlot else none
  hostLocks := fun id => if id = "h" then some { connectionId := some "k" } else none

private def slotCaches : ControlPlaneState where
  ackDeadlineMs := 0
  pendingAcks := ⟨[], List.nodup_nil⟩
  sessions := slotStore.sessions
  workspaceSlots := slotStore.workspaceSlots

private def slotLoss : Recovery := ⟨"s", slotRow, 6, "x", .omittedSlot "slot" busySlot ⟨"h", "k"⟩ "omitted"⟩

private def after (c : Recovery) (db : Db) : Db := runAll (c.items none) db

private theorem retry_committed : transact (overdueRetry.items none) (overdueStore .pending) =
      .committed (after overdueRetry (overdueStore .pending)) :=
  transact_of_ready (by decide +kernel) (by decide +kernel)

theorem recovery_mirrored_retry :
    overdueRetry.Agrees (overdueRetry.mirror (overdueCaches .pending) (after overdueRetry (overdueStore .pending))).1
      (overdueRetry.mirror (overdueCaches .pending) (after overdueRetry (overdueStore .pending))).2 :=
  (Recovery.recovery_mirrored_iff (by decide +kernel) rfl (by intro h hh; cases hh) retry_committed).mpr
    ⟨⟨rfl, rfl⟩, trivial⟩

/-- A worktree is cached as idle while its row stays busy for the handoff; an omitted workspace session is cached with
a handoff its row lacks. -/
theorem recovery_caches_diverge : (transact (overdueLoss.items none) (overdueStore .authorized) =
        .committed (after overdueLoss (overdueStore .authorized)) ∧
      ((overdueLoss.mirror (overdueCaches .authorized) (after overdueLoss (overdueStore .authorized))).1.worktrees
        "w").map (·.status) = some .idle ∧
      ((overdueLoss.mirror (overdueCaches .authorized) (after overdueLoss (overdueStore .authorized))).2.worktrees
        "w").map (·.status) = some .busy) ∧
    transact (slotLoss.items none) slotStore = .committed (after slotLoss slotStore) ∧
      ((slotLoss.mirror slotCaches (after slotLoss slotStore)).1.sessions "s").map
        (fun r => r.terminalHookHandoff.isSome) = some true ∧
      ((slotLoss.mirror slotCaches (after slotLoss slotStore)).2.sessions "s").map
        (fun r => r.terminalHookHandoff.isSome) = some false :=
  ⟨⟨transact_of_ready (by decide +kernel) (by decide +kernel), by decide +kernel, by decide +kernel⟩,
    transact_of_ready (by decide +kernel) (by decide +kernel), by decide +kernel, by decide +kernel⟩

end TwoSessions

end AutoHarness.Plane

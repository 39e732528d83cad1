import AutoHarness.Plane.Local

/-! What the recovery of a lost host leaves in the caches. A step reads a session and what it holds, settles it by one
write, and then writes into its caches what it takes the transaction to have done. -/

namespace AutoHarness.Plane
open Foundation Store

/-- The three passes that find lost sessions. -/
inductive RecoveryPass where
  | disconnect
  | omitted
  | deadline
deriving DecidableEq

/-- Where a recovery write is made, with the rows and the options of the site. -/
inductive RecoverySite where
  | cancelledWorktree (worktreeId : String) (wt : WorktreeRow) (fence : Fence)
  | requeuedWorktree (worktreeId : String) (wt : WorktreeRow) (site : RequeueSite)
  | lostWorktree (pass : RecoveryPass) (worktreeId : String) (wt : WorktreeRow) (fence : Option Fence)
  | disconnectedSlot (slotId : String) (slot : WorkspaceSlotRow) (fence : Fence) (reason : String)
  | omittedSlot (slotId : String) (slot : WorkspaceSlotRow) (fence : Fence) (reason : String)
  | overdueSlot (slotId : String) (slot : WorkspaceSlotRow)
  | disconnectedCheckout (hostId connectionId reason : String)
  | omittedCheckout (hostId reason : String)
  | overdueCheckout

/-- A recovery step: the session as it was read, and the time and the handoff id that are drawn. -/
structure Recovery where
  sessionId : String
  read : SessionRow
  now : Timestamp
  handoffId : String
  site : RecoverySite

/-- The requeues of the three passes; the other two sites belong to acknowledgements and reports. -/
def RequeueSite.recovers : RequeueSite → Bool
  | .ackDeadline | .infrastructure _ _ _ => false
  | _ => true

def RequeueSite.keepsSlot : RequeueSite → Bool
  | .disconnect _ _ => true
  | _ => false

def RequeueSite.online : RequeueSite → Bool
  | .omittedHostLoss _ | .omitted _ _ => true
  | _ => false

/-- The callee's handoff parameter is undefined, and so takes its default. -/
def finishHostLostWorkspaceSession (handoffId : String) (now : Timestamp) (session : SessionRow) : SessionRow :=
  { finishHostLostSession now session (hostLostTerminalHookHandoff handoffId now session) with
    workspaceSlotId := .missing
    workspaceSlotLease := false
    hostId := .null }

/-- Retried, failed, or requeued when it was not acknowledged. -/
def workspaceLossOutcome (handoffId : String) (now : Timestamp) (session : SessionRow) (reason : String) :
    SessionRow :=
  if retryableHostLoss session then queueHostLossRetry (withoutLeases session)
  else if terminalHostLoss session then finishHostLostWorkspaceSession handoffId now (withoutLeases session)
  else queueReconnectSession (withoutLeases session) reason

/-- A cancelled or timed-out session keeps its status. -/
def reclaimedWorkspaceSession (handoffId : String) (now : Timestamp) (session : SessionRow) : SessionRow :=
  { (if session.status = .running then workspaceLossOutcome handoffId now session RECONNECT_DEADLINE_REASON
    else { withoutLeases session with workspaceSlotId := .null, hostId := .null }) with
    workspaceSlotLease := false
    assignmentConnectionId := none
    assignmentSentAt := none
    ackReceivedAt := none
    reconnectDeadlineAt := none
    timedOutHostId := none
    timedOutAssignmentConnectionId := none }

namespace Recovery

variable (c : Recovery)

/-! ## The writes -/

def requeueCall (worktreeId : String) (site : RequeueSite) : RequeueCall := ⟨c.sessionId, c.read, worktreeId, site⟩

def finishCall (site : FinishSite) : FinishCall := ⟨c.sessionId, c.read, c.now, site⟩

def lostCall (pass : RecoveryPass) (worktreeId : String) (fence : Option Fence) : FinishCall :=
  c.finishCall (.hostLost worktreeId fence (pass = .deadline) c.handoffId)

def handoff : Option TerminalHookHandoff := hostLostTerminalHookHandoff c.handoffId c.now c.read

def checkoutHandoff : Option TerminalHookHandoff :=
  if c.read.status = .cancelled then none else ControlPlaneState.hostLossHandoff c.handoffId c.now c.read

def lostCheckoutOpts (hostId reason : String) : ReleaseMainCheckoutOpts :=
  let terminal := terminalHostLoss c.read
  { sessionId := c.sessionId
    hostId := hostId
    repositoryId := c.read.repositoryId
    connectionId := c.read.assignmentConnectionId.getD ""
    status := if terminal then .failed else .queued
    queueShard := c.read.queueShard
    attemptId := given c.read.attemptId
    reason := some (hostLossReason c.read reason)
    completedAt := if terminal then some c.now else none
    errorCode := if terminal then some "host_lost" else none
    concurrencyId := if terminal then given c.read.concurrencyId else none
    terminalHookHandoff := c.checkoutHandoff
    infrastructureErrorCode := if retryableHostLoss c.read then some .hostLost else none
    providerAccountLease := c.read.providerAccountLease
    hostAssignmentLease := c.read.hostAssignmentLease }

def overdueCheckoutOpts : ReleaseMainCheckoutOpts :=
  let hostId := c.read.hostId.toOption.getD ""
  if c.read.status = .cancelled then
    { sessionId := c.sessionId
      hostId := hostId
      repositoryId := c.read.repositoryId
      connectionId := c.read.assignmentConnectionId.getD ""
      status := .cancelled
      queueShard := c.read.queueShard
      attemptId := given c.read.attemptId
      reason := some (c.read.errorMessage.getD "cancelled by operator")
      expectedStatus := some .cancelled
      concurrencyId := given c.read.concurrencyId
      providerAccountLease := c.read.providerAccountLease
      hostAssignmentLease := c.read.hostAssignmentLease }
  else c.lostCheckoutOpts hostId RECONNECT_DEADLINE_REASON

def disconnectedCheckoutOpts (hostId connectionId reason : String) : ReleaseMainCheckoutOpts where
  sessionId := c.sessionId
  hostId := hostId
  repositoryId := c.read.repositoryId
  connectionId := connectionId
  status := .queued
  queueShard := c.read.queueShard
  reason := some reason
  providerAccountLease := c.read.providerAccountLease
  hostAssignmentLease := c.read.hostAssignmentLease

/-- The write of the step; `cleanup` is the activity member it removes, as read before. -/
def items (cleanup : Option (DrainScope × DrainRecord)) : List TransactItem :=
  match c.site with
  | .cancelledWorktree w _ f =>
    releaseCancelledSessionWorktreeItems (ReleaseCancelledCall.opts ⟨c.sessionId, c.read, w, .disconnect f⟩) cleanup
  | .requeuedWorktree w _ site => tryRequeueSessionItems (c.requeueCall w site).opts
  | .lostWorktree pass w _ fence => finishSessionItems (c.lostCall pass w fence).opts cleanup
  | .disconnectedSlot s _ f reason => finishSessionItems (c.finishCall (.disconnectSlot s f reason)).opts cleanup
  | .omittedSlot s _ f reason => finishSessionItems (c.finishCall (.omittedSlot s f reason)).opts cleanup
  | .overdueSlot s _ => finishSessionItems (c.finishCall (.deadlineSlot s)).opts cleanup
  | .disconnectedCheckout h k reason =>
    releaseMainCheckoutSessionItems (c.disconnectedCheckoutOpts h k reason) cleanup
  | .omittedCheckout h reason => releaseMainCheckoutSessionItems (c.lostCheckoutOpts h reason) cleanup
  | .overdueCheckout => releaseMainCheckoutSessionItems c.overdueCheckoutOpts cleanup

def guard : Bool :=
  match c.site with
  | .cancelledWorktree w _ f => ReleaseCancelledCall.guard ⟨c.sessionId, c.read, w, .disconnect f⟩
  | .requeuedWorktree w _ site => site.recovers && (c.requeueCall w site).guard
  | .lostWorktree pass w _ _ =>
    w != "" && c.read.status == .running && c.read.worktreeId == .value w && !canRetryHostLoss c.read &&
      (if pass = .deadline then c.read.reconnectDeadlineAt.isSome && (given c.read.workspaceSlotId.toOption).isNone
      else c.read.ackReceivedAt.isSome)
  | .disconnectedSlot s _ f reason => s != "" && (c.finishCall (.disconnectSlot s f reason)).guard
  | .omittedSlot s _ f reason => (c.finishCall (.omittedSlot s f reason)).guard
  | .overdueSlot s _ => (c.finishCall (.deadlineSlot s)).guard
  | .disconnectedCheckout _ _ _ =>
    c.read.mainCheckoutLease && c.read.status == .running && (given c.read.assignmentConnectionId).isSome &&
      c.read.ackReceivedAt.isNone
  | .omittedCheckout _ _ =>
    c.read.mainCheckoutLease && c.read.status == .running && (given c.read.assignmentConnectionId).isSome
  | .overdueCheckout =>
    c.read.mainCheckoutLease && (c.read.status == .running || c.read.status == .cancelled) &&
      (given c.read.hostId.toOption).isSome && (given c.read.assignmentConnectionId).isSome &&
      c.read.reconnectDeadlineAt.isSome

/-! ## The mirrored records -/

/-- The record of a requeued session. The first disconnect writes its fields out and keeps the slot. -/
def requeuedRecord : RequeueSite → SessionRow
  | .disconnect _ reason =>
    { withoutLeases c.read with
      status := .queued
      worktreeId := .null
      hostId := .null
      errorMessage := some reason
      activeHostId := none
      sessionApiKeyHash := none }
  | .omitted _ reason => queueReconnectSession (withoutLeases c.read) reason
  | _ => queueHostLossRetry (withoutLeases c.read)

/-- The row that the pass caches. -/
def record : SessionRow :=
  match c.site with
  | .cancelledWorktree _ _ _ => { withoutLeases c.read with worktreeId := .null }
  | .requeuedWorktree _ _ site => c.requeuedRecord site
  | .lostWorktree _ _ _ _ => finishHostLostSession c.now (withoutLeases c.read) c.handoff
  | .disconnectedSlot _ _ _ reason =>
    { withoutLeases c.read with
      status := if c.read.status = .running then .queued else c.read.status
      workspaceSlotId := .null
      hostId := .null
      errorMessage := if c.read.status = .running then some reason else c.read.errorMessage
      workspaceSlotLease := false
      assignmentConnectionId := none
      assignmentSentAt := none
      ackReceivedAt := none
      reconnectDeadlineAt := none }
  | .omittedSlot _ _ _ reason => workspaceLossOutcome c.handoffId c.now c.read reason
  | .overdueSlot _ _ => reclaimedWorkspaceSession c.handoffId c.now c.read
  | .disconnectedCheckout _ _ reason => queueReconnectSession (withoutLeases c.read) reason
  | .omittedCheckout _ reason =>
    ControlPlaneState.hostLossOutcome c.read reason c.now c.checkoutHandoff
  | .overdueCheckout =>
    if c.read.status = .cancelled then
      { withoutMainCheckout (withoutLeases c.read) with activeHostId := none }
    else ControlPlaneState.hostLossOutcome c.read RECONNECT_DEADLINE_REASON c.now c.checkoutHandoff

end Recovery

namespace ControlPlaneState

def setWorktree (st : ControlPlaneState) (worktreeId : String) (wt : WorktreeRow) : ControlPlaneState :=
  { st with worktrees := Function.update st.worktrees worktreeId (some wt) }

def setSlot (st : ControlPlaneState) (slotId : String) (slot : Option WorkspaceSlotRow) : ControlPlaneState :=
  { st with workspaceSlots := Function.update st.workspaceSlots slotId slot }

end ControlPlaneState

/-! ## The second writes of a slot -/

/-- The condition of the conditional delete. -/
def removableSlot (slot : WorkspaceSlotRow) : Bool :=
  slot.retired && slot.currentSessionId.toOption.isNone && slot.status != .busy

def deleteRetiredWorkspaceSlotIfIdle (slotId : String) (db : Db) : Bool × Db :=
  if (db.workspaceSlots slotId).any removableSlot then
    (true, { db with workspaceSlots := Function.update db.workspaceSlots slotId none })
  else (false, db)

def removeReleasedRetiredWorkspaceSlotDurable (slotId : String) (st : ControlPlaneState) (db : Db) :
    Bool × ControlPlaneState × Db :=
  if (st.workspaceSlots slotId).any fun slot => slot.retired && slot.currentSessionId.toOption.isNone then
    let deleted := deleteRetiredWorkspaceSlotIfIdle slotId db
    (deleted.1, if deleted.1 then st.setSlot slotId none else st, deleted.2)
  else (false, st, db)

/-- The stored slot is of the expected connection, in the same status and free. -/
def putWorkspaceSlotFenced (slotId : String) (slot : WorkspaceSlotRow) (expectedConnectionId : Option String)
    (db : Db) : Bool × Db :=
  if (db.workspaceSlots slotId).all fun row =>
      row.connectionId == given expectedConnectionId && row.status == slot.status &&
        row.currentSessionId.toOption.isNone then
    (true, { db with workspaceSlots := Function.update db.workspaceSlots slotId (some slot) })
  else (false, db)

/-- The slot of a lost connection: a tombstone is removed, any other slot is read again and put offline. -/
def offlineReleasedSlot (slotId : String) (slot : WorkspaceSlotRow) (connectionId : String) (st : ControlPlaneState)
    (db : Db) : ControlPlaneState × Db :=
  let removal := removeReleasedRetiredWorkspaceSlotDurable slotId st db
  if removal.1 then removal.2
  else
    let offline := { (db.workspaceSlots slotId).getD slot with online := false }
    let put := putWorkspaceSlotFenced slotId offline ((given slot.connectionId).map fun _ => connectionId) db
    (if put.1 then st.setSlot slotId (some offline) else st, put.2)

namespace Recovery

variable (c : Recovery)

/-- Dropped unless a handoff keeps the checkout; the omitted sessions leave the lease map alone. -/
def mirrorLease (st : ControlPlaneState) : ControlPlaneState :=
  match c.site with
  | .disconnectedCheckout _ _ _ => st.releaseScheduledLeaseLocal c.sessionId c.read
  | .overdueCheckout =>
    if c.checkoutHandoff.any (·.mainCheckoutLease) then st
    else st.releaseScheduledLeaseLocal c.sessionId c.read
  | _ => st

def mirrorSession (st : ControlPlaneState) : ControlPlaneState :=
  let st := ((c.mirrorLease st).releaseProviderAccountLeaseLocal c.sessionId c.read).setSession c.sessionId c.record
  match c.site with
  | .cancelledWorktree _ _ _ => st
  | _ => st.forget c.sessionId

/-- What the process does after its write: the caches it leaves, and the store after the second writes. -/
def mirror (st : ControlPlaneState) (db : Db) : ControlPlaneState × Db :=
  let st := c.mirrorSession st
  match c.site with
  | .cancelledWorktree w wt _ =>
    (st.setWorktree w { wt with status := .idle, currentSessionId := .null, online := false }, db)
  | .requeuedWorktree w wt site =>
    (st.setWorktree w { wt with status := .idle, currentSessionId := .null, online := site.online }, db)
  | .lostWorktree .omitted w wt _ =>
    (st.setWorktree w
      (if c.handoff.isSome then
        { wt with status := .busy, currentSessionId := .value c.sessionId, online := true }
      else { wt with status := .idle, currentSessionId := .null, online := true }), db)
  | .lostWorktree _ w wt _ =>
    (st.setWorktree w { wt with status := .idle, currentSessionId := .null, online := false }, db)
  | .disconnectedSlot s slot f _ => offlineReleasedSlot s slot f.connectionId st db
  | .omittedSlot s slot _ _ =>
    (removeReleasedRetiredWorkspaceSlotDurable s
      (st.setSlot s (some { slot with status := .idle, currentSessionId := .null, errorMessage := none })) db).2
  | .overdueSlot s slot =>
    (removeReleasedRetiredWorkspaceSlotDurable s
      (st.setSlot s (some { slot with status := .idle, currentSessionId := .null, online := false })) db).2
  | .disconnectedCheckout _ _ _ | .omittedCheckout _ _ | .overdueCheckout => (st, db)

/-! ## Agreement -/

end Recovery

/-- What of a row the caches have to agree on. -/
def recoveryView (r : SessionRow) :
    SessionStatus × Option String × Option String × Option TerminalHookHandoff :=
  (r.status, given r.worktreeId.toOption, given r.workspaceSlotId.toOption, r.terminalHookHandoff)

def RecoverySite.worktree : RecoverySite → Option String
  | .cancelledWorktree w _ _ | .requeuedWorktree w _ _ | .lostWorktree _ w _ _ => some w
  | _ => none

def RecoverySite.slot : RecoverySite → Option String
  | .disconnectedSlot s _ _ _ | .omittedSlot s _ _ _ | .overdueSlot s _ => some s
  | _ => none

namespace Recovery

variable (c : Recovery)

/-- The caches say of the session and of its target what the store says. -/
structure Agrees (st : ControlPlaneState) (db : Db) : Prop where
  session : (st.sessions c.sessionId).map recoveryView =
    (db.sessions c.sessionId).map recoveryView
  worktree : ∀ w, c.site.worktree = some w → (st.worktrees w).map (·.status) = (db.worktrees w).map (·.status)
  slot : ∀ s, c.site.slot = some s → (st.workspaceSlots s).map (·.status) = (db.workspaceSlots s).map (·.status)

def SameHandoff (r : SessionRow) : Prop := c.read.terminalHookHandoff = r.terminalHookHandoff

def SameSlot (r : SessionRow) : Prop :=
  given c.read.workspaceSlotId.toOption = given r.workspaceSlotId.toOption

/-- A workspace session that fails for good is mirrored with a handoff nobody stored, unless its host is
unknown. -/
def LossMirrored (r : SessionRow) : Prop :=
  c.SameHandoff r ∧ (terminalHostLoss c.read = true → given c.read.hostId.toOption = none)

/-- What the row read and the stored row have in common before a checkout is recovered. -/
def CheckoutMirrored (r : SessionRow) : Prop :=
  if terminalHostLoss c.read then (c.handoff = none → c.SameHandoff r) ∧ c.SameSlot r
  else c.SameHandoff r ∧ given r.workspaceSlotId.toOption = none

/-- The record fits the row `r` that the write met. -/
def SessionMirrored (r : SessionRow) : Prop :=
  match c.site with
  | .cancelledWorktree _ _ _ => c.SameHandoff r ∧ c.SameSlot r
  | .requeuedWorktree _ _ site =>
    c.SameHandoff r ∧ if site.keepsSlot then c.SameSlot r else given r.workspaceSlotId.toOption = none
  | .lostWorktree _ _ _ _ =>
    (c.handoff = none → c.SameHandoff r) ∧ given c.read.workspaceSlotId.toOption = none
  | .disconnectedSlot _ _ _ _ => c.SameHandoff r ∧ given c.read.worktreeId.toOption = none
  | .omittedSlot _ _ _ _ => c.LossMirrored r
  | .overdueSlot _ _ =>
    if c.read.status = .running then c.LossMirrored r
    else c.SameHandoff r ∧ given c.read.worktreeId.toOption = none
  | .disconnectedCheckout _ _ _ => c.SameHandoff r ∧ given r.workspaceSlotId.toOption = none
  | .omittedCheckout _ _ => c.CheckoutMirrored r
  | .overdueCheckout =>
    if c.read.status = .cancelled then
      c.SameHandoff r ∧ c.SameSlot r ∧ given c.read.worktreeId.toOption = none
    else c.CheckoutMirrored r

/-- A reserved worktree is left as it was; a slot is put offline unless its connection changed. -/
def ResourceMirrored (st : ControlPlaneState) (db : Db) : Prop :=
  match c.site with
  | .lostWorktree pass w _ _ =>
    c.handoff.isSome → (db.worktrees w).map (·.status) = some (if pass = .omitted then .busy else .idle)
  | .disconnectedSlot s slot f _ =>
    ((st.workspaceSlots s).any (fun x => x.retired && x.currentSessionId.toOption.isNone) = true ∧
        (db.workspaceSlots s).any (·.retired) = true) ∨
      (db.workspaceSlots s).any (fun x =>
        x.connectionId == given ((given slot.connectionId).map fun _ => f.connectionId)) = true ∨
      (st.workspaceSlots s).map (·.status) = some .idle
  | _ => True

end Recovery

end AutoHarness.Plane

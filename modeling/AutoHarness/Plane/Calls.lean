import AutoHarness.Plane.Planner
import AutoHarness.Store.Capacity

/-! The call sites of `tryRequeueSession`, `finishSession` and `releaseCancelledSessionWorktree`. A call is a session
id, the row the caller read, and its site; `guard` is the branch condition of the site. -/

namespace AutoHarness.Plane
open Foundation Store Option Bool

def HOST_LOSS_RETRY_REASON : String := "host was lost before command launch; retrying once"
def HOST_LOSS_TERMINAL_REASON : String := "host lost after command authorization or retry exhaustion"
def TIMEOUT_ERROR : String := "session exceeded timeout without a host terminal report"
def ACK_DEADLINE_REASON : String := "agent did not acknowledge assignment; requeued"
def RECONNECT_DEADLINE_REASON : String := "daemon reconnect deadline exceeded; requeued"
def TERMINAL_HOOK_HANDOFF_MAX_AGE_MS : ℕ := 24 * 60 * 60 * 1000

/-- The command was not authorized, and no retry has been used. -/
def canRetryHostLoss (r : SessionRow) : Bool :=
  r.primaryCommandStartState == some .pending && decide (r.infrastructureRetryCount.getD 0 < 1)

/-! ## Requeues -/

/-- The places of the source that call `tryRequeueSession`. -/
inductive RequeueSite where
  | disconnectHostLoss (fence : Fence)
  | disconnect (fence : Fence) (reason : String)
  | omittedHostLoss (fence : Fence)
  | omitted (fence : Fence) (reason : String)
  | reconnectDeadline (hostId : String) (hostLock : Option String)
  | ackDeadline
  | infrastructure (fence : Option Fence) (code : InfrastructureErrorCode) (message : Option String)

/-- One call with the row it was decided on. -/
structure RequeueCall where
  sessionId : String
  read : SessionRow
  worktreeId : String
  site : RequeueSite

namespace RequeueCall

/-- What every site passes. -/
def base (c : RequeueCall) : RequeueOpts where
  sessionId := c.sessionId
  worktreeId := c.worktreeId
  attemptId := c.read.attemptId.getD ""
  queueShard := c.read.queueShard
  providerAccountLease := c.read.providerAccountLease
  hostAssignmentLease := c.read.hostAssignmentLease

/-- What the site adds. -/
def opts (c : RequeueCall) : RequeueOpts :=
  match c.site with
  | .disconnectHostLoss f =>
    { c.base with
      reason := some HOST_LOSS_RETRY_REASON, forceOffline := true, expectedHostId := some f.hostId
      expectedConnectionId := some f.connectionId, fence := some f
      infrastructureErrorCode := some .hostLost }
  | .disconnect f reason =>
    { c.base with
      reason := some reason, forceOffline := true, expectedConnectionId := some f.connectionId
      fence := some f }
  | .omittedHostLoss f =>
    { c.base with
      reason := some HOST_LOSS_RETRY_REASON, expectedHostId := some f.hostId
      nextConnectionId := some f.connectionId
      expectedConnectionId := given c.read.assignmentConnectionId, fence := some f
      infrastructureErrorCode := some .hostLost }
  | .omitted f reason =>
    { c.base with
      reason := some reason, expectedHostId := some f.hostId, nextConnectionId := some f.connectionId
      expectedConnectionId := given c.read.assignmentConnectionId, fence := some f }
  | .reconnectDeadline h lock =>
    { c.base with
      reason := some HOST_LOSS_RETRY_REASON, forceOffline := true, expectedHostId := some h
      expectedReconnectDeadlineAt := c.read.reconnectDeadlineAt
      expectedConnectionId := given c.read.assignmentConnectionId
      fence := (given lock).map fun k => ⟨h, k⟩
      requireNoHostLock := if (given lock).isNone then some h else none
      infrastructureErrorCode := some .hostLost }
  | .ackDeadline =>
    { c.base with reason := some ACK_DEADLINE_REASON, requireUnacknowledged := true }
  | .infrastructure fence code message =>
    { c.base with
      reason := some (message.getD "infrastructure retry"), fence := fence
      infrastructureErrorCode := some code }

/-- What the site has found in the row before it calls. -/
def guard (c : RequeueCall) : Bool :=
  match c.site with
  | .disconnectHostLoss f =>
    c.read.status == .running && c.read.hostId == .value f.hostId && c.read.worktreeId == .value c.worktreeId &&
      c.read.ackReceivedAt.isSome && c.read.reconnectDeadlineAt.isNone && canRetryHostLoss c.read
  | .disconnect _ _ => c.read.status == .running && c.read.ackReceivedAt.isNone
  | .omittedHostLoss _ =>
    c.read.status == .running && c.read.worktreeId == .value c.worktreeId && c.read.ackReceivedAt.isSome &&
      canRetryHostLoss c.read
  | .omitted _ _ =>
    c.read.status == .running && c.read.worktreeId == .value c.worktreeId &&
      (c.read.ackReceivedAt.isNone || canRetryHostLoss c.read)
  | .reconnectDeadline h _ =>
    c.read.status == .running && c.read.worktreeId == .value c.worktreeId && c.read.hostId == .value h &&
      c.read.reconnectDeadlineAt.isSome && (given c.read.workspaceSlotId.toOption).isNone &&
      canRetryHostLoss c.read
  | .ackDeadline => c.read.ackReceivedAt.isNone && c.read.worktreeId == .value c.worktreeId
  | .infrastructure _ _ _ => c.read.status == .running && c.read.worktreeId == .value c.worktreeId

end RequeueCall

/-! ## Status reports -/

/-- A `session:status` message; `result` is the reported result after normalization. -/
structure StatusMessage extends StatusEvent where
  sessionId : String
  deferTerminalHookResult : Bool := false
  workspaceSlotError : Option String := none

def finishEffect (plan : SessionTransitionPlan) :
    Option (SessionStatus × Timestamp × SessionReportFields) :=
  plan.findSome? fun
    | .finish s t f _ => some (s, t, f)
    | _ => none

def requeueEffect (plan : SessionTransitionPlan) : Option (RequeueReason × SessionReportFields) :=
  plan.findSome? fun
    | .requeue reason f => some (reason, f)
    | _ => none

/-- `primary === undefined ? fallback : primary`; a null counts as defined. -/
def firstDefined (primary fallback : Attr ℤ) : Attr ℤ := if primary = .missing then fallback else primary

def reportFieldsFromPlan (plan : SessionTransitionPlan) : SessionReportFields :=
  let finish := ((finishEffect plan).map (·.2.2)).getD {}
  let requeue := ((requeueEffect plan).map (·.2)).getD {}
  { exitCode := firstDefined finish.exitCode requeue.exitCode
    errorCode := finish.errorCode.or requeue.errorCode
    errorMessage := finish.errorMessage.or requeue.errorMessage
    cliResumeRef := finish.cliResumeRef.or requeue.cliResumeRef
    result := finish.result }

/-- Build `finishSession` arguments from finish or requeue effects. -/
def finishSessionOptsFromPlan (sessionId : String) (r : SessionRow) (plan : SessionTransitionPlan)
    (attemptId : String) (fence : Option Fence) (workspaceSlotError : Option String) : FinishSessionOpts :=
  let finish := finishEffect plan
  let fields := reportFieldsFromPlan plan
  { sessionId, attemptId, fence
    worktreeId := r.worktreeId.toOption
    workspaceSlotId := ((given r.workspaceSlotId.toOption).map Attr.value).getD .missing
    workspaceSlotError := given workspaceSlotError
    status := (finish.map (·.1)).getD .queued
    queueShard := r.queueShard
    completedAt := finish.map (·.2.1)
    exitCode := fields.exitCode
    errorCode := fields.errorCode
    errorMessage := fields.errorMessage
    cliResumeRef := fields.cliResumeRef
    result := fields.result
    concurrencyId := r.concurrencyId
    providerAccountLease := r.providerAccountLease
    hostAssignmentLease := r.hostAssignmentLease }

/-- The handoff of a report that leaves its hook to be run later. -/
def deferredTerminalHookHandoff (handoffId : String) (now : Timestamp) (r : SessionRow) (msg : StatusMessage) :
    Option TerminalHookHandoff :=
  (r.hostId.toOption.or r.timedOutHostId).bind fun hostId =>
    if hostId = "" then none
    else some {
      handoffId, hostId
      attemptId := some msg.attemptId
      repositoryId := r.repositoryId
      worktreeId := r.worktreeId.toOption
      mainCheckoutLease := r.mainCheckoutLease
      status := msg.status
      errorCode := msg.errorCode
      expiresAt := now + TERMINAL_HOOK_HANDOFF_MAX_AGE_MS }

/-- The handoff of a session whose host was lost. -/
def hostLostTerminalHookHandoff (handoffId : String) (now : Timestamp) (r : SessionRow) :
    Option TerminalHookHandoff :=
  (given r.hostId.toOption).map fun hostId =>
    { handoffId, hostId
      attemptId := given r.attemptId
      repositoryId := r.repositoryId
      worktreeId := r.worktreeId.toOption
      mainCheckoutLease := r.mainCheckoutLease
      status := .failed
      errorCode := some "host_lost"
      expiresAt := now + TERMINAL_HOOK_HANDOFF_MAX_AGE_MS }

/-- The plan of a durable report; `account` is the cooldown of the loaded provider account. -/
def durablePlan (r : SessionRow) (msg : StatusMessage) (now : Timestamp) (account : Option ℕ) :
    SessionTransitionPlan :=
  planSessionTransition (some r) (.status msg.toStatusEvent)
    { now, source := .durable, deferTerminalHookResult := msg.deferTerminalHookResult
      providerAccount := account }

/-! ## Terminal writes -/

/-- The places of the source that call `finishSession`. -/
inductive FinishSite where
  | hostLost (worktreeId : String) (fence : Option Fence) (atDeadline : Bool) (handoffId : String)
  | disconnectSlot (slotId : String) (fence : Fence) (reason : String)
  | omittedSlot (slotId : String) (fence : Fence) (reason : String)
  | deadlineSlot (slotId : String)
  | timeout
  | lateDetached (msg : StatusMessage) (fence : Option Fence) (handoffId : String)
  | lateSlot (msg : StatusMessage) (fence : Option Fence) (handoffId : String)
  | lateWorktree (msg : StatusMessage) (fence : Option Fence) (handoffId : String)
  | timedOutSlot (msg : StatusMessage)
  | cancelledSlot (msg : StatusMessage) (fence : Option Fence)
  | report (msg : StatusMessage) (fence : Option Fence) (handoffId : String) (account : Option ℕ)

structure FinishCall where
  sessionId : String
  read : SessionRow
  now : Timestamp
  site : FinishSite

def hostLossReason (r : SessionRow) (otherwise : String) : String :=
  if r.ackReceivedAt.isSome then
    if canRetryHostLoss r then HOST_LOSS_RETRY_REASON else HOST_LOSS_TERMINAL_REASON
  else otherwise

/-- An acknowledged session is failed when it may not be retried. -/
def terminalHostLoss (r : SessionRow) : Bool := r.ackReceivedAt.isSome && !canRetryHostLoss r
def retryableHostLoss (r : SessionRow) : Bool := r.ackReceivedAt.isSome && canRetryHostLoss r

namespace FinishCall

def base (c : FinishCall) (status : SessionStatus) : FinishSessionOpts where
  sessionId := c.sessionId
  attemptId := c.read.attemptId.getD ""
  status := status
  queueShard := c.read.queueShard
  concurrencyId := given c.read.concurrencyId
  providerAccountLease := c.read.providerAccountLease
  hostAssignmentLease := c.read.hostAssignmentLease

/-- The late report of a retained hook: the row keeps its status and stores the handoff. -/
def late (c : FinishCall) (msg : StatusMessage) (fence : Option Fence) (handoffId : String)
    (concurrencyId : Option String) : FinishSessionOpts :=
  { c.base c.read.status with
    attemptId := msg.attemptId
    expectedStatus := some c.read.status
    completedAt := some (c.read.completedAt.getD c.now)
    fence := fence
    concurrencyId := if c.read.status = .cancelled then given concurrencyId else none
    terminalHookHandoff := deferredTerminalHookHandoff handoffId c.now c.read msg
    expectedTerminalHookHandoffAbsent := true }

def plan (c : FinishCall) (msg : StatusMessage) (account : Option ℕ) : SessionTransitionPlan :=
  durablePlan c.read msg c.now account

def opts (c : FinishCall) : FinishSessionOpts :=
  match c.site with
  | .hostLost w fence atDeadline handoffId =>
    { c.base .failed with
      worktreeId := some w
      completedAt := some c.now, errorCode := some "host_lost", errorMessage := some HOST_LOSS_TERMINAL_REASON
      terminalHookHandoff := hostLostTerminalHookHandoff handoffId c.now c.read
      expectedReconnectDeadlineAt := if atDeadline then c.read.reconnectDeadlineAt else none
      expectedConnectionId := if atDeadline then given c.read.assignmentConnectionId else none
      fence := fence }
  | .disconnectSlot slot f reason =>
    { c.base (if c.read.status = .running then .queued else c.read.status) with
      workspaceSlotId := .value slot
      expectedStatus := some c.read.status
      errorMessage := if c.read.status = .running then some reason else none
      fence := some f }
  | .omittedSlot slot f reason =>
    { c.base (if terminalHostLoss c.read then .failed else .queued) with
      workspaceSlotId := .value slot
      expectedStatus := some .running
      errorMessage := some (hostLossReason c.read reason)
      errorCode := if terminalHostLoss c.read then some "host_lost" else none
      completedAt := if terminalHostLoss c.read then some c.now else none
      infrastructureErrorCode := if retryableHostLoss c.read then some .hostLost else none
      fence := some f }
  | .deadlineSlot slot =>
    let active := c.read.status = .running
    { c.base (if !active then c.read.status else if terminalHostLoss c.read then .failed else .queued) with
      workspaceSlotId := .value slot
      expectedStatus := some c.read.status
      expectedReconnectDeadlineAt := c.read.reconnectDeadlineAt
      errorMessage := if active then some (hostLossReason c.read RECONNECT_DEADLINE_REASON) else none
      errorCode := if active && terminalHostLoss c.read then some "host_lost" else none
      completedAt := if active && terminalHostLoss c.read then some c.now else none
      infrastructureErrorCode := if active && retryableHostLoss c.read then some .hostLost else none }
  | .timeout =>
    let keepsHost := c.read.providerAccountLease.isSome || c.read.hostAssignmentLease.isSome ||
      (given c.read.assignmentConnectionId).isSome
    let host := if keepsHost then given c.read.hostId.toOption else none
    let slot := given c.read.workspaceSlotId.toOption
    { c.base .timedOut with
      worktreeId := c.read.worktreeId.toOption
      workspaceSlotId := (slot.map Attr.value).getD .missing
      completedAt := some c.now, errorMessage := some TIMEOUT_ERROR
      concurrencyId := c.read.concurrencyId
      providerAccountLease := none, hostAssignmentLease := none
      preserveProviderAccountLease := true, preserveHostAssignmentLease := true
      timedOutHostId := host
      timedOutAssignmentConnectionId := if host.isSome then given c.read.assignmentConnectionId else none
      preserveWorkspaceSlotLease := slot.isSome
      preserveReconnectDeadlineAt := slot.isSome && c.read.reconnectDeadlineAt.isSome }
  | .lateDetached msg fence handoffId => c.late msg fence handoffId none
  | .lateSlot msg fence handoffId =>
    { c.late msg fence handoffId c.read.concurrencyId with workspaceSlotId := c.read.workspaceSlotId }
  | .lateWorktree msg fence handoffId =>
    { c.late msg fence handoffId c.read.concurrencyId with worktreeId := c.read.worktreeId.toOption }
  | .timedOutSlot msg =>
    { c.base .timedOut with
      workspaceSlotId := c.read.workspaceSlotId
      workspaceSlotError := msg.workspaceSlotError
      attemptId := msg.attemptId
      expectedStatus := some .timedOut
      completedAt := some (c.read.completedAt.getD c.now)
      concurrencyId := none, providerAccountLease := none, hostAssignmentLease := none }
  | .cancelledSlot msg fence =>
    { finishSessionOptsFromPlan c.sessionId c.read (c.plan msg none) msg.attemptId fence msg.workspaceSlotError with
      expectedStatus := some .cancelled
      status := .cancelled
      completedAt := some (c.read.completedAt.getD c.now) }
  | .report msg fence handoffId account =>
    let plan := c.plan msg account
    { finishSessionOptsFromPlan c.sessionId c.read plan msg.attemptId fence msg.workspaceSlotError with
      terminalHookHandoff :=
        if msg.deferTerminalHookResult && (finishEffect plan).isSome then
          deferredTerminalHookHandoff handoffId c.now c.read msg
        else none }

/-- A late report of a cancelled or timed-out attempt that defers its hook. -/
def lateGuard (c : FinishCall) (msg : StatusMessage) (handoffId : String) : Bool :=
  msg.deferTerminalHookResult && (c.read.status == .cancelled || c.read.status == .timedOut) &&
    msg.status.isTerminal && c.read.terminalHookHandoff.isNone && c.read.attemptId == some msg.attemptId &&
    (deferredTerminalHookHandoff handoffId c.now c.read msg).isSome

def guard (c : FinishCall) : Bool :=
  let slot := given c.read.workspaceSlotId.toOption
  let worktree := given c.read.worktreeId.toOption
  match c.site with
  | .hostLost w _ atDeadline _ =>
    c.read.status == .running && c.read.worktreeId == .value w && !canRetryHostLoss c.read && slot.isNone &&
      (if atDeadline then c.read.reconnectDeadlineAt.isSome else c.read.ackReceivedAt.isSome)
  | .disconnectSlot _ _ _ =>
    c.read.status == .timedOut ||
      (c.read.ackReceivedAt.isNone && (c.read.status == .running || c.read.status == .cancelled))
  | .omittedSlot s _ _ => c.read.status == .running && slot == some s
  | .deadlineSlot s =>
    c.read.reconnectDeadlineAt.isSome && slot == some s &&
      (c.read.status == .running ||
        (c.read.workspaceSlotLease && (c.read.status == .cancelled || c.read.status == .timedOut)))
  | .timeout =>
    c.read.status == .running && c.read.ackReceivedAt.isSome && c.read.attemptId.isSome &&
      !(c.read.mainCheckoutLease && (given c.read.hostId.toOption).isSome &&
        (given c.read.assignmentConnectionId).isSome)
  | .lateDetached msg _ handoffId =>
    c.lateGuard msg handoffId && c.read.status == .timedOut && worktree.isNone && slot.isNone &&
      !c.read.mainCheckoutLease
  | .lateSlot msg _ handoffId => c.lateGuard msg handoffId && slot.isSome
  | .lateWorktree msg _ handoffId => c.lateGuard msg handoffId && worktree.isSome && slot.isNone
  | .timedOutSlot msg =>
    c.read.status == .timedOut && msg.status.isTerminal && slot.isSome && c.read.attemptId == some msg.attemptId
  | .cancelledSlot msg _ =>
    c.read.status == .cancelled && slot.isSome && attemptMatches c.read msg.worktreeId msg.attemptId &&
      msg.status.isTerminal
  | .report msg _ _ _ =>
    c.read.status == .running && attemptMatches c.read msg.worktreeId msg.attemptId && msg.status.isTerminal &&
      !(c.read.mainCheckoutLease && (given c.read.hostId.toOption).isSome &&
        (given c.read.assignmentConnectionId).isSome)

end FinishCall

/-! ## Releases of a cancelled session's worktree -/

/-- The places that call `releaseCancelledSessionWorktree`. -/
inductive ReleaseCancelledSite where
  | disconnect (fence : Fence)
  | report (msg : StatusMessage) (fence : Option Fence)

structure ReleaseCancelledCall where
  sessionId : String
  read : SessionRow
  worktreeId : String
  site : ReleaseCancelledSite

namespace ReleaseCancelledCall

def opts (c : ReleaseCancelledCall) : ReleaseCancelledOpts :=
  match c.site with
  | .disconnect f =>
    { sessionId := c.sessionId, worktreeId := c.worktreeId, online := false, fence := some f
      attemptId := c.read.attemptId.getD ""
      concurrencyId := c.read.concurrencyId
      providerAccountLease := c.read.providerAccountLease
      hostAssignmentLease := c.read.hostAssignmentLease }
  | .report msg fence =>
    { sessionId := c.sessionId, worktreeId := c.worktreeId, online := true, fence := fence
      cliResumeRef := msg.cliResumeRef
      result := msg.result
      attemptId := msg.attemptId
      concurrencyId := c.read.concurrencyId
      providerAccountLease := c.read.providerAccountLease
      hostAssignmentLease := c.read.hostAssignmentLease }

def guard (c : ReleaseCancelledCall) : Bool :=
  match c.site with
  | .disconnect _ => c.read.status == .cancelled
  | .report msg _ =>
    c.read.status == .cancelled && c.read.worktreeId == .value c.worktreeId &&
      attemptMatches c.read msg.worktreeId msg.attemptId && msg.status.isTerminal

end ReleaseCancelledCall

/-! ## What the sites pass -/

variable {r : SessionRow} {msg : StatusMessage} {now : Timestamp}

theorem isTerminal_of_finishEffect {account : Option ℕ} {x : SessionStatus × Timestamp × SessionReportFields}
    (h : finishEffect (durablePlan r msg now account) = some x) : x.1.isTerminal = true := by
  obtain ⟨e, he, hx⟩ := List.exists_of_findSome?_eq_some h
  refine isTerminal_of_finishes_planStatus he ?_
  cases e <;> simp at hx
  obtain rfl := hx
  rfl

@[simp] theorem RequeueCall.opts_sessionId (c : RequeueCall) : c.opts.sessionId = c.sessionId := by
  unfold RequeueCall.opts
  cases c.site <;> rfl

@[simp] theorem RequeueCall.opts_account (c : RequeueCall) :
    c.opts.providerAccountLease = c.read.providerAccountLease := by
  unfold RequeueCall.opts
  cases c.site <;> rfl

@[simp] theorem RequeueCall.opts_hostAssignmentLease (c : RequeueCall) :
    c.opts.hostAssignmentLease = c.read.hostAssignmentLease := by
  unfold RequeueCall.opts
  cases c.site <;> rfl

open ReleaseCancelledCall (opts)

@[simp] theorem ReleaseCancelledCall.opts_sessionId (c : ReleaseCancelledCall) : c.opts.sessionId = c.sessionId := by
  unfold opts
  cases c.site <;> rfl

@[simp] theorem ReleaseCancelledCall.opts_concurrencyId (c : ReleaseCancelledCall) :
    c.opts.concurrencyId = c.read.concurrencyId := by
  unfold opts
  cases c.site <;> rfl

@[simp] theorem ReleaseCancelledCall.opts_account (c : ReleaseCancelledCall) :
    c.opts.providerAccountLease = c.read.providerAccountLease := by
  unfold opts
  cases c.site <;> rfl

@[simp] theorem ReleaseCancelledCall.opts_hostAssignmentLease (c : ReleaseCancelledCall) :
    c.opts.hostAssignmentLease = c.read.hostAssignmentLease := by
  unfold opts
  cases c.site <;> rfl

namespace FinishCall

@[simp] theorem opts_sessionId (c : FinishCall) : c.opts.sessionId = c.sessionId := by
  unfold opts
  cases c.site <;> rfl

variable {c : FinishCall}

/-- A status written is never running, and differs from the expected one only for a running session. -/
theorem opts_status (hg : c.guard = true) : c.opts.status ≠ .running ∧
      (c.opts.expectedStatus.getD .running = .running ∨ c.opts.expectedStatus = some c.opts.status) := by
  unfold guard at hg
  unfold opts
  cases hsite : c.site with
  | hostLost | timeout => exact ⟨by simp [base], .inl rfl⟩
  | disconnectSlot slot f reason =>
    by_cases hr : c.read.status = .running
    all_goals simp [base, hr]
  | omittedSlot slot f reason =>
    refine ⟨?_, .inl rfl⟩
    simp only [base]
    split <;> simp
  | deadlineSlot slot =>
    by_cases hr : c.read.status = .running
    · refine ⟨?_, .inl (by simp [hr])⟩
      simp only [base, hr]
      simp only [decide_true, Bool.not_true, Bool.false_eq_true, if_false]
      split <;> simp
    · simp [base, hr]
  | lateDetached msg fence handoffId =>
    simp only [hsite, lateGuard, and_eq_true, or_eq_true, beq_iff_eq] at hg
    refine ⟨?_, .inr rfl⟩
    obtain h | h := hg.1.1.1.1.1.1.1.1.2 <;> simp [late, base, h]
  | lateSlot msg fence handoffId =>
    simp only [hsite, lateGuard, and_eq_true, or_eq_true, beq_iff_eq] at hg
    refine ⟨?_, .inr rfl⟩
    obtain h | h := hg.1.1.1.1.1.2 <;> simp [late, base, h]
  | lateWorktree msg fence handoffId =>
    simp only [hsite, lateGuard, and_eq_true, or_eq_true, beq_iff_eq] at hg
    refine ⟨?_, .inr rfl⟩
    obtain h | h := hg.1.1.1.1.1.1.2 <;> simp [late, base, h]
  | timedOutSlot msg => exact ⟨by simp [base], .inr rfl⟩
  | cancelledSlot msg fence => exact ⟨by simp, .inr rfl⟩
  | report msg fence handoffId account =>
    refine ⟨?_, .inl rfl⟩
    simp only [finishSessionOptsFromPlan]
    cases hf : finishEffect (c.plan msg account) with
    | none => simp
    | some x =>
      have hx := isTerminal_of_finishEffect hf
      rintro h
      simp only [map_some, getD_some] at h
      rw [h] at hx
      cases hx

theorem opts_concurrencyId {k : String} (h : given c.opts.concurrencyId = some k) : c.read.concurrencyId = some k := by
  have hgg : ∀ o : Option String, given (given o) = some k → o = some k := by
    intro o ho
    exact (given_eq_some.mp (given_eq_some.mp ho).1).1
  unfold opts at h
  cases hsite : c.site with
  | hostLost | disconnectSlot | omittedSlot | deadlineSlot => rw [hsite] at h; exact hgg _ h
  | timeout | cancelledSlot | report => rw [hsite] at h; exact (given_eq_some.mp h).1
  | lateDetached msg fence handoffId =>
    rw [hsite] at h
    simp [late] at h
  | lateSlot | lateWorktree =>
    rw [hsite] at h
    simp only [late] at h
    split at h
    · exact hgg _ h
    · cases h
  | timedOutSlot msg => rw [hsite] at h; cases h

theorem opts_account (c : FinishCall) :
    c.opts.providerAccountLease = none ∨ c.opts.providerAccountLease = c.read.providerAccountLease := by
  unfold opts
  cases c.site with
  | timeout | timedOutSlot => exact .inl rfl
  | _ => exact .inr rfl

theorem opts_preserve (c : FinishCall) :
    (c.opts.preserveProviderAccountLease = false ∧ c.opts.preserveHostAssignmentLease = false) ∨
      c.opts.status = .timedOut := by
  unfold opts
  cases c.site with
  | timeout => exact .inr rfl
  | _ => exact .inl ⟨rfl, rfl⟩

theorem opts_preserveSlot (h : c.opts.preserveWorkspaceSlotLease = true) :
    c.opts.status = .timedOut ∧ c.opts.terminalHookHandoff = none ∧ c.opts.expectedStatus = none := by
  unfold opts at h ⊢
  cases hsite : c.site with
  | timeout => exact ⟨rfl, rfl, rfl⟩
  | _ => simp [hsite, base, late, finishSessionOptsFromPlan] at h

variable {h : TerminalHookHandoff}

theorem claims_of_deferred {handoffId : String} (hh : deferredTerminalHookHandoff handoffId now r msg = some h) :
    h.worktreeId = r.worktreeId.toOption ∧ h.mainCheckoutLease = r.mainCheckoutLease := by
  obtain ⟨hostId, -, hh⟩ := bind_eq_some_iff.mp hh
  split at hh
  · cases hh
  · cases hh
    exact ⟨rfl, rfl⟩

/-- A stored handoff belongs to a terminal status, reserves what the row read holds, and overwrites none. -/
theorem opts_handoff (hg : c.guard = true) (hh : c.opts.terminalHookHandoff = some h) :
    c.opts.status.isTerminal = true ∧
      (h.worktreeId = c.read.worktreeId.toOption ∧ h.mainCheckoutLease = c.read.mainCheckoutLease) ∧
      (c.opts.expectedStatus.getD .running = .running ∨ c.opts.expectedTerminalHookHandoffAbsent = true) := by
  have late_terminal : ∀ {msg : StatusMessage} {handoffId : String}, c.lateGuard msg handoffId = true →
      c.read.status.isTerminal = true := by
    intro msg handoffId hl
    simp only [lateGuard, and_eq_true, or_eq_true, beq_iff_eq] at hl
    obtain h | h := hl.1.1.1.1.2 <;> rw [h] <;> rfl
  unfold guard at hg
  unfold opts at hh ⊢
  cases hsite : c.site with
  | hostLost w fence atDeadline handoffId =>
    simp only [hsite, hostLostTerminalHookHandoff] at hh ⊢
    obtain ⟨hostId, -, rfl⟩ := map_eq_some_iff.mp hh
    exact ⟨rfl, ⟨rfl, rfl⟩, .inl rfl⟩
  | disconnectSlot | omittedSlot | deadlineSlot | timeout | timedOutSlot => simp [hsite, base] at hh
  | lateDetached msg fence handoffId =>
    simp only [hsite, and_eq_true] at hg
    rw [hsite] at hh
    exact ⟨late_terminal hg.1.1.1.1, claims_of_deferred hh, .inr rfl⟩
  | lateSlot msg fence handoffId =>
    simp only [hsite, and_eq_true] at hg
    rw [hsite] at hh
    exact ⟨late_terminal hg.1, claims_of_deferred hh, .inr rfl⟩
  | lateWorktree msg fence handoffId =>
    simp only [hsite, and_eq_true] at hg
    rw [hsite] at hh
    exact ⟨late_terminal hg.1.1, claims_of_deferred hh, .inr rfl⟩
  | cancelledSlot msg fence => simp [hsite, finishSessionOptsFromPlan] at hh
  | report msg fence handoffId account =>
    rw [hsite] at hh
    dsimp only at hh ⊢
    split at hh
    · rename_i hdefer
      rw [and_eq_true, isSome_iff_exists] at hdefer
      obtain ⟨-, x, hx⟩ := hdefer
      refine ⟨?_, claims_of_deferred hh, .inl rfl⟩
      simp only [finishSessionOptsFromPlan, hx, map_some, getD_some]
      exact isTerminal_of_finishEffect hx
    · cases hh

theorem opts_worktreeId_of_handoff (hg : c.guard = true) (hh : c.opts.terminalHookHandoff = some h) :
    c.opts.worktreeId = c.read.worktreeId.toOption ∨
      (c.opts.worktreeId = none ∧ given c.read.worktreeId.toOption = none) ∨
      (given c.read.workspaceSlotId.toOption).isSome = true := by
  unfold guard at hg
  unfold opts at hh ⊢
  cases hsite : c.site with
  | hostLost w fence atDeadline handoffId =>
    simp only [hsite, and_eq_true, beq_iff_eq] at hg
    left
    rw [hg.1.1.1.2]
    rfl
  | disconnectSlot | omittedSlot | deadlineSlot | timedOutSlot => simp [hsite, base] at hh
  | timeout | lateWorktree | cancelledSlot | report => exact .inl rfl
  | lateDetached msg fence handoffId =>
    simp only [hsite, and_eq_true, isNone_iff_eq_none] at hg
    exact .inr (.inl ⟨rfl, hg.1.1.2⟩)
  | lateSlot msg fence handoffId =>
    simp only [hsite, and_eq_true] at hg
    exact .inr (.inr hg.2)

end FinishCall

end AutoHarness.Plane

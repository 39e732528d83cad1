import AutoHarness.Plane.AckDeadline
import AutoHarness.Plane.Status

/-! The control plane without a store. A turn is what one message, or one pass of a sweep over one session, does to
the caches of a process. Workspace sessions, provider accounts, logs, archives, notifications and the administration
of hosts are left out. -/

namespace AutoHarness.Plane
open Foundation Store

/-! ## Records -/

/-- What goes with the lease of a main checkout. -/
def withoutMainCheckout (session : SessionRow) : SessionRow :=
  { session with
    mainCheckoutLease := false
    assignmentConnectionId := none
    assignmentSentAt := none
    ackReceivedAt := none
    reconnectDeadlineAt := none }

/-- Back to the queue with the retry counted. -/
def queueHostLossRetry (session : SessionRow) : SessionRow :=
  { queueReconnectSession session HOST_LOSS_RETRY_REASON with
    infrastructureRetryCount := some (session.infrastructureRetryCount.getD 0 + 1)
    lastInfrastructureErrorCode := some .hostLost
    infrastructureRetryAttemptId := (given session.attemptId).or session.infrastructureRetryAttemptId }

/-- A handoff that reserves the main checkout keeps the attributes of the assignment. -/
def finishHostLostSession (now : Timestamp) (session : SessionRow) (handoff : Option TerminalHookHandoff) :
    SessionRow :=
  let retains := handoff.any (·.mainCheckoutLease)
  { withoutLeases (if retains then session else withoutMainCheckout session) with
    status := .failed
    completedAt := some now
    errorCode := some "host_lost"
    errorMessage := some HOST_LOSS_TERMINAL_REASON
    worktreeId := .null
    hostId := if retains then session.hostId else .null
    terminalHookHandoff := handoff.or session.terminalHookHandoff
    activeHostId := if handoff.isSome then session.activeHostId else none
    primaryCommandStartState := none }

/-- The reporting host stands in for a session that no longer names one. -/
def deferredTerminalHookHandoffLocal (handoffId : String) (now : Timestamp) (r : SessionRow) (msg : StatusMessage)
    (fallbackHostId : Option String) : Option TerminalHookHandoff :=
  (given ((r.hostId.toOption.or r.timedOutHostId).or fallbackHostId)).map fun hostId =>
    { handoffId, hostId
      attemptId := some msg.attemptId
      repositoryId := r.repositoryId
      worktreeId := r.worktreeId.toOption
      mainCheckoutLease := r.mainCheckoutLease
      status := msg.status
      errorCode := msg.errorCode
      expiresAt := now + TERMINAL_HOOK_HANDOFF_MAX_AGE_MS }

/-- The row after its handoff was settled or expired. -/
def withoutHandoffLocal (session : SessionRow) (handoff : TerminalHookHandoff) : SessionRow :=
  { (if handoff.mainCheckoutLease then withoutMainCheckout session else session) with
    terminalHookHandoff := none
    activeHostId := none }

def finishFields (plan : SessionTransitionPlan) : Option (SessionReportFields × Bool) :=
  plan.findSome? fun | .finish _ _ f clear => some (f, clear) | _ => none

namespace ControlPlaneState

variable (st : ControlPlaneState)

/-! ## Assignments -/

def takeProviderAccountLease (o : AssignmentOpts) (hostId : String) : ControlPlaneState :=
  match o.providerAccountLease with
  | some lease =>
    { st with
      providerAccountLeases := Function.update st.providerAccountLeases lease.concurrencyId
        (some { sessionId := some o.sessionId, attemptId := some o.attemptId, slot := some lease.slot
                hostId := some hostId, providerAccountId := some lease.providerAccountId }) }
  | none => st

def awaitAck (sessionId : String) (pending : PendingAck) : ControlPlaneState :=
  { st with pendingAcks := st.pendingAcks.set sessionId pending }

def claimWorktree (worktreeId sessionId : String) (now : Timestamp) : ControlPlaneState :=
  { st with
    worktrees := Function.update st.worktrees worktreeId <|
      (st.worktrees worktreeId).map fun wt =>
        { wt with status := .busy, currentSessionId := .value sessionId, lastAssignedAt := some now } }

/-- A queued prompt session takes an idle online worktree. -/
def assignQueued (o : AssignSessionOpts) : ControlPlaneState :=
  match st.sessions o.sessionId, st.worktrees o.worktreeId with
  | some session, some wt =>
    if session.type == .prompt && session.status == .queued && wt.status == .idle && wt.online then
      (((st.claimWorktree o.worktreeId o.sessionId o.now).takeProviderAccountLease o.toAssignmentOpts
          wt.hostId).setSession o.sessionId
          { session with
            status := .running
            worktreeId := .value o.worktreeId
            hostId := .value wt.hostId
            startedAt := some o.now
            sessionOutputsSupported := some (o.sessionOutputsSupported.getD false)
            resumeSpec := session.resumeSpec.or o.resumeSpec
            resolvedRoute := some o.resolvedRoute
            attemptId := some o.attemptId
            primaryCommandStartState := some .pending
            sessionApiKeyHash := o.sessionApiKeyHash
            providerAccountLease := o.providerAccountLease
            ackReceivedAt := none
            errorCode := none
            errorMessage := none }).awaitAck o.sessionId ⟨some o.worktreeId, o.attemptId, o.now⟩
    else st
  | _, _ => st

/-- A queued scheduled session takes a free main checkout. -/
def assignScheduledQueued (o : AssignMainCheckoutOpts) : ControlPlaneState :=
  match st.sessions o.sessionId with
  | some session =>
    if session.type == .scheduled && session.status == .queued &&
        (st.mainCheckoutLeases (o.hostId, session.repositoryId)).isNone then
      ({ (st.takeProviderAccountLease o.toAssignmentOpts o.hostId).setSession o.sessionId
          { session with
            status := .running
            worktreeId := .null
            hostId := .value o.hostId
            startedAt := some o.now
            assignmentSentAt := some o.now
            sessionOutputsSupported := some (o.sessionOutputsSupported.getD false)
            resumeSpec := session.resumeSpec.or o.resumeSpec
            resolvedRoute := some o.resolvedRoute
            assignmentConnectionId := some o.connectionId
            mainCheckoutLease := true
            attemptId := some o.attemptId
            primaryCommandStartState := some .pending
            sessionApiKeyHash := o.sessionApiKeyHash
            providerAccountLease := o.providerAccountLease.or session.providerAccountLease
            hostAssignmentLease := some ⟨o.hostId⟩
            completedAt := none
            exitCode := .missing
            errorCode := none
            errorMessage := none } with
        mainCheckoutLeases := Function.update st.mainCheckoutLeases (o.hostId, session.repositoryId)
          (some ⟨o.sessionId, o.connectionId⟩) }).awaitAck o.sessionId ⟨none, o.attemptId, o.now⟩
    else st
  | none => st

def expireQueuedLocal (sessionId : String) (now : Timestamp) : ControlPlaneState :=
  match st.sessions sessionId with
  | some session =>
    if session.status == .queued then
      st.setSession sessionId
        { session with
          status := .failed
          errorCode := some "queue_expired"
          errorMessage := some "queue TTL expired before capacity became available"
          completedAt := some now }
    else st
  | none => st

/-! ## Messages of the host -/

/-- What the planner accepts is written, and the record of the deadline goes. -/
def acknowledge (sessionId : String) (worktreeId : Option String) (attemptId : String) (now : Timestamp) :
    ControlPlaneState :=
  match st.sessions sessionId with
  | some session =>
    if (planSessionTransition (some session) (.ack worktreeId attemptId) { now, source := .local }).contains .ack then
      (st.setSession sessionId { session with ackReceivedAt := some now }).forget sessionId
    else st
  | none => st

def startCommand (sessionId : String) (worktreeId : Option String) (attemptId : String) (now : Timestamp) :
    ControlPlaneState :=
  match st.sessions sessionId with
  | some session =>
    if (planSessionTransition (some session) (.commandStart worktreeId attemptId)
        { now, source := .local }).contains .authorizeCommandStart then
      st.setSession sessionId { session with primaryCommandStartState := some .authorized }
    else st
  | none => st

def linkWorktree (worktreeId : String) (online : Bool) (connectionId : Option String) : ControlPlaneState :=
  { st with
    worktrees := Function.update st.worktrees worktreeId <|
      (st.worktrees worktreeId).map fun wt => { wt with online := online, connectionId := connectionId } }

def confirmReportedSession (sessionId hostId : String) (connectionId : Option String) : ControlPlaneState :=
  match st.sessions sessionId with
  | some session =>
    match given session.worktreeId.toOption with
    | some worktreeId =>
      match st.worktrees worktreeId with
      | some wt =>
        if session.status == .running && session.ackReceivedAt.isSome && session.hostId == .value hostId &&
            wt.hostId == hostId && wt.currentSessionId == .value sessionId then
          { st.setSession sessionId { session with reconnectDeadlineAt := none } with
            worktrees := Function.update st.worktrees worktreeId
              (some { wt with online := true, connectionId := (given connectionId).or wt.connectionId }) }
        else st
      | none => st
    | none => st
  | none => st

/-- A reconnecting host still runs the session on its main checkout; the lease moves to the new
connection. -/
def confirmScheduledReconnect (sessionId hostId connectionId : String) : ControlPlaneState :=
  match st.sessions sessionId with
  | some session =>
    if session.mainCheckoutLease && (given session.assignmentConnectionId).isSome && connectionId != "" &&
        session.ackReceivedAt.isSome && session.status == .running then
      { st.setSession sessionId
          { session with reconnectDeadlineAt := none, assignmentConnectionId := some connectionId } with
        mainCheckoutLeases := Function.update st.mainCheckoutLeases (hostId, session.repositoryId) <|
          (st.mainCheckoutLeases (hostId, session.repositoryId)).map fun lease =>
            if lease.sessionId = sessionId ∧ some lease.connectionId = session.assignmentConnectionId then
              { lease with connectionId := connectionId }
            else lease }
    else st
  | none => st

/-! ## Cancellation and timeout -/

def cancelSession (sessionId : String) (now : Timestamp) : ControlPlaneState :=
  match st.sessions sessionId with
  | some session =>
    let plan := planSessionTransition (some session) .cancel { now, source := .local }
    match plan.findSome? (fun | .cancel hold => some hold | _ => none) with
    | none => st
    | some hold =>
      let st := st.forget sessionId
      let cancelled := { session with
        status := .cancelled, errorMessage := some "cancelled by operator", completedAt := some now }
      if hold && (given session.hostId.toOption).isSome then st.setSession sessionId cancelled
      else
        let st := match given session.worktreeId.toOption with
          | some worktreeId => if plan.contains .releaseWorktree then st.releaseWorktree worktreeId else st
          | none => st
        (st.releaseProviderAccountLeaseLocal sessionId session).setSession sessionId
          { withoutLeases cancelled with worktreeId := .null, hostId := .null }
  | none => st

/-- A worktree that names another session is left alone. -/
def releaseOwnWorktree (sessionId : String) (session : SessionRow) : ControlPlaneState :=
  match given session.worktreeId.toOption with
  | some worktreeId =>
    if (st.worktrees worktreeId).any (fun wt => wt.currentSessionId == .value sessionId) then
      st.releaseWorktree worktreeId
    else st
  | none => st

def timeOutAcknowledgedSession (sessionId : String) (now : Timestamp) : ControlPlaneState :=
  match st.sessions sessionId with
  | some session =>
    if session.status == .running && session.ackReceivedAt.any (fun at_ => decide (at_ + session.timeout * 1000 ≤ now)) then
      let keepsHost := session.providerAccountLease.isSome || session.hostAssignmentLease.isSome ||
        (given session.assignmentConnectionId).isSome
      let timedOutHostId := if keepsHost then given session.hostId.toOption else none
      let connection := if timedOutHostId.isSome then given session.assignmentConnectionId else none
      let st := st.forget sessionId
      let st := if session.mainCheckoutLease then st.releaseScheduledLeaseLocal sessionId session
        else st.releaseOwnWorktree sessionId session
      st.setSession sessionId
        { (if session.mainCheckoutLease then withoutMainCheckout session else session) with
          status := .timedOut
          errorMessage := some TIMEOUT_ERROR
          completedAt := some now
          worktreeId := .null
          hostId := .null
          timedOutHostId := timedOutHostId.or session.timedOutHostId
          timedOutAssignmentConnectionId := connection.or session.timedOutAssignmentConnectionId }
    else st
  | none => st

/-! ## Host loss -/

def offlineWorktree (worktreeId reason : String) (deadlineAt : Timestamp) : ControlPlaneState :=
  match st.worktrees worktreeId with
  | some wt =>
    let offline := fun st : ControlPlaneState =>
      { st with
        worktrees := Function.update st.worktrees worktreeId <|
          (st.worktrees worktreeId).map fun wt => { wt with online := false } }
    match if wt.status = .busy then given wt.currentSessionId.toOption else none with
    | some sessionId =>
      match st.sessions sessionId with
      | some session =>
        if session.status ≠ .running then offline st
        else if session.ackReceivedAt.isNone then
          ((offline (st.releaseWorktree worktreeId)).releaseProviderAccountLeaseLocal sessionId session).setSession
            sessionId
            { withoutLeases session with
              status := .queued, worktreeId := .null, hostId := .null, errorMessage := some reason } |>.forget sessionId
        else (offline st).setSession sessionId { session with reconnectDeadlineAt := some deadlineAt }
      | none => offline st
    | none => offline st
  | none => st

/-- An acknowledged session gets a deadline, another goes back to the queue. -/
def offlineScheduled (sessionId hostId reason : String) (deadlineAt : Timestamp) : ControlPlaneState :=
  match st.sessions sessionId with
  | some session =>
    if session.hostId ≠ .value hostId || !session.mainCheckoutLease || session.status ≠ .running then st
    else if session.ackReceivedAt.isNone then
      (((st.releaseScheduledLeaseLocal sessionId session).releaseProviderAccountLeaseLocal sessionId
        session).setSession sessionId (queueReconnectSession (withoutLeases session) reason)).forget sessionId
    else st.setSession sessionId { session with reconnectDeadlineAt := some deadlineAt }
  | none => st

/-- What becomes of a session that its host does not run any more: one replay, the queue, or the end. -/
def hostLossOutcome (session : SessionRow) (reason : String) (now : Timestamp)
    (handoff : Option TerminalHookHandoff) : SessionRow :=
  if retryableHostLoss session then queueHostLossRetry (withoutLeases session)
  else if terminalHostLoss session then finishHostLostSession now (withoutLeases session) handoff
  else queueReconnectSession (withoutLeases session) reason

/-- Only a session that may not be retried hands its hook over. -/
def hostLossHandoff (handoffId : String) (now : Timestamp) (session : SessionRow) : Option TerminalHookHandoff :=
  if terminalHostLoss session then hostLostTerminalHookHandoff handoffId now session else none

def requeueOmittedWorktree (sessionId hostId reason handoffId : String) (now : Timestamp) : ControlPlaneState :=
  match st.sessions sessionId with
  | some session =>
    match given session.worktreeId.toOption with
    | some worktreeId =>
      if session.status == .running && (st.worktrees worktreeId).any (fun wt =>
          wt.status == .busy && wt.currentSessionId == .value sessionId && wt.hostId == hostId) then
        let handoff := hostLossHandoff handoffId now session
        let st := (st.releaseProviderAccountLeaseLocal sessionId session).setSession sessionId
          (hostLossOutcome session reason now handoff)
        (if handoff.isNone then st.releaseWorktree worktreeId else st).forget sessionId
      else st
    | none => st
  | none => st

/-- Nothing happens unless the session still holds the checkout. -/
def settleScheduledLoss (sessionId : String) (session : SessionRow) (reason : String) (now : Timestamp)
    (handoff : Option TerminalHookHandoff) : ControlPlaneState :=
  if (st.holdsScheduledLeaseLocal sessionId session).isSome then
    let st := if handoff.any (·.mainCheckoutLease) then st else st.releaseScheduledLeaseLocal sessionId session
    ((st.releaseProviderAccountLeaseLocal sessionId session).setSession sessionId
      (hostLossOutcome session reason now handoff)).forget sessionId
  else st

def requeueOmittedScheduled (sessionId reason handoffId : String) (now : Timestamp) : ControlPlaneState :=
  match st.sessions sessionId with
  | some session =>
    if session.mainCheckoutLease && session.status == .running && (given session.assignmentConnectionId).isSome then
      st.settleScheduledLoss sessionId session reason now (hostLossHandoff handoffId now session)
    else st
  | none => st

/-! ## Handoffs -/

/-- The worktree that a handoff kept. -/
def releaseReservedWorktree (sessionId : String) (worktreeId : Option String) : ControlPlaneState :=
  match given worktreeId with
  | some i =>
    if (st.worktrees i).any (fun wt => wt.currentSessionId == .value sessionId) then st.releaseWorktree i else st
  | none => st

def releaseReservedMainCheckout (sessionId : String) (handoff : TerminalHookHandoff) : ControlPlaneState :=
  if handoff.mainCheckoutLease &&
      (st.mainCheckoutLeases (handoff.hostId, handoff.repositoryId)).any (fun l => l.sessionId == sessionId) then
    { st with
      mainCheckoutLeases := Function.update st.mainCheckoutLeases (handoff.hostId, handoff.repositoryId) none }
  else st

def settleTerminalHookHandoff (sessionId handoffId hostId : String) (current : Bool)
    (result : Option SessionResult) : ControlPlaneState :=
  match st.sessions sessionId with
  | some session =>
    match session.terminalHookHandoff with
    | some handoff =>
      if handoff.handoffId == handoffId && handoff.hostId == hostId && current then
        ((st.releaseReservedWorktree sessionId handoff.worktreeId).releaseReservedMainCheckout sessionId
          handoff).setSession sessionId
          { withoutHandoffLocal session handoff with
            result := session.result.or result
            terminalHookHandoffSettled := some ⟨handoffId, hostId⟩ }
      else st
    | none => st
  | none => st

def expireTerminalHookHandoff (sessionId : String) (session : SessionRow) (handoff : TerminalHookHandoff) :
    ControlPlaneState :=
  ((st.releaseReservedWorktree sessionId handoff.worktreeId).releaseReservedMainCheckout sessionId
    handoff).setSession sessionId
    { withoutHandoffLocal session handoff with terminalHookHandoffExpiredAt := some handoff.expiresAt }

def expireTerminalHookHandoffIfNeeded (sessionId : String) (now : Timestamp) : ControlPlaneState :=
  match st.sessions sessionId with
  | some session =>
    match session.terminalHookHandoff.filter fun h => decide (h.expiresAt ≤ now) with
    | some handoff => st.expireTerminalHookHandoff sessionId session handoff
    | none => st
  | none => st

/-! ## The reconnect deadline -/

def reclaimScheduledReconnect (sessionId : String) (session : SessionRow) (handoffId : String) (now : Timestamp) :
    ControlPlaneState :=
  if session.status = .cancelled then
    if (st.holdsScheduledLeaseLocal sessionId session).isSome then
      (((st.releaseScheduledLeaseLocal sessionId session).releaseProviderAccountLeaseLocal sessionId
        session).setSession sessionId
        { withoutMainCheckout (withoutLeases session) with activeHostId := none }).forget sessionId
    else st
  else st.settleScheduledLoss sessionId session RECONNECT_DEADLINE_REASON now (hostLossHandoff handoffId now session)

/-- Released also when the session leaves a handoff behind. -/
def reclaimWorktreeReconnect (sessionId : String) (session : SessionRow) (worktreeId handoffId : String)
    (now : Timestamp) : ControlPlaneState :=
  let st := (st.releaseProviderAccountLeaseLocal sessionId session).setSession sessionId <|
    if canRetryHostLoss session then queueHostLossRetry (withoutLeases session)
    else finishHostLostSession now (withoutLeases session) (hostLostTerminalHookHandoff handoffId now session)
  (st.releaseWorktree worktreeId).forget sessionId

def reclaimReconnectDeadline (sessionId handoffId : String) (now : Timestamp) : ControlPlaneState :=
  match st.sessions sessionId with
  | some session =>
    match session.terminalHookHandoff.filter fun h => decide (h.expiresAt ≤ now) with
    | some handoff => st.expireTerminalHookHandoff sessionId session handoff
    | none =>
      let reclaimable := session.status == .running || (session.status == .cancelled && session.mainCheckoutLease)
      let worktreeId := session.worktreeId.toOption.getD ""
      if reclaimable && session.reconnectDeadlineAt.any (fun at_ => decide (at_ ≤ now)) &&
          (worktreeId != "" || session.mainCheckoutLease) then
        if session.mainCheckoutLease && (given session.hostId.toOption).isSome &&
            (given session.assignmentConnectionId).isSome then
          st.reclaimScheduledReconnect sessionId session handoffId now
        else if (st.worktrees worktreeId).isSome && (given session.hostId.toOption).isSome then
          st.reclaimWorktreeReconnect sessionId session worktreeId handoffId now
        else st
      else st
  | none => st

/-! ## Status reports -/

/-- What a late terminal report gives back. -/
def releaseLocalLateTerminalAssignment (sessionId : String) (session : SessionRow) :
    ControlPlaneState × SessionRow :=
  if session.mainCheckoutLease then
    ((st.releaseProviderAccountLeaseLocal sessionId session).releaseScheduledLeaseLocal sessionId session,
      { withoutMainCheckout (withoutLeases session) with worktreeId := .null })
  else if (given session.worktreeId.toOption).isSome then
    ((st.releaseProviderAccountLeaseLocal sessionId session).releaseOwnWorktree sessionId session,
      { withoutLeases session with worktreeId := .null })
  else (st, session)

/-- A deferred report of a cancelled or timed-out session: its handoff is stored, and what it held is released. -/
def applyLateDeferral (sessionId : String) (session : SessionRow) (handoff : TerminalHookHandoff) :
    ControlPlaneState :=
  if session.status = .timedOut then
    (st.releaseProviderAccountLeaseLocal sessionId session).setSession sessionId
      { withoutLeases session with
        terminalHookHandoff := some handoff
        timedOutHostId := none
        timedOutAssignmentConnectionId := none
        activeHostId := none }
  else
    let (st, session) := st.releaseLocalLateTerminalAssignment sessionId { session with terminalHookHandoff := some handoff }
    st.setSession sessionId session

def applyLateReport (sessionId : String) (session : SessionRow) (plan : SessionTransitionPlan) : ControlPlaneState :=
  let releases := plan.contains .releaseLease || plan.contains .releaseWorktree
  let st := if releases then st.releaseProviderAccountLeaseLocal sessionId session else st
  let session := if releases then withoutLeases session else session
  let patch := plan.findSome? fun | .patchReport _ f => some f | _ => none
  let patched := fun session : SessionRow =>
    { session with
      cliResumeRef := (patch.bind (·.cliResumeRef)).or session.cliResumeRef
      result := session.result.or (patch.bind (·.result)) }
  if plan.contains .releaseLease && session.mainCheckoutLease then
    (st.releaseScheduledLeaseLocal sessionId session).setSession sessionId
      (patched { withoutMainCheckout session with worktreeId := .null })
  else if plan.contains .releaseWorktree && (given session.worktreeId.toOption).isSome then
    (st.releaseOwnWorktree sessionId session).setSession sessionId (patched { session with worktreeId := .null })
  else st.setSession sessionId (patched session)

def applyInfrastructureRetry (sessionId attemptId : String) (session : SessionRow) (fields : SessionReportFields) :
    ControlPlaneState :=
  let queued := { queueReconnectSession (withoutLeases session) (fields.errorMessage.getD "infrastructure retry") with
    infrastructureRetryCount := some (session.infrastructureRetryCount.getD 0 + 1)
    lastInfrastructureErrorCode := some (infrastructureCode fields)
    infrastructureRetryAttemptId := some attemptId }
  let released :=
    if session.mainCheckoutLease then
      if (st.holdsScheduledLeaseLocal sessionId session).isSome then
        some (st.releaseScheduledLeaseLocal sessionId session)
      else none
    else (given session.worktreeId.toOption).map st.releaseWorktree
  match released with
  | some st => ((st.releaseProviderAccountLeaseLocal sessionId session).setSession sessionId queued).forget sessionId
  | none => st

/-- A result that is there already stays. -/
def withReport (msg : StatusMessage) (session : SessionRow) : SessionRow :=
  { session with
    status := msg.status
    exitCode := if msg.exitCode = .missing then session.exitCode else msg.exitCode
    errorCode := msg.errorCode.or session.errorCode
    errorMessage := msg.errorMessage.or session.errorMessage
    cliResumeRef := msg.cliResumeRef.or session.cliResumeRef
    result := session.result.or msg.result }

/-- The row that the plan asks for. -/
def withOutcome (plan : SessionTransitionPlan) (handoff : Option TerminalHookHandoff) (session : SessionRow) :
    SessionRow :=
  let session := { session with
    suppressedTargetIndexes := session.suppressedTargetIndexes ++ (suppressEffect plan).toList }
  match requeueEffect plan, finishFields plan with
  | some _, _ =>
    { session with status := .queued, worktreeId := .null, hostId := .null, completedAt := none, result := none }
  | none, some (fields, clear) =>
    { session with
      errorCode := fields.errorCode.or session.errorCode
      errorMessage := fields.errorMessage.or session.errorMessage
      terminalHookHandoff := handoff.or session.terminalHookHandoff
      worktreeId := .null
      workspaceSlotId := .null
      cliResumeRef := if clear then none else session.cliResumeRef }
  | none, none => session

/-- After the main checkout was released or retained; `session` is the record as the report found it. -/
def endReported (c : StatusReport) (session : SessionRow) (plan : SessionTransitionPlan)
    (handoff : Option TerminalHookHandoff) : ControlPlaneState :=
  let sessionId := c.msg.sessionId
  let st := (st.forget sessionId).releaseProviderAccountLeaseLocal sessionId session
  let ended := { withoutLeases (withReport c.msg session) with completedAt := some c.now }
  if session.mainCheckoutLease then
    st.setSession sessionId (withOutcome plan handoff
      (if handoff.any (·.mainCheckoutLease) then ended else withoutMainCheckout ended))
  else
    let st := match given session.worktreeId.toOption with
      | some worktreeId =>
        if plan.contains .releaseWorktree && handoff.bind (·.worktreeId) ≠ some worktreeId then
          st.releaseWorktree worktreeId
        else st
      | none => st
    st.setSession sessionId (withOutcome plan handoff ended)

/-- A handoff is minted before anything is released, so that the failed checkout stays reserved. -/
def applyRunningReport (c : StatusReport) (owner : Option String) (session : SessionRow) (plan : SessionTransitionPlan) :
    ControlPlaneState :=
  let sessionId := c.msg.sessionId
  let handoff := if (finishEffect plan).isSome && c.msg.deferTerminalHookResult then
    deferredTerminalHookHandoffLocal c.handoffId c.now session c.msg owner else none
  if plan.contains .releaseLease && session.mainCheckoutLease &&
      (st.holdsScheduledLeaseLocal sessionId session).isNone then st
  else
    let st := if plan.contains .releaseLease && !handoff.any (·.mainCheckoutLease) then
      st.releaseScheduledLeaseLocal sessionId session else st
    if c.msg.status.isTerminal then st.endReported c session plan handoff
    else st.setSession sessionId (withReport c.msg session)

/-- A handoff that was settled or expired is not made again. -/
def lateHandoff (c : StatusReport) (owner : Option String) (session : SessionRow) : Option TerminalHookHandoff :=
  if session.terminalHookHandoffSettled.isNone && session.terminalHookHandoffExpiredAt.isNone then
    deferredTerminalHookHandoffLocal c.handoffId c.now session c.msg owner
  else none

/-- A handoff of the reporting attempt is there already. -/
def replaysHandoff (c : StatusReport) (session : SessionRow) : Bool :=
  c.msg.deferTerminalHookResult && session.terminalHookHandoff.any fun h => h.attemptId == some c.msg.attemptId

def lateDeferral (c : StatusReport) (session : SessionRow) : Bool :=
  c.msg.deferTerminalHookResult && (session.status == .cancelled || session.status == .timedOut) &&
    c.msg.status.isTerminal && session.attemptId == some c.msg.attemptId

/-- The report of the attempt whose lease a timeout kept. -/
def endsTimedOut (c : StatusReport) (session : SessionRow) : Bool :=
  session.status == .timedOut && c.msg.status.isTerminal &&
    match session.providerAccountLease with
    | some lease => lease.attemptId == c.msg.attemptId
    | none => session.timedOutHostId.isSome && session.attemptId == some c.msg.attemptId

def applyPlannedReport (c : StatusReport) (owner : Option String) (account : Option ℕ) (session : SessionRow) :
    ControlPlaneState :=
  let sessionId := c.msg.sessionId
  if endsTimedOut c session then
    (st.releaseProviderAccountLeaseLocal sessionId session).setSession sessionId
      { withoutLeases session with
        result := session.result.or c.msg.result
        timedOutHostId := none
        timedOutAssignmentConnectionId := none
        activeHostId := none }
  else
    let plan := planSessionTransition (some session) (.status c.msg.toStatusEvent)
      { now := c.now, source := .local, providerAccount := account
        deferTerminalHookResult := c.msg.deferTerminalHookResult }
    if ignores plan then st
    else
      match requeueEffect plan with
      | some (.infrastructure, fields) => st.applyInfrastructureRetry sessionId c.msg.attemptId session fields
      | _ =>
        if session.status ≠ .running then st.applyLateReport sessionId session plan
        else st.applyRunningReport c owner session plan

/-- `sourceHostId` is the host of its connection, `account` the cooldown of the cached provider account. -/
def applySessionStatus (c : StatusReport) (sourceHostId : Option String) (account : Option ℕ) : ControlPlaneState :=
  match st.sessions c.msg.sessionId with
  | some session =>
    let owner := (given session.hostId.toOption).or ((given session.timedOutHostId).or sourceHostId)
    if replaysHandoff c session then st
    else if lateDeferral c session then
      if c.settledCheckoutFetchRetryDisposition session = some true then st
      else
        match lateHandoff c owner session with
        | some handoff => st.applyLateDeferral c.msg.sessionId session handoff
        | none => st.applyPlannedReport c owner account session
    else st.applyPlannedReport c owner account session
  | none => st

end ControlPlaneState

end AutoHarness.Plane

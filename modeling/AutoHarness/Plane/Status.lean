import AutoHarness.Plane.Calls
import AutoHarness.Store.Create

/-! The durable handler of a `session:status` message. It decides from the row, the report and the planner which
single write settles the report, and stops the daemon's resending only when that write committed or nothing is left to
do. Caches, archives, notifications, metrics and the removal of a retired slot are left out. -/

namespace AutoHarness.Plane
open Foundation Store Option SessionTransitionEffect

/-- What the handler answers. `applied` is the signal that the daemon stops resending. -/
structure StatusAnswer where
  ok : Bool := true
  error : Option String := none
  applied : Bool := false
  retryAccepted : Option Bool := none
  terminalHookHandoffId : Option String := none
  terminalHookHandoffExpiresAt : Option Timestamp := none
deriving DecidableEq

/-- What a handler answers, and the store it leaves. -/
abbrev Handled := Except StoreError StatusAnswer × Db

/-- `if (!written) return { ok: true }`, and a thrown error otherwise ends the call. -/
def onCommit (written : Except StoreError Bool × Db) (next : Db → Handled) : Handled :=
  match written with
  | (.ok true, db) => next db
  | (.ok false, db) => (.ok {}, db)
  | (.error e, db) => (.error e, db)

/-- `finishSession` answers false only for a lost claim. -/
def truthy (written : Except StoreError DurableWriteResult × Db) : Except StoreError Bool × Db :=
  (written.1.map (· != .lost), written.2)

/-- The report was acknowledged, and the call left the store `db`. -/
def Applied (handled : Handled) (db : Db) : Prop := ∃ answer, handled = (.ok answer, db) ∧ answer.applied = true

variable {written : Except StoreError Bool × Db} {db' : Db}

theorem applied_onCommit {next : Db → Handled}
    (h : Applied (onCommit written next) db') : ∃ db, written = (.ok true, db) ∧ Applied (next db) db' := by
  obtain ⟨answer, h, ha⟩ := h
  unfold onCommit at h
  split at h
  · exact ⟨_, rfl, answer, h, ha⟩
  · cases h
    cases ha
  · cases h

theorem applied_commit {answer : StatusAnswer} {after : Db → Db}
    (h : Applied (onCommit written fun db => (.ok answer, after db)) db') :
    ∃ db, written = (.ok true, db) ∧ after db = db' := by
  obtain ⟨db, hwritten, _, hanswer, -⟩ := applied_onCommit h
  exact ⟨db, hwritten, (Prod.mk.inj hanswer).2⟩

/-! ## Planner effects -/

def SessionTransitionEffect.isIgnore : SessionTransitionEffect → Bool
  | ignore _ => true
  | _ => false

def ignores (plan : SessionTransitionPlan) : Bool := plan.any SessionTransitionEffect.isIgnore

def rejectEffect (plan : SessionTransitionPlan) : Option String :=
  plan.findSome? fun
    | .reject error => some error
    | _ => none

def cooldownEffect (plan : SessionTransitionPlan) : Option (String × Timestamp) :=
  plan.findSome? fun
    | .cooldown account until_ => some (account, until_)
    | _ => none

def suppressEffect (plan : SessionTransitionPlan) : Option ℕ :=
  plan.findSome? fun
    | .suppressTarget i => some i
    | _ => none

/-- Every other code counts as a failed fetch. -/
def infrastructureCode (f : SessionReportFields) : InfrastructureErrorCode :=
  if f.errorCode = some InfrastructureErrorCode.hostLost.text then .hostLost else .checkoutFetchFailed

/-! ## Reports -/

/-- A report with the connection it came over, and the handoff id and time the handler draws. -/
structure StatusReport where
  msg : StatusMessage
  fence : Option Fence := none
  handoffId : String
  now : Timestamp

def timedOutPersisted (read : SessionRow) : SessionRow :=
  { read with
    workspaceSlotId := .null
    workspaceSlotLease := false
    providerAccountLease := none
    hostAssignmentLease := none
    timedOutHostId := none
    timedOutAssignmentConnectionId := none
    activeHostId := none
    sessionApiKeyHash := none }

/-- The row that was read replaces the stored one if both were created at the same time. -/
def putTimedOutItems (sessionId : String) (read : SessionRow) : List TransactItem :=
  [sessionWrite sessionId (fun row => row.all fun r => r.createdAt == read.createdAt)
     (fun _ => some (timedOutPersisted read)), sessionRetentionAdmissionCheck sessionId]

/-- `session.mainCheckoutLease && session.hostId && session.assignmentConnectionId`. -/
def mainCheckoutOwner (r : SessionRow) : Option (String × String) :=
  if r.mainCheckoutLease then
    (given r.hostId.toOption).bind fun h => (given r.assignmentConnectionId).map fun k => (h, k)
  else none

namespace StatusReport

variable (c : StatusReport)

def isFirstCheckoutFetchFailure (r : SessionRow) : Bool :=
  c.msg.status == .failed && c.msg.errorCode == some "checkout_fetch_failed" &&
    r.infrastructureRetryCount.getD 0 == 0

/-- Whether the retry of this report was accepted before. -/
def settledCheckoutFetchRetryDisposition (r : SessionRow) : Option Bool :=
  if c.msg.status ≠ .failed || c.msg.errorCode ≠ some "checkout_fetch_failed" then none
  else some (r.infrastructureRetryAttemptId == some c.msg.attemptId)

/-- The stored handoff, if of the proposed attempt, host and status. -/
def committedDeferredCheckoutFailureHandoff (proposed : TerminalHookHandoff) (db : Db) :
    Option TerminalHookHandoff :=
  ((db.sessions c.msg.sessionId).bind (·.terminalHookHandoff)).filter fun h =>
    h.attemptId == proposed.attemptId && h.hostId == proposed.hostId && h.status == proposed.status

def releaseProviderAccountLease (r : SessionRow) (db : Db) : Db :=
  match r.providerAccountLease with
  | none => db
  | some l =>
    (transact (releaseProviderAccountLeaseItems l.concurrencyId c.msg.sessionId l.attemptId) db).state db

abbrev call (r : SessionRow) (site : FinishSite) : FinishCall := ⟨c.msg.sessionId, r, c.now, site⟩

/-- The terminal write of a site, with its reads made in the same store. -/
def finish (r : SessionRow) (site : FinishSite) (db : Db) : Except StoreError Bool × Db :=
  truthy (finishSession (c.call r site).opts db (db.sessions c.msg.sessionId) db)

def mainCheckoutOpts (r : SessionRow) (owner : String × String) (status : SessionStatus) :
    ReleaseMainCheckoutOpts where
  sessionId := c.msg.sessionId
  hostId := owner.1
  repositoryId := r.repositoryId
  connectionId := owner.2
  attemptId := some c.msg.attemptId
  status := status
  queueShard := r.queueShard
  providerAccountLease := r.providerAccountLease
  hostAssignmentLease := r.hostAssignmentLease

/-! ## Late reports -/

def replays (r : SessionRow) : Bool :=
  c.msg.deferTerminalHookResult && r.terminalHookHandoff.any fun h => h.attemptId == some c.msg.attemptId

/-- The answer to a report whose handoff is already stored. -/
def replayed (r : SessionRow) : StatusAnswer :=
  let owned := r.terminalHookHandoff.filter fun h =>
    h.status == c.msg.status && c.fence.all fun f => h.hostId == f.hostId
  { applied := true
    retryAccepted := c.settledCheckoutFetchRetryDisposition r
    terminalHookHandoffId := owned.map (·.handoffId)
    terminalHookHandoffExpiresAt := owned.map (·.expiresAt) }

def retainedLateTerminalHandoff (r : SessionRow) : Option TerminalHookHandoff :=
  if c.msg.deferTerminalHookResult && (r.status == .cancelled || r.status == .timedOut) &&
      c.msg.status.isTerminal && r.terminalHookHandoff.isNone && r.attemptId == some c.msg.attemptId then
    deferredTerminalHookHandoff c.handoffId c.now r c.msg
  else none

/-- The answer names the handoff that is stored after the write. -/
def retain (h : TerminalHookHandoff) (written : Except StoreError Bool × Db) : Handled :=
  onCommit written fun db =>
    match c.committedDeferredCheckoutFailureHandoff h db with
    | some stored =>
      (.ok { applied := true, terminalHookHandoffId := some stored.handoffId
             terminalHookHandoffExpiresAt := some stored.expiresAt }, db)
    | none => (.ok {}, db)

def retainLate (r : SessionRow) (h : TerminalHookHandoff) (db : Db) (otherwise : Handled) : Handled :=
  let slot := given r.workspaceSlotId.toOption
  let worktree := given r.worktreeId.toOption
  if r.status == .timedOut && worktree.isNone && slot.isNone && !r.mainCheckoutLease then
    c.retain h (c.finish r (.lateDetached c.msg c.fence c.handoffId) db)
  else
    match mainCheckoutOwner r with
    | some owner =>
      c.retain h (releaseMainCheckoutSession
        { c.mainCheckoutOpts r owner r.status with
          expectedStatus := some (if r.status = .cancelled then .cancelled else .timedOut)
          completedAt := some (r.completedAt.getD c.now)
          concurrencyId := if r.status = .cancelled then given r.concurrencyId else none
          terminalHookHandoff := some h
          expectedTerminalHookHandoffAbsent := true } db db)
    | none =>
      if slot.isSome then c.retain h (c.finish r (.lateSlot c.msg c.fence c.handoffId) db)
      else if worktree.isSome then c.retain h (c.finish r (.lateWorktree c.msg c.fence c.handoffId) db)
      else otherwise

/-! ## Timed-out sessions -/

def releaseTimedOutProviderAccountLease (r : SessionRow) (result : Option SessionResult) (db : Db) :
    Except StoreError Bool × Db :=
  match r.providerAccountLease with
  | some l =>
    Store.releaseTimedOutProviderAccountLease
      { sessionId := c.msg.sessionId, concurrencyId := l.concurrencyId, attemptId := l.attemptId
        hostAssignmentLease := r.hostAssignmentLease, result := result } db
  | none =>
    match given r.timedOutHostId, given r.attemptId with
    | some hostId, some attemptId =>
      releaseTimedOutHostAssignment
        { sessionId := c.msg.sessionId, attemptId := attemptId, hostId := hostId
          hostAssignmentLease := r.hostAssignmentLease, result := result } db
    | _, _ => (.ok true, db)

def releaseTimedOutSlot (r : SessionRow) (db : Db) : Handled :=
  onCommit (c.releaseTimedOutProviderAccountLease r none db) fun db =>
    onCommit (c.finish r (.timedOutSlot c.msg) db) fun db =>
      (.ok { applied := true }, (transact (putTimedOutItems c.msg.sessionId r) db).state db)

/-- The report is of the attempt whose capacity a timeout kept. -/
def ownsTimedOut (r : SessionRow) : Bool :=
  r.providerAccountLease.any (fun l => l.attemptId == c.msg.attemptId) ||
    (r.providerAccountLease.isNone && r.timedOutHostId.isSome && r.attemptId == some c.msg.attemptId)

/-! ## Cancelled sessions -/

/-- The cooldown of the route's account, loaded only for a usage limit of the current attempt. -/
def loadedAccount (r : SessionRow) (db : Db) : Option ℕ :=
  if r.status == .running && c.msg.status == .failed && c.msg.errorCode == some "usage_limit" &&
      attemptMatches r c.msg.worktreeId c.msg.attemptId then
    (given (r.resolvedRoute.bind (·.providerAccountId))).bind fun a =>
      (db.providerAccounts a).map (·.usageLimitCooldownSeconds)
  else none

def plan (r : SessionRow) (db : Db) : SessionTransitionPlan :=
  durablePlan r c.msg c.now (c.loadedAccount r db)

def releaseCancelled (r : SessionRow) (worktreeId : String) (db : Db) : Handled :=
  let call : ReleaseCancelledCall := ⟨c.msg.sessionId, r, worktreeId, .report c.msg c.fence⟩
  onCommit (releaseCancelledSessionWorktree call.opts db db) fun db =>
    (.ok { applied := true }, c.releaseProviderAccountLease r db)

def releaseCancelledSlot (r : SessionRow) (db : Db) : Handled :=
  onCommit (c.finish r (.cancelledSlot c.msg c.fence) db) fun db =>
    (.ok { applied := true }, c.releaseProviderAccountLease r db)

def releaseCancelledMainCheckout (r : SessionRow) (owner : String × String) (db : Db) : Handled :=
  onCommit (releaseMainCheckoutSession
    { c.mainCheckoutOpts r owner .cancelled with
      expectedStatus := some .cancelled
      completedAt := some (r.completedAt.getD c.now)
      exitCode := c.msg.exitCode
      errorCode := c.msg.errorCode
      reason := c.msg.errorMessage
      cliResumeRef := c.msg.cliResumeRef
      result := c.msg.result
      concurrencyId := r.concurrencyId } db db) fun db =>
    (.ok { applied := true }, c.releaseProviderAccountLease r db)

/-! ## Running sessions -/

def deferredHandoff (r : SessionRow) (plan : SessionTransitionPlan) : Option TerminalHookHandoff :=
  if c.msg.deferTerminalHookResult && (finishEffect plan).isSome then
    deferredTerminalHookHandoff c.handoffId c.now r c.msg
  else none

def finished (r : SessionRow) (handoff : Option TerminalHookHandoff) (db : Db) : Handled :=
  match handoff with
  | none =>
    (.ok { applied := true, retryAccepted := if c.isFirstCheckoutFetchFailure r then some false else none },
      c.releaseProviderAccountLease r db)
  | some h =>
    match c.committedDeferredCheckoutFailureHandoff h db with
    | some stored =>
      (.ok { applied := true, retryAccepted := some false, terminalHookHandoffId := some stored.handoffId
             terminalHookHandoffExpiresAt := some stored.expiresAt }, c.releaseProviderAccountLease r db)
    | none => (.ok {}, db)

/-- Only a first failed fetch is told that its retry was accepted. -/
def retried (r : SessionRow) (code : InfrastructureErrorCode) : StatusAnswer :=
  { applied := true
    retryAccepted :=
      if code = .checkoutFetchFailed && c.isFirstCheckoutFetchFailure r then some true else none }

def usageLimitOpts (r : SessionRow) (errorMessage : Option String) : UsageLimitOpts where
  sessionId := c.msg.sessionId
  attemptId := c.msg.attemptId
  queueShard := r.queueShard
  errorMessage := errorMessage
  providerAccountLease := r.providerAccountLease
  hostAssignmentLease := r.hostAssignmentLease

def finishMainCheckoutOpts (r : SessionRow) (plan : SessionTransitionPlan) (owner : String × String) :
    ReleaseMainCheckoutOpts :=
  let finish := finishEffect plan
  let fields := (finish.map (·.2.2)).getD {}
  { c.mainCheckoutOpts r owner ((finish.map (·.1)).getD c.msg.status) with
    completedAt := some ((finish.map (·.2.1)).getD c.now)
    exitCode := c.msg.exitCode
    errorCode := given (fields.errorCode.or c.msg.errorCode)
    cliResumeRef := given c.msg.cliResumeRef
    result := c.msg.result
    reason := given (fields.errorMessage.or c.msg.errorMessage)
    concurrencyId := given r.concurrencyId
    terminalHookHandoff := c.deferredHandoff r plan }

def settleMainCheckout (r : SessionRow) (plan : SessionTransitionPlan) (owner : String × String) (db : Db) :
    Handled :=
  let requeue := requeueEffect plan
  let reason := requeue.map (·.1)
  let f := (requeue.map (·.2)).getD {}
  let account := given (r.resolvedRoute.bind (·.providerAccountId))
  let queued := c.mainCheckoutOpts r owner .queued
  if reason = some .infrastructure then
    onCommit (releaseMainCheckoutSession
      { queued with
        reason := some (f.errorMessage.getD "infrastructure retry")
        infrastructureErrorCode := some (infrastructureCode f) } db db) fun db =>
      (.ok (c.retried r (infrastructureCode f)), c.releaseProviderAccountLease r db)
  else if reason = some .missingAccount && account.isSome then
    onCommit (releaseMainCheckoutSession
      { queued with
        reason := some "provider account missing; requeued"
        errorCode := some "usage_limit" } db db) fun db =>
      (.ok { applied := true }, c.releaseProviderAccountLease r db)
  else
    match (if requeue.isSome then cooldownEffect plan else none), account with
    | some (_, usageLimitedUntil), some accountId =>
      onCommit (commitOrFalse (requeueMainCheckoutUsageLimitedSessionItems
        { c.usageLimitOpts r c.msg.errorMessage with
          hostId := owner.1, repositoryId := r.repositoryId, connectionId := owner.2
          providerAccountId := accountId, now := c.now, usageLimitedUntil := usageLimitedUntil }) db) fun db =>
        (.ok { applied := true }, c.releaseProviderAccountLease r db)
    | _, _ =>
      match (if reason = some .providerless then suppressEffect plan else none) with
      | some targetIndex =>
        onCommit (releaseMainCheckoutSession
          { queued with
            errorCode := some "usage_limit"
            reason := some (c.msg.errorMessage.getD "providerless usage limit; trying fallback")
            suppressedTargetIndex := some targetIndex
            exitCode := c.msg.exitCode
            cliResumeRef := given c.msg.cliResumeRef } db db) fun db =>
          (.ok { applied := true }, db)
      | none =>
        onCommit (releaseMainCheckoutSession (c.finishMainCheckoutOpts r plan owner) db db)
          (c.finished r (c.deferredHandoff r plan))

def requeueUsageLimited (r : SessionRow) (account : UsageLimitedAccount) (f : SessionReportFields) (db : Db) :
    Except StoreError Bool × Db :=
  let o := c.usageLimitOpts r (given f.errorMessage)
  match given r.workspaceSlotId.toOption with
  | some slot => commitOrFalse (requeueUsageLimitedWorkspaceSessionItems o account slot c.msg.workspaceSlotError) db
  | none => commitOrFalse (requeueUsageLimitedSessionItems o account (r.worktreeId.toOption.getD "")) db

def suppressProviderless (r : SessionRow) (targetIndex : ℕ) (f : SessionReportFields) (db : Db) :
    Except StoreError Bool × Db :=
  match given r.workspaceSlotId.toOption with
  | some slot =>
    commitOrFalse (suppressProviderlessUsageLimitWorkspaceItems (c.usageLimitOpts r (given c.msg.errorMessage)) slot
      targetIndex c.msg.workspaceSlotError) db
  | none =>
    commitOrFalse (suppressProviderlessUsageLimitItems (c.usageLimitOpts r (given f.errorMessage))
      (r.worktreeId.toOption.getD "") targetIndex) db

def settleAssignment (r : SessionRow) (plan : SessionTransitionPlan) (db : Db) : Handled :=
  let requeue := requeueEffect plan
  let f := (requeue.map (·.2)).getD {}
  let worktree := given r.worktreeId.toOption
  let holds := worktree.isSome || (given r.workspaceSlotId.toOption).isSome
  let released (db : Db) : Handled := (.ok { applied := true }, c.releaseProviderAccountLease r db)
  match (if requeue.isSome && holds then cooldownEffect plan else none) with
  | some (account, usageLimitedUntil) =>
    onCommit (c.requeueUsageLimited r ⟨account, c.now, usageLimitedUntil⟩ f db) released
  | none =>
    match (if requeue.map (·.1) = some .infrastructure then worktree else none) with
    | some w =>
      let call : RequeueCall := ⟨c.msg.sessionId, r, w, .infrastructure c.fence (infrastructureCode f) f.errorMessage⟩
      onCommit (tryRequeueSession call.opts db) fun db =>
        (.ok (c.retried r (infrastructureCode f)), c.releaseProviderAccountLease r db)
    | none =>
      match (if holds then suppressEffect plan else none) with
      | some targetIndex => onCommit (c.suppressProviderless r targetIndex f db) released
      | none =>
        onCommit (c.finish r (.report c.msg c.fence c.handoffId (c.loadedAccount r db)) db)
          (c.finished r (c.deferredHandoff r plan))

/-! ## The handler -/

def resolved (r : SessionRow) : StatusAnswer :=
  { applied := true, retryAccepted := if c.isFirstCheckoutFetchFailure r then some false else none }

/-- A rejected plan is an error, an ignored one is answered as applied. -/
def settle (r : SessionRow) (db : Db) : Handled :=
  let plan := c.plan r db
  let cancelled := r.status == .cancelled
  match rejectEffect plan with
  | some error => (.ok { ok := false, error := some error }, db)
  | none =>
    if ignores plan then
      (.ok { applied := true, retryAccepted := c.settledCheckoutFetchRetryDisposition r }, db)
    else
      match (if cancelled && plan.contains .releaseWorktree then given r.worktreeId.toOption else none) with
      | some w => c.releaseCancelled r w db
      | none =>
        if cancelled && (given r.workspaceSlotId.toOption).isSome && plan.contains .releaseWorkspace then
          c.releaseCancelledSlot r db
        else
          match (if cancelled && plan.contains .releaseLease then mainCheckoutOwner r else none) with
          | some owner => c.releaseCancelledMainCheckout r owner db
          | none =>
            if r.status ≠ .running then (.ok (c.resolved r), db)
            else
              match mainCheckoutOwner r with
              | some owner => c.settleMainCheckout r plan owner db
              | none => c.settleAssignment r plan db

/-- A timed-out session gives back what it kept before anything is planned. -/
def report (r : SessionRow) (db : Db) : Handled :=
  if r.status == .timedOut && c.msg.status.isTerminal && (given r.workspaceSlotId.toOption).isSome &&
      r.attemptId == some c.msg.attemptId then
    c.releaseTimedOutSlot r db
  else if r.status == .timedOut && c.msg.status.isTerminal && c.ownsTimedOut r then
    onCommit (c.releaseTimedOutProviderAccountLease r c.msg.result db) fun db => (.ok { applied := true }, db)
  else c.settle r db

/-- Alone on the store. `usageError` is the answer of the usage ingestion. -/
def applySessionStatusDurable (usageError : Option String) (db : Db) : Handled :=
  match usageError, db.sessions c.msg.sessionId with
  | some error, _ => (.ok { ok := false, error := some error }, db)
  | none, none => (.ok { ok := false, error := some "session not found" }, db)
  | none, some r =>
    if c.replays r then (.ok (c.replayed r), db)
    else
      match c.retainedLateTerminalHandoff r with
      | some h => c.retainLate r h db (c.report r db)
      | none => c.report r db

/-! ## What the planner decides about the current attempt -/

/-- A terminal report of the attempt that the row carries, with the worktree of the row. -/
structure Current (r : SessionRow) : Prop where
  terminal : c.msg.status.isTerminal = true
  attempt : attemptMatches r c.msg.worktreeId c.msg.attemptId = true

/-- The route's provider account was deleted while a session without a main checkout ran into its usage
limit. -/
structure AccountGone (r : SessionRow) (db : Db) : Prop where
  running : r.status = .running
  failed : c.msg.status = .failed
  usageLimit : c.msg.errorCode = some "usage_limit"
  main : r.mainCheckoutLease = false
  account : ∃ a, given (r.resolvedRoute.bind (·.providerAccountId)) = some a ∧ db.providerAccounts a = none

variable {c} {r : SessionRow} {db : Db} {ctx : SessionTransitionContext}

section

variable (h : c.Current r)
include h

theorem Current.attemptId : r.attemptId = some c.msg.attemptId := by
  have := h.attempt
  simp only [attemptMatches, Bool.and_eq_true, beq_iff_eq] at this
  exact this.2

theorem Current.worktreeId : r.worktreeId = .ofOption c.msg.worktreeId := by
  have := h.attempt
  simp only [attemptMatches, Bool.and_eq_true, beq_iff_eq] at this
  exact this.1

end

@[simp] theorem ignores_nil : ignores [] = false := rfl

@[simp] theorem ignores_cons (e : SessionTransitionEffect) (l : SessionTransitionPlan) :
    ignores (e :: l) = (e.isIgnore || ignores l) := rfl

@[simp] theorem ignores_append (l l' : SessionTransitionPlan) : ignores (l ++ l') = (ignores l || ignores l') :=
  List.any_append

@[simp] theorem ignores_releaseEffects (r : SessionRow) : ignores (releaseEffects r) = false := by
  unfold releaseEffects
  split
  · rfl
  · split
    · rfl
    · split <;> rfl

theorem plan_running (h : c.Current r) (hr : r.status = .running) : c.plan r db =
      if c.msg.status = .failed && c.msg.errorCode = some "usage_limit" then planUsageLimit r c.msg.toStatusEvent
          { now := c.now, source := .durable, deferTerminalHookResult := c.msg.deferTerminalHookResult
            providerAccount := c.loadedAccount r db }
      else if c.msg.status = .failed && c.msg.errorCode = some "checkout_fetch_failed" then
        planInfrastructureFailure r .checkoutFetchFailed
          { now := c.now, source := .durable, deferTerminalHookResult := c.msg.deferTerminalHookResult
            providerAccount := c.loadedAccount r db } c.msg.errorMessage c.msg.toSessionReportFields
      else
        releaseEffects r ++
          [.finish c.msg.status c.now c.msg.toSessionReportFields
            ((given r.resumedFromSessionId).isSome && c.msg.cliResumeRef.isNone), .archive] := by
  simp [plan, durablePlan, planSessionTransition, planStatus, h.attempt, h.terminal, hr]

theorem plan_late (h : c.Current r) (hr : r.status ≠ .running) : c.plan r db = planLateTerminal r c.msg.toStatusEvent
      { now := c.now, source := .durable, deferTerminalHookResult := c.msg.deferTerminalHookResult
        providerAccount := c.loadedAccount r db }
      (if r.status.isTerminal then [.retryArchive] else []) := by
  simp [plan, durablePlan, planSessionTransition, planStatus, h.attempt, h.terminal, hr]

theorem ignores_planUsageLimit {event : StatusEvent} (hd : ctx.source = .durable) :
    ignores (planUsageLimit r event ctx) = true ↔
      (given (r.resolvedRoute.bind (·.providerAccountId))).isSome = true ∧ ctx.providerAccount = none ∧
        r.mainCheckoutLease = false := by
  have hfallback : ignores (if remainingFallback r = true then [fallback] else []) = false := by
    split <;> rfl
  unfold planUsageLimit
  cases given (r.resolvedRoute.bind (·.providerAccountId)) with
  | none => simp [hfallback, isIgnore]
  | some a =>
    cases ctx.providerAccount with
    | some n => simp [hfallback, isIgnore]
    | none => cases hm : r.mainCheckoutLease <;> simp [hd, isIgnore]

theorem ignores_infrastructure {code : InfrastructureErrorCode}
    {detail : Option String} {fields : SessionReportFields} (hr : r.status = .running) :
    ignores (planInfrastructureFailure r code ctx detail fields) = false := by
  unfold planInfrastructureFailure
  simp only [hr, ne_eq, not_true_eq_false, if_false]
  split <;> simp [isIgnore]

variable (h : c.Current r)
include h

theorem ignores_running (hr : r.status = .running) : ignores (c.plan r db) = true ↔ c.AccountGone r db := by
  rw [plan_running h hr]
  by_cases hu : c.msg.status = .failed ∧ c.msg.errorCode = some "usage_limit"
  · rw [if_pos (by simp [hu.1, hu.2]), ignores_planUsageLimit rfl]
    have hload : c.loadedAccount r db = (given (r.resolvedRoute.bind (·.providerAccountId))).bind fun a =>
        (db.providerAccounts a).map (·.usageLimitCooldownSeconds) := by
      simp [loadedAccount, hr, hu.1, hu.2, h.attempt]
    rw [hload, isSome_iff_exists]
    constructor
    · rintro ⟨⟨a, ha⟩, hnone, hm⟩
      rw [ha, bind_some, map_eq_none_iff] at hnone
      exact ⟨hr, hu.1, hu.2, hm, a, ha, hnone⟩
    · rintro ⟨-, -, -, hm, a, ha, hnone⟩
      exact ⟨⟨a, ha⟩, by rw [ha, bind_some, hnone]; rfl, hm⟩
  · rw [if_neg (by simpa using fun h₁ h₂ => hu ⟨h₁, h₂⟩)]
    refine iff_of_false ?_ fun hg => hu ⟨hg.failed, hg.usageLimit⟩
    rw [Bool.not_eq_true]
    split
    · exact ignores_infrastructure hr
    · simp [isIgnore]

theorem ignores_late (hr : r.status ≠ .running) (hc : r.status ≠ .cancelled) : ignores (c.plan r db) = true := by
  rw [plan_late h hr]
  simp [planLateTerminal, hc, isIgnore]

theorem plan_cancelled (hr : r.status = .cancelled) (hne : releaseEffects r ≠ []) :
    c.plan r db = [.retryArchive] ++ releaseEffects r ++ (if c.msg.cliResumeRef.isSome || c.msg.result.isSome then
        [.patchReport none { cliResumeRef := c.msg.cliResumeRef, result := c.msg.result }]
      else []) := by
  have hheld : ¬ (given r.worktreeId.toOption = none ∧ r.mainCheckoutLease = false ∧
      given r.workspaceSlotId.toOption = none) := by
    rintro ⟨hw, hm, hs⟩
    exact hne (by simp [releaseEffects, hw, hm, hs])
  rw [plan_late h (by rw [hr]; simp), planLateTerminal]
  simp only [hr, SessionStatus.isTerminal, if_true, decide_true, Bool.not_true, Bool.and_false, Bool.false_eq_true,
    if_false, Bool.and_true, Bool.true_and]
  rw [if_neg (by simpa [Bool.and_eq_true, and_assoc] using hheld)]

end StatusReport

end AutoHarness.Plane

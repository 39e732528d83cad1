import AutoHarness.Store.Rows

/-! The pure session-transition policy: from a row and an event to the effects a caller commits. -/

namespace AutoHarness.Plane
open Foundation Store List

/-- What a report says besides its status. -/
structure SessionReportFields where
  exitCode : Attr ℤ := .missing
  errorCode : Option String := none
  errorMessage : Option String := none
  cliResumeRef : Option String := none
  result : Option SessionResult := none
deriving DecidableEq

structure StatusEvent extends SessionReportFields where
  worktreeId : Option String
  attemptId : String
  status : SessionStatus
deriving DecidableEq

/-- What can happen to a session. -/
inductive SessionTransitionEvent where
  | ack (worktreeId : Option String) (attemptId : String)
  | commandStart (worktreeId : Option String) (attemptId : String)
  | status (event : StatusEvent)
  | cancel
  | timeout
  | disconnect (acknowledged : Bool)
  | infrastructureFailure (code : InfrastructureErrorCode)
  | queueExpired
  | log (attemptId : String)
  | reconnectClaim (attemptId : String)

inductive SessionTransitionIgnoreReason where
  | staleAttempt | alreadyAcked | notRunning | nonTerminal | notDue | notQueued | missingAccount
deriving DecidableEq

inductive RequeueReason where
  | usageLimit | missingAccount | providerless | disconnect | infrastructure
deriving DecidableEq

/-- What the caller is told to do. -/
inductive SessionTransitionEffect where
  | ignore (reason : SessionTransitionIgnoreReason)
  | reject (error : String)
  | ack
  | authorizeCommandStart
  | retryArchive
  | patchReport (status : Option SessionStatus) (fields : SessionReportFields)
  | finish (status : SessionStatus) (completedAt : Timestamp) (fields : SessionReportFields)
      (clearResumeRef : Bool)
  | requeue (reason : RequeueReason) (fields : SessionReportFields)
  | cooldown (providerAccountId : String) (usageLimitedUntil : Timestamp)
  | suppressTarget (targetIndex : ℕ)
  | fallback
  | releaseWorktree
  | releaseWorkspace
  | releaseLease
  | archive
  | reschedule (kind : SessionType)
  | notifyCancel
  | cancel (holdAssignment : Bool)
  | markReconnect (deadlineAt : Timestamp)
deriving DecidableEq

abbrev SessionTransitionPlan := List SessionTransitionEffect

/-- Whether the plan is for the maps of the process or for the store. -/
inductive TransitionSource where
  | «local» | durable
deriving DecidableEq

/-- `providerAccount` is the cooldown of a loaded account; an absent and a missing account are both
`none`. -/
structure SessionTransitionContext where
  now : Timestamp
  source : TransitionSource
  deferTerminalHookResult : Bool := false
  providerAccount : Option ℕ := none
  reconnectGraceMs : ℕ := 0

def MAX_INFRASTRUCTURE_RETRIES : ℕ := 1

/-- The report is of the attempt and the worktree of the row. -/
def attemptMatches (r : SessionRow) (worktreeId : Option String) (attemptId : String) : Bool :=
  r.worktreeId == .ofOption worktreeId && r.attemptId == some attemptId

/-- The policy has entries after the one that ran. -/
def remainingFallback (r : SessionRow) : Bool :=
  decide ((r.resolvedRoute.map (·.targetIndex)).getD 0 < r.fallbackCount)

/-- The first target found: the checkout, then the slot, then the worktree. -/
def releaseEffects (r : SessionRow) : SessionTransitionPlan :=
  if r.mainCheckoutLease then [.releaseLease]
  else if (given r.workspaceSlotId.toOption).isSome then [.releaseWorkspace]
  else if (given r.worktreeId.toOption).isSome then [.releaseWorktree] else []

def planAck (r : SessionRow) (worktreeId : Option String) (attemptId : String) : SessionTransitionPlan :=
  if r.status ≠ .running || !attemptMatches r worktreeId attemptId then [.ignore .staleAttempt]
  else if r.ackReceivedAt.isSome then [.ignore .alreadyAcked] else [.ack]

/-- A repeated start is answered with the empty plan. -/
def planCommandStart (r : SessionRow) (worktreeId : Option String) (attemptId : String) :
    SessionTransitionPlan :=
  if r.status ≠ .running || !attemptMatches r worktreeId attemptId then [.ignore .staleAttempt]
  else if r.primaryCommandStartState = some .authorized then []
  else if r.primaryCommandStartState ≠ some .pending then
    [.reject "command start is not enabled for this assignment"]
  else [.authorizeCommandStart]

def planInfrastructureFailure (r : SessionRow) (code : InfrastructureErrorCode) (ctx : SessionTransitionContext)
    (detail : Option String) (fields : SessionReportFields) : SessionTransitionPlan :=
  if r.status ≠ .running then [.ignore .notRunning]
  else
    let baseMessage := detail.getD
      (if code = .checkoutFetchFailed then "checkout fetch failed" else "host was lost before command launch")
    -- only the reporting attempt's own deferral proof makes a checkout replay safe
    let checkoutHookWasDeferred := code ≠ .checkoutFetchFailed || ctx.deferTerminalHookResult
    let replaySafe := checkoutHookWasDeferred &&
      (code ≠ .hostLost || r.primaryCommandStartState = some .pending)
    if replaySafe && r.infrastructureRetryCount.getD 0 < MAX_INFRASTRUCTURE_RETRIES then
      releaseEffects r ++
        [.requeue .infrastructure
          { errorCode := some code.text, errorMessage := some (baseMessage ++ "; retrying once") }, .reschedule r.type]
    else
      releaseEffects r ++
        [.finish .failed ctx.now
          { fields with
            errorCode := some code.text
            errorMessage := some
              (if !checkoutHookWasDeferred then baseMessage ++ "; terminal hook was not durably deferred"
                else if replaySafe then baseMessage ++ "; automatic retry exhausted"
                else "host lost after command authorization or without a replay-safe checkpoint") } false, .archive]

def planUsageLimit (r : SessionRow) (event : StatusEvent) (ctx : SessionTransitionContext) :
    SessionTransitionPlan :=
  let leased := r.mainCheckoutLease
  let accountId := given (r.resolvedRoute.bind (·.providerAccountId))
  let fallback := if remainingFallback r then [SessionTransitionEffect.fallback] else []
  let reschedule := SessionTransitionEffect.reschedule r.type
  let release := releaseEffects r
  -- the report's own fields, when present, override the defaults
  let fields (message : Option String) : SessionReportFields :=
    { event.toSessionReportFields with
      errorCode := event.errorCode.or (some "usage_limit")
      errorMessage := event.errorMessage.or message }
  match accountId, ctx.providerAccount with
  | some account, some cooldownSeconds =>
    [.cooldown account (ctx.now + cooldownSeconds * 1000)] ++ release ++ fallback ++
      [.requeue .usageLimit (fields (some "provider usage limit; requeued")), reschedule]
  | some _, none =>
    if ctx.source = .durable && !leased then [.ignore .missingAccount]
    else
      let missing := ctx.source = .durable && leased
      release ++
        [.requeue (if missing then .missingAccount else .usageLimit)
          (fields (some (if missing then "provider account missing; requeued"
            else "provider usage limit; requeued"))), reschedule]
  | none, _ =>
    [.suppressTarget ((r.resolvedRoute.map (·.targetIndex)).getD 0)] ++ release ++ fallback ++
      [.requeue .providerless (fields none), reschedule]

/-- A terminal report for a session that does not run. -/
def planLateTerminal (r : SessionRow) (event : StatusEvent) (ctx : SessionTransitionContext)
    (head : SessionTransitionPlan) : SessionTransitionPlan :=
  let cancelled := r.status = .cancelled
  if ctx.source = .durable && !cancelled then head ++ [.ignore .notRunning]
  else if ctx.source = .durable && cancelled && (given r.worktreeId.toOption).isNone &&
      !r.mainCheckoutLease && (given r.workspaceSlotId.toOption).isNone then
    head ++ [.ignore .notRunning]
  else
    head ++ releaseEffects r ++
      (if event.cliResumeRef.isSome || event.result.isSome then
        [.patchReport none { cliResumeRef := event.cliResumeRef, result := event.result }]
      else [])

def planStatus (r : SessionRow) (event : StatusEvent) (ctx : SessionTransitionContext) :
    SessionTransitionPlan :=
  let head : SessionTransitionPlan :=
    if ctx.source = .durable && event.status.isTerminal && r.status.isTerminal then [.retryArchive] else []
  if !attemptMatches r event.worktreeId event.attemptId then head ++ [.ignore .staleAttempt]
  else if !event.status.isTerminal then
    match ctx.source with
    | .local =>
      [if r.status = .running then .patchReport (some event.status) event.toSessionReportFields
        else .patchReport none { cliResumeRef := event.cliResumeRef }]
    | .durable => [.ignore .nonTerminal]
  else if r.status ≠ .running then planLateTerminal r event ctx head
  else if event.status = .failed && event.errorCode = some "usage_limit" then planUsageLimit r event ctx
  else if event.status = .failed && event.errorCode = some "checkout_fetch_failed" then
    planInfrastructureFailure r .checkoutFetchFailed ctx event.errorMessage event.toSessionReportFields
  else
    releaseEffects r ++
      [.finish event.status ctx.now event.toSessionReportFields
        ((given r.resumedFromSessionId).isSome && event.cliResumeRef.isNone), .archive]

/-- A row without an attempt accepts any. -/
def planAttemptId (r : SessionRow) (attemptId : String) (requireRunning : Bool) : SessionTransitionPlan :=
  if (requireRunning && r.status ≠ .running) || r.attemptId.any (· ≠ attemptId) then [.ignore .staleAttempt]
  else []

/-- Only a running session with a host waits for its host. -/
def planCancel (r : SessionRow) : SessionTransitionPlan :=
  if r.status.isTerminal then [.reject ("session already terminal: " ++ r.status.text)]
  else if r.status = .running && (given r.hostId.toOption).isSome then [.cancel true, .notifyCancel]
  else .cancel false :: releaseEffects r

def planTimeout (r : SessionRow) (ctx : SessionTransitionContext) : SessionTransitionPlan :=
  if r.status ≠ .running || r.ackReceivedAt.isNone then [.ignore .notDue]
  else
    releaseEffects r ++
      [.finish .timedOut ctx.now
        { errorMessage := some "session exceeded timeout without a host terminal report" } false,
       .notifyCancel, .archive]

/-- An acknowledged session gets time to reconnect, another is requeued. -/
def planDisconnect (r : SessionRow) (acknowledged : Bool) (ctx : SessionTransitionContext) :
    SessionTransitionPlan :=
  if r.status = .cancelled then releaseEffects r
  else if r.status ≠ .running then [.ignore .notRunning]
  else if acknowledged then [.markReconnect (ctx.now + ctx.reconnectGraceMs)]
  else releaseEffects r ++ [.requeue .disconnect { errorMessage := some "host disconnected; requeued" }]

def planQueueExpired (r : SessionRow) (ctx : SessionTransitionContext) : SessionTransitionPlan :=
  if r.status ≠ .queued then [.ignore .notQueued]
  else if ctx.now < r.queueExpiresAt then [.ignore .notDue]
  else
    [.finish .failed ctx.now
      { errorCode := some "queue_expired"
        errorMessage := some "queue TTL expired before capacity became available" } false, .archive]

def planSessionTransition (session : Option SessionRow) (event : SessionTransitionEvent)
    (ctx : SessionTransitionContext) : SessionTransitionPlan :=
  match session with
  | none => [.reject "session not found"]
  | some r =>
    match event with
    | .ack w a => planAck r w a
    | .commandStart w a => planCommandStart r w a
    | .status e => planStatus r e ctx
    | .cancel => planCancel r
    | .timeout => planTimeout r ctx
    | .disconnect acknowledged => planDisconnect r acknowledged ctx
    | .infrastructureFailure code => planInfrastructureFailure r code ctx none {}
    | .queueExpired => planQueueExpired r ctx
    | .log a => planAttemptId r a false
    | .reconnectClaim a => planAttemptId r a true

/-! ## The finish effect of a report -/

def SessionTransitionEffect.finishes : SessionTransitionEffect → Option SessionStatus
  | finish s _ _ _ => some s
  | _ => none

variable {r : SessionRow} {e : SessionTransitionEffect}

theorem finishes_release (h : e ∈ releaseEffects r) : e.finishes = none := by
  unfold releaseEffects at h
  split at h
  · obtain rfl := mem_singleton.mp h
    rfl
  · split at h
    · obtain rfl := mem_singleton.mp h
      rfl
    · split at h
      · obtain rfl := mem_singleton.mp h
        rfl
      · cases h

variable {event : StatusEvent} {ctx : SessionTransitionContext}

theorem finishes_planLateTerminal {head : SessionTransitionPlan} (hhead : ∀ e ∈ head, e.finishes = none) :
    ∀ e ∈ planLateTerminal r event ctx head, e.finishes = none := by
  intro e he
  unfold planLateTerminal at he
  dsimp only at he
  split at he
  · simp only [mem_append, mem_singleton] at he
    obtain he | rfl := he
    · exact hhead e he
    · rfl
  · split at he
    · simp only [mem_append, mem_singleton] at he
      obtain he | rfl := he
      · exact hhead e he
      · rfl
    · simp only [mem_append] at he
      obtain (he | he) | he := he
      · exact hhead e he
      · exact finishes_release he
      · split at he
        · obtain rfl := mem_singleton.mp he
          rfl
        · cases he

theorem finishes_planUsageLimit : ∀ e ∈ planUsageLimit r event ctx, e.finishes = none := by
  intro e he
  have hfallback : ∀ {b : Bool}, e ∈ (if b = true then [SessionTransitionEffect.fallback] else []) →
      e.finishes = none := by
    intro b hb
    split at hb
    · obtain rfl := mem_singleton.mp hb
      rfl
    · cases hb
  unfold planUsageLimit at he
  dsimp only at he
  split at he
  · simp only [mem_append, mem_cons, not_mem_nil, or_false] at he
    obtain ((rfl | he) | he) | rfl | rfl := he
    · rfl
    · exact finishes_release he
    · exact hfallback he
    · rfl
    · rfl
  · split at he
    · obtain rfl := mem_singleton.mp he
      rfl
    · simp only [mem_append, mem_cons, not_mem_nil, or_false] at he
      obtain he | rfl | rfl := he
      · exact finishes_release he
      · rfl
      · rfl
  · simp only [mem_append, mem_cons, not_mem_nil, or_false] at he
    obtain ((rfl | he) | he) | rfl | rfl := he
    · rfl
    · exact finishes_release he
    · exact hfallback he
    · rfl
    · rfl

theorem finishes_infrastructure {code : InfrastructureErrorCode} {detail : Option String} {fields : SessionReportFields} :
    ∀ e ∈ planInfrastructureFailure r code ctx detail fields, ∀ s, e.finishes = some s → s = .failed := by
  intro e he s hs
  unfold planInfrastructureFailure at he
  dsimp only at he
  split at he
  · obtain rfl := mem_singleton.mp he
    cases hs
  · split at he
    · simp only [mem_append, mem_cons, not_mem_nil, or_false] at he
      obtain he | rfl | rfl := he
      · rw [finishes_release he] at hs
        cases hs
      · cases hs
      · cases hs
    · simp only [mem_append, mem_cons, not_mem_nil, or_false] at he
      obtain he | rfl | rfl := he
      · rw [finishes_release he] at hs
        cases hs
      · cases hs
        rfl
      · cases hs

theorem isTerminal_of_finishes_planStatus {s : SessionStatus} (he : e ∈ planStatus r event ctx)
    (hs : e.finishes = some s) : s.isTerminal = true := by
  have hhead : ∀ e' ∈ (if ctx.source = .durable && event.status.isTerminal && r.status.isTerminal then
      [SessionTransitionEffect.retryArchive] else []), e'.finishes = none := by
    intro e' he'
    split at he'
    · obtain rfl := mem_singleton.mp he'
      rfl
    · cases he'
  have hnone : e.finishes ≠ none := by rw [hs]; simp
  unfold planStatus at he
  dsimp only at he
  split at he
  · simp only [mem_append, mem_singleton] at he
    obtain he | rfl := he
    · exact absurd (hhead e he) hnone
    · exact absurd rfl hnone
  split at he
  · split at he
    · obtain rfl := mem_singleton.mp he
      split at hs <;> cases hs
    · obtain rfl := mem_singleton.mp he
      cases hs
  rename_i hterm
  split at he
  · exact absurd (finishes_planLateTerminal hhead e he) hnone
  split at he
  · exact absurd (finishes_planUsageLimit e he) hnone
  split at he
  · rw [finishes_infrastructure e he s hs]
    rfl
  · simp only [mem_append, mem_cons, not_mem_nil, or_false] at he
    obtain he | rfl | rfl := he
    · exact absurd (finishes_release he) hnone
    · cases hs
      exact SessionStatus.isTerminal_iff.mpr (by simpa using hterm)
    · cases hs

end AutoHarness.Plane

import AutoHarness.Store.Fragments

/-! The writers that end a session without a report of its host: cancellation of queued work, of a running assignment
(which keeps its claim), and expiry. -/

namespace AutoHarness.Store
open Foundation Function

/-- Set when a drain cancels the session. -/
structure DrainOpts where
  drainOperationId : Option String := none
  drainRepositoryId : Option String := none
  drainPrincipalId : Option String := none

def drainCancelScope (o : DrainOpts) : Option DrainCancelScope :=
  match given o.drainOperationId, given o.drainRepositoryId, given o.drainPrincipalId with
  | some op, some repo, some p => some ⟨repo, p, op⟩
  | _, _, _ => none

/-! ## Queued work -/

structure CancelQueuedOpts extends DrainOpts where
  sessionId : String
  queueShard : ℕ := 0
  completedAt : Timestamp
  errorMessage : String
  concurrencyId : Option String := none

/-- The drain's own scope, or the member read before the transaction when no drain is named. -/
def CancelQueuedOpts.activity (o : CancelQueuedOpts) (before : Db) : Option (DrainScope × DrainRecord) :=
  match drainCancelScope o.toDrainOpts with
  | some d => some (sessionDrainActivityForScope d.repositoryId d.principalId o.sessionId)
  | none =>
    if (given o.drainOperationId).isSome then none
    else (before.sessions o.sessionId).bind (sessionDrainActivityForSession o.sessionId)

/-- The row of a session cancelled in the queue. -/
def CancelQueuedOpts.cancelled (o : CancelQueuedOpts) (r : SessionRow) : SessionRow :=
  { r with
    status := .cancelled
    completedAt := some o.completedAt
    errorMessage := some o.errorMessage
    worktreeId := .null
    hostId := .null
    cancelledByDrainOperationId := (given o.drainOperationId).or r.cancelledByDrainOperationId
    reconnectDeadlineAt := none
    assignmentConnectionId := none
    activeHostId := none
    sessionApiKeyHash := none }

def cancelQueuedSessionItems (o : CancelQueuedOpts) (activity : Option (DrainScope × DrainRecord)) :
    List TransactItem :=
  [sessionWrite o.sessionId (fun row => row.any fun r => r.status == .queued) (fun row => row.map o.cancelled)] ++
  concurrencyLockDeleteItems o.sessionId o.concurrencyId ++
  sessionDrainActivityDelete activity ++
  sessionDrainCancellationUpdates (drainCancelScope o.toDrainOpts)

def cancelQueuedSession (o : CancelQueuedOpts) (db : Db) : Except StoreError Bool × Db :=
  commitOrFalse (cancelQueuedSessionItems o (o.activity db)) db

structure ExpireQueuedOpts where
  sessionId : String
  queueShard : ℕ := 0
  queueExpiresAt : Timestamp
  completedAt : Timestamp
  concurrencyId : Option String := none

/-- The row of a session that waited too long. -/
def ExpireQueuedOpts.expired (o : ExpireQueuedOpts) (r : SessionRow) : SessionRow :=
  { r with
    status := .failed
    completedAt := some o.completedAt
    errorCode := some "queue_expired"
    errorMessage := some "queue TTL expired before capacity became available" }

def expireQueuedSessionItems (o : ExpireQueuedOpts) (activity : Option (DrainScope × DrainRecord)) :
    List TransactItem :=
  [sessionWrite o.sessionId
     (fun row => row.any fun r => r.status == .queued && r.queueExpiresAt == o.queueExpiresAt)
     (fun row => row.map o.expired)] ++
  concurrencyLockDeleteItems o.sessionId o.concurrencyId ++
  sessionDrainActivityDelete activity

def expireQueuedSession (o : ExpireQueuedOpts) (db : Db) : Except StoreError Bool × Db :=
  commitOrFalse (expireQueuedSessionItems o
    ((db.sessions o.sessionId).bind (sessionDrainActivityForSession o.sessionId))) db

/-! ## Running assignments -/

structure CancelRunningOpts extends DrainOpts where
  sessionId : String
  worktreeId : Option String := none
  workspaceSlotId : Option String := none
  hostId : String
  connectionId : String
  attemptId : String
  queueShard : ℕ := 0
  completedAt : Timestamp
  errorMessage : String

/-- The row keeps its claim. -/
def CancelRunningOpts.cancelled (o : CancelRunningOpts) (r : SessionRow) : SessionRow :=
  { r with
    status := .cancelled
    completedAt := some o.completedAt
    errorMessage := some o.errorMessage
    cancelledByDrainOperationId := (given o.drainOperationId).or r.cancelledByDrainOperationId
    sessionApiKeyHash := none }

/-- A cancelled row, the redelivery marker of the one host push it produces, and the drain's
counters. -/
def writeCancelledSessionUpdateItems (o : CancelRunningOpts) (cond : SessionRow → Bool)
    (next : SessionRow → SessionRow) : List TransactItem :=
  [sessionWrite o.sessionId (fun row => row.any cond) (fun row => row.map next),
   cancelRedeliveryPut o.sessionId ⟨o.hostId, o.attemptId, 0, o.completedAt⟩] ++
  sessionDrainCancellationUpdates (drainCancelScope o.toDrainOpts)

/-- The session runs the attempt over the connection that was read. -/
def CancelRunningOpts.assignment (o : CancelRunningOpts) (r : SessionRow) : Bool :=
  r.status == .running && r.hostId == .value o.hostId && r.assignmentConnectionId == some o.connectionId &&
    r.attemptId == some o.attemptId

def cancelRunningSessionItems (o : CancelRunningOpts) : List TransactItem :=
  writeCancelledSessionUpdateItems o
    (fun r => o.assignment r && r.worktreeId == .ofOption o.worktreeId &&
      (given o.workspaceSlotId).all (fun w => r.workspaceSlotId == .value w))
    o.cancelled

/-- The lease is retained for the terminal acknowledgement. -/
def cancelRunningSession (o : CancelRunningOpts) (db : Db) : Except StoreError Bool × Db :=
  commitOrFalse (cancelRunningSessionItems o) db

/-- On a main checkout the row also gets a deadline. -/
def cancelRunningMainCheckoutSessionItems (o : CancelRunningOpts) (deadlineAt : Timestamp) : List TransactItem :=
  writeCancelledSessionUpdateItems o
    (fun r => o.assignment r && r.worktreeId == .null && r.mainCheckoutLease)
    (fun r => { o.cancelled r with reconnectDeadlineAt := some deadlineAt })

/-- Mark one exact running main-checkout attempt cancelled without releasing its lease. -/
def cancelRunningMainCheckoutSession (o : CancelRunningOpts) (deadlineAt : Timestamp) (db : Db) :
    Except StoreError Bool × Db :=
  commitOrFalse (cancelRunningMainCheckoutSessionItems o deadlineAt) db

/-! ## What a committed cancellation or expiry did -/

/-- A queued session was written, and the lock it queued under was given up. -/
def QueuedWritten (sessionId : String) (concurrencyId : Option String) (next : SessionRow → SessionRow)
    (db db' : Db) : Prop :=
  ∃ r, db.sessions sessionId = some r ∧ r.status = .queued ∧
    (∀ c, given concurrencyId = some c → ∀ l, db.concurrencyLocks c = some l → l.sessionId = some sessionId) ∧
    ∃ drains, db' = { db with
      sessions := update db.sessions sessionId (some (next r))
      concurrencyLocks := locksReleased (given concurrencyId) db.concurrencyLocks
      sessionDrains := drains }

variable {activity : Option (DrainScope × DrainRecord)} {db db' : Db}

theorem cancelQueued_committed {o : CancelQueuedOpts}
    (h : transact (cancelQueuedSessionItems o activity) db = .committed db') :
    QueuedWritten o.sessionId o.concurrencyId o.cancelled db db' := by
  obtain ⟨-, hr, rfl⟩ := committed_iff.mp h
  simp only [cancelQueuedSessionItems, ready_append, ready_cons, ready_nil, and_true, sessionWrite_holds,
    Option.any_eq_true, beq_iff_eq, ready_lockDelete, ready_drainDelete] at hr
  obtain ⟨⟨⟨r, hrow, hst⟩, hlock⟩, -⟩ := hr
  exact ⟨r, hrow, hst, hlock,
    drainsCounted (drainCancelScope o.toDrainOpts) (drainsWithout activity db.sessionDrains), by
      simp [cancelQueuedSessionItems, hrow]⟩

theorem expireQueued_committed {o : ExpireQueuedOpts}
    (h : transact (expireQueuedSessionItems o activity) db = .committed db') :
    QueuedWritten o.sessionId o.concurrencyId o.expired db db' := by
  obtain ⟨-, hr, rfl⟩ := committed_iff.mp h
  simp only [expireQueuedSessionItems, ready_append, ready_cons, ready_nil, and_true, sessionWrite_holds,
    Option.any_eq_true, Bool.and_eq_true, beq_iff_eq, ready_lockDelete, ready_drainDelete] at hr
  obtain ⟨⟨r, hrow, hst, -⟩, hlock⟩ := hr
  exact ⟨r, hrow, hst, hlock, drainsWithout activity db.sessionDrains, by
    simp [expireQueuedSessionItems, hrow]⟩

variable {o : CancelRunningOpts}

theorem writeCancelled_committed {cond : SessionRow → Bool} {next : SessionRow → SessionRow}
    (h : transact (writeCancelledSessionUpdateItems o cond next) db = .committed db') :
    ∃ r, db.sessions o.sessionId = some r ∧ cond r = true ∧ ∃ drains redeliveries, db' = { db with
        sessions := update db.sessions o.sessionId (some (next r))
        sessionDrains := drains
        sessionCancelRedeliveries := redeliveries } := by
  obtain ⟨-, hr, rfl⟩ := committed_iff.mp h
  simp only [writeCancelledSessionUpdateItems, ready_append, ready_cons, ready_nil, and_true,
    sessionWrite_holds, Option.any_eq_true] at hr
  obtain ⟨⟨⟨r, hrow, hc⟩, -⟩, -⟩ := hr
  exact ⟨r, hrow, hc, drainsCounted (drainCancelScope o.toDrainOpts) db.sessionDrains,
    update db.sessionCancelRedeliveries o.sessionId (some ⟨o.hostId, o.attemptId, 0, o.completedAt⟩), by
      simp [writeCancelledSessionUpdateItems, hrow]⟩

theorem CancelRunningOpts.assignment_iff {r : SessionRow} :
    o.assignment r = true ↔ r.status = .running ∧ r.hostId = .value o.hostId ∧
      r.assignmentConnectionId = some o.connectionId ∧ r.attemptId = some o.attemptId := by
  simp [CancelRunningOpts.assignment, and_assoc]

end AutoHarness.Store

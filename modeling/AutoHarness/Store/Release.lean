import AutoHarness.Store.Requeue

/-! The writers that give back what a session holds outside the requeue and the terminal writer. -/

namespace AutoHarness.Store
open Foundation Function List

/-- A drain operation cancelled the session. -/
def SessionRow.drainCancelled (r : SessionRow) : Bool := (given r.cancelledByDrainOperationId).isSome

/-- As read before its transaction; none for a session that a drain operation cancelled. -/
def releaseCleanup (sessionId : String) (before : Db) : Option (DrainScope × DrainRecord) :=
  (before.sessions sessionId).bind fun r =>
    if r.drainCancelled then none else sessionDrainActivityForSession sessionId r

/-! ## The worktree of a cancelled session -/

structure ReleaseCancelledOpts where
  sessionId : String
  worktreeId : String
  online : Bool
  cliResumeRef : Option String := none
  result : Option SessionResult := none
  fence : Option Fence := none
  attemptId : String
  concurrencyId : Option String := none
  providerAccountLease : Option ProviderAccountLease := none
  hostAssignmentLease : Option HostAssignmentLease := none

namespace ReleaseCancelledOpts

def condition (o : ReleaseCancelledOpts) (requireNoDrainCancellation : Bool) (r : SessionRow) : Bool :=
  r.status == .cancelled && r.worktreeId == .value o.worktreeId && r.attemptId == some o.attemptId &&
  (!requireNoDrainCancellation || r.cancelledByDrainOperationId.isNone)

def released (o : ReleaseCancelledOpts) (r : SessionRow) : SessionRow :=
  { r with
    worktreeId := .null
    cliResumeRef := (given o.cliResumeRef).or r.cliResumeRef
    result := r.result.or o.result
    assignmentConnectionId := none
    reconnectDeadlineAt := none
    activeHostId := none
    providerAccountLease := none
    hostAssignmentLease := none }

def worktreeCondition (o : ReleaseCancelledOpts) (w : WorktreeRow) : Bool :=
  o.fence.all fun f => w.connectionId.all (· == f.connectionId)

end ReleaseCancelledOpts

def releaseCancelledSessionWorktreeItems (o : ReleaseCancelledOpts)
    (cleanup : Option (DrainScope × DrainRecord)) : List TransactItem :=
  fenceChecks o.fence o.hostAssignmentLease ++
  [sessionWrite o.sessionId (fun row => row.any (o.condition cleanup.isSome)) (fun row => row.map o.released)] ++
  worktreeReleaseItems (some o.worktreeId) o.sessionId o.worktreeCondition
    (fun w => { w with online := o.online }) ++
  concurrencyLockDeleteItems o.sessionId o.concurrencyId ++
  providerAccountLeaseDeleteItems o.sessionId o.providerAccountLease ++
  hostAssignmentReleaseItems o.hostAssignmentLease ++
  sessionDrainActivityDelete cleanup

/-- The release was done before. -/
def alreadyDetached (sessionId : String) (db : Db) : Bool :=
  (db.sessions sessionId).any fun r => r.status == .cancelled && r.worktreeId.toOption.isNone

/-- One pass of the release, with the activity member `cleanup` read before it. -/
def releaseCancelledPass (o : ReleaseCancelledOpts) (cleanup : Option (DrainScope × DrainRecord)) (db : Db)
    (conflict : Except StoreError Bool × Db) : Except StoreError Bool × Db :=
  match transact (releaseCancelledSessionWorktreeItems o cleanup) db with
  | .committed db' => (.ok true, db')
  | .cancelled _ => conflict
  | .rejected => (.error .validationException, db)

/-- Read in `before` and written in `db`. A conflict whose re-read finds a drain cancellation is retried once without
the activity delete. -/
def releaseCancelledSessionWorktree (o : ReleaseCancelledOpts) (before db : Db) : Except StoreError Bool × Db :=
  let cleanup := releaseCleanup o.sessionId before
  releaseCancelledPass o cleanup db
    (if cleanup.isSome && (db.sessions o.sessionId).any SessionRow.drainCancelled then
      releaseCancelledPass o none db (.ok (alreadyDetached o.sessionId db), db)
    else (.ok (alreadyDetached o.sessionId db), db))

/-! ### Shape, conditions and effect -/

variable {o : ReleaseCancelledOpts} {q : Bool} {r : SessionRow} {db db' : Db}

theorem ReleaseCancelledOpts.condition_iff : o.condition q r = true ↔
      r.status = .cancelled ∧ r.worktreeId = .value o.worktreeId ∧ r.attemptId = some o.attemptId ∧
      (q = true → r.cancelledByDrainOperationId = none) := by
  cases q <;> simp [ReleaseCancelledOpts.condition, and_assoc]

/-- The conditions of the transaction but the fence. -/
structure ReleaseCancelledReady (o : ReleaseCancelledOpts) (cleanup : Option (DrainScope × DrainRecord))
    (db : Db) : Prop where
  session : ∃ r, db.sessions o.sessionId = some r ∧ o.condition cleanup.isSome r = true
  worktree : ∃ w, db.worktrees o.worktreeId = some w ∧ w.currentSessionId = .value o.sessionId ∧
    o.worktreeCondition w = true
  lock : ∀ c, given o.concurrencyId = some c → ∀ r, db.concurrencyLocks c = some r →
    r.sessionId = some o.sessionId
  lease : ∀ l, o.providerAccountLease = some l → ∀ r, db.concurrencyLocks l.concurrencyId = some r →
    r.ownedBy o.sessionId l.attemptId = true
  counter : ∀ l, o.hostAssignmentLease = some l → ∀ n, assignmentCount db.hostLocks l.hostId = some n → 1 ≤ n

theorem ready_releaseCancelledItems {cleanup : Option (DrainScope × DrainRecord)} : Ready (releaseCancelledSessionWorktreeItems o cleanup) db ↔
      FenceHolds o.fence o.hostAssignmentLease db ∧ ReleaseCancelledReady o cleanup db := by
  simp only [releaseCancelledSessionWorktreeItems, ready_append, ready_cons, ready_nil, and_true,
    ready_fenceChecks, ready_worktreeRelease, ready_lockDelete, ready_accountDelete, ready_hostRelease,
    ready_drainDelete, sessionWrite_holds, Option.any_eq_true, FenceHolds, Option.some.injEq, forall_eq']
  constructor
  · rintro ⟨⟨⟨⟨⟨hf, hs⟩, hw⟩, hl⟩, hp⟩, hc⟩
    exact ⟨hf, hs, hw, hl, hp, hc⟩
  · rintro ⟨hf, hs, hw, hl, hp, hc⟩
    exact ⟨⟨⟨⟨⟨hf, hs⟩, hw⟩, hl⟩, hp⟩, hc⟩

/-- The store after the release of row `r`. -/
def ReleaseCancelledOpts.after (o : ReleaseCancelledOpts) (cleanup : Option (DrainScope × DrainRecord))
    (r : SessionRow) (db : Db) : Db :=
  { db with
    sessions := Function.update db.sessions o.sessionId (some (o.released r))
    worktrees := worktreesReleased (some o.worktreeId) (fun w => { w with online := o.online }) db.worktrees
    concurrencyLocks :=
      locksReleased (leaseKey o.providerAccountLease) (locksReleased (given o.concurrencyId) db.concurrencyLocks)
    hostLocks := hostLocksReleased o.hostAssignmentLease db.hostLocks
    sessionDrains := drainsWithout cleanup db.sessionDrains }

theorem releaseCancelled_committed {cleanup : Option (DrainScope × DrainRecord)}
    (h : transact (releaseCancelledSessionWorktreeItems o cleanup) db = .committed db') :
    ∃ r, db.sessions o.sessionId = some r ∧ o.condition cleanup.isSome r = true ∧
      FenceHolds o.fence o.hostAssignmentLease db ∧ ReleaseCancelledReady o cleanup db ∧
      db' = o.after cleanup r db := by
  obtain ⟨-, hr, rfl⟩ := committed_iff.mp h
  obtain ⟨hf, hready⟩ := ready_releaseCancelledItems.mp hr
  obtain ⟨r, hrow, hc⟩ := hready.session
  refine ⟨r, hrow, hc, hf, hready, ?_⟩
  simp [releaseCancelledSessionWorktreeItems, ReleaseCancelledOpts.after, hrow]

theorem releaseCancelledItems_nodup {cleanup : Option (DrainScope × DrainRecord)} :
    (targets (releaseCancelledSessionWorktreeItems o cleanup)).Nodup ↔
      ∀ c, given o.concurrencyId = some c → leaseKey o.providerAccountLease ≠ some c := by
  simp only [releaseCancelledSessionWorktreeItems, targets_append, targets_cons, targets_nil,
    sessionWrite_target, targets_fenceChecks, targets_worktreeRelease, targets_lockDelete, targets_accountDelete,
    targets_hostRelease, targets_drainDelete, nodup_append,
    nodup_toList_map, mem_append, mem_map, Option.mem_toList, mem_singleton]
  simp only [nodup_cons, not_mem_nil, not_false_eq_true, nodup_nil, true_and, or_imp,
    forall_and, forall_exists_index, and_imp, forall_apply_eq_imp_iff₂, forall_eq, ne_eq, reduceCtorEq,
    Target.hostLock.injEq, Target.concurrencyLock.injEq, implies_true, and_true]
  exact distinct_locks_iff

/-! ## Main checkouts -/

structure ReleaseMainCheckoutOpts where
  sessionId : String
  hostId : String
  repositoryId : String
  connectionId : String
  status : SessionStatus
  queueShard : ℕ := 0
  reason : Option String := none
  completedAt : Option Timestamp := none
  exitCode : Attr ℤ := .missing
  errorCode : Option String := none
  cliResumeRef : Option String := none
  result : Option SessionResult := none
  suppressedTargetIndex : Option ℕ := none
  expectedStatus : Option SessionStatus := none
  attemptId : Option String := none
  concurrencyId : Option String := none
  requireUnacknowledged : Bool := false
  providerAccountLease : Option ProviderAccountLease := none
  hostAssignmentLease : Option HostAssignmentLease := none
  preserveProviderAccountLease : Bool := false
  preserveHostAssignmentLease : Bool := false
  timedOutHostId : Option String := none
  timedOutAssignmentConnectionId : Option String := none
  infrastructureErrorCode : Option InfrastructureErrorCode := none
  terminalHookHandoff : Option TerminalHookHandoff := none
  expectedTerminalHookHandoffAbsent : Bool := false

/-- `mainCheckoutLeases.#repo` names the session and the connection; with a lease, the counter is at
least one. -/
def HostLockRow.mainCheckoutReleasable (repositoryId sessionId connectionId : String)
    (lease : Option HostAssignmentLease) (h : HostLockRow) : Bool :=
  (h.mainCheckoutLeases repositoryId).any (fun l => l.sessionId == sessionId && l.connectionId == connectionId) &&
  (lease.isNone || h.assignmentCount.any (fun n => decide (1 ≤ n)))

/-- The lock row after a release; with `retain` the checkout stays leased for its hook. -/
def HostLockRow.mainCheckoutReleased (retain : Bool) (repositoryId : String)
    (lease : Option HostAssignmentLease) (h : HostLockRow) : HostLockRow :=
  { (if retain then h else h.withoutMainCheckout repositoryId) with
    assignmentCount := if lease.isSome then h.assignmentCount.map (· - 1) else h.assignmentCount }

/-- The fences travel inside the host-lock operation, whether or not it also decrements the counter. -/
def mainCheckoutHostItem (retain : Bool) (hostId repositoryId sessionId connectionId : String)
    (lease : Option HostAssignmentLease) : TransactItem :=
  if retain && lease.isNone then
    .check (.hostLock hostId) fun db =>
      (db.hostLocks hostId).any (HostLockRow.mainCheckoutReleasable repositoryId sessionId connectionId lease)
  else
    hostLockWrite hostId
      (fun row => row.any (HostLockRow.mainCheckoutReleasable repositoryId sessionId connectionId lease))
      (fun row => row.map (HostLockRow.mainCheckoutReleased retain repositoryId lease))

namespace ReleaseMainCheckoutOpts

/-- A handoff for the checkout keeps its lease. -/
def retains (o : ReleaseMainCheckoutOpts) : Bool := o.terminalHookHandoff.any (·.mainCheckoutLease)

def condition (o : ReleaseMainCheckoutOpts) (requireNoDrainCancellation : Bool) (r : SessionRow) : Bool :=
  r.status == o.expectedStatus.getD .running && r.hostId == .value o.hostId &&
  r.assignmentConnectionId == some o.connectionId && r.mainCheckoutLease &&
  (given o.attemptId).all (fun a => r.attemptId == some a) &&
  (!o.expectedTerminalHookHandoffAbsent || r.terminalHookHandoff.isNone) &&
  (!o.requireUnacknowledged || r.ackReceivedAt.isNone) &&
  (o.infrastructureErrorCode.isNone || r.infrastructureRetryCount.all (· < 1)) &&
  (o.infrastructureErrorCode != some .hostLost || r.primaryCommandStartState == some .pending) &&
  (!requireNoDrainCancellation || r.cancelledByDrainOperationId.isNone)

def released (o : ReleaseMainCheckoutOpts) (r : SessionRow) : SessionRow :=
  { r with
    status := o.status
    worktreeId := .null
    hostId := if o.status = .queued then .null else r.hostId
    errorMessage := (given o.reason).or r.errorMessage
    completedAt := o.completedAt.or r.completedAt
    timedOutHostId := (given o.timedOutHostId).or r.timedOutHostId
    timedOutAssignmentConnectionId :=
      (given o.timedOutAssignmentConnectionId).or r.timedOutAssignmentConnectionId
    exitCode := if o.exitCode = .missing then r.exitCode else o.exitCode
    errorCode := (given o.errorCode).or r.errorCode
    cliResumeRef := (given o.cliResumeRef).or r.cliResumeRef
    result := if o.status = .queued then none else r.result.or o.result
    terminalHookHandoff := o.terminalHookHandoff.or r.terminalHookHandoff
    terminalHookHandoffSettled :=
      if o.terminalHookHandoff.isSome then none else r.terminalHookHandoffSettled
    terminalHookLifecycleEnqueuedAt :=
      if o.terminalHookHandoff.isSome then none else r.terminalHookLifecycleEnqueuedAt
    suppressedTargetIndexes := r.suppressedTargetIndexes ++ o.suppressedTargetIndex.toList
    infrastructureRetryCount :=
      if o.infrastructureErrorCode.isSome then some (r.infrastructureRetryCount.getD 0 + 1)
      else r.infrastructureRetryCount
    lastInfrastructureErrorCode := o.infrastructureErrorCode.or r.lastInfrastructureErrorCode
    infrastructureRetryAttemptId :=
      if o.infrastructureErrorCode.isSome then (given o.attemptId).or r.infrastructureRetryAttemptId
      else r.infrastructureRetryAttemptId
    assignmentConnectionId := if o.retains then r.assignmentConnectionId else none
    assignmentSentAt := if o.retains then r.assignmentSentAt else none
    reconnectDeadlineAt := if o.retains then r.reconnectDeadlineAt else none
    mainCheckoutLease := if o.retains then r.mainCheckoutLease else false
    ackReceivedAt := if o.retains then r.ackReceivedAt else none
    primaryCommandStartState := none
    sessionApiKeyHash := none
    activeHostId :=
      if o.preserveHostAssignmentLease || o.terminalHookHandoff.isSome then r.activeHostId else none
    hostAssignmentLease := if o.preserveHostAssignmentLease then r.hostAssignmentLease else none
    providerAccountLease := if o.preserveProviderAccountLease then r.providerAccountLease else none
    startedAt := if o.status = .queued then none else r.startedAt }

/-- A requeue keeps the concurrency lock. -/
def deletedLock (o : ReleaseMainCheckoutOpts) : Option String :=
  if o.status = .queued then none else o.concurrencyId

def deletedLease (o : ReleaseMainCheckoutOpts) : Option ProviderAccountLease :=
  if o.preserveProviderAccountLease then none else o.providerAccountLease

/-- The activity row to delete, read before the transaction. -/
def cleanup (o : ReleaseMainCheckoutOpts) (before : Db) : Option (DrainScope × DrainRecord) :=
  if o.status = .queued then none else releaseCleanup o.sessionId before

end ReleaseMainCheckoutOpts

def releaseMainCheckoutSessionItems (o : ReleaseMainCheckoutOpts)
    (cleanup : Option (DrainScope × DrainRecord)) : List TransactItem :=
  [mainCheckoutHostItem o.retains o.hostId o.repositoryId o.sessionId o.connectionId o.hostAssignmentLease,
   sessionWrite o.sessionId (fun row => row.any (o.condition cleanup.isSome)) (fun row => row.map o.released)] ++
  concurrencyLockDeleteItems o.sessionId o.deletedLock ++
  providerAccountLeaseDeleteItems o.sessionId o.deletedLease ++
  sessionDrainActivityDelete cleanup

/-- Only the release of a cancelled session is retried when a drain marked it meanwhile. -/
def releaseMainCheckoutSession (o : ReleaseMainCheckoutOpts) (before db : Db) : Except StoreError Bool × Db :=
  let cleanup := o.cleanup before
  match transact (releaseMainCheckoutSessionItems o cleanup) db with
  | .committed db' => (.ok true, db')
  | .cancelled _ =>
    if cleanup.isSome && o.expectedStatus = some .cancelled &&
        (db.sessions o.sessionId).any SessionRow.drainCancelled then
      commitOrFalse (releaseMainCheckoutSessionItems o none) db
    else (.ok false, db)
  | .rejected => (.error .validationException, db)

structure MainCheckoutUsageLimitOpts extends UsageLimitOpts, UsageLimitedAccount where
  hostId : String
  repositoryId : String
  connectionId : String

/-- The usage limit of a session on a main checkout. -/
def requeueMainCheckoutUsageLimitedSessionItems (o : MainCheckoutUsageLimitOpts) : List TransactItem :=
  [o.toUsageLimitedAccount.item,
   mainCheckoutHostItem false o.hostId o.repositoryId o.sessionId o.connectionId o.hostAssignmentLease,
   sessionWrite o.sessionId
     (fun row => row.any fun r => r.status == .running && r.hostId == .value o.hostId &&
       r.assignmentConnectionId == some o.connectionId && r.mainCheckoutLease &&
       r.attemptId == some o.attemptId)
     (fun row => row.map fun r =>
       { r.usageLimited (o.errorMessage.getD "provider usage limit; requeued") with
         mainCheckoutLease := false, sessionApiKeyHash := none, result := none })] ++
  providerAccountLeaseDeleteItems o.sessionId o.providerAccountLease

/-! ### Conditions and effect -/

theorem ReleaseMainCheckoutOpts.condition_iff {o : ReleaseMainCheckoutOpts} :
    o.condition q r = true ↔ r.status = o.expectedStatus.getD .running ∧ r.hostId = .value o.hostId ∧
      r.assignmentConnectionId = some o.connectionId ∧ r.mainCheckoutLease = true ∧
      (∀ a, given o.attemptId = some a → r.attemptId = some a) ∧
      (o.expectedTerminalHookHandoffAbsent = true → r.terminalHookHandoff = none) ∧
      (o.requireUnacknowledged = true → r.ackReceivedAt = none) ∧
      (o.infrastructureErrorCode ≠ none → ∀ n, r.infrastructureRetryCount = some n → n < 1) ∧
      (o.infrastructureErrorCode = some .hostLost → r.primaryCommandStartState = some .pending) ∧
      (q = true → r.cancelledByDrainOperationId = none) := by
  simp only [ReleaseMainCheckoutOpts.condition, Bool.and_eq_true, Bool.or_eq_true, beq_iff_eq, bne_iff_ne,
    Bool.not_eq_true', Option.all_eq_true, Option.isNone_iff_eq_none, decide_eq_true_eq, and_assoc]
  rw [or_iff_not_imp_left (a := o.infrastructureErrorCode = none), ne_eq, ← imp_iff_not_or,
    or_iff_not_imp_left, or_iff_not_imp_left, or_iff_not_imp_left, Bool.not_eq_false, Bool.not_eq_false,
    Bool.not_eq_false]

variable {lease : Option HostAssignmentLease} {repo s k h : String} {retain : Bool}

theorem checkoutReleasable_iff {h : HostLockRow} :
    h.mainCheckoutReleasable repo s k lease = true ↔ h.mainCheckoutLeases repo = some ⟨s, k⟩ ∧
      (lease ≠ none → ∃ n, h.assignmentCount = some n ∧ 1 ≤ n) := by
  unfold HostLockRow.mainCheckoutReleasable
  cases lease <;> cases h.assignmentCount <;> cases hl : h.mainCheckoutLeases repo with
  | none => simp
  | some l => cases l; simp

theorem holds_checkoutHostItem : (mainCheckoutHostItem retain h repo s k lease).holds db = true ↔
      ∃ r, db.hostLocks h = some r ∧ r.mainCheckoutReleasable repo s k lease = true := by
  unfold mainCheckoutHostItem
  split <;> simp [Option.any_eq_true]

theorem run_checkoutHostItem {r : HostLockRow} (hr : db.hostLocks h = some r) :
    (mainCheckoutHostItem retain h repo s k lease).run db =
      { db with hostLocks :=
          update db.hostLocks h (some (r.mainCheckoutReleased retain repo lease)) } := by
  unfold mainCheckoutHostItem
  split
  · rename_i hc
    simp only [Bool.and_eq_true, Option.isNone_iff_eq_none] at hc
    obtain ⟨rfl, rfl⟩ := hc
    have hsame : r.mainCheckoutReleased true repo none = r := rfl
    rw [hsame, ← hr, update_eq_self]
    rfl
  · simp [hr]

theorem checkouts_mainCheckoutReleased (retain : Bool) (repo : String) (lease : Option HostAssignmentLease)
    {t : String → Option HostLockRow} {row : HostLockRow} (hrow : t h = some row) (h' repo' : String) :
    ((update t h (some (row.mainCheckoutReleased retain repo lease)) h').bind fun x => x.mainCheckoutLeases repo') =
      if (if retain then none else some (h, repo)) = some (h', repo') then none
      else (t h').bind fun x => x.mainCheckoutLeases repo' := by
  have hgone := checkouts_withoutMainCheckout t h repo h' repo'
  by_cases hh : h' = h
  · subst hh
    cases retain <;> simp_all [HostLockRow.mainCheckoutReleased]
  · cases retain <;> simp [hh, Ne.symm hh]

theorem releaseCheckout_committed {o : ReleaseMainCheckoutOpts} {cleanup : Option (DrainScope × DrainRecord)}
    (h : transact (releaseMainCheckoutSessionItems o cleanup) db = .committed db') :
    ∃ r hl, db.sessions o.sessionId = some r ∧ o.condition cleanup.isSome r = true ∧ db.hostLocks o.hostId = some hl ∧
      hl.mainCheckoutReleasable o.repositoryId o.sessionId o.connectionId o.hostAssignmentLease = true ∧
      (∀ c, given o.deletedLock = some c → ∀ l, db.concurrencyLocks c = some l → l.sessionId = some o.sessionId) ∧
      (∀ l, o.deletedLease = some l → ∀ x, db.concurrencyLocks l.concurrencyId = some x →
        x.ownedBy o.sessionId l.attemptId = true) ∧
      db' = { db with
        sessions := update db.sessions o.sessionId (some (o.released r))
        hostLocks := update db.hostLocks o.hostId
          (some (hl.mainCheckoutReleased o.retains o.repositoryId o.hostAssignmentLease))
        concurrencyLocks :=
          locksReleased (leaseKey o.deletedLease) (locksReleased (given o.deletedLock) db.concurrencyLocks)
        sessionDrains := drainsWithout cleanup db.sessionDrains } := by
  obtain ⟨-, hr, rfl⟩ := committed_iff.mp h
  simp only [releaseMainCheckoutSessionItems, ready_append, ready_cons, ready_nil, and_true,
    holds_checkoutHostItem, sessionWrite_holds, Option.any_eq_true, ready_lockDelete,
    ready_accountDelete, ready_drainDelete] at hr
  obtain ⟨⟨⟨⟨hl, hhost, hrel⟩, r, hrow, hc⟩, hlock⟩, hp⟩ := hr
  refine ⟨r, hl, hrow, hc, hhost, hrel, hlock, hp, ?_⟩
  simp [releaseMainCheckoutSessionItems, run_checkoutHostItem hhost, hrow]

theorem checkoutLimited_committed {o : MainCheckoutUsageLimitOpts}
    (h : transact (requeueMainCheckoutUsageLimitedSessionItems o) db = .committed db') :
    ∃ r hl, db.sessions o.sessionId = some r ∧ r.status = .running ∧ r.hostId = .value o.hostId ∧
      r.mainCheckoutLease = true ∧ r.attemptId = some o.attemptId ∧ db.hostLocks o.hostId = some hl ∧
      hl.mainCheckoutReleasable o.repositoryId o.sessionId o.connectionId o.hostAssignmentLease = true ∧
      (∀ l, o.providerAccountLease = some l → ∀ x, db.concurrencyLocks l.concurrencyId = some x →
        x.ownedBy o.sessionId l.attemptId = true) ∧ ∃ accounts, db' = { db with
        sessions := update db.sessions o.sessionId
          (some { r.usageLimited (o.errorMessage.getD "provider usage limit; requeued") with
            mainCheckoutLease := false, sessionApiKeyHash := none, result := none })
        hostLocks := update db.hostLocks o.hostId
          (some (hl.mainCheckoutReleased false o.repositoryId o.hostAssignmentLease))
        concurrencyLocks := locksReleased (leaseKey o.providerAccountLease) db.concurrencyLocks
        providerAccounts := accounts } := by
  obtain ⟨-, hr, rfl⟩ := committed_iff.mp h
  simp only [requeueMainCheckoutUsageLimitedSessionItems, ready_append, ready_cons, ready_nil, and_true,
    holds_checkoutHostItem, sessionWrite_holds, Option.any_eq_true, Bool.and_eq_true, beq_iff_eq,
    ready_accountDelete] at hr
  obtain ⟨⟨-, ⟨hl, hhost, hrel⟩, r, hrow, ⟨⟨⟨hst, hh⟩, -⟩, hm⟩, ha⟩, hp⟩ := hr
  refine ⟨r, hl, hrow, hst, hh, hm, ha, hhost, hrel, hp, (o.toUsageLimitedAccount.item.run db).providerAccounts, ?_⟩
  have hhost' : (o.toUsageLimitedAccount.item.run db).hostLocks o.hostId = some hl := hhost
  have hrow' : (o.toUsageLimitedAccount.item.run db).sessions o.sessionId = some r := hrow
  simp only [requeueMainCheckoutUsageLimitedSessionItems, runAll_append, runAll_cons, runAll_nil,
    run_checkoutHostItem hhost', sessionWrite_run, hrow', Option.map_some, runAll_accountDeleteItems]
  rfl

end AutoHarness.Store

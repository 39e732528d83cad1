import AutoHarness.Store.Finish

/-! The writers that return a running session to the queue: the general requeue, and those after a usage limit. -/

namespace AutoHarness.Store
open Foundation List

/-- What the requeues of this module clear. -/
def SessionRow.backToQueue (r : SessionRow) : SessionRow :=
  { r with
    status := .queued
    worktreeId := .null
    hostId := .null
    startedAt := none
    ackReceivedAt := none
    reconnectDeadlineAt := none
    assignmentConnectionId := none
    activeHostId := none
    providerAccountLease := none
    hostAssignmentLease := none }

/-! ## The general requeue -/

/-- What the callers of `tryRequeueSession` pass; the optional fields are their fences. -/
structure RequeueOpts where
  sessionId : String
  worktreeId : String
  attemptId : String
  queueShard : ℕ := 0
  reason : Option String := none
  forceOffline : Bool := false
  expectedHostId : Option String := none
  expectedReconnectDeadlineAt : Option Timestamp := none
  expectedConnectionId : Option String := none
  nextConnectionId : Option String := none
  requireNoHostLock : Option String := none
  fence : Option Fence := none
  requireUnacknowledged : Bool := false
  providerAccountLease : Option ProviderAccountLease := none
  hostAssignmentLease : Option HostAssignmentLease := none
  infrastructureErrorCode : Option InfrastructureErrorCode := none

namespace RequeueOpts

/-- The host is not connected. -/
def noHostLockChecks (o : RequeueOpts) : List TransactItem :=
  match given o.requireNoHostLock with
  | some h => [.check (.hostLock h) fun db => (db.hostLocks h).all fun r => r.disconnected == some true]
  | none => []

def hostLockChecks (o : RequeueOpts) : List TransactItem :=
  fenceChecks o.fence o.hostAssignmentLease ++ o.noHostLockChecks

/-- The attempt is still running on the worktree, and what the caller read still holds. -/
def condition (o : RequeueOpts) (r : SessionRow) : Bool :=
  r.status == .running && r.worktreeId == .value o.worktreeId && r.attemptId == some o.attemptId &&
  (!o.requireUnacknowledged || r.ackReceivedAt.isNone) &&
  (given o.expectedHostId).all (fun h => r.hostId == .value h) &&
  o.expectedReconnectDeadlineAt.all (fun d => r.reconnectDeadlineAt == some d) &&
  (given o.expectedConnectionId).all (fun k => r.assignmentConnectionId.all (· == k)) &&
  (o.infrastructureErrorCode.isNone || r.infrastructureRetryCount.all (· < 1)) &&
  (o.infrastructureErrorCode != some .hostLost || r.primaryCommandStartState == some .pending)

/-- The row in the queue; with a code the retry is counted. -/
def requeued (o : RequeueOpts) (r : SessionRow) : SessionRow :=
  { r.backToQueue with
    errorMessage := some (o.reason.getD "agent disconnected; requeued")
    infrastructureRetryCount :=
      if o.infrastructureErrorCode.isSome then some (r.infrastructureRetryCount.getD 0 + 1)
      else r.infrastructureRetryCount
    lastInfrastructureErrorCode := o.infrastructureErrorCode.or r.lastInfrastructureErrorCode
    infrastructureRetryAttemptId :=
      if o.infrastructureErrorCode.isSome then some o.attemptId else r.infrastructureRetryAttemptId
    primaryCommandStartState := none
    sessionApiKeyHash := none }

/-- The worktree of another connection stops the requeue. -/
def worktreeCondition (o : RequeueOpts) (w : WorktreeRow) : Bool :=
  (given o.expectedConnectionId).all (fun k => w.connectionId.all (· == k))

def worktreeSet (o : RequeueOpts) (w : WorktreeRow) : WorktreeRow :=
  { w with
    online := !o.forceOffline
    connectionId := (given o.nextConnectionId).or w.connectionId }

end RequeueOpts

def tryRequeueSessionItems (o : RequeueOpts) : List TransactItem :=
  o.hostLockChecks ++
  worktreeReleaseItems (some o.worktreeId) o.sessionId o.worktreeCondition o.worktreeSet ++
  [sessionWrite o.sessionId (fun row => row.any o.condition) (fun row => row.map o.requeued)] ++
  providerAccountLeaseDeleteItems o.sessionId o.providerAccountLease ++
  hostAssignmentReleaseItems o.hostAssignmentLease

def tryRequeueSession (o : RequeueOpts) (db : Db) : Except StoreError Bool × Db :=
  commitOrFalse (tryRequeueSessionItems o) db

/-! ### Shape, conditions and effect -/

variable {o : RequeueOpts} {r : SessionRow}

open RequeueOpts (condition noHostLockChecks hostLockChecks)

theorem RequeueOpts.condition_iff : o.condition r = true ↔
      r.status = .running ∧ r.worktreeId = .value o.worktreeId ∧ r.attemptId = some o.attemptId ∧
      (o.requireUnacknowledged = true → r.ackReceivedAt = none) ∧
      (∀ h, given o.expectedHostId = some h → r.hostId = .value h) ∧
      (∀ d, o.expectedReconnectDeadlineAt = some d → r.reconnectDeadlineAt = some d) ∧
      (∀ k, given o.expectedConnectionId = some k → ∀ x, r.assignmentConnectionId = some x → x = k) ∧
      (o.infrastructureErrorCode ≠ none → ∀ n, r.infrastructureRetryCount = some n → n < 1) ∧
      (o.infrastructureErrorCode = some .hostLost → r.primaryCommandStartState = some .pending) := by
  simp only [condition, Bool.and_eq_true, Bool.or_eq_true, beq_iff_eq, bne_iff_ne,
    Bool.not_eq_true', Option.all_eq_true, Option.isNone_iff_eq_none, decide_eq_true_eq, and_assoc]
  rw [← Bool.not_eq_true, ← imp_iff_not_or, or_iff_not_imp_left (a := o.infrastructureErrorCode = none),
    ne_eq, ← imp_iff_not_or]

def NoHostLock (hostId : Option String) (db : Db) : Prop :=
  ∀ h, given hostId = some h → ∀ r, db.hostLocks h = some r → r.disconnected = some true

/-- The conditions of the transaction but the fence. -/
structure RequeueReady (o : RequeueOpts) (db : Db) : Prop where
  noHostLock : NoHostLock o.requireNoHostLock db
  worktree : ∃ w, db.worktrees o.worktreeId = some w ∧ w.currentSessionId = .value o.sessionId ∧
    o.worktreeCondition w = true
  session : ∃ r, db.sessions o.sessionId = some r ∧ o.condition r = true
  lease : ∀ l, o.providerAccountLease = some l → ∀ r, db.concurrencyLocks l.concurrencyId = some r →
    r.ownedBy o.sessionId l.attemptId = true
  counter : ∀ l, o.hostAssignmentLease = some l → ∀ n, assignmentCount db.hostLocks l.hostId = some n → 1 ≤ n

variable {db db' : Db} {w a : String}

theorem ready_noHostLockChecks : Ready o.noHostLockChecks db ↔ NoHostLock o.requireNoHostLock db := by
  unfold noHostLockChecks NoHostLock
  cases given o.requireNoHostLock with
  | none => simp
  | some h =>
    simp only [ready_cons, ready_nil, and_true, Item.check_holds, Option.some.injEq, forall_eq']
    cases db.hostLocks h <;> simp

@[simp] theorem runAll_noHostLockChecks (o : RequeueOpts) (db : Db) : runAll o.noHostLockChecks db = db := by
  unfold noHostLockChecks
  cases given o.requireNoHostLock <;> rfl

theorem targets_noHostLockChecks (o : RequeueOpts) :
    targets o.noHostLockChecks = (given o.requireNoHostLock).toList.map .hostLock := by
  unfold noHostLockChecks
  cases given o.requireNoHostLock <;> rfl

theorem ready_tryRequeueSession : Ready (tryRequeueSessionItems o) db ↔
      FenceHolds o.fence o.hostAssignmentLease db ∧ RequeueReady o db := by
  simp only [tryRequeueSessionItems, hostLockChecks, ready_append, ready_cons, ready_nil, and_true,
    ready_fenceChecks, ready_noHostLockChecks, ready_worktreeRelease,
    ready_accountDelete, ready_hostRelease, sessionWrite_holds,
    Option.any_eq_true, FenceHolds, Option.some.injEq, forall_eq']
  constructor
  · rintro ⟨⟨⟨⟨⟨hf, hn⟩, hw⟩, hs⟩, hp⟩, hc⟩
    exact ⟨hf, hn, hw, hs, hp, hc⟩
  · rintro ⟨hf, hn, hw, hs, hp, hc⟩
    exact ⟨⟨⟨⟨⟨hf, hn⟩, hw⟩, hs⟩, hp⟩, hc⟩

theorem requeueSession_committed (h : transact (tryRequeueSessionItems o) db = .committed db') :
    ∃ r, db.sessions o.sessionId = some r ∧ o.condition r = true ∧ RequeueReady o db ∧
      db' = { db with
        sessions := Function.update db.sessions o.sessionId (some (o.requeued r))
        worktrees := worktreesReleased (some o.worktreeId) o.worktreeSet db.worktrees
        concurrencyLocks := locksReleased (leaseKey o.providerAccountLease) db.concurrencyLocks
        hostLocks := hostLocksReleased o.hostAssignmentLease db.hostLocks } := by
  obtain ⟨-, hr, rfl⟩ := committed_iff.mp h
  have hready := (ready_tryRequeueSession.mp hr).2
  obtain ⟨r, hrow, hc⟩ := hready.session
  refine ⟨r, hrow, hc, hready, ?_⟩
  simp [tryRequeueSessionItems, hostLockChecks, hrow]

/-- An item is named twice exactly when the check that the host has no lock meets the fence or the counter update of that host. -/
theorem tryRequeueSession_nodup : (targets (tryRequeueSessionItems o)).Nodup ↔
      ∀ h, given o.requireNoHostLock = some h → (∀ l, o.hostAssignmentLease = some l → l.hostId ≠ h) ∧
        (∀ f, o.fence = some f → o.hostAssignmentLease = none → f.hostId ≠ h) := by
  have hfence : ∀ f, o.fence.filter (fun _ => o.hostAssignmentLease.isNone) = some f ↔
      o.fence = some f ∧ o.hostAssignmentLease = none := by
    intro f
    cases o.fence <;> cases o.hostAssignmentLease <;> simp
  simp only [tryRequeueSessionItems, hostLockChecks, targets_append, targets_cons, targets_nil,
    sessionWrite_target, targets_fenceChecks, targets_noHostLockChecks, targets_worktreeRelease,
    targets_accountDelete, targets_hostRelease, nodup_append,
    nodup_toList_map, mem_append, mem_map, Option.mem_toList, mem_singleton]
  simp only [nodup_cons, not_mem_nil, not_false_eq_true, nodup_nil, true_and, or_imp,
    forall_and, forall_exists_index, and_imp, forall_apply_eq_imp_iff₂, forall_eq, ne_eq, reduceCtorEq,
    Target.hostLock.injEq, implies_true, and_true]
  simp only [hfence]
  constructor
  · rintro ⟨hf, -, hl⟩
    exact ⟨fun h hh l hlease he => hl h hh l hlease he.symm, fun h hh f hfe hn => hf f ⟨hfe, hn⟩ h hh⟩
  · rintro ⟨hl, hf⟩
    refine ⟨fun f hfe h hh => hf h hh f hfe.1 hfe.2, fun f hfe l hlease => ?_,
      fun h hh l hlease he => hl h hh l hlease he.symm⟩
    rw [hfe.2] at hlease
    cases hlease

/-! ## Usage limits -/

structure UsageLimitOpts where
  sessionId : String
  attemptId : String
  queueShard : ℕ := 0
  errorMessage : Option String := none
  providerAccountLease : Option ProviderAccountLease := none
  hostAssignmentLease : Option HostAssignmentLease := none

structure UsageLimitedAccount where
  providerAccountId : String
  now : Timestamp
  usageLimitedUntil : Timestamp

def UsageLimitedAccount.item (a : UsageLimitedAccount) : TransactItem :=
  providerAccountUsageLimitItem a.providerAccountId a.usageLimitedUntil a.now

/-- Back to the queue after a usage limit. -/
def SessionRow.usageLimited (message : String) (r : SessionRow) : SessionRow :=
  { r.backToQueue with
    assignmentSentAt := none
    errorCode := some "usage_limit"
    errorMessage := some message }

/-- `#s = :running AND worktreeId = :worktreeId AND attemptId = :attemptId`. -/
def runningOnWorktree (worktreeId attemptId : String) (r : SessionRow) : Bool :=
  r.status == .running && r.worktreeId == .value worktreeId && r.attemptId == some attemptId

/-- `#s = :running AND workspaceSlotId = :workspaceSlotId AND attemptId = :attemptId`. -/
def runningOnSlot (workspaceSlotId attemptId : String) (r : SessionRow) : Bool :=
  r.status == .running && r.workspaceSlotId == .value workspaceSlotId && r.attemptId == some attemptId

/-- Pause the account, free the worktree or the slot, requeue the row, give back the leases. -/
def usageLimitItems (o : UsageLimitOpts) (account : Option UsageLimitedAccount)
    (worktreeId workspaceSlotId slotError : Option String) (cond : SessionRow → Bool)
    (next : SessionRow → SessionRow) : List TransactItem :=
  (account.map UsageLimitedAccount.item).toList ++
  worktreeReleaseItems worktreeId o.sessionId (fun _ => true) id ++
  workspaceSlotReleaseItems workspaceSlotId o.sessionId slotError ++
  [sessionWrite o.sessionId (fun row => row.any cond) (fun row => row.map next)] ++
  providerAccountLeaseDeleteItems o.sessionId o.providerAccountLease ++
  hostAssignmentReleaseItems o.hostAssignmentLease

/-- Pause the account and requeue a session on a worktree. -/
def requeueUsageLimitedSessionItems (o : UsageLimitOpts) (account : UsageLimitedAccount) (worktreeId : String) :
    List TransactItem :=
  usageLimitItems o (some account) (some worktreeId) none none (runningOnWorktree worktreeId o.attemptId)
    fun r => { r.usageLimited (o.errorMessage.getD "provider usage limit; requeued") with
      sessionApiKeyHash := none, result := none }

def requeueUsageLimitedWorkspaceSessionItems (o : UsageLimitOpts) (account : UsageLimitedAccount)
    (workspaceSlotId : String) (workspaceSlotError : Option String) : List TransactItem :=
  usageLimitItems o (some account) none (some workspaceSlotId) workspaceSlotError
    (runningOnSlot workspaceSlotId o.attemptId)
    fun r => { r.usageLimited (o.errorMessage.getD "provider usage limit; requeued") with
      workspaceSlotId := .null, workspaceSlotLease := false }

/-- Requeue a providerless command and remember that this target is exhausted for this session. -/
def suppressProviderlessUsageLimitItems (o : UsageLimitOpts) (worktreeId : String) (targetIndex : ℕ) :
    List TransactItem :=
  usageLimitItems o none (some worktreeId) none none (runningOnWorktree worktreeId o.attemptId)
    fun r => { r.usageLimited (o.errorMessage.getD "providerless usage limit; trying fallback") with
      suppressedTargetIndexes := r.suppressedTargetIndexes ++ [targetIndex]
      sessionApiKeyHash := none, result := none }

/-- On a workspace slot; unlike on a worktree, the key hash stays. -/
def suppressProviderlessUsageLimitWorkspaceItems (o : UsageLimitOpts) (workspaceSlotId : String)
    (targetIndex : ℕ) (workspaceSlotError : Option String) : List TransactItem :=
  usageLimitItems o none none (some workspaceSlotId) workspaceSlotError
    (runningOnSlot workspaceSlotId o.attemptId)
    fun r => { r.usageLimited (o.errorMessage.getD "providerless usage limit; trying fallback") with
      suppressedTargetIndexes := r.suppressedTargetIndexes ++ [targetIndex]
      workspaceSlotId := .null, workspaceSlotLease := false, result := none }

theorem runningOnWorktree_iff :
    runningOnWorktree w a r = true ↔ r.status = .running ∧ r.worktreeId = .value w ∧ r.attemptId = some a := by
  simp [runningOnWorktree, and_assoc]

theorem runningOnSlot_iff : runningOnSlot w a r = true ↔
      r.status = .running ∧ r.workspaceSlotId = .value w ∧ r.attemptId = some a := by
  simp [runningOnSlot, and_assoc]

theorem usageLimit_committed {o : UsageLimitOpts} {account : Option UsageLimitedAccount}
    {w sl e : Option String} {cond : SessionRow → Bool} {next : SessionRow → SessionRow}
    (h : transact (usageLimitItems o account w sl e cond next) db = .committed db') :
    ∃ r, db.sessions o.sessionId = some r ∧ cond r = true ∧
      (∀ x, w = some x → ∃ y, db.worktrees x = some y ∧ y.currentSessionId = .value o.sessionId) ∧
      (∀ x, sl = some x → ∃ y, db.workspaceSlots x = some y ∧ y.currentSessionId = .value o.sessionId) ∧
      (∀ l, o.providerAccountLease = some l → ∀ r, db.concurrencyLocks l.concurrencyId = some r →
        r.ownedBy o.sessionId l.attemptId = true) ∧
      (∀ l, o.hostAssignmentLease = some l → ∀ n, assignmentCount db.hostLocks l.hostId = some n → 1 ≤ n) ∧
      ∃ accounts, db' = { db with
        sessions := Function.update db.sessions o.sessionId (some (next r))
        worktrees := worktreesReleased w id db.worktrees
        workspaceSlots := slotsReleased sl e db.workspaceSlots
        concurrencyLocks := locksReleased (leaseKey o.providerAccountLease) db.concurrencyLocks
        hostLocks := hostLocksReleased o.hostAssignmentLease db.hostLocks
        providerAccounts := accounts } := by
  obtain ⟨-, hr, rfl⟩ := committed_iff.mp h
  simp only [usageLimitItems, ready_append, ready_cons, ready_nil, and_true, sessionWrite_holds,
    Option.any_eq_true, ready_worktreeRelease, ready_slotRelease, ready_accountDelete, ready_hostRelease] at hr
  obtain ⟨⟨⟨⟨⟨-, hw⟩, hs⟩, r, hrow, hc⟩, hp⟩, hcount⟩ := hr
  refine ⟨r, hrow, hc, hw, hs, hp, hcount, ?_⟩
  cases account with
  | none => exact ⟨db.providerAccounts, by simp [usageLimitItems, hrow]⟩
  | some a =>
    exact ⟨(a.item.run db).providerAccounts, by
      simp [usageLimitItems, hrow, UsageLimitedAccount.item, providerAccountUsageLimitItem]⟩

end AutoHarness.Store

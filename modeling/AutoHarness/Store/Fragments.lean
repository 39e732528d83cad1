import AutoHarness.Store.Tables

/-! The item fragments that several writers share, each with its targets, its condition and its effect on the one
table it writes. -/

namespace AutoHarness.Store
open Foundation Option

/-! ## Connection fences and the host's assignment counter -/

/-- The connection that a writer acts for. -/
structure Fence where
  hostId : String
  connectionId : String
deriving DecidableEq

/-- The condition `connectionId = :connectionId` on a host-lock row. -/
def namesConnection (connectionId : String) (row : Option HostLockRow) : Bool :=
  row.any fun r => r.connectionId == some connectionId

/-- The lock row of the host names the connection. -/
def fenceCheck (fence : Fence) : TransactItem :=
  .check (.hostLock fence.hostId) fun db => namesConnection fence.connectionId (db.hostLocks fence.hostId)

/-- The counter update replaces the check when the caller passes a host assignment lease. -/
def fenceChecks (fence : Option Fence) (lease : Option HostAssignmentLease) : List TransactItem :=
  match fence, lease with
  | some f, none => [fenceCheck f]
  | _, _ => []

theorem targets_fenceChecks (fence : Option Fence) (lease : Option HostAssignmentLease) :
    targets (fenceChecks fence lease) =
      (fence.filter fun _ => lease.isNone).toList.map fun f => .hostLock f.hostId := by
  cases fence <;> cases lease <;> rfl

variable {db : Db} {fence : Option Fence} {lease host : Option HostAssignmentLease} {o lock : Option String}
  {t : String → Option LockRow} {c k : String} {r : LockRow}

theorem ready_fenceChecks : Ready (fenceChecks fence lease) db ↔ (lease = none → ∀ f, fence = some f →
        namesConnection f.connectionId (db.hostLocks f.hostId) = true) := by
  cases fence <;> cases lease <;> simp [fenceChecks, fenceCheck]

@[simp] theorem runAll_fenceChecks (fence : Option Fence) (lease : Option HostAssignmentLease) (db : Db) :
    runAll (fenceChecks fence lease) db = db := by
  cases fence <;> cases lease <;> rfl

theorem namesConnection_iff {row : Option HostLockRow} :
    namesConnection k row = true ↔ ∃ r, row = some r ∧ r.connectionId = some k := by
  cases row <;> simp [namesConnection]

/-- `assignmentCount = if_not_exists(assignmentCount, :legacyCount) + :one`. -/
def HostLockRow.acquired (legacyCount : ℕ) (r : HostLockRow) : HostLockRow :=
  { r with assignmentCount := some (r.assignmentCount.getD legacyCount + 1) }

/-- `assignmentCount = if_not_exists(assignmentCount, :one) - :one`; the update creates a missing
row. -/
def HostLockRow.released (r : HostLockRow) : HostLockRow :=
  { r with assignmentCount := some (r.assignmentCount.getD 1 - 1) }

/-- `(attribute_exists(assignmentCount) AND assignmentCount < :cap) OR
(attribute_not_exists(assignmentCount) AND :legacyCount < :cap)`. -/
def HostLockRow.belowCap (legacyCount : ℕ) (cap : Option ℕ) (r : HostLockRow) : Bool :=
  match cap with
  | none => true
  | some c => decide (r.assignmentCount.getD legacyCount < c)

/-- `attribute_not_exists(x) OR x = :false`. -/
def notTrue (o : Option Bool) : Bool := o.all (· == false)

/-- Count one assignment of a connected host that does not drain, below the cap. -/
def hostAssignmentAcquireItem (lease : HostAssignmentLease) (connectionId : String)
    (cap legacyAssignmentCount : Option ℕ) : TransactItem :=
  hostLockWrite lease.hostId
    (fun row => row.any fun r => r.connectionId == some connectionId && notTrue r.disconnected &&
      notTrue r.draining && r.belowCap (legacyAssignmentCount.getD 0) cap)
    (fun row => row.map (HostLockRow.acquired (legacyAssignmentCount.getD 0)))

/-- Neither the connection nor the session's lease is looked at. -/
def hostAssignmentReleaseItem (lease : HostAssignmentLease) : TransactItem :=
  hostLockWrite lease.hostId
    (fun row => (row.bind HostLockRow.assignmentCount).all (fun n => decide (1 ≤ n)))
    (fun row => some (row.getD {}).released)

def hostAssignmentReleaseItems (lease : Option HostAssignmentLease) : List TransactItem :=
  match lease with
  | some l => [hostAssignmentReleaseItem l]
  | none => []

/-- The counter of host `h` in a host-locks table. -/
def assignmentCount (t : String → Option HostLockRow) (h : String) : Option ℤ :=
  (t h).bind HostLockRow.assignmentCount

/-- The lock rows after the release. -/
def hostLocksReleased (lease : Option HostAssignmentLease) (t : String → Option HostLockRow) :
    String → Option HostLockRow :=
  match lease with
  | some l => Function.update t l.hostId (some ((t l.hostId).getD {}).released)
  | none => t

@[simp] theorem hostLocksReleased_none (t : String → Option HostLockRow) : hostLocksReleased none t = t := rfl

theorem targets_hostRelease (lease : Option HostAssignmentLease) :
    targets (hostAssignmentReleaseItems lease) = lease.toList.map fun l => .hostLock l.hostId := by
  cases lease <;> rfl

theorem ready_hostRelease : Ready (hostAssignmentReleaseItems lease) db ↔
      ∀ l, lease = some l → ∀ n, assignmentCount db.hostLocks l.hostId = some n → 1 ≤ n := by
  cases lease with
  | none => simp [hostAssignmentReleaseItems]
  | some l =>
    simp only [hostAssignmentReleaseItems, ready_cons, ready_nil, and_true, hostAssignmentReleaseItem,
      hostLockWrite_holds, some.injEq, forall_eq', assignmentCount]
    cases (db.hostLocks l.hostId).bind HostLockRow.assignmentCount <;> simp

@[simp] theorem runAll_hostAssignmentRelease (lease : Option HostAssignmentLease) (db : Db) :
    runAll (hostAssignmentReleaseItems lease) db = { db with hostLocks := hostLocksReleased lease db.hostLocks } := by
  cases lease <;> rfl

/-! ## Provider-account locks -/

/-- The lock is of this attempt of the session. -/
def LockRow.ownedBy (sessionId attemptId : String) (r : LockRow) : Bool :=
  r.sessionId == some sessionId && r.attemptId == some attemptId

/-- A lock of another attempt stops the transaction, a missing one does not. -/
def providerAccountLeaseDeleteItem (concurrencyId sessionId attemptId : String) : TransactItem :=
  lockWrite concurrencyId (fun row => row.all (LockRow.ownedBy sessionId attemptId)) (fun _ => none)

def providerAccountLeaseDeleteItems (sessionId : String) (lease : Option ProviderAccountLease) :
    List TransactItem :=
  match lease with
  | some l => [providerAccountLeaseDeleteItem l.concurrencyId sessionId l.attemptId]
  | none => []

/-- The locks after the deletion. -/
def locksReleased (concurrencyId : Option String) (t : String → Option LockRow) : String → Option LockRow :=
  match concurrencyId with
  | some c => Function.update t c none
  | none => t

@[simp] theorem locksReleased_none (t : String → Option LockRow) : locksReleased none t = t := rfl

theorem locksReleased_ne (h : o ≠ some c) : locksReleased o t c = t c := by
  cases o with
  | none => rfl
  | some d =>
    have hne : c ≠ d := fun e => h (by rw [e])
    simp [locksReleased, hne]

@[simp] theorem locksReleased_self (c : String) (t : String → Option LockRow) : locksReleased (some c) t c = none := by
  simp [locksReleased]

theorem locksReleased_some (h : locksReleased o t c = some r) : t c = some r ∧ o ≠ some c := by
  by_cases ho : o = some c
  · rw [ho, locksReleased_self] at h
    cases h
  · rw [locksReleased_ne ho] at h
    exact ⟨h, ho⟩

def leaseKey (lease : Option ProviderAccountLease) : Option String := lease.map (·.concurrencyId)

@[simp] theorem leaseKey_none : leaseKey none = none := rfl
@[simp] theorem leaseKey_some (l : ProviderAccountLease) : leaseKey (some l) = some l.concurrencyId := rfl

/-- The locks that a release deletes are two, and its fence gives way to the counter update. -/
theorem distinct_locks_iff {lease : Option ProviderAccountLease} : ((∀ c, lock = some c → ∀ l, lease = some l → ¬ c = l.concurrencyId) ∧
      ∀ f, fence.filter (fun _ => host.isNone) = some f → ∀ l, host = some l → ¬ f.hostId = l.hostId) ↔
      ∀ c, lock = some c → leaseKey lease ≠ some c := by
  constructor
  · rintro ⟨hlock, -⟩ c hc hkey
    obtain ⟨l, hl, rfl⟩ := map_eq_some_iff.mp hkey
    exact hlock _ hc l hl rfl
  · refine fun h => ⟨fun c hc l hl he => h c hc (by rw [hl, he]; rfl), fun f hf l hl => ?_⟩
    simp [hl] at hf

theorem targets_accountDelete (s : String) (lease : Option ProviderAccountLease) :
    targets (providerAccountLeaseDeleteItems s lease) = lease.toList.map fun l => .concurrencyLock l.concurrencyId := by
  cases lease <;> rfl

variable {s : String}

theorem ready_accountDelete {lease : Option ProviderAccountLease} : Ready (providerAccountLeaseDeleteItems s lease) db ↔
      ∀ l, lease = some l → ∀ r, db.concurrencyLocks l.concurrencyId = some r → r.ownedBy s l.attemptId = true := by
  cases lease with
  | none => simp [providerAccountLeaseDeleteItems]
  | some l =>
    simp only [providerAccountLeaseDeleteItems, ready_cons, ready_nil, and_true,
      providerAccountLeaseDeleteItem, lockWrite_holds, some.injEq, forall_eq']
    cases db.concurrencyLocks l.concurrencyId <;> simp

@[simp] theorem runAll_accountDeleteItems (s : String) (lease : Option ProviderAccountLease) (db : Db) :
    runAll (providerAccountLeaseDeleteItems s lease) db =
      { db with concurrencyLocks := locksReleased (leaseKey lease) db.concurrencyLocks } := by
  cases lease <;> rfl

variable {a h : String} {w providerId e : Option String}

theorem LockRow.ownedBy_iff : r.ownedBy s a = true ↔ r.sessionId = some s ∧ r.attemptId = some a := by
  simp [LockRow.ownedBy]

/-- The lock that stands for a slot of an account. -/
def providerAccountLeaseLock (sessionId attemptId hostId : String) (l : ProviderAccountLease) : LockRow :=
  { sessionId := some sessionId, attemptId := some attemptId,
    providerAccountId := some l.providerAccountId, slot := some l.slot, hostId := some hostId }

def providerAccountLeasePutItems (sessionId attemptId hostId : String)
    (lease : Option ProviderAccountLease) : List TransactItem :=
  match lease with
  | some l => [lockWrite l.concurrencyId Option.isNone
      fun _ => some (providerAccountLeaseLock sessionId attemptId hostId l)]
  | none => []

/-- The locks after the put. -/
def locksTaken (sessionId attemptId hostId : String) (lease : Option ProviderAccountLease)
    (t : String → Option LockRow) : String → Option LockRow :=
  match lease with
  | some l => Function.update t l.concurrencyId (some (providerAccountLeaseLock sessionId attemptId hostId l))
  | none => t

@[simp] theorem locksTaken_none (s a h : String) (t : String → Option LockRow) : locksTaken s a h none t = t := rfl

theorem ready_accountPutItems {lease : Option ProviderAccountLease} :
    Ready (providerAccountLeasePutItems s a h lease) db ↔
      ∀ l, lease = some l → db.concurrencyLocks l.concurrencyId = none := by
  cases lease <;> simp [providerAccountLeasePutItems]

@[simp] theorem runAll_accountPutItems (s a h : String) (lease : Option ProviderAccountLease) (db : Db) :
    runAll (providerAccountLeasePutItems s a h lease) db =
      { db with concurrencyLocks := locksTaken s a h lease db.concurrencyLocks } := by
  cases lease <;> rfl

def DEFAULT_MAX_CONCURRENT_SESSIONS : ℕ := 1

def ProviderAccountRow.maxConcurrent (r : ProviderAccountRow) : ℕ :=
  r.maxConcurrentSessions.getD DEFAULT_MAX_CONCURRENT_SESSIONS

/-- Stamp the account of a route; with a slot, require the slot below the account's cap. -/
def providerAccountLastAssignedTransactItem (providerAccountId : String) (providerId : Option String)
    (now : Timestamp) (slot : Option ℕ) : TransactItem :=
  providerAccountWrite providerAccountId
    (fun row => row.any fun r =>
      (match r.usageLimitedUntil with
        | .value limit => decide (limit ≤ now)
        | _ => true) &&
      slot.all (fun s => decide (s < r.maxConcurrent)) &&
      providerId.all (fun p => r.providerId == p))
    (fun row => row.map fun r => { r with lastAssignedAt := some now, updatedAt := now })

def providerAccountLastAssignedItems (providerAccountId providerId : Option String) (now : Timestamp)
    (lease : Option ProviderAccountLease) : List TransactItem :=
  match given providerAccountId with
  | some a => [providerAccountLastAssignedTransactItem a (given providerId) now (lease.map (·.slot))]
  | none => []

/-- The accounts after an assignment, which its own account remembers. -/
def accountsAssigned (providerAccountId : Option String) (now : Timestamp)
    (t : String → Option ProviderAccountRow) : String → Option ProviderAccountRow :=
  match given providerAccountId with
  | some a => Function.update t a ((t a).map fun r => { r with lastAssignedAt := some now, updatedAt := now })
  | none => t

@[simp] theorem runAll_providerAccountLastAssignedItems (providerAccountId providerId : Option String)
    (now : Timestamp) (lease : Option ProviderAccountLease) (db : Db) :
    runAll (providerAccountLastAssignedItems providerAccountId providerId now lease) db =
      { db with providerAccounts := accountsAssigned providerAccountId now db.providerAccounts } := by
  unfold providerAccountLastAssignedItems accountsAssigned
  cases given providerAccountId <;> rfl

theorem slot_lt_of_ready {now : Timestamp} {l : ProviderAccountLease} (ha : a ≠ "")
    (h : Ready (providerAccountLastAssignedItems (some a) providerId now (some l)) db) :
    ∃ r, db.providerAccounts a = some r ∧ l.slot < r.maxConcurrent := by
  have hg : given (some a) = some a := given_of_ne ha
  simp only [providerAccountLastAssignedItems, hg, ready_cons, ready_nil, and_true,
    providerAccountLastAssignedTransactItem, providerAccountWrite_holds, any_eq_true] at h
  obtain ⟨r, hr, hc⟩ := h
  simp only [Bool.and_eq_true, map_some, all_some, decide_eq_true_eq] at hc
  exact ⟨r, hr, hc.1.2⟩

/-- The account is out of use until the given time. -/
def providerAccountUsageLimitItem (providerAccountId : String) (usageLimitedUntil now : Timestamp) : TransactItem :=
  providerAccountWrite providerAccountId Option.isSome
    (fun row => row.map fun r =>
      { r with usageLimitedUntil := .value usageLimitedUntil, lastUsageLimitedAt := some now, updatedAt := now })

/-! ## Concurrency locks -/

/-- `sessionId = :sessionId` on a lock row. -/
def LockRow.names (sessionId : String) (r : LockRow) : Bool := r.sessionId == some sessionId

/-- The lock has to be there and to be the session's. -/
def concurrencyLockStrictDeleteItems (sessionId : String) (concurrencyId : Option String) :
    List TransactItem :=
  match given concurrencyId with
  | some c => [lockWrite c (fun row => row.any (LockRow.names sessionId)) fun _ => none]
  | none => []

/-- Delete under `attribute_not_exists(concurrencyId) OR sessionId = :sessionId`. -/
def concurrencyLockDeleteItems (sessionId : String) (concurrencyId : Option String) :
    List TransactItem :=
  match given concurrencyId with
  | some c => [lockWrite c (fun row => row.all (LockRow.names sessionId)) fun _ => none]
  | none => []

theorem targets_strictDelete (s : String) (c : Option String) :
    targets (concurrencyLockStrictDeleteItems s c) = (given c).toList.map .concurrencyLock := by
  unfold concurrencyLockStrictDeleteItems
  cases given c <;> rfl

theorem targets_lockDelete (s : String) (c : Option String) :
    targets (concurrencyLockDeleteItems s c) = (given c).toList.map .concurrencyLock := by
  unfold concurrencyLockDeleteItems
  cases given c <;> rfl

theorem ready_strictDelete {c : Option String} : Ready (concurrencyLockStrictDeleteItems s c) db ↔
      ∀ d, given c = some d → ∃ r, db.concurrencyLocks d = some r ∧ r.sessionId = some s := by
  unfold concurrencyLockStrictDeleteItems
  cases given c with
  | none => simp
  | some d => simp [LockRow.names, any_eq_true]

theorem ready_lockDelete {c : Option String} : Ready (concurrencyLockDeleteItems s c) db ↔
      ∀ d, given c = some d → ∀ r, db.concurrencyLocks d = some r → r.sessionId = some s := by
  unfold concurrencyLockDeleteItems
  cases given c with
  | none => simp
  | some d =>
    simp only [ready_cons, ready_nil, and_true, lockWrite_holds, some.injEq, forall_eq']
    cases db.concurrencyLocks d <;> simp [LockRow.names]

@[simp] theorem runAll_concurrencyLockStrictDeleteItems (s : String) (c : Option String) (db : Db) :
    runAll (concurrencyLockStrictDeleteItems s c) db =
      { db with concurrencyLocks := locksReleased (given c) db.concurrencyLocks } := by
  unfold concurrencyLockStrictDeleteItems locksReleased
  cases given c <;> rfl

@[simp] theorem runAll_lockDelete (s : String) (c : Option String) (db : Db) :
    runAll (concurrencyLockDeleteItems s c) db =
      { db with concurrencyLocks := locksReleased (given c) db.concurrencyLocks } := by
  unfold concurrencyLockDeleteItems locksReleased
  cases given c <;> rfl

/-! ## Freeing a worktree or a workspace slot -/

/-- The row of a freed worktree; `set` is what the writer changes besides the claim. -/
def WorktreeRow.freed (set : WorktreeRow → WorktreeRow) (w : WorktreeRow) : WorktreeRow :=
  { set w with status := .idle, currentSessionId := .null }

/-- The worktree has to name the session and to meet `also`; `set` applies before it is freed. -/
def worktreeReleaseItems (worktreeId : Option String) (sessionId : String)
    (also : WorktreeRow → Bool) (set : WorktreeRow → WorktreeRow) : List TransactItem :=
  match worktreeId with
  | some w => [worktreeWrite w
      (fun row => row.any fun r => r.currentSessionId == .value sessionId && also r)
      (fun row => row.map (WorktreeRow.freed set))]
  | none => []

/-- The worktrees after the release. -/
def worktreesReleased (worktreeId : Option String) (set : WorktreeRow → WorktreeRow)
    (t : String → Option WorktreeRow) : String → Option WorktreeRow :=
  match worktreeId with
  | some w => Function.update t w ((t w).map (WorktreeRow.freed set))
  | none => t

@[simp] theorem worktreesReleased_none (set : WorktreeRow → WorktreeRow) (t : String → Option WorktreeRow) :
    worktreesReleased none set t = t := rfl

theorem worktreesReleased_apply (w : Option String) (set : WorktreeRow → WorktreeRow) (t : String → Option WorktreeRow)
    (i : String) : worktreesReleased w set t i = if w = some i then (t i).map (WorktreeRow.freed set) else t i := by
  cases w with
  | none => rfl
  | some j =>
    by_cases hj : i = j
    · simp [worktreesReleased, hj]
    · simp [worktreesReleased, hj, Ne.symm hj]

theorem targets_worktreeRelease (w : Option String) (s : String) (also : WorktreeRow → Bool)
    (set : WorktreeRow → WorktreeRow) : targets (worktreeReleaseItems w s also set) = w.toList.map .worktree := by
  cases w <;> rfl

theorem ready_worktreeRelease {also : WorktreeRow → Bool} {set : WorktreeRow → WorktreeRow} :
    Ready (worktreeReleaseItems w s also set) db ↔
      ∀ x, w = some x → ∃ r, db.worktrees x = some r ∧ r.currentSessionId = .value s ∧ also r = true := by
  cases w <;> simp [worktreeReleaseItems, any_eq_true]

@[simp] theorem runAll_worktreeRelease (w : Option String) (s : String) (also : WorktreeRow → Bool)
    (set : WorktreeRow → WorktreeRow) (db : Db) : runAll (worktreeReleaseItems w s also set) db =
      { db with worktrees := worktreesReleased w set db.worktrees } := by
  cases w <;> rfl

/-- A slot with an error is freed but not assigned again. -/
def WorkspaceSlotRow.freed (slotError : Option String) (w : WorkspaceSlotRow) : WorkspaceSlotRow :=
  { w with
    status := if slotError.isSome then .error else .idle
    currentSessionId := .null
    errorMessage := slotError }

def workspaceSlotReleaseItems (workspaceSlotId : Option String) (sessionId : String)
    (slotError : Option String) : List TransactItem :=
  match workspaceSlotId with
  | some w => [workspaceSlotWrite w
      (fun row => row.any fun r => r.currentSessionId == .value sessionId)
      (fun row => row.map (WorkspaceSlotRow.freed slotError))]
  | none => []

/-- The slots after the release. -/
def slotsReleased (workspaceSlotId slotError : Option String) (t : String → Option WorkspaceSlotRow) :
    String → Option WorkspaceSlotRow :=
  match workspaceSlotId with
  | some w => Function.update t w ((t w).map (WorkspaceSlotRow.freed slotError))
  | none => t

@[simp] theorem slotsReleased_none (e : Option String) (t : String → Option WorkspaceSlotRow) :
    slotsReleased none e t = t := rfl

theorem targets_slotRelease (w : Option String) (s : String) (e : Option String) :
    targets (workspaceSlotReleaseItems w s e) = w.toList.map .workspaceSlot := by
  cases w <;> rfl

theorem ready_slotRelease : Ready (workspaceSlotReleaseItems w s e) db ↔
      ∀ x, w = some x → ∃ r, db.workspaceSlots x = some r ∧ r.currentSessionId = .value s := by
  cases w <;> simp [workspaceSlotReleaseItems, any_eq_true]

@[simp] theorem runAll_slotRelease (w : Option String) (s : String) (e : Option String) (db : Db) :
    runAll (workspaceSlotReleaseItems w s e) db =
      { db with workspaceSlots := slotsReleased w e db.workspaceSlots } := by
  cases w <;> rfl

/-! ## Drain activity -/

/-- The key of a session's activity row in the scope of a principal. -/
def sessionDrainActivityForScope (repositoryId principalId sessionId : String) : DrainScope × DrainRecord :=
  (.principal repositoryId principalId, .activity sessionId)

def sessionDrainActivityForSession (sessionId : String) (r : SessionRow) :
    Option (DrainScope × DrainRecord) :=
  (given r.sessionPrincipalId).map fun p => sessionDrainActivityForScope r.repositoryId p sessionId

def sessionDrainActivityDelete (activity : Option (DrainScope × DrainRecord)) : List TransactItem :=
  match activity with
  | some key => [sessionDrainWrite key (fun _ => true) fun _ => none]
  | none => []

/-- The table without an activity row. -/
def drainsWithout (activity : Option (DrainScope × DrainRecord))
    (t : DrainScope × DrainRecord → Option DrainRow) : DrainScope × DrainRecord → Option DrainRow :=
  match activity with
  | some key => Function.update t key none
  | none => t

theorem targets_drainDelete (activity : Option (DrainScope × DrainRecord)) :
    targets (sessionDrainActivityDelete activity) = activity.toList.map .sessionDrain := by
  cases activity <;> rfl

@[simp] theorem ready_drainDelete (activity : Option (DrainScope × DrainRecord)) (db : Db) :
    Ready (sessionDrainActivityDelete activity) db := by
  cases activity <;> simp [sessionDrainActivityDelete]

@[simp] theorem runAll_drainDelete (activity : Option (DrainScope × DrainRecord)) (db : Db) :
    runAll (sessionDrainActivityDelete activity) db =
      { db with sessionDrains := drainsWithout activity db.sessionDrains } := by
  cases activity <;> rfl

/-- No drain of the principal is under way. -/
def sessionDrainAdmissionCheck (repositoryId : String) (principalId : Option String) : List TransactItem :=
  match given principalId with
  | some p => [.check (.sessionDrain (.principal repositoryId p, .current)) fun db =>
      (db.sessionDrains (.principal repositoryId p, .current)).all fun r => r.status == some .released]
  | none => []

@[simp] theorem runAll_sessionDrainAdmissionCheck (repositoryId : String) (p : Option String) (db : Db) :
    runAll (sessionDrainAdmissionCheck repositoryId p) db = db := by
  unfold sessionDrainAdmissionCheck
  cases given p <;> rfl

/-- The drain that a cancellation is counted for. -/
structure DrainCancelScope where
  repositoryId : String
  principalId : String
  operationId : String
deriving DecidableEq

def sessionDrainCancellationUpdates (drain : Option DrainCancelScope) : List TransactItem :=
  match drain with
  | some d => [DrainRecord.current, .operation d.operationId].map fun record =>
      sessionDrainWrite (.principal d.repositoryId d.principalId, record)
        (fun row => row.any fun r => r.operationId == some d.operationId && r.status == some .draining)
        (fun row => row.map fun r => { r with cancelledCount := r.cancelledCount + 1 })
  | none => []

/-- Both records of the drain after they counted a cancellation. -/
def drainsCounted (drain : Option DrainCancelScope) (t : DrainScope × DrainRecord → Option DrainRow) :
    DrainScope × DrainRecord → Option DrainRow :=
  match drain with
  | some d => [DrainRecord.current, .operation d.operationId].foldl
      (fun t record =>
        let key := (DrainScope.principal d.repositoryId d.principalId, record)
        Function.update t key ((t key).map fun r => { r with cancelledCount := r.cancelledCount + 1 })) t
  | none => t

@[simp] theorem runAll_sessionDrainCancellationUpdates (drain : Option DrainCancelScope) (db : Db) :
    runAll (sessionDrainCancellationUpdates drain) db =
      { db with sessionDrains := drainsCounted drain db.sessionDrains } := by
  cases drain <;> rfl

/-! ## Admission checks of an assignment -/

/-- `attribute_exists(id) AND (attribute_not_exists(admissionState) OR admissionState = :active)`. -/
def repositoryAdmissionCheck (repositoryId : String) : TransactItem :=
  .check (.repository repositoryId) fun db =>
    (db.repositories repositoryId).any fun r => r.admissionState.all (· == .active)

/-- The inventory is the one the assigner planned with. -/
def hostInventoryCheck (hostId : String) (version : Option ℕ) : TransactItem :=
  .check (.hostInventory hostId) fun db =>
    match version with
    | none => (db.hostInventories hostId).isNone
    | some v => ((db.hostInventories hostId).bind (·.version)).getD 0 == v

/-- The operational-activity member an assignment records. -/
@[simps! target holds run]
def activeActivityPut (sessionId repositoryId : String) (queueShard : ℕ) (attemptId : String) : TransactItem :=
  sessionDrainWrite (.active queueShard, .activity sessionId) (fun _ => true) fun _ =>
    some { sessionId := some sessionId, repositoryId := some repositoryId, generation := some attemptId }

end AutoHarness.Store

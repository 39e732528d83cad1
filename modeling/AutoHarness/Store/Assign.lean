import AutoHarness.Store.Fragments

/-! The three writers that move a queued session to a host. Each claims the resource, the session row, one unit of the
host's counter and, for a gated route, one provider-account slot in one transaction. -/

namespace AutoHarness.Store
open Foundation Function Option HostLockRow

/-! ## The part the three writers share -/

/-- What the three assignments have in common. -/
structure AssignmentOpts where
  sessionId : String
  hostId : String
  connectionId : String
  now : Timestamp
  attemptId : String
  prompt : Option String := none
  resolvedRoute : ResolvedRoute
  providerAccountId : Option String := none
  providerId : Option String := none
  providerAccountLease : Option ProviderAccountLease := none
  hostAssignmentLease : Option HostAssignmentLease := none
  hostAssignmentCap : Option ℕ := none
  legacyAssignmentCount : Option ℕ := none
  primaryCommandStartState : Option CommandStartState := none
  sessionOutputsSupported : Option Bool := none
  queueShard : ℕ := 0

namespace AssignmentOpts

/-- `opts.hostAssignmentLease ?? { hostId: opts.hostId }`. -/
def lease (o : AssignmentOpts) : HostAssignmentLease := o.hostAssignmentLease.getD ⟨o.hostId⟩

/-- `#s = :queued AND queueExpiresAt > :now`, and the prompt the argv was encoded against. -/
def assignable (o : AssignmentOpts) (r : SessionRow) : Bool :=
  r.status == .queued && decide (o.now < r.queueExpiresAt) &&
    (given o.prompt).all (fun p => r.prompt == p)

/-- The row of the new attempt, before its target is entered. -/
def assigned (o : AssignmentOpts) (r : SessionRow) : SessionRow :=
  { r with
    status := .running
    hostId := .value o.hostId
    activeHostId := some o.hostId
    startedAt := some o.now
    assignmentSentAt := some o.now
    attemptId := some o.attemptId
    resolvedRoute := some o.resolvedRoute
    assignmentConnectionId := some o.connectionId
    primaryCommandStartState := some (o.primaryCommandStartState.getD .pending)
    sessionOutputsSupported := some (o.sessionOutputsSupported.getD false)
    providerAccountLease := o.providerAccountLease.or r.providerAccountLease
    hostAssignmentLease := some o.lease
    ackReceivedAt := none
    reconnectDeadlineAt := none
    errorCode := none
    errorMessage := none }

def acquireItem (o : AssignmentOpts) : TransactItem :=
  hostAssignmentAcquireItem o.lease o.connectionId o.hostAssignmentCap o.legacyAssignmentCount

/-- The account's last use, then the put of its slot. -/
def leaseItems (o : AssignmentOpts) : List TransactItem :=
  providerAccountLastAssignedItems o.providerAccountId o.providerId o.now o.providerAccountLease ++
    providerAccountLeasePutItems o.sessionId o.attemptId o.hostId o.providerAccountLease

theorem assignable_iff {o : AssignmentOpts} {r : SessionRow} : o.assignable r = true ↔
      r.status = .queued ∧ o.now < r.queueExpiresAt ∧ ∀ p, given o.prompt = some p → r.prompt = p := by
  unfold assignable
  cases given o.prompt <;> simp [and_assoc]

end AssignmentOpts

/-- A collision on the account slot is told apart: another slot may be free. -/
inductive AssignmentWriteResult where
  | assigned
  | lost
  | leaseCollision
deriving DecidableEq

/-- The put of the slot lock is the last item, and the only one that failed. -/
def assignmentLeaseCollision (leased : Bool) (reasons : List Bool) : Bool :=
  leased && reasons.getLast? == some false && reasons.count false == 1

def commitAssignment (leased : Bool) (items : List TransactItem) (db : Db) :
    Except StoreError AssignmentWriteResult × Db :=
  match transact items db with
  | .committed db' => (.ok .assigned, db')
  | .cancelled reasons =>
    (.ok (if assignmentLeaseCollision leased reasons then .leaseCollision else .lost), db)
  | .rejected => (.error .validationException, db)

/-! ## Worktrees -/

structure AssignSessionOpts extends AssignmentOpts where
  repositoryId : String
  worktreeId : String
  hostInventoryVersion : Option ℕ := none
  principalId : Option String := none
  sessionApiKeyHash : Option String := none
  resumeSpec : Option String := none

def WorktreeRow.claimed (sessionId connectionId : String) (now : Timestamp) (w : WorktreeRow) : WorktreeRow :=
  { w with
    status := .busy
    currentSessionId := .value sessionId
    lastAssignedAt := some now
    connectionId := some connectionId }

/-- The row on a worktree. -/
def AssignSessionOpts.claimed (o : AssignSessionOpts) (r : SessionRow) : SessionRow :=
  { o.assigned r with
    worktreeId := .value o.worktreeId
    sessionApiKeyHash := o.sessionApiKeyHash.or r.sessionApiKeyHash
    resumeSpec := r.resumeSpec.or o.resumeSpec }

/-- A prompt session on a worktree. -/
def tryAssignSessionItems (o : AssignSessionOpts) : List TransactItem :=
  [repositoryAdmissionCheck o.repositoryId] ++
  sessionDrainAdmissionCheck o.repositoryId o.principalId ++
  [hostInventoryCheck o.hostId o.hostInventoryVersion,
   worktreeWrite o.worktreeId (fun row => row.any fun w => w.status == .idle && w.online)
     (fun row => row.map (WorktreeRow.claimed o.sessionId o.connectionId o.now)),
   sessionWrite o.sessionId (fun row => row.any o.assignable) (fun row => row.map o.claimed),
   activeActivityPut o.sessionId o.repositoryId o.queueShard o.attemptId, o.acquireItem] ++
  o.leaseItems

def tryAssignSession (o : AssignSessionOpts) (db : Db) : Except StoreError AssignmentWriteResult × Db :=
  commitAssignment o.providerAccountLease.isSome (tryAssignSessionItems o) db

/-! ## Main checkouts -/

structure AssignMainCheckoutOpts extends AssignmentOpts where
  repositoryId : String
  hostInventoryVersion : Option ℕ := none
  principalId : Option String := none
  sessionApiKeyHash : Option String := none
  resumeSpec : Option String := none

/-- The row on a main checkout. -/
def AssignMainCheckoutOpts.claimed (o : AssignMainCheckoutOpts) (r : SessionRow) : SessionRow :=
  { o.assigned r with
    worktreeId := .null
    mainCheckoutLease := true
    sessionApiKeyHash := given o.sessionApiKeyHash
    resumeSpec := r.resumeSpec.or o.resumeSpec
    completedAt := none
    exitCode := .missing }

/-- The connection is of the host, runs scheduled sessions and serves the repository. -/
def mainCheckoutConnectionCheck (connectionId hostId repositoryId : String) : TransactItem :=
  .check (.connection connectionId) fun db =>
    (db.connections connectionId).any fun c =>
      c.hostId == hostId && c.capabilities.contains "scheduled-main-checkout" &&
        c.repositoryIds.contains repositoryId

/-- The lock row with the checkout leased and the assignment counted. -/
def AssignMainCheckoutOpts.claimedHost (o : AssignMainCheckoutOpts) (h : HostLockRow) : HostLockRow :=
  { h.acquired (o.legacyAssignmentCount.getD 0) with
    mainCheckoutLeases :=
      Function.update h.mainCheckoutLeases o.repositoryId (some ⟨o.sessionId, o.connectionId⟩)
    lastScheduledAssignedAt := some o.now }

/-- With `attribute_not_exists(mainCheckoutLeases.#repo)` and the cap. Unlike the other two writers, this one does not
look at `disconnected`. -/
def AssignMainCheckoutOpts.hostClaimable (o : AssignMainCheckoutOpts) (h : HostLockRow) : Bool :=
  h.connectionId == some o.connectionId && notTrue h.draining &&
    (h.mainCheckoutLeases o.repositoryId).isNone &&
    h.belowCap (o.legacyAssignmentCount.getD 0) o.hostAssignmentCap

/-- A scheduled session on the main checkout of its repository. -/
def tryAssignMainCheckoutSessionItems (o : AssignMainCheckoutOpts) : List TransactItem :=
  [hostInventoryCheck o.hostId o.hostInventoryVersion] ++
  sessionDrainAdmissionCheck o.repositoryId o.principalId ++
  [repositoryAdmissionCheck o.repositoryId, mainCheckoutConnectionCheck o.connectionId o.hostId o.repositoryId,
   hostLockWrite o.hostId (fun row => row.any o.hostClaimable) (fun row => row.map o.claimedHost),
   sessionWrite o.sessionId (fun row => row.any o.assignable) (fun row => row.map o.claimed),
   activeActivityPut o.sessionId o.repositoryId o.queueShard o.attemptId] ++
  o.leaseItems

def tryAssignMainCheckoutSession (o : AssignMainCheckoutOpts) (db : Db) :
    Except StoreError AssignmentWriteResult × Db :=
  commitAssignment o.providerAccountLease.isSome (tryAssignMainCheckoutSessionItems o) db

/-! ## Workspace slots -/

structure AssignWorkspaceOpts extends AssignmentOpts where
  workspacePoolId : String
  workspaceSlotId : String

/-- The row on a workspace slot. -/
def AssignWorkspaceOpts.claimed (o : AssignWorkspaceOpts) (r : SessionRow) : SessionRow :=
  { o.assigned r with
    workspacePoolId := some o.workspacePoolId
    workspaceSlotId := .value o.workspaceSlotId
    workspaceSlotLease := true
    worktreeId := .null }

def WorkspaceSlotRow.claimed (sessionId connectionId : String) (now : Timestamp) (w : WorkspaceSlotRow) :
    WorkspaceSlotRow :=
  { w with
    status := .busy
    currentSessionId := .value sessionId
    lastAssignedAt := some now
    connectionId := some connectionId }

def workspacePoolCheck (workspacePoolId : String) : TransactItem :=
  .check (.workspacePool workspacePoolId) fun db => db.workspacePools workspacePoolId

/-- A workspace session on a slot of its pool. -/
def tryAssignWorkspaceSessionItems (o : AssignWorkspaceOpts) : List TransactItem :=
  [workspacePoolCheck o.workspacePoolId, workspaceSlotWrite o.workspaceSlotId
     (fun row => row.any fun w => w.workspacePoolId == o.workspacePoolId && w.hostId == o.hostId &&
       w.status == .idle && w.online)
     (fun row => row.map (WorkspaceSlotRow.claimed o.sessionId o.connectionId o.now)),
   sessionWrite o.sessionId (fun row => row.any o.assignable) (fun row => row.map o.claimed),
   activeActivityPut o.sessionId "" o.queueShard o.attemptId, o.acquireItem] ++
  o.leaseItems

def tryAssignWorkspaceSession (o : AssignWorkspaceOpts) (db : Db) :
    Except StoreError AssignmentWriteResult × Db :=
  commitAssignment o.providerAccountLease.isSome (tryAssignWorkspaceSessionItems o) db

/-! ## What a committed assignment did -/

/-- Facts about the session row and the slot lock that every committed assignment checked. -/
structure AssignmentChecked (o : AssignmentOpts) (db : Db) (r : SessionRow) : Prop where
  row : db.sessions o.sessionId = some r
  queued : r.status = .queued
  slotFree : ∀ l, o.providerAccountLease = some l → db.concurrencyLocks l.concurrencyId = none
  account : Ready (providerAccountLastAssignedItems o.providerAccountId o.providerId o.now
    o.providerAccountLease) db

/-- The counter condition of an acquire: the connection still owns the row and the count stays
within the cap. -/
structure HostAcquirable (connectionId : String) (cap legacy : Option ℕ) (h : HostLockRow) : Prop where
  connection : h.connectionId = some connectionId
  belowCap : ∀ c, cap = some c → h.assignmentCount.getD (legacy.getD 0 : ℕ) < c

theorem belowCap_iff {legacy : ℕ} {cap : Option ℕ} {h : HostLockRow} :
    h.belowCap legacy cap = true ↔ ∀ c, cap = some c → h.assignmentCount.getD legacy < c := by
  cases cap <;> simp [belowCap]

variable {db : Db}

open AssignmentOpts (leaseItems acquireItem)

theorem assignmentChecked_of_ready {o : AssignmentOpts} {r : SessionRow}
    (hr : db.sessions o.sessionId = some r) (ha : o.assignable r = true) (hl : Ready o.leaseItems db) :
    AssignmentChecked o db r := by
  rw [leaseItems, ready_append, ready_accountPutItems] at hl
  exact ⟨hr, (AssignmentOpts.assignable_iff.mp ha).1, hl.2, hl.1⟩

/-- The table with the row of an active session. -/
def drainsActive (sessionId repositoryId : String) (queueShard : ℕ) (attemptId : String)
    (t : DrainScope × DrainRecord → Option DrainRow) : DrainScope × DrainRecord → Option DrainRow :=
  Function.update t (.active queueShard, .activity sessionId)
    (some { sessionId := some sessionId, repositoryId := some repositoryId, generation := some attemptId })

variable {db' : Db}

theorem assignSession_committed {o : AssignSessionOpts}
    (h : transact (tryAssignSessionItems o) db = .committed db') : ∃ r w hl, AssignmentChecked o.toAssignmentOpts db r ∧
      db.worktrees o.worktreeId = some w ∧ w.status = .idle ∧ db.hostLocks o.lease.hostId = some hl ∧
      HostAcquirable o.connectionId o.hostAssignmentCap o.legacyAssignmentCount hl ∧
      db' = { db with
        sessions := update db.sessions o.sessionId (some (o.claimed r))
        worktrees := update db.worktrees o.worktreeId
          (some (w.claimed o.sessionId o.connectionId o.now))
        hostLocks := update db.hostLocks o.lease.hostId
          (some (hl.acquired (o.legacyAssignmentCount.getD 0)))
        concurrencyLocks :=
          locksTaken o.sessionId o.attemptId o.hostId o.providerAccountLease db.concurrencyLocks
        providerAccounts := accountsAssigned o.providerAccountId o.now db.providerAccounts
        sessionDrains := drainsActive o.sessionId o.repositoryId o.queueShard o.attemptId db.sessionDrains } := by
  obtain ⟨-, hr, rfl⟩ := committed_iff.mp h
  simp only [tryAssignSessionItems, ready_append, ready_cons, ready_nil, and_true, worktreeWrite_holds,
    sessionWrite_holds, acquireItem, hostAssignmentAcquireItem, hostLockWrite_holds, any_eq_true] at hr
  obtain ⟨⟨⟨-, -⟩, -, ⟨w, hw, hidle⟩, ⟨r, hrow, ha⟩, -, hl, hhost, hacq⟩, hlease⟩ := hr
  simp only [Bool.and_eq_true, beq_iff_eq] at hidle hacq
  refine ⟨r, w, hl, assignmentChecked_of_ready hrow ha hlease, hw, hidle.1, hhost,
    ⟨hacq.1.1.1, belowCap_iff.mp hacq.2⟩, ?_⟩
  simp [tryAssignSessionItems, leaseItems, acquireItem,
    hostAssignmentAcquireItem, repositoryAdmissionCheck, hostInventoryCheck, hw, hrow, hhost, drainsActive]

theorem assignCheckout_committed {o : AssignMainCheckoutOpts}
    (h : transact (tryAssignMainCheckoutSessionItems o) db = .committed db') :
    ∃ r hl, AssignmentChecked o.toAssignmentOpts db r ∧
      db.hostLocks o.hostId = some hl ∧ hl.mainCheckoutLeases o.repositoryId = none ∧
      HostAcquirable o.connectionId o.hostAssignmentCap o.legacyAssignmentCount hl ∧
      db' = { db with
        sessions := update db.sessions o.sessionId (some (o.claimed r))
        hostLocks := update db.hostLocks o.hostId (some (o.claimedHost hl))
        concurrencyLocks :=
          locksTaken o.sessionId o.attemptId o.hostId o.providerAccountLease db.concurrencyLocks
        providerAccounts := accountsAssigned o.providerAccountId o.now db.providerAccounts
        sessionDrains := drainsActive o.sessionId o.repositoryId o.queueShard o.attemptId db.sessionDrains } := by
  obtain ⟨-, hr, rfl⟩ := committed_iff.mp h
  simp only [tryAssignMainCheckoutSessionItems, ready_append, ready_cons, ready_nil, and_true,
    sessionWrite_holds, hostLockWrite_holds, any_eq_true] at hr
  obtain ⟨⟨⟨-, -⟩, -, -, ⟨hl, hhost, hacq⟩, ⟨r, hrow, ha⟩, -⟩, hlease⟩ := hr
  simp only [AssignMainCheckoutOpts.hostClaimable, Bool.and_eq_true, beq_iff_eq, isNone_iff_eq_none] at hacq
  refine ⟨r, hl, assignmentChecked_of_ready hrow ha hlease, hhost, hacq.1.2, ⟨hacq.1.1.1, belowCap_iff.mp hacq.2⟩, ?_⟩
  simp [tryAssignMainCheckoutSessionItems, leaseItems, repositoryAdmissionCheck,
    hostInventoryCheck, mainCheckoutConnectionCheck, hrow, hhost, drainsActive]

theorem assignWorkspace_committed {o : AssignWorkspaceOpts}
    (h : transact (tryAssignWorkspaceSessionItems o) db = .committed db') :
    ∃ r w hl, AssignmentChecked o.toAssignmentOpts db r ∧
      db.workspaceSlots o.workspaceSlotId = some w ∧ w.status = .idle ∧ db.hostLocks o.lease.hostId = some hl ∧
      HostAcquirable o.connectionId o.hostAssignmentCap o.legacyAssignmentCount hl ∧
      db' = { db with
        sessions := update db.sessions o.sessionId (some (o.claimed r))
        workspaceSlots := update db.workspaceSlots o.workspaceSlotId
          (some (w.claimed o.sessionId o.connectionId o.now))
        hostLocks := update db.hostLocks o.lease.hostId
          (some (hl.acquired (o.legacyAssignmentCount.getD 0)))
        concurrencyLocks :=
          locksTaken o.sessionId o.attemptId o.hostId o.providerAccountLease db.concurrencyLocks
        providerAccounts := accountsAssigned o.providerAccountId o.now db.providerAccounts
        sessionDrains := drainsActive o.sessionId "" o.queueShard o.attemptId db.sessionDrains } := by
  obtain ⟨-, hr, rfl⟩ := committed_iff.mp h
  simp only [tryAssignWorkspaceSessionItems, ready_append, ready_cons, ready_nil, and_true,
    workspaceSlotWrite_holds, sessionWrite_holds, acquireItem, hostAssignmentAcquireItem,
    hostLockWrite_holds, any_eq_true] at hr
  obtain ⟨⟨-, ⟨w, hw, hidle⟩, ⟨r, hrow, ha⟩, -, hl, hhost, hacq⟩, hlease⟩ := hr
  simp only [Bool.and_eq_true, beq_iff_eq] at hidle hacq
  refine ⟨r, w, hl, assignmentChecked_of_ready hrow ha hlease, hw, hidle.1.2, hhost,
    ⟨hacq.1.1.1, belowCap_iff.mp hacq.2⟩, ?_⟩
  simp [tryAssignWorkspaceSessionItems, leaseItems, acquireItem,
    hostAssignmentAcquireItem, workspacePoolCheck, hw, hrow, hhost, drainsActive]

end AutoHarness.Store

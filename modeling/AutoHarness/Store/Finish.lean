import AutoHarness.Store.Fragments

/-! The terminal writer `finishSession` and the two writers that dispose of a handoff. `finishSession` also frees
worktree or slot unless a handoff retains it, deletes the concurrency lock and the provider lock, and decrements the
host's counter. A lost transaction is answered from the status alone. -/

namespace AutoHarness.Store
open Foundation List HostLockRow

/-- What the callers of `finishSession` pass. -/
structure FinishSessionOpts where
  sessionId : String
  worktreeId : Option String := none
  workspaceSlotId : Attr String := .missing
  workspaceSlotError : Option String := none
  attemptId : String
  status : SessionStatus
  queueShard : ℕ := 0
  completedAt : Option Timestamp := none
  errorCode : Option String := none
  errorMessage : Option String := none
  exitCode : Attr ℤ := .missing
  cliResumeRef : Option String := none
  result : Option SessionResult := none
  fence : Option Fence := none
  expectedReconnectDeadlineAt : Option Timestamp := none
  expectedConnectionId : Option String := none
  concurrencyId : Option String := none
  providerAccountLease : Option ProviderAccountLease := none
  hostAssignmentLease : Option HostAssignmentLease := none
  preserveProviderAccountLease : Bool := false
  preserveHostAssignmentLease : Bool := false
  preserveWorkspaceSlotLease : Bool := false
  preserveReconnectDeadlineAt : Bool := false
  infrastructureErrorCode : Option InfrastructureErrorCode := none
  timedOutHostId : Option String := none
  timedOutAssignmentConnectionId : Option String := none
  terminalHookHandoff : Option TerminalHookHandoff := none
  expectedTerminalHookHandoffAbsent : Bool := false
  expectedStatus : Option SessionStatus := none

namespace FinishSessionOpts

def condition (o : FinishSessionOpts) (r : SessionRow) : Bool :=
  r.status == o.expectedStatus.getD .running &&
  r.worktreeId == .ofOption o.worktreeId &&
  (o.workspaceSlotId == .missing || r.workspaceSlotId == o.workspaceSlotId) &&
  r.attemptId == some o.attemptId &&
  (!o.expectedTerminalHookHandoffAbsent || r.terminalHookHandoff.isNone) &&
  o.expectedReconnectDeadlineAt.all (fun d => r.reconnectDeadlineAt == some d) &&
  (given o.expectedConnectionId).all (fun k => r.assignmentConnectionId.all (· == k)) &&
  (o.infrastructureErrorCode.isNone ||
    (r.infrastructureRetryCount.all (· < 1) && r.primaryCommandStartState == some .pending))

/-- The row after the attempt, in the queue again when that is its status. -/
def finished (o : FinishSessionOpts) (r : SessionRow) : SessionRow :=
  { r with
    status := o.status
    worktreeId := .null
    workspaceSlotId := if o.preserveWorkspaceSlotLease then r.workspaceSlotId else .null
    hostId := if o.status = .queued then .null else r.hostId
    infrastructureRetryCount :=
      if o.infrastructureErrorCode.isSome then some (r.infrastructureRetryCount.getD 0 + 1)
      else r.infrastructureRetryCount
    lastInfrastructureErrorCode := o.infrastructureErrorCode.or r.lastInfrastructureErrorCode
    infrastructureRetryAttemptId :=
      if o.infrastructureErrorCode.isSome then some o.attemptId else r.infrastructureRetryAttemptId
    completedAt := o.completedAt.or r.completedAt
    errorCode := o.errorCode.or r.errorCode
    errorMessage := o.errorMessage.or r.errorMessage
    exitCode := if o.exitCode = .missing then r.exitCode else o.exitCode
    cliResumeRef := o.cliResumeRef.or r.cliResumeRef
    result := r.result.or o.result
    timedOutHostId := o.timedOutHostId.or r.timedOutHostId
    timedOutAssignmentConnectionId :=
      o.timedOutAssignmentConnectionId.or r.timedOutAssignmentConnectionId
    terminalHookHandoff := o.terminalHookHandoff.or r.terminalHookHandoff
    terminalHookHandoffSettled :=
      if o.terminalHookHandoff.isSome then none else r.terminalHookHandoffSettled
    terminalHookLifecycleEnqueuedAt :=
      if o.terminalHookHandoff.isSome then none else r.terminalHookLifecycleEnqueuedAt
    reconnectDeadlineAt := if o.preserveReconnectDeadlineAt then r.reconnectDeadlineAt else none
    assignmentConnectionId := none
    activeHostId :=
      if o.preserveHostAssignmentLease || o.terminalHookHandoff.isSome then r.activeHostId else none
    hostAssignmentLease := if o.preserveHostAssignmentLease then r.hostAssignmentLease else none
    providerAccountLease := if o.preserveProviderAccountLease then r.providerAccountLease else none
    workspaceSlotLease := if o.preserveWorkspaceSlotLease then r.workspaceSlotLease else false
    primaryCommandStartState :=
      if o.infrastructureErrorCode.isSome then none else r.primaryCommandStartState
    sessionApiKeyHash := none }

/-- A worktree that a handoff reserves stays busy. -/
def freedWorktree (o : FinishSessionOpts) : Option String :=
  (given o.worktreeId).filter fun w => o.terminalHookHandoff.bind (·.worktreeId) ≠ some w

/-- None while the slot's lease is preserved. -/
def freedSlot (o : FinishSessionOpts) : Option String :=
  if o.preserveWorkspaceSlotLease then none else given o.workspaceSlotId.toOption

def deletedLock (o : FinishSessionOpts) : Option String :=
  if o.status = .queued then none else o.concurrencyId

def deletedLease (o : FinishSessionOpts) : Option ProviderAccountLease :=
  if o.preserveProviderAccountLease then none else o.providerAccountLease

end FinishSessionOpts

/-- The activity row to delete, read before the transaction. -/
def finishSessionCleanup (o : FinishSessionOpts) (before : Db) : Option (DrainScope × DrainRecord) :=
  if o.status = .queued then none
  else (before.sessions o.sessionId).bind fun r =>
    if (given r.cancelledByDrainOperationId).isSome then none
    else sessionDrainActivityForSession o.sessionId r

def finishSessionItems (o : FinishSessionOpts) (cleanup : Option (DrainScope × DrainRecord)) :
    List TransactItem :=
  fenceChecks o.fence o.hostAssignmentLease ++
  [sessionWrite o.sessionId (fun row => row.any o.condition) (fun row => row.map o.finished)] ++
  worktreeReleaseItems o.freedWorktree o.sessionId (fun _ => true) id ++
  workspaceSlotReleaseItems o.freedSlot o.sessionId o.workspaceSlotError ++
  concurrencyLockStrictDeleteItems o.sessionId o.deletedLock ++
  providerAccountLeaseDeleteItems o.sessionId o.deletedLease ++
  hostAssignmentReleaseItems o.hostAssignmentLease ++
  sessionDrainActivityDelete cleanup

/-- Winner of the transaction, a conflict whose session already has the status, or a lost claim. -/
inductive DurableWriteResult where
  | committed
  | duplicate
  | lost
deriving DecidableEq

/-- A duplicate when the row read after it has the wanted status (an eventually consistent read); the activity member
is then removed on its own. -/
def finishSessionConflict (o : FinishSessionOpts) (cleanup : Option (DrainScope × DrainRecord))
    (reread : Option SessionRow) (db : Db) : DurableWriteResult × Db :=
  if reread.map (·.status) = some o.status then
    (.duplicate, runAll (sessionDrainActivityDelete cleanup) db)
  else (.lost, db)

/-- The activity member was read in `before`. -/
def finishSession (o : FinishSessionOpts) (before : Db) (reread : Option SessionRow) (db : Db) :
    Except StoreError DurableWriteResult × Db :=
  let cleanup := finishSessionCleanup o before
  match transact (finishSessionItems o cleanup) db with
  | .committed db' => (.ok .committed, db')
  | .cancelled _ =>
    let conflict := finishSessionConflict o cleanup reread db
    (.ok conflict.1, conflict.2)
  | .rejected => (.error .validationException, db)

/-! ## Shape, conditions and effect of the terminal transaction -/

variable {o : FinishSessionOpts}

theorem FinishSessionOpts.condition_iff {r : SessionRow} : o.condition r = true ↔
      r.status = o.expectedStatus.getD .running ∧ r.worktreeId = .ofOption o.worktreeId ∧
      (o.workspaceSlotId = .missing ∨ r.workspaceSlotId = o.workspaceSlotId) ∧ r.attemptId = some o.attemptId ∧
      (o.expectedTerminalHookHandoffAbsent = true → r.terminalHookHandoff = none) ∧
      (∀ d, o.expectedReconnectDeadlineAt = some d → r.reconnectDeadlineAt = some d) ∧
      (∀ k, given o.expectedConnectionId = some k → ∀ x, r.assignmentConnectionId = some x → x = k) ∧
      (o.infrastructureErrorCode ≠ none →
        (∀ n, r.infrastructureRetryCount = some n → n < 1) ∧ r.primaryCommandStartState = some .pending) := by
  simp only [FinishSessionOpts.condition, Bool.and_eq_true, Bool.or_eq_true, beq_iff_eq,
    Bool.not_eq_true', Option.all_eq_true, Option.isNone_iff_eq_none, decide_eq_true_eq, and_assoc]
  rw [← Bool.not_eq_true, ← imp_iff_not_or, or_iff_not_imp_left (a := o.infrastructureErrorCode = none)]

/-- Everything a terminal transaction requires of the store besides its connection fence. -/
structure FinishReady (o : FinishSessionOpts) (db : Db) : Prop where
  session : ∃ r, db.sessions o.sessionId = some r ∧ o.condition r = true
  worktree : ∀ w, o.freedWorktree = some w →
    ∃ r, db.worktrees w = some r ∧ r.currentSessionId = .value o.sessionId
  slot : ∀ w, o.freedSlot = some w →
    ∃ r, db.workspaceSlots w = some r ∧ r.currentSessionId = .value o.sessionId
  lock : ∀ c, given o.deletedLock = some c →
    ∃ r, db.concurrencyLocks c = some r ∧ r.sessionId = some o.sessionId
  lease : ∀ l, o.deletedLease = some l → ∀ r, db.concurrencyLocks l.concurrencyId = some r →
    r.ownedBy o.sessionId l.attemptId = true
  counter : ∀ l, o.hostAssignmentLease = some l → ∀ n, assignmentCount db.hostLocks l.hostId = some n → 1 ≤ n

/-- The fence of a call that replaces it by the counter update when a lease is present. -/
def FenceHolds (fence : Option Fence) (lease : Option HostAssignmentLease) (db : Db) : Prop :=
  lease = none → ∀ f, fence = some f → namesConnection f.connectionId (db.hostLocks f.hostId) = true

variable {cleanup : Option (DrainScope × DrainRecord)} {db : Db}

theorem ready_finishSession : Ready (finishSessionItems o cleanup) db ↔
      FenceHolds o.fence o.hostAssignmentLease db ∧ FinishReady o db := by
  simp only [finishSessionItems, ready_append, ready_cons, ready_nil, and_true, ready_fenceChecks,
    ready_worktreeRelease, ready_slotRelease, ready_strictDelete, ready_accountDelete, ready_hostRelease,
    ready_drainDelete, sessionWrite_holds, Option.any_eq_true, FenceHolds]
  constructor
  · rintro ⟨⟨⟨⟨⟨⟨hf, hs⟩, hw⟩, hsl⟩, hl⟩, hp⟩, hc⟩
    exact ⟨hf, hs, hw, hsl, hl, hp, hc⟩
  · rintro ⟨hf, hs, hw, hsl, hl, hp, hc⟩
    exact ⟨⟨⟨⟨⟨⟨hf, hs⟩, hw⟩, hsl⟩, hl⟩, hp⟩, hc⟩

/-- The store after a terminal transaction on row `r`. -/
def FinishSessionOpts.after (o : FinishSessionOpts) (cleanup : Option (DrainScope × DrainRecord))
    (r : SessionRow) (db : Db) : Db :=
  { db with
    sessions := Function.update db.sessions o.sessionId (some (o.finished r))
    worktrees := worktreesReleased o.freedWorktree id db.worktrees
    workspaceSlots := slotsReleased o.freedSlot o.workspaceSlotError db.workspaceSlots
    concurrencyLocks :=
      locksReleased (leaseKey o.deletedLease) (locksReleased (given o.deletedLock) db.concurrencyLocks)
    hostLocks := hostLocksReleased o.hostAssignmentLease db.hostLocks
    sessionDrains := drainsWithout cleanup db.sessionDrains }

variable {db' : Db}

theorem finishSession_committed (h : transact (finishSessionItems o cleanup) db = .committed db') :
    ∃ r, db.sessions o.sessionId = some r ∧ o.condition r = true ∧
      FenceHolds o.fence o.hostAssignmentLease db ∧ FinishReady o db ∧ db' = o.after cleanup r db := by
  obtain ⟨-, hr, rfl⟩ := committed_iff.mp h
  obtain ⟨hf, hready⟩ := ready_finishSession.mp hr
  obtain ⟨r, hrow, hc⟩ := hready.session
  refine ⟨r, hrow, hc, hf, hready, ?_⟩
  simp [finishSessionItems, FinishSessionOpts.after, hrow]

/-- An item is named twice exactly when the concurrency lock and the provider lock have one key. -/
theorem finishSession_nodup : (targets (finishSessionItems o cleanup)).Nodup ↔
      ∀ c, given o.deletedLock = some c → leaseKey o.deletedLease ≠ some c := by
  simp only [finishSessionItems, targets_append, targets_cons, targets_nil, sessionWrite_target,
    targets_fenceChecks, targets_worktreeRelease, targets_slotRelease, targets_strictDelete, targets_accountDelete,
    targets_hostRelease, targets_drainDelete, nodup_append,
    nodup_toList_map, mem_append, mem_map, Option.mem_toList, mem_singleton]
  simp only [nodup_cons, not_mem_nil, not_false_eq_true, nodup_nil, true_and, or_imp,
    forall_and, forall_exists_index, and_imp, forall_apply_eq_imp_iff₂, forall_eq, ne_eq, reduceCtorEq,
    Target.hostLock.injEq, Target.concurrencyLock.injEq, implies_true, and_true]
  exact distinct_locks_iff

/-! ## Handoff disposal -/

structure SettleTerminalHookHandoffOpts where
  sessionId : String
  handoffId : String
  hostId : String
  connectionId : String
  result : Option SessionResult := none
  worktreeId : Option String := none
  mainCheckoutRepositoryId : Option String := none

def HostLockRow.withoutMainCheckout (repositoryId : String) (h : HostLockRow) : HostLockRow :=
  { h with mainCheckoutLeases := Function.update h.mainCheckoutLeases repositoryId none }

/-- `mainCheckoutLeases.#repo.sessionId = :sessionId`. -/
def HostLockRow.mainCheckoutHeldBy (repositoryId sessionId : String) (h : HostLockRow) : Bool :=
  (h.mainCheckoutLeases repositoryId).any fun l => l.sessionId == sessionId

/-- The host-lock item of a settlement: the connection, and the main-checkout lease if one is
reserved. -/
def terminalHandoffHostLockItem (sessionId hostId : String) (connectionId mainCheckoutRepositoryId : Option String) :
    TransactItem :=
  match given mainCheckoutRepositoryId with
  | none => .check (.hostLock hostId) fun db =>
      (db.hostLocks hostId).any fun h => connectionId.isSome && h.connectionId == connectionId
  | some repo => hostLockWrite hostId
      (fun row => row.any fun h =>
        connectionId.all (fun k => h.connectionId == some k) && h.mainCheckoutHeldBy repo sessionId)
      (fun row => row.map (HostLockRow.withoutMainCheckout repo))

/-- The row after its handoff; with `mainCheckout` the lease and the assignment go too. -/
def SessionRow.withoutHandoff (mainCheckout : Bool) (r : SessionRow) : SessionRow :=
  { r with
    terminalHookHandoff := none
    activeHostId := none
    mainCheckoutLease := if mainCheckout then false else r.mainCheckoutLease
    assignmentConnectionId := if mainCheckout then none else r.assignmentConnectionId
    assignmentSentAt := if mainCheckout then none else r.assignmentSentAt
    reconnectDeadlineAt := if mainCheckout then none else r.reconnectDeadlineAt
    ackReceivedAt := if mainCheckout then none else r.ackReceivedAt }

/-- The host reports that its hook ran. -/
def settleTerminalHookHandoffItems (o : SettleTerminalHookHandoffOpts) : List TransactItem :=
  [terminalHandoffHostLockItem o.sessionId o.hostId (some o.connectionId) o.mainCheckoutRepositoryId,
   sessionWrite o.sessionId
     (fun row => row.any fun r => r.terminalHookHandoff.any fun h =>
       h.handoffId == o.handoffId && h.hostId == o.hostId)
     (fun row => row.map fun r =>
       { r.withoutHandoff (given o.mainCheckoutRepositoryId).isSome with
         terminalHookHandoffSettled := some ⟨o.handoffId, o.hostId⟩
         result := r.result.or o.result })] ++
  worktreeReleaseItems (given o.worktreeId) o.sessionId (fun _ => true)
    (fun w => { w with online := true, connectionId := some o.connectionId })

/-- A lost transaction is a success when the settled marker already names this handoff. -/
def settleTerminalHookHandoff (o : SettleTerminalHookHandoffOpts) (db : Db) : Except StoreError Bool × Db :=
  match transact (settleTerminalHookHandoffItems o) db with
  | .committed db' => (.ok true, db')
  | .cancelled _ =>
    (.ok ((db.sessions o.sessionId).any fun r =>
      r.terminalHookHandoffSettled == some ⟨o.handoffId, o.hostId⟩), db)
  | .rejected => (.error .validationException, db)

structure ExpireTerminalHookHandoffOpts where
  sessionId : String
  handoffId : String
  expiresAt : Timestamp
  worktreeId : Option String := none
  hostId : Option String := none
  connectionId : Option String := none
  mainCheckoutRepositoryId : Option String := none

/-- None without a host, and none when neither a connection nor a main checkout is named. -/
def expiredTerminalHandoffHostLockItems (o : ExpireTerminalHookHandoffOpts) : List TransactItem :=
  match o.hostId with
  | none => []
  | some h =>
    if (given o.mainCheckoutRepositoryId).isNone && o.connectionId.isNone then []
    else [terminalHandoffHostLockItem o.sessionId h o.connectionId o.mainCheckoutRepositoryId]

/-- The handoff that was read, by its id and expiry, ends without a report. -/
def expireTerminalHookHandoffItems (o : ExpireTerminalHookHandoffOpts) : List TransactItem :=
  expiredTerminalHandoffHostLockItems o ++
  [sessionWrite o.sessionId
     (fun row => row.any fun r => r.terminalHookHandoff.any fun h =>
       h.handoffId == o.handoffId && h.expiresAt == o.expiresAt)
     (fun row => row.map fun r =>
       { r.withoutHandoff (given o.mainCheckoutRepositoryId).isSome with
         terminalHookHandoffExpiredAt := some o.expiresAt })] ++
  worktreeReleaseItems (given o.worktreeId) o.sessionId (fun _ => true)
    (fun w => match o.connectionId with
      | some k => { w with online := true, connectionId := some k }
      | none => w)

def expireTerminalHookHandoff (o : ExpireTerminalHookHandoffOpts) (db : Db) : Except StoreError Bool × Db :=
  commitOrFalse (expireTerminalHookHandoffItems o) db

/-! ## Effect of a disposal -/

/-- The lock rows without the checkout. -/
def hostLocksSettled (hostId : String) (mainCheckoutRepositoryId : Option String)
    (t : String → Option HostLockRow) : String → Option HostLockRow :=
  match given mainCheckoutRepositoryId with
  | some repo => Function.update t hostId ((t hostId).map (HostLockRow.withoutMainCheckout repo))
  | none => t

theorem run_handoffHostItem (s h : String) (k repo : Option String) (db : Db) :
    (terminalHandoffHostLockItem s h k repo).run db =
      { db with hostLocks := hostLocksSettled h repo db.hostLocks } := by
  unfold terminalHandoffHostLockItem hostLocksSettled
  cases given repo <;> rfl

theorem hostLocksSettled_spec {h : String} {repo : Option String} {t : String → Option HostLockRow} (x : String) :
    assignmentCount (hostLocksSettled h repo t) x = assignmentCount t x ∧
      (hostLocksSettled h repo t x).bind connectionId = (t x).bind connectionId := by
  unfold hostLocksSettled
  cases given repo with
  | none => exact ⟨rfl, rfl⟩
  | some r =>
    by_cases hx : x = h
    · subst hx
      cases hr : t x <;> simp [assignmentCount, hr, HostLockRow.withoutMainCheckout]
    · simp [assignmentCount, hx]

theorem checkouts_withoutMainCheckout (t : String → Option HostLockRow) (h repo h' repo' : String) :
    ((Function.update t h ((t h).map (withoutMainCheckout repo)) h').bind fun x => x.mainCheckoutLeases repo') =
      if some (h, repo) = some (h', repo') then none else (t h').bind fun x => x.mainCheckoutLeases repo' := by
  by_cases hh : h' = h
  · subst hh
    by_cases hr : repo' = repo
    · subst hr
      cases t h' <;> simp [withoutMainCheckout]
    · cases ht : t h' <;> simp [withoutMainCheckout, hr, Ne.symm hr]
  · simp [hh, Ne.symm hh]

theorem settleHandoff_committed {o : SettleTerminalHookHandoffOpts}
    (h : transact (settleTerminalHookHandoffItems o) db = .committed db') :
    ∃ r hand, db.sessions o.sessionId = some r ∧ r.terminalHookHandoff = some hand ∧ hand.handoffId = o.handoffId ∧
      (∀ w, given o.worktreeId = some w → ∃ x, db.worktrees w = some x ∧ x.currentSessionId = .value o.sessionId) ∧
      db' = { db with
        sessions := Function.update db.sessions o.sessionId
          (some { r.withoutHandoff (given o.mainCheckoutRepositoryId).isSome with
            terminalHookHandoffSettled := some ⟨o.handoffId, o.hostId⟩
            result := r.result.or o.result })
        worktrees := worktreesReleased (given o.worktreeId)
          (fun w => { w with online := true, connectionId := some o.connectionId }) db.worktrees
        hostLocks := hostLocksSettled o.hostId o.mainCheckoutRepositoryId db.hostLocks } := by
  obtain ⟨-, hr, rfl⟩ := committed_iff.mp h
  simp only [settleTerminalHookHandoffItems, ready_append, ready_cons, ready_nil, and_true,
    sessionWrite_holds, Option.any_eq_true, Bool.and_eq_true, beq_iff_eq, ready_worktreeRelease] at hr
  obtain ⟨⟨-, r, hrow, hand, hhand, hid, -⟩, hw⟩ := hr
  refine ⟨r, hand, hrow, hhand, hid, hw, ?_⟩
  simp [settleTerminalHookHandoffItems, run_handoffHostItem, hrow]

theorem expireHandoff_committed {o : ExpireTerminalHookHandoffOpts}
    (h : transact (expireTerminalHookHandoffItems o) db = .committed db') :
    ∃ r hand, db.sessions o.sessionId = some r ∧ r.terminalHookHandoff = some hand ∧ hand.handoffId = o.handoffId ∧
      (∀ w, given o.worktreeId = some w → ∃ x, db.worktrees w = some x ∧ x.currentSessionId = .value o.sessionId) ∧
      ∃ locks, db' = { db with
        sessions := Function.update db.sessions o.sessionId
          (some { r.withoutHandoff (given o.mainCheckoutRepositoryId).isSome with
            terminalHookHandoffExpiredAt := some o.expiresAt })
        worktrees := worktreesReleased (given o.worktreeId)
          (fun w => match o.connectionId with
            | some k => { w with online := true, connectionId := some k }
            | none => w) db.worktrees
        hostLocks := locks } ∧
      (locks = db.hostLocks ∨ ∃ h, locks = hostLocksSettled h o.mainCheckoutRepositoryId db.hostLocks) := by
  obtain ⟨-, hr, rfl⟩ := committed_iff.mp h
  simp only [expireTerminalHookHandoffItems, ready_append, ready_cons, ready_nil, and_true,
    sessionWrite_holds, Option.any_eq_true, Bool.and_eq_true, beq_iff_eq, ready_worktreeRelease] at hr
  obtain ⟨⟨-, r, hrow, hand, hhand, hid, -⟩, hw⟩ := hr
  have hhost : ∃ locks, runAll (expiredTerminalHandoffHostLockItems o) db = { db with hostLocks := locks } ∧
      (locks = db.hostLocks ∨ ∃ h, locks = hostLocksSettled h o.mainCheckoutRepositoryId db.hostLocks) := by
    unfold expiredTerminalHandoffHostLockItems
    cases o.hostId with
    | none => exact ⟨db.hostLocks, rfl, .inl rfl⟩
    | some x =>
      dsimp only
      split
      · exact ⟨db.hostLocks, rfl, .inl rfl⟩
      · exact ⟨_, by rw [runAll_cons, run_handoffHostItem]; rfl, .inr ⟨x, rfl⟩⟩
  obtain ⟨locks, hlocks, hcases⟩ := hhost
  refine ⟨r, hand, hrow, hhand, hid, hw, locks, ?_, hcases⟩
  simp [expireTerminalHookHandoffItems, hlocks, hrow]

end AutoHarness.Store

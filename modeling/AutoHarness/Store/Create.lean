import AutoHarness.Store.Assign

/-! Admission of a session. With a concurrency id, row and lock are committed together, and a call that loses reads
the lock and its holder, answers with an active holder or deletes the lock of another, and tries again. `CreatePc` is
where a call stands between two requests. -/

namespace AutoHarness.Store
open Foundation

def MAX_CREATE_SESSION_ATTEMPTS : ℕ := 3
def MAX_SESSION_DESCENDANTS : ℕ := 64

/-- Something of the catalog that may be under deletion. -/
structure DeletionMarker where
  key : String
  now : Timestamp

/-- The session that spawns this one, and the root of its tree. -/
structure ParentFence where
  id : String
  rootSessionId : Option String := none
  sessionApiKeyHash : Option String := none

/-- The integration as the inbound request found it. -/
structure IntegrationSessionFence where
  storageId : String
  type : String
  version : ℕ
  enabled : Bool
  generation : String

/-- What a caller passes to `createSession`. -/
structure CreateOpts where
  sessionId : String
  session : SessionRow
  markers : List DeletionMarker := []
  parentFence : Option ParentFence := none
  integrationFence : Option IntegrationSessionFence := none

/-! ## Items -/

/-- No deletion is marked, or its mark has expired. -/
def markerCheck (m : DeletionMarker) : TransactItem :=
  .check (.concurrencyLock ("catalog-delete:" ++ m.key)) fun db =>
    (db.concurrencyLocks ("catalog-delete:" ++ m.key)).all fun r => r.expiresAt.any (fun e => decide (e ≤ m.now))

/-- The system and administrators have no user row. -/
def principalExistsCheck (principalId : Option String) : List TransactItem :=
  match given principalId with
  | some p =>
    if p = "system" || "admin:".toList.isPrefixOf p.toList then []
    else [.check (.user p) fun db => db.users p]
  | none => []

/-- The repository admits sessions, or the pool exists. -/
def resourceCheck (r : SessionRow) : TransactItem :=
  if r.repositoryId ≠ "" then repositoryAdmissionCheck r.repositoryId
  else workspacePoolCheck (r.workspacePoolId.getD "")

def integrationSessionFenceCheck (fence : Option IntegrationSessionFence) : List TransactItem :=
  match fence with
  | some f => [.check (.integration f.storageId) fun db =>
      (db.integrations f.storageId).any fun r =>
        r.type == f.type && r.version == f.version && r.enabled == f.enabled && r.generation == f.generation]
  | none => []

def sessionDrainActivityPut (sessionId : String) (r : SessionRow) : List TransactItem :=
  match given r.sessionPrincipalId with
  | some p =>
    if r.repositoryId = "" then []
    else [sessionDrainWrite (sessionDrainActivityForScope r.repositoryId p sessionId) (fun _ => true) fun _ =>
      some { sessionId := some sessionId, repositoryId := some r.repositoryId, principalId := some p }]
  | none => []

/-- The session's row in the activity scope of its repository. -/
def repositoryActivityPut (sessionId : String) (r : SessionRow) : List TransactItem :=
  if r.repositoryId = "" then []
  else [sessionDrainWrite (.repository r.repositoryId, .activity sessionId) (fun _ => true) fun _ =>
    some { sessionId := some sessionId, repositoryId := some r.repositoryId }]

/-- No deletion fence stands for the id. -/
def sessionRetentionAdmissionCheck (sessionId : String) : TransactItem :=
  .check (.sessionDrain (.retentionFence, .session sessionId)) fun db =>
    (db.sessionDrains (.retentionFence, .session sessionId)).isNone

namespace CreateOpts

def drainChecks (o : CreateOpts) : List TransactItem :=
  if o.session.repositoryId = "" then []
  else sessionDrainAdmissionCheck o.session.repositoryId o.session.sessionPrincipalId

/-- A parent that is the root itself is checked with the budget. -/
def hasSeparateParentCheck (o : CreateOpts) : Bool :=
  o.parentFence.any fun f => f.rootSessionId != some f.id

/-- With a key hash the parent still runs under it; without one it is only not queued. -/
def parentFenceIsValid (f : ParentFence) (parent : Option SessionRow) : Bool :=
  parent.any fun p =>
    match given f.sessionApiKeyHash with
    | some k => p.status == .running && p.sessionApiKeyHash == some k
    | none => p.status != .queued

def parentChecks (o : CreateOpts) : List TransactItem :=
  match o.parentFence with
  | some f =>
    if o.hasSeparateParentCheck then
      [.check (.session f.id) fun db => parentFenceIsValid f (db.sessions f.id)]
    else []
  | none => []

/-- One more descendant of the root, up to the bound. -/
def rootBudgetUpdates (o : CreateOpts) : List TransactItem :=
  match o.parentFence with
  | some f =>
    match given f.rootSessionId with
    | some root => [sessionWrite root
        (fun row => row.any fun r =>
          (o.hasSeparateParentCheck || parentFenceIsValid f row) &&
            r.descendantCount.all (· < MAX_SESSION_DESCENDANTS))
        (fun row => row.map fun r => { r with descendantCount := some (r.descendantCount.getD 0 + 1) })]
    | none => []
  | none => []

/-- The checks before the puts; `parents` are there only with a concurrency id. -/
def admissionItems (o : CreateOpts) (parents : List TransactItem) : List TransactItem :=
  o.markers.map markerCheck ++ principalExistsCheck o.session.sessionPrincipalId ++
  [resourceCheck o.session] ++ o.drainChecks ++ parents ++ integrationSessionFenceCheck o.integrationFence

/-- The session row's put, under `attribute_not_exists(id)`. -/
def sessionPut (o : CreateOpts) : TransactItem :=
  sessionWrite o.sessionId Option.isNone fun _ => some o.session

def activityPuts (o : CreateOpts) : List TransactItem :=
  sessionDrainActivityPut o.sessionId o.session ++ repositoryActivityPut o.sessionId o.session

/-- The exclusive lock of concurrency id `c`. -/
def lockPut (o : CreateOpts) (c : String) : TransactItem :=
  lockWrite c Option.isNone fun _ => some { sessionId := some o.sessionId }

end CreateOpts

/-- The transaction of a session without a concurrency id. -/
def createSessionItems (o : CreateOpts) : List TransactItem :=
  o.admissionItems [] ++ [o.sessionPut] ++ o.activityPuts ++ [sessionRetentionAdmissionCheck o.sessionId]

/-- The transaction of a session with concurrency id `c`. -/
def createSessionWithConcurrencyItems (o : CreateOpts) (c : String) : List TransactItem :=
  o.admissionItems o.parentChecks ++ [o.lockPut c, o.sessionPut] ++ o.activityPuts ++ o.rootBudgetUpdates ++
  [sessionRetentionAdmissionCheck o.sessionId]

/-! ## The call with a concurrency id -/

/-- The errors of a create call; `validationException` is the store's own. -/
inductive CreateError where
  | sessionIdCollision (sessionId : String)
  | retryExhausted (concurrencyId : String)
  | catalogDeletionInProgress
  | repositoryAdmissionClosed
  | parentSessionAttemptEnded
  | descendantBudgetExceeded
  | integrationChanged
  | sessionDrainActive (operationId : String)
  | validationException
  | tooManyActions
deriving DecidableEq

/-- What a create answers: the session it made, or the active session that holds the lock. -/
structure CreateSessionResult where
  created : Bool
  sessionId : String
  session : SessionRow
deriving DecidableEq

/-- What follows a conflict resolution that found no active holder. -/
inductive AfterResolve where
  | fail (e : CreateError)
  | retry
deriving DecidableEq

/-- Where a create call stands. `reasons` are the conditions of its last transaction. -/
inductive CreatePc where
  | send (attempt : ℕ)
  | readDrain
  | readParent (attempt : ℕ) (reasons : List Bool) (lockOnly : Bool) (after : AfterResolve)
  | readLock (attempt : ℕ) (reasons : List Bool) (after : AfterResolve)
  | readHolder (attempt : ℕ) (reasons : List Bool) (holder : String) (after : AfterResolve)
  | deleteLock (attempt : ℕ) (reasons : List Bool) (holder : String) (after : AfterResolve)
  | done (answer : Except CreateError CreateSessionResult)

/-- `isConditionalTransactionFailureAt`. -/
def failureAt (reasons : List Bool) (index : ℕ) : Bool := reasons[index]? == some false

namespace CreateOpts

def principalIndex (o : CreateOpts) : ℕ := o.markers.length
def resourceIndex (o : CreateOpts) : ℕ :=
  o.principalIndex + (principalExistsCheck o.session.sessionPrincipalId).length
def drainIndex (o : CreateOpts) : ℕ := o.resourceIndex + 1
def parentIndex (o : CreateOpts) : ℕ := o.drainIndex + o.drainChecks.length
def integrationIndex (o : CreateOpts) : ℕ := o.parentIndex + o.hasSeparateParentCheck.toNat
def lockIndex (o : CreateOpts) : ℕ :=
  o.integrationIndex + (integrationSessionFenceCheck o.integrationFence).length
def rootBudgetIndex (o : CreateOpts) : ℕ := o.lockIndex + 2 + o.activityPuts.length

/-- An error ends the call, a retry does after the last attempt. -/
def finishResolve (c : String) (attempt : ℕ) : AfterResolve → CreatePc
  | .fail e => .done (.error e)
  | .retry =>
    if attempt + 1 < MAX_CREATE_SESSION_ATTEMPTS then .send (attempt + 1)
    else .done (.error (.retryExhausted c))

/-- Enter the resolution of a lock conflict. A collision of the session id alone never succeeds on
retry. -/
def startResolve (o : CreateOpts) (attempt : ℕ) (reasons : List Bool) (after : AfterResolve) : CreatePc :=
  if !failureAt reasons o.lockIndex && failureAt reasons (o.lockIndex + 1) then
    .done (.error (.sessionIdCollision o.sessionId))
  else .readLock attempt reasons after

/-- `acknowledgeActiveLockWinner`: only a failed lock is resolved, for its active holder. -/
def acknowledgeWinner (o : CreateOpts) (attempt : ℕ) (reasons : List Bool) (e : CreateError) : CreatePc :=
  if failureAt reasons o.lockIndex then o.startResolve attempt reasons (.fail e) else .done (.error e)

/-- `throwIfFailedParentFence` before the winner is acknowledged. -/
def afterParentFence (o : CreateOpts) (attempt : ℕ) (reasons : List Bool) (e : CreateError) : CreatePc :=
  if o.hasSeparateParentCheck && failureAt reasons o.parentIndex then
    .done (.error .parentSessionAttemptEnded)
  else if o.parentFence.isSome && !o.hasSeparateParentCheck && failureAt reasons o.rootBudgetIndex then
    .readParent attempt reasons true (.fail e)
  else o.acknowledgeWinner attempt reasons e

/-- No admission check failed: the budget, then the lock. -/
def afterAdmission (o : CreateOpts) (attempt : ℕ) (reasons : List Bool) : CreatePc :=
  if !o.rootBudgetUpdates.isEmpty && failureAt reasons o.rootBudgetIndex then
    if o.parentFence.isSome && !o.hasSeparateParentCheck then
      .readParent attempt reasons false (.fail .descendantBudgetExceeded)
    else o.startResolve attempt reasons (.fail .descendantBudgetExceeded)
  else o.startResolve attempt reasons .retry

/-- The order in which the failed checks are looked at. -/
def onConflict (o : CreateOpts) (attempt : ℕ) (reasons : List Bool) : CreatePc :=
  if (List.range o.markers.length).any (failureAt reasons) then
    o.afterParentFence attempt reasons .catalogDeletionInProgress
  else if !(principalExistsCheck o.session.sessionPrincipalId).isEmpty && failureAt reasons o.principalIndex then
    .done (.error .catalogDeletionInProgress)
  else if failureAt reasons o.resourceIndex then
    o.afterParentFence attempt reasons
      (if o.session.repositoryId ≠ "" then .repositoryAdmissionClosed else .catalogDeletionInProgress)
  else if !o.drainChecks.isEmpty && failureAt reasons o.drainIndex then .readDrain
  else if o.hasSeparateParentCheck && failureAt reasons o.parentIndex then
    .done (.error .parentSessionAttemptEnded)
  else if !(integrationSessionFenceCheck o.integrationFence).isEmpty && failureAt reasons o.integrationIndex then
    o.afterParentFence attempt reasons .integrationChanged
  else o.afterAdmission attempt reasons

/-- More than 100 actions do not fit a transaction. -/
def begin (o : CreateOpts) (c : String) : CreatePc :=
  if 100 < (createSessionWithConcurrencyItems o c).length then .done (.error .tooManyActions) else .send 0

end CreateOpts

/-- The conditional delete of a lock: only the lock owned by this session; stale owners cannot
unlock newer work. -/
def releaseConcurrencyLockItems (concurrencyId sessionId : String) : List TransactItem :=
  [lockWrite concurrencyId (fun row => row.any (LockRow.names sessionId)) fun _ => none]

/-- One request of a create call for concurrency id `c`, and what it does to the store. -/
def createStep (o : CreateOpts) (c : String) : CreatePc → Db → CreatePc × Db
  | .send n, db =>
    match transact (createSessionWithConcurrencyItems o c) db with
    | .committed db' => (.done (.ok ⟨true, o.sessionId, o.session⟩), db')
    | .cancelled reasons => (o.onConflict n reasons, db)
    | .rejected => (.done (.error .validationException), db)
  | .readDrain, db =>
    let drain := (given o.session.sessionPrincipalId).bind fun p =>
      db.sessionDrains (.principal o.session.repositoryId p, .current)
    (.done (.error (.sessionDrainActive ((drain.bind (·.operationId)).getD "unknown"))), db)
  | .readParent n reasons lockOnly after, db =>
    if o.parentFence.any (fun f => !CreateOpts.parentFenceIsValid f (db.sessions f.id)) then
      (.done (.error .parentSessionAttemptEnded), db)
    else match after with
      | .fail e => (if lockOnly then o.acknowledgeWinner n reasons e else o.startResolve n reasons (.fail e), db)
      | .retry => (o.startResolve n reasons .retry, db)
  | .readLock n reasons after, db =>
    match (db.concurrencyLocks c).bind (·.sessionId) with
    | none =>
      if failureAt reasons (o.lockIndex + 1) then (.done (.error (.sessionIdCollision o.sessionId)), db)
      else (CreateOpts.finishResolve c n after, db)
    | some holder => (.readHolder n reasons holder after, db)
  | .readHolder n reasons holder after, db =>
    match db.sessions holder with
    | some r =>
      if r.status.isActive then (.done (.ok ⟨false, holder, r⟩), db)
      else (.deleteLock n reasons holder after, db)
    | none => (.deleteLock n reasons holder after, db)
  | .deleteLock n reasons holder after, db =>
    let db' := (transact (releaseConcurrencyLockItems c holder) db).state db
    if failureAt reasons (o.lockIndex + 1) then (.done (.error (.sessionIdCollision o.sessionId)), db')
    else (CreateOpts.finishResolve c n after, db')
  | .done answer, db => (.done answer, db)

/-! ## What a committed create did -/

/-- The locks after the create. -/
def lockCreated (sessionId : String) (lock : Option String) (t : String → Option LockRow) :
    String → Option LockRow :=
  match lock with
  | some c => Function.update t c (some { sessionId := some sessionId })
  | none => t

/-- Makes a row that was not there, takes a free lock, and else touches only the root's descendant count. -/
structure Created (o : CreateOpts) (lock : Option String) (db db' : Db) : Prop where
  absent : db.sessions o.sessionId = none
  free : ∀ c, lock = some c → db.concurrencyLocks c = none
  locks : db'.concurrencyLocks = lockCreated o.sessionId lock db.concurrencyLocks
  row : db'.sessions o.sessionId = some o.session
  others : ∀ s, s ≠ o.sessionId → db'.sessions s = db.sessions s ∨
    ∃ r n, db.sessions s = some r ∧ db'.sessions s = some { r with descendantCount := some n }
  worktrees : db'.worktrees = db.worktrees
  hostLocks : db'.hostLocks = db.hostLocks

theorem runAll_of_checks {items : List TransactItem} (h : ∀ i ∈ items, ∀ db, i.run db = db) (db : Db) :
    runAll items db = db :=
  runAll_frame id items h db

namespace CreateOpts

theorem runAll_admissionItems (o : CreateOpts) {parents : List TransactItem}
    (h : ∀ i ∈ parents, ∀ db, i.run db = db) (db : Db) : runAll (o.admissionItems parents) db = db := by
  apply runAll_of_checks
  intro i hi db
  simp only [admissionItems, List.mem_append, List.mem_singleton, List.mem_map] at hi
  obtain ((((⟨m, -, rfl⟩ | hi) | rfl) | hi) | hi) | hi := hi
  · rfl
  · revert hi
    unfold principalExistsCheck
    split
    · split
      · simp
      · rintro (_ | ⟨_, ⟨⟩⟩)
        rfl
    · simp
  · unfold resourceCheck
    split <;> rfl
  · revert hi
    unfold drainChecks sessionDrainAdmissionCheck
    split
    · simp
    · split
      · rintro (_ | ⟨_, ⟨⟩⟩)
        rfl
      · simp
  · exact h i hi db
  · revert hi
    unfold integrationSessionFenceCheck
    split
    · rintro (_ | ⟨_, ⟨⟩⟩)
      rfl
    · simp

theorem run_of_mem_parentChecks (o : CreateOpts) : ∀ i ∈ o.parentChecks, ∀ db, i.run db = db := by
  unfold parentChecks
  split
  · split
    · rintro i (_ | ⟨_, ⟨⟩⟩) db
      rfl
    · simp
  · simp

theorem runAll_activityPuts (o : CreateOpts) (db : Db) :
    ∃ drains, runAll o.activityPuts db = { db with sessionDrains := drains } := by
  unfold activityPuts sessionDrainActivityPut repositoryActivityPut
  split <;> split
  all_goals exact ⟨_, rfl⟩

theorem runAll_rootBudgetUpdates {o : CreateOpts} {db t : Db} (hr : Ready o.rootBudgetUpdates db)
    (habsent : db.sessions o.sessionId = none)
    (ht : t.sessions = Function.update db.sessions o.sessionId (some o.session)) :
    ∃ sessions, runAll o.rootBudgetUpdates t = { t with sessions := sessions } ∧
      sessions o.sessionId = some o.session ∧
      ∀ s, s ≠ o.sessionId → sessions s = db.sessions s ∨
        ∃ r n, db.sessions s = some r ∧ sessions s = some { r with descendantCount := some n } := by
  have hsame : ∃ sessions, t = { t with sessions := sessions } ∧ sessions o.sessionId = some o.session ∧
      ∀ s, s ≠ o.sessionId → sessions s = db.sessions s ∨
        ∃ r n, db.sessions s = some r ∧ sessions s = some { r with descendantCount := some n } :=
    ⟨t.sessions, rfl, by simp [ht], fun s hs => .inl (by simp [ht, hs])⟩
  unfold rootBudgetUpdates at hr ⊢
  split
  · rename_i f hf
    rw [hf] at hr
    dsimp only at hr ⊢
    split
    · rename_i root hroot
      rw [hroot] at hr
      simp only [ready_cons, ready_nil, and_true, sessionWrite_holds, Option.any_eq_true] at hr
      obtain ⟨r, hrow, -⟩ := hr
      -- the root is another row: the session's own row is not there before the transaction
      have hne : root ≠ o.sessionId := by
        rintro rfl
        rw [habsent] at hrow
        cases hrow
      have hroot' : t.sessions root = some r := by simp [ht, hne, hrow]
      refine ⟨_, rfl, by simp [ht, hne.symm], fun s hs => ?_⟩
      by_cases hsr : s = root
      · subst hsr
        exact .inr ⟨r, r.descendantCount.getD 0 + 1, hrow, by simp [hroot']⟩
      · exact .inl (by simp [ht, hs, hsr])
    · exact hsame
  · exact hsame

end CreateOpts

variable {o : CreateOpts} {db db' : Db}

open CreateOpts (sessionPut lockPut)

theorem createSession_committed (h : transact (createSessionItems o) db = .committed db') : Created o none db db' := by
  obtain ⟨-, hr, rfl⟩ := committed_iff.mp h
  simp only [createSessionItems, ready_append, ready_cons, ready_nil, and_true, sessionPut,
    sessionWrite_holds, Option.isNone_iff_eq_none] at hr
  obtain ⟨⟨⟨-, habsent⟩, -⟩, -⟩ := hr
  obtain ⟨drains, hdrains⟩ := o.runAll_activityPuts (o.sessionPut.run db)
  have hrun : runAll (createSessionItems o) db = { o.sessionPut.run db with sessionDrains := drains } := by
    simp only [createSessionItems, runAll_append, runAll_cons, runAll_nil,
      o.runAll_admissionItems (fun i hi => absurd hi List.not_mem_nil), hdrains]
    rfl
  rw [hrun]
  exact {
    absent := habsent, free := fun d hd => by cases hd
    locks := rfl
    row := by simp [sessionPut]
    others := fun s hs => .inl (by simp [sessionPut, hs])
    worktrees := rfl, hostLocks := rfl }

theorem createSessionWithConcurrency_committed {c : String}
    (h : transact (createSessionWithConcurrencyItems o c) db = .committed db') : Created o (some c) db db' := by
  obtain ⟨-, hr, rfl⟩ := committed_iff.mp h
  simp only [createSessionWithConcurrencyItems, ready_append, ready_cons, ready_nil, and_true,
    sessionPut, lockPut, sessionWrite_holds, lockWrite_holds, Option.isNone_iff_eq_none] at hr
  obtain ⟨⟨⟨⟨-, hfree, habsent⟩, -⟩, hbudget⟩, -⟩ := hr
  obtain ⟨drains, hdrains⟩ := o.runAll_activityPuts (o.sessionPut.run ((o.lockPut c).run db))
  obtain ⟨sessions, hsessions, hrow, hothers⟩ := CreateOpts.runAll_rootBudgetUpdates hbudget habsent
    (t := { o.sessionPut.run ((o.lockPut c).run db) with sessionDrains := drains }) rfl
  have hrun : runAll (createSessionWithConcurrencyItems o c) db =
      { o.sessionPut.run ((o.lockPut c).run db) with sessionDrains := drains, sessions := sessions } := by
    simp only [createSessionWithConcurrencyItems, runAll_append, runAll_cons, runAll_nil,
      o.runAll_admissionItems o.run_of_mem_parentChecks, hdrains, hsessions]
    rfl
  rw [hrun]
  exact {
    absent := habsent
    free := fun d hd => by cases hd; exact hfree
    locks := rfl, row := hrow, others := hothers
    worktrees := rfl, hostLocks := rfl }

end AutoHarness.Store

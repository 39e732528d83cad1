import AutoHarness.Store.Assign
import AutoHarness.Store.Cancel

/-! Cancellation in a process that caches the sessions it assigned. -/

namespace AutoHarness.Plane
open Foundation Store Option

/-! ## What an assigner leaves in the cache -/

def nextWorktreeSession (o : AssignSessionOpts) (session : SessionRow) : SessionRow :=
  { session with
    status := .running
    worktreeId := .value o.worktreeId
    hostId := .value o.hostId
    startedAt := some o.now
    sessionOutputsSupported := some (o.sessionOutputsSupported.getD false)
    resumeSpec := session.resumeSpec.or o.resumeSpec
    resolvedRoute := some o.resolvedRoute
    attemptId := some o.attemptId
    primaryCommandStartState := some .pending
    sessionApiKeyHash := o.sessionApiKeyHash.or session.sessionApiKeyHash
    providerAccountLease := o.providerAccountLease.or session.providerAccountLease
    hostAssignmentLease := some ⟨o.hostId⟩
    errorCode := none
    errorMessage := none }

def nextWorkspaceSession (o : AssignWorkspaceOpts) (session : SessionRow) : SessionRow :=
  { session with
    status := .running
    repositoryId := ""
    worktreeId := .null
    workspaceSlotId := .value o.workspaceSlotId
    workspaceSlotLease := true
    hostId := .value o.hostId
    startedAt := some o.now
    attemptId := some o.attemptId
    sessionOutputsSupported := some (o.sessionOutputsSupported.getD false)
    resolvedRoute := some o.resolvedRoute
    primaryCommandStartState := some .pending
    providerAccountLease := o.providerAccountLease.or session.providerAccountLease
    hostAssignmentLease := some ⟨o.hostId⟩
    errorCode := none
    errorMessage := none }

/-- An assignment that this process made itself. -/
inductive OwnAssignment where
  | worktree (o : AssignSessionOpts)
  | workspace (o : AssignWorkspaceOpts)

namespace OwnAssignment

def opts : OwnAssignment → AssignmentOpts
  | worktree o => o.toAssignmentOpts
  | workspace o => o.toAssignmentOpts

/-- Its transaction. -/
def items : OwnAssignment → List TransactItem
  | worktree o => tryAssignSessionItems o
  | workspace o => tryAssignWorkspaceSessionItems o

/-- The row it stores. -/
def row (r : SessionRow) : OwnAssignment → SessionRow
  | worktree o => o.claimed r
  | workspace o => o.claimed r

/-- The row it caches. -/
def record (session : SessionRow) : OwnAssignment → SessionRow
  | worktree o => nextWorktreeSession o session
  | workspace o => nextWorkspaceSession o session

/-- The strings the source tests for truth are not empty. -/
def Named (a : OwnAssignment) : Prop :=
  a.opts.hostId ≠ "" ∧ a.opts.connectionId ≠ "" ∧ a.opts.attemptId ≠ "" ∧
    match a with
    | worktree o => o.worktreeId ≠ ""
    | workspace o => o.workspaceSlotId ≠ ""

end OwnAssignment

/-! ## Cancellation -/

inductive CancelAnswer where
  | ok
  | refused (error : String)
  | threw
deriving DecidableEq, Repr

structure CancelEnd where
  answer : CancelAnswer
  db : Db
  cached : Option SessionRow

structure CancelCall where
  sessionId : String
  now : Timestamp
  reconnectGraceMs : ℕ := 0
  drainOperationId : Option String := none

def CANCELLED_BY_OPERATOR : String := "cancelled by operator"

def CHANGED_BEFORE_CANCELLATION : String := "session changed before cancellation"

namespace CancelCall

variable (c : CancelCall)

def drain (session : SessionRow) : DrainOpts :=
  match given c.drainOperationId, given session.sessionPrincipalId with
  | some op, some principalId =>
    { drainOperationId := some op, drainRepositoryId := some session.repositoryId
      drainPrincipalId := some principalId }
  | some op, none => { drainOperationId := some op }
  | none, _ => {}

def running (session assignment : SessionRow) : CancelRunningOpts :=
  { c.drain session with
    sessionId := c.sessionId
    worktreeId := assignment.worktreeId.toOption
    workspaceSlotId := given assignment.workspaceSlotId.toOption
    hostId := assignment.hostId.toOption.getD ""
    connectionId := assignment.assignmentConnectionId.getD ""
    attemptId := assignment.attemptId.getD ""
    queueShard := assignment.queueShard
    completedAt := c.now
    errorMessage := CANCELLED_BY_OPERATOR }

def fenced (assignment : SessionRow) : Bool :=
  assignment.status == .running && (given assignment.hostId.toOption).isSome &&
    (given assignment.assignmentConnectionId).isSome && (given assignment.attemptId).isSome

def refuse (db : Db) (session : SessionRow) : CancelEnd :=
  ⟨.refused CHANGED_BEFORE_CANCELLATION, db, some session⟩

def settle (session next : SessionRow) (written : Except StoreError Bool × Db) : CancelEnd :=
  match written with
  | (.ok true, db) => ⟨.ok, db, some next⟩
  | (.ok false, db) => ⟨.refused CHANGED_BEFORE_CANCELLATION, db, some session⟩
  | (.error _, db) => ⟨.threw, db, some session⟩

/-- The record cached before the row is read stands for the assignment this process observed. -/
def cancelSessionDurable (cached : Option SessionRow) (db : Db) : CancelEnd :=
  match db.sessions c.sessionId with
  | none => ⟨.refused "session not found", db, none⟩
  | some session =>
    if session.status.isTerminal then
      ⟨.refused ("session already terminal: " ++ session.status.text), db, some session⟩
    else if session.status = .running then
      let assignment := cached.getD session
      let o := c.running session assignment
      if !session.mainCheckoutLease then
        if fenced assignment && ((given assignment.worktreeId.toOption).isSome ||
            (given assignment.workspaceSlotId.toOption).isSome) then
          settle session (o.cancelled session) (cancelRunningSession o db)
        else refuse db session
      else if fenced assignment && assignment.mainCheckoutLease then
        let deadlineAt := c.now + c.reconnectGraceMs
        settle session { o.cancelled session with reconnectDeadlineAt := some deadlineAt }
          (cancelRunningMainCheckoutSession o deadlineAt db)
      else refuse db session
    else
      let o : CancelQueuedOpts :=
        { c.drain session with
          sessionId := c.sessionId
          queueShard := session.queueShard
          completedAt := c.now
          errorMessage := CANCELLED_BY_OPERATOR
          concurrencyId := given session.concurrencyId }
      settle session
        { session with
          status := .cancelled
          errorMessage := some CANCELLED_BY_OPERATOR
          completedAt := some c.now
          worktreeId := .null
          hostId := .null
          sessionApiKeyHash := none
          cancelledByDrainOperationId := (given c.drainOperationId).or session.cancelledByDrainOperationId }
        (cancelQueuedSession o db)

end CancelCall

/-! ## The cancellation of an own assignment -/

section OwnCancellation

variable {a : OwnAssignment} {c : CancelCall} {db db' later : Db} {r session cached : SessionRow}

variable {o : CancelRunningOpts}

theorem cancelRunningItems_nodup : (targets (cancelRunningSessionItems o)).Nodup := by
  unfold cancelRunningSessionItems writeCancelledSessionUpdateItems sessionDrainCancellationUpdates
  cases drainCancelScope o.toDrainOpts <;> simp [sessionWrite, cancelRedeliveryPut, sessionDrainWrite]

/-- The row is the assignment that a cancellation names, and the drain it belongs to still counts. -/
structure Cancellable (o : CancelRunningOpts) (r : SessionRow) (db : Db) : Prop where
  assignment : o.assignment r = true
  worktree : r.worktreeId = .ofOption o.worktreeId
  slot : ∀ slot, given o.workspaceSlotId = some slot → r.workspaceSlotId = .value slot
  drain : Ready (sessionDrainCancellationUpdates (drainCancelScope o.toDrainOpts)) db

section

variable (hrow : db.sessions o.sessionId = some r)
include hrow

theorem ready_cancelRunningSession : Ready (cancelRunningSessionItems o) db ↔ Cancellable o r db := by
  have hslot : ((given o.workspaceSlotId).all fun w => r.workspaceSlotId == .value w) = true ↔
      ∀ slot, given o.workspaceSlotId = some slot → r.workspaceSlotId = .value slot := by
    cases given o.workspaceSlotId <;> simp
  simp only [cancelRunningSessionItems, writeCancelledSessionUpdateItems, ready_append, ready_cons, ready_nil,
    sessionWrite_holds, hrow, any_some, Bool.and_eq_true, beq_iff_eq, hslot]
  constructor
  · rintro ⟨⟨⟨⟨hassignment, hworktree⟩, hslot⟩, -⟩, hdrain⟩
    exact ⟨hassignment, hworktree, hslot, hdrain⟩
  · rintro ⟨hassignment, hworktree, hslot, hdrain⟩
    exact ⟨⟨⟨⟨hassignment, hworktree⟩, hslot⟩, rfl, trivial⟩, hdrain⟩

theorem cancelRunningSession_commits (h : Cancellable o r db) :
    ∃ db', cancelRunningSession o db = (.ok true, db') ∧ db'.sessions o.sessionId = some (o.cancelled r) := by
  have hcommit := transact_of_ready cancelRunningItems_nodup ((ready_cancelRunningSession hrow).mpr h)
  obtain ⟨r', hrow', -, drains, redeliveries, hdb⟩ := writeCancelled_committed hcommit
  rw [hrow] at hrow'
  cases hrow'
  refine ⟨_, commitOrFalse_true.mpr hcommit, ?_⟩
  rw [hdb]
  exact Function.update_self ..

theorem cancelRunningSession_refuses (h : ¬ Cancellable o r db) : cancelRunningSession o db = (.ok false, db) := by
  unfold cancelRunningSession commitOrFalse
  rw [transact_of_not_ready cancelRunningItems_nodup fun hready => h ((ready_cancelRunningSession hrow).mp hready)]

end

theorem OwnAssignment.committed_row (h : transact a.items db = .committed db') :
    ∃ r, db.sessions a.opts.sessionId = some r ∧ db'.sessions a.opts.sessionId = some (a.row r) := by
  cases a with
  | worktree o =>
    obtain ⟨r, w, hl, hchecked, -, -, -, -, rfl⟩ := assignSession_committed h
    exact ⟨r, hchecked.row, Function.update_self ..⟩
  | workspace o =>
    obtain ⟨r, w, hl, hchecked, -, -, -, -, rfl⟩ := assignWorkspace_committed h
    exact ⟨r, hchecked.row, Function.update_self ..⟩

structure Observed (a : OwnAssignment) (x : SessionRow) : Prop where
  running : x.status = .running
  host : x.hostId = .value a.opts.hostId
  attempt : x.attemptId = some a.opts.attemptId
  resource : match a with
    | .worktree o => x.worktreeId = .value o.worktreeId
    | .workspace o => x.worktreeId = .null ∧ x.workspaceSlotId = .value o.workspaceSlotId

theorem observed_row : Observed a (a.row r) := by
  cases a with
  | worktree o => exact ⟨rfl, rfl, rfl, rfl⟩
  | workspace o => exact ⟨rfl, rfl, rfl, rfl, rfl⟩

theorem observed_record : Observed a (a.record session) := by
  cases a with
  | worktree o => exact ⟨rfl, rfl, rfl, rfl⟩
  | workspace o => exact ⟨rfl, rfl, rfl, rfl, rfl⟩

/-- The cached record carries the connection of the assignment and no other slot, and the drain still counts. -/
structure Fenced (a : OwnAssignment) (c : CancelCall) (cached row : SessionRow) (db : Db) : Prop where
  connection : cached.assignmentConnectionId = some a.opts.connectionId
  slot : ∀ slot, given cached.workspaceSlotId.toOption = some slot → row.workspaceSlotId = .value slot
  drain : Ready (sessionDrainCancellationUpdates (drainCancelScope (c.drain row))) db

theorem row_connection : (a.row r).assignmentConnectionId = some a.opts.connectionId := by
  cases a <;> rfl

theorem row_mainCheckoutLease : (a.row r).mainCheckoutLease = r.mainCheckoutLease := by
  cases a <;> rfl

theorem cancellable_iff (hcached : Observed a cached) (hconnection : cached.assignmentConnectionId.isSome = true) :
    Cancellable (c.running (a.row r) cached) (a.row r) later ↔ Fenced a c cached (a.row r) later := by
  obtain ⟨connectionId, hid⟩ := isSome_iff_exists.mp hconnection
  have hrow : Observed a (a.row r) := observed_row
  have hworktree : (a.row r).worktreeId = .ofOption cached.worktreeId.toOption := by
    cases a with
    | worktree o => rw [hcached.resource, hrow.resource]; rfl
    | workspace o => rw [hcached.resource.1, hrow.resource.1]; rfl
  have hslot : ∀ slot, given (given cached.workspaceSlotId.toOption) = some slot ↔
      given cached.workspaceSlotId.toOption = some slot := by
    intro slot
    rw [given_eq_some]
    exact ⟨fun h => h.1, fun h => ⟨h, (given_eq_some.mp h).2⟩⟩
  have hassignment : (c.running (a.row r) cached).assignment (a.row r) = true ↔
      cached.assignmentConnectionId = some a.opts.connectionId := by
    rw [CancelRunningOpts.assignment_iff]
    simp only [CancelCall.running, hrow.running, hrow.host, hrow.attempt, row_connection, hcached.host,
      hcached.attempt, hid]
    simp [eq_comm]
  constructor
  · intro h
    exact ⟨hassignment.mp h.assignment, fun slot hgiven => h.slot slot ((hslot slot).mpr hgiven), h.drain⟩
  · intro h
    exact ⟨hassignment.mpr h.connection, hworktree, fun slot hgiven => h.slot slot ((hslot slot).mp hgiven), h.drain⟩

/-- **Cancellation.** While the row of its assignment stands, a cancellation commits exactly when the cached record
carries the connection of the assignment. -/
theorem own_cancellation_commits_iff (hnamed : a.Named) (hid : c.sessionId = a.opts.sessionId)
    (hrow : db.sessions a.opts.sessionId = some r) (hqueued : r.mainCheckoutLease = false)
    (hcommit : transact a.items db = .committed db')
    (hlater : later.sessions a.opts.sessionId = db'.sessions a.opts.sessionId)
    (hcached : cached = a.record session ∨ later.sessions a.opts.sessionId = some cached) :
    ((c.cancelSessionDurable (some cached) later).answer = .ok ∧
        (c.cancelSessionDurable (some cached) later).db.sessions a.opts.sessionId =
          some ((c.running (a.row r) cached).cancelled (a.row r))) ↔ Fenced a c cached (a.row r) later := by
  have hstored : later.sessions a.opts.sessionId = some (a.row r) := by
    obtain ⟨r', hr', hwritten⟩ := OwnAssignment.committed_row hcommit
    rw [hrow] at hr'
    cases hr'
    rw [hlater, hwritten]
  have hobserved : Observed a cached := by
    obtain rfl | hcached := hcached
    · exact observed_record
    · rw [hstored] at hcached
      cases hcached
      exact observed_row
  have hrunning : (a.row r).status = .running := observed_row.running
  have hterminal : (a.row r).status.isTerminal = false := by rw [hrunning]; rfl
  have hresource : ((given cached.worktreeId.toOption).isSome || (given cached.workspaceSlotId.toOption).isSome) =
      true := by
    obtain ⟨-, -, -, hname⟩ := hnamed
    cases a with
    | worktree o =>
      rw [hobserved.resource]
      simp [Attr.toOption, given_of_ne hname]
    | workspace o =>
      rw [hobserved.resource.2]
      simp [Attr.toOption, given_of_ne hname]
  have hfenced : CancelCall.fenced cached = (given cached.assignmentConnectionId).isSome := by
    unfold CancelCall.fenced
    rw [hobserved.running, hobserved.host, hobserved.attempt]
    simp [Attr.toOption, given_of_ne hnamed.1, given_of_ne hnamed.2.2.1]
  have hend : c.cancelSessionDurable (some cached) later =
      if (given cached.assignmentConnectionId).isSome then
        CancelCall.settle (a.row r) ((c.running (a.row r) cached).cancelled (a.row r))
          (cancelRunningSession (c.running (a.row r) cached) later)
      else CancelCall.refuse later (a.row r) := by
    unfold CancelCall.cancelSessionDurable
    rw [hid, hstored]
    dsimp only
    rw [hterminal, hrunning, row_mainCheckoutLease, hqueued, getD_some, hfenced, hresource]
    simp
  rw [hend]
  cases hgiven : given cached.assignmentConnectionId with
  | none =>
    refine iff_of_false (fun h => by cases h.1) fun h => ?_
    rw [h.connection, given_of_ne hnamed.2.1] at hgiven
    cases hgiven
  | some connectionId =>
    have hsome : cached.assignmentConnectionId.isSome = true := by rw [(given_eq_some.mp hgiven).1]; rfl
    have hsession : later.sessions (c.running (a.row r) cached).sessionId = some (a.row r) := by
      rw [← hstored, ← hid]
      rfl
    rw [← cancellable_iff hobserved hsome]
    by_cases hcan : Cancellable (c.running (a.row r) cached) (a.row r) later
    · obtain ⟨final, hwrite, hfinal⟩ := cancelRunningSession_commits hsession hcan
      rw [hwrite]
      refine iff_of_true ⟨rfl, ?_⟩ hcan
      rw [← hfinal, ← hid]
      rfl
    · rw [cancelRunningSession_refuses hsession hcan]
      exact iff_of_false (fun h => by cases h.1) hcan

end OwnCancellation

/-! ## One worktree -/

section OneWorktree

private def queuedRow : SessionRow := { status := .queued, repositoryId := "r", queueExpiresAt := 10 }

private def oneWorktree : Db where
  sessions := fun id => if id = "s" then some queuedRow else none
  worktrees := fun id => if id = "w" then some { hostId := "h", repositoryId := "r" } else none
  hostLocks := fun id => if id = "h" then some { connectionId := some "conn" } else none
  repositories := fun id => if id = "r" then some {} else none

private def placement : OwnAssignment := .worktree
  { sessionId := "s", hostId := "h", connectionId := "conn", now := 1, attemptId := "t", repositoryId := "r"
    worktreeId := "w"
    resolvedRoute :=
      { targetIndex := 0, commandId := "c", hostId := "h", worktreeId := some "w", attemptId := "t" } }

private def placed : Db := runAll placement.items oneWorktree

private theorem placement_committed : transact placement.items oneWorktree = .committed placed :=
  transact_of_ready (by decide +kernel) (by decide +kernel)

private def operatorCancel : CancelCall := { sessionId := "s", now := 2 }

theorem own_cancellation_commits_refreshed :
    (operatorCancel.cancelSessionDurable (some (placement.row queuedRow)) placed).answer = .ok :=
  have hnamed : placement.Named := ⟨by decide, by decide, by decide, (by decide : "w" ≠ "")⟩
  have hcached : placement.row queuedRow = placement.record queuedRow ∨
      placed.sessions "s" = some (placement.row queuedRow) := .inr rfl
  ((own_cancellation_commits_iff (a := placement) hnamed rfl rfl rfl placement_committed rfl hcached).mpr
    ⟨rfl, by decide +kernel, by decide +kernel⟩).1

theorem own_cancellation_refused : transact placement.items oneWorktree = .committed placed ∧
      (operatorCancel.cancelSessionDurable (some (placement.record queuedRow)) placed).answer =
        .refused "session changed before cancellation" ∧
      ((operatorCancel.cancelSessionDurable (some (placement.record queuedRow)) placed).db.sessions "s").map
        (·.status) = some .running :=
  ⟨placement_committed, by decide +kernel, by decide +kernel⟩

end OneWorktree

end AutoHarness.Plane

import AutoHarness.Foundation.OrderedMap
import AutoHarness.Plane.Calls

/-! The acknowledgement deadline: the pass that returns unacknowledged assignments to the queue, in memory and over
the store. Persistence in memory mode and logs are left out. -/

namespace AutoHarness.Plane
open Foundation Store

/-- A null worktree stands for a main checkout and for a workspace slot. -/
structure PendingAck where
  worktreeId : Option String
  attemptId : String
  assignedAtMs : Timestamp
deriving DecidableEq

/-- The maps of the process that the modelled handlers read or write. -/
structure ControlPlaneState where
  ackDeadlineMs : ℕ
  pendingAcks : OrderedMap String PendingAck
  sessions : String → Option SessionRow
  worktrees : String → Option WorktreeRow := fun _ => none
  workspaceSlots : String → Option WorkspaceSlotRow := fun _ => none
  mainCheckoutLeases : String × String → Option MainCheckoutLease := fun _ => none
  providerAccountLeases : String → Option LockRow := fun _ => none
  drainingHosts : String → Bool := fun _ => false
  disconnectedHosts : String → Bool := fun _ => false

namespace ControlPlaneState

variable (st : ControlPlaneState)

/-- Drain and disconnect are sticky: a released worktree of such a host is not assignable. -/
def releaseWorktree (worktreeId : String) : ControlPlaneState :=
  { st with
    worktrees := Function.update st.worktrees worktreeId <|
      (st.worktrees worktreeId).map fun wt =>
        { wt with
          status := .idle
          currentSessionId := .null
          online := !(st.drainingHosts wt.hostId || st.disconnectedHosts wt.hostId) && wt.online } }

/-- The key of the main checkout that the session still holds in memory. -/
def holdsScheduledLeaseLocal (sessionId : String) (session : SessionRow) : Option (String × String) :=
  (given session.hostId.toOption).bind fun hostId =>
    if (given session.assignmentConnectionId).isSome && session.mainCheckoutLease &&
        (st.mainCheckoutLeases (hostId, session.repositoryId)).any (fun lease =>
          lease.sessionId == sessionId && some lease.connectionId == session.assignmentConnectionId) then
      some (hostId, session.repositoryId)
    else none

def releaseScheduledLeaseLocal (sessionId : String) (session : SessionRow) : ControlPlaneState :=
  match st.holdsScheduledLeaseLocal sessionId session with
  | some key => { st with mainCheckoutLeases := Function.update st.mainCheckoutLeases key none }
  | none => st

/-- Only a lock of the same session and attempt is removed. -/
def releaseProviderAccountLeaseLocal (sessionId : String) (session : SessionRow) : ControlPlaneState :=
  match session.providerAccountLease with
  | some lease =>
    if (st.providerAccountLeases lease.concurrencyId).any (·.ownedBy sessionId lease.attemptId) then
      { st with providerAccountLeases := Function.update st.providerAccountLeases lease.concurrencyId none }
    else st
  | none => st

def setSession (sessionId : String) (session : SessionRow) : ControlPlaneState :=
  { st with sessions := Function.update st.sessions sessionId (some session) }

def forget (sessionId : String) : ControlPlaneState :=
  { st with pendingAcks := st.pendingAcks.erase sessionId }

end ControlPlaneState

/-- A session without its capacity leases, as `releaseProviderAccountLease` leaves the record. -/
def withoutLeases (session : SessionRow) : SessionRow :=
  { session with providerAccountLease := none, hostAssignmentLease := none }

/-- The row that goes back to the queue without its target. -/
def queueReconnectSession (session : SessionRow) (reason : String) : SessionRow :=
  { session with
    status := .queued
    hostId := .null
    worktreeId := .null
    workspaceSlotId := .null
    errorMessage := some reason
    ackReceivedAt := none
    reconnectDeadlineAt := none
    assignmentConnectionId := none
    assignmentSentAt := none
    startedAt := none
    mainCheckoutLease := false
    workspaceSlotLease := false
    providerAccountLease := none
    activeHostId := none
    result := none
    primaryCommandStartState := none
    sessionApiKeyHash := none }

namespace PendingAck

/-- `nowMs - pending.assignedAtMs < state.ackDeadlineMs`, negated. -/
def due (pending : PendingAck) (ackDeadlineMs : ℕ) (nowMs : Timestamp) : Bool :=
  decide (pending.assignedAtMs + ackDeadlineMs ≤ nowMs)

/-- The cached row is still the unacknowledged attempt that the record was made for. -/
def matchesSession (pending : PendingAck) (session : SessionRow) : Bool :=
  session.ackReceivedAt.isNone && session.worktreeId == Attr.ofOption pending.worktreeId &&
    session.attemptId == some pending.attemptId

end PendingAck

/-! ## In memory -/

/-- One record of the in-memory pass; a record that is due and matches no row is dropped. -/
def ackTurn (nowMs : Timestamp) (x : ControlPlaneState × List String) (e : String × PendingAck) :
    ControlPlaneState × List String :=
  let (st, requeued) := x
  let (sessionId, pending) := e
  if !pending.due st.ackDeadlineMs nowMs then (st, requeued)
  else
    match (st.sessions sessionId).filter pending.matchesSession with
    | none => (st.forget sessionId, requeued)
    | some session =>
      match given pending.worktreeId with
      | some worktreeId =>
        ((((st.releaseWorktree worktreeId).releaseProviderAccountLeaseLocal sessionId session).setSession sessionId
            { withoutLeases session with
              status := .queued
              worktreeId := .null
              hostId := .null
              startedAt := none
              sessionApiKeyHash := none }).forget sessionId, requeued ++ [sessionId])
      | none =>
        ((((st.releaseScheduledLeaseLocal sessionId session).releaseProviderAccountLeaseLocal sessionId
            session).setSession sessionId
            (queueReconnectSession (withoutLeases session) ACK_DEADLINE_REASON)).forget sessionId,
          requeued ++ [sessionId])

def enforceAckDeadlines (st : ControlPlaneState) (nowMs : Timestamp) : ControlPlaneState × List String :=
  st.pendingAcks.entries.foldl (ackTurn nowMs) (st, [])

/-! ## Over the durable store -/

/-- A running unacknowledged row that has no record gets one. -/
def recoverPending (st : ControlPlaneState) (e : String × SessionRow) : ControlPlaneState :=
  let (sessionId, session) := e
  match session.assignmentSentAt, given session.attemptId with
  | some sentAt, some attemptId =>
    if session.status == .running && session.ackReceivedAt.isNone && !st.pendingAcks.contains sessionId then
      { st.setSession sessionId session with
        pendingAcks := st.pendingAcks.insertNew sessionId
          { worktreeId := if session.type = .prompt then session.worktreeId.toOption else none
            attemptId
            assignedAtMs := sentAt } }
    else st
  | _, _ => st

def recoverPendings (page : List (String × SessionRow)) (st : ControlPlaneState) : ControlPlaneState :=
  page.foldl recoverPending st

def ackRequeueOpts (sessionId : String) (pending : PendingAck) (session : SessionRow) (worktreeId : String) :
    RequeueOpts where
  sessionId := sessionId
  worktreeId := worktreeId
  attemptId := pending.attemptId
  queueShard := session.queueShard
  reason := some ACK_DEADLINE_REASON
  requireUnacknowledged := true
  providerAccountLease := session.providerAccountLease
  hostAssignmentLease := session.hostAssignmentLease

def ackReleaseOpts (sessionId : String) (pending : PendingAck) (session : SessionRow)
    (hostId connectionId : String) : ReleaseMainCheckoutOpts where
  sessionId := sessionId
  hostId := hostId
  repositoryId := session.repositoryId
  connectionId := connectionId
  attemptId := some pending.attemptId
  status := .queued
  queueShard := session.queueShard
  reason := some ACK_DEADLINE_REASON
  requireUnacknowledged := true
  providerAccountLease := session.providerAccountLease
  hostAssignmentLease := session.hostAssignmentLease

/-- The write of one turn: a worktree is requeued, everything else goes to the main-checkout release. -/
def ackWrite (sessionId : String) (pending : PendingAck) (session : SessionRow) (db : Db) :
    Except StoreError Bool × Db :=
  match given pending.worktreeId with
  | some worktreeId => tryRequeueSession (ackRequeueOpts sessionId pending session worktreeId) db
  | none =>
    match given session.hostId.toOption, given session.assignmentConnectionId with
    | some hostId, some connectionId =>
      releaseMainCheckoutSession (ackReleaseOpts sessionId pending session hostId connectionId) db db
    | _, _ => (.ok false, db)

/-- Where a durable pass stands. -/
structure AckPass where
  state : ControlPlaneState
  db : Db
  requeued : List String := []
  error : Option StoreError := none

/-- The caches after the store accepted the requeue. -/
def ackSettled (st : ControlPlaneState) (sessionId : String) (pending : PendingAck) (session : SessionRow) :
    ControlPlaneState :=
  match given pending.worktreeId with
  | some worktreeId =>
    let queued := { withoutLeases session with
      status := .queued
      worktreeId := .null
      hostId := .null
      errorMessage := some ACK_DEADLINE_REASON
      activeHostId := none
      sessionApiKeyHash := none }
    { ((st.releaseProviderAccountLeaseLocal sessionId session).setSession sessionId queued).forget sessionId with
      worktrees := Function.update st.worktrees worktreeId <|
        (st.worktrees worktreeId).map fun wt => { wt with status := .idle, currentSessionId := .null } }
  | none =>
    (((st.releaseProviderAccountLeaseLocal sessionId session).setSession sessionId
      (queueReconnectSession (withoutLeases session) ACK_DEADLINE_REASON)).releaseScheduledLeaseLocal sessionId
        (withoutLeases session)).forget sessionId

/-- A separate delete of the account lock, whatever it answers. -/
def ackReleaseLock (sessionId : String) (session : SessionRow) (db : Db) : Db :=
  match session.providerAccountLease with
  | some l => (transact (releaseProviderAccountLeaseItems l.concurrencyId sessionId l.attemptId) db).state db
  | none => db

/-- One record of the durable pass; an error ends it. -/
def ackTurnDurable (nowMs : Timestamp) (x : AckPass) (e : String × PendingAck) : AckPass :=
  let (sessionId, pending) := e
  if x.error.isSome || !pending.due x.state.ackDeadlineMs nowMs then x
  else
    match (x.state.sessions sessionId).filter pending.matchesSession with
    | none => { x with state := x.state.forget sessionId }
    | some session =>
      match ackWrite sessionId pending session x.db with
      | (.ok true, db) =>
        { x with
          state := ackSettled x.state sessionId pending session
          db := ackReleaseLock sessionId session db
          requeued := x.requeued ++ [sessionId] }
      | (.ok false, db) => { x with state := x.state.forget sessionId, db := db }
      | (.error error, db) => { x with db := db, error := some error }

/-- The durable requeue; `page` is the recovery page. -/
def enforceAckDeadlinesDurable (st : ControlPlaneState) (page : List (String × SessionRow)) (db : Db)
    (nowMs : Timestamp) : AckPass :=
  let st := recoverPendings page st
  st.pendingAcks.entries.foldl (ackTurnDurable nowMs) { state := st, db := db }

end AutoHarness.Plane

import AutoHarness.Foundation.Transition
import AutoHarness.Plane.Status
import AutoHarness.Store.Cancel
import AutoHarness.Store.Keys

/-! The control plane as a transition system over the durable store. A step is one request of one process: a writer's
transaction, with options computed from a row read earlier, or one request of a create call. What a step may pass is
what the callers promise. -/

namespace AutoHarness.Protocol
open Foundation Store Plane

/-! ## Requests -/

/-- What acknowledgements, command starts, reconnects and log bookkeeping write; it decides no ownership. -/
structure SessionNotes where
  assignmentSentAt : Option Timestamp := none
  ackReceivedAt : Option Timestamp := none
  assignmentConnectionId : Option String := none
  reconnectDeadlineAt : Option Timestamp := none
  primaryCommandStartState : Option CommandStartState := none
  terminalHookLifecycleEnqueuedAt : Option Timestamp := none

def SessionNotes.apply (n : SessionNotes) (r : SessionRow) : SessionRow :=
  { r with
    assignmentSentAt := n.assignmentSentAt
    ackReceivedAt := n.ackReceivedAt
    assignmentConnectionId := n.assignmentConnectionId
    reconnectDeadlineAt := n.reconnectDeadlineAt
    primaryCommandStartState := n.primaryCommandStartState
    terminalHookLifecycleEnqueuedAt := n.terminalHookLifecycleEnqueuedAt }

def SessionNotes.keeps (n : SessionNotes) (r : SessionRow) : Bool :=
  !r.mainCheckoutLease || (given n.assignmentConnectionId).isSome

/-- `read` is the row the caller's options come from; `cleanup` and `activity` are drain members read before. -/
inductive WriteOp where
  | cancelQueued (read : SessionRow) (o : CancelQueuedOpts) (activity : Option (DrainScope × DrainRecord))
  | expireQueued (read : SessionRow) (o : ExpireQueuedOpts) (activity : Option (DrainScope × DrainRecord))
  | cancelRunning (o : CancelRunningOpts)
  | cancelRunningMainCheckout (o : CancelRunningOpts) (deadlineAt : Timestamp)
  | requeue (c : RequeueCall)
  | requeueUsageLimited (read : SessionRow) (o : UsageLimitOpts) (account : UsageLimitedAccount)
      (worktreeId : String)
  | requeueUsageLimitedWorkspace (read : SessionRow) (o : UsageLimitOpts) (account : UsageLimitedAccount)
      (workspaceSlotId : String) (slotError : Option String)
  | suppressProviderless (read : SessionRow) (o : UsageLimitOpts) (worktreeId : String) (targetIndex : ℕ)
  | suppressProviderlessWorkspace (read : SessionRow) (o : UsageLimitOpts) (workspaceSlotId : String)
      (targetIndex : ℕ) (slotError : Option String)
  | finish (c : FinishCall) (cleanup : Option (DrainScope × DrainRecord))
  | releaseCancelled (c : ReleaseCancelledCall) (cleanup : Option (DrainScope × DrainRecord))
  | releaseMainCheckout (read : SessionRow) (o : ReleaseMainCheckoutOpts)
      (cleanup : Option (DrainScope × DrainRecord))
  | requeueMainCheckoutUsageLimited (read : SessionRow) (o : MainCheckoutUsageLimitOpts)
  | releaseTimedOutHostAssignment (read : SessionRow) (o : ReleaseTimedOutHostAssignmentOpts)
  | releaseTimedOutProviderAccountLease (read : SessionRow) (o : ReleaseTimedOutProviderAccountLeaseOpts)
  | forceReleaseProviderAccountLease (o : ForceReleaseProviderAccountLeaseOpts)
  | settleHandoff (read : SessionRow) (o : SettleTerminalHookHandoffOpts)
  | expireHandoff (read : SessionRow) (o : ExpireTerminalHookHandoffOpts)
  | note (sessionId : String) (n : SessionNotes)

namespace WriteOp

/-- The transaction it sends. -/
def items : WriteOp → List TransactItem
  | cancelQueued _ o activity => cancelQueuedSessionItems o activity
  | expireQueued _ o activity => expireQueuedSessionItems o activity
  | cancelRunning o => cancelRunningSessionItems o
  | cancelRunningMainCheckout o deadlineAt => cancelRunningMainCheckoutSessionItems o deadlineAt
  | requeue c => tryRequeueSessionItems c.opts
  | requeueUsageLimited _ o account w => requeueUsageLimitedSessionItems o account w
  | requeueUsageLimitedWorkspace _ o account w e => requeueUsageLimitedWorkspaceSessionItems o account w e
  | suppressProviderless _ o w i => suppressProviderlessUsageLimitItems o w i
  | suppressProviderlessWorkspace _ o w i e => suppressProviderlessUsageLimitWorkspaceItems o w i e
  | finish c cleanup => finishSessionItems c.opts cleanup
  | releaseCancelled c cleanup => releaseCancelledSessionWorktreeItems c.opts cleanup
  | releaseMainCheckout _ o cleanup => releaseMainCheckoutSessionItems o cleanup
  | requeueMainCheckoutUsageLimited _ o => requeueMainCheckoutUsageLimitedSessionItems o
  | releaseTimedOutHostAssignment _ o => releaseTimedOutHostAssignmentItems o
  | releaseTimedOutProviderAccountLease _ o => releaseTimedOutProviderAccountLeaseItems o
  | forceReleaseProviderAccountLease o => forceReleaseProviderAccountLeaseItems o
  | settleHandoff _ o => settleTerminalHookHandoffItems o
  | expireHandoff _ o => expireTerminalHookHandoffItems o
  | note s n => [sessionWrite s (fun row => row.any n.keeps) (fun row => row.map n.apply)]

def sessionId : WriteOp → String
  | cancelQueued _ o _ => o.sessionId
  | expireQueued _ o _ => o.sessionId
  | cancelRunning o => o.sessionId
  | cancelRunningMainCheckout o _ => o.sessionId
  | requeue c => c.sessionId
  | requeueUsageLimited _ o _ _ => o.sessionId
  | requeueUsageLimitedWorkspace _ o _ _ _ => o.sessionId
  | suppressProviderless _ o _ _ => o.sessionId
  | suppressProviderlessWorkspace _ o _ _ _ => o.sessionId
  | finish c _ => c.sessionId
  | releaseCancelled c _ => c.sessionId
  | releaseMainCheckout _ o _ => o.sessionId
  | requeueMainCheckoutUsageLimited _ o => o.sessionId
  | releaseTimedOutHostAssignment _ o => o.sessionId
  | releaseTimedOutProviderAccountLease _ o => o.sessionId
  | forceReleaseProviderAccountLease o => o.sessionId
  | settleHandoff _ o => o.sessionId
  | expireHandoff _ o => o.sessionId
  | note s _ => s

/-- The row it was decided on. -/
def read : WriteOp → Option SessionRow
  | cancelQueued r _ _ => some r
  | expireQueued r _ _ => some r
  | cancelRunning _ => none
  | cancelRunningMainCheckout _ _ => none
  | requeue c => some c.read
  | requeueUsageLimited r _ _ _ => some r
  | requeueUsageLimitedWorkspace r _ _ _ _ => some r
  | suppressProviderless r _ _ _ => some r
  | suppressProviderlessWorkspace r _ _ _ _ => some r
  | finish c _ => some c.read
  | releaseCancelled c _ => some c.read
  | releaseMainCheckout r _ _ => some r
  | requeueMainCheckoutUsageLimited r _ => some r
  | releaseTimedOutHostAssignment r _ => some r
  | releaseTimedOutProviderAccountLease r _ => some r
  | forceReleaseProviderAccountLease _ => none
  | settleHandoff r _ => some r
  | expireHandoff r _ => some r
  | note _ _ => none

def passesLeases (r : SessionRow) (o : UsageLimitOpts) : Bool :=
  o.providerAccountLease == r.providerAccountLease && o.hostAssignmentLease == r.hostAssignmentLease

def disposes (r : SessionRow) (handoffId : String) (worktreeId mainCheckoutRepositoryId : Option String) : Bool :=
  r.terminalHookHandoff.any fun h => h.handoffId == handoffId && h.worktreeId == worktreeId &&
    h.mainCheckoutLease == (given mainCheckoutRepositoryId).isSome

/-- What the caller has found in the row it read. -/
def promised : WriteOp → Bool
  | cancelQueued r o _ => o.concurrencyId == r.concurrencyId
  | expireQueued r o _ => o.concurrencyId == r.concurrencyId
  | requeue c => c.guard
  | requeueUsageLimited r o _ _ => passesLeases r o
  | requeueUsageLimitedWorkspace r o _ _ _ => passesLeases r o
  | suppressProviderless r o _ _ => passesLeases r o
  | suppressProviderlessWorkspace r o _ _ _ => passesLeases r o
  | finish c _ => c.guard
  | releaseCancelled c _ => c.guard
  | releaseMainCheckout r o _ =>
    (o.providerAccountLease.isNone || o.providerAccountLease == r.providerAccountLease) &&
      (o.hostAssignmentLease.isNone || o.hostAssignmentLease == r.hostAssignmentLease) &&
      (o.concurrencyId.isNone || o.concurrencyId == r.concurrencyId) && o.status != .running &&
      (((!o.preserveProviderAccountLease && !o.preserveHostAssignmentLease) || o.status == .timedOut) &&
        o.terminalHookHandoff.all fun h => h.mainCheckoutLease && o.status.isTerminal) &&
      (o.expectedStatus.getD .running == .running || o.expectedStatus == some o.status)
  | requeueMainCheckoutUsageLimited r o => passesLeases r o.toUsageLimitOpts
  | releaseTimedOutHostAssignment r o =>
    r.providerAccountLease.isNone && o.hostAssignmentLease == r.hostAssignmentLease &&
      r.timedOutHostId == some o.hostId && r.attemptId == some o.attemptId
  | releaseTimedOutProviderAccountLease r o =>
    o.hostAssignmentLease == r.hostAssignmentLease &&
      r.providerAccountLease.any fun l => l.concurrencyId == o.concurrencyId && l.attemptId == o.attemptId
  | settleHandoff r o => disposes r o.handoffId o.worktreeId o.mainCheckoutRepositoryId
  | expireHandoff r o => disposes r o.handoffId o.worktreeId o.mainCheckoutRepositoryId
  | _ => true

/-- The handoff it stores. -/
def stored : WriteOp → Option TerminalHookHandoff
  | finish c _ => c.opts.terminalHookHandoff
  | releaseMainCheckout _ o _ => o.terminalHookHandoff
  | _ => none

end WriteOp

structure Catalog where
  providerAccounts : String → Option ProviderAccountRow
  repositories : String → Option RepositoryRow
  workspacePools : String → Bool
  hostInventories : String → Option HostInventoryRow
  connections : String → Option ConnectionRow
  users : String → Bool
  integrations : String → Option IntegrationRow
  sessionDrains : DrainScope × DrainRecord → Option DrainRow

inductive Op where
  | createBegin (call : ℕ) (o : CreateOpts)
  | createStep (call : ℕ)
  | createPlain (o : CreateOpts)
  | assignWorktree (o : AssignSessionOpts)
  | assignMainCheckout (o : AssignMainCheckoutOpts)
  | assignWorkspace (o : AssignWorkspaceOpts)
  | write (op : WriteOp)
  | releaseProviderAccountLease (sessionId : String) (read : SessionRow) (lease : ProviderAccountLease)
  | putTimedOut (sessionId : String) (read : SessionRow)
  | hostLink (hostId : String) (connectionId : Option String) (disconnected draining : Option Bool)
  | worktreeLink (worktreeId : String) (online : Bool) (connectionId : Option String)
  | marker (key : String) (row : Option Timestamp)
  | catalog (tables : Catalog)

/-! ## The world -/

/-- A create call with a concurrency id: its options, the id, and where it stands. -/
structure CreateCall where
  opts : CreateOpts
  concurrencyId : String
  pc : CreatePc

/-- The store, its earlier states, the create calls in flight, and the ids handed out so far. -/
structure World where
  db : Db
  past : List Db := []
  calls : ℕ → Option CreateCall := fun _ => none
  attempts : List String := []
  handoffs : List String := []

namespace World

/-- Some process has read row `r` of session `s`, now or earlier. -/
def hasRead (w : World) (s : String) (r : SessionRow) : Bool :=
  (w.db :: w.past).any fun d => d.sessions s == some r

end World

/-- A row as the ingresses build it. -/
def SessionRow.isNew (r : SessionRow) : Bool :=
  r.status == .queued && r.worktreeId == .null && r.workspaceSlotId.toOption.isNone && !r.mainCheckoutLease &&
    r.attemptId.isNone && r.providerAccountLease.isNone && r.hostAssignmentLease.isNone &&
    r.terminalHookHandoff.isNone && r.cancelledByDrainOperationId.isNone

/-- A fresh id; named host and connection; a lease for that attempt and the account of its route; and the host it runs
on. -/
def attemptPromised (w : World) (o : AssignmentOpts) : Bool :=
  (!w.attempts.contains o.attemptId && o.hostId != "" && o.connectionId != "") && o.lease == ⟨o.hostId⟩ &&
    o.providerAccountLease.all fun l =>
      l.attemptId == o.attemptId && l.providerAccountId != "" && o.providerAccountId == some l.providerAccountId &&
        l.concurrencyId == providerAccountLeaseConcurrencyId l.providerAccountId l.slot

namespace Op

def allowed (w : World) : Op → Bool
  | createBegin n o =>
    (w.calls n).isNone && SessionRow.isNew o.session && (given o.session.concurrencyId).any creatableConcurrencyId
  | createStep n => (w.calls n).isSome
  | createPlain o => SessionRow.isNew o.session && o.session.concurrencyId.isNone
  | assignWorktree o => attemptPromised w o.toAssignmentOpts
  | assignMainCheckout o => attemptPromised w o.toAssignmentOpts
  | assignWorkspace o => attemptPromised w o.toAssignmentOpts && o.workspaceSlotId != ""
  | write op => op.read.all (w.hasRead op.sessionId) && op.promised &&
      op.stored.all fun h => !w.handoffs.contains h.handoffId
  | releaseProviderAccountLease s r l => w.hasRead s r && r.providerAccountLease == some l
  | putTimedOut s r => w.hasRead s r && r.status == .timedOut && (given r.workspaceSlotId.toOption).isSome
  | hostLink _ _ _ _ => true
  | worktreeLink _ _ _ => true
  | marker _ _ => true
  | catalog _ => true

def items : Op → List TransactItem
  | createPlain o => createSessionItems o
  | assignWorktree o => tryAssignSessionItems o
  | assignMainCheckout o => tryAssignMainCheckoutSessionItems o
  | assignWorkspace o => tryAssignWorkspaceSessionItems o
  | write op => op.items
  | releaseProviderAccountLease s _ l => releaseProviderAccountLeaseItems l.concurrencyId s l.attemptId
  | putTimedOut s r => putTimedOutItems s r
  | hostLink h k d e => [hostLockWrite h (fun _ => true) fun row =>
      some { row.getD {} with connectionId := k, disconnected := d, draining := e }]
  | worktreeLink id online k => [worktreeWrite id Option.isSome fun row =>
      row.map fun x => { x with online := online, connectionId := k }]
  | marker key row => [lockWrite ("catalog-delete:" ++ key) (fun _ => true) fun _ =>
      row.map fun t => { expiresAt := some t }]
  | _ => []

def attempt : Op → Option String
  | assignWorktree o => some o.attemptId
  | assignMainCheckout o => some o.attemptId
  | assignWorkspace o => some o.attemptId
  | _ => none

def handoff : Op → Option String
  | write op => op.stored.map (·.handoffId)
  | _ => none

end Op

namespace World

/-- The store and the create calls after the operation. -/
def act (w : World) : Op → Db × (ℕ → Option CreateCall)
  | .createBegin n o =>
    let c := (given o.session.concurrencyId).getD ""
    (w.db, Function.update w.calls n (some ⟨o, c, o.begin c⟩))
  | .createStep n =>
    match w.calls n with
    | some call =>
      let next := createStep call.opts call.concurrencyId call.pc w.db
      (next.2, Function.update w.calls n (some { call with pc := next.1 }))
    | none => (w.db, w.calls)
  | .catalog t =>
    ({ w.db with
        providerAccounts := t.providerAccounts, repositories := t.repositories
        workspacePools := t.workspacePools, hostInventories := t.hostInventories
        connections := t.connections, users := t.users, integrations := t.integrations
        sessionDrains := t.sessionDrains }, w.calls)
  | op => ((transact op.items w.db).state w.db, w.calls)

def apply (w : World) (op : Op) : World where
  db := (w.act op).1
  past := w.db :: w.past
  calls := (w.act op).2
  attempts := op.attempt.toList ++ w.attempts
  handoffs := op.handoff.toList ++ w.handoffs

/-- Worktrees are idle, no lock is taken, no host has a counter. Keys of a table are never empty. -/
structure Fresh (w : World) : Prop where
  past : w.past = []
  calls : ∀ n, w.calls n = none
  sessions : ∀ s, w.db.sessions s = none
  locks : ∀ c, w.db.concurrencyLocks c = none
  worktrees : ∀ i x, w.db.worktrees i = some x → x.status = .idle ∧ x.currentSessionId.toOption = none
  worktreeKey : w.db.worktrees "" = none
  counts : ∀ h, assignmentCount w.db.hostLocks h = none
  checkouts : ∀ h r repo, w.db.hostLocks h = some r → r.mainCheckoutLeases repo = none

end World

/-- The operations of all processes, one request at a time. -/
def plane : System World Op where
  init := World.Fresh
  step w op w' := op.allowed w = true ∧ w' = w.apply op

/-! ## Runs -/

namespace World

/-- Take requests in order, as long as each is allowed and meets `ok`. -/
def run (ok : World → Op → Bool) (w : World) : List Op → Option World
  | [] => some w
  | op :: ops => if op.allowed w && ok w op then (w.apply op).run ok ops else none

/-- The last world of a run is reachable in the system restricted to `ok`. -/
theorem reachable_of_run {ok : World → Op → Bool} {w w' : World} {ops : List Op}
    (hw : (plane.restrict fun w op => ok w op = true).Reachable w) (hrun : w.run ok ops = some w') :
    (plane.restrict fun w op => ok w op = true).Reachable w' := by
  induction ops generalizing w with
  | nil =>
    cases hrun
    exact hw
  | cons op ops ih =>
    simp only [run] at hrun
    split at hrun
    · rename_i h
      rw [Bool.and_eq_true] at h
      exact ih (.step hw ⟨h.2, h.1, rfl⟩) hrun
    · cases hrun

theorem exists_reachable_of_run (ok : World → Op → Bool) (ops : List Op) (p : World → Bool) {w : World}
    (hw : w.Fresh) (hrun : (w.run ok ops).any p = true) :
    ∃ w', (plane.restrict fun w op => ok w op = true).Reachable w' ∧ p w' = true := by
  rw [Option.any_eq_true] at hrun
  obtain ⟨w', hw', hp⟩ := hrun
  exact ⟨w', reachable_of_run (.init hw) hw', hp⟩

end World

/-! ## A small deployment -/

def smallDb : Db where
  worktrees i := if i = "w1" || i = "w2" then some { hostId := "h1", repositoryId := "repo" } else none
  workspaceSlots i := if i = "slot1" then some { hostId := "h1", workspacePoolId := "pool" } else none
  hostLocks h := if h = "h1" then some { connectionId := some "k1" } else none
  providerAccounts a := if a = "acct" then some { providerId := "provider" } else none
  repositories _ := some {}
  workspacePools _ := true

def smallWorld : World := { db := smallDb }

theorem smallWorld_fresh : smallWorld.Fresh where
  past := rfl
  calls _ := rfl
  sessions _ := rfl
  locks _ := rfl
  worktrees i x h := by
    simp only [smallWorld, smallDb] at h
    split at h
    · cases h
      exact ⟨rfl, rfl⟩
    · cases h
  worktreeKey := rfl
  counts h := by
    simp only [smallWorld, smallDb, assignmentCount]
    split <;> rfl
  checkouts h r repo hr := by
    simp only [smallWorld, smallDb] at hr
    split at hr
    · cases hr
      rfl
    · cases hr

/-- A run of the small deployment reaches a row that meets `P`. -/
theorem exists_row_of_run (ops : List Op) {s : String} {P : World → SessionRow → Prop} [∀ w r, Decidable (P w r)]
    (hrun : (smallWorld.run (fun _ _ => true) ops).any (fun w => (w.db.sessions s).any fun r => P w r) = true) :
    ∃ w r, plane.Reachable w ∧ w.db.sessions s = some r ∧ P w r := by
  obtain ⟨w, hw, hp⟩ := World.exists_reachable_of_run _ ops _ smallWorld_fresh hrun
  simp only [Option.any_eq_true, decide_eq_true_eq] at hp
  obtain ⟨r, hr, hp⟩ := hp
  exact ⟨w, r, hw.of_restrict, hr, hp⟩

end AutoHarness.Protocol

import AutoHarness.Store.Release

/-! Releases of capacity apart from a claim: what a timeout preserved, the forced release of a provider-account slot,
and the plain delete of a slot's lock. -/

namespace AutoHarness.Store
open Foundation Option

/-! ## Capacity preserved by a timeout -/

/-- The row once the capacity of a timed-out session is given back. -/
def SessionRow.timedOutReleased (result : Option SessionResult) (r : SessionRow) : SessionRow :=
  { r with
    result := r.result.or result
    timedOutHostId := none
    timedOutAssignmentConnectionId := none
    hostAssignmentLease := none
    activeHostId := none }

structure ReleaseTimedOutHostAssignmentOpts where
  sessionId : String
  attemptId : String
  hostId : String
  hostAssignmentLease : Option HostAssignmentLease := none
  result : Option SessionResult := none

def releaseTimedOutHostAssignmentItems (o : ReleaseTimedOutHostAssignmentOpts) : List TransactItem :=
  [sessionWrite o.sessionId
     (fun row => row.any fun r => r.status == .timedOut && r.timedOutHostId == some o.hostId &&
       r.attemptId == some o.attemptId)
     (fun row => row.map (SessionRow.timedOutReleased o.result))] ++
  hostAssignmentReleaseItems o.hostAssignmentLease

/-- The session row's own lease is not part of the condition. -/
def releaseTimedOutHostAssignment (o : ReleaseTimedOutHostAssignmentOpts) (db : Db) :
    Except StoreError Bool × Db :=
  commitOrFalse (releaseTimedOutHostAssignmentItems o) db

structure ReleaseTimedOutProviderAccountLeaseOpts where
  sessionId : String
  concurrencyId : String
  attemptId : String
  hostAssignmentLease : Option HostAssignmentLease := none
  result : Option SessionResult := none

def releaseTimedOutProviderAccountLeaseItems (o : ReleaseTimedOutProviderAccountLeaseOpts) : List TransactItem :=
  [sessionWrite o.sessionId
     (fun row => row.any fun r => r.status == .timedOut && r.providerAccountLease.any fun l =>
       l.concurrencyId == o.concurrencyId && l.attemptId == o.attemptId)
     (fun row => row.map fun r => { r.timedOutReleased o.result with providerAccountLease := none }),
   providerAccountLeaseDeleteItem o.concurrencyId o.sessionId o.attemptId] ++
  hostAssignmentReleaseItems o.hostAssignmentLease

def releaseTimedOutProviderAccountLease (o : ReleaseTimedOutProviderAccountLeaseOpts) (db : Db) :
    Except StoreError Bool × Db :=
  commitOrFalse (releaseTimedOutProviderAccountLeaseItems o) db

variable {db db' : Db}

theorem timedOutHost_committed {o : ReleaseTimedOutHostAssignmentOpts}
    (h : transact (releaseTimedOutHostAssignmentItems o) db = .committed db') :
    ∃ r, db.sessions o.sessionId = some r ∧ r.status = .timedOut ∧ r.timedOutHostId = some o.hostId ∧
      r.attemptId = some o.attemptId ∧
      (∀ l, o.hostAssignmentLease = some l → ∀ n, assignmentCount db.hostLocks l.hostId = some n → 1 ≤ n) ∧
      db' = { db with
        sessions := Function.update db.sessions o.sessionId (some (r.timedOutReleased o.result))
        hostLocks := hostLocksReleased o.hostAssignmentLease db.hostLocks } := by
  obtain ⟨-, hr, rfl⟩ := committed_iff.mp h
  simp only [releaseTimedOutHostAssignmentItems, ready_append, ready_cons, ready_nil, and_true,
    sessionWrite_holds, any_eq_true, Bool.and_eq_true, beq_iff_eq, ready_hostRelease] at hr
  obtain ⟨⟨r, hrow, ⟨hst, hh⟩, ha⟩, hc⟩ := hr
  exact ⟨r, hrow, hst, hh, ha, hc, by simp [releaseTimedOutHostAssignmentItems, hrow]⟩

theorem timedOutAccount_committed {o : ReleaseTimedOutProviderAccountLeaseOpts}
    (h : transact (releaseTimedOutProviderAccountLeaseItems o) db = .committed db') :
    ∃ r l, db.sessions o.sessionId = some r ∧ r.status = .timedOut ∧ r.providerAccountLease = some l ∧
      l.concurrencyId = o.concurrencyId ∧ l.attemptId = o.attemptId ∧
      (∀ x, db.concurrencyLocks o.concurrencyId = some x → x.ownedBy o.sessionId o.attemptId = true) ∧
      (∀ l, o.hostAssignmentLease = some l → ∀ n, assignmentCount db.hostLocks l.hostId = some n → 1 ≤ n) ∧
      db' = { db with
        sessions := Function.update db.sessions o.sessionId
          (some { r.timedOutReleased o.result with providerAccountLease := none })
        concurrencyLocks := locksReleased (some o.concurrencyId) db.concurrencyLocks
        hostLocks := hostLocksReleased o.hostAssignmentLease db.hostLocks } := by
  obtain ⟨-, hr, rfl⟩ := committed_iff.mp h
  simp only [releaseTimedOutProviderAccountLeaseItems, ready_append, ready_cons, ready_nil, and_true,
    sessionWrite_holds, any_eq_true, Bool.and_eq_true, beq_iff_eq, providerAccountLeaseDeleteItem,
    lockWrite_holds, all_eq_true, ready_hostRelease] at hr
  obtain ⟨⟨⟨r, hrow, hst, l, hl, hk, ha⟩, hlock⟩, hc⟩ := hr
  exact ⟨r, l, hrow, hst, hl, hk, ha, hlock, hc, by
    simp [releaseTimedOutProviderAccountLeaseItems, providerAccountLeaseDeleteItem, hrow, locksReleased]⟩

/-! ## A provider-account slot on its own -/

def releaseProviderAccountLeaseItems (concurrencyId sessionId attemptId : String) : List TransactItem :=
  [providerAccountLeaseDeleteItem concurrencyId sessionId attemptId]

structure ForceReleaseProviderAccountLeaseOpts where
  providerAccountId : String
  slot : ℕ
  concurrencyId : String
  sessionId : String
  attemptId : String

namespace ForceReleaseProviderAccountLeaseOpts

/-- The session has ended and holds nothing but the slot of this attempt. -/
def condition (o : ForceReleaseProviderAccountLeaseOpts) (r : SessionRow) : Bool :=
  r.status.isTerminal &&
  (r.attemptId == some o.attemptId ||
    (r.attemptId.isNone && r.resolvedRoute.any (fun t => t.attemptId == o.attemptId))) &&
  r.worktreeId.toOption.isNone && !r.mainCheckoutLease && r.assignmentConnectionId.isNone &&
  r.hostAssignmentLease.isNone && r.timedOutHostId.isNone && r.timedOutAssignmentConnectionId.isNone &&
  r.providerAccountLease == some ⟨o.concurrencyId, o.providerAccountId, o.slot, o.attemptId⟩

def lockCondition (o : ForceReleaseProviderAccountLeaseOpts) (l : LockRow) : Bool :=
  l.providerAccountId == some o.providerAccountId && l.slot == some o.slot && l.ownedBy o.sessionId o.attemptId

end ForceReleaseProviderAccountLeaseOpts

/-- Free a slot that an ended session kept. -/
def forceReleaseProviderAccountLeaseItems (o : ForceReleaseProviderAccountLeaseOpts) : List TransactItem :=
  [.check (.providerAccount o.providerAccountId) fun db => (db.providerAccounts o.providerAccountId).isSome,
   sessionWrite o.sessionId (fun row => row.any o.condition)
     (fun row => row.map fun r => { r with providerAccountLease := none }),
   lockWrite o.concurrencyId (fun row => row.any o.lockCondition) (fun _ => none)]

theorem releaseAccount_committed {c s a : String}
    (h : transact (releaseProviderAccountLeaseItems c s a) db = .committed db') :
    (∀ x, db.concurrencyLocks c = some x → x.ownedBy s a = true) ∧
      db' = { db with concurrencyLocks := locksReleased (some c) db.concurrencyLocks } := by
  obtain ⟨-, hr, rfl⟩ := committed_iff.mp h
  simp only [releaseProviderAccountLeaseItems, providerAccountLeaseDeleteItem, ready_cons, ready_nil, and_true,
    lockWrite_holds, all_eq_true] at hr
  exact ⟨hr, by simp [releaseProviderAccountLeaseItems, providerAccountLeaseDeleteItem, locksReleased]⟩

theorem forceRelease_committed {o : ForceReleaseProviderAccountLeaseOpts}
    (h : transact (forceReleaseProviderAccountLeaseItems o) db = .committed db') :
    ∃ r x, db.sessions o.sessionId = some r ∧ r.status.isTerminal = true ∧
      r.worktreeId.toOption = none ∧ r.hostAssignmentLease = none ∧
      r.providerAccountLease = some ⟨o.concurrencyId, o.providerAccountId, o.slot, o.attemptId⟩ ∧
      db.concurrencyLocks o.concurrencyId = some x ∧ x.ownedBy o.sessionId o.attemptId = true ∧
      db' = { db with
        sessions := Function.update db.sessions o.sessionId (some { r with providerAccountLease := none })
        concurrencyLocks := locksReleased (some o.concurrencyId) db.concurrencyLocks } := by
  obtain ⟨-, hr, rfl⟩ := committed_iff.mp h
  simp only [forceReleaseProviderAccountLeaseItems, ready_cons, ready_nil, and_true, sessionWrite_holds,
    lockWrite_holds, any_eq_true, ForceReleaseProviderAccountLeaseOpts.condition,
    ForceReleaseProviderAccountLeaseOpts.lockCondition, Bool.and_eq_true, beq_iff_eq, isNone_iff_eq_none] at hr
  obtain ⟨-, ⟨r, hrow, hc, hl⟩, x, hx, -, hown⟩ := hr
  exact ⟨r, x, hrow, hc.1.1.1.1.1.1.1, hc.1.1.1.1.1.2, hc.1.1.2, hl, hx, hown, by
    simp [forceReleaseProviderAccountLeaseItems, hrow, locksReleased]⟩

end AutoHarness.Store

import AutoHarness.Protocol.World

/-! What one step can do. A writer is described by what it requires of its row, makes of it, and gives back;
`WriteOp.wrote` says that a committed transaction does exactly that. -/

namespace AutoHarness.Protocol
open Foundation Store Plane
open HostLockRow (released connectionId mainCheckoutReleased)

/-! ## Writers -/

/-- The lock row a release is entitled to: a key and the attempt that owns it. -/
structure LeaseRef where
  concurrencyId : String
  attemptId : String
deriving DecidableEq

def leaseRef (l : ProviderAccountLease) : LeaseRef := ⟨l.concurrencyId, l.attemptId⟩

/-- What a writer requires of the session row, what it makes of it, and what it gives back. -/
structure Writer where
  sessionId : String
  cond : SessionRow → Bool
  next : SessionRow → SessionRow
  worktree : Option String := none
  lock : Option String := none
  lease : Option LeaseRef := none
  host : Option HostAssignmentLease := none

def usageLimitWriter (o : UsageLimitOpts) (cond : SessionRow → Bool) (next : SessionRow → SessionRow) : Writer where
  sessionId := o.sessionId
  cond := cond
  next := next
  lease := o.providerAccountLease.map leaseRef
  host := o.hostAssignmentLease

def WriteOp.writer : WriteOp → Writer
  | cancelQueued _ o _ =>
    { sessionId := o.sessionId, cond := fun r => r.status == .queued, next := o.cancelled
      lock := given o.concurrencyId }
  | expireQueued _ o _ =>
    { sessionId := o.sessionId, cond := fun r => r.status == .queued, next := o.expired
      lock := given o.concurrencyId }
  | cancelRunning o => { sessionId := o.sessionId, cond := o.assignment, next := o.cancelled }
  | cancelRunningMainCheckout o deadlineAt =>
    { sessionId := o.sessionId, cond := o.assignment
      next := fun r => { o.cancelled r with reconnectDeadlineAt := some deadlineAt } }
  | requeue c =>
    { sessionId := c.opts.sessionId, cond := c.opts.condition, next := c.opts.requeued
      worktree := some c.opts.worktreeId, lease := c.opts.providerAccountLease.map leaseRef
      host := c.opts.hostAssignmentLease }
  | requeueUsageLimited _ o _ w =>
    { usageLimitWriter o (runningOnWorktree w o.attemptId)
        fun r => { r.usageLimited (o.errorMessage.getD "provider usage limit; requeued") with
          sessionApiKeyHash := none, result := none } with
      worktree := some w }
  | requeueUsageLimitedWorkspace _ o _ w _ =>
    usageLimitWriter o (runningOnSlot w o.attemptId)
      fun r => { r.usageLimited (o.errorMessage.getD "provider usage limit; requeued") with
        workspaceSlotId := .null, workspaceSlotLease := false }
  | suppressProviderless _ o w i =>
    { usageLimitWriter o (runningOnWorktree w o.attemptId)
        fun r => { r.usageLimited (o.errorMessage.getD "providerless usage limit; trying fallback") with
          suppressedTargetIndexes := r.suppressedTargetIndexes ++ [i]
          sessionApiKeyHash := none, result := none } with
      worktree := some w }
  | suppressProviderlessWorkspace _ o w i _ =>
    usageLimitWriter o (runningOnSlot w o.attemptId)
      fun r => { r.usageLimited (o.errorMessage.getD "providerless usage limit; trying fallback") with
        suppressedTargetIndexes := r.suppressedTargetIndexes ++ [i]
        workspaceSlotId := .null, workspaceSlotLease := false, result := none }
  | finish c _ =>
    { sessionId := c.opts.sessionId, cond := c.opts.condition, next := c.opts.finished
      worktree := c.opts.freedWorktree, lock := given c.opts.deletedLock
      lease := c.opts.deletedLease.map leaseRef, host := c.opts.hostAssignmentLease }
  | releaseCancelled c cleanup =>
    { sessionId := c.opts.sessionId, cond := c.opts.condition cleanup.isSome, next := c.opts.released
      worktree := some c.opts.worktreeId, lock := given c.opts.concurrencyId
      lease := c.opts.providerAccountLease.map leaseRef, host := c.opts.hostAssignmentLease }
  | releaseMainCheckout _ o cleanup =>
    { sessionId := o.sessionId, cond := o.condition cleanup.isSome, next := o.released
      lock := given o.deletedLock, lease := o.deletedLease.map leaseRef
      host := o.hostAssignmentLease.map fun _ => ⟨o.hostId⟩ }
  | requeueMainCheckoutUsageLimited _ o =>
    { usageLimitWriter o.toUsageLimitOpts
        (fun r => r.status == .running && r.hostId == .value o.hostId && r.mainCheckoutLease &&
          r.attemptId == some o.attemptId)
        (fun r => { r.usageLimited (o.errorMessage.getD "provider usage limit; requeued") with
          mainCheckoutLease := false, sessionApiKeyHash := none, result := none }) with
      host := o.hostAssignmentLease.map fun _ => ⟨o.hostId⟩ }
  | releaseTimedOutHostAssignment _ o =>
    { sessionId := o.sessionId
      cond := fun r => r.status == .timedOut && r.timedOutHostId == some o.hostId && r.attemptId == some o.attemptId
      next := SessionRow.timedOutReleased o.result, host := o.hostAssignmentLease }
  | releaseTimedOutProviderAccountLease _ o =>
    { sessionId := o.sessionId
      cond := fun r => r.status == .timedOut && r.providerAccountLease.any fun l =>
        l.concurrencyId == o.concurrencyId && l.attemptId == o.attemptId
      next := fun r => { r.timedOutReleased o.result with providerAccountLease := none }
      lease := some ⟨o.concurrencyId, o.attemptId⟩, host := o.hostAssignmentLease }
  | forceReleaseProviderAccountLease o =>
    { sessionId := o.sessionId
      cond := fun r => r.status.isTerminal && r.hostAssignmentLease.isNone &&
        r.providerAccountLease == some ⟨o.concurrencyId, o.providerAccountId, o.slot, o.attemptId⟩
      next := fun r => { r with providerAccountLease := none }
      lease := some ⟨o.concurrencyId, o.attemptId⟩ }
  | settleHandoff _ o =>
    { sessionId := o.sessionId
      cond := fun r => r.terminalHookHandoff.any fun h => h.handoffId == o.handoffId
      next := fun r =>
        { r.withoutHandoff (given o.mainCheckoutRepositoryId).isSome with
          terminalHookHandoffSettled := some ⟨o.handoffId, o.hostId⟩
          result := r.result.or o.result }
      worktree := given o.worktreeId }
  | expireHandoff _ o =>
    { sessionId := o.sessionId
      cond := fun r => r.terminalHookHandoff.any fun h => h.handoffId == o.handoffId
      next := fun r =>
        { r.withoutHandoff (given o.mainCheckoutRepositoryId).isSome with
          terminalHookHandoffExpiredAt := some o.expiresAt }
      worktree := given o.worktreeId }
  | note s n => { sessionId := s, cond := n.keeps, next := n.apply }

theorem WriteOp.writer_sessionId (op : WriteOp) : op.writer.sessionId = op.sessionId := by
  cases op with
  | requeue c | finish c cleanup | releaseCancelled c cleanup => exact c.opts_sessionId
  | _ => rfl

/-- A committed transaction of writer `x` on row `r`. -/
structure Wrote (x : Writer) (db db' : Db) (r : SessionRow) : Prop where
  row : db.sessions x.sessionId = some r
  cond : x.cond r = true
  sessions : db'.sessions = Function.update db.sessions x.sessionId (some (x.next r))
  worktrees : ∃ set, db'.worktrees = worktreesReleased x.worktree set db.worktrees
  worktreeOwned : ∀ i, x.worktree = some i →
    ∃ y, db.worktrees i = some y ∧ y.currentSessionId = .value x.sessionId
  locks : db'.concurrencyLocks =
    locksReleased (x.lease.map (·.concurrencyId)) (locksReleased x.lock db.concurrencyLocks)
  lockOwned : ∀ c, x.lock = some c → ∀ y, db.concurrencyLocks c = some y → y.sessionId = some x.sessionId
  leaseOwned : ∀ l, x.lease = some l → ∀ y, db.concurrencyLocks l.concurrencyId = some y →
    y.ownedBy x.sessionId l.attemptId = true
  counts : ∀ h, assignmentCount db'.hostLocks h =
    if x.host = some ⟨h⟩ then some ((assignmentCount db.hostLocks h).getD 1 - 1)
    else assignmentCount db.hostLocks h
  countPos : ∀ l, x.host = some l → ∀ n, assignmentCount db.hostLocks l.hostId = some n → 1 ≤ n
  connections : ∀ h, (db'.hostLocks h).bind HostLockRow.connectionId = (db.hostLocks h).bind HostLockRow.connectionId

/-! ## Host locks after a release -/

theorem count_released (lease : Option HostAssignmentLease)
    (t : String → Option HostLockRow) (h : String) : assignmentCount (hostLocksReleased lease t) h =
      if lease = some ⟨h⟩ then some ((assignmentCount t h).getD 1 - 1) else assignmentCount t h := by
  cases lease with
  | none => simp
  | some l =>
    by_cases hl : h = l.hostId
    · subst hl
      cases hr : t l.hostId <;> simp [hostLocksReleased, assignmentCount, released, hr]
    · have hne : (some l : Option HostAssignmentLease) ≠ some ⟨h⟩ := by
        rintro ⟨rfl⟩
        exact hl rfl
      simp [hostLocksReleased, assignmentCount, hl, hne]

theorem connection_released (lease : Option HostAssignmentLease) (t : String → Option HostLockRow) (h : String) :
    (hostLocksReleased lease t h).bind connectionId = (t h).bind connectionId := by
  cases lease with
  | none => rfl
  | some l =>
    by_cases hl : h = l.hostId
    · subst hl
      cases hr : t l.hostId <;> simp [hostLocksReleased, released, hr]
    · simp [hostLocksReleased, hl]

variable {repo s h k : String} {lease : Option HostAssignmentLease} {t : String → Option HostLockRow} {hl : HostLockRow}
  {retain : Bool} {db db' : Db}

theorem count_checkoutReleased
    (ht : t h = some hl) (hrel : hl.mainCheckoutReleasable repo s k lease = true) (h' : String) :
    assignmentCount (Function.update t h (some (hl.mainCheckoutReleased retain repo lease))) h' =
      if lease.map (fun _ => (⟨h⟩ : HostAssignmentLease)) = some ⟨h'⟩ then
        some ((assignmentCount t h').getD 1 - 1) else assignmentCount t h' := by
  by_cases he : h' = h
  · subst he
    cases lease with
    | none => simp [assignmentCount, ht, mainCheckoutReleased, HostLockRow.withoutMainCheckout]
    | some l =>
      obtain ⟨n, hn, -⟩ := (checkoutReleasable_iff.mp hrel).2 (by simp)
      simp [assignmentCount, ht, mainCheckoutReleased, hn]
  · have hne : lease.map (fun _ => (⟨h⟩ : HostAssignmentLease)) ≠ some ⟨h'⟩ := by
      cases lease with
      | none => simp
      | some l => simpa using fun e => he e.symm
    simp [assignmentCount, he, hne]

theorem connection_checkoutReleased (ht : t h = some hl) (h' : String) :
    ((Function.update t h (some (hl.mainCheckoutReleased retain repo lease))) h').bind connectionId =
      (t h').bind connectionId := by
  by_cases he : h' = h
  · subst he
    cases retain <;>
      simp [ht, mainCheckoutReleased, HostLockRow.withoutMainCheckout]
  · simp [he]

theorem mainCheckout_countPos (ht : t h = some hl)
    (hrel : hl.mainCheckoutReleasable repo s k lease = true) (l : HostAssignmentLease)
    (hhost : lease.map (fun _ => (⟨h⟩ : HostAssignmentLease)) = some l) (n : ℤ)
    (hn : assignmentCount t l.hostId = some n) : 1 ≤ n := by
  cases lease with
  | none => cases hhost
  | some x =>
    cases hhost
    obtain ⟨m, hm, hpos⟩ := (checkoutReleasable_iff.mp hrel).2 (by simp)
    have he : assignmentCount t h = some m := by simp [assignmentCount, ht, hm]
    rw [he] at hn
    cases hn
    exact hpos

/-! ## Every writer -/

theorem leaseOwned_map {lease : Option ProviderAccountLease} {t : String → Option LockRow}
    (h : ∀ l, lease = some l → ∀ y, t l.concurrencyId = some y → y.ownedBy s l.attemptId = true) :
    ∀ l, lease.map leaseRef = some l → ∀ y, t l.concurrencyId = some y → y.ownedBy s l.attemptId = true := by
  intro l hl y hy
  obtain ⟨x, hx, rfl⟩ := Option.map_eq_some_iff.mp hl
  exact h x hx y hy

theorem leaseKey_eq (lease : Option ProviderAccountLease) :
    (lease.map leaseRef).map (·.concurrencyId) = leaseKey lease := by
  cases lease <;> rfl

theorem wrote_row {x : Writer} {r : SessionRow} (hw : x.worktree = none) (hl : x.lock = none)
    (hp : x.lease = none) (hh : x.host = none) (hrow : db.sessions x.sessionId = some r) (hc : x.cond r = true)
    (hs : db'.sessions = Function.update db.sessions x.sessionId (some (x.next r)))
    (hwt : db'.worktrees = db.worktrees) (hlk : db'.concurrencyLocks = db.concurrencyLocks)
    (hhl : db'.hostLocks = db.hostLocks) : Wrote x db db' r where
  row := hrow
  cond := hc
  sessions := hs
  worktrees := ⟨id, by rw [hw, hwt]; rfl⟩
  worktreeOwned i hi := by rw [hw] at hi; cases hi
  locks := by rw [hp, hl, hlk]; rfl
  lockOwned c hi := by rw [hl] at hi; cases hi
  leaseOwned l hi := by rw [hp] at hi; cases hi
  counts h := by rw [hh, hhl]; simp
  countPos l hi := by rw [hh] at hi; cases hi
  connections h := by rw [hhl]

theorem wrote_usageLimit {o : UsageLimitOpts} {account : Option UsageLimitedAccount} {w sl e : Option String}
    {cond : SessionRow → Bool} {next : SessionRow → SessionRow}
    (h : transact (usageLimitItems o account w sl e cond next) db = .committed db') :
    ∃ r, Wrote { usageLimitWriter o cond next with worktree := w } db db' r := by
  obtain ⟨r, hrow, hc, hw, -, hp, hcount, accounts, rfl⟩ := usageLimit_committed h
  exact ⟨r, {
    row := hrow, cond := hc, sessions := rfl, worktrees := ⟨id, rfl⟩, worktreeOwned := hw
    locks := by simp only [usageLimitWriter, leaseKey_eq]; rfl
    lockOwned := nofun
    leaseOwned := leaseOwned_map hp
    counts := count_released _ _
    countPos := hcount
    connections := connection_released _ _ }⟩

namespace WriteOp

variable {cleanup : Option (DrainScope × DrainRecord)} {db db' : Db} {read : SessionRow}

theorem wrote_finish {c : FinishCall} (h : transact (finishSessionItems c.opts cleanup) db = .committed db') :
    ∃ r, Wrote (finish c cleanup).writer db db' r := by
  obtain ⟨r, hrow, hc, -, hready, rfl⟩ := finishSession_committed h
  exact ⟨r, {
    row := hrow, cond := hc, sessions := rfl, worktrees := ⟨id, rfl⟩, worktreeOwned := hready.worktree
    locks := by simp only [writer, leaseKey_eq]; rfl
    lockOwned := fun k hk y hy => by
      obtain ⟨z, hz, hs⟩ := hready.lock k hk
      rw [hz] at hy
      cases hy
      exact hs
    leaseOwned := leaseOwned_map hready.lease
    counts := count_released _ _
    countPos := hready.counter
    connections := connection_released _ _ }⟩

theorem wrote_requeue {c : RequeueCall} (h : transact (tryRequeueSessionItems c.opts) db = .committed db') :
    ∃ r, Wrote (requeue c).writer db db' r := by
  obtain ⟨r, hrow, hc, hready, rfl⟩ := requeueSession_committed h
  exact ⟨r, {
    row := hrow, cond := hc, sessions := rfl, worktrees := ⟨_, rfl⟩
    worktreeOwned := fun i hi => by
      cases hi
      obtain ⟨w, hw, hs, -⟩ := hready.worktree
      exact ⟨w, hw, hs⟩
    locks := by simp only [writer, leaseKey_eq]; rfl
    lockOwned := nofun
    leaseOwned := leaseOwned_map hready.lease
    counts := count_released _ _
    countPos := hready.counter
    connections := connection_released _ _ }⟩

theorem wrote_releaseCancelled {c : ReleaseCancelledCall}
    (h : transact (releaseCancelledSessionWorktreeItems c.opts cleanup) db = .committed db') :
    ∃ r, Wrote (releaseCancelled c cleanup).writer db db' r := by
  obtain ⟨r, hrow, hc, -, hready, rfl⟩ := releaseCancelled_committed h
  exact ⟨r, {
    row := hrow, cond := hc, sessions := rfl, worktrees := ⟨_, rfl⟩
    worktreeOwned := fun i hi => by
      cases hi
      obtain ⟨w, hw, hs, -⟩ := hready.worktree
      exact ⟨w, hw, hs⟩
    locks := by simp only [writer, leaseKey_eq]; rfl
    lockOwned := hready.lock
    leaseOwned := leaseOwned_map hready.lease
    counts := count_released _ _
    countPos := hready.counter
    connections := connection_released _ _ }⟩

theorem wrote_releaseCheckout {o : ReleaseMainCheckoutOpts}
    (h : transact (releaseMainCheckoutSessionItems o cleanup) db = .committed db') :
    ∃ r, Wrote (releaseMainCheckout read o cleanup).writer db db' r := by
  obtain ⟨r, hl, hrow, hc, hhost, hrel, hlock, hp, rfl⟩ := releaseCheckout_committed h
  exact ⟨r, {
    row := hrow, cond := hc, sessions := rfl, worktrees := ⟨id, rfl⟩
    worktreeOwned := nofun
    locks := by simp only [writer, leaseKey_eq]
    lockOwned := hlock
    leaseOwned := leaseOwned_map hp
    counts := count_checkoutReleased hhost hrel
    countPos := mainCheckout_countPos hhost hrel
    connections := connection_checkoutReleased hhost }⟩

theorem wrote_requeueCheckoutLimited {o : MainCheckoutUsageLimitOpts}
    (h : transact (requeueMainCheckoutUsageLimitedSessionItems o) db = .committed db') :
    ∃ r, Wrote (requeueMainCheckoutUsageLimited read o).writer db db' r := by
  obtain ⟨r, hl, hrow, hst, hh, hm, ha, hhost, hrel, hp, accounts, rfl⟩ :=
    checkoutLimited_committed h
  exact ⟨r, {
    row := hrow
    cond := by simp [writer, usageLimitWriter, hst, hh, hm, ha]
    sessions := rfl, worktrees := ⟨id, rfl⟩
    worktreeOwned := nofun
    locks := by simp only [writer, usageLimitWriter, leaseKey_eq]; rfl
    lockOwned := nofun
    leaseOwned := leaseOwned_map hp
    counts := count_checkoutReleased hhost hrel
    countPos := mainCheckout_countPos hhost hrel
    connections := connection_checkoutReleased hhost }⟩

/-- **Step lemma of the writers.** -/
theorem wrote_queued {s : String} {lock : Option String} {next : SessionRow → SessionRow}
    (h : QueuedWritten s lock next db db') :
    ∃ r, Wrote { sessionId := s, cond := (·.status == .queued), next := next, lock := given lock } db db' r := by
  obtain ⟨r, hrow, hst, hlock, drains, rfl⟩ := h
  exact ⟨r, {
    row := hrow, cond := by simp [hst], sessions := rfl, worktrees := ⟨id, rfl⟩
    worktreeOwned := nofun
    locks := rfl, lockOwned := hlock
    leaseOwned := nofun
    counts := fun h => rfl
    countPos := nofun
    connections := fun h => rfl }⟩

theorem wrote {op : WriteOp} (h : transact op.items db = .committed db') : ∃ r, Wrote op.writer db db' r := by
  cases op with
  | cancelQueued read o activity => exact wrote_queued (cancelQueued_committed h)
  | expireQueued read o activity => exact wrote_queued (expireQueued_committed h)
  | cancelRunning | cancelRunningMainCheckout =>
    obtain ⟨r, hrow, hc, drains, redeliveries, rfl⟩ := writeCancelled_committed h
    rw [Bool.and_eq_true, Bool.and_eq_true] at hc
    exact ⟨r, wrote_row rfl rfl rfl rfl hrow hc.1.1 rfl rfl rfl rfl⟩
  | requeue c => exact wrote_requeue h
  | requeueUsageLimited | requeueUsageLimitedWorkspace | suppressProviderless | suppressProviderlessWorkspace =>
    exact wrote_usageLimit h
  | finish c cleanup => exact wrote_finish h
  | releaseCancelled c cleanup => exact wrote_releaseCancelled h
  | releaseMainCheckout read o cleanup => exact wrote_releaseCheckout h
  | requeueMainCheckoutUsageLimited read o => exact wrote_requeueCheckoutLimited h
  | releaseTimedOutHostAssignment read o =>
    obtain ⟨r, hrow, hst, hh, ha, hcount, rfl⟩ := timedOutHost_committed h
    exact ⟨r, {
      row := hrow, cond := by simp [writer, hst, hh, ha], sessions := rfl, worktrees := ⟨id, rfl⟩
      worktreeOwned := nofun
      locks := rfl
      lockOwned := nofun
      leaseOwned := nofun
      counts := count_released _ _
      countPos := hcount
      connections := connection_released _ _ }⟩
  | releaseTimedOutProviderAccountLease read o =>
    obtain ⟨r, l, hrow, hst, hl, hk, ha, hlock, hcount, rfl⟩ := timedOutAccount_committed h
    exact ⟨r, {
      row := hrow, cond := by simp [writer, hst, hl, hk, ha], sessions := rfl, worktrees := ⟨id, rfl⟩
      worktreeOwned := nofun
      locks := rfl
      lockOwned := nofun
      leaseOwned := fun l hl => by cases hl; exact hlock
      counts := count_released _ _
      countPos := hcount
      connections := connection_released _ _ }⟩
  | forceReleaseProviderAccountLease o =>
    obtain ⟨r, x, hrow, hst, -, hnone, hl, hx, hown, rfl⟩ := forceRelease_committed h
    exact ⟨r, {
      row := hrow, cond := by simp [writer, hst, hl, hnone], sessions := rfl, worktrees := ⟨id, rfl⟩
      worktreeOwned := nofun
      locks := rfl
      lockOwned := nofun
      leaseOwned := fun l hl y hy => by
        cases hl
        rw [hx] at hy
        cases hy
        exact hown
      counts := fun h => rfl
      countPos := nofun
      connections := fun h => rfl }⟩
  | settleHandoff read o =>
    obtain ⟨r, hand, hrow, hhand, hid, hw, rfl⟩ := settleHandoff_committed h
    exact ⟨r, {
      row := hrow, cond := by simp [writer, hhand, hid], sessions := rfl, worktrees := ⟨_, rfl⟩
      worktreeOwned := hw
      locks := rfl
      lockOwned := nofun
      leaseOwned := nofun
      counts := fun h => (hostLocksSettled_spec h).1
      countPos := nofun
      connections := fun h => (hostLocksSettled_spec h).2 }⟩
  | expireHandoff read o =>
    obtain ⟨r, hand, hrow, hhand, hid, hw, locks, rfl, hcases⟩ := expireHandoff_committed h
    have hspec : ∀ x, assignmentCount locks x = assignmentCount db.hostLocks x ∧
        (locks x).bind connectionId = (db.hostLocks x).bind connectionId := by
      intro x
      obtain rfl | ⟨y, rfl⟩ := hcases
      · exact ⟨rfl, rfl⟩
      · exact hostLocksSettled_spec x
    exact ⟨r, {
      row := hrow, cond := by simp [writer, hhand, hid], sessions := rfl, worktrees := ⟨_, rfl⟩
      worktreeOwned := hw
      locks := rfl
      lockOwned := nofun
      leaseOwned := nofun
      counts := fun h => (hspec h).1
      countPos := nofun
      connections := fun h => (hspec h).2 }⟩
  | note s n =>
    obtain ⟨-, hr, rfl⟩ := committed_iff.mp h
    simp only [items, ready_cons, ready_nil, and_true, sessionWrite_holds, Option.any_eq_true] at hr
    obtain ⟨r, hrow, hkeeps⟩ := hr
    refine ⟨r, wrote_row rfl rfl rfl rfl hrow hkeeps ?_ rfl rfl rfl⟩
    simp [items, writer, hrow]

end WriteOp

end AutoHarness.Protocol

import AutoHarness.Plane.Status

/-! When an attempt is settled: its session no longer runs it, and what it held is free or reserved. The handler's
writers answer true only by a write that settles, except the terminal one, which may take a lost transaction for a
duplicate. -/

namespace AutoHarness.Protocol
open Foundation Store Plane Function Option FinishSessionOpts ReleaseMainCheckoutOpts

/-! ## Settled attempts -/

/-- Not running attempt `a`, and what `r` held is free or reserved by the handoff of `r'`. -/
structure SettledRow (s a : String) (r r' : SessionRow) (db : Db) : Prop where
  stopped : ¬ (r'.status = .running ∧ r'.attemptId = some a)
  worktree : ∀ i, given r.worktreeId.toOption = some i →
    (∀ x, db.worktrees i = some x → x.currentSessionId ≠ .value s) ∨
      r'.terminalHookHandoff.bind (·.worktreeId) = some i
  slot : ∀ i, given r.workspaceSlotId.toOption = some i →
    ∀ x, db.workspaceSlots i = some x → x.currentSessionId ≠ .value s
  main : r.mainCheckoutLease = true → ∀ h, r.hostId = .value h →
    (∀ x, db.hostLocks h = some x → x.mainCheckoutHeldBy r.repositoryId s = false) ∨
      r'.terminalHookHandoff.any (·.mainCheckoutLease) = true

def Settled (s a : String) (r : SessionRow) (db : Db) : Prop :=
  ∃ r', db.sessions s = some r' ∧ SettledRow s a r r' db

variable {s a i : String} {r r' : SessionRow} {db db' : Db} {e : Option String}

theorem Settled.congr (h : Settled s a r db) (hs : db'.sessions s = db.sessions s)
    (hw : db'.worktrees = db.worktrees) (hp : db'.workspaceSlots = db.workspaceSlots)
    (hh : db'.hostLocks = db.hostLocks) : Settled s a r db' := by
  obtain ⟨r', hr', h⟩ := h
  refine ⟨r', hs.trans hr', h.stopped, ?_, ?_, ?_⟩
  · rw [hw]
    exact h.worktree
  · rw [hp]
    exact h.slot
  · rw [hh]
    exact h.main

theorem settled_of_idle (hr' : db.sessions s = some r') (hst : r'.status ≠ .running)
    (hw : given r.worktreeId.toOption = none) (hp : given r.workspaceSlotId.toOption = none)
    (hm : r.mainCheckoutLease = true → r'.terminalHookHandoff.any (·.mainCheckoutLease) = true) : Settled s a r db := by
  refine ⟨r', hr', fun h => hst h.1, fun i hi => ?_, fun i hi => ?_, fun h _ _ => .inr (hm h)⟩
  · rw [hw] at hi
    cases hi
  · rw [hp] at hi
    cases hi

theorem worktree_freed {set : WorktreeRow → WorktreeRow} {t : String → Option WorktreeRow}
    {x : WorktreeRow} (h : worktreesReleased (some i) set t i = some x) : x.currentSessionId ≠ .value s := by
  simp only [worktreesReleased, update_self, map_eq_some_iff] at h
  obtain ⟨y, -, rfl⟩ := h
  simp [WorktreeRow.freed]

theorem slot_freed {t : String → Option WorkspaceSlotRow}
    {x : WorkspaceSlotRow} (h : slotsReleased (some i) e t i = some x) : x.currentSessionId ≠ .value s := by
  simp only [slotsReleased, update_self, map_eq_some_iff] at h
  obtain ⟨y, -, rfl⟩ := h
  simp [WorkspaceSlotRow.freed]

/-! ## Writes that settle -/

variable {cleanup : Option (DrainScope × DrainRecord)} {o : ReleaseMainCheckoutOpts} {before : Db} {c : StatusReport}

theorem settled_of_finish {o : FinishSessionOpts}
    (ht : transact (finishSessionItems o cleanup) db = .committed db') (hst : o.status ≠ .running)
    (hw : ∀ i, given r.worktreeId.toOption = some i → o.worktreeId = some i)
    (hp : ∀ i, given r.workspaceSlotId.toOption = some i → o.freedSlot = some i)
    (hm : r.mainCheckoutLease = false) : Settled o.sessionId a r db' := by
  obtain ⟨y, -, -, -, -, rfl⟩ := finishSession_committed ht
  refine ⟨o.finished y, by simp [FinishSessionOpts.after], fun h => hst h.1, fun i hi => ?_, fun i hi x hx => ?_,
    fun h => by rw [hm] at h; cases h⟩
  · by_cases hretain : o.terminalHookHandoff.bind (·.worktreeId) = some i
    · right
      obtain ⟨h, hh, hi'⟩ := bind_eq_some_iff.mp hretain
      simp [finished, hh, hi']
    · left
      intro x hx
      have hfreed : o.freedWorktree = some i := by
        simp [freedWorktree, hw i hi, given_of_ne (given_eq_some.mp hi).2, hretain]
      simp only [FinishSessionOpts.after, hfreed] at hx
      exact worktree_freed hx
  · simp only [FinishSessionOpts.after, hp i hi] at hx
    exact slot_freed hx

theorem settled_of_releaseCheckout
    (ht : transact (releaseMainCheckoutSessionItems o cleanup) db = .committed db') (hst : o.status ≠ .running)
    (hw : given r.worktreeId.toOption = none) (hp : given r.workspaceSlotId.toOption = none)
    (hh : r.hostId = .value o.hostId) (hrepo : o.repositoryId = r.repositoryId) : Settled o.sessionId a r db' := by
  obtain ⟨y, hl, -, -, -, -, -, -, rfl⟩ := releaseCheckout_committed ht
  refine ⟨o.released y, by simp, fun h => hst h.1, fun i hi => ?_, fun i hi => ?_, fun _ h hhost => ?_⟩
  · rw [hw] at hi
    cases hi
  · rw [hp] at hi
    cases hi
  · rw [hh] at hhost
    cases hhost
    cases hret : o.retains with
    | true =>
      right
      simp only [retains, any_eq_true] at hret
      obtain ⟨x, hx, hmain⟩ := hret
      simp [released, hx, hmain]
    | false =>
      left
      intro x hx
      simp only [update_self, some.injEq] at hx
      subst hx
      simp [HostLockRow.mainCheckoutHeldBy, HostLockRow.mainCheckoutReleased, HostLockRow.withoutMainCheckout, hrepo]

theorem settled_of_usageLimit {o : UsageLimitOpts} {account : Option UsageLimitedAccount} {i j : Option String}
    {cond : SessionRow → Bool} {next : SessionRow → SessionRow}
    (ht : transact (usageLimitItems o account i j e cond next) db = .committed db')
    (hst : ∀ y, (next y).status = .queued) (hw : given r.worktreeId.toOption = none ∨ given r.worktreeId.toOption = i)
    (hp : given r.workspaceSlotId.toOption = none ∨ given r.workspaceSlotId.toOption = j)
    (hm : r.mainCheckoutLease = false) : Settled o.sessionId a r db' := by
  obtain ⟨y, -, -, -, -, -, -, accounts, rfl⟩ := usageLimit_committed ht
  refine ⟨next y, by simp, fun h => ?_, fun k hk => .inl fun x hx => ?_, fun k hk x hx => ?_,
    fun h => by rw [hm] at h; cases h⟩
  · rw [hst] at h
    cases h.1
  · rw [hk] at hw
    obtain hw | hw := hw
    · cases hw
    · rw [← hw] at hx
      exact worktree_freed hx
  · rw [hk] at hp
    obtain hp | hp := hp
    · cases hp
    · rw [← hp] at hx
      exact slot_freed hx

theorem settled_of_requeueCheckout {o : MainCheckoutUsageLimitOpts}
    (ht : transact (requeueMainCheckoutUsageLimitedSessionItems o) db = .committed db')
    (hw : given r.worktreeId.toOption = none) (hp : given r.workspaceSlotId.toOption = none)
    (hh : r.hostId = .value o.hostId) (hrepo : o.repositoryId = r.repositoryId) : Settled o.sessionId a r db' := by
  obtain ⟨y, hl, -, -, -, -, -, -, -, -, accounts, rfl⟩ := checkoutLimited_committed ht
  refine ⟨_, update_self .., ?_⟩
  refine ⟨fun h => (by cases h.1), fun i hi => ?_, fun i hi => ?_, fun _ h hhost => .inl fun x hx => ?_⟩
  · rw [hw] at hi
    cases hi
  · rw [hp] at hi
    cases hi
  · rw [hh] at hhost
    cases hhost
    simp only [update_self, some.injEq] at hx
    subst hx
    simp [HostLockRow.mainCheckoutHeldBy, HostLockRow.mainCheckoutReleased, HostLockRow.withoutMainCheckout, hrepo]

theorem settled_of_requeue {o : RequeueOpts} (ht : transact (tryRequeueSessionItems o) db = .committed db')
    (hw : given r.worktreeId.toOption = some o.worktreeId) (hp : given r.workspaceSlotId.toOption = none)
    (hm : r.mainCheckoutLease = false) : Settled o.sessionId a r db' := by
  obtain ⟨y, -, -, -, rfl⟩ := requeueSession_committed ht
  refine ⟨o.requeued y, by simp, fun h => (by cases h.1), fun i hi => .inl fun x hx => ?_, fun i hi => ?_,
    fun h => by rw [hm] at h; cases h⟩
  · rw [hw] at hi
    cases hi
    exact worktree_freed hx
  · rw [hp] at hi
    cases hi

theorem settled_of_releaseCancelled {o : ReleaseCancelledOpts}
    (ht : transact (releaseCancelledSessionWorktreeItems o cleanup) db = .committed db')
    (hw : given r.worktreeId.toOption = some o.worktreeId) (hp : given r.workspaceSlotId.toOption = none)
    (hm : r.mainCheckoutLease = false) : Settled o.sessionId a r db' := by
  obtain ⟨y, -, hc, -, -, rfl⟩ := releaseCancelled_committed ht
  have hst : (o.released y).status = .cancelled := (ReleaseCancelledOpts.condition_iff.mp hc).1
  refine ⟨o.released y, by simp [ReleaseCancelledOpts.after], fun h => ?_, fun i hi => .inl fun x hx => ?_,
    fun i hi => ?_, fun h => by rw [hm] at h; cases h⟩
  · rw [hst] at h
    cases h.1
  · rw [hw] at hi
    cases hi
    exact worktree_freed hx
  · rw [hp] at hi
    cases hi

/-! ## Answers of the writers -/

theorem releaseCheckout_true (h : releaseMainCheckoutSession o before db = (.ok true, db')) :
    ∃ cleanup, transact (releaseMainCheckoutSessionItems o cleanup) db = .committed db' := by
  unfold releaseMainCheckoutSession at h
  dsimp only at h
  split at h
  · rename_i ht
    cases h
    exact ⟨_, ht⟩
  · split at h
    · exact ⟨none, commitOrFalse_true.mp h⟩
    · cases h
  · cases h

theorem releaseCancelled_true {o : ReleaseCancelledOpts} (hattached : alreadyDetached o.sessionId db = false)
    (h : releaseCancelledSessionWorktree o before db = (.ok true, db')) :
    ∃ cleanup, transact (releaseCancelledSessionWorktreeItems o cleanup) db = .committed db' := by
  have pass : ∀ {cleanup : Option (DrainScope × DrainRecord)} {conflict : Except StoreError Bool × Db},
      releaseCancelledPass o cleanup db conflict = (.ok true, db') →
      transact (releaseCancelledSessionWorktreeItems o cleanup) db = .committed db' ∨ conflict = (.ok true, db') := by
    intro cleanup conflict h
    unfold releaseCancelledPass at h
    split at h
    · rename_i ht
      cases h
      exact .inl ht
    · exact .inr h
    · cases h
  unfold releaseCancelledSessionWorktree at h
  rw [hattached] at h
  obtain ht | h := pass h
  · exact ⟨_, ht⟩
  · split at h
    · obtain ht | h := pass h
      · exact ⟨_, ht⟩
      · cases h
    · cases h

theorem finish_true {site : FinishSite} (h : c.finish r site db = (.ok true, db')) :
    (∃ cleanup, transact (finishSessionItems (c.call r site).opts cleanup) db = .committed db') ∨
    (¬ (FenceHolds (c.call r site).opts.fence (c.call r site).opts.hostAssignmentLease db ∧
        FinishReady (c.call r site).opts db) ∧
      (db.sessions c.msg.sessionId).map (·.status) = some (c.call r site).opts.status ∧
      ∃ cleanup, db' = { db with sessionDrains := drainsWithout cleanup db.sessionDrains }) := by
  generalize ho : (c.call r site).opts = o
  simp only [StatusReport.finish, ho, truthy, finishSession] at h
  cases ht : transact (finishSessionItems o (finishSessionCleanup o db)) db with
  | committed db₁ =>
    rw [ht] at h
    cases h
    exact .inl ⟨_, ht⟩
  | cancelled reasons =>
    rw [ht] at h
    simp only [finishSessionConflict] at h
    split at h
    · rename_i hst
      refine .inr ⟨fun hr => ?_, hst, finishSessionCleanup o db, ?_⟩
      · have hn : (targets (finishSessionItems o (finishSessionCleanup o db))).Nodup := by
          by_contra hn
          rw [transact_rejected_iff.mpr hn] at ht
          cases ht
        rw [transact_of_ready hn (ready_finishSession.mpr hr)] at ht
        cases ht
      · rw [runAll_drainDelete] at h
        exact (Prod.mk.inj h).2.symm
    · cases h
  | rejected =>
    rw [ht] at h
    cases h

theorem settled_releaseAccount {r₀ : SessionRow} (h : Settled s a r db) :
    Settled s a r (c.releaseProviderAccountLease r₀ db) := by
  unfold StatusReport.releaseProviderAccountLease
  split
  · exact h
  · rename_i l _
    cases ht : transact (releaseProviderAccountLeaseItems l.concurrencyId c.msg.sessionId l.attemptId) db with
    | committed db₁ =>
      obtain ⟨-, rfl⟩ := releaseAccount_committed ht
      exact h.congr rfl rfl rfl rfl
    | cancelled | rejected => exact h

end AutoHarness.Protocol

import AutoHarness.Protocol.Leases

/-! DynamoDB rejects two operations on one item. Only a requeue builds them: when the reconnect-deadline recovery of a
session that reserves its host finds no lock of that host. -/

namespace AutoHarness.Protocol
open Foundation Store Plane Option
open RequeueCall (opts base)

variable {w : World}

theorem leaseKey_ne (h : plane.Reachable w) {s c : String} {r : SessionRow}
    (hr : w.hasRead s r = true) (hc : r.concurrencyId = some c) : leaseKey r.providerAccountLease ≠ some c := by
  intro hkey
  obtain ⟨l, hl, hlc⟩ := map_eq_some_iff.mp hkey
  have hne := creatable_ne_account (a := l.providerAccountId) (n := l.slot) (creatable_read h hr hc)
  exact hne (hlc.symm.trans (leaseKeyed_read h hr l hl))

variable {cleanup : Option (DrainScope × DrainRecord)}

theorem finish_nodup (h : plane.Reachable w) {c : FinishCall} (ha : Op.allowed w (.write (.finish c cleanup)) = true) :
    (targets (finishSessionItems c.opts cleanup)).Nodup := by
  rw [finishSession_nodup]
  intro k hk
  have hdeleted : given c.opts.concurrencyId = some k := by
    simp only [FinishSessionOpts.deletedLock] at hk
    split at hk
    · cases hk
    · exact hk
  have hne := leaseKey_ne h (read_of_allowed ha rfl) (FinishCall.opts_concurrencyId hdeleted)
  unfold FinishSessionOpts.deletedLease
  split
  · simp
  · obtain hnone | hsame := c.opts_account
    · rw [hnone]
      simp
    · rw [hsame]
      exact hne

theorem releaseCancelled_nodup (h : plane.Reachable w) {c : ReleaseCancelledCall}
    (ha : Op.allowed w (.write (.releaseCancelled c cleanup)) = true) :
    (targets (releaseCancelledSessionWorktreeItems c.opts cleanup)).Nodup := by
  rw [releaseCancelledItems_nodup]
  intro k hk
  rw [c.opts_concurrencyId] at hk
  rw [c.opts_account]
  exact leaseKey_ne h (read_of_allowed ha rfl) (given_eq_some.mp hk).1

def Clashes (c : RequeueCall) : Prop :=
  ∃ hostId lock, c.site = .reconnectDeadline hostId lock ∧ given lock = none ∧ hostId ≠ "" ∧
    c.read.hostAssignmentLease = some ⟨hostId⟩

theorem requeue_nodup (c : RequeueCall) : (targets (tryRequeueSessionItems c.opts)).Nodup ↔ ¬ Clashes c := by
  rw [tryRequeueSession_nodup, c.opts_hostAssignmentLease]
  constructor
  · rintro h ⟨hostId, lock, hsite, hlock, hne, hlease⟩
    have hg : given c.opts.requireNoHostLock = some hostId := by
      simp only [opts, hsite, hlock, isNone_none, if_true]
      exact given_of_ne hne
    exact (h hostId hg).1 ⟨hostId⟩ hlease rfl
  · intro hclash hostId hg
    cases hsite : c.site with
    | reconnectDeadline h lock =>
      simp only [opts, hsite] at hg ⊢
      cases hlock : given lock with
      | some k => simp [hlock] at hg
      | none =>
        simp only [hlock, isNone_none, if_true] at hg
        obtain ⟨heq, hne⟩ := given_eq_some.mp hg
        cases heq
        refine ⟨?_, nofun⟩
        rintro ⟨l⟩ hlease rfl
        exact hclash ⟨l, lock, hsite, hlock, hne, hlease⟩
    | _ => simp [opts, hsite, base] at hg

/-- The terminal writers name every item once, and so does a requeue unless it is the clashing recovery. -/
theorem transactions_wellFormed {w : World} (h : plane.Reachable w) :
    (∀ c cleanup, Op.allowed w (.write (.finish c cleanup)) = true →
      (targets (finishSessionItems c.opts cleanup)).Nodup) ∧
    (∀ c cleanup, Op.allowed w (.write (.releaseCancelled c cleanup)) = true →
      (targets (releaseCancelledSessionWorktreeItems c.opts cleanup)).Nodup) ∧
    ∀ c, Op.allowed w (.write (.requeue c)) = true → ((targets (tryRequeueSessionItems c.opts)).Nodup ↔ ¬ Clashes c) :=
  ⟨fun _ _ ha => finish_nodup h ha, fun _ _ ha => releaseCancelled_nodup h ha, fun c _ => requeue_nodup c⟩

/-! ## The clash happens -/

def lostHostOps : List Op :=
  [.createPlain { sessionId := "s1", session := { status := .queued, repositoryId := "repo", queueExpiresAt := 100 } },
   .assignWorktree {
     sessionId := "s1", hostId := "h1", connectionId := "k1", now := 1, attemptId := "a1"
     resolvedRoute := { targetIndex := 0, commandId := "cmd", hostId := "h1", attemptId := "a1" }
     repositoryId := "repo", worktreeId := "w1" }, .write (.note "s1" {
     assignmentSentAt := some 1, ackReceivedAt := some 2, assignmentConnectionId := some "k1"
     reconnectDeadlineAt := some 9, primaryCommandStartState := some .pending }),
   .hostLink "h1" (some "k1") (some true) none]

/-- The reconnect-deadline recovery of session `s1`, which found `lock` as the connection of its host. -/
def deadlineRecovery (lock : Option String) (r : SessionRow) : RequeueCall :=
  { sessionId := "s1", read := r, worktreeId := "w1", site := .reconnectDeadline "h1" lock }

def refused (lock : Option String) (w : World) (r : SessionRow) : Bool :=
  Op.allowed w (.write (.requeue (deadlineRecovery lock r))) &&
    !decide (targets (tryRequeueSessionItems (deadlineRecovery lock r).opts)).Nodup

theorem deadlineRecovery_rejected : ∃ w r, plane.Reachable w ∧ w.db.sessions "s1" = some r ∧
      Op.allowed w (.write (.requeue (deadlineRecovery none r))) = true ∧
      ¬ (targets (tryRequeueSessionItems (deadlineRecovery none r).opts)).Nodup ∧
      transact (tryRequeueSessionItems (deadlineRecovery none r).opts) w.db = .rejected := by
  obtain ⟨w, r, hw, hr, hp⟩ :=
    exists_row_of_run lostHostOps (s := "s1") (P := fun w r => refused none w r = true) (by decide)
  rw [refused, Bool.and_eq_true, Bool.not_eq_true', decide_eq_false_iff_not] at hp
  exact ⟨w, r, hw, hr, hp.1, hp.2, transact_rejected_iff.mpr hp.2⟩

theorem transactions_wellFormed_fenced : ∃ w r, plane.Reachable w ∧ w.db.sessions "s1" = some r ∧
      (targets (tryRequeueSessionItems (deadlineRecovery (some "k1") r).opts)).Nodup := by
  obtain ⟨w, r, hw, hr, ha⟩ := exists_row_of_run lostHostOps (s := "s1")
    (P := fun w r => Op.allowed w (.write (.requeue (deadlineRecovery (some "k1") r))) = true) (by decide)
  refine ⟨w, r, hw, hr, ((transactions_wellFormed hw).2.2 _ ha).mpr ?_⟩
  rintro ⟨hostId, lock, hsite, hlock, -⟩
  cases hsite
  cases hlock

end AutoHarness.Protocol

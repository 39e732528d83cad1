import AutoHarness.Protocol.World

/-! The connection fence: a host that has reconnected must not be touched. The writers give the check up when they
also give a host reservation back, because both would address the host's lock. -/

namespace AutoHarness.Protocol
open Foundation Store Plane

def Refused (items : List TransactItem) (db : Db) : Prop :=
  (∀ db', transact items db ≠ .committed db') ∧ (transact items db).state db = db

variable {items : List TransactItem} {db : Db}

theorem refused_iff : Refused items db ↔ ¬ Ready items db ∨ ¬ (targets items).Nodup := by
  constructor
  · rintro ⟨h, -⟩
    by_contra hc
    rw [not_or, not_not, not_not] at hc
    exact h _ (transact_of_ready hc.2 hc.1)
  · intro h
    have hne : ∀ db', transact items db ≠ .committed db' := by
      intro db' hcommit
      obtain ⟨hn, hr, -⟩ := committed_iff.mp hcommit
      exact h.elim (fun hnr => hnr hr) (fun hnn => hnn hn)
    exact ⟨hne, state_of_not_committed hne⟩

/-- Unless it passes a reservation, in which case only the other conditions `rest` can. -/
theorem refused_of_stale {f : Fence} {lease : Option HostAssignmentLease}
    {rest : Prop} (hready : Ready items db ↔ FenceHolds (some f) lease db ∧ rest)
    (hstale : namesConnection f.connectionId (db.hostLocks f.hostId) = false) :
    Refused items db ↔ lease = none ∨ ¬ rest ∨ ¬ (targets items).Nodup := by
  have hfence : FenceHolds (some f) lease db ↔ lease ≠ none := by
    simp [FenceHolds, hstale]
  rw [refused_iff, hready, hfence, not_and_or, not_ne_iff, or_assoc]

/-- Under a stale fence each writer is refused exactly when it passes no reservation, or another condition or its
shape fails. -/
theorem stale_fence (db : Db) (f : Fence) (hstale : namesConnection f.connectionId (db.hostLocks f.hostId) = false) :
    (∀ (o : FinishSessionOpts) cleanup, o.fence = some f → (Refused (finishSessionItems o cleanup) db ↔
        o.hostAssignmentLease = none ∨ ¬ FinishReady o db ∨ ¬ (targets (finishSessionItems o cleanup)).Nodup)) ∧
    (∀ o : RequeueOpts, o.fence = some f → (Refused (tryRequeueSessionItems o) db ↔
        o.hostAssignmentLease = none ∨ ¬ RequeueReady o db ∨ ¬ (targets (tryRequeueSessionItems o)).Nodup)) ∧
    ∀ (o : ReleaseCancelledOpts) cleanup, o.fence = some f →
      (Refused (releaseCancelledSessionWorktreeItems o cleanup) db ↔
        o.hostAssignmentLease = none ∨ ¬ ReleaseCancelledReady o cleanup db ∨
          ¬ (targets (releaseCancelledSessionWorktreeItems o cleanup)).Nodup) := by
  refine ⟨fun o cleanup hf => ?_, fun o hf => ?_, fun o cleanup hf => ?_⟩
  · exact refused_of_stale (hf ▸ ready_finishSession) hstale
  · exact refused_of_stale (hf ▸ ready_tryRequeueSession) hstale
  · exact refused_of_stale (hf ▸ ready_releaseCancelledItems) hstale

/-! ## A stale fence that commits -/

/-- A session runs on a worktree of connection `k1`, and the host reconnects as `k2`. -/
def reconnectOps : List Op :=
  [.createPlain { sessionId := "s1", session := { status := .queued, repositoryId := "repo", queueExpiresAt := 100 } },
   .assignWorktree {
     sessionId := "s1", hostId := "h1", connectionId := "k1", now := 1, attemptId := "a1"
     resolvedRoute := { targetIndex := 0, commandId := "cmd", hostId := "h1", attemptId := "a1" }
     repositoryId := "repo", worktreeId := "w1" }, .hostLink "h1" (some "k2") none none]

def cancelReconnectOps : List Op :=
  reconnectOps.take 2 ++
  [.write (.cancelRunning {
     sessionId := "s1", worktreeId := some "w1", hostId := "h1", connectionId := "k1", attemptId := "a1"
     completedAt := 2, errorMessage := "cancelled" }), .hostLink "h1" (some "k2") none none]

def staleFence : Fence := ⟨"h1", "k1"⟩

def failedReport : StatusMessage :=
  { sessionId := "s1", attemptId := "a1", worktreeId := some "w1", status := .failed }

def staleRequeue (r : SessionRow) : RequeueCall :=
  { sessionId := "s1", read := r, worktreeId := "w1", site := .disconnect staleFence "agent disconnected" }

def staleFinish (r : SessionRow) : FinishCall :=
  { sessionId := "s1", read := r, now := 3, site := .report failedReport (some staleFence) "handoff" none }

def staleRelease (r : SessionRow) : ReleaseCancelledCall :=
  { sessionId := "s1", read := r, worktreeId := "w1", site := .disconnect staleFence }

def slipsThrough (w : World) (x : WriteOp) : Bool :=
  Op.allowed w (.write x) && !namesConnection "k1" (w.db.hostLocks "h1") &&
    match transact x.items w.db with
    | .committed _ => true
    | _ => false

theorem not_refused_of_slipsThrough {w : World} {x : WriteOp} (h : slipsThrough w x = true) :
    Op.allowed w (.write x) = true ∧ namesConnection "k1" (w.db.hostLocks "h1") = false ∧ ¬ Refused x.items w.db := by
  simp only [slipsThrough, Bool.and_eq_true, Bool.not_eq_true'] at h
  obtain ⟨⟨ha, hn⟩, hc⟩ := h
  refine ⟨ha, hn, fun hr => ?_⟩
  cases ht : transact x.items w.db with
  | committed db' => exact hr.1 db' ht
  | cancelled | rejected => simp [ht] at hc

/-- Requeue, terminal report and cancelled release all commit under a stale fence. -/
theorem stale_fence_commits : (∃ w r, plane.Reachable w ∧ (staleRequeue r).opts.fence = some staleFence ∧
      (staleFinish r).opts.fence = some staleFence ∧ namesConnection "k1" (w.db.hostLocks "h1") = false ∧
      ¬ Refused (tryRequeueSessionItems (staleRequeue r).opts) w.db ∧
      ¬ Refused (finishSessionItems (staleFinish r).opts none) w.db) ∧
    ∃ w r, plane.Reachable w ∧ (staleRelease r).opts.fence = some staleFence ∧
      namesConnection "k1" (w.db.hostLocks "h1") = false ∧
      ¬ Refused (releaseCancelledSessionWorktreeItems (staleRelease r).opts none) w.db := by
  constructor
  · obtain ⟨w, r, hw, -, hp⟩ := exists_row_of_run reconnectOps (s := "s1") (P := fun w r =>
      slipsThrough w (.requeue (staleRequeue r)) = true ∧ slipsThrough w (.finish (staleFinish r) none) = true)
      (by decide)
    obtain ⟨-, hn, hrequeue⟩ := not_refused_of_slipsThrough hp.1
    exact ⟨w, r, hw, rfl, rfl, hn, hrequeue, (not_refused_of_slipsThrough hp.2).2.2⟩
  · obtain ⟨w, r, hw, -, hp⟩ := exists_row_of_run cancelReconnectOps (s := "s1")
      (P := fun w r => slipsThrough w (.releaseCancelled (staleRelease r) none) = true) (by decide)
    obtain ⟨-, hn, hrelease⟩ := not_refused_of_slipsThrough hp
    exact ⟨w, r, hw, rfl, hn, hrelease⟩

/-- Session `s1` runs without a reservation on a host whose connection is `k1`. -/
def unreservedDb : Db :=
  { smallDb with sessions := fun s => if s = "s1" then some { status := .running, attemptId := some "a1" } else none }

/-- The terminal report of an older connection `k0`. -/
def unreservedFinish (fence : Option Fence) : FinishSessionOpts :=
  { sessionId := "s1", attemptId := "a1", status := .failed, fence := fence }

theorem stale_fence_refuses : Refused (finishSessionItems (unreservedFinish (some ⟨"h1", "k0"⟩)) none) unreservedDb ∧
      ∃ db', transact (finishSessionItems (unreservedFinish none) none) unreservedDb = .committed db' :=
  ⟨((stale_fence unreservedDb ⟨"h1", "k0"⟩ (by decide)).1 _ none rfl).mpr (.inl rfl),
    _, transact_of_ready (by decide) (by decide)⟩

end AutoHarness.Protocol

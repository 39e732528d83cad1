import AutoHarness.Protocol.World

/-! What a truthy answer of `finishSession` says about the resource. A lost transaction is answered from the status,
which a cancelled session has before anything is released. -/

namespace AutoHarness.Protocol
open Foundation Store Plane Function Option FinishSessionOpts

/-- Neither is claimed by the session, unless preserved or retained. -/
structure Released (o : FinishSessionOpts) (db : Db) : Prop where
  worktree : ∀ i, given o.worktreeId = some i → o.terminalHookHandoff.bind (·.worktreeId) ≠ some i →
    (∀ x, db.worktrees i = some x → x.currentSessionId ≠ .value o.sessionId) ∧
    ∀ r, db.sessions o.sessionId = some r → r.worktreeId ≠ .value i
  slot : ∀ i, given o.workspaceSlotId.toOption = some i → o.preserveWorkspaceSlotLease = false →
    (∀ x, db.workspaceSlots i = some x → x.currentSessionId ≠ .value o.sessionId) ∧
    ∀ r, db.sessions o.sessionId = some r → r.workspaceSlotId ≠ .value i

def Truthy (answer : Except StoreError DurableWriteResult) : Prop :=
  answer = .ok .committed ∨ answer = .ok .duplicate

variable {o : FinishSessionOpts} {db db' : Db}

theorem Released.congr (hs : db'.sessions = db.sessions)
    (hw : db'.worktrees = db.worktrees) (hp : db'.workspaceSlots = db.workspaceSlots) :
    Released o db' ↔ Released o db := by
  constructor <;> rintro ⟨h1, h2⟩
  · rw [hs, hw] at h1
    rw [hs, hp] at h2
    exact ⟨h1, h2⟩
  · rw [← hs, ← hw] at h1
    rw [← hs, ← hp] at h2
    exact ⟨h1, h2⟩

theorem released_of_committed {cleanup : Option (DrainScope × DrainRecord)}
    (h : transact (finishSessionItems o cleanup) db = .committed db') : Released o db' := by
  obtain ⟨r, -, -, -, hready, rfl⟩ := finishSession_committed h
  constructor
  · intro i hi hretain
    have hfreed : o.freedWorktree = some i := by
      simp [freedWorktree, hi, hretain]
    constructor
    · intro x hx
      obtain ⟨y, hy, -⟩ := hready.worktree i hfreed
      simp only [FinishSessionOpts.after, hfreed, worktreesReleased, update_self, hy, map_some, some.injEq] at hx
      subst hx
      simp [WorktreeRow.freed]
    · intro r' hr'
      simp only [FinishSessionOpts.after, update_self, some.injEq] at hr'
      subst hr'
      simp [finished]
  · intro i hi hkeep
    have hfreed : o.freedSlot = some i := by
      simp [freedSlot, hkeep, hi]
    constructor
    · intro x hx
      obtain ⟨y, hy, -⟩ := hready.slot i hfreed
      simp only [FinishSessionOpts.after, hfreed, slotsReleased, update_self, hy, map_some, some.injEq] at hx
      subst hx
      simp [WorkspaceSlotRow.freed]
    · intro r' hr'
      simp only [FinishSessionOpts.after, update_self, some.injEq] at hr'
      subst hr'
      simp [finished, hkeep]

/-- A truthy answer means released exactly when the transaction commits, is refused for its shape, or is lost and
either the status is not the wanted one or nothing was claimed. -/
theorem finishSession_released (o : FinishSessionOpts) (before : Db) (reread : Option SessionRow) (db : Db) :
    (Truthy (finishSession o before reread db).1 → Released o (finishSession o before reread db).2) ↔
      (FenceHolds o.fence o.hostAssignmentLease db ∧ FinishReady o db) ∨
      ¬ (targets (finishSessionItems o (finishSessionCleanup o before))).Nodup ∨
      reread.map (·.status) ≠ some o.status ∨ Released o db := by
  unfold finishSession
  by_cases hn : (targets (finishSessionItems o (finishSessionCleanup o before))).Nodup
  · by_cases hr : FenceHolds o.fence o.hostAssignmentLease db ∧ FinishReady o db
    · have hcommit := transact_of_ready hn (ready_finishSession.mpr hr)
      simp only [hcommit]
      exact iff_of_true (fun _ => released_of_committed hcommit) (.inl hr)
    · have hlost := transact_of_not_ready hn (mt ready_finishSession.mp hr)
      -- the conflict answer looks at the re-read status alone
      simp only [hlost, finishSessionConflict, hr, hn, not_true, false_or]
      by_cases hs : reread.map (·.status) = some o.status
      · simp only [hs, if_true, Truthy, or_true, true_implies, ne_eq, not_true, false_or, runAll_drainDelete]
        exact Released.congr rfl rfl rfl
      · simp [hs, Truthy]
  · simp only [transact_rejected_iff.mpr hn]
    exact iff_of_true (by simp [Truthy]) (.inr (.inl hn))

/-! ## A busy slot that is reported released -/

def workspaceRow : SessionRow :=
  { status := .queued, type := .workspace, workspacePoolId := some "pool", concurrencyId := some "c"
    queueExpiresAt := 100 }

def firstLease : ProviderAccountLease :=
  { concurrencyId := providerAccountLeaseConcurrencyId "acct" 0, providerAccountId := "acct", slot := 0
    attemptId := "a1" }

/-- A workspace session is cancelled; a second session takes its lock over. -/
def takeoverOps : List Op :=
  [.createBegin 0 { sessionId := "s1", session := workspaceRow }, .createStep 0, .assignWorkspace {
     sessionId := "s1", hostId := "h1", connectionId := "k1", now := 1, attemptId := "a1"
     resolvedRoute := {
       targetIndex := 0, providerId := some "provider", providerAccountId := some "acct", commandId := "cmd"
       hostId := "h1", workspacePoolId := some "pool", workspaceSlotId := some "slot1", attemptId := "a1" }
     providerAccountId := some "acct", providerId := some "provider", providerAccountLease := some firstLease
     workspacePoolId := "pool", workspaceSlotId := "slot1" }, .write (.cancelRunning {
     sessionId := "s1", workspaceSlotId := some "slot1", hostId := "h1", connectionId := "k1", attemptId := "a1"
     completedAt := 2, errorMessage := "cancelled" }), .createBegin 1 { sessionId := "s2", session := workspaceRow },
   .createStep 1, .createStep 1, .createStep 1, .createStep 1, .createStep 1]

def lateReport : StatusMessage :=
  { sessionId := "s1", attemptId := "a1", worktreeId := none, status := .cancelled }

def lateFinish (r : SessionRow) : FinishCall :=
  { sessionId := "s1", read := r, now := 3, site := .cancelledSlot lateReport (some ⟨"h1", "k1"⟩) }

def reportedBusy (w : World) (r : SessionRow) : Bool :=
  Op.allowed w (.write (.finish (lateFinish r) none)) &&
    (finishSession (lateFinish r).opts w.db (some r) w.db).1.toOption == some .duplicate &&
    r.workspaceSlotId == .value "slot1" &&
    ((finishSession (lateFinish r).opts w.db (some r) w.db).2.workspaceSlots "slot1").any fun x =>
      x.status == .busy && x.currentSessionId == .value "s1"

/-- The late report is answered truthy while the slot stays busy. -/
theorem duplicate_while_busy : ∃ w r, plane.Reachable w ∧ w.db.sessions "s1" = some r ∧
      Op.allowed w (.write (.finish (lateFinish r) none)) = true ∧
      Truthy (finishSession (lateFinish r).opts w.db (some r) w.db).1 ∧
      ¬ Released (lateFinish r).opts (finishSession (lateFinish r).opts w.db (some r) w.db).2 := by
  obtain ⟨w, r, hw, hr, hp⟩ :=
    exists_row_of_run takeoverOps (s := "s1") (P := fun w r => reportedBusy w r = true) (by decide)
  simp only [reportedBusy, Bool.and_eq_true, beq_iff_eq, any_eq_true] at hp
  obtain ⟨⟨⟨ha, hdup⟩, hslot⟩, x, hx, -, hcur⟩ := hp
  refine ⟨w, r, hw, hr, ha, ?_, ?_⟩
  · cases hans : (finishSession (lateFinish r).opts w.db (some r) w.db).1 with
    | error e => simp [hans, Except.toOption] at hdup
    | ok b =>
      rw [hans] at hdup
      cases hdup
      exact .inr rfl
  · intro hreleased
    have hnamed : given (lateFinish r).opts.workspaceSlotId.toOption = some "slot1" := by
      simp only [lateFinish, FinishCall.opts, finishSessionOptsFromPlan, hslot]
      decide
    exact (hreleased.slot "slot1" hnamed rfl).1 x hx hcur

end AutoHarness.Protocol

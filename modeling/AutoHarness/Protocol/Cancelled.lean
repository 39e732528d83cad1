import AutoHarness.Protocol.Counter
import AutoHarness.Protocol.ProviderSlots
import AutoHarness.Protocol.WellFormed

/-! The worktree of a cancelled session, kept until the late terminal report. The release also deletes the session's
concurrency lock, which a later create may have taken over. -/

namespace AutoHarness.Protocol
open Foundation Store Plane Function Option Bool FinishSessionOpts
open WriteOp (writer finish)

/-- Creates with a concurrency id, worktree assignments, cancellations, and the two writes of a late report. -/
def Op.cancelPath : Op → Bool
  | .createBegin _ _ => true
  | .createStep _ => true
  | .assignWorktree _ => true
  | .write (.cancelRunning _) => true
  | .write (.releaseCancelled c _) =>
    match c.site with
    | .report _ _ => true
    | _ => false
  | .write (.finish c _) =>
    match c.site with
    | .lateWorktree _ _ _ => c.read.status == .cancelled
    | _ => false
  | _ => false

def cancelPlane : System World Op := plane.restrict fun _ op => op.cancelPath = true

variable {w : World}

theorem of_cancelPlane (h : cancelPlane.Reachable w) : plane.Reachable w := h.of_restrict

/-! ## The writers of the path -/

/-- A write keeps the worktree and the leases of its row and gives nothing back. -/
structure Holds (x : Writer) (r : SessionRow) : Prop where
  worktreeId : (x.next r).worktreeId = r.worktreeId
  hostId : (x.next r).hostId = r.hostId
  providerAccountLease : (x.next r).providerAccountLease = r.providerAccountLease
  hostAssignmentLease : (x.next r).hostAssignmentLease = r.hostAssignmentLease
  noWorktree : x.worktree = none
  noLease : x.lease = none
  noHost : x.host = none

/-- A write ends the attempt of its row, on the word of a read row that still had a worktree, and gives its leases
back. -/
structure Ends (x : Writer) (read r : SessionRow) : Prop where
  worktreeId : (x.next r).worktreeId = .null
  providerAccountLease : (x.next r).providerAccountLease = none
  hostAssignmentLease : (x.next r).hostAssignmentLease = none
  lease : x.lease = read.providerAccountLease.map leaseRef
  host : x.host = read.hostAssignmentLease
  attempt : ∃ a, r.attemptId = some a ∧ read.attemptId = some a
  worktree : ∃ i, r.worktreeId = .value i ∧ read.worktreeId = .value i

theorem toOption_of_given {x : Attr String} (h : (given x.toOption).isSome = true) : ∃ i, x = .value i := by
  obtain ⟨i, hi⟩ := isSome_iff_exists.mp h
  exact ⟨i, Attr.toOption_eq_some.mp (given_eq_some.mp hi).1⟩

variable {r : SessionRow} {cleanup : Option (DrainScope × DrainRecord)} {msg : StatusMessage} {fence : Option Fence}
  {op : Op}

theorem ends_releaseCancelled {c : ReleaseCancelledCall}
    (hsite : c.site = .report msg fence) (hg : c.guard = true) (hc : (WriteOp.releaseCancelled c cleanup).writer.cond r = true) :
    Ends (WriteOp.releaseCancelled c cleanup).writer c.read r := by
  obtain ⟨-, hw, hatt, -⟩ := ReleaseCancelledOpts.condition_iff.mp hc
  simp only [ReleaseCancelledCall.opts, hsite] at hw hatt
  simp only [ReleaseCancelledCall.guard, hsite, attemptMatches, and_eq_true, beq_iff_eq] at hg
  exact ⟨rfl, rfl, rfl, by simp [writer], by simp [writer], ⟨_, hatt, hg.1.2.2⟩, ⟨_, hw, hg.1.1.2⟩⟩

theorem ends_lateWorktree {c : FinishCall} {handoffId : String} (hsite : c.site = .lateWorktree msg fence handoffId)
    (hg : c.guard = true) (hc : (finish c cleanup).writer.cond r = true) :
    Ends (finish c cleanup).writer c.read r := by
  obtain ⟨-, hw, -, hatt, -⟩ := FinishSessionOpts.condition_iff.mp hc
  simp only [FinishCall.opts, hsite, FinishCall.late] at hw hatt
  simp only [FinishCall.guard, hsite, FinishCall.lateGuard, and_eq_true, beq_iff_eq] at hg
  obtain ⟨i, hi⟩ := toOption_of_given hg.1.2
  rw [hi] at hw
  have hopts : c.opts.preserveProviderAccountLease = false ∧ c.opts.preserveHostAssignmentLease = false ∧
      c.opts.providerAccountLease = c.read.providerAccountLease ∧
      c.opts.hostAssignmentLease = c.read.hostAssignmentLease := by
    simp only [FinishCall.opts, hsite]
    exact ⟨rfl, rfl, rfl, rfl⟩
  obtain ⟨hp, hh, hl, hr⟩ := hopts
  exact {
    worktreeId := rfl
    providerAccountLease := by simp [writer, finished, hp]
    hostAssignmentLease := by simp [writer, finished, hh]
    lease := by simp [writer, deletedLease, hp, hl]
    host := hr
    attempt := ⟨_, hatt, hg.1.1.1.2⟩
    worktree := ⟨i, hw, hi⟩ }

theorem cancelPath_write {x : WriteOp} (ha : Op.allowed w (.write x) = true)
    (hpath : Op.cancelPath (.write x) = true) (hc : x.writer.cond r = true) :
    Holds x.writer r ∨ ∃ read, x.read = some read ∧ Ends x.writer read r := by
  have hg := promised_of_allowed ha
  cases x with
  | cancelRunning o => exact .inl ⟨rfl, rfl, rfl, rfl, rfl, rfl, rfl⟩
  | releaseCancelled c cleanup =>
    cases hsite : c.site with
    | disconnect f => simp [Op.cancelPath, hsite] at hpath
    | report msg fence => exact .inr ⟨c.read, rfl, ends_releaseCancelled hsite hg hc⟩
  | finish c cleanup =>
    cases hsite : c.site with
    | lateWorktree msg fence handoffId => exact .inr ⟨c.read, rfl, ends_lateWorktree hsite hg hc⟩
    | _ => simp [Op.cancelPath, hsite] at hpath
  | _ => simp [Op.cancelPath] at hpath

/-! ## The leases of an attempt -/

/-- As long as an attempt holds a worktree, every row read of it carries the leases of the current row. -/
def AttemptStable (w : World) (s : String) (r' : SessionRow) : Prop :=
  ∀ r a i i', w.hasRead s r = true → r.attemptId = some a → r'.attemptId = some a →
    r.worktreeId = .value i → r'.worktreeId = .value i' →
    r.providerAccountLease = r'.providerAccountLease ∧ r.hostAssignmentLease = r'.hostAssignmentLease

theorem attemptStable_step (hw : plane.Reachable w) (ha : op.allowed w = true)
    (hpath : op.cancelPath = true) (ih : ∀ s r', w.db.sessions s = some r' → AttemptStable w s r') :
    ∀ s r', (w.act op).1.sessions s = some r' → AttemptStable w s r' := by
  refine rows_step (P := AttemptStable w) hw ha ih (fun x r₀ hop h => ?_) (fun x r₀ hop h => ?_)
    (fun s r' _ hadm => ?_) (fun s r' n hP => hP) (fun s read hop => ?_)
  · subst hop
    intro r a i i' hr hatt hatt' hi hi'
    rw [x.attemptId_next] at hatt'
    obtain hh | ⟨read, -, he⟩ := cancelPath_write ha hpath h.cond
    · rw [hh.worktreeId] at hi'
      rw [hh.providerAccountLease, hh.hostAssignmentLease]
      exact ih _ r₀ h.row r a i i' hr hatt hatt' hi hi'
    · rw [he.worktreeId] at hi'
      cases hi'
  · intro r a i i' hr hatt hatt'
    rw [h.launched.attemptId] at hatt'
    cases hatt'
    -- the attempt is new, so no row of it was read before
    have hfresh := attempt_of_allowed ha hop
    have hknown := attempt_known hw _ r hr _ hatt
    simp [attemptPromised, hknown] at hfresh
  · intro r a i i' hr hatt hatt'
    rw [hadm.blank.attemptId] at hatt'
    cases hatt'
  · subst hop
    cases hpath

theorem attemptStable (h : cancelPlane.Reachable w) : ∀ s r', w.db.sessions s = some r' → AttemptStable w s r' := by
  induction h with
  | init hw => exact fun s r' hr' => absurd hr' hw.no_row
  | @step w w' op hw hs ih =>
    obtain ⟨hpath, ha, rfl⟩ := hs
    intro s r' hr' r a i i' hr hatt hatt' hi hi'
    obtain h | h := World.hasRead_apply hr
    · cases h.symm.trans hr'
      exact ⟨rfl, rfl⟩
    · exact attemptStable_step (of_cancelPlane hw) ha hpath ih s r' hr' r a i i' h hatt hatt' hi hi'

theorem exact_of_cancelPath (hw : cancelPlane.Reachable w) (ha : op.allowed w = true)
    (hpath : op.cancelPath = true) : releasesExactly w op = true ∧ reservesExactly w op = true := by
  cases op with
  | write x =>
    have hrow : ∀ r, w.db.sessions x.sessionId = some r → x.writer.cond r = true → Holds x.writer r ∨
        ((x.writer.next r).hostAssignmentLease = none ∧ x.writer.lease = r.providerAccountLease.map leaseRef ∧
          x.writer.host = r.hostAssignmentLease) := by
      intro r hr hc
      refine (cancelPath_write ha hpath hc).imp_right ?_
      rintro ⟨read, hread, he⟩
      obtain ⟨a, hatt, hatt'⟩ := he.attempt
      obtain ⟨i, hi, hi'⟩ := he.worktree
      obtain ⟨hl, hh⟩ := attemptStable hw _ r hr read a i i (read_of_allowed ha hread) hatt' hatt hi' hi
      exact ⟨he.hostAssignmentLease, by rw [he.lease, hl], by rw [he.host, hh]⟩
    simp only [releasesExactly, reservesExactly, all_eq_true, or_eq_true, not_eq_true', beq_iff_eq,
      ← not_eq_true, ← imp_iff_not_or]
    constructor
    · intro r hr hc l hl
      obtain hh | ⟨-, hlease, -⟩ := hrow r hr hc
      · rw [hh.providerAccountLease, hl]
        simp
      · rw [hlease, hl]
        simp
    · intro r hr hc
      obtain hh | ⟨hnone, -, hhost⟩ := hrow r hr hc
      · rw [hh.hostAssignmentLease, if_pos rfl, hh.noHost]
      · rw [hhost, hnone]
        split
        · rename_i he
          exact he.symm
        · rfl
  | releaseProviderAccountLease | putTimedOut => cases hpath
  | _ => exact ⟨rfl, rfl⟩

theorem slotRecords_of_cancelPlane (h : cancelPlane.Reachable w) : SlotRecordsAgree w.db :=
  slotRecordsAgree (h.restrict_imp fun _ _ _ hw hpath hs => (exact_of_cancelPath hw hs.1 hpath).1)

theorem surplus_of_cancelPlane (h : cancelPlane.Reachable w) (host : String) : 0 ≤ surplus w.db host :=
  surplus_nonneg (h.restrict_imp fun _ _ _ hw hpath hs => (exact_of_cancelPath hw hs.1 hpath).2) host

/-! ## Connections and drain marks -/

def WorktreesLinked (db : Db) : Prop :=
  ∀ s r i x h, db.sessions s = some r → r.worktreeId = .value i → r.hostId = .value h →
    db.worktrees i = some x → x.currentSessionId = .value s →
    x.connectionId = (db.hostLocks h).bind HostLockRow.connectionId

variable {db db' : Db} {r₀ : SessionRow}

theorem worktreesLinked_wrote {x : Writer} (hw : Wrote x db db' r₀)
    (hrow : Holds x r₀ ∨ (x.next r₀).worktreeId = .null) (ih : WorktreesLinked db) : WorktreesLinked db' := by
  intro s r i y h hr hi hh hy hcur
  obtain ⟨set, hset⟩ := hw.worktrees
  have hkept : db.worktrees i = some y := by
    rw [hset, worktreesReleased_apply] at hy
    split at hy
    · obtain ⟨y₀, -, rfl⟩ := map_eq_some_iff.mp hy
      cases hcur
    · exact hy
  rw [hw.connections h]
  rw [hw.sessions] at hr
  by_cases hs : s = x.sessionId
  · subst hs
    rw [update_self] at hr
    cases hr
    obtain hold | hnull := hrow
    · exact ih _ r₀ i y h hw.row (hold.worktreeId ▸ hi) (hold.hostId ▸ hh) hkept hcur
    · rw [hnull] at hi
      cases hi
  · rw [update_of_ne hs] at hr
    exact ih s r i y h hr hi hh hkept hcur

theorem worktreesLinked_assigned {x : Assigning} (hw : Assigned x db db' r₀)
    (ih : WorktreesLinked db) : WorktreesLinked db' := by
  intro s r i y h hr hi hh hy hcur
  rw [hw.connections h]
  rw [hw.sessions] at hr
  have hclaim := hw.worktrees
  cases hwt : x.worktree with
  | none =>
    rw [hwt] at hclaim
    rw [hclaim] at hy
    by_cases hs : s = x.opts.sessionId
    · subst hs
      rw [update_self] at hr
      cases hr
      rw [hw.launched.worktreeId, hwt] at hi
      cases hi
    · rw [update_of_ne hs] at hr
      exact ih s r i y h hr hi hh hy hcur
  | some j =>
    rw [hwt] at hclaim
    obtain ⟨y₀, hy₀, -, hupd⟩ := hclaim
    rw [hupd] at hy
    by_cases hij : i = j
    · subst hij
      rw [update_self] at hy
      cases hy
      cases hcur
      rw [update_self] at hr
      cases hr
      rw [hw.launched.hostId] at hh
      cases hh
      obtain ⟨hl, hlock, hacq⟩ := hw.host
      rw [hlock]
      exact hacq.connection.symm
    · rw [update_of_ne hij] at hy
      by_cases hs : s = x.opts.sessionId
      · subst hs
        rw [update_self] at hr
        cases hr
        rw [hw.launched.worktreeId, hwt] at hi
        cases hi
        exact absurd rfl hij
      · rw [update_of_ne hs] at hr
        exact ih s r i y h hr hi hh hy hcur

theorem worktreesLinked_created {o : CreateOpts} {lock : Option String} (hc : Created o lock db db')
    (hadm : Admissible o.session) (ih : WorktreesLinked db) : WorktreesLinked db' := by
  intro s r i y h hr hi hh hy hcur
  rw [hc.hostLocks]
  rw [hc.worktrees] at hy
  by_cases hs : s = o.sessionId
  · subst hs
    rw [hc.row] at hr
    cases hr
    rw [hadm.blank.worktreeId] at hi
    cases hi
  · obtain hsame | ⟨r₀, n, hr₀, hsame⟩ := hc.others s hs
    · rw [hsame] at hr
      exact ih s r i y h hr hi hh hy hcur
    · rw [hsame] at hr
      cases hr
      exact ih s r₀ i y h hr₀ hi hh hy hcur

theorem worktreesLinked (h : cancelPlane.Reachable w) : WorktreesLinked w.db := by
  induction h with
  | init hw => exact fun s r i x h hr => absurd hr hw.no_row
  | @step w w' op hw hs ih =>
    obtain ⟨hpath, ha, rfl⟩ := hs
    have same : ∀ {db' : Db} {locks : String → Option LockRow},
        Tables db' w.db.sessions w.db.worktrees locks w.db.hostLocks → WorktreesLinked db' := by
      intro db' locks ht
      unfold WorktreesLinked
      rw [ht.sessions, ht.worktrees, ht.hosts]
      exact ih
    cases World.effect ha with
    | quiet h | stolen n k call reasons holder after y hop hcall hpc hy hn h
    | leaseReleased s read l hop hown h | marked key row hop h => exact same h
    | wrote x r hop h =>
      subst hop
      refine worktreesLinked_wrote h ?_ ih
      obtain hh | ⟨read, -, he⟩ := cancelPath_write ha hpath h.cond
      · exact .inl hh
      · exact .inr he.worktreeId
    | assigned x r hop h => exact worktreesLinked_assigned h ih
    | createdPlain o hop h | persisted s read hop hcreated h | hostLinked host k d e hop h
    | worktreeLinked i online k x hop hx h =>
      subst hop
      cases hpath
    | created n k call hop hcall hpc h =>
      exact worktreesLinked_created h (calls_admissible (of_cancelPlane hw) hcall).1 ih

theorem WriteOp.cancelledByDrain_next (x : WriteOp) (r : SessionRow) : ∃ o,
    (x.writer.next r).cancelledByDrainOperationId = (given o).or r.cancelledByDrainOperationId := by
  cases x with
  | cancelQueued | cancelRunning | cancelRunningMainCheckout => exact ⟨_, rfl⟩
  | _ => exact ⟨none, rfl⟩

theorem drainNamed (h : cancelPlane.Reachable w) :
    ∀ s r, w.db.sessions s = some r → r.cancelledByDrainOperationId ≠ some "" := by
  induction h with
  | init hw => exact fun s r hr => absurd hr hw.no_row
  | @step w w' op hw hs ih =>
    obtain ⟨hpath, ha, rfl⟩ := hs
    refine rows_step (P := fun _ r => r.cancelledByDrainOperationId ≠ some "") (of_cancelPlane hw) ha ih
      (fun x r hop h => ?_) (fun x r hop h => ?_) (fun s r _ hadm => ?_) (fun s r n hP => hP) (fun s read hop => ?_)
    · obtain ⟨o, ho⟩ := x.cancelledByDrain_next r
      rw [ho]
      cases hg : given o with
      | none => exact ih _ r h.row
      | some d =>
        rw [some_or, ne_eq, some.injEq]
        exact (given_eq_some.mp hg).2
    · rw [h.launched.cancelledByDrain]
      exact ih _ r h.checked.row
    · rw [hadm.blank.cancelledByDrainOperationId]
      simp
    · subst hop
      cases hpath

/-! ## The release -/

/-- The session still holds its worktree, its host the connection, and `c` is the release made for the report. -/
structure CancelledClaim (w : World) (c : ReleaseCancelledCall) (msg : StatusMessage) (f : Fence)
    (r : SessionRow) : Prop where
  row : w.db.sessions c.sessionId = some r
  status : r.status = .cancelled
  worktreeId : r.worktreeId = .value c.worktreeId
  attemptId : r.attemptId = some msg.attemptId
  hostId : r.hostId = .value f.hostId
  worktree : ∃ x, w.db.worktrees c.worktreeId = some x ∧ x.currentSessionId = .value c.sessionId
  connection : namesConnection f.connectionId (w.db.hostLocks f.hostId) = true
  site : c.site = .report msg (some f)
  made : Op.allowed w (.write (.releaseCancelled c none)) = true

def LockNotTaken (db : Db) (s : String) (r : SessionRow) : Prop :=
  ∀ d, given r.concurrencyId = some d → ∀ y, db.concurrencyLocks d = some y → y.sessionId = some s

def WorktreeFreed (db : Db) (s i : String) : Prop :=
  (∃ x, db.worktrees i = some x ∧ x.status = .idle ∧ x.currentSessionId = .null) ∧
    ∃ r, db.sessions s = some r ∧ r.worktreeId = .null

section Release

variable {w : World} {c : ReleaseCancelledCall} {msg : StatusMessage} {f : Fence} {r : SessionRow}
  {conflict : Except StoreError Bool × Db}

section

variable (hw : cancelPlane.Reachable w) (hc : CancelledClaim w c msg f r)
include hw hc

theorem CancelledClaim.leases :
    c.read.providerAccountLease = r.providerAccountLease ∧ c.read.hostAssignmentLease = r.hostAssignmentLease := by
  have hg : c.guard = true := promised_of_allowed hc.made
  simp only [ReleaseCancelledCall.guard, hc.site, attemptMatches, and_eq_true, beq_iff_eq] at hg
  exact attemptStable hw _ r hc.row c.read msg.attemptId _ _ (read_of_allowed hc.made rfl) hg.1.2.2 hc.attemptId
    hg.1.1.2 hc.worktreeId

theorem CancelledClaim.concurrencyId : c.read.concurrencyId = r.concurrencyId := by
  obtain ⟨r', hr', hk⟩ := remembers (of_cancelPlane hw) _ c.read (read_of_allowed hc.made rfl)
  cases hc.row.symm.trans hr'
  exact hk.concurrencyId.symm

theorem CancelledClaim.ready_iff
    (cleanup : Option (DrainScope × DrainRecord)) : Ready (releaseCancelledSessionWorktreeItems c.opts cleanup) w.db ↔
      (cleanup.isSome = true → r.cancelledByDrainOperationId = none) ∧ LockNotTaken w.db c.sessionId r := by
  obtain ⟨hlease, hhost⟩ := hc.leases hw
  have hfence : c.opts.fence = some f := by simp [ReleaseCancelledCall.opts, hc.site]
  have hid : c.opts.worktreeId = c.worktreeId := by simp [ReleaseCancelledCall.opts, hc.site]
  have hatt : c.opts.attemptId = msg.attemptId := by simp [ReleaseCancelledCall.opts, hc.site]
  have hcond : c.opts.condition cleanup.isSome r = true ↔
      (cleanup.isSome = true → r.cancelledByDrainOperationId = none) := by
    simp [ReleaseCancelledOpts.condition_iff, hc.status, hc.worktreeId, hc.attemptId, hid, hatt]
  have hlock : LockNotTaken w.db c.sessionId r ↔ ∀ d, given c.opts.concurrencyId = some d →
      ∀ y, w.db.concurrencyLocks d = some y → y.sessionId = some c.opts.sessionId := by
    rw [c.opts_concurrencyId, c.opts_sessionId, hc.concurrencyId hw]
    rfl
  rw [ready_releaseCancelledItems, hlock, ← hcond]
  constructor
  · rintro ⟨-, hready⟩
    obtain ⟨r', hr', hcr'⟩ := hready.session
    rw [c.opts_sessionId] at hr'
    cases hc.row.symm.trans hr'
    exact ⟨hcr', hready.lock⟩
  · rintro ⟨hcr, hl⟩
    refine ⟨fun _ g hg => ?_, ⟨r, by rw [c.opts_sessionId]; exact hc.row, hcr⟩, ?_, hl, ?_, ?_⟩
    · rw [hfence] at hg
      cases hg
      exact hc.connection
    · obtain ⟨x, hx, hcur⟩ := hc.worktree
      refine ⟨x, by rw [hid]; exact hx, by rw [c.opts_sessionId]; exact hcur, ?_⟩
      have hlink := worktreesLinked hw _ r _ x f.hostId hc.row hc.worktreeId hc.hostId hx hcur
      obtain ⟨hl, hlr, hk⟩ := namesConnection_iff.mp hc.connection
      simp only [ReleaseCancelledOpts.worktreeCondition, hfence, all_some, hlink, hlr, bind_some, hk, beq_self_eq_true]
    · intro l hl' y hy
      rw [c.opts_account, hlease] at hl'
      have hkey := leaseKeyed_row (of_cancelPlane hw) _ r hc.row l hl'
      obtain ⟨y', hy', hs, ha⟩ := (slotRecords_of_cancelPlane hw).locked _ r l hc.row hl'
      rw [← hkey, hy] at hy'
      cases hy'
      simp [LockRow.ownedBy, hs, ha]
    · intro l hl' n hn
      rw [c.opts_hostAssignmentLease, hhost] at hl'
      have hres : reserves w.db c.sessionId = some l := by simp [reserves, hc.row, hl']
      have hpos := tally_pos (finitelyReserved (of_cancelPlane hw)) hres
      have hsur := surplus_of_cancelPlane hw l.hostId
      rw [surplus, hn, getD_some] at hsur
      change 0 < tally (reserves w.db) ⟨l.hostId⟩ at hpos
      omega

end

theorem releasePass_freed (hn : (targets (releaseCancelledSessionWorktreeItems c.opts cleanup)).Nodup)
    (hr : Ready (releaseCancelledSessionWorktreeItems c.opts cleanup) w.db) :
    ∃ db', releaseCancelledPass c.opts cleanup w.db conflict = (.ok true, db') ∧
      WorktreeFreed db' c.opts.sessionId c.opts.worktreeId := by
  have ht := transact_of_ready hn hr
  obtain ⟨r, -, -, -, hready, hafter⟩ := releaseCancelled_committed ht
  refine ⟨_, by rw [releaseCancelledPass, ht], ?_⟩
  rw [hafter]
  obtain ⟨x, hx, -⟩ := hready.worktree
  refine ⟨⟨x.freed fun y => { y with online := c.opts.online }, ?_, rfl, rfl⟩, c.opts.released r, ?_, rfl⟩
  · simp [ReleaseCancelledOpts.after, worktreesReleased, hx]
  · simp [ReleaseCancelledOpts.after]

theorem releasePass_lost (hn : (targets (releaseCancelledSessionWorktreeItems c.opts cleanup)).Nodup)
    (hr : ¬ Ready (releaseCancelledSessionWorktreeItems c.opts cleanup) w.db) :
    releaseCancelledPass c.opts cleanup w.db conflict = conflict := by
  rw [releaseCancelledPass, transact_of_not_ready hn hr]

/-- The release of a cancelled session's worktree commits exactly when no other session has taken its lock. -/
theorem cancelled_release (hw : cancelPlane.Reachable w) (hc : CancelledClaim w c msg f r) (before : Db) :
    (∃ db', releaseCancelledSessionWorktree c.opts before w.db = (.ok true, db') ∧
      WorktreeFreed db' c.sessionId c.worktreeId) ↔ LockNotTaken w.db c.sessionId r := by
  have hid : c.opts.worktreeId = c.worktreeId := by simp [ReleaseCancelledCall.opts, hc.site]
  have hn : ∀ cleanup, (targets (releaseCancelledSessionWorktreeItems c.opts cleanup)).Nodup :=
    fun _ => releaseCancelled_nodup (of_cancelPlane hw) hc.made
  have hdetached : alreadyDetached c.opts.sessionId w.db = false := by
    simp [alreadyDetached, hc.row, hc.worktreeId]
  unfold releaseCancelledSessionWorktree
  by_cases hlock : LockNotTaken w.db c.sessionId r
  · refine iff_of_true ?_ hlock
    rw [← c.opts_sessionId, ← hid]
    by_cases hmark : (releaseCleanup c.opts.sessionId before).isSome = true → r.cancelledByDrainOperationId = none
    · exact releasePass_freed (hn _) ((hc.ready_iff hw _).mpr ⟨hmark, hlock⟩)
    · -- a drain cancelled the session after the activity member was read: the second pass leaves it
      rw [releasePass_lost (hn _) fun hr => hmark ((hc.ready_iff hw _).mp hr).1]
      rw [Classical.not_imp] at hmark
      have hdrain : r.drainCancelled = true := by
        obtain ⟨d, hd⟩ := ne_none_iff_exists'.mp hmark.2
        have hne : d ≠ "" := fun e => drainNamed hw _ r hc.row (by rw [hd, e])
        rw [SessionRow.drainCancelled, hd, given_of_ne hne]
        rfl
      rw [if_pos (by rw [hmark.1, c.opts_sessionId, hc.row]; simpa using hdrain)]
      exact releasePass_freed (hn _) ((hc.ready_iff hw _).mpr ⟨by simp, hlock⟩)
  · refine iff_of_false ?_ hlock
    have hlost : ∀ cleanup, ¬ Ready (releaseCancelledSessionWorktreeItems c.opts cleanup) w.db :=
      fun cleanup hr => hlock ((hc.ready_iff hw cleanup).mp hr).2
    rintro ⟨db', hok, -⟩
    rw [releasePass_lost (hn _) (hlost _), releasePass_lost (hn _) (hlost _), hdetached] at hok
    split at hok <;> cases hok

end Release

/-! ## Before and after a takeover -/

def promptRow : SessionRow :=
  { status := .queued, repositoryId := "repo", concurrencyId := some "c", queueExpiresAt := 100 }

def cancelOps : List Op :=
  [.createBegin 0 { sessionId := "s1", session := promptRow }, .createStep 0, .assignWorktree {
     sessionId := "s1", hostId := "h1", connectionId := "k1", now := 1, attemptId := "a1"
     resolvedRoute := { targetIndex := 0, commandId := "cmd", hostId := "h1", attemptId := "a1" }
     repositoryId := "repo", worktreeId := "w1" }, .write (.cancelRunning {
     sessionId := "s1", worktreeId := some "w1", hostId := "h1", connectionId := "k1", attemptId := "a1"
     completedAt := 2, errorMessage := "cancelled" })]

def stealOps : List Op :=
  [.createBegin 1 { sessionId := "s2", session := promptRow },
   .createStep 1, .createStep 1, .createStep 1, .createStep 1, .createStep 1]

def cancelledReport : StatusMessage :=
  { sessionId := "s1", attemptId := "a1", worktreeId := some "w1", status := .cancelled }

def reportRelease (r : SessionRow) : ReleaseCancelledCall :=
  { sessionId := "s1", read := r, worktreeId := "w1", site := .report cancelledReport (some ⟨"h1", "k1"⟩) }

def claimHolds (w : World) (r : SessionRow) : Bool :=
  r.status == .cancelled && r.worktreeId == .value "w1" && r.attemptId == some "a1" && r.hostId == .value "h1" &&
    (w.db.worktrees "w1").any (fun x => x.currentSessionId == .value "s1") &&
    namesConnection "k1" (w.db.hostLocks "h1") && Op.allowed w (.write (.releaseCancelled (reportRelease r) none))

theorem claim_of_claimHolds (hr : w.db.sessions "s1" = some r)
    (h : claimHolds w r = true) : CancelledClaim w (reportRelease r) cancelledReport ⟨"h1", "k1"⟩ r := by
  simp only [claimHolds, and_eq_true, beq_iff_eq, any_eq_true] at h
  obtain ⟨⟨⟨⟨⟨⟨hst, hwt⟩, hatt⟩, hhost⟩, x, hx, hcur⟩, hconn⟩, hmade⟩ := h
  exact ⟨hr, hst, hwt, hatt, hhost, ⟨x, hx, hcur⟩, hconn, rfl, hmade⟩

theorem cancelled_release_commits :
    ∃ w r, cancelPlane.Reachable w ∧ CancelledClaim w (reportRelease r) cancelledReport ⟨"h1", "k1"⟩ r ∧
      ∃ db', releaseCancelledSessionWorktree (reportRelease r).opts w.db w.db = (.ok true, db') ∧
        WorktreeFreed db' "s1" "w1" := by
  obtain ⟨w, hw, hp⟩ := World.exists_reachable_of_run (fun _ op => op.cancelPath) cancelOps
    (fun w => (w.db.sessions "s1").any fun r => claimHolds w r && r.concurrencyId == some "c" &&
      (w.db.concurrencyLocks "c").all fun y => y.sessionId == some "s1") smallWorld_fresh (by decide)
  simp only [any_eq_true, and_eq_true, beq_iff_eq, all_eq_true] at hp
  obtain ⟨r, hr, ⟨hclaim, hid⟩, hlock⟩ := hp
  have hc := claim_of_claimHolds hr hclaim
  refine ⟨w, r, hw, hc, (cancelled_release hw hc w.db).mpr fun d hd y hy => ?_⟩
  rw [hid] at hd
  cases (given_eq_some.mp hd).1
  exact hlock y hy

/-- After the takeover the late report releases nothing: the worktree stays busy for a cancelled session. -/
theorem cancelled_worktree_wedged :
    ∃ w r, cancelPlane.Reachable w ∧ CancelledClaim w (reportRelease r) cancelledReport ⟨"h1", "k1"⟩ r ∧
      ∀ db', releaseCancelledSessionWorktree (reportRelease r).opts w.db w.db ≠ (.ok true, db') := by
  obtain ⟨w, hw, hp⟩ := World.exists_reachable_of_run (fun _ op => op.cancelPath) (cancelOps ++ stealOps)
    (fun w => (w.db.sessions "s1").any fun r => claimHolds w r &&
      (releaseCancelledSessionWorktree (reportRelease r).opts w.db w.db).1.toOption == some false)
    smallWorld_fresh (by decide)
  simp only [any_eq_true, and_eq_true, beq_iff_eq] at hp
  obtain ⟨r, hr, hclaim, hlost⟩ := hp
  refine ⟨w, r, hw, claim_of_claimHolds hr hclaim, fun db' hok => ?_⟩
  rw [hok] at hlost
  cases hlost

end AutoHarness.Protocol

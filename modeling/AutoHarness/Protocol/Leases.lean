import AutoHarness.Protocol.History

/-! The two leases of a session row. A writer keeps or clears a lease; an assignment stores the one it takes. -/

namespace AutoHarness.Protocol
open Foundation Store Plane Function Option FinishSessionOpts WriteOp
open Bool (and_eq_true or_eq_true)

namespace WriteOp

theorem kept_or_cleared {α : Type} (b : Bool) (lease : Option α) :
    (if b = true then lease else none) = none ∨ (if b = true then lease else none) = lease := by
  cases b
  · exact .inl rfl
  · exact .inr rfl

theorem account_next (x : WriteOp) (r : SessionRow) : (x.writer.next r).providerAccountLease = none ∨
    (x.writer.next r).providerAccountLease = r.providerAccountLease := by
  cases x with
  | finish | releaseMainCheckout => exact kept_or_cleared ..
  | _ => first | exact .inl rfl | exact .inr rfl

theorem hostAssignmentLease_next (x : WriteOp) (r : SessionRow) : (x.writer.next r).hostAssignmentLease = none ∨
    (x.writer.next r).hostAssignmentLease = r.hostAssignmentLease := by
  cases x with
  | finish | releaseMainCheckout => exact kept_or_cleared ..
  | _ => first | exact .inl rfl | exact .inr rfl

theorem account_cleared (x : WriteOp) {r : SessionRow} {l : LeaseRef} (hl : x.writer.lease = some l) :
    (x.writer.next r).providerAccountLease = none := by
  cases x with
  | finish c cleanup =>
    cases hp : c.opts.preserveProviderAccountLease with
    | false => simp [writer, finished, hp]
    | true => simp [writer, deletedLease, hp] at hl
  | releaseMainCheckout read o cleanup =>
    cases hp : o.preserveProviderAccountLease with
    | false => simp [writer, ReleaseMainCheckoutOpts.released, hp]
    | true => simp [writer, ReleaseMainCheckoutOpts.deletedLease, hp] at hl
  | _ => first | rfl | cases hl

end WriteOp

/-! ## Keys -/

def LeaseKeyed (r : SessionRow) : Prop :=
  ∀ l, r.providerAccountLease = some l →
    l.concurrencyId = providerAccountLeaseConcurrencyId l.providerAccountId l.slot

variable {w : World} {op : Op} {x : Assigning}

theorem lease_of_assigned (ha : op.allowed w = true) (hop : op.assigning = some x) : x.opts.lease = ⟨x.opts.hostId⟩ :=
  lease_of_attemptPromised (attempt_of_allowed ha hop)

theorem lease_of_assigning {l : ProviderAccountLease}
    (ha : op.allowed w = true) (hop : op.assigning = some x) (hl : x.opts.providerAccountLease = some l) :
    l.attemptId = x.opts.attemptId ∧ l.providerAccountId ≠ "" ∧ x.opts.providerAccountId = some l.providerAccountId ∧
      l.concurrencyId = providerAccountLeaseConcurrencyId l.providerAccountId l.slot := by
  have hprom := attempt_of_allowed ha hop
  simp only [attemptPromised, and_eq_true, hl, all_some, beq_iff_eq, bne_iff_ne] at hprom
  exact ⟨hprom.2.1.1.1, hprom.2.1.1.2, hprom.2.1.2, hprom.2.2⟩

theorem leaseKeyed_row (h : plane.Reachable w) : ∀ s r, w.db.sessions s = some r → LeaseKeyed r := by
  induction h with
  | init hw => exact fun s r hr => absurd hr hw.no_row
  | @step w w' op hw hs ih =>
    obtain ⟨ha, rfl⟩ := hs
    refine rows_step (P := fun _ r => LeaseKeyed r) hw ha ih (fun x r hop h l hl => ?_) (fun x r hop h l hl => ?_)
      (fun s r _ hadm l hl => ?_) (fun s r n hr => hr) (fun s read hop l hl => (by cases hl))
    · obtain hnone | hsame := x.account_next r
      · rw [hnone] at hl
        cases hl
      · rw [hsame] at hl
        exact ih _ r h.row l hl
    · rw [h.launched.providerAccountLease] at hl
      cases hlease : x.opts.providerAccountLease with
      | none =>
        rw [hlease, none_or] at hl
        exact ih _ r h.checked.row l hl
      | some l' =>
        rw [hlease, some_or] at hl
        cases hl
        exact (lease_of_assigning ha hop hlease).2.2.2
    · rw [hadm.blank.providerAccountLease] at hl
      cases hl

variable {s c : String} {r : SessionRow}

theorem leaseKeyed_read (h : plane.Reachable w) (hr : w.hasRead s r = true) : LeaseKeyed r :=
  reads_of_rows (P := fun _ r => LeaseKeyed r) (fun _ hw => leaseKeyed_row hw) h s r hr

theorem creatable_read (h : plane.Reachable w)
    (hr : w.hasRead s r = true) (hc : r.concurrencyId = some c) : creatableConcurrencyId c = true := by
  obtain ⟨r', hr', hk⟩ := remembers h s r hr
  exact creatable_of_row h hr' (hk.concurrencyId.trans hc)

variable {x : WriteOp}

theorem lease_keyed (h : plane.Reachable w) (ha : Op.allowed w (.write x) = true)
    (hrow : w.db.sessions x.writer.sessionId = some r) (hcond : x.writer.cond r = true)
    {ref : LeaseRef} (hl : x.writer.lease = some ref) :
    ∃ account slot, ref.concurrencyId = providerAccountLeaseConcurrencyId account slot := by
  have hp := promised_of_allowed ha
  have of_read : ∀ {y : SessionRow} {o : Option ProviderAccountLease}, x.read = some y →
      o = y.providerAccountLease → o.map leaseRef = some ref →
      ∃ account slot, ref.concurrencyId = providerAccountLeaseConcurrencyId account slot := by
    intro y o hy ho href
    obtain ⟨l, hlease, rfl⟩ := map_eq_some_iff.mp href
    exact ⟨_, _, leaseKeyed_read h (read_of_allowed ha hy) l (ho ▸ hlease)⟩
  have of_limit : ∀ {y : SessionRow} {o : UsageLimitOpts}, x.read = some y → passesLeases y o = true →
      o.providerAccountLease.map leaseRef = some ref →
      ∃ account slot, ref.concurrencyId = providerAccountLeaseConcurrencyId account slot := by
    intro y o hy ho href
    simp only [passesLeases, and_eq_true, beq_iff_eq] at ho
    exact of_read hy ho.1 href
  cases x with
  | finish c cleanup =>
    simp only [writer, deletedLease] at hl
    split at hl
    · cases hl
    · obtain hnone | hsame := c.opts_account
      · rw [hnone] at hl
        cases hl
      · exact of_read rfl hsame hl
  | releaseMainCheckout read o cleanup =>
    simp only [writer, ReleaseMainCheckoutOpts.deletedLease] at hl
    split at hl
    · cases hl
    · simp only [promised, and_eq_true, or_eq_true, beq_iff_eq, isNone_iff_eq_none] at hp
      obtain hnone | hsame := hp.1.1.1.1.1
      · rw [hnone] at hl
        cases hl
      · exact of_read rfl hsame hl
  | requeue c | releaseCancelled c cleanup => exact of_read rfl c.opts_account hl
  | requeueUsageLimited | requeueUsageLimitedWorkspace | suppressProviderless | suppressProviderlessWorkspace
  | requeueMainCheckoutUsageLimited => exact of_limit rfl hp hl
  | releaseTimedOutProviderAccountLease read o =>
    cases hl
    simp only [writer, and_eq_true, any_eq_true, beq_iff_eq] at hcond
    obtain ⟨-, l, hlease, hkey, -⟩ := hcond
    exact ⟨_, _, hkey.symm.trans (leaseKeyed_row h _ r hrow l hlease)⟩
  | forceReleaseProviderAccountLease o =>
    cases hl
    simp only [writer, and_eq_true, beq_iff_eq] at hcond
    exact ⟨_, _, leaseKeyed_row h _ r hrow _ hcond.2⟩
  | _ => cases hl

theorem creatable_lock (h : plane.Reachable w) (ha : Op.allowed w (.write x) = true)
    (hc : x.writer.lock = some c) : creatableConcurrencyId c = true := by
  have hp := promised_of_allowed ha
  have of_read : ∀ {r : SessionRow} {o : Option String}, x.read = some r → o = r.concurrencyId →
      given o = some c → creatableConcurrencyId c = true := by
    intro r o hr ho hg
    refine creatable_read h (read_of_allowed ha hr) ?_
    rw [← ho]
    exact (given_eq_some.mp hg).1
  cases x with
  | cancelQueued | expireQueued => exact of_read rfl (beq_iff_eq.mp hp) hc
  | finish c' cleanup =>
    simp only [writer, deletedLock] at hc
    split at hc
    · cases hc
    · exact creatable_read h (read_of_allowed ha rfl) (FinishCall.opts_concurrencyId hc)
  | releaseCancelled c' cleanup => exact of_read rfl c'.opts_concurrencyId hc
  | releaseMainCheckout read o cleanup =>
    simp only [writer, ReleaseMainCheckoutOpts.deletedLock] at hc
    split at hc
    · cases hc
    · simp only [promised, and_eq_true, or_eq_true, beq_iff_eq, isNone_iff_eq_none] at hp
      obtain hnone | hsame := hp.1.1.1.2
      · rw [hnone] at hc
        cases hc
      · exact of_read rfl hsame hc
  | _ => cases hc

/-! ## Queued sessions hold no lease -/

def Unleased (r : SessionRow) : Prop := r.providerAccountLease = none ∧ r.hostAssignmentLease = none

theorem unleased_next (hp : x.promised = true) (hr : r.status = .queued → Unleased r)
    (hq : (x.writer.next r).status = .queued) : Unleased (x.writer.next r) := by
  cases x with
  | finish c cleanup =>
    obtain hkeep | hstatus := c.opts_preserve
    · exact ⟨by simp [writer, finished, hkeep.1], by simp [writer, finished, hkeep.2]⟩
    · change c.opts.status = .queued at hq
      rw [hstatus] at hq
      cases hq
  | releaseMainCheckout read o cleanup =>
    change o.status = .queued at hq
    simp only [promised, hq, and_eq_true, or_eq_true, Bool.not_eq_true', beq_iff_eq, reduceCtorEq,
      or_false] at hp
    obtain ⟨⟨-, ⟨hlease, hhost⟩, -⟩, -⟩ := hp
    exact ⟨by simp [writer, ReleaseMainCheckoutOpts.released, hlease],
      by simp [writer, ReleaseMainCheckoutOpts.released, hhost]⟩
  | cancelQueued | expireQueued | cancelRunning | cancelRunningMainCheckout => cases hq
  | requeue | requeueUsageLimited | requeueUsageLimitedWorkspace | suppressProviderless
  | suppressProviderlessWorkspace | releaseCancelled | requeueMainCheckoutUsageLimited
  | releaseTimedOutProviderAccountLease => exact ⟨rfl, rfl⟩
  | releaseTimedOutHostAssignment read o => exact ⟨(hr hq).1, rfl⟩
  | forceReleaseProviderAccountLease o => exact ⟨rfl, (hr hq).2⟩
  | settleHandoff | expireHandoff | note => exact hr hq

theorem queued_unleased (h : plane.Reachable w) :
    ∀ s r, w.db.sessions s = some r → r.status = .queued → Unleased r := by
  induction h with
  | init hw => exact fun s r hr => absurd hr hw.no_row
  | @step w w' op hw hs ih =>
    obtain ⟨ha, rfl⟩ := hs
    refine rows_step (P := fun _ r => r.status = .queued → Unleased r) hw ha ih (fun x r hop h hq => ?_)
      (fun x r hop h hq => ?_) (fun s r _ hadm _ => ?_) (fun s r n hP hq => hP hq)
      (fun s read hop hq => ⟨rfl, rfl⟩)
    · subst hop
      exact unleased_next (promised_of_allowed ha) (ih _ r h.row) hq
    · rw [h.launched.status] at hq
      cases hq
    · exact ⟨hadm.blank.providerAccountLease, hadm.blank.hostAssignmentLease⟩

/-! ## What a request does to the leases -/

def carries (db : Db) (s : String) : Option ProviderAccountLease := (db.sessions s).bind (·.providerAccountLease)

def reserves (db : Db) (s : String) : Option HostAssignmentLease := (db.sessions s).bind (·.hostAssignmentLease)

variable {db db' : Db}

theorem carries_update (h : db'.sessions = update db.sessions s (some r)) :
    carries db' = update (carries db) s r.providerAccountLease := by
  funext t
  by_cases ht : t = s
  all_goals simp [carries, h, ht]

theorem reserves_update (h : db'.sessions = update db.sessions s (some r)) :
    reserves db' = update (reserves db) s r.hostAssignmentLease := by
  funext t
  by_cases ht : t = s
  all_goals simp [reserves, h, ht]

/-- The records of the two kinds of capacity, on the session's side and on the resource's. -/
structure LeasesKept (db db' : Db) : Prop where
  carried : carries db' = carries db
  reserved : reserves db' = reserves db
  locks : ∀ account slot, db'.concurrencyLocks (providerAccountLeaseConcurrencyId account slot) =
    db.concurrencyLocks (providerAccountLeaseConcurrencyId account slot)
  counts : ∀ h, assignmentCount db'.hostLocks h = assignmentCount db.hostLocks h

theorem LeasesKept.of_sessions (hs : db'.sessions = db.sessions)
    (hlocks : ∀ account slot, db'.concurrencyLocks (providerAccountLeaseConcurrencyId account slot) =
      db.concurrencyLocks (providerAccountLeaseConcurrencyId account slot))
    (hcounts : ∀ h, assignmentCount db'.hostLocks h = assignmentCount db.hostLocks h) : LeasesKept db db' :=
  ⟨by unfold carries; rw [hs], by unfold reserves; rw [hs], hlocks, hcounts⟩

/-- Everything a request can do to the leases: only five kinds of requests touch them. -/
inductive LeaseEffect (w : World) (op : Op) (db' : Db) : Prop
  | kept (h : LeasesKept w.db db')
  | wrote (x : WriteOp) (r : SessionRow) (hop : op = .write x) (h : Wrote x.writer w.db db' r)
  | assigned (x : Assigning) (r : SessionRow) (hop : op.assigning = some x) (h : Assigned x w.db db' r)
  | leaseReleased (s : String) (read : SessionRow) (l : ProviderAccountLease)
      (hop : op = .releaseProviderAccountLease s read l)
      (hown : ∀ y, w.db.concurrencyLocks l.concurrencyId = some y → y.ownedBy s l.attemptId = true)
      (h : Tables db' w.db.sessions w.db.worktrees
        (locksReleased (some l.concurrencyId) w.db.concurrencyLocks) w.db.hostLocks)
  | persisted (s : String) (read : SessionRow) (hop : op = .putTimedOut s read)
      (h : Tables db' (Function.update w.db.sessions s (some (timedOutPersisted read))) w.db.worktrees
        w.db.concurrencyLocks w.db.hostLocks)

theorem leasesKept_created {o : CreateOpts} {lock : Option String} (h : Created o lock db db')
    (hadm : Admissible o.session) (hlock : ∀ c, lock = some c → creatableConcurrencyId c = true) :
    LeasesKept db db' := by
  have hrow : ∀ {β : Type} (f : SessionRow → Option β), f o.session = none →
      (∀ (r : SessionRow) n, f { r with descendantCount := some n } = f r) → ∀ s,
      (db'.sessions s).bind f = (db.sessions s).bind f := by
    intro β f hf hbump s
    by_cases hs : s = o.sessionId
    · rw [hs, h.row, h.absent]
      exact hf
    · obtain hsame | ⟨r, n, hr, hsame⟩ := h.others s hs
      · rw [hsame]
      · rw [hsame, hr]
        exact hbump r n
  refine ⟨funext (hrow _ hadm.blank.providerAccountLease fun _ _ => rfl), funext (hrow _ hadm.blank.hostAssignmentLease fun _ _ => rfl),
    fun account slot => ?_, fun x => by rw [h.hostLocks]⟩
  rw [h.locks]
  cases lock with
  | none => rfl
  | some c => exact update_of_ne (creatable_ne_account (hlock c rfl)).symm _ _

/-- **Step lemma** for the leases. -/
theorem World.leaseEffect (hw : plane.Reachable w) (ha : op.allowed w = true) : LeaseEffect w op (w.act op).1 := by
  cases World.effect ha with
  | quiet h | worktreeLinked i online k x hop hx h =>
    exact .kept (.of_sessions h.sessions (fun _ _ => by rw [h.locks]) fun _ => by rw [h.hosts])
  | wrote x r hop h => exact .wrote x r hop h
  | assigned x r hop h => exact .assigned x r hop h
  | createdPlain o hop h =>
    subst hop
    exact .kept (leasesKept_created h (admissible_of_createPlain ha) fun c hc => by cases hc)
  | created n k call hop hcall hpc h =>
    obtain ⟨hadm, hid⟩ := calls_admissible hw hcall
    exact .kept (leasesKept_created h hadm fun c hc => by cases hc; exact hadm.2 _ hid)
  | stolen n k call reasons holder after y hop hcall hpc hy hn h =>
    obtain ⟨hadm, hid⟩ := calls_admissible hw hcall
    refine .kept (.of_sessions h.sessions (fun a n => ?_) fun _ => by rw [h.hosts])
    rw [h.locks]
    exact locksReleased_ne fun e => creatable_ne_account (hadm.2 _ hid) (some.inj e)
  | leaseReleased s read l hop hown h => exact .leaseReleased s read l hop hown h
  | persisted s read hop hcreated h => exact .persisted s read hop h
  | hostLinked host k d e hop h =>
    refine .kept (.of_sessions h.sessions (fun _ _ => by rw [h.locks]) fun x => ?_)
    rw [h.hosts]
    by_cases hx : x = host
    · subst hx
      cases hr : w.db.hostLocks x <;> simp [assignmentCount, hr]
    · simp [assignmentCount, hx]
  | marked key row hop h =>
    refine .kept (.of_sessions h.sessions (fun a n => ?_) fun _ => by rw [h.hosts])
    rw [h.locks]
    exact update_of_ne account_ne_marker _ _

end AutoHarness.Protocol

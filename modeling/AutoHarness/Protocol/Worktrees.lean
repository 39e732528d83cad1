import AutoHarness.Foundation.Ownership
import AutoHarness.Protocol.History

/-! Worktree claims. The link is stored on the session row, on the worktree row and, after a deferred report, in a
handoff. A writer gives up the session's side exactly when it frees the worktree's. -/

namespace AutoHarness.Protocol
open Foundation Store Plane Function Option Bool FinishSessionOpts WriteOp World

/-! ## The two sides of a claim -/

/-- The row holds worktree `i`, directly or through a handoff that reserves it. -/
def HoldsWorktree (r : SessionRow) (i : String) : Prop :=
  r.worktreeId = .value i ∨ r.terminalHookHandoff.bind (·.worktreeId) = some i

def sessionHolds (db : Db) (s i : String) : Prop := ∃ r, db.sessions s = some r ∧ HoldsWorktree r i

def worktreeOwner (db : Db) (i : String) : Option String :=
  (db.worktrees i).bind fun x => x.currentSessionId.toOption

variable {db : Db} {i s : String}

theorem worktreeOwner_eq_some :
    worktreeOwner db i = some s ↔ ∃ x, db.worktrees i = some x ∧ x.currentSessionId = .value s := by
  simp [worktreeOwner, bind_eq_some_iff, Attr.toOption_eq_some]

def Op.worktreeOnly : Op → Bool
  | assignMainCheckout _ => false
  | assignWorkspace _ => false
  | _ => true

/-- A queued session has no worktree, only a terminal one a handoff, and then no worktree besides. -/
structure WorktreeRowInv (r : SessionRow) : Prop where
  queued : r.status = .queued → r.worktreeId.toOption = none
  active : r.status.isActive = true → r.terminalHookHandoff = none
  handoff : r.terminalHookHandoff ≠ none → r.worktreeId.toOption = none
  slot : r.workspaceSlotId.toOption = none
  main : r.mainCheckoutLease = false
  key : ∀ i, r.worktreeId = .value i → i ≠ ""

variable {r : SessionRow}

theorem WorktreeRowInv.no_handoff (h : WorktreeRowInv r)
    (hi : r.worktreeId = .value i) : r.terminalHookHandoff = none := by
  by_contra hne
  have := h.handoff hne
  rw [hi] at this
  cases this

structure WorktreeInv (w : World) : Prop where
  rows : ∀ s r, w.hasRead s r = true → WorktreeRowInv r
  consistent : Consistent (worktreeOwner w.db) (sessionHolds w.db)
  busy : ∀ i x, w.db.worktrees i = some x → x.currentSessionId.toOption ≠ none → x.status = .busy
  noKey : w.db.worktrees "" = none

variable {w : World}

theorem WorktreeInv.key_of_holds (h : WorktreeInv w)
    (hr : w.db.sessions s = some r) (hi : HoldsWorktree r i) : i ≠ "" := by
  rintro rfl
  have howner := (h.consistent "" s).mpr ⟨r, hr, hi⟩
  rw [worktreeOwner, h.noKey] at howner
  cases howner

/-! ## Writers are balanced -/

/-- The writer's new row is in order, and holds what the old one held except for the worktree that the
writer frees. -/
structure Balanced (x : Writer) (r : SessionRow) : Prop where
  row : WorktreeRowInv (x.next r)
  holds : ∀ i, HoldsWorktree (x.next r) i ↔ HoldsWorktree r i ∧ x.worktree ≠ some i

variable {x : Writer} {h : TerminalHookHandoff} {c : FinishCall}

theorem balanced_of_same (hinv : WorktreeRowInv r) (hx : x.worktree = none)
    (hw : (x.next r).worktreeId = r.worktreeId) (hh : (x.next r).terminalHookHandoff = r.terminalHookHandoff)
    (hs : (x.next r).workspaceSlotId.toOption = none) (hm : (x.next r).mainCheckoutLease = false)
    (hq : (x.next r).status = .queued → r.worktreeId.toOption = none)
    (ha : (x.next r).status.isActive = true → r.terminalHookHandoff = none) : Balanced x r := by
  refine ⟨⟨fun h => ?_, fun h => ?_, fun hne => ?_, hs, hm, fun i hi => ?_⟩, fun i => ?_⟩
  · rw [hw]
    exact hq h
  · rw [hh]
    exact ha h
  · rw [hh] at hne
    rw [hw]
    exact hinv.handoff hne
  · rw [hw] at hi
    exact hinv.key i hi
  · rw [HoldsWorktree, HoldsWorktree, hw, hh, hx]
    simp

theorem balanced_of_freed (hinv : WorktreeRowInv r)
    (hi : r.worktreeId = .value i) (hx : x.worktree = some i) (hw : (x.next r).worktreeId = .null)
    (hh : (x.next r).terminalHookHandoff = r.terminalHookHandoff)
    (hs : (x.next r).workspaceSlotId.toOption = none) (hm : (x.next r).mainCheckoutLease = false) : Balanced x r := by
  have hnone := hinv.no_handoff hi
  refine ⟨⟨fun _ => by rw [hw]; rfl, fun _ => by rw [hh, hnone], fun _ => by rw [hw]; rfl, hs, hm,
    fun j hj => ?_⟩, fun j => ?_⟩
  · rw [hw] at hj
    cases hj
  · rw [HoldsWorktree, HoldsWorktree, hw, hh, hnone, hi, hx]
    simp

theorem balanced_of_disposed (hw : plane.Reachable w) (hinv : WorktreeInv w)
    {handoffId : String} {read : SessionRow} {worktreeId repo : Option String}
    (hread : w.hasRead s read = true) (hd : disposes read handoffId worktreeId repo = true)
    (hrow : w.db.sessions x.sessionId = some r) (hh : r.terminalHookHandoff = some h)
    (hid : h.handoffId = handoffId) (hx : x.worktree = given worktreeId)
    (hkeep : (x.next r).worktreeId = r.worktreeId) (hnone : (x.next r).terminalHookHandoff = none)
    (hs : (x.next r).workspaceSlotId.toOption = none) (hm : (x.next r).mainCheckoutLease = false) : Balanced x r := by
  have hr := hinv.rows _ r (hasRead_current hrow)
  have hfree : r.worktreeId.toOption = none := hr.handoff (by rw [hh]; simp)
  have hsame := (disposed_handoff hw hread hd hrow hh hid).1
  refine ⟨⟨fun _ => by rw [hkeep]; exact hfree, fun _ => hnone, fun hne => absurd hnone hne, hs, hm,
    fun i hi => ?_⟩, fun i => ?_⟩
  · rw [hkeep] at hi
    exact hr.key i hi
  · rw [HoldsWorktree, hkeep, hnone, hx]
    constructor
    · rintro (hi | hi)
      · rw [hi] at hfree
        cases hfree
      · cases hi
    · rintro ⟨hi, hne⟩
      have hkey := hinv.key_of_holds hrow hi
      obtain hi | hi := hi
      · exact .inl hi
      · rw [hh, bind_some, hsame] at hi
        exact absurd (given_eq_some.mpr ⟨hi, hkey⟩) hne

theorem handoff_worktreeId (hinv : WorktreeInv w) (hg : c.guard = true) (hread : w.hasRead c.sessionId c.read = true)
    (hh : c.opts.terminalHookHandoff = some h) : h.worktreeId = c.opts.worktreeId := by
  have hr := hinv.rows _ _ hread
  rw [(FinishCall.opts_handoff hg hh).2.1.1]
  obtain he | ⟨he, hgiven⟩ | hslot := FinishCall.opts_worktreeId_of_handoff hg hh
  · exact he.symm
  · rw [he]
    cases hw : c.read.worktreeId with
    | missing | null => rfl
    | value i =>
      rw [hw, Attr.toOption_value, given_eq_some.mpr ⟨rfl, hr.key i hw⟩] at hgiven
      cases hgiven
  · rw [hr.slot] at hslot
    cases hslot

theorem balanced_finish (hinv : WorktreeInv w) {cleanup : Option (DrainScope × DrainRecord)} (hg : c.guard = true)
    (hread : w.hasRead c.sessionId c.read = true) (hrow : w.db.sessions c.sessionId = some r)
    (hc : c.opts.condition r = true) : Balanced (finish c cleanup).writer r := by
  have hr := hinv.rows _ r (hasRead_current hrow)
  obtain ⟨hst, hw, -, -, habsent, -⟩ := FinishSessionOpts.condition_iff.mp hc
  obtain ⟨hnr, hexp⟩ := FinishCall.opts_status hg
  have hslot : (c.opts.finished r).workspaceSlotId.toOption = none := by
    simp only [finished]
    split
    · exact hr.slot
    · rfl
  cases hh : c.opts.terminalHookHandoff with
  | none =>
    have hsame : (c.opts.finished r).terminalHookHandoff = r.terminalHookHandoff := by
      simp [finished, hh]
    cases hwo : c.opts.worktreeId with
    | some i =>
      rw [hwo] at hw
      have hfreed : c.opts.freedWorktree = some i := by
        simp [freedWorktree, hwo, hh, given_eq_some.mpr ⟨rfl, hr.key i hw⟩]
      exact balanced_of_freed hr hw hfreed rfl hsame hslot hr.main
    | none =>
      rw [hwo] at hw
      refine balanced_of_same hr ?_ hw.symm hsame hslot hr.main (fun _ => by rw [hw]; rfl) fun ha => ?_
      · simp [writer, freedWorktree, hwo]
      · -- a call that leaves the session active started from an active one
        refine hr.active ?_
        rw [← SessionStatus.isTerminal_eq_false, eq_false_iff]
        intro ht
        have := terminal_of_expected hst hexp ht
        rw [SessionStatus.isTerminal_iff] at this
        exact absurd (this.symm.trans ha) (by simp)
  | some h =>
    obtain ⟨hterm, -, hcase⟩ := FinishCall.opts_handoff hg hh
    have hnone : r.terminalHookHandoff = none := by
      obtain he | he := hcase
      · exact hr.active (by rw [hst, he]; rfl)
      · exact habsent he
    have hwid := handoff_worktreeId hinv hg hread hh
    have hstored : (c.opts.finished r).terminalHookHandoff = some h := by
      simp [finished, hh]
    have hfreed : c.opts.freedWorktree = none := by
      rw [freedWorktree, filter_eq_none_iff]
      intro i hi
      rw [hh, bind_some, hwid, (given_eq_some.mp hi).1]
      simp
    refine ⟨⟨fun _ => rfl, fun ha => ?_, fun _ => rfl, hslot, hr.main, fun i hi => (by cases hi)⟩, fun i => ?_⟩
    · rw [SessionStatus.isTerminal_iff] at hterm
      exact absurd (hterm.symm.trans ha) (by simp)
    · have hnew : HoldsWorktree (c.opts.finished r) i ↔ c.opts.worktreeId = some i := by
        rw [HoldsWorktree, hstored, bind_some, hwid]
        exact or_iff_right (by simp [finished])
      have hold : HoldsWorktree r i ↔ c.opts.worktreeId = some i := by
        rw [HoldsWorktree, hnone, hw, bind_none]
        cases c.opts.worktreeId <;> simp
      change HoldsWorktree (c.opts.finished r) i ↔ HoldsWorktree r i ∧ c.opts.freedWorktree ≠ some i
      rw [hnew, hold, hfreed]
      simp

theorem balanced (hw : plane.Reachable w) (hinv : WorktreeInv w) {op : WriteOp}
    (ha : Op.allowed w (.write op) = true) (hrow : w.db.sessions op.writer.sessionId = some r)
    (hc : op.writer.cond r = true) : Balanced op.writer r := by
  have hr := hinv.rows _ r (hasRead_current hrow)
  have hp := promised_of_allowed ha
  cases op with
  | cancelQueued read o activity =>
    have hq : r.status = .queued := beq_iff_eq.mp hc
    have hnone := hr.queued hq
    have hh := hr.active (by rw [hq]; rfl)
    refine ⟨⟨fun _ => rfl, fun h => ?_, fun _ => rfl, hr.slot, hr.main, nofun⟩, fun i => ?_⟩
    · cases h
    · change (Attr.null = Attr.value i ∨ r.terminalHookHandoff.bind (·.worktreeId) = some i) ↔ _
      rw [HoldsWorktree, hh]
      cases hwid : r.worktreeId <;> simp_all
  | expireQueued | cancelRunning | cancelRunningMainCheckout =>
    exact balanced_of_same hr rfl rfl rfl hr.slot hr.main (nofun) (nofun)
  | requeue c =>
    exact balanced_of_freed hr (RequeueOpts.condition_iff.mp hc).2.1 rfl rfl rfl hr.slot hr.main
  | requeueUsageLimited | suppressProviderless =>
    exact balanced_of_freed hr (runningOnWorktree_iff.mp hc).2.1 rfl rfl rfl hr.slot hr.main
  | requeueUsageLimitedWorkspace | suppressProviderlessWorkspace =>
    have hs := hr.slot
    rw [(runningOnSlot_iff.mp hc).2.1] at hs
    cases hs
  | finish c cleanup =>
    rw [writer_sessionId] at hrow
    exact balanced_finish hinv hp (read_of_allowed ha rfl) hrow hc
  | releaseCancelled c cleanup =>
    exact balanced_of_freed hr (ReleaseCancelledOpts.condition_iff.mp hc).2.1 rfl rfl rfl hr.slot hr.main
  | releaseMainCheckout read o cleanup =>
    have hm := hr.main
    rw [(ReleaseMainCheckoutOpts.condition_iff.mp hc).2.2.2.1] at hm
    cases hm
  | requeueMainCheckoutUsageLimited read o =>
    simp only [writer, usageLimitWriter, and_eq_true] at hc
    have hm := hr.main
    rw [hc.1.2] at hm
    cases hm
  | releaseTimedOutHostAssignment | releaseTimedOutProviderAccountLease | forceReleaseProviderAccountLease =>
    exact balanced_of_same hr rfl rfl rfl hr.slot hr.main hr.queued hr.active
  | settleHandoff | expireHandoff =>
    simp only [writer, any_eq_true, beq_iff_eq] at hc
    obtain ⟨h, hh, hid⟩ := hc
    refine balanced_of_disposed hw hinv (read_of_allowed ha rfl) hp hrow hh hid rfl rfl rfl hr.slot ?_
    simp [writer, SessionRow.withoutHandoff, hr.main]
  | note s n => exact balanced_of_same hr rfl rfl rfl hr.slot hr.main hr.queued hr.active

/-! ## Session rows -/

theorem assign_of_worktreeOnly {op : Op} {x : Assigning} (hok : op.worktreeOnly = true) (hop : op.assigning = some x) :
    ∃ o : AssignSessionOpts, x = ⟨o.toAssignmentOpts, o.claimed, some o.worktreeId⟩ := by
  cases op with
  | assignWorktree o =>
    cases hop
    exact ⟨o, rfl⟩
  | assignMainCheckout | assignWorkspace => cases hok
  | _ => cases hop

theorem worktreeRowInv_of_admissible (h : Admissible r) : WorktreeRowInv r := by
  obtain ⟨-, hw, hs, hm, -, -, -, hh, -⟩ := h.blank
  exact ⟨fun _ => by rw [hw]; rfl, fun _ => hh, fun hne => absurd hh hne, hs, hm,
    fun i hi => by rw [hw] at hi; cases hi⟩

variable {w : World} {op : Op}

theorem worktreeRowInv_step (hw : plane.Reachable w) (hinv : WorktreeInv w) (ha : op.allowed w = true)
    (hok : op.worktreeOnly = true) : ∀ s r, (w.act op).1.sessions s = some r → WorktreeRowInv r := by
  refine rows_step hw ha (fun s r hr => hinv.rows s r (hasRead_current hr)) (fun x r hop h => ?_)
    (fun x r hop h => ?_) (fun s r _ hadm => worktreeRowInv_of_admissible hadm) (fun s r n hr => ?_)
    (fun s read hop => ?_)
  · subst hop
    exact (balanced hw hinv ha h.row h.cond).row
  · obtain ⟨o, rfl⟩ := assign_of_worktreeOnly hok hop
    have hr := hinv.rows _ r (hasRead_current h.checked.row)
    obtain ⟨y, hy, -⟩ := h.worktrees
    have hnone := hr.active (by rw [h.checked.queued]; rfl)
    refine ⟨nofun, fun _ => hnone, fun hne => absurd hnone hne, hr.slot, hr.main, fun i hi => ?_⟩
    cases hi
    intro hkey
    rw [hkey, hinv.noKey] at hy
    cases hy
  · exact ⟨hr.queued, hr.active, hr.handoff, hr.slot, hr.main, hr.key⟩
  · -- only a workspace session's row is put whole
    subst hop
    simp only [Op.allowed, and_eq_true] at ha
    have hslot := ha.2
    rw [(hinv.rows s read ha.1.1).slot] at hslot
    cases hslot

/-! ## Both sides over a step -/

variable {db' : Db}

theorem sessionHolds_update {r' : SessionRow} (h : db'.sessions = update db.sessions s (some r')) :
    (∀ i, sessionHolds db' s i ↔ HoldsWorktree r' i) ∧
      ∀ t, t ≠ s → ∀ i, sessionHolds db' t i ↔ sessionHolds db t i := by
  refine ⟨fun i => ?_, fun t ht i => ?_⟩
  · simp [sessionHolds, h]
  · simp [sessionHolds, h, ht]

theorem sessionHolds_of_row (h : db.sessions s = some r) : sessionHolds db s i ↔ HoldsWorktree r i := by
  simp [sessionHolds, h]

theorem worktreeOwner_released {x : Option String} {set : WorktreeRow → WorktreeRow}
    (h : db'.worktrees = worktreesReleased x set db.worktrees) (i : String) :
    worktreeOwner db' i = if x = some i then none else worktreeOwner db i := by
  rw [worktreeOwner, h, worktreesReleased_apply]
  split
  · cases db.worktrees i <;> rfl
  · rfl

section

variable {o : AssignmentOpts}

theorem worktreeOwner_claimed {x : Option String} (h : WorktreeClaimed o x db db') (i : String) :
    worktreeOwner db' i = if x = some i then some o.sessionId else worktreeOwner db i := by
  cases x with
  | none => simp [worktreeOwner, show db'.worktrees = db.worktrees from h]
  | some j =>
    obtain ⟨y, -, -, hset⟩ := h
    by_cases hj : i = j
    · simp [worktreeOwner, hset, hj, WorktreeRow.claimed]
    · simp [worktreeOwner, hset, hj, Ne.symm hj]

theorem unowned_of_claimed (h : WorktreeClaimed o (some i) db db')
    (hbusy : ∀ i x, db.worktrees i = some x → x.currentSessionId.toOption ≠ none → x.status = .busy) :
    worktreeOwner db i = none := by
  obtain ⟨y, hy, hidle, -⟩ := h
  rw [worktreeOwner, hy, bind_some]
  by_contra hne
  have hst := hbusy i y hy hne
  rw [hidle] at hst
  cases hst

end

theorem consistent_wrote (hw : plane.Reachable w) (hinv : WorktreeInv w) {x : WriteOp}
    (ha : Op.allowed w (.write x) = true) (h : Wrote x.writer w.db db' r) :
    Consistent (worktreeOwner db') (sessionHolds db') := by
  obtain ⟨set, hset⟩ := h.worktrees
  obtain ⟨hself, hother⟩ := sessionHolds_update h.sessions
  refine hinv.consistent.give (s := x.writer.sessionId) (x := x.writer.worktree) (fun i hi => ?_)
    (worktreeOwner_released hset) (fun i => ?_) hother
  · exact worktreeOwner_eq_some.mpr (h.worktreeOwned i hi)
  · rw [hself, (balanced hw hinv ha h.row h.cond).holds, sessionHolds_of_row h.row]

theorem consistent_assigned (hinv : WorktreeInv w) {o : AssignSessionOpts}
    (h : Assigned ⟨o.toAssignmentOpts, o.claimed, some o.worktreeId⟩ w.db db' r) :
    Consistent (worktreeOwner db') (sessionHolds db') := by
  obtain ⟨hself, hother⟩ := sessionHolds_update h.sessions
  have hr := hinv.rows _ r (hasRead_current h.checked.row)
  -- a queued session holds nothing
  have hnothing : ∀ i, ¬ HoldsWorktree r i := by
    intro i hi
    have hw := hr.queued h.checked.queued
    have hh := hr.active (by rw [h.checked.queued]; rfl)
    rw [HoldsWorktree, hh] at hi
    obtain hi | hi := hi
    · rw [hi] at hw
      cases hw
    · cases hi
  refine hinv.consistent.take (s := o.sessionId) (x := some o.worktreeId) (fun i hi => ?_)
    (worktreeOwner_claimed h.worktrees) (fun i => ?_) hother
  · cases hi
    exact unowned_of_claimed h.worktrees hinv.busy
  · rw [hself, sessionHolds_of_row h.checked.row]
    have hh := hr.active (by rw [h.checked.queued]; rfl)
    have hnew : HoldsWorktree (o.claimed r) i ↔ some o.worktreeId = some i := by
      rw [HoldsWorktree, h.launched.worktreeId, h.launched.terminalHookHandoff, hh]
      simp
    rw [hnew]
    exact ⟨.inr, fun h => h.resolve_left (hnothing i)⟩

theorem sessionHolds_created {o : CreateOpts} {lock : Option String}
    (h : Created o lock db db') (hadm : Admissible o.session) (s i : String) :
    sessionHolds db' s i ↔ sessionHolds db s i := by
  by_cases hs : s = o.sessionId
  · subst hs
    rw [sessionHolds_of_row h.row, HoldsWorktree, hadm.blank.worktreeId, hadm.blank.terminalHookHandoff]
    simp [sessionHolds, h.absent]
  · obtain h₁ | ⟨y, n, hy, h₁⟩ := h.others s hs
    · simp [sessionHolds, h₁]
    · rw [sessionHolds_of_row hy, sessionHolds_of_row h₁]
      rfl

theorem consistent_step (hw : plane.Reachable w) (hinv : WorktreeInv w) (ha : op.allowed w = true)
    (hok : op.worktreeOnly = true) : Consistent (worktreeOwner (w.act op).1) (sessionHolds (w.act op).1) := by
  have same : (w.act op).1.sessions = w.db.sessions → (w.act op).1.worktrees = w.db.worktrees →
      Consistent (worktreeOwner (w.act op).1) (sessionHolds (w.act op).1) := by
    intro hs hwt
    refine hinv.consistent.congr (fun i => ?_) (fun s i => ?_)
    · rw [worktreeOwner, hwt, worktreeOwner]
    · rw [sessionHolds, hs, sessionHolds]
  have created : ∀ {o : CreateOpts} {lock : Option String}, Created o lock w.db (w.act op).1 →
      Admissible o.session → Consistent (worktreeOwner (w.act op).1) (sessionHolds (w.act op).1) := by
    intro o lock h hadm
    refine hinv.consistent.congr (fun i => ?_) (sessionHolds_created h hadm)
    rw [worktreeOwner, h.worktrees, worktreeOwner]
  cases effect ha with
  | quiet h | hostLinked x k d e hop h | marked key row hop h => exact same h.sessions h.worktrees
  | wrote x r hop h =>
    subst hop
    exact consistent_wrote hw hinv ha h
  | assigned x r hop h =>
    obtain ⟨o, rfl⟩ := assign_of_worktreeOnly hok hop
    exact consistent_assigned hinv h
  | createdPlain o hop h =>
    subst hop
    exact created h (admissible_of_createPlain ha)
  | created n k call hop hcall hpc h => exact created h (calls_admissible hw hcall).1
  | stolen n k call reasons holder after y hop hcall hpc hy hn h | leaseReleased x y l hop hown h =>
    exact same h.sessions h.worktrees
  | persisted s read hop hcreated h =>
    subst hop
    simp only [Op.allowed, and_eq_true] at ha
    have hslot := ha.2
    rw [(hinv.rows s read ha.1.1).slot] at hslot
    cases hslot
  | worktreeLinked j online k x hop hx h =>
    refine hinv.consistent.congr (fun i => ?_) (fun s i => ?_)
    · rw [worktreeOwner, h.worktrees, worktreeOwner]
      by_cases hj : i = j
      · subst hj
        simp [hx]
      · simp [hj]
    · rw [sessionHolds, h.sessions, sessionHolds]

theorem worktree_step (ha : op.allowed w = true) {x : WorktreeRow} (hx : (w.act op).1.worktrees i = some x) :
    ∃ y, w.db.worktrees i = some y ∧
      ((x.status = y.status ∧ x.currentSessionId = y.currentSessionId) ∨ x.currentSessionId = .null ∨
        x.status = .busy) := by
  have same : (w.act op).1.worktrees = w.db.worktrees → ∃ y, w.db.worktrees i = some y ∧
      ((x.status = y.status ∧ x.currentSessionId = y.currentSessionId) ∨ x.currentSessionId = .null ∨
        x.status = .busy) := fun h => ⟨x, by rw [← h]; exact hx, .inl ⟨rfl, rfl⟩⟩
  cases effect ha with
  | quiet h | createdPlain o hop h | created n k call hop hcall hpc h
  | stolen n k call reasons holder after y hop hcall hpc hy hn h | leaseReleased s y l hop hown h
  | persisted s read hop hcreated h | hostLinked host k d e hop h | marked key row hop h => exact same h.worktrees
  | wrote op r hop h =>
    obtain ⟨set, hset⟩ := h.worktrees
    rw [hset, worktreesReleased_apply] at hx
    split at hx
    · obtain ⟨y, hy, rfl⟩ := map_eq_some_iff.mp hx
      exact ⟨y, hy, .inr (.inl rfl)⟩
    · exact ⟨x, hx, .inl ⟨rfl, rfl⟩⟩
  | assigned a r hop h =>
    have hclaim := h.worktrees
    cases hw : a.worktree with
    | none =>
      rw [hw] at hclaim
      exact same hclaim
    | some j =>
      rw [hw] at hclaim
      obtain ⟨y, hy, -, hset⟩ := hclaim
      rw [hset] at hx
      by_cases hj : i = j
      · subst hj
        rw [update_self] at hx
        cases hx
        exact ⟨y, hy, .inr (.inr rfl)⟩
      · rw [update_of_ne hj] at hx
        exact ⟨x, hx, .inl ⟨rfl, rfl⟩⟩
  | worktreeLinked j online k y hop hy h =>
    rw [h.worktrees] at hx
    by_cases hj : i = j
    · subst hj
      rw [update_self] at hx
      cases hx
      exact ⟨y, hy, .inl ⟨rfl, rfl⟩⟩
    · rw [update_of_ne hj] at hx
      exact ⟨x, hx, .inl ⟨rfl, rfl⟩⟩

/-! ## The claim invariant -/

theorem worktreeInv_init (h : w.Fresh) : WorktreeInv w := by
  have hnone : ∀ s r, w.hasRead s r ≠ true := by
    intro s r hr
    obtain ⟨d, hd, hrow⟩ := hasRead_iff.mp hr
    rw [h.past, List.mem_singleton] at hd
    rw [hd, h.sessions] at hrow
    cases hrow
  refine ⟨fun s r hr => absurd hr (hnone s r), fun i s => ?_, fun i x hx hne => ?_, h.worktreeKey⟩
  · rw [worktreeOwner_eq_some]
    constructor
    · rintro ⟨x, hx, hs⟩
      have := (h.worktrees i x hx).2
      rw [hs] at this
      cases this
    · rintro ⟨r, hr, -⟩
      rw [h.sessions] at hr
      cases hr
  · exact absurd (h.worktrees i x hx).2 hne

theorem worktreeInv_step (hw : plane.Reachable w) (hinv : WorktreeInv w) (ha : op.allowed w = true)
    (hok : op.worktreeOnly = true) : WorktreeInv (w.apply op) where
  rows s r hr := by
    obtain h | h := hasRead_apply hr
    · exact worktreeRowInv_step hw hinv ha hok s r h
    · exact hinv.rows s r h
  consistent := consistent_step hw hinv ha hok
  busy i x hx hne := by
    obtain ⟨y, hy, ⟨hst, hcur⟩ | hnull | hbusy⟩ := worktree_step ha hx
    · rw [hst]
      exact hinv.busy i y hy (by rw [← hcur]; exact hne)
    · rw [hnull] at hne
      exact absurd rfl hne
    · exact hbusy
  noKey := by
    cases hx : (w.apply op).db.worktrees "" with
    | none => rfl
    | some x =>
      obtain ⟨y, hy, -⟩ := worktree_step ha hx
      rw [hinv.noKey] at hy
      cases hy

theorem worktreeInv (h : (plane.restrict fun _ op => op.worktreeOnly = true).Reachable w) : WorktreeInv w := by
  refine System.Reachable.invariant (P := WorktreeInv) (fun w hw => worktreeInv_init hw) ?_ h
  rintro w op w' hw hinv ⟨hok, ha, rfl⟩
  exact worktreeInv_step hw.of_restrict hinv ha hok

/-- A worktree is busy for a session exactly when the session's row or its handoff holds it. -/
theorem worktree_claim (h : (plane.restrict fun _ op => op.worktreeOnly = true).Reachable w) :
    (∀ i s, (∃ x, w.db.worktrees i = some x ∧ x.status = .busy ∧ x.currentSessionId = .value s) ↔
      ∃ r, w.db.sessions s = some r ∧ (r.worktreeId = .value i ∨ r.terminalHookHandoff.bind (·.worktreeId) = some i)) ∧
      ∀ i s s', sessionHolds w.db s i → sessionHolds w.db s' i → s = s' := by
  have hinv := worktreeInv h
  refine ⟨fun i s => ?_, fun i s s' hs hs' => hinv.consistent.unique hs hs'⟩
  have hc := hinv.consistent i s
  rw [worktreeOwner_eq_some] at hc
  constructor
  · rintro ⟨x, hx, -, hs⟩
    exact hc.mp ⟨x, hx, hs⟩
  · intro hr
    obtain ⟨x, hx, hs⟩ := hc.mpr hr
    exact ⟨x, hx, hinv.busy i x hx (by rw [hs]; simp), hs⟩

/-- The handoff keeps the worktree busy after the row has dropped it. -/
theorem worktree_claim_reserved : ∃ w, (plane.restrict fun _ op => op.worktreeOnly = true).Reachable w ∧
      (∃ r, w.db.sessions "s1" = some r ∧ r.worktreeId = .null) ∧
      ∃ x, w.db.worktrees "w1" = some x ∧ x.status = .busy ∧ x.currentSessionId = .value "s1" := by
  let row : SessionRow := { status := .queued, repositoryId := "repo", queueExpiresAt := 9 }
  let assign : AssignSessionOpts :=
    { sessionId := "s1", hostId := "h1", connectionId := "k1", now := 1, attemptId := "a1"
      resolvedRoute := { targetIndex := 0, commandId := "cmd", hostId := "h1", attemptId := "a1" }
      repositoryId := "repo", worktreeId := "w1" }
  let msg : StatusMessage :=
    { sessionId := "s1", worktreeId := some "w1", attemptId := "a1", status := .completed
      deferTerminalHookResult := true }
  obtain ⟨w, hw, hp⟩ := exists_reachable_of_run (fun _ op => op.worktreeOnly)
    [.createPlain { sessionId := "s1", session := row }, .assignWorktree assign,
      .write (.finish ⟨"s1", assign.claimed row, 2, .report msg (some ⟨"h1", "k1"⟩) "handoff1" none⟩ none)]
    (fun w => (w.db.sessions "s1").any fun r => r.worktreeId == .null &&
      r.terminalHookHandoff.bind (·.worktreeId) == some "w1")
    smallWorld_fresh (by decide)
  simp only [any_eq_true, and_eq_true, beq_iff_eq] at hp
  obtain ⟨r, hr, hnull, hhand⟩ := hp
  exact ⟨w, hw, ⟨r, hr, hnull⟩, ((worktree_claim hw).1 "w1" "s1").mpr ⟨r, hr, .inr hhand⟩⟩

end AutoHarness.Protocol

import AutoHarness.Protocol.Checkouts

/-! Reservations of handoffs in the durable store: only completion or expiry gives them back, unless a release of a
cancelled main checkout meets a row that stores one. -/

namespace AutoHarness.Protocol
open Foundation Store Plane Option FinishSessionOpts ReleaseMainCheckoutOpts WriteOp World Op
open Bool (and_eq_true)
open Occupancy (owner)

/-! ## What a row holds after a write -/

variable {s : String} {db db' : Db}
variable {w : World} {op : Op}

section

variable (h : plane.Reachable w)
include h

theorem worktree_busy : ∀ i x, w.db.worktrees i = some x → x.currentSessionId.toOption ≠ none → x.status = .busy := by
  induction h with
  | init hw => exact fun i x hx hne => absurd (hw.worktrees i x hx).2 hne
  | @step w w' op hw hs ih =>
    obtain ⟨ha, rfl⟩ := hs
    intro i x hx hne
    obtain ⟨y, hy, ⟨hst, hcur⟩ | hnull | hbusy⟩ := worktree_step ha hx
    · rw [hst]
      exact ih i y hy (by rw [← hcur]; exact hne)
    · rw [hnull] at hne
      exact absurd rfl hne
    · exact hbusy

theorem worktree_noKey : w.db.worktrees "" = none := by
  induction h with
  | init hw => exact hw.worktreeKey
  | @step w w' op hw hs ih =>
    obtain ⟨ha, rfl⟩ := hs
    by_contra hne
    obtain ⟨x, hx⟩ := ne_none_iff_exists'.mp hne
    obtain ⟨y, hy, -⟩ := worktree_step ha hx
    rw [ih] at hy
    cases hy

theorem worktreeId_ne_empty : ∀ s r, w.hasRead s r = true → r.worktreeId ≠ .value "" := by
  refine reads_of_rows (fun w h => ?_) h
  induction h with
  | init hw => exact fun s r hr => absurd hr hw.no_row
  | @step w w' op hw hs ih =>
    obtain ⟨ha, rfl⟩ := hs
    refine rows_step hw ha ih (fun x r hop hx => ?_) (fun x r hop hx => ?_) (fun s r _ hadm => ?_)
      (fun s r n hr => hr) (fun s read hop => ?_)
    · have hr := ih _ r hx.row
      cases x with
      | expireQueued | cancelRunning | cancelRunningMainCheckout | releaseTimedOutHostAssignment
      | releaseTimedOutProviderAccountLease | forceReleaseProviderAccountLease | settleHandoff | expireHandoff
      | note => exact hr
      | _ => exact nofun
    · have hclaim := hx.worktrees
      intro he
      rw [hx.launched.worktreeId] at he
      cases hwt : x.worktree with
      | none =>
        rw [hwt] at he
        cases he
      | some i =>
        rw [hwt] at he hclaim
        cases he
        obtain ⟨y, hy, -⟩ := hclaim
        rw [worktree_noKey hw] at hy
        cases hy
    · rw [hadm.blank.worktreeId]
      simp
    · subst hop
      simp only [allowed, and_eq_true, beq_iff_eq] at ha
      have hnone := (coherent hw s read ha.1.1).timedOut ha.1.2
      intro he
      change read.worktreeId = .value "" at he
      rw [he] at hnone
      cases hnone

end

variable {c : FinishCall} {h : TerminalHookHandoff}

theorem finish_handoff_main (hw : plane.Reachable w)
    (hg : c.guard = true) (hread : w.hasRead c.sessionId c.read = true) (hh : c.opts.terminalHookHandoff = some h) :
    h.mainCheckoutLease = false := by
  have hr := coherent hw _ _ hread
  rw [(FinishCall.opts_handoff hg hh).2.1.2]
  unfold FinishCall.guard at hg
  unfold FinishCall.opts at hh
  cases hsite : c.site with
  | hostLost i fence atDeadline handoffId =>
    simp only [hsite, and_eq_true, beq_iff_eq] at hg
    exact (hr.worktree hg.1.1.1.2).2.1
  | lateDetached msg fence handoffId =>
    simp only [hsite, and_eq_true, Bool.not_eq_true'] at hg
    exact hg.2
  | lateSlot msg fence handoffId =>
    simp only [hsite, and_eq_true, isSome_iff_exists] at hg
    obtain ⟨-, i, hi⟩ := hg
    exact (hr.slot i (Attr.toOption_eq_some.mp (given_eq_some.mp hi).1)).2.2
  | lateWorktree msg fence handoffId =>
    simp only [hsite, and_eq_true, isSome_iff_exists] at hg
    obtain ⟨⟨-, i, hi⟩, -⟩ := hg
    exact (hr.worktree (Attr.toOption_eq_some.mp (given_eq_some.mp hi).1)).2.1
  | report msg fence handoffId account =>
    simp only [hsite, and_eq_true, beq_iff_eq, Bool.not_eq_true', attemptMatches] at hg
    obtain ⟨⟨⟨hrun, -, hatt⟩, -⟩, hm⟩ := hg
    exact not_main_of_running hw (coherent hw) hread hread hrun hrun hatt hatt (by simpa using hm)
  | disconnectSlot | omittedSlot | deadlineSlot | timeout | timedOutSlot => simp [hsite, FinishCall.base] at hh
  | cancelledSlot msg fence => simp [hsite, finishSessionOptsFromPlan] at hh

theorem finish_handoff_worktree (hw : plane.Reachable w) {i : String}
    (hg : c.guard = true) (hread : w.hasRead c.sessionId c.read = true) (hh : c.opts.terminalHookHandoff = some h)
    (hi : h.worktreeId = some i) : c.opts.worktreeId = some i := by
  rw [(FinishCall.opts_handoff hg hh).2.1.1] at hi
  have hvalue := Attr.toOption_eq_some.mp hi
  obtain he | ⟨-, hgiven⟩ | hslot := FinishCall.opts_worktreeId_of_handoff hg hh
  · exact he.trans hi
  · have hne : i ≠ "" := by
      rintro rfl
      exact worktreeId_ne_empty hw _ _ hread hvalue
    rw [hi, given_of_ne hne] at hgiven
    cases hgiven
  · rw [((coherent hw _ _ hread).worktree hvalue).1] at hslot
    cases hslot

variable {cleanup : Option (DrainScope × DrainRecord)} {r : SessionRow} {t : HookTarget}

theorem finish_holds (hw : plane.Reachable w) (hg : c.guard = true) (hread : w.hasRead c.sessionId c.read = true)
    (hrow : w.hasRead c.sessionId r = true) (hc : c.opts.condition r = true)
    (hnext : HoldsTarget (c.opts.finished r) t) : HoldsTarget r t ∧ ¬ (finish c cleanup).Frees t := by
  have hr := coherent hw _ r hrow
  have hm := finish_not_main hw (coherent hw) hg hread hrow hc
  have hwt := (FinishSessionOpts.condition_iff.mp hc).2.1
  -- the new row names no worktree and no main checkout, so it holds the target through its handoff
  have hhand : ∃ h, (c.opts.finished r).terminalHookHandoff = some h ∧ Reserves h t := by
    obtain hhand | hdirect := hnext
    · exact hhand
    · cases t with
      | worktree i => cases hdirect
      | mainCheckout host repo =>
        have hheld : r.mainCheckoutLease = true := hdirect.1
        rw [hm] at hheld
        cases hheld
  obtain ⟨h, hh, hres⟩ := hhand
  change c.opts.terminalHookHandoff.or r.terminalHookHandoff = some h at hh
  cases ho : c.opts.terminalHookHandoff with
  | none =>
    have hold : r.terminalHookHandoff = some h := by simpa [ho] using hh
    refine ⟨.inl ⟨h, hold, hres⟩, ?_⟩
    -- a row with a handoff names no worktree, so the call frees none
    have hnone : c.opts.worktreeId = none := by
      have := (hr.handoff h hold).1
      rw [hwt] at this
      simpa using this
    intro hf
    cases t with
    | worktree i => simp [WriteOp.Frees, writer, freedWorktree, hnone] at hf
    | mainCheckout host repo => cases hf
  | some h' =>
    have he : h' = h := by simpa [ho] using hh
    subst he
    cases t with
    | worktree i =>
      have hi := finish_handoff_worktree hw hg hread ho hres
      refine ⟨.inr (by rw [hwt, hi]; rfl), fun hf => ?_⟩
      have hres' : h'.worktreeId = some i := hres
      simp [WriteOp.Frees, writer, freedWorktree, ho, hres'] at hf
    | mainCheckout host repo =>
      have hfalse := finish_handoff_main hw hg hread ho
      rw [hres.1] at hfalse
      cases hfalse

/-! ## Callers -/

/-- An assignment names the repository of its session, a release and a disposal what they read. -/
def Op.named (w : World) : Op → Bool
  | assignMainCheckout o => (w.db.sessions o.sessionId).all fun r => r.repositoryId == o.repositoryId
  | write (.releaseMainCheckout r o _) => o.terminalHookHandoff.all fun h =>
      h.hostId == o.hostId && h.repositoryId == o.repositoryId && h.worktreeId == r.worktreeId.toOption &&
        r.mainCheckoutLease
  | write (.settleHandoff r o) => r.terminalHookHandoff.all fun h =>
      !h.mainCheckoutLease || (h.hostId == o.hostId && o.mainCheckoutRepositoryId == some h.repositoryId)
  | write (.expireHandoff r o) => r.terminalHookHandoff.all fun h =>
      !h.mainCheckoutLease || (o.hostId == some h.hostId && o.mainCheckoutRepositoryId == some h.repositoryId)
  | _ => true

def Op.sparesHandoff (w : World) : Op → Bool
  | write (.releaseMainCheckout _ o _) =>
    o.expectedTerminalHookHandoffAbsent || (w.db.sessions o.sessionId).all fun r => r.terminalHookHandoff.isNone
  | _ => true

variable {read : SessionRow} {o : ReleaseMainCheckoutOpts}

theorem no_handoff_of_spares (hs : sparesHandoff w (.write (.releaseMainCheckout read o cleanup)) = true)
    (hrow : w.db.sessions o.sessionId = some r) (hc : o.condition cleanup.isSome r = true) :
    r.terminalHookHandoff = none := by
  simp only [sparesHandoff, Bool.or_eq_true, hrow, all_some, isNone_iff_eq_none] at hs
  obtain habsent | hnone := hs
  · exact (ReleaseMainCheckoutOpts.condition_iff.mp hc).2.2.2.2.2.1 habsent
  · exact hnone

def WriteOp.Retains : WriteOp → HookTarget → Prop
  | releaseMainCheckout _ o _, t => t = .mainCheckout o.hostId o.repositoryId
  | _, _ => False

theorem releaseCheckout_holds (hw : plane.Reachable w)
    (ha : allowed w (.write (.releaseMainCheckout read o cleanup)) = true)
    (hn : named w (.write (.releaseMainCheckout read o cleanup)) = true)
    (hnone : r.terminalHookHandoff = none) (hnext : HoldsTarget (o.released r) t) :
    t = .mainCheckout o.hostId o.repositoryId ∧ ¬ (releaseMainCheckout read o cleanup).Frees t := by
  cases ho : o.terminalHookHandoff with
  | none =>
    refine absurd hnext (not_holdsTarget rfl ?_ ?_)
    · simp [released, retains, ho]
    · simp [released, ho, hnone]
  | some h =>
    simp only [named, ho, all_some, and_eq_true, beq_iff_eq] at hn
    obtain ⟨⟨⟨hhost, hrepo⟩, hwt⟩, hm⟩ := hn
    have hp := promised_of_allowed ha
    simp only [promised, and_eq_true, ho, all_some] at hp
    have hretains : o.retains = true := by simp [retains, ho, hp.1.2.2.1]
    have hstored : (o.released r).terminalHookHandoff = some h := by simp [released, ho]
    -- the row that was read holds a main checkout, so the handoff reserves no worktree
    have hfree : h.worktreeId = none := by
      rw [hwt]
      exact ((coherent hw _ _ (read_of_allowed ha rfl)).main hm).1
    obtain ⟨h', hh', hres⟩ | hdirect := hnext
    · rw [hstored] at hh'
      cases hh'
      cases t with
      | worktree i =>
        have hi : h.worktreeId = some i := hres
        rw [hfree] at hi
        cases hi
      | mainCheckout host repo =>
        obtain ⟨-, rfl, rfl⟩ := hres
        refine ⟨by rw [hhost, hrepo], fun hf => ?_⟩
        simp [WriteOp.Frees, checkout, hretains] at hf
    · cases t with
      | worktree i => cases hdirect
      | mainCheckout host repo =>
        rw [hstored] at hdirect
        cases hdirect.2.1

variable {x : WriteOp} {hand : TerminalHookHandoff}

/-- **Step lemma of the writers, for targets.** A row then holds what it held or the write retains, and nothing the
write frees. -/
theorem holds_next (hw : plane.Reachable w) (ha : allowed w (.write x) = true) (hn : named w (.write x) = true)
    (hs : sparesHandoff w (.write x) = true) (hrow : w.db.sessions x.sessionId = some r)
    (hc : x.writer.cond r = true) (hnext : HoldsTarget (x.writer.next r) t) :
    (HoldsTarget r t ∨ x.Retains t) ∧ ¬ x.Frees t := by
  have hnow := hasRead_current hrow
  have hr := coherent hw _ r hnow
  have hp := promised_of_allowed ha
  have active : r.status.isActive = true → r.terminalHookHandoff = none := no_handoff_of_active hw hnow
  -- most writers keep what the row holds and free nothing, or leave a row that holds nothing
  have same : (x.writer.next r).worktreeId = r.worktreeId →
      (x.writer.next r).mainCheckoutLease = r.mainCheckoutLease →
      (x.writer.next r).terminalHookHandoff = r.terminalHookHandoff → (x.writer.next r).hostId = r.hostId →
      (x.writer.next r).repositoryId = r.repositoryId → x.writer.worktree = none → x.checkout = none →
      (HoldsTarget r t ∨ x.Retains t) ∧ ¬ x.Frees t := by
    intro hwt hm hh hhost hrepo hnw hnc
    refine ⟨.inl (hnext.of_same hwt hm hh hhost hrepo), fun hf => ?_⟩
    cases t with
    | worktree i =>
      rw [Frees, hnw] at hf
      cases hf
    | mainCheckout host repo =>
      rw [Frees, hnc] at hf
      cases hf
  have empty : (x.writer.next r).worktreeId.toOption = none → (x.writer.next r).mainCheckoutLease = false →
      (x.writer.next r).terminalHookHandoff = none → (HoldsTarget r t ∨ x.Retains t) ∧ ¬ x.Frees t :=
    fun hwt hm hh => absurd hnext (not_holdsTarget hwt hm hh)
  cases x with
  | cancelQueued read o activity =>
    have hq : r.status = .queued := beq_iff_eq.mp hc
    exact empty rfl (hr.queued hq).2.2 (active (by rw [hq]; rfl))
  | expireQueued | cancelRunning | cancelRunningMainCheckout | note => exact same rfl rfl rfl rfl rfl rfl rfl
  | requeue c =>
    obtain ⟨-, hm, hh⟩ := hr.worktree (RequeueOpts.condition_iff.mp hc).2.1
    exact empty rfl hm hh
  | requeueUsageLimited | suppressProviderless =>
    obtain ⟨-, hm, hh⟩ := hr.worktree (runningOnWorktree_iff.mp hc).2.1
    exact empty rfl hm hh
  | requeueUsageLimitedWorkspace read o account i e | suppressProviderlessWorkspace read o i n e =>
    obtain ⟨hrun, hslot, -⟩ := runningOnSlot_iff.mp hc
    exact empty rfl (hr.slot i hslot).2.2 (active (by rw [hrun]; rfl))
  | finish c cleanup =>
    obtain ⟨hold, hkept⟩ := finish_holds hw hp (read_of_allowed ha rfl) hnow hc hnext
    exact ⟨.inl hold, hkept⟩
  | releaseCancelled c cleanup =>
    obtain ⟨-, hm, hh⟩ := hr.worktree (ReleaseCancelledOpts.condition_iff.mp hc).2.1
    exact empty rfl hm hh
  | releaseMainCheckout read o cleanup =>
    obtain ⟨hkept, hfrees⟩ := releaseCheckout_holds hw ha hn (no_handoff_of_spares hs hrow hc) hnext
    exact ⟨.inr hkept, hfrees⟩
  | requeueMainCheckoutUsageLimited read o =>
    simp only [writer, usageLimitWriter, and_eq_true, beq_iff_eq] at hc
    exact empty rfl rfl (active (by rw [hc.1.1.1]; rfl))
  | releaseTimedOutHostAssignment | releaseTimedOutProviderAccountLease | forceReleaseProviderAccountLease =>
    exact same rfl rfl rfl rfl rfl rfl rfl
  | settleHandoff | expireHandoff =>
    simp only [writer, any_eq_true, beq_iff_eq] at hc
    obtain ⟨h, hh, hid⟩ := hc
    exact empty (hr.handoff h hh).1 (disposed_main hw (read_of_allowed ha rfl) hp hrow hr hh hid) rfl

/-! ## Targets over a step -/

theorem owner_of_retains (h : transact x.items db = .committed db')
    (ht : x.Retains t) : (storeOccupancy db).owner t = some x.sessionId := by
  cases x with
  | releaseMainCheckout read o cleanup =>
    obtain ⟨r, hl, -, -, hhost, hrel, -⟩ := releaseCheckout_committed h
    have ht' : t = .mainCheckout o.hostId o.repositoryId := ht
    subst ht'
    simp [owner, storeOccupancy, hhost, (checkoutReleasable_iff.mp hrel).1, WriteOp.sessionId]
  | _ => cases ht

/-- The two records of a target: the occupancy names the session whose row or handoff holds it. -/
def World.Backed (w : World) : Prop := Foundation.Backed (storeOccupancy w.db).owner (targetHolds w.db.sessions)

theorem backed_wrote (hw : plane.Reachable w) (hb : w.Backed)
    (ha : allowed w (.write x) = true) (hn : named w (.write x) = true)
    (hs : sparesHandoff w (.write x) = true) (ht : transact x.items w.db = .committed db') :
    Foundation.Backed (storeOccupancy db').owner (targetHolds db'.sessions) := by
  obtain ⟨r, h⟩ := wrote ht
  have hl := leaseGiven_write ht
  have hrow := h.row
  have hsessions := h.sessions
  rw [x.writer_sessionId] at hrow hsessions
  obtain ⟨hself, hother⟩ := targetHolds_update hsessions
  refine Foundation.Backed.give hb (fun t => owner_of_frees h hl) (fun t => owner_of_not_frees h hl) (fun t hnext => ?_)
    hother
  obtain ⟨hold | hkept, hfrees⟩ := holds_next hw ha hn hs hrow h.cond ((hself t).mp hnext)
  · exact ⟨hb _ t ⟨r, hrow, hold⟩, hfrees⟩
  · exact ⟨owner_of_retains ht hkept, hfrees⟩

def Op.Takes : Op → HookTarget → Prop
  | assignWorktree o, t => t = .worktree o.worktreeId
  | assignMainCheckout o, t => t = .mainCheckout o.hostId o.repositoryId
  | _, _ => False

theorem checkouts_assigned {x : Assigning} (hop : op.assigning = some x)
    (ht : transact op.items db = .committed db') (host repo : String) :
    (op.Takes (.mainCheckout host repo) → (storeOccupancy db).mainCheckouts host repo = none ∧
      (storeOccupancy db').mainCheckouts host repo = some ⟨x.opts.sessionId, x.opts.connectionId⟩) ∧
    (¬ op.Takes (.mainCheckout host repo) →
      (storeOccupancy db').mainCheckouts host repo = (storeOccupancy db).mainCheckouts host repo) := by
  have acquired : ∀ {h : String} {hl : HostLockRow} {n : ℕ}, db.hostLocks h = some hl →
      db'.hostLocks = Function.update db.hostLocks h (some (hl.acquired n)) →
      (storeOccupancy db').mainCheckouts host repo = (storeOccupancy db).mainCheckouts host repo := by
    intro h hl n hh hd
    by_cases he : host = h
    · subst he
      simp [storeOccupancy, hd, hh, HostLockRow.acquired]
    · simp [storeOccupancy, hd, he]
  cases op with
  | assignWorktree o =>
    cases hop
    obtain ⟨r, y, hl, -, -, -, hhost, -, rfl⟩ := assignSession_committed ht
    exact ⟨fun h => (by cases h), fun _ => acquired hhost rfl⟩
  | assignWorkspace o =>
    cases hop
    obtain ⟨r, y, hl, -, -, -, hhost, -, rfl⟩ := assignWorkspace_committed ht
    exact ⟨fun h => (by cases h), fun _ => acquired hhost rfl⟩
  | assignMainCheckout o =>
    cases hop
    obtain ⟨r, hl, -, hhost, hnone, -, rfl⟩ := assignCheckout_committed ht
    refine ⟨fun h => ?_, fun h => ?_⟩
    · cases h
      simp [storeOccupancy, hhost, hnone, AssignMainCheckoutOpts.claimedHost]
    · by_cases hh : host = o.hostId
      · subst hh
        have hr : repo ≠ o.repositoryId := fun he => h (by rw [he]; rfl)
        simp [storeOccupancy, hhost, AssignMainCheckoutOpts.claimedHost, hr, HostLockRow.acquired]
      · simp [storeOccupancy, hh]
  | _ => cases hop

theorem holds_assigned (hw : plane.Reachable w) (hn : op.named w = true) {x : Assigning} (hop : op.assigning = some x)
    (hrow : w.db.sessions x.opts.sessionId = some r)
    (hq : r.status = .queued) (hnext : HoldsTarget (x.next r) t) : op.Takes t := by
  have hnow := hasRead_current hrow
  obtain ⟨-, -, hm⟩ := (coherent hw _ r hnow).queued hq
  have hh := no_handoff_of_active hw hnow (by rw [hq]; rfl)
  have hdirect : ∀ {h : TerminalHookHandoff}, r.terminalHookHandoff ≠ some h := by simp [hh]
  cases op with
  | assignWorktree o =>
    cases hop
    obtain ⟨h, hh', -⟩ | hheld := hnext
    · exact absurd hh' hdirect
    · cases t with
      | worktree i =>
        cases hheld
        rfl
      | mainCheckout host repo =>
        have hmain : r.mainCheckoutLease = true := hheld.1
        rw [hm] at hmain
        cases hmain
  | assignWorkspace o =>
    cases hop
    exact absurd hnext (not_holdsTarget rfl hm hh)
  | assignMainCheckout o =>
    cases hop
    simp only [named, hrow, all_some, beq_iff_eq] at hn
    obtain ⟨h, hh', -⟩ | hheld := hnext
    · exact absurd hh' hdirect
    · cases t with
      | worktree i => cases hheld
      | mainCheckout host repo =>
        obtain ⟨-, -, hhost, hrepo⟩ := hheld
        have hhost' : Attr.value o.hostId = Attr.value host := hhost
        have hrepo' : r.repositoryId = repo := hrepo
        cases hhost'
        rw [← hrepo', hn]
        rfl
  | _ => cases hop

theorem backed_assigned (hw : plane.Reachable w) (hb : w.Backed) (ha : op.allowed w = true) (hn : op.named w = true)
    {x : Assigning} (hop : op.assigning = some x) (ht : transact op.items w.db = .committed db') :
    Foundation.Backed (storeOccupancy db').owner (targetHolds db'.sessions) := by
  obtain ⟨r, h⟩ := assigned_of_committed ha hop ht
  have hleases := checkouts_assigned hop ht
  obtain ⟨hself, hother⟩ := targetHolds_update h.sessions
  -- the worktree side, in terms of what the assignment takes
  have hworktree : ∀ i, op.Takes (.worktree i) ↔ x.worktree = some i := by
    intro i
    cases op <;> cases hop <;> simp [Op.Takes, eq_comm]
  have hclaim := h.worktrees
  refine Foundation.Backed.take hb (s := x.opts.sessionId) (fun t (htake : op.Takes t) => ?_) (fun t htake => ?_)
    (fun t hkept => ?_) (fun t hnext => ?_) hother
  · cases t with
    | worktree i =>
      rw [(hworktree i).mp htake] at hclaim
      exact unowned_of_claimed hclaim (worktree_busy hw)
    | mainCheckout host repo => simp [owner, ((hleases host repo).1 htake).1]
  · cases t with
    | worktree i => exact (worktreeOwner_claimed hclaim i).trans (if_pos ((hworktree i).mp htake))
    | mainCheckout host repo => simp [owner, ((hleases host repo).1 htake).2]
  · cases t with
    | worktree i => exact (worktreeOwner_claimed hclaim i).trans (if_neg fun he => hkept ((hworktree i).mpr he))
    | mainCheckout host repo => simp only [owner, (hleases host repo).2 hkept]
  · exact .inr (holds_assigned hw hn hop h.checked.row h.checked.queued ((hself t).mp hnext))

theorem targetHolds_created {o : CreateOpts} {lock : Option String} (h : Created o lock db db')
    (hadm : Admissible o.session) (ht : targetHolds db'.sessions s t) : targetHolds db.sessions s t := by
  obtain ⟨r, hr, hheld⟩ := ht
  by_cases hs : s = o.sessionId
  · subst hs
    rw [h.row] at hr
    cases hr
    have hnew := hadm.blank
    exact absurd hheld (not_holdsTarget (by rw [hnew.worktreeId]; rfl) hnew.mainCheckoutLease hnew.terminalHookHandoff)
  · obtain h₁ | ⟨y, n, hy, h₁⟩ := h.others s hs
    · exact ⟨r, by rw [← h₁]; exact hr, hheld⟩
    · rw [h₁] at hr
      cases hr
      exact ⟨y, hy, hheld⟩

theorem not_holds_persisted (hw : plane.Reachable w) (ha : allowed w (.putTimedOut s read) = true) :
    read.terminalHookHandoff = none ∧ ¬ HoldsTarget (timedOutPersisted read) t := by
  simp only [allowed, and_eq_true, isSome_iff_exists] at ha
  obtain ⟨⟨hread, -⟩, i, hi⟩ := ha
  have hr := coherent hw s read hread
  have hslot := Attr.toOption_eq_some.mp (given_eq_some.mp hi).1
  obtain ⟨-, hwt, hm⟩ := hr.slot i hslot
  have hh : read.terminalHookHandoff = none := by
    by_contra hne
    obtain ⟨h, hh⟩ := ne_none_iff_exists'.mp hne
    have := (hr.handoff h hh).2.1
    rw [hslot] at this
    cases this
  exact ⟨hh, not_holdsTarget hwt hm hh⟩

theorem backed_step (hw : plane.Reachable w) (hb : w.Backed) (ha : op.allowed w = true) (hn : op.named w = true)
    (hs : op.sparesHandoff w = true) :
    Foundation.Backed (storeOccupancy (w.act op).1).owner (targetHolds (w.act op).1.sessions) := by
  have same : ∀ {db' : Db}, (∀ s t, targetHolds db'.sessions s t → targetHolds w.db.sessions s t) →
      db'.worktrees = w.db.worktrees → db'.hostLocks = w.db.hostLocks →
      Foundation.Backed (storeOccupancy db').owner (targetHolds db'.sessions) := by
    intro db' hheld hwt hhl
    refine Foundation.Backed.mono hb (fun t => ?_) hheld
    cases t <;> simp only [owner, storeOccupancy, hwt, hhl]
  have uncommitted : ∀ {items : List TransactItem},
      (∀ db', transact items w.db = .committed db' →
        Foundation.Backed (storeOccupancy db').owner (targetHolds db'.sessions)) →
      Foundation.Backed (storeOccupancy ((transact items w.db).state w.db)).owner
        (targetHolds ((transact items w.db).state w.db).sessions) := by
    intro items h
    cases ht : transact items w.db with
    | committed db' => exact h db' ht
    | cancelled | rejected => exact hb
  by_cases hwrite : ∃ x, op = .write x
  · obtain ⟨x, rfl⟩ := hwrite
    exact uncommitted fun db' ht => backed_wrote hw hb ha hn hs ht
  by_cases hassign : ∃ x, op.assigning = some x
  · obtain ⟨x, hop⟩ := hassign
    have hact : (w.act op).1 = (transact op.items w.db).state w.db := by
      cases op <;> first | rfl | cases hop
    rw [hact]
    exact uncommitted fun db' ht => backed_assigned hw hb ha hn hop ht
  cases effect ha with
  | quiet h | leaseReleased x y l hop hown h | marked key row hop h
  | stolen n k call reasons holder after y hop hcall hpc hy hn h =>
    exact same (fun s t => by rw [h.sessions]; exact id) h.worktrees h.hosts
  | wrote x r hop h => exact absurd ⟨x, hop⟩ hwrite
  | assigned x r hop h => exact absurd ⟨x, hop⟩ hassign
  | createdPlain o hop h =>
    subst hop
    exact same (fun s t => targetHolds_created h (admissible_of_createPlain ha)) h.worktrees h.hostLocks
  | created n k call hop hcall hpc h =>
    exact same (fun s t => targetHolds_created h (calls_admissible hw hcall).1) h.worktrees h.hostLocks
  | persisted x read hop hcreated h =>
    subst hop
    obtain ⟨hself, hother⟩ := targetHolds_update h.sessions
    refine same (fun s t ht => ?_) h.worktrees h.hosts
    by_cases hsx : s = x
    · subst hsx
      exact absurd ((hself t).mp ht) (not_holds_persisted hw ha).2
    · exact hother s hsx t ht
  | hostLinked host k d e hop h =>
    refine Foundation.Backed.mono hb (fun t => ?_) (fun s t => by rw [h.sessions]; exact id)
    cases t with
    | worktree i => simp only [owner, storeOccupancy, h.worktrees]
    | mainCheckout host' repo =>
      by_cases hh : host' = host
      · subst hh
        cases hl : w.db.hostLocks host' <;> simp [owner, storeOccupancy, h.hosts, hl]
      · simp [owner, storeOccupancy, h.hosts, hh]
  | worktreeLinked j online k y hop hy h =>
    refine Foundation.Backed.mono hb (fun t => ?_) (fun s t => by rw [h.sessions]; exact id)
    cases t with
    | worktree i =>
      by_cases hi : i = j
      · subst hi
        simp [owner, storeOccupancy, h.worktrees, hy]
      · simp [owner, storeOccupancy, h.worktrees, hi]
    | mainCheckout host repo => simp only [owner, storeOccupancy, h.hosts]

def Op.reserving (w : World) (op : Op) : Bool := op.named w && op.sparesHandoff w

theorem backed (h : (plane.restrict fun w op => op.reserving w = true).Reachable w) : w.Backed := by
  induction h with
  | init hw => exact fun s t ⟨r, hr, _⟩ => absurd hr hw.no_row
  | @step w w' op hw hs ih =>
    obtain ⟨hok, ha, rfl⟩ := hs
    rw [reserving, and_eq_true] at hok
    exact backed_step hw.of_restrict ih ha hok.1 hok.2

/-! ## Workspace sessions that timed out -/

def World.SlotTimedOut (w : World) (s : String) : Prop :=
  ∃ read, w.hasRead s read = true ∧ read.status = .timedOut ∧ (given read.workspaceSlotId.toOption).isSome = true

def Detached (r : SessionRow) : Prop := r.status = .timedOut ∧ ∀ t, ¬ HoldsTarget r t

theorem detached_of_slot (hw : plane.Reachable w) (hr : w.hasRead s r = true)
    (hst : r.status = .timedOut) (hslot : (given r.workspaceSlotId.toOption).isSome = true) : Detached r := by
  have hp : allowed w (.putTimedOut s r) = true := by
    simp only [allowed, hr, hst, hslot]
    rfl
  exact ⟨hst, fun t ht => (not_holds_persisted hw hp).2 (ht.of_same rfl rfl rfl rfl rfl)⟩

theorem detached_next (hw : plane.Reachable w) (ha : allowed w (.write x) = true)
    (hn : named w (.write x) = true) (hs : sparesHandoff w (.write x) = true)
    (hrow : w.db.sessions x.sessionId = some r) (hc : x.writer.cond r = true) (hd : Detached r) :
    Detached (x.writer.next r) := by
  obtain ⟨hst, hnone⟩ := hd
  -- a detached row holds no main checkout, so none is released
  have hmain : ∀ read o cleanup, x ≠ .releaseMainCheckout read o cleanup := by
    rintro read o cleanup rfl
    obtain ⟨-, hhost, -, hm, -⟩ := ReleaseMainCheckoutOpts.condition_iff.mp hc
    exact hnone (.mainCheckout o.hostId r.repositoryId)
      (.inr ⟨hm, no_handoff_of_spares hs hrow hc, hhost, rfl⟩)
  refine ⟨?_, fun t ht => ?_⟩
  · have hno : ∀ {y : SessionStatus}, r.status = y → y ≠ .timedOut → False := fun he hne => hne (he.symm.trans hst)
    cases x with
    | cancelQueued | expireQueued => exact (hno (beq_iff_eq.mp hc) (by simp)).elim
    | cancelRunning | cancelRunningMainCheckout =>
      simp only [writer, CancelRunningOpts.assignment, and_eq_true, beq_iff_eq] at hc
      exact (hno hc.1.1.1 (by simp)).elim
    | requeue c => exact (hno (RequeueOpts.condition_iff.mp hc).1 (by simp)).elim
    | requeueUsageLimited | suppressProviderless => exact (hno (runningOnWorktree_iff.mp hc).1 (by simp)).elim
    | requeueUsageLimitedWorkspace | suppressProviderlessWorkspace =>
      exact (hno (runningOnSlot_iff.mp hc).1 (by simp)).elim
    | requeueMainCheckoutUsageLimited read o =>
      simp only [writer, usageLimitWriter, and_eq_true, beq_iff_eq] at hc
      exact (hno hc.1.1.1 (by simp)).elim
    | finish c cleanup =>
      have hexp := (FinishSessionOpts.condition_iff.mp hc).1
      obtain hrun | hsame := (FinishCall.opts_status (promised_of_allowed ha)).2
      · exact (hno (hexp.trans hrun) (by simp)).elim
      · rw [hsame] at hexp
        exact hexp.symm.trans hst
    | releaseMainCheckout read o cleanup => exact absurd rfl (hmain read o cleanup)
    | _ => exact hst
  · obtain ⟨hold | hkept, -⟩ := holds_next hw ha hn hs hrow hc ht
    · exact hnone t hold
    · cases x with
      | releaseMainCheckout read o cleanup => exact hmain read o cleanup rfl
      | _ => cases hkept

/-- **Run lemma.** A session that timed out on a workspace slot is detached from then on. -/
theorem detached (h : (plane.restrict fun w op => op.reserving w = true).Reachable w) :
    ∀ s r, w.db.sessions s = some r → w.SlotTimedOut s → Detached r := by
  induction h with
  | init hw => exact fun s r hr => absurd hr hw.no_row
  | @step w w' op hw hs ih =>
    have hw' := (System.Reachable.step hw hs).of_restrict
    have hplane := hw.of_restrict
    obtain ⟨hok, ha, rfl⟩ := hs
    rw [reserving, and_eq_true] at hok
    rintro s r hr ⟨read, hread, hst, hslot⟩
    obtain hnow | hold := hasRead_apply hread
    · have he : (w.act op).1.sessions s = some r := hr
      rw [hnow] at he
      cases he
      exact detached_of_slot hw' hread hst hslot
    · have hrows : ∀ s r, (w.act op).1.sessions s = some r → w.SlotTimedOut s → Detached r := by
        refine rows_step hplane ha ih (fun x r hop hx htimed => ?_) (fun x r hop hx htimed => ?_)
          (fun s r habsent hadm htimed => ?_) (fun s r n hP htimed => ?_) (fun s read hop htimed => ?_)
        · subst hop
          have hd := ih _ r hx.row htimed
          have hrow := hx.row
          rw [x.writer_sessionId] at hrow
          exact detached_next hplane ha hok.1 hok.2 hrow hx.cond hd
        · have hd := (ih _ r hx.checked.row htimed).1
          rw [hx.checked.queued] at hd
          cases hd
        · obtain ⟨read, hread, -⟩ := htimed
          obtain ⟨r', hr', -⟩ := remembers hplane s read hread
          rw [habsent.1] at hr'
          cases hr'
        · obtain ⟨hst, hnone⟩ := hP htimed
          exact ⟨hst, fun t ht => hnone t (ht.of_same rfl rfl rfl rfl rfl)⟩
        · subst hop
          refine ⟨?_, fun t => (not_holds_persisted hplane ha).2⟩
          simp only [allowed, and_eq_true, beq_iff_eq] at ha
          exact ha.1.2
      exact hrows s r hr ⟨read, hold, hst, hslot⟩

/-! ## Disposal -/

def Op.disposal : Op → Option (String × String)
  | write (.settleHandoff _ o) => some (o.sessionId, o.handoffId)
  | write (.expireHandoff _ o) => some (o.sessionId, o.handoffId)
  | _ => none

section

variable (hw : plane.Reachable w)
include hw

theorem handoff_kept (ha : allowed w (.write x) = true) (hs : sparesHandoff w (.write x) = true)
    (hrow : w.db.sessions x.sessionId = some r) (hc : x.writer.cond r = true) (hh : r.terminalHookHandoff = some h)
    (hno : (write x).disposal = none) : (x.writer.next r).terminalHookHandoff = some h := by
  cases x with
  | finish c cleanup =>
    obtain ⟨hst, -, -, -, habsent, -⟩ := FinishSessionOpts.condition_iff.mp hc
    change c.opts.terminalHookHandoff.or r.terminalHookHandoff = some h
    cases ho : c.opts.terminalHookHandoff with
    | none => exact hh
    | some h' =>
      have hnone : r.terminalHookHandoff = none := by
        obtain hrun | he := (FinishCall.opts_handoff (promised_of_allowed ha) ho).2.2
        · exact no_handoff_of_active hw (hasRead_current hrow) (by rw [hst, hrun]; rfl)
        · exact habsent he
      rw [hh] at hnone
      cases hnone
  | releaseMainCheckout read o cleanup =>
    rw [no_handoff_of_spares hs hrow hc] at hh
    cases hh
  | settleHandoff | expireHandoff => cases hno
  | _ => exact hh

theorem names_of_disposes (hb : w.Backed) {worktreeId repo : Option String} (hread : w.hasRead s read = true)
    (hdis : disposes read h.handoffId worktreeId repo = true) (hrow : w.db.sessions s = some r)
    (hh : r.terminalHookHandoff = some h) :
    read.terminalHookHandoff = some h ∧ (∀ i, h.worktreeId = some i → given worktreeId = some i) ∧
      (h.mainCheckoutLease = true → repo = some h.repositoryId → given repo = some h.repositoryId) := by
  obtain ⟨hwt, hm⟩ := disposed_handoff hw hread hdis hrow hh rfl
  simp only [disposes, any_eq_true, and_eq_true, beq_iff_eq] at hdis
  obtain ⟨h', hh', ⟨hid', -⟩, -⟩ := hdis
  refine ⟨?_, fun i hi => ?_, fun hmain hrepo => ?_⟩
  · rw [hh', handoff_unique hw hread hh' (hasRead_current hrow) hh hid']
  · have hne : i ≠ "" := by
      rintro rfl
      have howner := hb s (.worktree "") ⟨r, hrow, .inl ⟨h, hh, hi⟩⟩
      simp [owner, storeOccupancy, worktree_noKey hw] at howner
    exact given_eq_some.mpr ⟨hwt.symm.trans hi, hne⟩
  · rw [hmain] at hm
    obtain ⟨k, hk⟩ := isSome_iff_exists.mp hm.symm
    rw [hk, ← hrepo, (given_eq_some.mp hk).1]

theorem frees_of_disposal (hb : w.Backed) (ha : allowed w (.write x) = true)
    (hn : named w (.write x) = true) (hrow : w.db.sessions x.sessionId = some r) (hh : r.terminalHookHandoff = some h)
    (hc : x.writer.cond r = true) (hres : Reserves h t) (hd : (write x).disposal ≠ none) :
    (write x).disposal = some (x.sessionId, h.handoffId) ∧ x.Frees t := by
  have hp := promised_of_allowed ha
  cases x with
  | settleHandoff read o | expireHandoff read o =>
    simp only [writer, hh, any_some, beq_iff_eq] at hc
    simp only [promised, ← hc] at hp
    obtain ⟨hread, hwt, hmain⟩ := names_of_disposes hw hb (read_of_allowed ha rfl) hp hrow hh
    refine ⟨by rw [hc]; rfl, ?_⟩
    cases t with
    | worktree i => exact hwt i hres
    | mainCheckout host repo =>
      obtain ⟨hm, rfl, rfl⟩ := hres
      simp only [named, hread, all_some, hm, Bool.not_true, Bool.false_or, and_eq_true, beq_iff_eq] at hn
      simp only [WriteOp.Frees, checkout, hmain hm hn.2, hn.1, bind_some, map_some]
  | _ => exact absurd rfl hd

theorem released_wrote (hb : w.Backed) (ha : allowed w (.write x) = true) (hn : named w (.write x) = true)
    (hs : sparesHandoff w (.write x) = true) (ht : transact x.items w.db = .committed db')
    (hstores : w.hookView.Stores s h) (hres : Reserves h t) : HookView.Stores ⟨db'.sessions, storeOccupancy db'⟩ s h ∨
      ((write x).disposal = some (s, h.handoffId) ∧ (storeOccupancy db').Idle t) := by
  obtain ⟨r, hrow, hh⟩ := hstores
  obtain ⟨y, hx⟩ := wrote ht
  have hsessions := hx.sessions
  have hrow' := hx.row
  rw [x.writer_sessionId] at hsessions hrow'
  by_cases hsx : s = x.sessionId
  · subst hsx
    have he : w.db.sessions x.sessionId = some r := hrow
    rw [hrow'] at he
    cases he
    by_cases hd : (write x).disposal = none
    · refine .inl ⟨x.writer.next r, by simp [hsessions], ?_⟩
      exact handoff_kept hw ha hs hrow' hx.cond hh hd
    · obtain ⟨hdis, hfrees⟩ := frees_of_disposal hw hb ha hn hrow' hh hx.cond hres hd
      exact .inr ⟨hdis, idle_of_frees hx (leaseGiven_write ht) hfrees⟩
  · have hkept : db'.sessions s = some r := by
      rw [hsessions, Function.update_of_ne hsx]
      exact hrow
    exact .inl ⟨r, hkept, hh⟩

end

/-- **Step lemma.** A request removes only the reservation it disposes of, and frees the target. -/
theorem released_step (h : (plane.restrict fun w op => op.reserving w = true).Reachable w)
    (ha : op.allowed w = true) (hok : op.reserving w = true) (hstores : w.hookView.Stores s hand) (hres : Reserves hand t) :
    (w.apply op).hookView.Stores s hand ∨
      (op.disposal = some (s, hand.handoffId) ∧ (w.apply op).hookView.occupancy.Idle t) := by
  have hw := h.of_restrict
  rw [reserving, and_eq_true] at hok
  obtain ⟨r, hrow, hh⟩ := hstores
  have same : (w.act op).1.sessions = w.db.sessions → (w.apply op).hookView.Stores s hand := fun he =>
    ⟨r, (congrFun he s).trans hrow, hh⟩
  have created : ∀ {o : CreateOpts} {lock : Option String}, Created o lock w.db (w.act op).1 →
      (w.apply op).hookView.Stores s hand := by
    intro o lock hc
    have hs : s ≠ o.sessionId := by
      rintro rfl
      exact absurd (hrow.symm.trans hc.absent) (by simp)
    obtain he | ⟨y, n, hy, he⟩ := hc.others s hs
    · exact ⟨r, he.trans hrow, hh⟩
    · cases hrow.symm.trans hy
      exact ⟨_, he, hh⟩
  by_cases hwrite : ∃ x, op = .write x
  · obtain ⟨x, rfl⟩ := hwrite
    have hact : (w.apply (.write x)).hookView = ⟨((transact x.items w.db).state w.db).sessions,
      storeOccupancy ((transact x.items w.db).state w.db)⟩ := rfl
    rw [hact]
    cases ht : transact x.items w.db with
    | committed db' => exact released_wrote hw (backed h) ha hok.1 hok.2 ht ⟨r, hrow, hh⟩ hres
    | cancelled | rejected => exact .inl ⟨r, hrow, hh⟩
  refine .inl ?_
  cases effect ha with
  | quiet h | hostLinked x k d e hop h | worktreeLinked i online k x hop hx h | marked key row hop h
  | stolen n k call reasons holder after y hop hcall hpc hy hn h | leaseReleased x y l hop hown h =>
    exact same h.sessions
  | wrote x y hop h => exact absurd ⟨x, hop⟩ hwrite
  | assigned x y hop hx =>
    have hs : s ≠ x.opts.sessionId := by
      rintro rfl
      cases hrow.symm.trans hx.checked.row
      have hnone := no_handoff_of_active hw (hasRead_current hrow) (by rw [hx.checked.queued]; rfl)
      rw [hh] at hnone
      cases hnone
    exact ⟨r, by rw [← hrow]; simp [hookView, apply, hx.sessions, hs], hh⟩
  | createdPlain o hop hc | created n k call hop hcall hpc hc => exact created hc
  | persisted x read hop hcreated hx =>
    subst hop
    have hs : s ≠ x := by
      rintro rfl
      simp only [allowed, and_eq_true, beq_iff_eq] at ha
      exact (detached h s r hrow ⟨read, ha.1.1, ha.1.2, ha.2⟩).2 t (.inl ⟨hand, hh, hres⟩)
    exact ⟨r, by rw [← hrow]; simp [hookView, apply, hx.sessions, hs], hh⟩

theorem stored_step (hw : plane.Reachable w) (ha : op.allowed w = true)
    (hstores : (w.apply op).hookView.Stores s hand) : w.hookView.Stores s hand ∨ hand.handoffId ∉ w.handoffs := by
  obtain ⟨r, hrow, hh⟩ := hstores
  refine rows_step (P := fun s r => ∀ h, r.terminalHookHandoff = some h →
      w.hookView.Stores s h ∨ h.handoffId ∉ w.handoffs) hw ha (fun s r hr h hh => .inl ⟨r, hr, hh⟩)
    (fun x r hop hx h hh => ?_) (fun x r hop hx h hh => ?_) (fun s r _ hadm h hh => ?_) (fun s r n hP => hP)
    (fun s read hop h hh => ?_) s r hrow hand hh
  · subst hop
    obtain hold | hnew := x.handoff_next hh
    · exact .inl ⟨r, hx.row, hold⟩
    · exact .inr (fresh_of_stored ha hnew)
  · rw [hx.launched.terminalHookHandoff] at hh
    exact .inl ⟨r, hx.checked.row, hh⟩
  · rw [hadm.blank.terminalHookHandoff] at hh
    cases hh
  · subst hop
    have hnone := (not_holds_persisted (t := .worktree "") hw ha).1
    change read.terminalHookHandoff = some h at hh
    rw [hnone] at hh
    cases hh

theorem reserved_durable (h : (plane.restrict fun w op => op.reserving w = true).Reachable w) :
    w.hookView.Reserved ∧ ∀ op, op.allowed w = true → op.reserving w = true →
      w.hookView.Disposes (w.apply op).hookView w.handoffs op.disposal :=
  ⟨HookView.reserved_of_backed (worktree_busy h.of_restrict) (backed h), fun _ ha hok =>
    ⟨fun _ _ _ => released_step h ha hok, fun _ _ => stored_step h.of_restrict ha⟩⟩

end AutoHarness.Protocol

import AutoHarness.Protocol.Coherent
import AutoHarness.Protocol.Released
import AutoHarness.Protocol.Settled
import AutoHarness.Protocol.WellFormed

/-! What an acknowledged terminal report leaves behind: the daemon stops resending it, so nothing of the attempt may
be left to do. Two exits of the handler acknowledge an attempt that is not settled. -/

namespace AutoHarness.Protocol
open Foundation Store Plane Function Option StatusReport World
open FinishSessionOpts (condition_iff freedSlot)

variable {s a : String} {r : SessionRow} {db db' : Db}

/-! ## What a coherent row holds -/

variable {owner : String × String}

theorem mainCheckoutOwner_some (h : mainCheckoutOwner r = some owner) :
    r.mainCheckoutLease = true ∧ r.hostId = .value owner.1 := by
  unfold mainCheckoutOwner at h
  split at h
  · rename_i hm
    simp only [bind_eq_some_iff, map_eq_some_iff] at h
    obtain ⟨x, hx, k, -, rfl⟩ := h
    exact ⟨hm, Attr.toOption_eq_some.mp (given_eq_some.mp hx).1⟩
  · cases h

theorem main_of_no_owner (hr : Coherent r) (h : mainCheckoutOwner r = none) (hh : r.terminalHookHandoff = none) :
    r.mainCheckoutLease = false := by
  rw [Bool.eq_false_iff]
  intro hm
  obtain ⟨h₁, h₂⟩ := hr.owner hm hh
  obtain ⟨x, hx⟩ := isSome_iff_exists.mp h₁
  obtain ⟨k, hk⟩ := isSome_iff_exists.mp h₂
  simp [mainCheckoutOwner, hm, hx, hk] at h

theorem given_worktree_none (h : r.worktreeId.toOption = none) : given r.worktreeId.toOption = none := by rw [h]; rfl

theorem given_slot_none (h : r.workspaceSlotId.toOption = none) : given r.workspaceSlotId.toOption = none := by
  rw [h]; rfl

theorem main_alone (hr : Coherent r) (hm : r.mainCheckoutLease = true) :
    given r.worktreeId.toOption = none ∧ given r.workspaceSlotId.toOption = none :=
  ⟨given_worktree_none (hr.main hm).1, given_slot_none (hr.main_slot hm)⟩

variable {i : String}

theorem slot_alone (hr : Coherent r) (hi : given r.workspaceSlotId.toOption = some i) :
    r.workspaceSlotId = .value i ∧ given r.worktreeId.toOption = none ∧ r.mainCheckoutLease = false := by
  have hv := Attr.toOption_eq_some.mp (given_eq_some.mp hi).1
  obtain ⟨-, hw, hm⟩ := hr.slot i hv
  exact ⟨hv, given_worktree_none hw, hm⟩

theorem worktree_alone (hr : Coherent r) (hi : given r.worktreeId.toOption = some i) :
    r.worktreeId = .value i ∧ given r.workspaceSlotId.toOption = none ∧ r.mainCheckoutLease = false := by
  have hv := Attr.toOption_eq_some.mp (given_eq_some.mp hi).1
  obtain ⟨hs, hm, -⟩ := hr.worktree hv
  exact ⟨hv, given_slot_none hs, hm⟩

variable {c : StatusReport}

/-! ## Late reports -/

variable {h : TerminalHookHandoff}

theorem settled_of_handoff (hr : Coherent r) (hterm : r.status.isTerminal = true)
    (hh : r.terminalHookHandoff = some h) (hrow : db.sessions s = some r) : Settled s a r db := by
  obtain ⟨hw, hp, hm⟩ := hr.handoff h hh
  refine settled_of_idle hrow (fun he => ?_) (given_worktree_none hw) (given_slot_none hp) fun hheld => ?_
  · rw [he] at hterm
    cases hterm
  · rw [hh]
    exact hm hheld

theorem retainedLate_some (hlate : c.retainedLateTerminalHandoff r = some h) :
    r.terminalHookHandoff = none ∧ (r.status = .cancelled ∨ r.status = .timedOut) := by
  unfold retainedLateTerminalHandoff at hlate
  split at hlate
  · rename_i hg
    simp only [Bool.and_eq_true, Bool.or_eq_true, beq_iff_eq, isNone_iff_eq_none] at hg
    exact ⟨hg.1.2, hg.1.1.1.2⟩
  · cases hlate

theorem applied_retain {written : Except StoreError Bool × Db} (happ : Applied (c.retain h written) db') :
    written = (.ok true, db') ∧ (db'.sessions c.msg.sessionId).bind (·.terminalHookHandoff) ≠ none := by
  obtain ⟨db₁, hwritten, answer, hans, ha⟩ := applied_onCommit happ
  split at hans
  · rename_i stored hs
    cases hans
    refine ⟨hwritten, fun hnone => ?_⟩
    simp [committedDeferredCheckoutFailureHandoff, hnone] at hs
  · cases hans
    cases ha

/-- A duplicate finds the old row, which has no handoff. -/
theorem applied_retain_finish {site : FinishSite} (hrow : db.sessions c.msg.sessionId = some r)
    (hnone : r.terminalHookHandoff = none) (happ : Applied (c.retain h (c.finish r site db)) db') :
    ∃ cleanup, transact (finishSessionItems (c.call r site).opts cleanup) db = .committed db' := by
  obtain ⟨hwritten, hstored⟩ := applied_retain happ
  obtain hcommit | ⟨-, -, cleanup, rfl⟩ := finish_true hwritten
  · exact hcommit
  · refine absurd ?_ hstored
    rw [hrow]
    exact hnone

theorem settled_retainLate {otherwise : Handled} (hr : Coherent r)
    (hrow : db.sessions c.msg.sessionId = some r) (hlate : c.retainedLateTerminalHandoff r = some h)
    (happ : Applied (c.retainLate r h db otherwise) db') :
    Settled c.msg.sessionId a r db' ∨ Applied otherwise db' ∧ given r.workspaceSlotId.toOption = none := by
  obtain ⟨hnone, hstatus⟩ := retainedLate_some hlate
  have hst : r.status ≠ .running := by obtain e | e := hstatus <;> rw [e] <;> simp
  unfold retainLate at happ
  dsimp only at happ
  split at happ
  · rename_i hg
    simp only [Bool.and_eq_true, beq_iff_eq, isNone_iff_eq_none, Bool.not_eq_true'] at hg
    obtain ⟨⟨⟨-, hw⟩, hp⟩, hm⟩ := hg
    obtain ⟨cleanup, ht⟩ := applied_retain_finish hrow hnone happ
    refine .inl (settled_of_finish ht hst (fun i hi => ?_) (fun i hi => ?_) hm)
    · rw [hw] at hi
      cases hi
    · rw [hp] at hi
      cases hi
  · split at happ
    · rename_i owner howner
      obtain ⟨hm, hhost⟩ := mainCheckoutOwner_some howner
      obtain ⟨hw, hp⟩ := main_alone hr hm
      obtain ⟨cleanup, ht⟩ := releaseCheckout_true (applied_retain happ).1
      exact .inl (settled_of_releaseCheckout ht hst hw hp hhost rfl)
    · split at happ
      · rename_i hg
        obtain ⟨i, hi⟩ := isSome_iff_exists.mp hg
        obtain ⟨hv, hw, hm⟩ := slot_alone hr hi
        obtain ⟨cleanup, ht⟩ := applied_retain_finish hrow hnone happ
        refine .inl (settled_of_finish ht hst (fun j hj => ?_) (fun j hj => ?_) hm)
        · rw [hw] at hj
          cases hj
        · rw [← hj]
          rfl
      · rename_i hslot
        split at happ
        · rename_i hg
          obtain ⟨i, hi⟩ := isSome_iff_exists.mp hg
          obtain ⟨hv, hp, hm⟩ := worktree_alone hr hi
          obtain ⟨cleanup, ht⟩ := applied_retain_finish hrow hnone happ
          refine .inl (settled_of_finish ht hst (fun j hj => (given_eq_some.mp hj).1) (fun j hj => ?_) hm)
          rw [hp] at hj
          cases hj
        · exact .inr ⟨happ, by simpa using hslot⟩

/-! ## Timed-out sessions -/

theorem timedOut_released {result : Option SessionResult} (hrow : db.sessions c.msg.sessionId = some r)
    (h : c.releaseTimedOutProviderAccountLease r result db = (.ok true, db')) :
    ∃ r', db'.sessions c.msg.sessionId = some r' ∧ r'.status = r.status ∧ r'.worktreeId = r.worktreeId ∧
      r'.workspaceSlotId = r.workspaceSlotId ∧ r'.attemptId = r.attemptId ∧
      r'.terminalHookHandoff = r.terminalHookHandoff ∧ db'.workspaceSlots = db.workspaceSlots := by
  unfold StatusReport.releaseTimedOutProviderAccountLease at h
  split at h
  · obtain ⟨y, l, hy, -, -, -, -, -, -, rfl⟩ :=
      timedOutAccount_committed (commitOrFalse_true.mp h)
    rw [hrow] at hy
    cases hy
    exact ⟨_, update_self .., rfl, rfl, rfl, rfl, rfl, rfl⟩
  · split at h
    · obtain ⟨y, hy, -, -, -, -, rfl⟩ := timedOutHost_committed (commitOrFalse_true.mp h)
      rw [hrow] at hy
      cases hy
      exact ⟨_, update_self .., rfl, rfl, rfl, rfl, rfl, rfl⟩
    · cases h
      exact ⟨r, hrow, rfl, rfl, rfl, rfl, rfl, rfl⟩

variable {r' : SessionRow} {f : SessionReportFields} {w : World}

theorem settled_of_slot (hr' : db.sessions s = some r') (hst : r'.status ≠ .running)
    (hw : given r.worktreeId.toOption = none) (hm : r.mainCheckoutLease = false)
    (hp : ∀ i, given r.workspaceSlotId.toOption = some i →
      ∀ x, db.workspaceSlots i = some x → x.currentSessionId ≠ .value s) : Settled s a r db := by
  refine ⟨r', hr', fun h => hst h.1, fun i hi => ?_, hp, fun h => by rw [hm] at h; cases h⟩
  rw [hw] at hi
  cases hi

section

variable (hr : Coherent r)
include hr

theorem slot_of_lost (hc : c.Current r) (hi : given r.workspaceSlotId.toOption = some i) (hst : r.status = .timedOut)
    (hr' : db.sessions c.msg.sessionId = some r') (hst' : r'.status = r.status) (hw' : r'.worktreeId = r.worktreeId)
    (hp' : r'.workspaceSlotId = r.workspaceSlotId) (ha' : r'.attemptId = r.attemptId)
    (hlost : ¬ (FenceHolds (c.call r (.timedOutSlot c.msg)).opts.fence
        (c.call r (.timedOutSlot c.msg)).opts.hostAssignmentLease db ∧
      FinishReady (c.call r (.timedOutSlot c.msg)).opts db)) :
    ∀ x, db.workspaceSlots i = some x → x.currentSessionId ≠ .value c.msg.sessionId := by
  intro x hx hcur
  obtain ⟨hv, -, -⟩ := slot_alone hr hi
  have hnull : r.worktreeId = .null := by
    have hnone := (hr.slot i hv).2.1
    rw [hc.worktreeId] at hnone ⊢
    cases hm : c.msg.worktreeId with
    | none => rfl
    | some j => rw [hm] at hnone; cases hnone
  refine hlost ⟨nofun, ?_⟩
  refine ⟨⟨r', hr', ?_⟩, nofun, fun j hj => ?_, nofun, nofun, nofun⟩
  · refine condition_iff.mpr ⟨hst'.trans hst, hw'.trans hnull, .inr hp', ha'.trans hc.attemptId,
      nofun, nofun, nofun, fun h => absurd rfl h⟩
  · have hfreed : given r.workspaceSlotId.toOption = some j := hj
    rw [hi] at hfreed
    cases hfreed
    exact ⟨x, hx, hcur⟩

theorem settled_timedOutSlot (hc : c.Current r) (hrow : db.sessions c.msg.sessionId = some r)
    (hst : r.status = .timedOut) (hi : given r.workspaceSlotId.toOption = some i)
    (happ : Applied (c.releaseTimedOutSlot r db) db') : Settled c.msg.sessionId a r db' := by
  obtain ⟨-, hw, hm⟩ := slot_alone hr hi
  obtain ⟨db₁, hreleased, happ⟩ := applied_onCommit happ
  obtain ⟨db₂, hfinished, answer, hans, -⟩ := applied_onCommit happ
  obtain ⟨r₁, hr₁, hst₁, hw₁, hp₁, ha₁, -, -⟩ := timedOut_released hrow hreleased
  have hfree : ∀ j, given r.workspaceSlotId.toOption = some j →
      ∀ x, db₂.workspaceSlots j = some x → x.currentSessionId ≠ .value c.msg.sessionId := by
    intro j hj x hx
    rw [hi] at hj
    cases hj
    obtain ⟨cleanup, ht⟩ | ⟨hlost, -, cleanup, rfl⟩ := finish_true hfinished
    · obtain ⟨y, -, -, -, -, rfl⟩ := finishSession_committed ht
      have hfreed : (c.call r (.timedOutSlot c.msg)).opts.freedSlot = some i := hi
      simp only [FinishSessionOpts.after, hfreed] at hx
      exact slot_freed hx
    · exact slot_of_lost hr hc hi hst hr₁ hst₁ hw₁ hp₁ ha₁ hlost x hx
  have hrow₂ : ∃ r₂, db₂.sessions c.msg.sessionId = some r₂ ∧ r₂.status = .timedOut := by
    obtain ⟨cleanup, ht⟩ | ⟨-, -, cleanup, rfl⟩ := finish_true hfinished
    · obtain ⟨y, -, -, -, -, rfl⟩ := finishSession_committed ht
      exact ⟨_, update_self .., rfl⟩
    · exact ⟨r₁, hr₁, hst₁.trans hst⟩
  obtain ⟨r₂, hr₂, hst₂⟩ := hrow₂
  cases ht : transact (putTimedOutItems c.msg.sessionId r) db₂ with
  | committed db₃ =>
    obtain ⟨-, -, rfl⟩ := committed_iff.mp ht
    rw [ht] at hans
    cases hans
    have hput : update db₂.sessions c.msg.sessionId (some (timedOutPersisted r)) c.msg.sessionId =
        some (timedOutPersisted r) := update_self ..
    exact settled_of_slot hput (by simp [timedOutPersisted, hst]) hw hm hfree
  | cancelled | rejected =>
    rw [ht] at hans
    cases hans
    exact settled_of_slot hr₂ (by rw [hst₂]; simp) hw hm hfree

theorem settled_timedOut (hst : r.status = .timedOut) (hp : given r.workspaceSlotId.toOption = none)
    (hr' : db.sessions s = some r') (hst' : r'.status = r.status)
    (hh' : r'.terminalHookHandoff = r.terminalHookHandoff) : Settled s a r db := by
  refine settled_of_idle hr' (by rw [hst', hst]; simp) (given_worktree_none (hr.timedOut hst)) hp fun hm => ?_
  obtain e | e | hne := (hr.main hm).2
  · rw [hst] at e
    cases e
  · rw [hst] at e
    cases e
  · obtain ⟨h, hh⟩ := ne_none_iff_exists'.mp hne
    rw [hh', hh]
    exact (hr.handoff h hh).2.2 hm

/-! ## Resolved and cancelled sessions -/

theorem settled_resolved (hrun : r.status ≠ .running) (hcan : r.status ≠ .cancelled)
    (hp : r.status = .timedOut → given r.workspaceSlotId.toOption = none) (hrow : db.sessions s = some r) :
    Settled s a r db := by
  have ended : r.status = .completed ∨ r.status = .failed → Settled s a r db := by
    intro he
    obtain ⟨hw, hs⟩ := hr.ended he
    refine settled_of_idle hrow hrun (given_worktree_none hw) (given_slot_none hs) fun hm => ?_
    obtain e | e | hne := (hr.main hm).2
    · exact absurd e hrun
    · exact absurd e hcan
    · obtain ⟨h, hh⟩ := ne_none_iff_exists'.mp hne
      rw [hh]
      exact (hr.handoff h hh).2.2 hm
  cases hst : r.status with
  | queued =>
    obtain ⟨hw, hs, hm⟩ := hr.queued hst
    exact settled_of_idle hrow hrun (given_worktree_none hw) (given_slot_none hs) fun h => by rw [hm] at h; cases h
  | running => exact absurd hst hrun
  | completed => exact ended (.inl hst)
  | failed => exact ended (.inr hst)
  | cancelled => exact absurd hst hcan
  | timedOut => exact settled_timedOut hr hst (hp hst) hrow rfl rfl

theorem releaseEffects_worktree (hi : given r.worktreeId.toOption = some i) :
    releaseEffects r = [.releaseWorktree] := by
  obtain ⟨-, hs, hm⟩ := worktree_alone hr hi
  simp [releaseEffects, hm, hs, hi]

theorem releaseEffects_slot (hi : given r.workspaceSlotId.toOption = some i) :
    releaseEffects r = [.releaseWorkspace] := by
  obtain ⟨-, -, hm⟩ := slot_alone hr hi
  simp [releaseEffects, hm, hi]

end

theorem releaseEffects_main (hm : r.mainCheckoutLease = true) : releaseEffects r = [.releaseLease] := by
  simp [releaseEffects, hm]

theorem mem_plan_cancelled {e : SessionTransitionEffect} (hc : c.Current r) (hst : r.status = .cancelled)
    (he : releaseEffects r = [e]) : e ∈ c.plan r db := by
  rw [plan_cancelled hc hst (by rw [he]; simp), he]
  simp

theorem settled_cancelled_free (hr : Coherent r) (hst : r.status = .cancelled) (hrow : db.sessions s = some r)
    (hw : given r.worktreeId.toOption = none) (hp : given r.workspaceSlotId.toOption = none)
    (hm : r.mainCheckoutLease = true → r.terminalHookHandoff ≠ none) : Settled s a r db := by
  refine settled_of_idle hrow (by rw [hst]; simp) hw hp fun hheld => ?_
  obtain ⟨h, hh⟩ := ne_none_iff_exists'.mp (hm hheld)
  rw [hh]
  exact (hr.handoff h hh).2.2 hheld

theorem settled_releaseCancelled (hr : Coherent r) (hrow : db.sessions c.msg.sessionId = some r) (hi : given r.worktreeId.toOption = some i)
    (happ : Applied (c.releaseCancelled r i db) db') : Settled c.msg.sessionId a r db' := by
  obtain ⟨hv, hp, hm⟩ := worktree_alone hr hi
  obtain ⟨db₁, hreleased, rfl⟩ := applied_commit happ
  have hattached : alreadyDetached c.msg.sessionId db = false := by
    simp [alreadyDetached, hrow, hv]
  obtain ⟨cleanup, ht⟩ := releaseCancelled_true hattached hreleased
  exact settled_releaseAccount (settled_of_releaseCancelled ht hi hp hm)

def SlotReady (c : StatusReport) (r : SessionRow) (db : Db) : Prop :=
  FenceHolds (c.call r (.cancelledSlot c.msg c.fence)).opts.fence
      (c.call r (.cancelledSlot c.msg c.fence)).opts.hostAssignmentLease db ∧
    FinishReady (c.call r (.cancelledSlot c.msg c.fence)).opts db

/-- If its write is ready, or the slot is somebody else's already. -/
theorem settled_releaseCancelledSlot (hr : Coherent r) (hst : r.status = .cancelled)
    (hrow : db.sessions c.msg.sessionId = some r) (hi : given r.workspaceSlotId.toOption = some i)
    (hready : ∀ x, db.workspaceSlots i = some x → x.currentSessionId = .value c.msg.sessionId → SlotReady c r db)
    (happ : Applied (c.releaseCancelledSlot r db) db') : Settled c.msg.sessionId a r db' := by
  obtain ⟨-, hw, hm⟩ := slot_alone hr hi
  obtain ⟨db₁, hreleased, rfl⟩ := applied_commit happ
  refine settled_releaseAccount ?_
  obtain ⟨cleanup, ht⟩ | ⟨hlost, -, cleanup, rfl⟩ := finish_true hreleased
  · refine settled_of_finish (r := r) ht (by simp [FinishCall.opts]) (fun j hj => ?_) (fun j hj => ?_) hm
    · rw [hw] at hj
      cases hj
    · rw [hi] at hj
      cases hj
      simp [freedSlot, FinishCall.opts, finishSessionOptsFromPlan, hi,
        given_of_ne (given_eq_some.mp hi).2]
  · refine settled_of_slot hrow (by rw [hst]; simp) hw hm fun j hj x hx hcur => ?_
    rw [hi] at hj
    cases hj
    exact hlost (hready x hx hcur)

theorem settled_cancelledCheckout (hr : Coherent r) (howner : mainCheckoutOwner r = some owner)
    (happ : Applied (c.releaseCancelledMainCheckout r owner db) db') : Settled c.msg.sessionId a r db' := by
  obtain ⟨hm, hhost⟩ := mainCheckoutOwner_some howner
  obtain ⟨hw, hp⟩ := main_alone hr hm
  obtain ⟨db₁, hreleased, rfl⟩ := applied_commit happ
  obtain ⟨cleanup, ht⟩ := releaseCheckout_true hreleased
  exact settled_releaseAccount
    (settled_of_releaseCheckout ht (by simp [mainCheckoutOpts]) hw hp hhost rfl)

/-! ## Running sessions -/

theorem settled_finished {handoff : Option TerminalHookHandoff} (hs : Settled s a r db)
    (happ : Applied (c.finished r handoff db) db') : Settled s a r db' := by
  obtain ⟨answer, hans, ha⟩ := happ
  unfold finished at hans
  split at hans
  · cases hans
    exact settled_releaseAccount hs
  · split at hans
    · cases hans
      exact settled_releaseAccount hs
    · cases hans
      cases ha

theorem finishCheckoutOpts_status (hc : c.Current r) :
    (c.finishMainCheckoutOpts r (c.plan r db) owner).status ≠ .running := by
  change ((finishEffect (c.plan r db)).map (·.1)).getD c.msg.status ≠ .running
  have hterm : (((finishEffect (c.plan r db)).map (·.1)).getD c.msg.status).isTerminal = true := by
    cases hf : finishEffect (c.plan r db) with
    | none => exact hc.terminal
    | some x => exact isTerminal_of_finishEffect hf
  intro he
  rw [he] at hterm
  cases hterm

theorem settled_settleCheckout (hr : Coherent r) (hc : c.Current r) (howner : mainCheckoutOwner r = some owner)
    (happ : Applied (c.settleMainCheckout r (c.plan r db) owner db) db') : Settled c.msg.sessionId a r db' := by
  obtain ⟨hm, hhost⟩ := mainCheckoutOwner_some howner
  obtain ⟨hw, hp⟩ := main_alone hr hm
  -- every branch is one release of the checkout, under its own options
  have released : ∀ {o : ReleaseMainCheckoutOpts} {db₁ : Db}, o.sessionId = c.msg.sessionId → o.status ≠ .running →
      o.hostId = owner.1 → o.repositoryId = r.repositoryId →
      releaseMainCheckoutSession o db db = (.ok true, db₁) → Settled c.msg.sessionId a r db₁ := by
    intro o db₁ hs hst hh hrepo hwritten
    obtain ⟨cleanup, ht⟩ := releaseCheckout_true hwritten
    rw [← hs]
    exact settled_of_releaseCheckout ht hst hw hp (by rw [hh]; exact hhost) hrepo
  unfold settleMainCheckout at happ
  dsimp only at happ
  split at happ
  · obtain ⟨db₁, hwritten, rfl⟩ := applied_commit happ
    exact settled_releaseAccount (released rfl (by simp [mainCheckoutOpts]) rfl rfl hwritten)
  split at happ
  · obtain ⟨db₁, hwritten, rfl⟩ := applied_commit happ
    exact settled_releaseAccount (released rfl (by simp [mainCheckoutOpts]) rfl rfl hwritten)
  split at happ
  · obtain ⟨db₁, hwritten, rfl⟩ := applied_commit happ
    exact settled_releaseAccount
      (settled_of_requeueCheckout (commitOrFalse_true.mp hwritten) hw hp hhost rfl)
  split at happ
  · obtain ⟨db₁, hwritten, rfl⟩ := applied_commit happ
    exact released rfl (by simp [mainCheckoutOpts]) rfl rfl hwritten
  · obtain ⟨db₁, hwritten, happ⟩ := applied_onCommit happ
    exact settled_finished (released rfl (finishCheckoutOpts_status hc) rfl rfl hwritten) happ

theorem worktree_named (r : SessionRow) : given r.worktreeId.toOption = none ∨
    given r.worktreeId.toOption = some (r.worktreeId.toOption.getD "") := by
  cases hw : given r.worktreeId.toOption with
  | none => exact .inl rfl
  | some i => rw [(given_eq_some.mp hw).1]; exact .inr rfl

section

variable (hr : Coherent r)
include hr

theorem settled_requeueLimited (hm : r.mainCheckoutLease = false) {account : UsageLimitedAccount}
    (h : c.requeueUsageLimited r account f db = (.ok true, db')) : Settled c.msg.sessionId a r db' := by
  unfold requeueUsageLimited at h
  split at h
  · rename_i i hi
    exact settled_of_usageLimit (commitOrFalse_true.mp h) (fun _ => rfl) (.inl (slot_alone hr hi).2.1)
      (.inr hi) hm
  · rename_i hnone
    exact settled_of_usageLimit (commitOrFalse_true.mp h) (fun _ => rfl) (worktree_named r) (.inl hnone) hm

theorem settled_suppressProviderless (hm : r.mainCheckoutLease = false) {targetIndex : ℕ}
    (h : c.suppressProviderless r targetIndex f db = (.ok true, db')) : Settled c.msg.sessionId a r db' := by
  unfold suppressProviderless at h
  split at h
  · rename_i i hi
    exact settled_of_usageLimit (commitOrFalse_true.mp h) (fun _ => rfl) (.inl (slot_alone hr hi).2.1)
      (.inr hi) hm
  · rename_i hnone
    exact settled_of_usageLimit (commitOrFalse_true.mp h) (fun _ => rfl) (worktree_named r) (.inl hnone) hm

variable (hc : c.Current r)
include hc

theorem settled_settleAssignment (hrun : r.status = .running)
    (hm : r.mainCheckoutLease = false) (hrow : db.sessions c.msg.sessionId = some r)
    (happ : Applied (c.settleAssignment r (c.plan r db) db) db') : Settled c.msg.sessionId a r db' := by
  unfold settleAssignment at happ
  dsimp only at happ
  split at happ
  · obtain ⟨db₁, hwritten, rfl⟩ := applied_commit happ
    exact settled_releaseAccount (settled_requeueLimited hr hm hwritten)
  split at happ
  · rename_i i hi
    split at hi
    · obtain ⟨db₁, hwritten, rfl⟩ := applied_commit happ
      exact settled_releaseAccount
        (settled_of_requeue (commitOrFalse_true.mp hwritten) hi (worktree_alone hr hi).2.1 hm)
    · cases hi
  split at happ
  · obtain ⟨db₁, hwritten, rfl⟩ := applied_commit happ
    exact settled_releaseAccount (settled_suppressProviderless hr hm hwritten)
  · obtain ⟨db₁, hwritten, happ⟩ := applied_onCommit happ
    have hg : (c.call r (.report c.msg c.fence c.handoffId (c.loadedAccount r db))).guard = true := by
      simp [FinishCall.guard, hrun, hc.attempt, hc.terminal, hm]
    have hst := (FinishCall.opts_status hg).1
    refine settled_finished ?_ happ
    obtain ⟨cleanup, ht⟩ | ⟨-, hdup, -⟩ := finish_true hwritten
    · refine settled_of_finish ht hst (fun i hi => (given_eq_some.mp hi).1) (fun i hi => ?_) hm
      simp [freedSlot, FinishCall.opts, finishSessionOptsFromPlan, hi,
        given_of_ne (given_eq_some.mp hi).2]
    · -- a running row is never taken for a duplicate
      rw [hrow] at hdup
      exact absurd ((some.inj hdup).symm.trans hrun) hst

/-! ## All exits -/

theorem settled_settle (hrow : db.sessions c.msg.sessionId = some r)
    (hactive : r.status.isActive = true → r.terminalHookHandoff = none) (hgone : ¬ c.AccountGone r db)
    (hslot : r.status = .timedOut → given r.workspaceSlotId.toOption = none)
    (hready : r.status = .cancelled → ∀ i x, given r.workspaceSlotId.toOption = some i →
      db.workspaceSlots i = some x → x.currentSessionId = .value c.msg.sessionId → SlotReady c r db)
    (happ : Applied (c.settle r db) db') : Settled c.msg.sessionId a r db' := by
  unfold settle at happ
  dsimp only at happ
  split at happ
  · obtain ⟨answer, hans, ha⟩ := happ
    cases hans
    cases ha
  split at happ
  · rename_i hignored
    obtain ⟨answer, hans, -⟩ := happ
    cases hans
    by_cases hrun : r.status = .running
    · exact absurd ((ignores_running hc hrun).mp hignored) hgone
    by_cases hcan : r.status = .cancelled
    · -- a cancelled row that is ignored has nothing to release
      have hnone : releaseEffects r = [] := by
        by_contra hne
        rw [plan_cancelled hc hcan hne] at hignored
        simp only [ignores_append, ignores_releaseEffects] at hignored
        split at hignored <;> cases hignored
      have hw : given r.worktreeId.toOption = none := by
        by_contra hne
        obtain ⟨i, hi⟩ := ne_none_iff_exists'.mp hne
        rw [releaseEffects_worktree hr hi] at hnone
        cases hnone
      have hp : given r.workspaceSlotId.toOption = none := by
        by_contra hne
        obtain ⟨i, hi⟩ := ne_none_iff_exists'.mp hne
        rw [releaseEffects_slot hr hi] at hnone
        cases hnone
      refine settled_cancelled_free hr hcan hrow hw hp fun hm => ?_
      rw [releaseEffects_main hm] at hnone
      cases hnone
    · exact settled_resolved hr hrun hcan hslot hrow
  rename_i hkept
  split at happ
  · rename_i i hi
    split at hi
    · exact settled_releaseCancelled hr hrow hi happ
    · cases hi
  rename_i hnoWorktree
  split at happ
  · rename_i hg
    simp only [Bool.and_eq_true, beq_iff_eq] at hg
    obtain ⟨i, hi⟩ := isSome_iff_exists.mp hg.1.2
    exact settled_releaseCancelledSlot hr hg.1.1 hrow hi (fun x hx hcur => hready hg.1.1 i x hi hx hcur) happ
  rename_i hnoSlot
  split at happ
  · rename_i owner howner
    split at howner
    · exact settled_cancelledCheckout hr howner happ
    · cases howner
  rename_i hnoOwner
  split at happ
  · rename_i hrun
    obtain ⟨answer, hans, -⟩ := happ
    cases hans
    by_cases hcan : r.status = .cancelled
    · -- each kind of claim would have been released by its branch
      have hw : given r.worktreeId.toOption = none := by
        by_contra hne
        obtain ⟨i, hi⟩ := ne_none_iff_exists'.mp hne
        rw [if_pos (by simp [hcan, mem_plan_cancelled hc hcan (releaseEffects_worktree hr hi)]), hi] at hnoWorktree
        cases hnoWorktree
      have hp : given r.workspaceSlotId.toOption = none := by
        by_contra hne
        obtain ⟨i, hi⟩ := ne_none_iff_exists'.mp hne
        exact hnoSlot (by simp [hcan, hi, mem_plan_cancelled hc hcan (releaseEffects_slot hr hi)])
      refine settled_cancelled_free hr hcan hrow hw hp fun hm hh => ?_
      rw [if_pos (by simp [hcan, mem_plan_cancelled hc hcan (releaseEffects_main hm)])] at hnoOwner
      rw [main_of_no_owner hr hnoOwner hh] at hm
      cases hm
    · exact absurd (ignores_late hc hrun hcan) hkept
  · rename_i hrun
    have hrunning : r.status = .running := by simpa using hrun
    split at happ
    · rename_i owner howner
      exact settled_settleCheckout hr hc howner happ
    · rename_i howner
      have hm := main_of_no_owner hr howner (hactive (by rw [hrunning]; rfl))
      exact settled_settleAssignment hr hc hrunning hm hrow happ

theorem settled_report (hrow : db.sessions c.msg.sessionId = some r)
    (hactive : r.status.isActive = true → r.terminalHookHandoff = none) (hgone : ¬ c.AccountGone r db)
    (hready : r.status = .cancelled → ∀ i x, given r.workspaceSlotId.toOption = some i →
      db.workspaceSlots i = some x → x.currentSessionId = .value c.msg.sessionId → SlotReady c r db)
    (happ : Applied (c.report r db) db') : Settled c.msg.sessionId a r db' := by
  unfold report at happ
  split at happ
  · rename_i hg
    simp only [Bool.and_eq_true, beq_iff_eq] at hg
    obtain ⟨i, hi⟩ := isSome_iff_exists.mp hg.1.2
    exact settled_timedOutSlot hr hc hrow hg.1.1.1 hi happ
  · rename_i hg
    have hslot : r.status = .timedOut → given r.workspaceSlotId.toOption = none := by
      intro hst
      by_contra hne
      obtain ⟨i, hi⟩ := ne_none_iff_exists'.mp hne
      exact hg (by simp [hst, hi, hc.terminal, hc.attemptId])
    split at happ
    · rename_i hg'
      simp only [Bool.and_eq_true, beq_iff_eq] at hg'
      obtain ⟨db₁, hwritten, rfl⟩ := applied_commit happ
      obtain ⟨r', hr', hst', -, -, -, hh', -⟩ := timedOut_released hrow hwritten
      exact settled_timedOut hr hg'.1.1 (hslot hg'.1.1) hr' hst' hh'
    · exact settled_settle hr hc hrow hactive hgone hslot hready happ

end

/-! ## The two exits that do not settle -/

/-- No hook is retained and the slot is still taken, but a condition of the terminal write fails. -/
structure SlotLost (c : StatusReport) (r : SessionRow) (db : Db) : Prop where
  cancelled : r.status = .cancelled
  noHook : c.retainedLateTerminalHandoff r = none
  slot : ∃ i x, given r.workspaceSlotId.toOption = some i ∧ db.workspaceSlots i = some x ∧
    x.currentSessionId = .value c.msg.sessionId
  lost : ¬ SlotReady c r db

theorem applyStatusDurable_report (hrow : db.sessions c.msg.sessionId = some r)
    (hh : r.terminalHookHandoff = none) (hlate : c.retainedLateTerminalHandoff r = none) :
    c.applySessionStatusDurable none db = c.report r db := by
  have hreplay : c.replays r = false := by simp [replays, hh]
  simp [applySessionStatusDurable, hrow, hreplay, hlate]

theorem applied_of_accountGone (hc : c.Current r) (hrow : db.sessions c.msg.sessionId = some r)
    (hh : r.terminalHookHandoff = none) (hg : c.AccountGone r db) :
    Applied (c.applySessionStatusDurable none db) db := by
  have hrun := hg.running
  have hlate : c.retainedLateTerminalHandoff r = none := by simp [retainedLateTerminalHandoff, hrun]
  have hplan : c.plan r db = [.ignore .missingAccount] := by
    obtain ⟨id, hid, hnone⟩ := hg.account
    have hload : c.loadedAccount r db = none := by simp [loadedAccount, hid, hnone]
    rw [plan_running hc hrun, if_pos (by simp [hg.failed, hg.usageLimit]), hload]
    simp [planUsageLimit, hid, hg.main]
  rw [applyStatusDurable_report hrow hh hlate]
  have hrest : c.report r db = c.settle r db := by simp [report, hrun]
  rw [hrest]
  unfold settle
  rw [hplan]
  exact ⟨_, rfl, rfl⟩

theorem finish_of_lost (hn : (targets (finishSessionItems (c.call r (.cancelledSlot c.msg c.fence)).opts
      (finishSessionCleanup (c.call r (.cancelledSlot c.msg c.fence)).opts db))).Nodup)
    (hrow : db.sessions c.msg.sessionId = some r) (hst : r.status = .cancelled) (hlost : ¬ SlotReady c r db) :
    ∃ drains, c.finish r (.cancelledSlot c.msg c.fence) db = (.ok true, { db with sessionDrains := drains }) := by
  have ht := transact_of_not_ready hn (mt ready_finishSession.mp hlost)
  have hsame : (db.sessions c.msg.sessionId).map (·.status) =
      some (c.call r (.cancelledSlot c.msg c.fence)).opts.status := by
    rw [hrow, map_some, hst]
    rfl
  refine ⟨drainsWithout (finishSessionCleanup (c.call r (.cancelledSlot c.msg c.fence)).opts db) db.sessionDrains, ?_⟩
  unfold finish finishSession
  dsimp only
  rw [ht]
  simp only [finishSessionConflict, hsame, if_true, truthy, runAll_drainDelete]
  rfl

theorem applied_of_slotLost (hw : plane.Reachable w) (hr : Coherent r) (hc : c.Current r)
    (hrow : w.db.sessions c.msg.sessionId = some r) (hl : SlotLost c r w.db) :
    ∃ db', Applied (c.applySessionStatusDurable none w.db) db' ∧ db'.workspaceSlots = w.db.workspaceSlots := by
  obtain ⟨i, x, hi, -, -⟩ := hl.slot
  have hst := hl.cancelled
  obtain ⟨hv, hfree, hm⟩ := slot_alone hr hi
  have hh : r.terminalHookHandoff = none := by
    by_contra hne
    obtain ⟨h, hh⟩ := ne_none_iff_exists'.mp hne
    have hnone := given_slot_none (hr.handoff h hh).2.1
    rw [hi] at hnone
    cases hnone
  have hallowed : ∀ cleanup, Op.allowed w (.write (.finish (c.call r (.cancelledSlot c.msg c.fence)) cleanup)) = true := by
    intro cleanup
    have hread := hasRead_current hrow
    have hg : (c.call r (.cancelledSlot c.msg c.fence)).guard = true := by
      simp [FinishCall.guard, hst, hi, hc.attempt, hc.terminal]
    have hstored : (c.call r (.cancelledSlot c.msg c.fence)).opts.terminalHookHandoff = none := rfl
    simp [Op.allowed, WriteOp.read, WriteOp.sessionId, WriteOp.promised, WriteOp.stored, hread, hg, hstored]
  obtain ⟨drains, hfinish⟩ := finish_of_lost (finish_nodup hw (hallowed _)) hrow hst hl.lost
  have heff := releaseEffects_slot hr hi
  have hne : releaseEffects r ≠ [] := by simp [heff]
  have hreject : rejectEffect (c.plan r w.db) = none := by
    rw [plan_cancelled hc hst hne, heff]
    split <;> rfl
  have hkept : ignores (c.plan r w.db) = false := by
    rw [plan_cancelled hc hst hne, heff]
    split <;> rfl
  have hmem : .releaseWorkspace ∈ c.plan r w.db := mem_plan_cancelled hc hst heff
  have hrest : c.applySessionStatusDurable none w.db = c.releaseCancelledSlot r w.db := by
    rw [applyStatusDurable_report hrow hh hl.noHook]
    simp [report, settle, hst, hreject, hkept, hfree, hi, hmem]
  refine ⟨c.releaseProviderAccountLease r { w.db with sessionDrains := drains }, ?_, ?_⟩
  · rw [hrest, releaseCancelledSlot, hfinish]
    exact ⟨_, rfl, rfl⟩
  · unfold releaseProviderAccountLease
    split
    · rfl
    · rename_i l _
      cases ht : transact (releaseProviderAccountLeaseItems l.concurrencyId c.msg.sessionId l.attemptId)
        { w.db with sessionDrains := drains } with
      | committed db₁ =>
        obtain ⟨-, rfl⟩ := releaseAccount_committed ht
        rfl
      | cancelled | rejected => rfl

/-- An acknowledged terminal report leaves its attempt settled, unless the usage limit of a deleted account is ignored
or the slot of a cancelled session is taken for released. -/
theorem acknowledged_settled {w : World} (hw : plane.Reachable w) (usageError : Option String)
    (hrow : w.db.sessions c.msg.sessionId = some r) (hc : c.Current r) :
    (∀ db', Applied (c.applySessionStatusDurable usageError w.db) db' → Settled c.msg.sessionId c.msg.attemptId r db') ↔
    usageError ≠ none ∨ (¬ c.AccountGone r w.db ∧ ¬ SlotLost c r w.db) := by
  have hread := hasRead_current hrow
  have hr := coherent hw _ r hread
  have hactive : r.status.isActive = true → r.terminalHookHandoff = none := no_handoff_of_active hw hread
  cases usageError with
  | some error =>
    refine iff_of_true (fun db' happ => ?_) (.inl (by simp))
    obtain ⟨answer, hans, ha⟩ := happ
    cases hans
    cases ha
  | none =>
    simp only [ne_eq, not_true_eq_false, false_or]
    constructor
    · intro hall
      refine ⟨fun hg => ?_, fun hl => ?_⟩
      · obtain ⟨r', hr', hs⟩ := hall _ (applied_of_accountGone hc hrow (hactive (by rw [hg.running]; rfl)) hg)
        rw [hrow] at hr'
        cases hr'
        exact hs.stopped ⟨hg.running, hc.attemptId⟩
      · obtain ⟨db', happ, hslots⟩ := applied_of_slotLost hw hr hc hrow hl
        obtain ⟨r', -, hs⟩ := hall db' happ
        obtain ⟨i, x, hi, hx, hcur⟩ := hl.slot
        exact hs.slot i hi x (by rw [hslots]; exact hx) hcur
    · rintro ⟨hgone, hlost⟩ db' happ
      simp only [applySessionStatusDurable, hrow] at happ
      split at happ
      · rename_i hreplay
        obtain ⟨answer, hans, -⟩ := happ
        cases hans
        simp only [replays, Bool.and_eq_true, any_eq_true] at hreplay
        obtain ⟨-, h, hh, -⟩ := hreplay
        exact settled_of_handoff hr (handoff_terminal hw _ r hread (by rw [hh]; simp)) hh hrow
      · split at happ
        · rename_i h hlate
          obtain hs | ⟨happ, hnone⟩ := settled_retainLate hr hrow hlate happ
          · exact hs
          · refine settled_report hr hc hrow hactive hgone (fun _ i x hi => ?_) happ
            rw [hnone] at hi
            cases hi
        · rename_i hlate
          refine settled_report hr hc hrow hactive hgone (fun hst i x hi hx hcur => ?_) happ
          by_contra hn
          exact hlost ⟨hst, hlate, ⟨i, x, hi, hx, hcur⟩, hn⟩

/-! ## Reports of a usage limit -/

def routedOps : List Op :=
  [.createPlain { sessionId := "s1", session := { status := .queued, repositoryId := "repo", queueExpiresAt := 9 } },
   .assignWorktree {
     sessionId := "s1", hostId := "h1", connectionId := "k1", now := 1, attemptId := "a1"
     resolvedRoute := {
       targetIndex := 0, providerId := some "provider", providerAccountId := some "acct", commandId := "cmd"
       hostId := "h1", worktreeId := some "w1", attemptId := "a1" }
     providerAccountId := some "acct", providerId := some "provider", repositoryId := "repo", worktreeId := "w1" }]

def deleteAccount : Op :=
  .catalog {
    providerAccounts := fun _ => none, repositories := smallDb.repositories
    workspacePools := smallDb.workspacePools, hostInventories := smallDb.hostInventories
    connections := smallDb.connections, users := smallDb.users, integrations := smallDb.integrations
    sessionDrains := smallDb.sessionDrains }

def usageLimitReport : StatusReport :=
  { msg := {
      sessionId := "s1", worktreeId := some "w1", attemptId := "a1", status := .failed
      errorCode := some "usage_limit" }
    fence := some ⟨"h1", "k1"⟩, handoffId := "handoff1", now := 2 }

def acknowledges (c : StatusReport) (w : World) (r : SessionRow) : Bool :=
  c.msg.status.isTerminal && attemptMatches r c.msg.worktreeId c.msg.attemptId &&
    (c.applySessionStatusDurable none w.db).1.toOption.any (·.applied)

theorem current_of_acknowledges (h : acknowledges c w r = true) :
    c.Current r ∧ Applied (c.applySessionStatusDurable none w.db) (c.applySessionStatusDurable none w.db).2 := by
  simp only [acknowledges, Bool.and_eq_true, any_eq_true] at h
  obtain ⟨⟨hterm, hatt⟩, answer, hans, ha⟩ := h
  refine ⟨⟨hterm, hatt⟩, answer, ?_, ha⟩
  cases hx : (c.applySessionStatusDurable none w.db).1 with
  | error e => rw [hx] at hans; cases hans
  | ok b =>
    rw [hx] at hans
    cases hans
    exact Prod.ext hx rfl

/-- While the account exists, the session is back in the queue and its worktree free. -/
theorem acknowledged_settled_requeued :
    ∃ w r, plane.Reachable w ∧ w.db.sessions "s1" = some r ∧ usageLimitReport.Current r ∧
      Applied (usageLimitReport.applySessionStatusDurable none w.db)
        (usageLimitReport.applySessionStatusDurable none w.db).2 ∧
      Settled "s1" "a1" r (usageLimitReport.applySessionStatusDurable none w.db).2 := by
  obtain ⟨w, r, hw, hr, hacct, hack, hrun, hroute⟩ := exists_row_of_run routedOps (s := "s1") (P := fun w r =>
    (w.db.providerAccounts "acct").isSome = true ∧ acknowledges usageLimitReport w r = true ∧
      r.status = .running ∧ given (r.resolvedRoute.bind (·.providerAccountId)) = some "acct") (by decide)
  obtain ⟨hc, happ⟩ := current_of_acknowledges hack
  refine ⟨w, r, hw, hr, hc, happ,
    (acknowledged_settled hw none hr hc).mpr (.inr ⟨fun hg => ?_, fun hl => ?_⟩) _ happ⟩
  · obtain ⟨id, hid, hnone⟩ := hg.account
    rw [hroute] at hid
    cases hid
    rw [hnone] at hacct
    cases hacct
  · rw [hl.cancelled] at hrun
    cases hrun

/-- Once the account is deleted the session keeps running; the slot of a cancelled workspace session stays busy. -/
theorem acknowledged_unsettled : (∃ w r, plane.Reachable w ∧ w.db.sessions "s1" = some r ∧ usageLimitReport.Current r ∧
      Applied (usageLimitReport.applySessionStatusDurable none w.db)
        (usageLimitReport.applySessionStatusDurable none w.db).2 ∧
      ¬ Settled "s1" "a1" r (usageLimitReport.applySessionStatusDurable none w.db).2) ∧
    ∃ w r, ∃ c : StatusReport, plane.Reachable w ∧ w.db.sessions "s1" = some r ∧ c.msg = lateReport ∧ c.Current r ∧
      Applied (c.applySessionStatusDurable none w.db) (c.applySessionStatusDurable none w.db).2 ∧
      ¬ Settled "s1" "a1" r (c.applySessionStatusDurable none w.db).2 := by
  constructor
  · obtain ⟨w, r, hw, hr, hack, hkept⟩ := exists_row_of_run (routedOps ++ [deleteAccount]) (s := "s1") (P := fun w r =>
      acknowledges usageLimitReport w r = true ∧
        ∀ y ∈ (usageLimitReport.applySessionStatusDurable none w.db).2.sessions "s1",
          y.status = .running ∧ y.attemptId = some "a1") (by decide)
    obtain ⟨hc, happ⟩ := current_of_acknowledges hack
    refine ⟨w, r, hw, hr, hc, happ, ?_⟩
    rintro ⟨y, hy, hs⟩
    exact hs.stopped (hkept y hy)
  · let c : StatusReport := { msg := lateReport, fence := some ⟨"h1", "k1"⟩, handoffId := "handoff1", now := 3 }
    obtain ⟨w, r, hw, hr, hack, hslot, hbusy⟩ := exists_row_of_run takeoverOps (s := "s1") (P := fun w r =>
      acknowledges c w r = true ∧ r.workspaceSlotId = .value "slot1" ∧
        ((c.applySessionStatusDurable none w.db).2.workspaceSlots "slot1").any (·.currentSessionId == .value "s1"))
      (by decide)
    simp only [any_eq_true, beq_iff_eq] at hbusy
    obtain ⟨x, hx, hcur⟩ := hbusy
    obtain ⟨hc, happ⟩ := current_of_acknowledges hack
    refine ⟨w, r, c, hw, hr, rfl, hc, happ, ?_⟩
    rintro ⟨y, -, hs⟩
    exact hs.slot "slot1" (by rw [hslot]; rfl) x hx hcur

end AutoHarness.Protocol

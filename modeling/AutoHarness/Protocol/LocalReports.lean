import AutoHarness.Protocol.LocalSteps

/-! Status reports without a store: what the planner decides, and what the handler does with it. -/

namespace AutoHarness.Protocol
open Foundation Store Plane List Option ControlPlaneState Bool GivesBack
open GivesBack (Owned)

/-! ## Plans -/

inductive LocalPlan (r : SessionRow) (event : StatusEvent) (plan : SessionTransitionPlan) : Prop where
  | ignored (h : ignores plan = true)
  | progress (matched : attemptMatches r event.worktreeId event.attemptId = true)
      (running : event.status.isTerminal = false) (unreleased : plan.contains .releaseLease = false)
      (unqueued : requeueEffect plan = none)
  | late (matched : attemptMatches r event.worktreeId event.attemptId = true) (terminal : event.status.isTerminal = true)
      (ended : r.status ≠ .running) (unqueued : requeueEffect plan = none)
  | requeued (terminal : event.status.isTerminal = true) (running : r.status = .running)
      (queued : (requeueEffect plan).isSome = true) (unfinished : finishEffect plan = none)
  | finished (matched : attemptMatches r event.worktreeId event.attemptId = true)
      (terminal : event.status.isTerminal = true) (running : r.status = .running)
      (unqueued : requeueEffect plan = none) (ends : (finishEffect plan).isSome = true)
      (fields : (finishFields plan).isSome = true)

theorem findSome?_releaseEffects {β : Type} (r : SessionRow) {f : SessionTransitionEffect → Option β}
    (h1 : f .releaseLease = none) (h2 : f .releaseWorkspace = none) (h3 : f .releaseWorktree = none) :
    (releaseEffects r).findSome? f = none := by
  unfold releaseEffects
  split
  · simp [h1]
  · split
    · simp [h2]
    · split
      · simp [h3]
      · rfl

section

variable (r : SessionRow) (l : SessionTransitionPlan)
include r l

theorem requeueEffect_release : requeueEffect (releaseEffects r ++ l) = requeueEffect l := by
  simp only [requeueEffect, findSome?_append]
  rw [findSome?_releaseEffects r rfl rfl rfl, none_or]

theorem finishEffect_release : finishEffect (releaseEffects r ++ l) = finishEffect l := by
  simp only [finishEffect, findSome?_append]
  rw [findSome?_releaseEffects r rfl rfl rfl, none_or]

theorem finishFields_release : finishFields (releaseEffects r ++ l) = finishFields l := by
  simp only [finishFields, findSome?_append]
  rw [findSome?_releaseEffects r rfl rfl rfl, none_or]

end

variable {ctx : SessionTransitionContext}

theorem requeueEffect_planUsageLimit {r : SessionRow} {event : StatusEvent}
    (hl : ctx.source = .local) : (requeueEffect (planUsageLimit r event ctx)).isSome = true := by
  have hmem : ∀ {plan : SessionTransitionPlan} {reason : RequeueReason} {fields : SessionReportFields},
      SessionTransitionEffect.requeue reason fields ∈ plan → (requeueEffect plan).isSome = true :=
    fun he => findSome?_isSome_iff.mpr ⟨_, he, rfl⟩
  unfold planUsageLimit
  dsimp only
  split
  · exact hmem (mem_append_right _ mem_cons_self)
  · simp only [hl, reduceCtorEq, decide_false, Bool.false_and, Bool.false_eq_true, if_false]
    exact hmem (mem_append_right _ mem_cons_self)
  · exact hmem (mem_append_right _ mem_cons_self)

theorem localPlan_planStatus (r : SessionRow) (event : StatusEvent)
    (hl : ctx.source = .local) : LocalPlan r event (planStatus r event ctx) := by
  unfold planStatus
  simp only [hl, reduceCtorEq, decide_false, Bool.false_and, Bool.false_eq_true, if_false]
  split
  · exact .ignored rfl
  · rename_i hmatch
    have hmatch : attemptMatches r event.worktreeId event.attemptId = true := by simpa using hmatch
    split
    · rename_i hterm
      refine .progress hmatch (by simpa using hterm) ?_ ?_
      all_goals split <;> rfl
    · rename_i hterm
      have hterm : event.status.isTerminal = true := by
        simpa only [Bool.not_eq_true', not_eq_false] using hterm
      split
      · rename_i hrun
        refine .late hmatch hterm hrun ?_
        unfold planLateTerminal
        simp only [hl, reduceCtorEq, decide_false, Bool.false_and, Bool.false_eq_true, if_false, nil_append]
        rw [requeueEffect_release]
        split <;> rfl
      · rename_i hrun
        have hrun : r.status = .running := by simpa using hrun
        split
        · refine .requeued hterm hrun (requeueEffect_planUsageLimit hl) ?_
          refine findSome?_eq_none_iff.mpr fun e he => ?_
          have hnone := finishes_planUsageLimit e he
          cases e with
          | finish _ _ _ _ => cases hnone
          | _ => rfl
        · split
          · unfold planInfrastructureFailure
            simp only [hrun, ne_eq, not_true_eq_false, if_false]
            split
            · refine .requeued hterm hrun ?_ ?_
              · rw [requeueEffect_release]
                rfl
              · rw [finishEffect_release]
                rfl
            · refine .finished hmatch hterm hrun ?_ ?_ ?_
              · rw [requeueEffect_release]
                rfl
              · rw [finishEffect_release]
                rfl
              · rw [finishFields_release]
                rfl
          · refine .finished hmatch hterm hrun ?_ ?_ ?_
            · rw [requeueEffect_release]
              rfl
            · rw [finishEffect_release]
              rfl
            · rw [finishFields_release]
              rfl

/-! ## The handler -/

variable {st st₁ : ControlPlaneState} {minted : Option String} {disposal : Option (String × String)} {s : String}
  {r r₁ : SessionRow} {now : Timestamp} {hand : TerminalHookHandoff} {owner : Option String}

namespace LocalInv

variable (h : LocalInv st) (hr : st.sessions s = some r)
include h hr

theorem applyInfrastructureRetry_step (hrun : r.status = .running) {attemptId : String} {fields : SessionReportFields} :
    LocalStep minted disposal st (st.applyInfrastructureRetry s attemptId r fields) := by
  have hh := (h.row s r hr).handoff_of_running hrun
  unfold applyInfrastructureRetry
  dsimp only
  split
  · rename_i st₁ hreleased
    have hg : GivesBack (Owned st s) st st₁ := by
      split at hreleased
      · cases (ite_none_right_eq_some.mp hreleased).2
        exact (refl (Owned st s) st).checkout
      · obtain ⟨i, hi, rfl⟩ := map_eq_some_iff.mp hreleased
        have hvalue := Attr.toOption_eq_some.mp (given_eq_some.mp hi).1
        exact (refl _ st).worktree (h.owner_of_holds hr (.inr hvalue))
    exact .emptied hr hg.account.forget rfl hh (by simp [queueReconnectSession]) rfl rfl hh (not_mem_forget s)
  · exact .still (.refl _ _)

theorem applyLateReport_step (hs : r.status ≠ .running) {plan : SessionTransitionPlan}
    (hd : plan.contains .releaseLease = true → r.mainCheckoutLease = true → r.terminalHookHandoff = none) :
    LocalStep minted disposal st (st.applyLateReport s r plan) := by
  have hg : ∀ freed : HookTarget → Prop, GivesBack freed st
      (if plan.contains .releaseLease || plan.contains .releaseWorktree then st.releaseProviderAccountLeaseLocal s r
        else st) := by
    intro freed
    split
    · exact (refl _ _).account
    · exact .refl _ _
  have hpend : ∀ {st₁ : ControlPlaneState} {freed : HookTarget → Prop}, GivesBack freed st st₁ →
      ∀ p, (s, p) ∉ st₁.pendingAcks.entries := fun hg p hp => h.not_pending hr hs p (hg.pending _ hp)
  unfold applyLateReport
  dsimp only
  -- the record without its capacity leases has the same assignment
  obtain ⟨r₁, hr₁⟩ : ∃ r₁, r₁ = if plan.contains .releaseLease || plan.contains .releaseWorktree then withoutLeases r
    else r := ⟨_, rfl⟩
  have hsame : r₁.type = r.type ∧ r₁.status = r.status ∧ r₁.worktreeId = r.worktreeId ∧
      r₁.mainCheckoutLease = r.mainCheckoutLease ∧ r₁.terminalHookHandoff = r.terminalHookHandoff ∧
      r₁.hostId = r.hostId ∧ r₁.repositoryId = r.repositoryId ∧ r₁.attemptId = r.attemptId := by
    rw [hr₁]
    split <;> exact ⟨rfl, rfl, rfl, rfl, rfl, rfl, rfl, rfl⟩
  rw [← hr₁]
  obtain ⟨htype, hstatus, hw, hm, hh, hhost, hrepo, ha⟩ := hsame
  split
  · rename_i hc
    rw [and_eq_true, hm] at hc
    have hnone := hd hc.1 hc.2
    have hg' := (hg (Owned st s)).checkout (r := r₁)
    exact .emptied hr hg' htype hnone (by rwa [← hstatus] at hs) rfl rfl (hh.trans hnone) (hpend hg')
  · split
    · rename_i hc
      rw [and_eq_true, hw] at hc
      obtain ⟨i, hi⟩ := isSome_iff_exists.mp hc.2
      obtain ⟨hmain, hnone⟩ := (h.row s r hr).worktree i (Attr.toOption_eq_some.mp (given_eq_some.mp hi).1)
      have hg' := (hg (Owned st s)).ownWorktree (r := r₁)
      exact .emptied hr hg' htype hnone (by rwa [← hstatus] at hs) rfl (hm.trans hmain) (hh.trans hnone) (hpend hg')
    · exact h.same hr (hg _) htype hstatus hw hm hh hhost hrepo ha

theorem holdsTarget_of_deferred (hrun : r.status = .running) {c : StatusReport} {t : HookTarget}
    (hm : deferredTerminalHookHandoffLocal c.handoffId c.now r c.msg owner = some hand) (ht : Reserves hand t) :
    HoldsTarget r t := by
  have hrow := h.row s r hr
  obtain ⟨host, hhost, rfl⟩ := map_eq_some_iff.mp hm
  right
  cases t with
  | worktree i => exact Attr.toOption_eq_some.mp ht
  | mainCheckout host' repo =>
    obtain ⟨hmain, rfl, rfl⟩ := ht
    obtain ⟨host', hvalue, hne⟩ := hrow.located hrun hmain
    have hsome := (given_eq_some.mp hhost).1
    simp only [hvalue, Attr.toOption, some_or, some.injEq] at hsome
    exact ⟨hmain, hrow.handoff_of_running hrun, by rw [hvalue, hsome], rfl⟩

end LocalInv

theorem LocalStep.outcome_none {c : StatusReport} (hr : st.sessions s = some r)
    (hh : r.terminalHookHandoff = none) (hterm : c.msg.status.isTerminal = true) {plan : SessionTransitionPlan}
    (hout : (requeueEffect plan).isSome = true ∨ (finishFields plan).isSome = true)
    (hg : GivesBack (Owned st s) st st₁) (htype : r₁.type = r.type)
    (hstatus : r₁.status = c.msg.status) (hm : r₁.mainCheckoutLease = false) (hh₁ : r₁.terminalHookHandoff = none)
    (hpend : ∀ p, (s, p) ∉ st₁.pendingAcks.entries) :
    LocalStep minted disposal st (st₁.setSession s (withOutcome plan none r₁)) := by
  unfold withOutcome
  split
  · exact .emptied hr hg htype hh (by simp) rfl hm hh₁ hpend
  · refine .emptied hr hg htype hh ?_ rfl hm hh₁ hpend
    intro he
    rw [← hstatus] at hterm
    rw [he] at hterm
    cases hterm
  · rename_i hq hf
    rw [hq, hf] at hout
    simp at hout

namespace LocalInv

variable {c : StatusReport} {plan : SessionTransitionPlan}

section

variable (h : LocalInv st) (hr : st.sessions c.msg.sessionId = some r) (hrun : r.status = .running)
include h hr hrun

theorem endReported_none (hterm : c.msg.status.isTerminal = true)
    (hout : (requeueEffect plan).isSome = true ∨ (finishFields plan).isSome = true)
    (hg : GivesBack (Owned st c.msg.sessionId) st st₁) :
    LocalStep minted disposal st (st₁.endReported c r plan none) := by
  have hh := (h.row _ _ hr).handoff_of_running hrun
  have hg₁ : GivesBack (Owned st c.msg.sessionId) (st₁.forget c.msg.sessionId)
      ((st₁.forget c.msg.sessionId).releaseProviderAccountLeaseLocal c.msg.sessionId r) := (refl _ _).account
  unfold endReported
  split
  · exact .outcome_none hr hh hterm hout (hg.forget.trans hg₁) rfl rfl rfl hh
      fun p hp => not_mem_forget _ p (hg₁.pending _ hp)
  · rename_i hm
    have hg₂ := h.givesBack_released hr hg₁ fun i =>
      (plan.contains .releaseWorktree && (none : Option TerminalHookHandoff).bind (·.worktreeId) ≠ some i) = true
    exact .outcome_none hr hh hterm hout (hg.forget.trans hg₂) rfl rfl
      (show r.mainCheckoutLease = false by simpa using hm) hh
      fun p hp => not_mem_forget _ p (hg₂.pending _ hp)

theorem endReported_some (hterm : c.msg.status.isTerminal = true)
    (hmatch : attemptMatches r c.msg.worktreeId c.msg.attemptId = true) (hq : requeueEffect plan = none)
    (hf : (finishFields plan).isSome = true)
    (hm : deferredTerminalHookHandoffLocal c.handoffId c.now r c.msg owner = some hand) :
    LocalStep (some c.handoffId) disposal st (st.endReported c r plan (some hand)) := by
  obtain ⟨x, hx⟩ := isSome_iff_exists.mp hf
  have hattempt : r.attemptId = some c.msg.attemptId := by
    simp only [attemptMatches, and_eq_true, beq_iff_eq] at hmatch
    exact hmatch.2
  have hhand : hand.handoffId = c.handoffId ∧ hand.mainCheckoutLease = r.mainCheckoutLease ∧
      hand.attemptId = some c.msg.attemptId ∧ hand.worktreeId = r.worktreeId.toOption := by
    obtain ⟨host, -, rfl⟩ := map_eq_some_iff.mp hm
    exact ⟨rfl, rfl, rfl, rfl⟩
  obtain ⟨hid, hmain, hatt, hwt⟩ := hhand
  have hg : GivesBack (fun _ => False) (st.forget c.msg.sessionId)
      ((st.forget c.msg.sessionId).releaseProviderAccountLeaseLocal c.msg.sessionId r) := (refl _ _).account
  have hretired : ∀ {r' : SessionRow}, r'.type = r.type → r'.mainCheckoutLease = r.mainCheckoutLease →
      r'.terminalHookHandoff = some hand → r'.status = c.msg.status → r'.worktreeId.toOption = none →
      r'.attemptId = r.attemptId → LocalStep (some c.handoffId) disposal st
        (((st.forget c.msg.sessionId).releaseProviderAccountLeaseLocal c.msg.sessionId r).setSession
          c.msg.sessionId r') := by
    intro r' htype hm' hh' hs' hw' ha'
    exact h.retired hr ((refl _ st).forget.trans hg) htype (.inl hm') hrun hh' hmain
      (fun t => h.holdsTarget_of_deferred hr hrun hm) (by rw [hs', hterm]) hw'
      (fun _ => hatt.trans (hattempt.symm.trans ha'.symm)) (by rw [hid])
      fun p hp => not_mem_forget _ p (hg.pending _ hp)
  unfold endReported withOutcome
  simp only [hq, hx]
  split
  · rename_i hleased
    simp only [any_some, hmain, hleased, if_true]
    exact hretired rfl rfl rfl rfl rfl rfl
  · split
    · -- the worktree is the one the handoff reserves
      rename_i i hi
      have hkeep : (some hand).bind (·.worktreeId) = some i := hwt.trans (given_eq_some.mp hi).1
      rw [if_neg (by simp [hkeep])]
      exact hretired rfl rfl rfl rfl rfl rfl
    · exact hretired rfl rfl rfl rfl rfl rfl

theorem applyRunningReport_step (hq : c.msg.status ≠ .queued)
    (hp : LocalPlan r c.msg.toStatusEvent plan) (hi : ignores plan = false) :
    LocalStep (some c.handoffId) disposal st (st.applyRunningReport c owner r plan) := by
  have hreleased : GivesBack (Owned st c.msg.sessionId) st
      (if plan.contains .releaseLease && !(none : Option TerminalHookHandoff).any (·.mainCheckoutLease) then
        st.releaseScheduledLeaseLocal c.msg.sessionId r else st) := by
    split
    · exact (refl (Owned st c.msg.sessionId) st).checkout
    · exact .refl _ _
  unfold applyRunningReport
  dsimp only
  split
  · exact .still (.refl _ _)
  · rename_i hlease
    cases hp with
    | ignored he =>
      rw [hi] at he
      cases he
    | late _ _ he _ => exact absurd hrun he
    | progress matched running unreleased unqueued =>
      have hstatus : c.msg.status = .running := by
        cases hs : c.msg.status <;> simp_all [SessionStatus.isTerminal]
      simp only [unreleased, running, Bool.false_and, Bool.false_eq_true, if_false]
      exact h.same hr (.refl _ _) rfl (hstatus.trans hrun.symm) rfl rfl rfl rfl rfl rfl
    | requeued terminal running queued unfinished =>
      simp only [unfinished, isSome_none, Bool.false_and, Bool.false_eq_true, if_false, terminal, if_true]
      exact h.endReported_none hr hrun terminal (.inl queued) hreleased
    | finished matched terminal running unqueued ends fields =>
      simp only [ends, Bool.true_and, terminal, if_true]
      cases hhand : (if c.msg.deferTerminalHookResult then
        deferredTerminalHookHandoffLocal c.handoffId c.now r c.msg owner else none) with
      | none => exact h.endReported_none hr hrun terminal (.inr fields) hreleased
      | some hand =>
        have hm := (ite_none_right_eq_some.mp hhand).2
        have hkept : (if plan.contains .releaseLease && !(some hand).any (·.mainCheckoutLease) then
            st.releaseScheduledLeaseLocal c.msg.sessionId r else st) = st := by
          obtain ⟨host, -, rfl⟩ := map_eq_some_iff.mp hm
          cases hmain : r.mainCheckoutLease with
          | true => simp
          | false => simp [releaseScheduledLeaseLocal, holdsScheduledLeaseLocal, hmain]
        rw [hkept]
        exact h.endReported_some hr hrun terminal matched unqueued fields hm

end

theorem stored_step (h : LocalInv st) (hr : st.sessions s = some r) (hs : r.status.isTerminal = true)
    (hnone : r.terminalHookHandoff = none) (hw : r.worktreeId.toOption = none) (hm : r.mainCheckoutLease = false)
    (hg : GivesBack (fun _ => False) st st₁) {r' : SessionRow}
    (htype : r'.type = r.type) (hstatus : r'.status = r.status) (hw' : r'.worktreeId = r.worktreeId)
    (hm' : r'.mainCheckoutLease = r.mainCheckoutLease) (hh' : r'.terminalHookHandoff = some hand)
    (hfree : hand.worktreeId = r.worktreeId.toOption ∧ hand.mainCheckoutLease = r.mainCheckoutLease)
    (ha : hand.attemptId = r'.attemptId) (hid : minted = some hand.handoffId) :
    LocalStep minted disposal st (st₁.setSession s r') := by
  have hempty : ∀ t, ¬ HoldsTarget r' t := by
    rintro t (⟨h', hh, hres⟩ | hdirect)
    · cases hh'.symm.trans hh
      cases t with
      | worktree i =>
        have hi : hand.worktreeId = some i := hres
        rw [hfree.1, hw] at hi
        cases hi
      | mainCheckout host repo =>
        have hmain := hres.1
        rw [hfree.2, hm] at hmain
        cases hmain
    · cases t with
      | worktree i =>
        have hi : r'.worktreeId = .value i := hdirect
        rw [← hw', hi] at hw
        cases hw
      | mainCheckout host repo =>
        rw [hh'] at hdirect
        cases hdirect.2.1
  have hmain : r'.mainCheckoutLease = false := hm'.trans hm
  have hrun : r.status ≠ .running := fun he => by rw [he] at hs; cases hs
  have ht : Turns minted disposal s r r' (fun _ => False) st st₁ :=
    { before := hr
      type := htype
      gives := hg
      own := fun _ hf => hf.elim
      holds := fun t ht => absurd ht (hempty t)
      row := .of_ended (fun _ => hmain) (by rwa [hstatus]) (by rwa [hw']) (fun he => absurd (hmain.symm.trans he) (by simp))
        fun _ h' hh => by cases hh'.symm.trans hh; exact ha
      pending := .inr fun p hp => h.not_pending hr hrun p (hg.pending _ hp)
      keeps := fun _ _ hh => by cases hnone.symm.trans hh
      mints := fun h' hh => by cases hh'.symm.trans hh; exact .inr hid }
  exact .turn ht rfl

end LocalInv

/-- It stores a handoff of a cancelled session and releases what that held, or releases the main checkout of one that
ended with a handoff. -/
def dropsReservation (c : StatusReport) (r : SessionRow) : Bool :=
  !ControlPlaneState.replaysHandoff c r &&
    ((ControlPlaneState.lateDeferral c r && r.status == .cancelled &&
        (r.mainCheckoutLease || (given r.worktreeId.toOption).isSome)) ||
      (r.status != .running && c.msg.status.isTerminal && r.mainCheckoutLease && r.terminalHookHandoff.isSome))

namespace LocalInv

variable {c : StatusReport} {account : Option ℕ}

theorem applyPlannedReport_step (h : LocalInv st) (hr : st.sessions c.msg.sessionId = some r)
    (hq : c.msg.status ≠ .queued)
    (hd : r.status ≠ .running → c.msg.status.isTerminal = true → r.mainCheckoutLease = true →
      r.terminalHookHandoff = none) :
    LocalStep (some c.handoffId) disposal st (st.applyPlannedReport c owner account r) := by
  unfold applyPlannedReport
  dsimp only
  split
  · exact h.same hr (refl _ _).account rfl rfl rfl rfl rfl rfl rfl rfl
  · have hp : LocalPlan r c.msg.toStatusEvent (planSessionTransition (some r) (.status c.msg.toStatusEvent)
        { now := c.now, source := .local, providerAccount := account
          deferTerminalHookResult := c.msg.deferTerminalHookResult }) := localPlan_planStatus _ _ rfl
    generalize planSessionTransition (some r) _ _ = plan at hp ⊢
    split
    · exact .still (.refl _ _)
    · rename_i hi
      have hi : ignores plan = false := by simpa using hi
      split
      · rename_i fields hqueued
        have hrun : r.status = .running := by
          cases hp with
          | ignored he =>
            rw [hi] at he
            cases he
          | requeued _ running _ _ => exact running
          | _ => simp_all
        exact h.applyInfrastructureRetry_step hr hrun
      · split
        · rename_i hrun
          refine h.applyLateReport_step hr hrun fun hlease hmain => ?_
          cases hp with
          | progress _ _ unreleased _ =>
            rw [unreleased] at hlease
            cases hlease
          | late _ terminal _ _ => exact hd hrun terminal hmain
          | ignored he =>
            rw [hi] at he
            cases he
          | requeued _ running _ _ | finished _ _ running _ _ _ => exact absurd running hrun
        · rename_i hrun
          exact h.applyRunningReport_step hr (by simpa using hrun) hq hp hi

theorem applyLateDeferral_step (h : LocalInv st) (hr : st.sessions c.msg.sessionId = some r)
    (hlate : lateDeferral c r = true) (hreplay : replaysHandoff c r = false)
    (hd : r.status = .cancelled → r.mainCheckoutLease = false ∧ given r.worktreeId.toOption = none)

    (hm : deferredTerminalHookHandoffLocal c.handoffId c.now r c.msg owner = some hand) :
    LocalStep (some c.handoffId) disposal st (st.applyLateDeferral c.msg.sessionId r hand) := by
  have hrow := h.row _ _ hr
  simp only [lateDeferral, and_eq_true, or_eq_true, beq_iff_eq] at hlate
  obtain ⟨⟨⟨hdefer, hstatus⟩, -⟩, hattempt⟩ := hlate
  -- a stored handoff of this attempt would have answered the report
  have hnone : r.terminalHookHandoff = none := by
    cases hh : r.terminalHookHandoff with
    | none => rfl
    | some hand' =>
      have hsame := (hrow.attempt hstatus hand' hh).trans hattempt
      simp [replaysHandoff, hdefer, hh, hsame] at hreplay
  have hheld : r.worktreeId.toOption = none ∧ r.mainCheckoutLease = false := by
    obtain hcancelled | htimed := hstatus
    · obtain ⟨hmain, hgiven⟩ := hd hcancelled
      refine ⟨?_, hmain⟩
      cases hw : r.worktreeId.toOption with
      | none => rfl
      | some i =>
        have hne := h.worktreeId_ne_empty hr (Attr.toOption_eq_some.mp hw)
        rw [given_eq_some.mpr ⟨hw, hne⟩] at hgiven
        cases hgiven
    · obtain ⟨hw, hmain⟩ := hrow.ended (by rw [htimed]; rfl) (by rw [htimed]; simp)
      refine ⟨hw, ?_⟩
      by_contra hne
      exact hmain (by simpa using hne) hnone
  have hterm : r.status.isTerminal = true := by
    obtain hs | hs := hstatus <;> rw [hs] <;> rfl
  have hhand : hand.handoffId = c.handoffId ∧ hand.attemptId = r.attemptId ∧
      (hand.worktreeId = r.worktreeId.toOption ∧ hand.mainCheckoutLease = r.mainCheckoutLease) := by
    obtain ⟨host, -, rfl⟩ := map_eq_some_iff.mp hm
    exact ⟨rfl, hattempt.symm, rfl, rfl⟩
  obtain ⟨hid, hatt, hfree⟩ := hhand
  unfold applyLateDeferral
  split
  · exact h.stored_step hr hterm hnone hheld.1 hheld.2 (refl _ _).account rfl rfl rfl rfl rfl hfree hatt
      (by rw [hid])
  · have hgiven : given r.worktreeId.toOption = none := by rw [hheld.1]; rfl
    simp only [releaseLocalLateTerminalAssignment, hheld.2, hgiven, Bool.false_eq_true, if_false, isSome_none]
    exact h.stored_step hr hterm hnone hheld.1 hheld.2 (.refl _ _) rfl rfl rfl hheld.2.symm rfl hfree hatt
      (by rw [hid])

theorem applyStatus_step (h : LocalInv st) (hq : c.msg.status ≠ .queued) {source : Option String}
    (hspare : (st.sessions c.msg.sessionId).all (fun r => !dropsReservation c r) = true) :
    LocalStep (some c.handoffId) disposal st (st.applySessionStatus c source account) := by
  unfold applySessionStatus
  split
  · rename_i r hr
    rw [hr, all_some] at hspare
    dsimp only
    split
    · exact .still (.refl _ _)
    · rename_i hreplay
      have hreplay : replaysHandoff c r = false := by simpa using hreplay
      simp only [dropsReservation, hreplay, Bool.not_false, Bool.true_and, Bool.not_eq_true', Bool.or_eq_false_iff] at hspare
      have hd : r.status ≠ .running → c.msg.status.isTerminal = true → r.mainCheckoutLease = true →
          r.terminalHookHandoff = none := by
        intro hrun hterm hmain
        simpa [hrun, hterm, hmain] using hspare.2
      split
      · rename_i hlate
        split
        · exact .still (.refl _ _)
        · split
          · rename_i hand hhand
            simp only [lateHandoff, ite_none_right_eq_some] at hhand
            refine h.applyLateDeferral_step hr hlate hreplay (fun hcancelled => ?_) hhand.2
            simpa [hlate, hcancelled] using hspare.1
          · exact h.applyPlannedReport_step hr hq hd
      · exact h.applyPlannedReport_step hr hq hd
  · exact .still (.refl _ _)

end LocalInv

end AutoHarness.Protocol

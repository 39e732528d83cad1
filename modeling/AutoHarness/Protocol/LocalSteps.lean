import AutoHarness.Protocol.LocalTurns

/-! The turns without a store, other than status reports: what each does to its session and to the targets that name
it. -/

namespace AutoHarness.Protocol
open Foundation Store Plane Function Option ControlPlaneState Occupancy
open Bool (and_eq_true)
open GivesBack (Owned refl)

variable {st st' : ControlPlaneState} {minted : Option String} {disposal : Option (String × String)} {s handoffId : String}
  {r : SessionRow} {now : Timestamp} {t : HookTarget}

namespace LocalStep

/-! A turn that finds no session, or whose guard fails, changes nothing. -/

theorem found {o : Option SessionRow} {f : SessionRow → ControlPlaneState} :
    (∀ r, o = some r → LocalStep minted disposal st (f r)) →
      LocalStep minted disposal st (match o with | some r => f r | none => st) := by
  intro hf
  cases o with
  | some r => exact hf r rfl
  | none => exact .still (.refl _ _)

theorem guarded {c : Prop} {_ : Decidable c} {st' : ControlPlaneState} (hf : c → LocalStep minted disposal st st') :
    LocalStep minted disposal st (if c then st' else st) := by
  split
  · exact hf (by assumption)
  · exact .still (.refl _ _)

end LocalStep

namespace LocalInv

/-! ## Assignments -/

variable {i a : String} {x : WorktreeRow} {w : Option String}

theorem owner_of_idle (h : LocalInv st) (hx : st.worktrees i = some x)
    (hidle : x.status = .idle) : (cacheOccupancy st).owner (.worktree i) = none := by
  simp only [owner, cacheOccupancy, hx, bind_some]
  by_contra hne
  have hbusy := h.marked.1 i x hx hne
  rw [hidle] at hbusy
  cases hbusy

theorem owner_claimWorktree (hx : st.worktrees i = some x) (s : String) (now : Timestamp) (t : HookTarget) :
    (cacheOccupancy (st.claimWorktree i s now)).owner t =
      if t = .worktree i then some s else (cacheOccupancy st).owner t := by
  cases t with
  | worktree j =>
    by_cases hj : j = i
    · subst hj
      simp [owner, cacheOccupancy, claimWorktree, hx, Attr.toOption]
    · simp [owner, cacheOccupancy, claimWorktree, hj]
  | mainCheckout host repo => simp [owner, cacheOccupancy, claimWorktree]

theorem marked_claimWorktree (hx : st.worktrees i = some x) (h : Marked st) : Marked (st.claimWorktree i s now) := by
  refine ⟨fun j y hy hne => ?_, ?_⟩
  · by_cases hj : j = i
    · subst hj
      simp only [claimWorktree, hx, map_some, update_self, some.injEq] at hy
      rw [← hy]
    · exact h.1 j y (by simpa [claimWorktree, hj] using hy) hne
  · have hi : "" ≠ i := by
      rintro rfl
      rw [h.2] at hx
      cases hx
    simp [claimWorktree, hi, h.2]

theorem marked_of_worktrees {st' : ControlPlaneState} (he : st'.worktrees = st.worktrees) (h : Marked st) :
    Marked st' := by
  unfold Marked
  rw [he]
  exact h

theorem takeAccount_keeps (st : ControlPlaneState) (o : AssignmentOpts) (host : String) :
    (st.takeProviderAccountLease o host).sessions = st.sessions ∧
      (st.takeProviderAccountLease o host).pendingAcks = st.pendingAcks ∧
      cacheOccupancy (st.takeProviderAccountLease o host) = cacheOccupancy st := by
  unfold takeProviderAccountLease
  split <;> exact ⟨rfl, rfl, rfl⟩

theorem pending_awaitAck {p : PendingAck} {st₁ : ControlPlaneState} (h : st₁.pendingAcks = st.pendingAcks) :
    ∀ e ∈ (st₁.awaitAck s p).pendingAcks.entries, e.1 = s ∨ e ∈ st.pendingAcks.entries := by
  intro e he
  rw [← h]
  exact (OrderedMap.mem_set he).imp (fun hk => by rw [hk]) And.left

section

variable (h : LocalInv st)
include h

theorem assignQueued_step (o : AssignSessionOpts) : LocalStep minted disposal st (st.assignQueued o) := by
  unfold assignQueued
  split
  · rename_i r x hr hx
    refine .guarded fun hc => ?_
    simp only [and_eq_true, beq_iff_eq] at hc
    obtain ⟨⟨⟨hp, hq⟩, hidle⟩, -⟩ := hc
    have hrow := h.row _ _ hr
    have hm := (hrow.queued hq).2
    have hh : r.terminalHookHandoff = none := hrow.active (by rw [hq]; rfl)
    obtain ⟨hsess, hpend, hocc⟩ := takeAccount_keeps
      (st.claimWorktree o.worktreeId o.sessionId o.now) o.toAssignmentOpts x.hostId
    have howner := owner_claimWorktree hx o.sessionId o.now
    rw [← hocc] at howner
    refine .take (s := o.sessionId) (r := r) (t := .worktree o.worktreeId) {
      before := hr
      after := congrArg (update · o.sessionId _) hsess
      type := rfl
      prompt := fun _ _ => hp
      free := h.owner_of_idle hx hidle
      taken := (howner _).trans (if_pos rfl)
      others := fun t ht => (howner t).trans (if_neg ht)
      marked := fun hmark => marked_of_worktrees (congrArg Occupancy.worktrees hocc) (marked_claimWorktree hx hmark)
      pending := pending_awaitAck hpend
      running := rfl
      row := .of_running (fun _ => hm) rfl hh (fun h' => absurd (hm.symm.trans h') (by simp)) fun _ _ => hm
      holds := ?_
      empty := hh }
    rintro t (⟨h', hh', -⟩ | hdirect)
    · cases hh.symm.trans hh'
    · cases t with
      | worktree j =>
        cases hdirect
        rfl
      | mainCheckout host repo => cases hm.symm.trans hdirect.1
  · exact .still (.refl _ _)

theorem assignScheduledQueued_step (o : AssignMainCheckoutOpts) (hhost : o.hostId ≠ "") :
    LocalStep minted disposal st (st.assignScheduledQueued o) := by
  refine .found fun r hr => .guarded fun hc => ?_
  simp only [and_eq_true, beq_iff_eq, isNone_iff_eq_none] at hc
  obtain ⟨⟨hsched, hq⟩, hfree⟩ := hc
  have hrow := h.row _ _ hr
  have hh : r.terminalHookHandoff = none := hrow.active (by rw [hq]; rfl)
  obtain ⟨hsess, hpend, hocc⟩ := takeAccount_keeps st o.toAssignmentOpts o.hostId
  refine .take (s := o.sessionId) (r := r) (t := .mainCheckout o.hostId r.repositoryId) {
    before := hr
    after := congrArg (update · o.sessionId _) hsess
    type := rfl
    prompt := nofun
    free := ?_
    taken := ?_
    others := fun t ht => ?_
    marked := marked_of_worktrees (congrArg Occupancy.worktrees hocc)
    pending := pending_awaitAck hpend
    running := rfl
    row := .of_running (fun hp => by cases hsched.symm.trans hp) rfl hh (fun _ => ⟨o.hostId, rfl, hhost⟩) (nofun)
    holds := ?_
    empty := hh }
  · simp [owner, cacheOccupancy, hfree]
  · simp [owner, cacheOccupancy, awaitAck]
  · have hwt := congrArg Occupancy.worktrees hocc
    cases t with
    | worktree i => exact congrArg (fun f : String → Option WorktreeRow => (f i).bind (·.currentSessionId.toOption)) hwt
    | mainCheckout host repo =>
      have hne : (host, repo) ≠ (o.hostId, r.repositoryId) := by
        rintro ⟨⟩
        exact ht rfl
      simp [owner, cacheOccupancy, awaitAck, hne]
  · rintro t (⟨h', hh', -⟩ | hdirect)
    · cases hh.symm.trans hh'
    · cases t with
      | worktree j => cases hdirect
      | mainCheckout host repo =>
        obtain ⟨-, -, hhost', hrepo⟩ := hdirect
        cases hhost'
        cases hrepo
        rfl

theorem expireQueuedLocal_step : LocalStep minted disposal st (st.expireQueuedLocal s now) := by
  refine .found fun r hr => .guarded fun hq => ?_
  have hrow := h.row s r hr
  have hstatus := beq_iff_eq.mp hq
  obtain ⟨hw, hm⟩ := hrow.queued hstatus
  have hh : r.terminalHookHandoff = none := hrow.active (by rw [hstatus]; rfl)
  exact .emptied hr (.refl _ _) rfl hh (by simp) hw hm hh (h.not_pending hr (by rw [hstatus]; simp))

/-! ## Messages of the host -/

theorem acknowledge_step : LocalStep minted disposal st (st.acknowledge s w a now) := by
  refine .found fun r hr => .guarded fun _ => ?_
  exact h.same hr (refl _ _).forget rfl rfl rfl rfl rfl rfl rfl rfl

theorem startCommand_step : LocalStep minted disposal st (st.startCommand s w a now) := by
  refine .found fun r hr => .guarded fun _ => ?_
  exact h.same hr (.refl _ _) rfl rfl rfl rfl rfl rfl rfl rfl

end

variable {host reason : String} {k : Option String} {deadlineAt : Timestamp}

theorem confirmReportedSession_step (h : LocalInv st) :
    LocalStep minted disposal st (st.confirmReportedSession s host k) := by
  refine .found fun r hr => ?_
  split
  · rename_i i hi
    split
    · rename_i x hx
      refine .guarded fun _ => ?_
      have hg : GivesBack (fun _ => False) st _ := (refl _ st).worktree_update (i := i)
        (f := fun x => { x with online := true, connectionId := (given k).or x.connectionId })
        fun _ => ⟨rfl, rfl⟩
      rw [hx] at hg
      exact h.same hr hg rfl rfl rfl rfl rfl rfl rfl rfl
    · exact .still (.refl _ _)
  · exact .still (.refl _ _)

theorem confirmScheduledReconnect_step (h : LocalInv st) {k : String} :
    LocalStep minted disposal st (st.confirmScheduledReconnect s host k) := by
  refine .found fun r hr => .guarded fun _ => ?_
  refine h.same hr ((refl _ st).lease_update (.inr ?_)) rfl rfl rfl rfl rfl rfl rfl rfl
  rw [Option.map_map]
  refine congrArg (fun f => Option.map f _) (funext fun l => ?_)
  simp only [comp_apply]
  split <;> rfl

theorem linkWorktree_step {online : Bool} : LocalStep minted disposal st (st.linkWorktree i online k) :=
  .still ((refl _ st).worktree_update fun _ => ⟨rfl, rfl⟩)

/-! ## Cancellation and timeout -/

theorem planCancel_eq_some {hold : Bool} (h : (planCancel r).findSome?
    (fun | SessionTransitionEffect.cancel hold => some hold | _ => none) = some hold) :
    r.status.isActive = true ∧ (hold = false → r.status = .running → given r.hostId.toOption = none) := by
  unfold planCancel at h
  split at h
  · cases h
  · rename_i hact
    have hactive := SessionStatus.isTerminal_eq_false.mp (by simpa using hact)
    split at h
    · cases h
      exact ⟨hactive, nofun⟩
    · rename_i hc
      refine ⟨hactive, fun _ hrun => ?_⟩
      simpa [hrun] using hc

variable (h : LocalInv st)
include h

theorem givesBack_released (hr : st.sessions s = some r) {st₀ st₁ : ControlPlaneState}
    (hg : GivesBack (Owned st s) st₀ st₁) (p : String → Prop) [DecidablePred p] :
    GivesBack (Owned st s) st₀ (match given r.worktreeId.toOption with
      | some i => if p i then st₁.releaseWorktree i else st₁
      | none => st₁) := by
  split
  · rename_i i hi
    split
    · exact hg.worktree (h.owner_of_holds hr (.inr (Attr.toOption_eq_some.mp (given_eq_some.mp hi).1)))
    · exact hg
  · exact hg

theorem cancelSession_step : LocalStep minted disposal st (st.cancelSession s now) := by
  refine .found fun r hr => ?_
  dsimp only
  split
  · exact .still (.refl _ _)
  · rename_i hold hplan
    obtain ⟨hactive, hunheld⟩ := planCancel_eq_some hplan
    have hrow := h.row s r hr
    have hh := hrow.active hactive
    split
    · exact h.kept hr (refl _ _).forget rfl (fun t ht => ht.of_same rfl rfl rfl rfl rfl) rfl
        (.of_cancelled hrow.prompt rfl hh fun i hi => (hrow.worktree i hi).1) (.inr (not_mem_forget s))
    · rename_i hc
      have hm : r.mainCheckoutLease = false := by
        by_contra hne
        obtain ⟨hrun, host, -, hgiven⟩ := hrow.host_of_active hactive (by simpa using hne)
        have hheld : hold = true := by
          by_contra hnot
          rw [hunheld (by simpa using hnot) hrun] at hgiven
          cases hgiven
        exact hc (by rw [hheld, hgiven]; rfl)
      have hg := h.givesBack_released hr (refl _ (st.forget s)) fun _ =>
        (planSessionTransition (some r) .cancel { now, source := .local }).contains .releaseWorktree = true
      exact .emptied hr ((refl _ _).forget.trans hg.account) rfl hh (by simp [withoutLeases]) rfl hm hh
        fun p hp => not_mem_forget s p (hg.account.pending _ hp)

theorem timeOutAcknowledged_step : LocalStep minted disposal st (st.timeOutAcknowledgedSession s now) := by
  refine .found fun r hr => .guarded fun hc => ?_
  simp only [and_eq_true, beq_iff_eq] at hc
  have hh := (h.row s r hr).handoff_of_running hc.1
  have hg : GivesBack (Owned st s) (st.forget s)
      (if r.mainCheckoutLease then (st.forget s).releaseScheduledLeaseLocal s r
        else (st.forget s).releaseOwnWorktree s r) := by
    split
    · exact (refl (Owned (st.forget s) s) _).checkout
    · exact (refl (Owned (st.forget s) s) _).ownWorktree
  refine .emptied hr ((refl _ _).forget.trans hg) ?_ hh (by simp) rfl ?_ ?_
    fun p hp => not_mem_forget s p (hg.pending _ hp)
  · dsimp only
    split <;> rfl
  · dsimp only
    split
    · rfl
    · rename_i hm
      simpa using hm
  · dsimp only
    split <;> exact hh

/-! ## Host loss -/

theorem offlineWorktree_step : LocalStep minted disposal st (st.offlineWorktree i reason deadlineAt) := by
  have hoff : ∀ (freed : HookTarget → Prop) (st₁ : ControlPlaneState), GivesBack freed st st₁ → GivesBack freed st
      { st₁ with worktrees := update st₁.worktrees i ((st₁.worktrees i).map ({ · with online := false })) } :=
    fun freed st₁ hg => hg.worktree_update fun _ => ⟨rfl, rfl⟩
  unfold offlineWorktree
  split
  · rename_i x hx
    split
    · rename_i s hs
      have hcurrent : x.currentSessionId = .value s := by
        split at hs
        · exact Attr.toOption_eq_some.mp (given_eq_some.mp hs).1
        · cases hs
      split
      · rename_i r hr
        split
        · exact .still (hoff _ _ (.refl _ _))
        · rename_i hrun
          have hh := (h.row s r hr).handoff_of_running (by simpa using hrun)
          split
          · rename_i hunacked
            have howner : (cacheOccupancy st).owner (.worktree i) = some s := by
              simp [owner, cacheOccupancy, hx, hcurrent, Attr.toOption]
            obtain ⟨r₁, hr₁, hp⟩ := h.prompt i s howner
            cases hr.symm.trans hr₁
            exact .emptied hr (hoff _ _ ((refl _ _).worktree howner)).account.forget rfl hh
              (by simp) rfl ((h.row s r hr).prompt hp) hh (not_mem_forget s)
          · exact h.same hr (hoff _ _ (.refl _ _)) rfl rfl rfl rfl rfl rfl rfl rfl
      · exact .still (hoff _ _ (.refl _ _))
    · exact .still (hoff _ _ (.refl _ _))
  · exact .still (.refl _ _)

theorem offlineScheduled_step : LocalStep minted disposal st (st.offlineScheduled s host reason deadlineAt) := by
  refine .found fun r hr => ?_
  split
  · exact .still (.refl _ _)
  · rename_i hc
    simp only [Bool.or_eq_true, decide_eq_true_eq, not_or, Decidable.not_not] at hc
    have hh := (h.row s r hr).handoff_of_running hc.2
    split
    · exact .emptied hr (refl (Owned st s) _).checkout.account.forget rfl hh
        (by simp [queueReconnectSession]) rfl rfl hh (not_mem_forget s)
    · exact h.same hr (.refl _ _) rfl rfl rfl rfl rfl rfl rfl rfl

end LocalInv

theorem holdsTarget_of_hostLost {hand : TerminalHookHandoff}
    (hm : hostLostTerminalHookHandoff handoffId now r = some hand) (hh : r.terminalHookHandoff = none)
    (ht : Reserves hand t) : HoldsTarget r t := by
  obtain ⟨host, hhost, rfl⟩ := map_eq_some_iff.mp hm
  right
  cases t with
  | worktree i => exact Attr.toOption_eq_some.mp ht
  | mainCheckout host' repo =>
    obtain ⟨hmain, rfl, rfl⟩ := ht
    exact ⟨hmain, hh, Attr.toOption_eq_some.mp (given_eq_some.mp hhost).1, rfl⟩

theorem LocalStep.lost_none (hr : st.sessions s = some r)
    (hg : GivesBack (Owned st s) st st') (hh : r.terminalHookHandoff = none) (reason : String)
    (now : Timestamp) (hpend : ∀ p, (s, p) ∉ st'.pendingAcks.entries) :
    LocalStep minted disposal st (st'.setSession s (hostLossOutcome r reason now none)) := by
  unfold hostLossOutcome
  split
  · exact .emptied hr hg rfl hh (by simp [queueHostLossRetry, queueReconnectSession]) rfl rfl hh hpend
  · split
    · exact .emptied hr hg rfl hh (by simp [finishHostLostSession]) rfl rfl hh hpend
    · exact .emptied hr hg rfl hh (by simp [queueReconnectSession]) rfl rfl hh hpend

namespace LocalInv

variable {handoffId reason : String} {hand : TerminalHookHandoff}

section

variable (h : LocalInv st)
include h

theorem lost_some (hr : st.sessions s = some r) (hrun : r.status = .running) (hg : GivesBack (fun _ => False) st st')
    (hhand : hostLossHandoff handoffId now r = some hand)
    (hpend : ∀ p, (s, p) ∉ st'.pendingAcks.entries) : LocalStep (some handoffId) disposal st
      (st'.setSession s (hostLossOutcome r reason now (some hand))) := by
  have hh := (h.row s r hr).handoff_of_running hrun
  simp only [hostLossHandoff, ite_none_right_eq_some] at hhand
  obtain ⟨hterm, hmint⟩ := hhand
  have hretry : retryableHostLoss r = false := by
    simp only [terminalHostLoss, and_eq_true] at hterm
    simp only [retryableHostLoss, hterm.1, Bool.true_and]
    simpa using hterm.2
  have hid : hand.handoffId = handoffId ∧ hand.mainCheckoutLease = r.mainCheckoutLease := by
    obtain ⟨host, -, rfl⟩ := map_eq_some_iff.mp hmint
    exact ⟨rfl, rfl⟩
  have hout : hostLossOutcome r reason now (some hand) =
      finishHostLostSession now (withoutLeases r) (some hand) := by
    simp only [hostLossOutcome, hretry, hterm, Bool.false_eq_true, if_false, if_true]
  rw [hout]
  refine h.retired hr hg ?_ ?_ hrun rfl hid.2 (fun t => holdsTarget_of_hostLost hmint hh) rfl rfl ?_ (by rw [hid.1]) hpend
  · simp only [finishHostLostSession]
    split <;> rfl
  · left
    simp only [finishHostLostSession, any_some, hid.2]
    split
    · rfl
    · rename_i hm
      simpa [withoutMainCheckout, withoutLeases] using hm
  · rintro (hs | hs) <;> cases hs

theorem settleScheduledLoss_step (hr : st.sessions s = some r) (hrun : r.status = .running) : LocalStep (some handoffId) disposal st
      (st.settleScheduledLoss s r reason now (hostLossHandoff handoffId now r)) := by
  refine .guarded fun hholds => ?_
  obtain ⟨key, hkey⟩ := isSome_iff_exists.mp hholds
  have hmain := (holdsScheduled_eq_some.mp hkey).2.2.1
  cases hhand : hostLossHandoff handoffId now r with
  | none =>
    exact .lost_none hr (refl (Owned st s) _).checkout.account.forget
      ((h.row s r hr).handoff_of_running hrun) reason now (not_mem_forget s)
  | some hand =>
    have hm : hand.mainCheckoutLease = true := by
      simp only [hostLossHandoff, ite_none_right_eq_some] at hhand
      obtain ⟨host, -, rfl⟩ := map_eq_some_iff.mp hhand.2
      exact hmain
    simp only [any_some, hm, if_true]
    exact h.lost_some hr hrun (refl _ _).account.forget hhand (not_mem_forget s)

theorem requeueOmittedScheduled_step :
    LocalStep (some handoffId) disposal st (st.requeueOmittedScheduled s reason handoffId now) := by
  refine .found fun r hr => .guarded fun hc => ?_
  simp only [and_eq_true, beq_iff_eq] at hc
  exact h.settleScheduledLoss_step hr hc.1.2

theorem requeueOmittedWorktree_step {host : String} :
    LocalStep (some handoffId) disposal st (st.requeueOmittedWorktree s host reason handoffId now) := by
  refine .found fun r hr => ?_
  split
  · rename_i i hi
    refine .guarded fun hc => ?_
    have hrun : r.status = .running := by simp_all
    have hvalue := Attr.toOption_eq_some.mp (given_eq_some.mp hi).1
    cases hhand : hostLossHandoff handoffId now r with
    | none =>
      have hg : GivesBack (Owned st s) st
          ((st.releaseProviderAccountLeaseLocal s r).releaseWorktree i) :=
        (refl _ st).account.worktree (h.owner_of_holds hr (.inr hvalue))
      exact .lost_none hr hg.forget ((h.row s r hr).handoff_of_running hrun) reason now (not_mem_forget s)
    | some hand => exact h.lost_some hr hrun (refl _ _).account.forget hhand (not_mem_forget s)
  · exact .still (.refl _ _)

/-! ## Handoffs -/

theorem idle_of_disposed (hr : st.sessions s = some r) (hh : r.terminalHookHandoff = some hand) (ht : Reserves hand t) :
    (cacheOccupancy ((st.releaseReservedWorktree s hand.worktreeId).releaseReservedMainCheckout s hand)).Idle t := by
  have howner := h.owner_of_holds hr (.inl ⟨hand, hh, ht⟩)
  cases t with
  | worktree i =>
    obtain ⟨x, hx, hs⟩ := bind_eq_some_iff.mp howner
    have hx' : st.worktrees i = some x := hx
    have hi : i ≠ "" := by
      rintro rfl
      rw [h.marked.2] at hx'
      cases hx'
    have hgiven : given hand.worktreeId = some i := given_eq_some.mpr ⟨ht, hi⟩
    have hnamed : x.currentSessionId = .value s := Attr.toOption_eq_some.mp hs
    have hkeep : ∀ st₁ : ControlPlaneState, (st₁.releaseReservedMainCheckout s hand).worktrees = st₁.worktrees := by
      intro st₁
      unfold releaseReservedMainCheckout
      split <;> rfl
    simp only [Occupancy.Idle, cacheOccupancy, hkeep]
    simp [releaseReservedWorktree, hgiven, hx', hnamed, releaseWorktree]
  | mainCheckout host repo =>
    obtain ⟨hmain, rfl, rfl⟩ := ht
    obtain ⟨l, hl, hs⟩ := map_eq_some_iff.mp howner
    have hkeep : (st.releaseReservedWorktree s hand.worktreeId).mainCheckoutLeases = st.mainCheckoutLeases := by
      unfold releaseReservedWorktree
      split
      · split <;> rfl
      · rfl
    have hl' : st.mainCheckoutLeases (hand.hostId, hand.repositoryId) = some l := hl
    simp [Occupancy.Idle, cacheOccupancy, releaseReservedMainCheckout, hkeep, hmain, hl', hs]

theorem disposed_step (hr : st.sessions s = some r) {r' : SessionRow}
    (hh : r.terminalHookHandoff = some hand) (htype : r'.type = r.type) (hs : r'.status = r.status)
    (hw : r'.worktreeId = r.worktreeId) (hm : r'.mainCheckoutLease = (r.mainCheckoutLease && !hand.mainCheckoutLease))
    (hh' : r'.terminalHookHandoff = none) (hd : disposal = some (s, hand.handoffId)) : LocalStep minted disposal st
      (((st.releaseReservedWorktree s hand.worktreeId).releaseReservedMainCheckout s hand).setSession s r') := by
  have hrow := h.row s r hr
  have hrun : r.status ≠ .running := by
    intro he
    rw [hrow.handoff_of_running he] at hh
    cases hh
  have hw' : r'.worktreeId.toOption = none := by
    rw [hw]
    cases hwt : r.worktreeId with
    | value i =>
      rw [(hrow.worktree i hwt).2] at hh
      cases hh
    | _ => rfl
  have hm' : r'.mainCheckoutLease = false := by
    rw [hm]
    cases hmain : r.mainCheckoutLease with
    | false => rfl
    | true => simp [hrow.retained hmain hand hh]
  have hg : GivesBack (Owned st s) st
      ((st.releaseReservedWorktree s hand.worktreeId).releaseReservedMainCheckout s hand) :=
    (refl _ st).reservedWorktree.reservedMainCheckout
  have ht : Turns minted disposal s r r' (Owned st s) st _ :=
    { before := hr
      type := htype
      gives := hg
      own := fun _ hf => hf
      holds := fun t ht => absurd ht (not_holdsTarget hw' hm' hh')
      row := .of_empty (by rwa [hs]) hw' hm' hh'
      pending := .inr fun p hp => h.not_pending hr hrun p (hg.pending _ hp)
      keeps := fun hand' t hhand ht => by
        cases hh.symm.trans hhand
        exact .inr ⟨hd, h.idle_of_disposed hr hh ht⟩
      mints := fun _ he => by rw [hh'] at he; cases he }
  exact .turn ht rfl

end

theorem checkoutLease_withoutHandoff (hand : TerminalHookHandoff) :
    (withoutHandoffLocal r hand).mainCheckoutLease = (r.mainCheckoutLease && !hand.mainCheckoutLease) := by
  unfold withoutHandoffLocal
  cases hand.mainCheckoutLease <;> simp [withoutMainCheckout]

theorem withoutHandoffLocal_same (hand : TerminalHookHandoff) :
    (withoutHandoffLocal r hand).type = r.type ∧ (withoutHandoffLocal r hand).status = r.status ∧
      (withoutHandoffLocal r hand).worktreeId = r.worktreeId := by
  unfold withoutHandoffLocal
  split <;> exact ⟨rfl, rfl, rfl⟩

theorem settleHandoff_step (h : LocalInv st) {host : String} {current : Bool} {result : Option SessionResult} :
    LocalStep minted (some (s, handoffId)) st (st.settleTerminalHookHandoff s handoffId host current result) := by
  refine .found fun r hr => ?_
  split
  · rename_i hand hh
    refine .guarded fun hc => ?_
    simp only [and_eq_true, beq_iff_eq] at hc
    obtain ⟨htype, hs, hw⟩ := withoutHandoffLocal_same (r := r) hand
    exact h.disposed_step hr hh htype hs hw (checkoutLease_withoutHandoff hand) rfl (by rw [hc.1.1])
  · exact .still (.refl _ _)

end LocalInv

def dueHandoff (st : ControlPlaneState) (s : String) (now : Timestamp) : Option (String × String) :=
  (((st.sessions s).bind (·.terminalHookHandoff)).filter fun h => decide (h.expiresAt ≤ now)).map fun h =>
    (s, h.handoffId)

/-- It ends a lost worktree session, or releases the main checkout of a cancelled one with a handoff. -/
def recoversReserved (now : Timestamp) (r : SessionRow) : Bool :=
  r.reconnectDeadlineAt.any (fun at_ => decide (at_ ≤ now)) &&
    ((r.status == .running && r.worktreeId.toOption.isSome && !canRetryHostLoss r) ||
      (r.status == .cancelled && r.mainCheckoutLease && r.terminalHookHandoff.isSome))

namespace LocalInv

theorem expireHandoff_step (h : LocalInv st) (hr : st.sessions s = some r) {hand : TerminalHookHandoff}
    (hh : r.terminalHookHandoff.filter (fun h => decide (h.expiresAt ≤ now)) = some hand) :
    LocalStep minted (dueHandoff st s now) st (st.expireTerminalHookHandoff s r hand) := by
  have hd : dueHandoff st s now = some (s, hand.handoffId) := by
    simp only [dueHandoff, hr, bind_some, hh, map_some]
  obtain ⟨htype, hs, hw⟩ := withoutHandoffLocal_same (r := r) hand
  exact h.disposed_step hr (filter_eq_some_iff.mp hh).1 htype hs hw
    (checkoutLease_withoutHandoff hand) rfl hd

theorem expireHandoffIfNeeded_step (h : LocalInv st) :
    LocalStep minted (dueHandoff st s now) st (st.expireTerminalHookHandoffIfNeeded s now) := by
  refine .found fun r hr => ?_
  split
  · rename_i hand hh
    exact h.expireHandoff_step hr hh
  · exact .still (.refl _ _)

/-! ## The reconnect deadline -/

variable {handoffId : String}

variable (h : LocalInv st)
include h

theorem reclaimScheduledReconnect_step (hr : st.sessions s = some r)
    (hstatus : r.status = .running ∨ r.status = .cancelled) (hh : r.status = .cancelled → r.terminalHookHandoff = none)
    (hwt : r.worktreeId.toOption = none) :
    LocalStep (some handoffId) disposal st (st.reclaimScheduledReconnect s r handoffId now) := by
  unfold reclaimScheduledReconnect
  split
  · rename_i hcancelled
    refine .guarded fun _ => ?_
    exact .emptied hr (refl (Owned st s) _).checkout.account.forget rfl (hh hcancelled)
      (by simp [withoutMainCheckout, withoutLeases, hcancelled]) hwt rfl (hh hcancelled) (not_mem_forget s)
  · rename_i hne
    exact h.settleScheduledLoss_step hr (hstatus.resolve_right hne)

theorem reclaimWorktreeReconnect_step (hr : st.sessions s = some r)
    {x : WorktreeRow} (hx : st.worktrees (r.worktreeId.toOption.getD "") = some x)
    (hstatus : r.status = .running ∨ r.mainCheckoutLease = true)
    (hretry : r.status = .running → r.worktreeId.toOption.isSome = true → canRetryHostLoss r = true) :
    LocalStep minted disposal st (st.reclaimWorktreeReconnect s r (r.worktreeId.toOption.getD "") handoffId now) := by
  cases hwt : r.worktreeId.toOption with
  | none =>
    rw [hwt, getD_none, h.marked.2] at hx
    cases hx
  | some i =>
    have hvalue := Attr.toOption_eq_some.mp hwt
    obtain ⟨hm, hh⟩ := (h.row s r hr).worktree i hvalue
    have hrun : r.status = .running := hstatus.resolve_right (by simp [hm])
    unfold reclaimWorktreeReconnect
    rw [if_pos (hretry hrun (by rw [hwt]; rfl))]
    have hg : GivesBack (Owned st s) st ((st.releaseProviderAccountLeaseLocal s r).releaseWorktree i) :=
      (refl _ st).account.worktree (h.owner_of_holds hr (.inr hvalue))
    exact .emptied hr hg.forget rfl hh (by simp [queueHostLossRetry, queueReconnectSession]) rfl rfl hh
      (not_mem_forget s)

theorem reclaimReconnectDeadline_step (hspare : (st.sessions s).all (fun r => !recoversReserved now r) = true) :
    LocalStep (some handoffId) (dueHandoff st s now) st (st.reclaimReconnectDeadline s handoffId now) := by
  refine .found fun r hr => ?_
  rw [hr, all_some] at hspare
  split
  · rename_i hand hh
    exact h.expireHandoff_step hr hh
  · dsimp only
    refine .guarded fun hc => ?_
    simp only [and_eq_true, Bool.or_eq_true, beq_iff_eq] at hc
    obtain ⟨⟨hstatus, hdue⟩, hheld⟩ := hc
    simp only [recoversReserved, hdue, Bool.true_and, Bool.not_eq_true', Bool.or_eq_false_iff] at hspare
    have hrow := h.row s r hr
    split
    · rename_i hmain
      simp only [and_eq_true] at hmain
      refine h.reclaimScheduledReconnect_step hr (hstatus.imp_right And.left) (fun hcancelled => ?_)
        (hrow.worktreeId_of_main hmain.1.1)
      simpa [hcancelled, hmain.1.1] using hspare.2
    · split
      · rename_i hwt
        simp only [and_eq_true] at hwt
        obtain ⟨x, hx⟩ := isSome_iff_exists.mp hwt.1
        exact h.reclaimWorktreeReconnect_step hr hx (hstatus.imp_right And.right) fun hrun hsome => by
          simpa [hrun, hsome] using hspare.1
      · exact .still (.refl _ _)

/-! ## The acknowledgement deadline -/

theorem ackTurn_step {p : PendingAck} (hp : (s, p) ∈ st.pendingAcks.entries) (l : List String) :
    LocalStep minted disposal st (ackTurn now (st, l) (s, p)).1 := by
  unfold ackTurn
  dsimp only
  split
  · exact .still (.refl _ _)
  · split
    · exact .still (refl _ _).forget
    · rename_i r hfound
      obtain ⟨hr, hmatch⟩ := filter_eq_some_iff.mp hfound
      obtain ⟨r₁, hr₁, hrun⟩ := h.pending s p hp
      cases hr.symm.trans hr₁
      have hrow := h.row s r hr
      have hh := hrow.handoff_of_running hrun
      split
      · rename_i i hi
        have hvalue : r.worktreeId = .value i := by
          rw [(matchesSession_iff.mp hmatch).2.1, (given_eq_some.mp hi).1]
          rfl
        have hg : GivesBack (Owned st s) st
            ((st.releaseWorktree i).releaseProviderAccountLeaseLocal s r) :=
          ((refl _ st).worktree (h.owner_of_holds hr (.inr hvalue))).account
        exact .emptied hr hg.forget rfl hh (by simp) rfl (hrow.worktree i hvalue).1 hh (not_mem_forget s)
      · exact .emptied hr (refl (Owned st s) _).checkout.account.forget rfl hh
          (by simp [queueReconnectSession]) rfl rfl hh (not_mem_forget s)

end LocalInv

end AutoHarness.Protocol

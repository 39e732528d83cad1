import AutoHarness.Protocol.History

/-! What the claims of a session row say together: which resource it may hold in which status, at most one kind, and
that a handoff takes over what it held. -/

namespace AutoHarness.Protocol
open Foundation Store Plane Option Bool FinishSessionOpts ReleaseMainCheckoutOpts WriteOp World

variable {w : World} {op : Op}

/-! ## Handoffs of active sessions -/

variable {x : WriteOp} {r : SessionRow}

theorem handoff_terminal_next (hp : x.promised = true)
    (hc : x.writer.cond r = true) (hr : r.terminalHookHandoff ≠ none → r.status.isTerminal = true)
    (hh : (x.writer.next r).terminalHookHandoff ≠ none) : (x.writer.next r).status.isTerminal = true := by
  obtain ⟨h, hh⟩ := ne_none_iff_exists'.mp hh
  obtain hold | hnew := x.handoff_next hh
  · exact (kept hp hc).terminal (hr (by rw [hold]; simp))
  · cases x with
    | finish c cleanup => exact (FinishCall.opts_handoff hp hnew).1
    | releaseMainCheckout read o cleanup =>
      have ho : o.terminalHookHandoff = some h := hnew
      simp only [promised, and_eq_true, ho, all_some] at hp
      exact hp.1.2.2.2
    | _ => cases hnew

theorem handoff_terminal (h : plane.Reachable w) :
    ∀ s r, w.hasRead s r = true → r.terminalHookHandoff ≠ none → r.status.isTerminal = true := by
  refine reads_of_rows (fun w h => ?_) h
  induction h with
  | init hw => exact fun s r hr => absurd hr hw.no_row
  | @step w w' op hw hs ih =>
    obtain ⟨ha, rfl⟩ := hs
    refine rows_step hw ha ih (fun x r hop hx => ?_) (fun x r hop hx hh => ?_) (fun s r _ hadm hh => ?_)
      (fun s r n hr => hr) (fun s read hop hh => ?_)
    · subst hop
      exact handoff_terminal_next (promised_of_allowed ha) hx.cond (ih _ r hx.row)
    · rw [hx.launched.terminalHookHandoff] at hh
      have ht := ih _ r hx.checked.row hh
      rw [hx.checked.queued] at ht
      cases ht
    · exact absurd hadm.blank.terminalHookHandoff hh
    · subst hop
      simp only [Op.allowed, and_eq_true, beq_iff_eq] at ha
      simp [timedOutPersisted, ha.1.2, SessionStatus.isTerminal]

variable {s a : String}

theorem no_handoff_of_active (h : plane.Reachable w) (hr : w.hasRead s r = true)
    (ha : r.status.isActive = true) : r.terminalHookHandoff = none := by
  by_contra hne
  have ht := handoff_terminal h s r hr hne
  rw [SessionStatus.isTerminal_iff, ha] at ht
  cases ht

/-! ## Rows of a running attempt -/

theorem running_next (hp : x.promised = true)
    (hc : x.writer.cond r = true) (hh : r.status = .running → r.terminalHookHandoff = none)
    (hrun : (x.writer.next r).status = .running) :
    r.status = .running ∧ (x.writer.next r).mainCheckoutLease = r.mainCheckoutLease := by
  have disposed : ∀ {handoffId : String}, r.status = .running →
      (r.terminalHookHandoff.any fun h => h.handoffId == handoffId) = true → False := by
    intro handoffId hr hany
    rw [hh hr] at hany
    cases hany
  cases x with
  | finish c cleanup => exact absurd hrun (FinishCall.opts_status hp).1
  | releaseMainCheckout read o cleanup =>
    simp only [promised, and_eq_true, bne_iff_ne] at hp
    exact absurd hrun hp.1.1.2
  | settleHandoff | expireHandoff => exact (disposed hrun hc).elim
  | releaseCancelled | releaseTimedOutHostAssignment | releaseTimedOutProviderAccountLease
  | forceReleaseProviderAccountLease | note => exact ⟨hrun, rfl⟩
  | _ => cases hrun

/-- It carries a new attempt, or has an earlier running row that agrees on the main checkout. -/
theorem running_step (hw : plane.Reachable w) (ha : op.allowed w = true) :
    ∀ s r, (w.act op).1.sessions s = some r → r.status = .running →
      (∃ r₀, w.hasRead s r₀ = true ∧ r₀.status = .running ∧ r₀.attemptId = r.attemptId ∧
        r₀.mainCheckoutLease = r.mainCheckoutLease) ∨ ∃ a, r.attemptId = some a ∧ a ∉ w.attempts := by
  refine rows_step hw ha (fun s r hr hrun => .inl ⟨r, hasRead_current hr, hrun, rfl, rfl⟩)
    (fun x r hop hx hrun => ?_) (fun x r hop hx hrun => ?_) (fun s r _ hadm hrun => ?_) (fun s r n hP => hP)
    (fun s read hop hrun => ?_)
  · subst hop
    have hr := hasRead_current hx.row
    have hnone : r.status = .running → r.terminalHookHandoff = none := fun h =>
      no_handoff_of_active hw hr (by rw [h]; rfl)
    obtain ⟨hst, hm⟩ := running_next (promised_of_allowed ha) hx.cond hnone hrun
    exact .inl ⟨r, hr, hst, (x.attemptId_next r).symm, hm.symm⟩
  · have hfresh := attempt_of_allowed ha hop
    simp only [attemptPromised, and_eq_true, not_eq_true', List.contains_eq_mem, decide_eq_false_iff_not] at hfresh
    exact .inr ⟨_, hx.launched.attemptId, hfresh.1.1.1.1⟩
  · rw [hadm.blank.status] at hrun
    cases hrun
  · subst hop
    simp only [Op.allowed, and_eq_true, beq_iff_eq] at ha
    simp only [timedOutPersisted, ha.1.2] at hrun
    cases hrun

/-- **Run lemma.** Two running rows of one attempt agree on the main checkout. -/
theorem running_main (h : plane.Reachable w) {r' : SessionRow} (hr : w.hasRead s r = true)
    (hr' : w.hasRead s r' = true) (hrun : r.status = .running) (hrun' : r'.status = .running)
    (hatt : r.attemptId = some a) (hatt' : r'.attemptId = some a) : r.mainCheckoutLease = r'.mainCheckoutLease := by
  induction h generalizing s a r r' with
  | init hw => exact absurd hr hw.no_read
  | @step w w' op hw hs ih =>
    obtain ⟨ha, rfl⟩ := hs
    -- an old row of the attempt excludes that the attempt is new
    have mixed : ∀ {y y' : SessionRow}, (w.act op).1.sessions s = some y → y.status = .running →
        y.attemptId = some a → w.hasRead s y' = true → y'.status = .running → y'.attemptId = some a →
        y.mainCheckoutLease = y'.mainCheckoutLease := by
      intro y y' hy hyr hya hy' hyr' hya'
      obtain ⟨y₀, h₀, hrun₀, hatt₀, hm₀⟩ | ⟨b, hb, hfresh⟩ := running_step hw ha s y hy hyr
      · rw [← hm₀]
        exact ih h₀ hy' hrun₀ hyr' (hatt₀.trans hya) hya'
      · rw [hya] at hb
        cases hb
        exact absurd (attempt_known hw s y' hy' a hya') hfresh
    obtain hnow | hold := hasRead_apply hr
    · obtain hnow' | hold' := hasRead_apply hr'
      · rw [hnow] at hnow'
        cases hnow'
        rfl
      · exact mixed hnow hrun hatt hold' hrun' hatt'
    · obtain hnow' | hold' := hasRead_apply hr'
      · exact (mixed hnow' hrun' hatt' hold hrun hatt).symm
      · exact ih hold hold' hrun hrun' hatt hatt'

/-! ## Coherent rows -/

/-- Which resources a row holds in which status; a handoff leaves at most a main checkout on the row, which it
reserves. -/
structure Coherent (r : SessionRow) : Prop where
  queued : r.status = .queued →
    r.worktreeId.toOption = none ∧ r.workspaceSlotId.toOption = none ∧ r.mainCheckoutLease = false
  ended : r.status = .completed ∨ r.status = .failed →
    r.worktreeId.toOption = none ∧ r.workspaceSlotId.toOption = none
  timedOut : r.status = .timedOut → r.worktreeId.toOption = none
  slot : ∀ i, r.workspaceSlotId = .value i → i ≠ "" ∧ r.worktreeId.toOption = none ∧ r.mainCheckoutLease = false
  main : r.mainCheckoutLease = true → r.worktreeId.toOption = none ∧
    (r.status = .running ∨ r.status = .cancelled ∨ r.terminalHookHandoff ≠ none)
  owner : r.mainCheckoutLease = true → r.terminalHookHandoff = none →
    (given r.hostId.toOption).isSome = true ∧ (given r.assignmentConnectionId).isSome = true
  handoff : ∀ h, r.terminalHookHandoff = some h → r.worktreeId.toOption = none ∧
    r.workspaceSlotId.toOption = none ∧ (r.mainCheckoutLease = true → h.mainCheckoutLease = true)

namespace Coherent

variable {r r' : SessionRow} {i : String}

theorem of_free (hw : r.worktreeId.toOption = none) (hs : r.workspaceSlotId.toOption = none)
    (hm : r.mainCheckoutLease = false) : Coherent r where
  queued _ := ⟨hw, hs, hm⟩
  ended _ := ⟨hw, hs⟩
  timedOut _ := hw
  slot i hi := by rw [hi] at hs; cases hs
  main h := by rw [hm] at h; cases h
  owner h := by rw [hm] at h; cases h
  handoff _ _ := ⟨hw, hs, fun h => by rw [hm] at h; cases h⟩

theorem of_running (hst : r.status = .running) (hs : r.workspaceSlotId.toOption = none)
    (hm : r.mainCheckoutLease = false) (hh : r.terminalHookHandoff = none) : Coherent r where
  queued h := by rw [hst] at h; cases h
  ended h := by rw [hst] at h; cases h <;> contradiction
  timedOut h := by rw [hst] at h; cases h
  slot i hi := by rw [hi] at hs; cases hs
  main h := by rw [hm] at h; cases h
  owner h := by rw [hm] at h; cases h
  handoff h hh' := by rw [hh] at hh'; cases hh'

theorem of_slot (hst : r.status = .running ∨ r.status = .timedOut) (hw : r.worktreeId.toOption = none)
    (hs : r.workspaceSlotId = .value i) (hi : i ≠ "") (hm : r.mainCheckoutLease = false)
    (hh : r.terminalHookHandoff = none) : Coherent r where
  queued h := by rw [h] at hst; cases hst <;> contradiction
  ended h := by obtain h | h := h <;> rw [h] at hst <;> cases hst <;> contradiction
  timedOut _ := hw
  slot j hj := by
    rw [hs] at hj
    cases hj
    exact ⟨hi, hw, hm⟩
  main h := by rw [hm] at h; cases h
  owner h := by rw [hm] at h; cases h
  handoff h hh' := by rw [hh] at hh'; cases hh'

variable (h : Coherent r)
include h

theorem of_same (hst : r'.status = r.status) (hw : r'.worktreeId = r.worktreeId)
    (hs : r'.workspaceSlotId = r.workspaceSlotId) (hm : r'.mainCheckoutLease = r.mainCheckoutLease)
    (hh : r'.terminalHookHandoff = r.terminalHookHandoff) (hhost : r'.hostId = r.hostId)
    (hk : r.mainCheckoutLease = true → (given r.assignmentConnectionId).isSome = true →
      (given r'.assignmentConnectionId).isSome = true) : Coherent r' where
  queued h' := by rw [hw, hs, hm]; exact h.queued (hst ▸ h')
  ended h' := by rw [hw, hs]; exact h.ended (hst ▸ h')
  timedOut h' := by rw [hw]; exact h.timedOut (hst ▸ h')
  slot i hi := by rw [hw, hm]; exact h.slot i (hs ▸ hi)
  main hm' := by rw [hw, hst, hh]; exact h.main (hm ▸ hm')
  owner hm' hh' := by
    rw [hhost]
    obtain ⟨h₁, h₂⟩ := h.owner (hm ▸ hm') (hh ▸ hh')
    exact ⟨h₁, hk (hm ▸ hm') h₂⟩
  handoff x hx := by rw [hw, hs, hm]; exact h.handoff x (hh ▸ hx)

theorem worktree (hi : r.worktreeId = .value i) :
    r.workspaceSlotId.toOption = none ∧ r.mainCheckoutLease = false ∧ r.terminalHookHandoff = none := by
  have hne : r.worktreeId.toOption ≠ none := by rw [hi]; simp
  refine ⟨?_, ?_, ?_⟩
  · cases hs : r.workspaceSlotId with
    | value j => exact absurd (h.slot j hs).2.1 hne
    | _ => rfl
  · rw [eq_false_iff]
    exact fun hm => hne (h.main hm).1
  · by_contra hh
    obtain ⟨x, hx⟩ := ne_none_iff_exists'.mp hh
    exact hne (h.handoff x hx).1

theorem main_slot (hm : r.mainCheckoutLease = true) : r.workspaceSlotId.toOption = none := by
  cases hs : r.workspaceSlotId with
  | value j =>
    have := (h.slot j hs).2.2
    rw [hm] at this
    cases this
  | _ => rfl

end Coherent

/-! ## Writers keep rows coherent -/

variable {read : SessionRow} {c : FinishCall} {s' handoffId : String} {worktreeId repo : Option String}

section

variable (hw : plane.Reachable w) (hreads : ∀ s r, w.hasRead s r = true → Coherent r)
include hw hreads

/-- The running attempt of a main checkout is released with its host lock. -/
theorem not_main_of_running (hread : w.hasRead s read = true) (hrow : w.hasRead s r = true)
    (hrun : read.status = .running) (hrun' : r.status = .running) (hatt : read.attemptId = some a)
    (hatt' : r.attemptId = some a) (hg : (read.mainCheckoutLease && (given read.hostId.toOption).isSome &&
      (given read.assignmentConnectionId).isSome) = false) : r.mainCheckoutLease = false := by
  rw [eq_false_iff]
  intro hm
  rw [← running_main hw hread hrow hrun hrun' hatt hatt'] at hm
  have hnone := no_handoff_of_active hw hread (by rw [hrun]; rfl)
  obtain ⟨h₁, h₂⟩ := (hreads s read hread).owner hm hnone
  rw [hm, h₁, h₂] at hg
  cases hg

theorem finish_not_main (hg : c.guard = true) (hread : w.hasRead c.sessionId c.read = true)
    (hrow : w.hasRead c.sessionId r = true) (hc : c.opts.condition r = true) : r.mainCheckoutLease = false := by
  have hr := hreads _ r hrow
  obtain ⟨hst, hwt, hslot, hatt, habsent, -⟩ := FinishSessionOpts.condition_iff.mp hc
  -- a call that names a slot or a worktree finds it on the row
  have of_slot : ∀ i, c.opts.workspaceSlotId = .value i → r.mainCheckoutLease = false := by
    intro i hi
    rw [hi] at hslot
    obtain hslot | hslot := hslot
    · cases hslot
    · exact (hr.slot i hslot).2.2
  have of_worktree : ∀ i, c.opts.worktreeId = some i → r.mainCheckoutLease = false := by
    intro i hi
    rw [hi] at hwt
    exact (hr.worktree hwt).2.1
  unfold FinishCall.guard at hg
  unfold FinishCall.opts at hst hatt habsent of_slot of_worktree
  cases hsite : c.site with
  | hostLost i fence atDeadline handoffId => exact of_worktree i (by rw [hsite])
  | disconnectSlot i f reason | omittedSlot i f reason | deadlineSlot i => exact of_slot i (by rw [hsite])
  | timeout =>
    simp only [hsite, and_eq_true, beq_iff_eq, not_eq_true', isSome_iff_exists] at hg
    obtain ⟨⟨⟨hrun, -⟩, a, ha⟩, hm⟩ := hg
    simp only [hsite, FinishCall.base, ha, getD_some] at hatt hst
    exact not_main_of_running hw hreads hread hrow hrun hst ha hatt (by simpa using hm)
  | lateDetached msg fence handoffId =>
    simp only [hsite, and_eq_true, beq_iff_eq] at hg
    have hstatus : r.status = .timedOut := by
      rw [hst, hsite]
      exact hg.1.1.1.2
    have hnone : r.terminalHookHandoff = none := habsent (by rw [hsite]; rfl)
    rw [eq_false_iff]
    intro hm
    obtain h | h | h := (hr.main hm).2
    · rw [hstatus] at h; cases h
    · rw [hstatus] at h; cases h
    · exact h hnone
  | lateSlot msg fence handoffId =>
    simp only [hsite, and_eq_true, isSome_iff_exists] at hg
    obtain ⟨-, i, hi⟩ := hg
    exact of_slot i (by rw [hsite]; exact Attr.toOption_eq_some.mp (given_eq_some.mp hi).1)
  | lateWorktree msg fence handoffId =>
    simp only [hsite, and_eq_true, isSome_iff_exists] at hg
    obtain ⟨⟨-, i, hi⟩, -⟩ := hg
    exact of_worktree i (by rw [hsite]; exact (given_eq_some.mp hi).1)
  | timedOutSlot msg =>
    simp only [hsite, and_eq_true, isSome_iff_exists] at hg
    obtain ⟨⟨-, i, hi⟩, -⟩ := hg
    exact of_slot i (by rw [hsite]; exact Attr.toOption_eq_some.mp (given_eq_some.mp hi).1)
  | cancelledSlot msg fence =>
    simp only [hsite, and_eq_true, isSome_iff_exists] at hg
    obtain ⟨⟨⟨-, i, hi⟩, -⟩, -⟩ := hg
    exact of_slot i (by rw [hsite]; simp [finishSessionOptsFromPlan, hi])
  | report msg fence handoffId account =>
    simp only [hsite, and_eq_true, beq_iff_eq, not_eq_true', attemptMatches] at hg
    obtain ⟨⟨⟨hrun, -, ha⟩, -⟩, hm⟩ := hg
    simp only [hsite, finishSessionOptsFromPlan] at hatt hst
    exact not_main_of_running hw hreads hread hrow hrun hst ha hatt (by simpa using hm)

theorem coherent_finish (hg : c.guard = true) (hread : w.hasRead c.sessionId c.read = true)
    (hrow : w.hasRead c.sessionId r = true) (hc : c.opts.condition r = true) : Coherent (c.opts.finished r) := by
  have hm := finish_not_main hw hreads hg hread hrow hc
  cases hp : c.opts.preserveWorkspaceSlotLease with
  | false => exact .of_free rfl (by simp [finished, hp]) hm
  | true =>
    obtain ⟨hstatus, hnone, hexp⟩ := FinishCall.opts_preserveSlot hp
    have hrun : r.status = .running := by
      rw [(FinishSessionOpts.condition_iff.mp hc).1, hexp]
      rfl
    have hh := no_handoff_of_active hw hrow (by rw [hrun]; rfl)
    have hkept : (c.opts.finished r).workspaceSlotId = r.workspaceSlotId := by simp [finished, hp]
    cases hs : r.workspaceSlotId with
    | value i =>
      exact .of_slot (.inr hstatus) rfl (hkept.trans hs) ((hreads _ r hrow).slot i hs).1 hm
        (by simp [finished, hnone, hh])
    | _ => exact .of_free rfl (by rw [hkept, hs]; rfl) hm

end

theorem coherent_releaseCheckout {o : ReleaseMainCheckoutOpts}
    {cleanup : Option (DrainScope × DrainRecord)} (hr : Coherent r)
    (hp : (releaseMainCheckout read o cleanup).promised = true) (hc : o.condition cleanup.isSome r = true) :
    Coherent (o.released r) := by
  have hm := (ReleaseMainCheckoutOpts.condition_iff.mp hc).2.2.2.1
  have hslot := hr.main_slot hm
  cases ho : o.terminalHookHandoff with
  | none => exact .of_free rfl hslot (by simp [released, retains, ho])
  | some h =>
    simp only [promised, and_eq_true, ho, all_some] at hp
    have hterm : (o.released r).status.isTerminal = true := hp.1.2.2.2
    have hstored : (o.released r).terminalHookHandoff = some h := by simp [released, ho]
    exact {
      queued := fun hq => by rw [hq] at hterm; cases hterm
      ended := fun _ => ⟨rfl, hslot⟩
      timedOut := fun _ => rfl
      slot := fun i hi => by
        change r.workspaceSlotId = .value i at hi
        rw [hi] at hslot
        cases hslot
      main := fun _ => ⟨rfl, .inr (.inr (by rw [hstored]; simp))⟩
      owner := fun _ hnone => by rw [hstored] at hnone; cases hnone
      handoff := fun h' hh' => by
        rw [hstored] at hh'
        cases hh'
        exact ⟨rfl, hslot, fun _ => hp.1.2.2.1⟩ }

theorem disposed_main (hw : plane.Reachable w) {h : TerminalHookHandoff} (hread : w.hasRead s read = true)
    (hd : disposes read handoffId worktreeId repo = true) (hrow : w.db.sessions s' = some r)
    (hr : Coherent r) (hh : r.terminalHookHandoff = some h) (hid : h.handoffId = handoffId) :
    (if (given repo).isSome then false else r.mainCheckoutLease) = false := by
  split
  · rfl
  · rename_i hrepo
    rw [eq_false_iff]
    intro hheld
    exact hrepo ((disposed_handoff hw hread hd hrow hh hid).2 ▸ (hr.handoff h hh).2.2 hheld)

section

variable (hw : plane.Reachable w)
include hw

theorem coherent_disposed {r' : SessionRow} (hread : w.hasRead s read = true)
    (hd : disposes read handoffId worktreeId repo = true) (hrow : w.db.sessions s' = some r)
    (hr : Coherent r) (hc : (r.terminalHookHandoff.any fun h => h.handoffId == handoffId) = true)
    (hwt : r'.worktreeId = r.worktreeId) (hs : r'.workspaceSlotId = r.workspaceSlotId)
    (hm : r'.mainCheckoutLease = if (given repo).isSome then false else r.mainCheckoutLease) : Coherent r' := by
  simp only [any_eq_true, beq_iff_eq] at hc
  obtain ⟨h, hh, hid⟩ := hc
  obtain ⟨hfree, hslot, -⟩ := hr.handoff h hh
  exact .of_free (by rw [hwt]; exact hfree) (by rw [hs]; exact hslot)
    (hm.trans (disposed_main hw hread hd hrow hr hh hid))

theorem coherent_next (hreads : ∀ s r, w.hasRead s r = true → Coherent r) (ha : Op.allowed w (.write x) = true)
    (hrow : w.db.sessions x.writer.sessionId = some r) (hc : x.writer.cond r = true) : Coherent (x.writer.next r) := by
  have hnow := hasRead_current hrow
  have hr := hreads _ r hnow
  have hp := promised_of_allowed ha
  -- the requeues of a worktree or a slot leave nothing on the row
  have of_worktree : ∀ {i : String}, r.worktreeId = .value i → (x.writer.next r).worktreeId = .null →
      (x.writer.next r).workspaceSlotId = r.workspaceSlotId →
      (x.writer.next r).mainCheckoutLease = r.mainCheckoutLease → Coherent (x.writer.next r) := by
    intro i hi hnull hs hm
    obtain ⟨hslot, hmain, -⟩ := hr.worktree hi
    exact .of_free (by rw [hnull]; rfl) (by rw [hs]; exact hslot) (by rw [hm]; exact hmain)
  have of_queued : r.status = .queued → (x.writer.next r).worktreeId.toOption = none →
      (x.writer.next r).workspaceSlotId = r.workspaceSlotId →
      (x.writer.next r).mainCheckoutLease = r.mainCheckoutLease → Coherent (x.writer.next r) := by
    intro hq hnull hs hm
    obtain ⟨-, hslot, hmain⟩ := hr.queued hq
    exact .of_free hnull (by rw [hs]; exact hslot) (by rw [hm]; exact hmain)
  have of_cancelled : r.status = .running → (x.writer.next r).status = .cancelled →
      (x.writer.next r).worktreeId = r.worktreeId → (x.writer.next r).workspaceSlotId = r.workspaceSlotId →
      (x.writer.next r).mainCheckoutLease = r.mainCheckoutLease →
      (x.writer.next r).terminalHookHandoff = r.terminalHookHandoff → (x.writer.next r).hostId = r.hostId →
      (x.writer.next r).assignmentConnectionId = r.assignmentConnectionId → Coherent (x.writer.next r) := by
    intro hrun hst hwt hs hm hh hhost hk
    exact {
      queued := fun h => by rw [hst] at h; cases h
      ended := fun h => by rw [hst] at h; cases h <;> contradiction
      timedOut := fun h => by rw [hst] at h; cases h
      slot := fun i hi => by rw [hwt, hm]; exact hr.slot i (hs ▸ hi)
      main := fun h => ⟨by rw [hwt]; exact (hr.main (hm ▸ h)).1, .inr (.inl hst)⟩
      owner := fun h hn => by rw [hhost, hk]; exact hr.owner (hm ▸ h) (hh ▸ hn)
      handoff := fun h hh' => by
        rw [hh, no_handoff_of_active hw hnow (by rw [hrun]; rfl)] at hh'
        cases hh' }
  cases x with
  | cancelQueued read o activity => exact of_queued (beq_iff_eq.mp hc) rfl rfl rfl
  | expireQueued read o activity =>
    have hq : r.status = .queued := beq_iff_eq.mp hc
    exact of_queued hq (hr.queued hq).1 rfl rfl
  | cancelRunning | cancelRunningMainCheckout =>
    simp only [writer, CancelRunningOpts.assignment, and_eq_true, beq_iff_eq] at hc
    exact of_cancelled hc.1.1.1 rfl rfl rfl rfl rfl rfl rfl
  | requeue c => exact of_worktree (RequeueOpts.condition_iff.mp hc).2.1 rfl rfl rfl
  | requeueUsageLimited | suppressProviderless => exact of_worktree (runningOnWorktree_iff.mp hc).2.1 rfl rfl rfl
  | requeueUsageLimitedWorkspace read o account i e | suppressProviderlessWorkspace read o i n e =>
    exact .of_free rfl rfl (hr.slot i (runningOnSlot_iff.mp hc).2.1).2.2
  | finish c cleanup =>
    rw [writer_sessionId] at hnow
    exact coherent_finish hw hreads hp (read_of_allowed ha rfl) hnow hc
  | releaseCancelled c cleanup => exact of_worktree (ReleaseCancelledOpts.condition_iff.mp hc).2.1 rfl rfl rfl
  | releaseMainCheckout read o cleanup => exact coherent_releaseCheckout hr hp hc
  | requeueMainCheckoutUsageLimited read o =>
    simp only [writer, usageLimitWriter, and_eq_true] at hc
    exact .of_free rfl (hr.main_slot hc.1.2) rfl
  | releaseTimedOutHostAssignment | releaseTimedOutProviderAccountLease | forceReleaseProviderAccountLease =>
    exact hr.of_same rfl rfl rfl rfl rfl rfl fun _ => id
  | settleHandoff | expireHandoff => exact coherent_disposed hw (read_of_allowed ha rfl) hp hrow hr hc rfl rfl rfl
  | note s n =>
    refine hr.of_same rfl rfl rfl rfl rfl rfl fun hm _ => ?_
    have hk : n.keeps r = true := hc
    rw [SessionNotes.keeps, hm] at hk
    exact hk

/-! ## The run lemma -/

theorem coherent_assigned (ha : op.allowed w = true) {x : Assigning}
    (hop : op.assigning = some x) (hrow : w.hasRead x.opts.sessionId r = true) (hr : Coherent r)
    (hq : r.status = .queued) : Coherent (x.next r) := by
  obtain ⟨-, hslot, hm⟩ := hr.queued hq
  have hh := no_handoff_of_active hw hrow (by rw [hq]; rfl)
  have hp := attempt_of_allowed ha hop
  simp only [attemptPromised, and_eq_true, bne_iff_ne] at hp
  obtain ⟨⟨⟨⟨-, hhost⟩, hconn⟩, -⟩, -⟩ := hp
  cases op with
  | assignWorktree o =>
    cases hop
    exact .of_running rfl hslot hm hh
  | assignMainCheckout o =>
    cases hop
    exact {
      queued := fun h => by cases h
      ended := fun h => by cases h <;> contradiction
      timedOut := fun h => by cases h
      slot := fun i hi => by
        change r.workspaceSlotId = .value i at hi
        rw [hi] at hslot
        cases hslot
      main := fun _ => ⟨rfl, .inl rfl⟩
      owner := fun _ _ => by
        change (given (some o.hostId)).isSome = true ∧ (given (some o.connectionId)).isSome = true
        rw [given_of_ne hhost, given_of_ne hconn]
        exact ⟨rfl, rfl⟩
      handoff := fun h hh' => by
        change r.terminalHookHandoff = some h at hh'
        rw [hh] at hh'
        cases hh' }
  | assignWorkspace o =>
    cases hop
    simp only [Op.allowed, and_eq_true, bne_iff_ne] at ha
    exact .of_slot (.inl rfl) rfl rfl ha.2 hm hh
  | _ => cases hop

end

theorem coherent_new (h : Admissible r) : Coherent r := by
  exact .of_free (by rw [h.blank.worktreeId]; rfl) h.blank.workspaceSlotId h.blank.mainCheckoutLease

theorem coherent_step (hw : plane.Reachable w) (hreads : ∀ s r, w.hasRead s r = true → Coherent r)
    (ha : op.allowed w = true) : ∀ s r, (w.act op).1.sessions s = some r → Coherent r := by
  refine rows_step hw ha (fun s r hr => hreads s r (hasRead_current hr)) (fun x r hop hx => ?_)
    (fun x r hop hx => ?_) (fun s r _ hadm => coherent_new hadm) (fun s r n hr => ?_) (fun s read hop => ?_)
  · subst hop
    exact coherent_next hw hreads ha hx.row hx.cond
  · have hnow := hasRead_current hx.checked.row
    exact coherent_assigned hw ha hop hnow (hreads _ r hnow) hx.checked.queued
  · exact hr.of_same rfl rfl rfl rfl rfl rfl fun _ => id
  · subst hop
    simp only [Op.allowed, and_eq_true, beq_iff_eq, isSome_iff_exists] at ha
    obtain ⟨⟨hread, hst⟩, i, hi⟩ := ha
    obtain ⟨-, hwt, hm⟩ := (hreads s read hread).slot i (Attr.toOption_eq_some.mp (given_eq_some.mp hi).1)
    exact .of_free hwt rfl hm

/-- **Run lemma.** Every row that anyone has read is coherent. -/
theorem coherent (h : plane.Reachable w) : ∀ s r, w.hasRead s r = true → Coherent r := by
  induction h with
  | init hw => exact fun s r hr => absurd hr hw.no_read
  | @step w w' op hw hs ih =>
    obtain ⟨ha, rfl⟩ := hs
    intro s r hr
    obtain hnow | hold := hasRead_apply hr
    · exact coherent_step hw ih ha s r hnow
    · exact ih s r hold

end AutoHarness.Protocol

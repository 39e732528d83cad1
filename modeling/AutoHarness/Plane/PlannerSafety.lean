import AutoHarness.Plane.Planner

/-! What the plans may contain: nothing after a stale report, no progress from a terminal session, one release for
every ended run. -/

namespace AutoHarness.Plane
open Foundation Store List SessionTransitionEffect

/-- What a session can hold on its host. -/
inductive Resource where
  | mainCheckout | workspaceSlot | worktree
deriving DecidableEq, Repr

/-- Everything the row claims. -/
def held (r : SessionRow) : List Resource :=
  (if r.mainCheckoutLease then [.mainCheckout] else []) ++
    (if (given r.workspaceSlotId.toOption).isSome then [.workspaceSlot] else []) ++
    if (given r.worktreeId.toOption).isSome then [.worktree] else []

namespace SessionTransitionEffect

def changes : SessionTransitionEffect → Bool
  | ignore _ => false
  | reject _ => false
  | retryArchive => false
  | archive => false
  | reschedule _ => false
  | notifyCancel => false
  | _ => true

/-- An effect that a session that has ended must not see. -/
def advances : SessionTransitionEffect → Bool
  | ack => true
  | authorizeCommandStart => true
  | finish .. => true
  | requeue .. => true
  | cooldown .. => true
  | suppressTarget _ => true
  | _ => false

/-- The resource an effect gives back. -/
def released : SessionTransitionEffect → Option Resource
  | releaseLease => some .mainCheckout
  | releaseWorkspace => some .workspaceSlot
  | releaseWorktree => some .worktree
  | _ => none

/-- The effects after which the session no longer runs. -/
def endsRun : SessionTransitionEffect → Bool
  | finish .. => true
  | requeue .. => true
  | patchReport (some status) _ => decide (status ≠ .running)
  | _ => false

variable {e : SessionTransitionEffect}

theorem advances_of_changes (h : e.changes = false) : e.advances = false := by
  cases e <;> first | rfl | cases h

theorem endsRun_of_changes (h : e.changes = false) : e.endsRun = false := by
  cases e <;> first | rfl | cases h

end SessionTransitionEffect

open SessionTransitionEffect

def releases (plan : SessionTransitionPlan) : List Resource := plan.filterMap released

/-! ## The shape of a plan -/

/-- What a plan for the row `r` can be; `copied` says which statuses the event lets it copy. -/
inductive Planned (copied : SessionStatus → Prop) (r : SessionRow) (plan : SessionTransitionPlan) : Prop where
  | quiet : (∀ e ∈ plan, e.changes = false) → Planned copied r plan
  /-- An acknowledgement, an authorization, a reconnect mark or a cancellation of a live session. -/
  | live : r.status.isTerminal = false → (∀ e ∈ plan, e.endsRun = false) → Planned copied r plan
  | ended : r.status = .running → releases plan = releases (releaseEffects r) → Planned copied r plan
  | patched (status : SessionStatus) (fields : SessionReportFields) : r.status = .running → copied status →
      plan = [.patchReport (some status) fields] → Planned copied r plan
  /-- A session that no longer runs may still give up what it holds. -/
  | late : r.status ≠ .running → (∀ e ∈ plan, e.advances = false) → Planned copied r plan
  | expired : r.status = .queued → Planned copied r plan

section Shape

/-- The in-memory patch of a status that is not terminal. -/
def ReportsStatus (r : SessionRow) (ctx : SessionTransitionContext) (event : SessionTransitionEvent)
    (status : SessionStatus) : Prop :=
  ctx.source = .local ∧ ∃ e, event = .status e ∧ attemptMatches r e.worktreeId e.attemptId = true ∧
    e.status = status ∧ status.isTerminal = false

variable {r : SessionRow} {ctx : SessionTransitionContext} {copied : SessionStatus → Prop}

theorem releases_append (plan rest : SessionTransitionPlan) :
    releases (plan ++ rest) = releases plan ++ releases rest :=
  filterMap_append

variable {e : SessionTransitionEffect}

theorem mem_releaseEffects (h : e ∈ releaseEffects r) : e.advances = false ∧ e.endsRun = false := by
  unfold releaseEffects at h
  split_ifs at h <;> simp only [mem_singleton, not_mem_nil] at h <;> exact h ▸ ⟨rfl, rfl⟩

theorem quiet_singleton (h : e.changes = false) : Planned copied r [e] :=
  .quiet fun _ he => mem_singleton.mp he ▸ h

theorem live_singleton (hrun : r.status = .running) (h : e.endsRun = false) : Planned copied r [e] :=
  .live (by rw [hrun]; rfl) fun _ he => mem_singleton.mp he ▸ h

theorem planned_ack (w : Option String) (a : String) : Planned copied r (planAck r w a) := by
  unfold planAck
  split_ifs with hstale
  · exact quiet_singleton rfl
  · exact quiet_singleton rfl
  · simp only [Bool.or_eq_true, decide_eq_true_eq, not_or, not_not] at hstale
    exact live_singleton hstale.1 rfl

theorem planned_commandStart (w : Option String) (a : String) : Planned copied r (planCommandStart r w a) := by
  unfold planCommandStart
  split_ifs with hstale
  · exact quiet_singleton rfl
  · exact .quiet fun _ he => absurd he not_mem_nil
  · exact quiet_singleton rfl
  · simp only [Bool.or_eq_true, decide_eq_true_eq, not_or, not_not] at hstale
    exact live_singleton hstale.1 rfl

theorem planned_infrastructureFailure (code : InfrastructureErrorCode) (detail : Option String)
    (fields : SessionReportFields) : Planned copied r (planInfrastructureFailure r code ctx detail fields) := by
  unfold planInfrastructureFailure
  by_cases hrun : r.status = .running
  · rw [if_neg (not_not.mpr hrun)]
    dsimp only
    split
    all_goals
      refine .ended hrun ?_
      rw [releases_append]
      exact append_nil _
  · rw [if_pos hrun]
    exact quiet_singleton rfl

theorem planned_usageLimit (hrun : r.status = .running) (event : StatusEvent) :
    Planned copied r (planUsageLimit r event ctx) := by
  have hfallback : releases (if remainingFallback r then [fallback] else []) = [] := by
    split_ifs <;> rfl
  unfold planUsageLimit
  dsimp only
  split
  · refine .ended hrun ?_
    rw [releases_append, releases_append, releases_append, hfallback, append_nil]
    exact append_nil _
  · split
    · exact quiet_singleton rfl
    · refine .ended hrun ?_
      rw [releases_append]
      exact append_nil _
  · refine .ended hrun ?_
    rw [releases_append, releases_append, releases_append, hfallback, append_nil]
    exact append_nil _

theorem planned_lateTerminal (hrun : r.status ≠ .running) (event : StatusEvent) {head : SessionTransitionPlan}
    (hhead : ∀ e ∈ head, e.changes = false) : Planned copied r (planLateTerminal r event ctx head) := by
  have hignore : Planned copied r (head ++ [.ignore .notRunning]) := by
    refine .quiet fun e he => ?_
    obtain he | he := mem_append.mp he
    · exact hhead e he
    · exact mem_singleton.mp he ▸ rfl
  unfold planLateTerminal
  dsimp only
  split
  · exact hignore
  split
  · exact hignore
  · refine .late hrun fun e he => ?_
    obtain he | he := mem_append.mp he
    · obtain he | he := mem_append.mp he
      · exact advances_of_changes (hhead e he)
      · exact (mem_releaseEffects he).1
    · split_ifs at he <;> simp only [mem_singleton, not_mem_nil] at he
      exact he ▸ rfl

theorem planned_status (event : StatusEvent) :
    Planned (ReportsStatus r ctx (.status event)) r (planStatus r event ctx) := by
  have hhead : ∀ e ∈ (if ctx.source = .durable && event.status.isTerminal && r.status.isTerminal then
      [retryArchive] else []), e.changes = false := by
    intro e he
    split_ifs at he <;> simp only [mem_singleton, not_mem_nil] at he
    exact he ▸ rfl
  unfold planStatus
  dsimp only
  split
  · refine .quiet fun e he => ?_
    obtain he | he := mem_append.mp he
    · exact hhead e he
    · exact mem_singleton.mp he ▸ rfl
  next hmatch =>
  split
  next hterm =>
    split
    next hlocal =>
      split
      next hrun =>
        exact .patched _ _ hrun ⟨hlocal, event, rfl, by simpa using hmatch, rfl, by simpa using hterm⟩ rfl
      next hrun => exact .late hrun fun e he => mem_singleton.mp he ▸ rfl
    · exact quiet_singleton rfl
  split
  next hrun => exact planned_lateTerminal hrun event hhead
  next hrun =>
    have hrun := not_not.mp hrun
    split
    · exact planned_usageLimit hrun event
    split
    · exact planned_infrastructureFailure _ _ _
    · refine .ended hrun ?_
      rw [releases_append]
      exact append_nil _

theorem planned_attemptId (a : String) (requireRunning : Bool) : Planned copied r (planAttemptId r a requireRunning) := by
  unfold planAttemptId
  split
  · exact quiet_singleton rfl
  · exact .quiet fun _ he => absurd he not_mem_nil

theorem planned_cancel : Planned copied r (planCancel r) := by
  unfold planCancel
  split
  · exact quiet_singleton rfl
  next hterm =>
    refine .live (Bool.eq_false_iff.mpr hterm) fun e he => ?_
    split at he
    · simp only [mem_cons, not_mem_nil, or_false] at he
      obtain rfl | rfl := he <;> rfl
    · obtain rfl | he := mem_cons.mp he
      · rfl
      · exact (mem_releaseEffects he).2

theorem planned_timeout : Planned copied r (planTimeout r ctx) := by
  unfold planTimeout
  split
  · exact quiet_singleton rfl
  next hrun =>
    simp only [Bool.or_eq_true, decide_eq_true_eq, not_or, not_not] at hrun
    refine .ended hrun.1 ?_
    rw [releases_append]
    exact append_nil _

theorem planned_disconnect (acknowledged : Bool) : Planned copied r (planDisconnect r acknowledged ctx) := by
  unfold planDisconnect
  split
  next hcancelled => exact .late (by rw [hcancelled]; decide) fun e he => (mem_releaseEffects he).1
  split
  · exact quiet_singleton rfl
  next hrun =>
    have hrun := not_not.mp hrun
    split
    · exact live_singleton hrun rfl
    · refine .ended hrun ?_
      rw [releases_append]
      exact append_nil _

theorem planned_queueExpired : Planned copied r (planQueueExpired r ctx) := by
  unfold planQueueExpired
  split
  · exact quiet_singleton rfl
  next hqueued => exact .expired (not_not.mp hqueued)

theorem planned (r : SessionRow) (ctx : SessionTransitionContext) (event : SessionTransitionEvent) :
    Planned (ReportsStatus r ctx event) r (planSessionTransition (some r) event ctx) := by
  cases event with
  | ack w a => exact planned_ack w a
  | commandStart w a => exact planned_commandStart w a
  | status e => exact planned_status e
  | cancel => exact planned_cancel
  | timeout => exact planned_timeout
  | disconnect acknowledged => exact planned_disconnect acknowledged
  | infrastructureFailure code => exact planned_infrastructureFailure code none {}
  | queueExpired => exact planned_queueExpired
  | log a => exact planned_attemptId a false
  | reconnectClaim a => exact planned_attemptId a true

end Shape

/-! ## Safety -/

section Safety

/-- The event names another attempt or worktree than the row. -/
def Mismatched (r : SessionRow) : SessionTransitionEvent → Prop
  | .ack w a => attemptMatches r w a = false
  | .commandStart w a => attemptMatches r w a = false
  | .status e => attemptMatches r e.worktreeId e.attemptId = false
  | .log a => r.attemptId ≠ some a
  | .reconnectClaim a => r.attemptId ≠ some a
  | _ => False

structure PlannerSafe (r : SessionRow) (event : SessionTransitionEvent) (ctx : SessionTransitionContext) : Prop where
  stale : Mismatched r event → ∀ e ∈ planSessionTransition (some r) event ctx, e.changes = false
  terminal : r.status.isTerminal = true → ∀ e ∈ planSessionTransition (some r) event ctx, e.advances = false
  release : r.status = .running → (planSessionTransition (some r) event ctx).any endsRun = true →
    ∃ k, held r = [k] ∧ releases (planSessionTransition (some r) event ctx) = [k]
  cancel : event = .cancel → r.status = .running → (given r.hostId.toOption).isSome = true →
    SessionTransitionEffect.cancel true ∈ planSessionTransition (some r) event ctx ∧
      SessionTransitionEffect.cancel false ∉ planSessionTransition (some r) event ctx ∧
      releases (planSessionTransition (some r) event ctx) = []

variable {r : SessionRow} {event : SessionTransitionEvent} {ctx : SessionTransitionContext} {k : Resource}

theorem stale_quiet (h : Mismatched r event) : ∀ e ∈ planSessionTransition (some r) event ctx, e.changes = false := by
  cases event with
  | ack w a =>
    have hplan : planAck r w a = [.ignore .staleAttempt] := if_pos (by rw [h]; simp)
    intro e he
    rw [planSessionTransition, hplan, mem_singleton] at he
    exact he ▸ rfl
  | commandStart w a =>
    have hplan : planCommandStart r w a = [.ignore .staleAttempt] := if_pos (by rw [h]; simp)
    intro e he
    rw [planSessionTransition, hplan, mem_singleton] at he
    exact he ▸ rfl
  | status ev =>
    intro e he
    change e ∈ planStatus r ev ctx at he
    unfold planStatus at he
    rw [if_pos (by rw [h]; rfl)] at he
    obtain he | he := mem_append.mp he
    · split_ifs at he <;> simp only [mem_singleton, not_mem_nil] at he
      exact he ▸ rfl
    · exact mem_singleton.mp he ▸ rfl
  | log a | reconnectClaim a =>
    intro e he
    change e ∈ planAttemptId r a _ at he
    unfold planAttemptId at he
    split at he
    · exact mem_singleton.mp he ▸ rfl
    · cases he
  | cancel | timeout | disconnect | infrastructureFailure | queueExpired => exact h.elim

theorem terminal_still (h : r.status.isTerminal = true) :
    ∀ e ∈ planSessionTransition (some r) event ctx, e.advances = false := by
  have hrun : r.status ≠ .running := fun hrun => absurd (hrun ▸ h) (by decide)
  cases planned r ctx event with
  | quiet hquiet => exact fun e he => advances_of_changes (hquiet e he)
  | live hlive => exact absurd h (by rw [hlive]; decide)
  | ended hrunning | patched _ _ hrunning => exact absurd hrunning hrun
  | late _ hlate => exact hlate
  | expired hqueued => exact absurd (hqueued ▸ h) (by decide)

theorem releases_releaseEffects (h : held r = [k]) : releases (releaseEffects r) = [k] := by
  unfold held at h
  unfold releaseEffects
  split_ifs at h ⊢ <;> simp_all [releases, released]

section

variable (hrun : r.status = .running)
include hrun

theorem release_of_endsRun (hheld : held r = [k])
    (hends : (planSessionTransition (some r) event ctx).any endsRun = true) :
    releases (planSessionTransition (some r) event ctx) = [k] ∨ ReportsStatus r ctx event .queued := by
  obtain ⟨e, he, hend⟩ := any_eq_true.mp hends
  cases planned r ctx event with
  | quiet hquiet => exact absurd hend (by rw [endsRun_of_changes (hquiet e he)]; decide)
  | live _ hgoes => exact absurd hend (by rw [hgoes e he]; decide)
  | ended _ hreleases => exact .inl (hreleases.trans (releases_releaseEffects hheld))
  | patched status fields _ hcopied hplan =>
    rw [hplan, mem_singleton] at he
    have hne : status ≠ .running := by
      rw [he] at hend
      exact of_decide_eq_true hend
    -- of the statuses that end no run, only this one is not the session's own
    have hqueued : status = .queued := by
      obtain ⟨-, _, -, -, -, hterm⟩ := hcopied
      cases status <;> first | rfl | exact absurd rfl hne | cases hterm
    exact .inr (hqueued ▸ hcopied)
  | late hnot => exact absurd hrun hnot
  | expired hqueued => exact absurd (hrun.symm.trans hqueued) (by decide)

theorem cancel_holds (hhost : (given r.hostId.toOption).isSome = true) :
    planCancel r = [.cancel true, .notifyCancel] := by
  unfold planCancel
  rw [hrun, hhost]
  rfl

theorem plan_of_reportsStatus {status : SessionStatus} (h : ReportsStatus r ctx event status) :
    ∃ fields, planSessionTransition (some r) event ctx = [.patchReport (some status) fields] := by
  obtain ⟨hlocal, e, rfl, hmatch, rfl, hterm⟩ := h
  refine ⟨e.toSessionReportFields, ?_⟩
  change planStatus r e ctx = _
  simp [planStatus, hlocal, hmatch, hterm, hrun]

end

/-! ### Which events end a run -/

/-- The report is of a usage limit of an account that is not there any more. The durable plane drops it, unless the
session runs in a main checkout. -/
def DropsLimit (r : SessionRow) (ctx : SessionTransitionContext) (e : StatusEvent) : Prop :=
  e.status = .failed ∧ e.errorCode = some "usage_limit" ∧ given (r.resolvedRoute.bind (·.providerAccountId)) ≠ none ∧
    ctx.providerAccount = none ∧ ctx.source = .durable ∧ r.mainCheckoutLease = false

/-- The event takes the running session `r` out of its run. -/
def EndsRun (r : SessionRow) (ctx : SessionTransitionContext) : SessionTransitionEvent → Prop
  | .status e => attemptMatches r e.worktreeId e.attemptId = true ∧
      if e.status.isTerminal then ¬ DropsLimit r ctx e else e.status = .queued ∧ ctx.source = .local
  | .timeout => r.ackReceivedAt.isSome = true
  | .disconnect acknowledged => acknowledged = false
  | .infrastructureFailure _ => True
  | _ => False

theorem any_endsRun_releaseEffects (r : SessionRow) : (releaseEffects r).any endsRun = false := by
  rw [any_eq_false]
  exact fun e he => Bool.eq_false_iff.mp (mem_releaseEffects he).2

theorem any_endsRun_usageLimit (e : StatusEvent) : (planUsageLimit r e ctx).any endsRun = true ↔
    ¬ (given (r.resolvedRoute.bind (·.providerAccountId)) ≠ none ∧ ctx.providerAccount = none ∧ ctx.source = .durable ∧
      r.mainCheckoutLease = false) := by
  unfold planUsageLimit
  dsimp only
  split
  · rename_i hloaded
    exact iff_of_true (by simp [endsRun]) (by simp [hloaded])
  · rename_i hroute hloaded
    cases hsource : ctx.source <;> cases hmain : r.mainCheckoutLease <;> simp [endsRun, hroute, hloaded]
  · rename_i hroute
    exact iff_of_true (by simp [endsRun]) (by simp [hroute])

theorem any_endsRun_infrastructure (hrun : r.status = .running) (code : InfrastructureErrorCode)
    (detail : Option String) (fields : SessionReportFields) :
    (planInfrastructureFailure r code ctx detail fields).any endsRun = true := by
  unfold planInfrastructureFailure
  rw [if_neg (not_not.mpr hrun)]
  dsimp only
  split <;> simp [endsRun]

theorem any_endsRun_status (hrun : r.status = .running) (e : StatusEvent) :
    (planStatus r e ctx).any endsRun = true ↔ EndsRun r ctx (.status e) := by
  have hlive : r.status.isTerminal = false := by rw [hrun]; rfl
  simp only [planStatus, EndsRun, hlive, Bool.and_false, Bool.false_eq_true, if_false, nil_append]
  cases hmatch : attemptMatches r e.worktreeId e.attemptId with
  | false => simp [endsRun]
  | true =>
    cases hterm : e.status.isTerminal with
    | false =>
      have hnone : e.status ≠ .running ↔ e.status = .queued := by
        cases hst : e.status <;> simp_all [SessionStatus.isTerminal]
      cases hsource : ctx.source <;> simp [hrun, endsRun, hnone]
    | true =>
      simp only [hrun, ne_eq, not_true_eq_false, Bool.not_true, Bool.false_eq_true, if_false, if_true, true_and, DropsLimit]
      by_cases hlimit : e.status = .failed ∧ e.errorCode = some "usage_limit"
      · rw [if_pos (by simp [hlimit.1, hlimit.2]), any_endsRun_usageLimit]
        simp only [hlimit.1, hlimit.2, true_and]
      · rw [if_neg (by simpa using hlimit)]
        refine iff_of_true ?_ fun h => hlimit ⟨h.1, h.2.1⟩
        split
        · exact any_endsRun_infrastructure hrun ..
        · simp [endsRun]

theorem any_endsRun_iff (hrun : r.status = .running) :
    (planSessionTransition (some r) event ctx).any endsRun = true ↔ EndsRun r ctx event := by
  have hlive : r.status.isTerminal = false := by rw [hrun]; rfl
  cases event with
  | status e => exact any_endsRun_status hrun e
  | infrastructureFailure code => exact iff_of_true (any_endsRun_infrastructure hrun ..) trivial
  | timeout => cases hack : r.ackReceivedAt <;> simp [planSessionTransition, planTimeout, hrun, hack, EndsRun, endsRun]
  | disconnect acknowledged =>
    cases acknowledged <;> simp [planSessionTransition, planDisconnect, hrun, EndsRun, endsRun]
  | queueExpired => simp [planSessionTransition, planQueueExpired, hrun, EndsRun, endsRun]
  | ack | commandStart | log | reconnectClaim =>
    simp only [planSessionTransition, planAck, planCommandStart, planAttemptId, EndsRun, iff_false]
    split_ifs <;> simp [endsRun]
  | cancel =>
    simp only [planSessionTransition, planCancel, EndsRun, iff_false, hlive, Bool.false_eq_true, if_false]
    split_ifs <;> simp [endsRun, any_endsRun_releaseEffects]

/-- **Planner safety.** Every plan is safe exactly when the event is not a report in memory that the running attempt is
queued, and a running row whose run it ends names one resource. -/
theorem planner_safe_iff (r : SessionRow) (event : SessionTransitionEvent) (ctx : SessionTransitionContext) :
    PlannerSafe r event ctx ↔ ¬ (r.status = .running ∧ ReportsStatus r ctx event .queued) ∧
        (r.status = .running → EndsRun r ctx event → ∃ k, held r = [k]) := by
  constructor
  · intro h
    refine ⟨fun ⟨hrun, hqueued⟩ => ?_, fun hrun hends => ?_⟩
    · obtain ⟨fields, hplan⟩ := plan_of_reportsStatus hrun hqueued
      obtain ⟨k, -, hk⟩ := h.release hrun (by rw [hplan]; rfl)
      rw [hplan] at hk
      cases hk
    · exact (h.release hrun ((any_endsRun_iff hrun).mpr hends)).imp fun _ hk => hk.1
  · rintro ⟨hreport, hone⟩
    refine ⟨stale_quiet, terminal_still, fun hrun hends => ?_, fun hcancel hrun hhost => ?_⟩
    · obtain ⟨k, hk⟩ := hone hrun ((any_endsRun_iff hrun).mp hends)
      obtain hreleases | hqueued := release_of_endsRun hrun hk hends
      · exact ⟨k, hk, hreleases⟩
      · exact absurd ⟨hrun, hqueued⟩ hreport
    · subst hcancel
      have hplan : planSessionTransition (some r) .cancel ctx = [.cancel true, .notifyCancel] :=
        cancel_holds hrun hhost
      rw [hplan]
      exact ⟨mem_cons_self, by decide, rfl⟩

private def runningOnWorktree : SessionRow :=
  { status := .running, hostId := .value "h", worktreeId := .value "w", attemptId := some "a" }

theorem planner_keeps_worktree : ¬ PlannerSafe runningOnWorktree
        (.status { worktreeId := some "w", attemptId := "a", status := .queued }) { now := 0, source := .local } ∧
      planSessionTransition (some runningOnWorktree)
        (.status { worktreeId := some "w", attemptId := "a", status := .queued }) { now := 0, source := .local } =
          [.patchReport (some .queued) {}] := by
  have hplan : planSessionTransition (some runningOnWorktree)
      (.status { worktreeId := some "w", attemptId := "a", status := .queued }) { now := 0, source := .local } =
        [.patchReport (some .queued) {}] := by
    decide
  refine ⟨fun h => ?_, hplan⟩
  obtain ⟨k, -, hk⟩ := h.release rfl (by rw [hplan]; rfl)
  cases hk

end Safety

end AutoHarness.Plane

import AutoHarness.Daemon.Targets

/-! What one step does to a work item, and the order of the work on one target: an item claims its target only after
every earlier item has ended. -/

namespace AutoHarness.Daemon.Targets
open Foundation List Bool DaemonLoop

def Stage.ofHandoff : Stage → Bool
  | .reconciling | .queued | .holding | .hookRunning => true
  | _ => false

def Event.removes (e : Event) (w : Work) : Prop :=
  ∃ handoffId, e = .terminalHookAcknowledged handoffId ∧ w.isPendingHandoff handoffId = true

/-- What a step `e` from `s` does to the work item `i`. -/
structure Moved (s : DaemonLoop) (e : Event) (i : ℕ) (w w' : Work) : Prop where
  target : w'.target = w.target
  party : w'.party = w.party
  handoff : w'.stage.ofHandoff = true → w.stage.ofHandoff = true
  ended : w.stage = .ended → w'.stage = .ended
  returned : w.stage.returned = true → w'.stage.returned = true
  began : w.began = true → w'.began = true
  claims : w'.began = true → w.began = true ∨
    w'.stage.works = true ∧ s.unclaimed w.target = true ∧ (w.stage.passedFence = true ∨ s.fences.clear i = true)
  holds : w'.stage.holdsClaim = true → w.stage.holdsClaim = true ∨ w'.began = true
  passed : w'.stage.passedFence = true → w.stage.passedFence = true ∨ s.fences.clear i = true
  starting : w'.stage = .starting → w.stage = .starting ∧ w'.awaits = w.awaits ∨
    e = .step .acquireExecutionSlot i ∧ w'.awaits = s.abortedAttempts w
  holding : w'.stage = .holding → w.stage = .holding ∨ e = .step .startHandoff i
  queued : w'.stage = .queued → w'.removed = true → w.stage = .queued ∧ (w.removed = true ∨ e.removes w)
  detached : w'.stage = .detachedWait ∨ w'.stage = .leaked →
    w.stage = .detachedWait ∨ w.stage = .leaked ∨ ∃ sent, e = .leaseUnusable i sent

def Stage.isEnded : Stage → Bool
  | .ended => true
  | _ => false

def Stage.entered : Stage → Bool
  | .starting | .holding | .queued | .detachedWait | .leaked => true
  | _ => false

/-- Neither leaves `ended`, nor claims the target, nor passes a fence, nor enters a stage above. -/
def Stage.quiet (a b : Stage) : Bool :=
  !a.isEnded && !b.entered && (!a.returned || b.returned) && (!b.holdsClaim || a.holdsClaim) &&
    (!b.passedFence || a.passedFence) && (!b.ofHandoff || a.ofHandoff)

variable {s s' : DaemonLoop} {e : Event} {i : ℕ} {w w' : Work}

theorem Moved.flags (aborted removed : Bool) (h : w.stage = .queued → removed = true → w.removed = true ∨ e.removes w) :
    Moved s e i w { w with aborted := aborted, removed := removed } where
  target := rfl
  party := rfl
  handoff h := h
  ended h := h
  returned h := h
  began h := h
  claims h := .inl h
  holds h := .inl h
  passed h := .inl h
  starting h := .inl ⟨h, rfl⟩
  holding h := .inl h
  queued hq hr := ⟨hq, h hq hr⟩
  detached h := h.imp_right .inl

theorem Moved.refl (s : DaemonLoop) (e : Event) (i : ℕ) (w : Work) : Moved s e i w w :=
  .flags w.aborted w.removed fun _ h => .inl h

variable {b : Stage}

theorem Moved.quiet (aborted removed : Bool) (h : w.stage.quiet b = true) :
    Moved s e i w { w with stage := b, aborted := aborted, removed := removed } := by
  simp only [Stage.quiet, and_eq_true, or_eq_true, not_eq_true'] at h
  obtain ⟨⟨⟨⟨⟨hended, hentered⟩, hreturned⟩, hholds⟩, hpassed⟩, hhandoff⟩ := h
  have hnot : ∀ {a : Stage}, a.entered = true → b ≠ a := by
    intro a ha hb
    rw [hb, ha] at hentered
    cases hentered
  exact
    { target := rfl
      party := rfl
      handoff := fun h => hhandoff.resolve_left (by rw [h]; decide)
      ended := fun h => by rw [h] at hended; cases hended
      returned := fun h => hreturned.resolve_left (by rw [h]; decide)
      began := id
      claims := .inl
      holds := fun h => .inl (hholds.resolve_left (by rw [h]; decide))
      passed := fun h => .inl (hpassed.resolve_left (by rw [h]; decide))
      starting := fun h => absurd h (hnot rfl)
      holding := fun h => absurd h (hnot rfl)
      queued := fun h => absurd h (hnot rfl)
      detached := fun h => absurd h (not_or.mpr ⟨hnot rfl, hnot rfl⟩) }

/-! ## What each step does -/

structure Moves (s : DaemonLoop) (e : Event) (s' : DaemonLoop) : Prop where
  fences : s'.fences = s.fences
  length : s'.works.length = s.works.length
  moved : ∀ i w', s'.works[i]? = some w' → ∃ w, s.works[i]? = some w ∧ Moved s e i w w'

theorem Moves.each {f : Work → Work} (h : ∀ i w, s.works[i]? = some w → Moved s e i w (f w)) :
    Moves s e (s.each f) where
  fences := rfl
  length := length_map ..
  moved i w' hw' := by
    unfold DaemonLoop.each at hw'
    rw [List.getElem?_map] at hw'
    obtain ⟨w, hw, rfl⟩ := Option.map_eq_some_iff.mp hw'
    exact ⟨w, hw, h i w hw⟩

theorem change_eq_some {f : Work → Option Work} (h : s.change i f = some s') :
    ∃ w w', s.works[i]? = some w ∧ f w = some w' ∧ s' = { s with works := s.works.set i w' } := by
  obtain ⟨w, hw, h⟩ := Option.bind_eq_some_iff.mp h
  obtain ⟨w', hw', h⟩ := Option.bind_eq_some_iff.mp h
  exact ⟨w, w', hw, hw', (Option.some.inj h).symm⟩

theorem Moves.change {f : Work → Option Work} (hs : s.change i f = some s')
    (h : ∀ w w', f w = some w' → Moved s e i w w') : Moves s e s' := by
  obtain ⟨w, w', hw, hf, rfl⟩ := change_eq_some hs
  refine ⟨rfl, length_set, fun j v hv => ?_⟩
  rw [List.getElem?_set] at hv
  split_ifs at hv with hij hlt
  · subst hij
    cases hv
    exact ⟨w, hw, h w w' hf⟩
  · exact ⟨v, hv, .refl s e j v⟩

theorem moved_abortWhere (p : Work → Bool) : Moved s e i w (abortWhere p w) :=
  .flags _ _ fun _ h => .inl h

theorem moved_settleForHandoff (sessionId : String) : Moved s e i w (settleForHandoff sessionId w) := by
  unfold settleForHandoff
  split
  · next h =>
    have hstage : w.stage = .awaitingDisposition := by simp_all
    exact .quiet _ _ (by rw [hstage]; rfl)
  · exact .refl s e i w

theorem moved_discardStatus (sessionId : String) (aborted : Bool) :
    Moved s e i w (discardStatus sessionId { w with aborted := aborted }) := by
  unfold discardStatus
  split
  · dsimp only
    split
    · next h => exact .quiet _ _ (by rw [h]; rfl)
    · next h => exact .quiet _ _ (by rw [h]; rfl)
    · next h => exact .quiet _ _ (by rw [h]; rfl)
    · next h => exact .quiet _ _ (by rw [h]; rfl)
    · exact .flags _ _ fun _ h => .inl h
  · exact .flags _ _ fun _ h => .inl h

theorem Moved.begins (hb : b = .running ∨ b = .hookRunning ∧ w.stage = .holding) (ha : w.stage.returned = false)
    (hfree : s.unclaimed w.target = true) (hfence : w.stage.passedFence = true ∨ s.fences.clear i = true) :
    Moved s e i w { w with stage := b, began := true } where
  target := rfl
  party := rfl
  handoff h := by
    rcases hb with rfl | ⟨-, hs⟩
    · cases h
    · rw [hs]
      rfl
  ended h := by rw [h] at ha; cases ha
  returned h := by rw [h] at ha; cases ha
  began _ := rfl
  claims _ := .inr ⟨by rcases hb with rfl | ⟨rfl, -⟩ <;> rfl, hfree, hfence⟩
  holds _ := .inr rfl
  passed h := by rcases hb with rfl | ⟨rfl, -⟩ <;> cases h
  starting h := by rcases hb with rfl | ⟨rfl, -⟩ <;> cases h
  holding h := by rcases hb with rfl | ⟨rfl, -⟩ <;> cases h
  queued h := by rcases hb with rfl | ⟨rfl, -⟩ <;> cases h
  detached h := by rcases hb with rfl | ⟨rfl, -⟩ <;> rcases h with h | h <;> cases h

theorem Moved.enters {awaits : List ℕ} (ha : w.stage.returned = false) (hb : b.holdsClaim = false)
    (hhandoff : b.ofHandoff = true → w.stage.ofHandoff = true)
    (hpassed : b.passedFence = true → w.stage.passedFence = true ∨ s.fences.clear i = true)
    (hstarting : b = .starting → e = .step .acquireExecutionSlot i ∧ awaits = s.abortedAttempts w)
    (hholding : b = .holding → e = .step .startHandoff i) (hqueued : b = .queued → w.removed = false) :
    Moved s e i w { w with stage := b, awaits := awaits } where
  target := rfl
  party := rfl
  handoff := hhandoff
  ended h := by rw [h] at ha; cases ha
  returned h := by rw [h] at ha; cases ha
  began h := h
  claims h := .inl h
  holds h := by rw [hb] at h; cases h
  passed := hpassed
  starting h := .inr (hstarting h)
  holding h := .inr (hholding h)
  queued h hr := by rw [show w.removed = true from hr] at hqueued; cases hqueued h
  detached h := by rcases h with h | h <;> subst h <;> cases hb

theorem Moved.of_quiet {a : Stage} {removed : Bool} (hstage : w.stage = a)
    (h : some { w with stage := b, removed := removed } = some w') (hquiet : a.quiet b = true) : Moved s e i w w' := by
  cases h
  exact .quiet _ _ (by rw [hstage, hquiet])

theorem moved_withoutStatus (h : withoutStatus w = some w') : Moved s e i w w' := by
  unfold withoutStatus at h
  split at h
  · next hs => exact .of_quiet hs h rfl
  · next hs => exact .of_quiet hs h rfl
  · next hs => exact .of_quiet hs h rfl
  · next hs => exact .of_quiet hs h rfl
  · cases h

variable {cap : ℕ}

theorem moved_advance {waiting : Waiting}
    (h : s.advance cap i w waiting = some w') : Moved s (.step waiting i) i w w' := by
  cases waiting with
  | abandon =>
    simp only [advance, and_eq_true, or_eq_true, decide_eq_true_eq] at h
    split_ifs at h with hc
    obtain ⟨-, (hs | hs) | hs⟩ := hc
    all_goals exact .of_quiet hs h rfl
  | passFence =>
    simp only [advance, and_eq_true, decide_eq_true_eq] at h
    split_ifs at h with hc
    obtain ⟨⟨⟨hs, -⟩, -⟩, hclear⟩ := hc
    cases h
    exact .enters (by rw [hs]; rfl) rfl nofun (fun _ => .inr hclear) nofun nofun nofun
  | acquireExecutionSlot =>
    simp only [advance, and_eq_true, decide_eq_true_eq] at h
    split_ifs at h with hc
    obtain ⟨⟨hs, -⟩, -⟩ := hc
    cases h
    exact .enters (by rw [hs]; rfl) rfl nofun (fun _ => .inl (by rw [hs]; rfl)) (fun _ => ⟨rfl, rfl⟩) nofun nofun
  | claim =>
    simp only [advance, and_eq_true, decide_eq_true_eq] at h
    split_ifs at h with hc
    obtain ⟨⟨⟨hs, -⟩, -⟩, hfree⟩ := hc
    cases h
    exact .begins (.inl rfl) (by rw [hs]; rfl) hfree (.inl (by rw [hs]; rfl))
  | claimRefused | hookRefused =>
    simp only [advance, and_eq_true, decide_eq_true_eq] at h
    split_ifs at h with hc
    exact .of_quiet hc.1.1 h rfl
  | returns =>
    simp only [advance] at h
    split at h
    · next hs => exact .of_quiet hs h rfl
    · cases h
  | acquireSettlement =>
    simp only [advance] at h
    split_ifs at h
    split at h
    · next hs => exact .of_quiet hs h rfl
    · next hs => exact .of_quiet hs h rfl
    · cases h
  | reconcile matched =>
    simp only [advance, and_eq_true, decide_eq_true_eq] at h
    split_ifs at h with hc hdone
    · exact .of_quiet hc.1 h rfl
    · cases h
      exact .enters (by rw [hc.1]; rfl) rfl (fun _ => by rw [hc.1]; rfl) nofun nofun nofun fun _ => by simp_all
  | startHandoff =>
    simp only [advance, and_eq_true, decide_eq_true_eq] at h
    split_ifs at h with hc
    cases h
    exact .enters (by rw [hc.1.1]; rfl) rfl (fun _ => by rw [hc.1.1]; rfl) nofun nofun (fun _ => rfl) nofun
  | claimHook =>
    simp only [advance, and_eq_true, decide_eq_true_eq] at h
    split_ifs at h with hc
    obtain ⟨⟨hs, hclear⟩, hfree⟩ := hc
    cases h
    exact .begins (.inr ⟨rfl, hs⟩) (by rw [hs]; rfl) hfree (.inr hclear)
  | finishTargetWork => cases h

theorem Moved.detaches {sent : Bool} (ha : w.stage.returned = false) (hclaim : w.stage.holdsClaim = true)
    (hb : b = .detachedWait ∨ b = .leaked) : Moved s (.leaseUnusable i sent) i w { w with stage := b } where
  target := rfl
  party := rfl
  handoff h := by rcases hb with rfl | rfl <;> cases h
  ended h := by rw [h] at ha; cases ha
  returned h := by rw [h] at ha; cases ha
  began h := h
  claims h := .inl h
  holds _ := .inl hclaim
  passed h := by rcases hb with rfl | rfl <;> cases h
  starting h := by rcases hb with rfl | rfl <;> cases h
  holding h := by rcases hb with rfl | rfl <;> cases h
  queued h := by rcases hb with rfl | rfl <;> cases h
  detached _ := .inr (.inr ⟨sent, rfl⟩)

theorem moves_leaseUnusable {sent : Bool}
    (h : s.next cap (.leaseUnusable i sent) = some s') : Moves s (.leaseUnusable i sent) s' := by
  refine .change h fun w w' hw => ?_
  split at hw
  · next hs => exact .of_quiet hs hw rfl
  · next hs => exact .of_quiet hs hw rfl
  · next hs => exact .of_quiet hs hw rfl
  · next hs =>
    cases hw
    exact .detaches (by rw [hs]; rfl) (by rw [hs]; rfl) (.inr rfl)
  · next hs =>
    cases hw
    exact .detaches (by rw [hs]; rfl) (by rw [hs]; rfl) (.inl rfl)
  · next hs => exact .of_quiet hs hw rfl
  · cases hw

theorem moves_processEnded {ending : Ending}
    (h : s.next cap (.processEnded i ending) = some s') : Moves s (.processEnded i ending) s' := by
  refine .change h fun w w' hw => ?_
  split_ifs at hw with hs
  split at hw
  · exact .of_quiet hs hw rfl
  · exact .of_quiet hs hw rfl
  · cases hw
  · exact .of_quiet hs hw rfl

theorem moves_handoffExpired
    (h : s.next cap (.handoffExpired i) = some s') : Moves s (.handoffExpired i) s' := by
  refine .change h fun w w' hw => ?_
  split at hw
  · next hs =>
    split_ifs at hw
    exact .of_quiet hs hw rfl
  · next hs =>
    split_ifs at hw
    exact .of_quiet hs hw rfl
  · next hs =>
    cases hw
    exact .flags _ _ fun h => by rw [hs] at h; cases h
  · next hs =>
    cases hw
    exact .flags _ _ fun h => by rw [hs] at h; cases h
  · next hs =>
    split_ifs at hw
    cases hw
    exact .flags _ _ fun h => by rw [hs] at h; cases h
  · cases hw

theorem next_step {waiting : Waiting} (h : waiting ≠ .finishTargetWork) :
    s.next cap (.step waiting i) =
      s.change i fun w => s.advance cap i w waiting := by
  cases waiting <;> first | rfl | exact absurd rfl h

structure Work.Fresh (w : Work) : Prop where
  began : w.began = false
  stage : w.stage = .accepted ∨ w.stage = .reconciling ∧ w.isAssignment = false

/-- The step moves work items, or then also accepts one, or resolves the fence of one that has returned. -/
inductive Stepped (s : DaemonLoop) (e : Event) (s' : DaemonLoop) : Prop
  | moves (h : Moves s e s')
  | reserves (s₁ : DaemonLoop) (w : Work) (h : Moves s e s₁) (hfresh : w.Fresh) (hs : s' = s₁.reserve w)
  | resolves (i : ℕ) (w : Work) (hw : s.works[i]? = some w) (hreturned : w.stage.returned = true)
      (hclear : s.fences.clear i = true) (hs : s' = { s with fences := s.fences.resolve i })

theorem stepped_handleAssign (cap : ℕ) (msg : SessionAssign) (retryBufferFull : Bool) :
    Stepped s e (s.handleAssign cap msg retryBufferFull) := by
  unfold handleAssign
  split_ifs with hknown
  · exact .moves ⟨rfl, rfl, fun i w hw => ⟨w, hw, .refl s e i w⟩⟩
  · dsimp only
    split_ifs with hfull
    · exact .moves (.each fun _ _ _ => moved_abortWhere _)
    · refine .reserves _ _ ?_ ⟨rfl, .inl rfl⟩ rfl
      unfold discardSupersededTerminalStatuses abortSupersededAttempts DaemonLoop.each
      rw [map_map]
      exact .each (f := discardStatus _ ∘ abortWhere _) fun _ _ _ => moved_discardStatus _ _

theorem stepped_handleHandoff (msg : SessionTerminalHook) (bufferFull : Bool) :
    Stepped s e (s.handleTerminalHookHandoff msg bufferFull) := by
  unfold handleTerminalHookHandoff
  split_ifs with hknown
  · exact .moves ⟨rfl, rfl, fun i w hw => ⟨w, hw, .refl s e i w⟩⟩
  · exact .reserves _ _ (.each fun _ _ _ => moved_settleForHandoff _) ⟨rfl, .inr ⟨rfl, rfl⟩⟩ rfl

/-- **What a step can do.** -/
theorem stepped (h : s.next cap e = some s') : Stepped s e s' := by
  cases e with
  | assign msg full =>
    cases h
    exact stepped_handleAssign _ msg full
  | cancel sessionId attemptId =>
    cases h
    cases attemptId with
    | none | some => exact .moves (.each fun _ _ _ => moved_abortWhere _)
  | abortInflight unacknowledgedOnly =>
    cases h
    exact .moves (.each fun _ _ _ => moved_abortWhere _)
  | acknowledged | startTimedOut | expiredAtFence =>
    refine .moves (.change h fun w w' hw => ?_)
    simp only [and_eq_true, decide_eq_true_eq] at hw
    split_ifs at hw with hc
    exact .of_quiet hc.1 hw rfl
  | unacknowledged i =>
    refine .moves (.change h fun w w' hw => ?_)
    split_ifs at hw with hc
    exact .of_quiet hc hw rfl
  | processEnded i ending => exact .moves (moves_processEnded h)
  | statusAcknowledged i retryAccepted =>
    refine .moves (.change h fun w w' hw => ?_)
    split at hw
    · next hs => exact .of_quiet hs hw rfl
    · next hs => exact .of_quiet hs hw (by cases retryAccepted <;> rfl)
    · cases hw
  | leaseUnusable i sent => exact .moves (moves_leaseUnusable h)
  | statusExpired i => exact .moves (.change h fun w w' hw => moved_withoutStatus hw)
  | hookEnded i =>
    refine .moves (.change h fun w w' hw => ?_)
    split at hw
    · next hs => exact .of_quiet hs hw rfl
    · next hs => exact .of_quiet hs hw rfl
    · next hs => exact .of_quiet hs hw rfl
    · cases hw
  | terminalHook msg bufferFull =>
    cases h
    exact stepped_handleHandoff msg bufferFull
  | terminalHookAcknowledged handoffId =>
    cases h
    refine .moves (.each fun i w _ => .flags _ _ fun _ hr => ?_)
    exact (or_eq_true _ _ ▸ hr).imp_right fun hp => ⟨handoffId, rfl, hp⟩
  | handoffExpired i => exact .moves (moves_handoffExpired h)
  | step waiting i =>
    by_cases hfinish : waiting = .finishTargetWork
    · subst hfinish
      simp only [DaemonLoop.next, and_eq_true] at h
      split_ifs at h with hc
      cases h
      obtain ⟨⟨hret, -⟩, hclear⟩ := hc
      cases hw : s.works[i]? with
      | none =>
        rw [hw] at hret
        cases hret
      | some w =>
        rw [hw, Option.any_some] at hret
        exact .resolves i w hw hret hclear rfl
    · rw [next_step hfinish] at h
      exact .moves (.change h fun w w' hw => moved_advance hw)

/-! ## The order of work on a target -/

/-- The work items stand behind their fences. -/
structure Ordered (s : DaemonLoop) : Prop where
  chained : s.fences.Chained
  aligned : ∀ i : ℕ, s.fences.key i = s.works[i]?.map (·.target)
  resolved : ∀ (i : ℕ) (w : Work), s.works[i]? = some w → s.fences.resolved i = true → w.stage.returned = true
  passed : ∀ (i : ℕ) (w : Work), s.works[i]? = some w → w.stage.passedFence = true → s.fences.clear i = true
  claimed : ∀ (i : ℕ) (w : Work), s.works[i]? = some w → w.stage.holdsClaim = true → w.began = true
  began : ∀ (i j : ℕ) (v w : Work), i < j → s.works[i]? = some v → s.works[j]? = some w → v.target = w.target →
    w.began = true → v.stage = .ended

theorem Ordered.start : Ordered {} where
  chained := .empty
  aligned _ := rfl
  resolved _ _ h := nomatch h
  passed _ _ h := nomatch h
  claimed _ _ h := nomatch h
  began _ _ _ _ _ h := nomatch h

theorem Ordered.key_eq (h : Ordered s) (hw : s.works[i]? = some w) : s.fences.key i = some w.target := by
  rw [h.aligned, hw]
  rfl

variable {v : Work}

theorem Ordered.earlier_returned (h : Ordered s) {j : ℕ} (hij : i < j) (hv : s.works[i]? = some v)
    (hw : s.works[j]? = some w) (htarget : v.target = w.target) (hclear : s.fences.clear j = true) :
    v.stage.returned = true :=
  h.resolved i v hv
    (h.chained.earlier_resolved hclear hij (by rw [h.key_eq hv, htarget]) (h.key_eq hw))

theorem Stage.ended_of_returned {a : Stage} (hreturned : a.returned = true) (hclaim : a.holdsClaim = false) :
    a = .ended := by
  cases a <;> simp_all [Stage.returned, Stage.holdsClaim]

theorem not_holdsClaim_of_unclaimed {target : Target} (h : s.unclaimed target = true)
    (hw : s.works[i]? = some w) (htarget : w.target = target) : w.stage.holdsClaim = false := by
  have hnot := all_eq_true.mp h w (mem_of_getElem? hw)
  simpa [htarget] using hnot

theorem Ordered.moves (h : Ordered s) (hm : Moves s e s') : Ordered s' := by
  have hclear : ∀ i, s'.fences.clear i = s.fences.clear i := fun i => by rw [hm.fences]
  refine ⟨by rw [hm.fences]; exact h.chained, fun i => ?_, fun i w' hw' hr => ?_, fun i w' hw' hp => ?_,
    fun i w' hw' hc => ?_, fun i j v' w' hij hv' hw' ht hb => ?_⟩
  · rw [hm.fences, h.aligned]
    cases hw' : s'.works[i]? with
    | none =>
      have hlen := List.getElem?_eq_none_iff.mp hw'
      rw [List.getElem?_eq_none (by rw [← hm.length]; exact hlen)]
    | some w' =>
      obtain ⟨w, hw, hmoved⟩ := hm.moved i w' hw'
      rw [hw, Option.map_some, Option.map_some, hmoved.target]
  · obtain ⟨w, hw, hmoved⟩ := hm.moved i w' hw'
    rw [hm.fences] at hr
    exact hmoved.returned (h.resolved i w hw hr)
  · obtain ⟨w, hw, hmoved⟩ := hm.moved i w' hw'
    rw [hclear]
    exact (hmoved.passed hp).elim (h.passed i w hw) id
  · obtain ⟨w, hw, hmoved⟩ := hm.moved i w' hw'
    exact (hmoved.holds hc).elim (fun hold => hmoved.began (h.claimed i w hw hold)) id
  · obtain ⟨v, hv, hmovedv⟩ := hm.moved i v' hv'
    obtain ⟨w, hw, hmovedw⟩ := hm.moved j w' hw'
    have htarget : v.target = w.target := by rw [← hmovedv.target, ht, hmovedw.target]
    refine hmovedv.ended ?_
    rcases hmovedw.claims hb with hbegan | ⟨-, hfree, hfence⟩
    · exact h.began i j v w hij hv hw htarget hbegan
    · -- the claim is taken now: what is before it on the target has returned and let its claim go
      have hpast : s.fences.clear j = true := hfence.elim (h.passed j w hw) id
      exact Stage.ended_of_returned (h.earlier_returned hij hv hw htarget hpast)
        (not_holdsClaim_of_unclaimed hfree hv htarget)

theorem getElem?_reserve (h : (s.reserve w).works[i]? = some v) :
    (s.works[i]? = some v ∧ i < s.works.length) ∨ (i = s.works.length ∧ v = w) := by
  unfold DaemonLoop.reserve at h
  rw [List.getElem?_append] at h
  split_ifs at h with hlt
  · exact .inl ⟨h, hlt⟩
  · obtain ⟨hidx, hv⟩ := List.getElem?_eq_some_iff.mp h
    rw [List.length_singleton] at hidx
    rw [List.getElem_singleton] at hv
    exact .inr ⟨by omega, hv.symm⟩

theorem Work.Fresh.not_holdsClaim (h : w.Fresh) : w.stage.holdsClaim = false := by
  rcases h.stage with hs | ⟨hs, -⟩ <;> rw [hs] <;> rfl

theorem Work.Fresh.not_passedFence (h : w.Fresh) : w.stage.passedFence = false := by
  rcases h.stage with hs | ⟨hs, -⟩ <;> rw [hs] <;> rfl

theorem Ordered.length_eq (h : Ordered s) : s.fences.fences.length = s.works.length := by
  have hlast := h.aligned s.works.length
  have hnext := h.aligned s.fences.fences.length
  unfold FenceChain.key at hlast hnext
  rw [List.getElem?_eq_none (Nat.le_refl _), Option.map_none, Option.map_eq_none_iff, List.getElem?_eq_none_iff] at hlast
  rw [List.getElem?_eq_none (Nat.le_refl _), Option.map_none, eq_comm, Option.map_eq_none_iff,
    List.getElem?_eq_none_iff] at hnext
  omega

theorem Ordered.reserve (h : Ordered s) (hfresh : w.Fresh) : Ordered (s.reserve w) := by
  refine ⟨h.chained.join _, fun i => ?_, fun i v hv hr => ?_, fun i v hv hp => ?_, fun i v hv hc => ?_,
    fun i j u v hij hu hv ht hb => ?_⟩
  · unfold DaemonLoop.reserve
    rw [FenceChain.key_join, h.length_eq, h.aligned]
    split_ifs with heq
    · rw [heq, List.getElem?_concat_length]
      rfl
    · rcases Nat.lt_or_ge i s.works.length with hlt | hge
      · rw [List.getElem?_append_left hlt]
      · rw [List.getElem?_eq_none hge, List.getElem?_eq_none (by rw [length_append, List.length_singleton]; omega)]
  · have hold : s.fences.resolved i = true := (FenceChain.resolved_join s.fences w.target i).symm.trans hr
    obtain ⟨hv, -⟩ | ⟨rfl, rfl⟩ := getElem?_reserve hv
    · exact h.resolved i v hv hold
    · rw [FenceChain.resolved, List.getElem?_eq_none (Nat.le_of_eq h.length_eq)] at hold
      cases hold
  · obtain ⟨hv, -⟩ | ⟨-, rfl⟩ := getElem?_reserve hv
    · exact FenceChain.clear_join _ (h.passed i v hv hp)
    · rw [hfresh.not_passedFence] at hp
      cases hp
  · obtain ⟨hv, -⟩ | ⟨-, rfl⟩ := getElem?_reserve hv
    · exact h.claimed i v hv hc
    · rw [hfresh.not_holdsClaim] at hc
      cases hc
  · obtain ⟨hv, hlt⟩ | ⟨-, rfl⟩ := getElem?_reserve hv
    · obtain ⟨hu, -⟩ | ⟨heq, -⟩ := getElem?_reserve hu
      · exact h.began i j u v hij hu hv ht hb
      · omega
    · rw [hfresh.began] at hb
      cases hb

theorem Ordered.resolve (h : Ordered s) (hw : s.works[i]? = some w) (hreturned : w.stage.returned = true)
    (hclear : s.fences.clear i = true) : Ordered { s with fences := s.fences.resolve i } := by
  refine ⟨h.chained.resolve hclear, fun j => ?_, fun j v hv hr => ?_, fun j v hv hp => ?_, h.claimed, h.began⟩
  · rw [FenceChain.key_resolve]
    exact h.aligned j
  · rw [FenceChain.resolved_resolve, or_eq_true] at hr
    rcases hr with hr | hr
    · exact h.resolved j v hv hr
    · rw [← (of_decide_eq_true hr).1] at hv
      cases hw.symm.trans hv
      exact hreturned
  · exact FenceChain.clear_resolve i (h.passed j v hv hp)

theorem Ordered.step {cap : ℕ} (h : Ordered s)
    (hs : s.next cap e = some s') : Ordered s' := by
  cases stepped hs with
  | moves hm => exact h.moves hm
  | reserves s₁ w hm hfresh hs' =>
    subst hs'
    exact (h.moves hm).reserve hfresh
  | resolves i w hw hreturned hclear hs' =>
    subst hs'
    exact h.resolve hw hreturned hclear

theorem ordered_reachable (h : (daemon cap).Reachable s) : Ordered s :=
  h.invariant (fun _ hinit => hinit ▸ .start) fun _ _ _ _ hord hs => hord.step hs

theorem Ordered.began_of_works (h : Ordered s) (hw : s.works[i]? = some w) (hworks : w.stage.works = true) :
    w.began = true := by
  refine h.claimed i w hw ?_
  revert hworks
  cases w.stage <;> simp [Stage.works, Stage.holdsClaim]

theorem Ordered.not_began_behind (h : Ordered s) {j : ℕ} (hij : i < j) (hv : s.works[i]? = some v)
    (hw : s.works[j]? = some w) (htarget : v.target = w.target) (hworks : v.stage.works = true) : w.began = false := by
  refine eq_false_iff.mpr fun hbegan => ?_
  rw [h.began i j v w hij hv hw htarget hbegan] at hworks
  cases hworks

theorem works_of_begins (hs : s.next cap e = some s')
    (hw : s.works[i]? = some w) (hw' : s'.works[i]? = some w') (hno : w.began = false) (hb : w'.began = true) :
    w'.stage.works = true := by
  have hmoves : ∀ {s₁ : DaemonLoop}, Moves s e s₁ → s₁.works[i]? = some w' → w'.stage.works = true := by
    intro s₁ hm hw₁
    obtain ⟨v, hv, hmoved⟩ := hm.moved i w' hw₁
    cases hw.symm.trans hv
    exact (hmoved.claims hb).elim (fun h => by rw [hno] at h; cases h) And.left
  cases stepped hs with
  | moves hm => exact hmoves hm hw'
  | reserves s₁ u hm hfresh hs' =>
    subst hs'
    obtain ⟨hold, -⟩ | ⟨-, rfl⟩ := getElem?_reserve hw'
    · exact hmoves hm hold
    · rw [hfresh.began] at hb
      cases hb
  | resolves j u _ _ _ hs' =>
    subst hs'
    cases hw.symm.trans hw'
    rw [hno] at hb
    cases hb

/-- **One worker on a target, in the order of acceptance.** -/
theorem one_worker_per_target {maxConcurrentAssignments : ℕ} {s : DaemonLoop}
    (h : (daemon maxConcurrentAssignments).Reachable s) :
    (∀ (i j : ℕ) (v w : Work), s.works[i]? = some v → s.works[j]? = some w → v.target = w.target →
      v.stage.works = true → w.stage.works = true → i = j) ∧
    (∀ (i j : ℕ) (v w : Work), i < j → s.works[i]? = some v → s.works[j]? = some w → v.target = w.target →
      w.began = true → v.stage = .ended) ∧
    (∀ (e : Event) (s' : DaemonLoop), s.next maxConcurrentAssignments e = some s' →
      ∀ (i j : ℕ) (v v' w : Work), i < j → s.works[i]? = some v → s'.works[i]? = some v' → s'.works[j]? = some w →
        v'.target = w.target → v.began = false → v'.began = true → w.began = false) := by
  have hord := ordered_reachable h
  refine ⟨fun i j v w hv hw ht hvw hww => ?_, hord.began, fun e s' hs i j v v' w hij hv hv' hw ht hno hb => ?_⟩
  · rcases Nat.lt_trichotomy i j with hij | hij | hij
    · have hno := hord.not_began_behind hij hv hw ht hvw
      rw [hord.began_of_works hw hww] at hno
      cases hno
    · exact hij
    · have hno := hord.not_began_behind hij hw hv ht.symm hww
      rw [hord.began_of_works hv hvw] at hno
      cases hno
  · exact (hord.step hs).not_began_behind hij hv' hw ht (works_of_begins hs hv hv' hno hb)

/-- The first works, the second is cancelled behind it, the third is acknowledged. -/
def cancelledBetween : List Event :=
  let assign (sessionId : String) : Event :=
    .assign { sessionId, attemptId := "a", repositoryId := some "r", worktreeId := some "w" } false
  [assign "s0", assign "s1", assign "s2", .acknowledged 0, .step .passFence 0, .step .acquireExecutionSlot 0,
    .step .claim 0, .acknowledged 1, .cancel "s1" none, .step .abandon 1, .acknowledged 2]

theorem one_worker_per_target_cancelled :
    ∃ s, (daemon 3).Reachable s ∧ s.works.map (·.stage) = [.running, .ended, .acknowledged] ∧
      (s.next 3 (.step .finishTargetWork 1)).isNone = true ∧ (s.next 3 (.step .passFence 2)).isNone = true ∧
      ∀ (i j : ℕ) (v w : Work), s.works[i]? = some v → s.works[j]? = some w → v.target = w.target →
        v.stage.works = true → w.stage.works = true → i = j := by
  have hrun : (cancelledBetween.foldlM (DaemonLoop.next 3) {}).map (fun s =>
      (s.works.map (·.stage), (s.next 3 (.step .finishTargetWork 1)).isNone, (s.next 3 (.step .passFence 2)).isNone)) =
      some ([.running, .ended, .acknowledged], true, true) := by decide +kernel
  obtain ⟨s, hs, hseen⟩ := Option.map_eq_some_iff.mp hrun
  simp only [Prod.mk.injEq] at hseen
  have hreach : (daemon 3).Reachable s := System.Reachable.foldlM (fun _ _ _ h => h) (.init rfl) hs
  exact ⟨s, hreach, hseen.1, hseen.2.1, hseen.2.2, (one_worker_per_target hreach).1⟩

end AutoHarness.Daemon.Targets

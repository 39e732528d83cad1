import AutoHarness.Daemon.TargetFences
import Mathlib.Data.Nat.Find

/-! Slots against targets: an assignment waits for its target and then takes a slot, a handoff takes a slot and then
waits for its target. -/

namespace AutoHarness.Daemon.Targets
open Foundation List DaemonLoop

structure Quiescent (s : DaemonLoop) : Prop where
  idle : ∀ w ∈ s.works, w.stage.works = false
  acknowledged : ∀ w ∈ s.works, w.stage = .accepted → w.aborted = true
  disposed : ∀ w ∈ s.works, w.stage ≠ .awaitingDisposition

def Work.unfinished (w : Work) : Bool :=
  !(decide (w.stage = .ended) || decide (w.stage = .leaked))

namespace DaemonLoop

/-- The step strands nothing: no slot is taken for a wait that another slot must end, and no main checkout is left
claimed. -/
def careful (s : DaemonLoop) : Event → Bool
  | .step .startHandoff i => s.fences.clear i
  | .step .acquireExecutionSlot i => s.works[i]?.all fun w => (s.abortedAttempts w).isEmpty
  | .terminalHookAcknowledged handoffId =>
    s.works.all fun w => !(w.isPendingHandoff handoffId && decide (w.stage = .queued))
  | .leaseUnusable i _ => s.works[i]?.all fun w => !w.target.isMain
  | _ => true

def nextCareful (maxConcurrentAssignments : ℕ) (s : DaemonLoop) (e : Event) : Option DaemonLoop :=
  if s.careful e then s.next maxConcurrentAssignments e else none

end DaemonLoop

/-! ## What careful steps keep -/

structure Tidy (s : DaemonLoop) (i : ℕ) (w : Work) : Prop where
  handoff : w.stage.ofHandoff = true → w.isAssignment = false
  starting : w.stage = .starting → w.awaits = []
  holding : w.stage = .holding → s.fences.clear i = true
  queued : w.stage = .queued → w.removed = false
  detached : w.stage = .detachedWait ∨ w.stage = .leaked → w.target.isMain = false

variable {cap : ℕ} {s s' : DaemonLoop} {e : Event} {i : ℕ} {w w' : Work}

theorem Tidy.moved (h : Tidy s i w) (hw : s.works[i]? = some w) (hcareful : s.careful e = true)
    (hm : Moved s e i w w') (hclear : ∀ i, s.fences.clear i = true → s'.fences.clear i = true) : Tidy s' i w' where
  handoff hs := by
    unfold Work.isAssignment
    rw [hm.party]
    exact h.handoff (hm.handoff hs)
  starting hs := by
    rcases hm.starting hs with ⟨hold, hawaits⟩ | ⟨rfl, hawaits⟩
    · rw [hawaits, h.starting hold]
    · simp only [careful, hw, Option.all_some, List.isEmpty_iff] at hcareful
      rw [hawaits, hcareful]
  holding hs := by
    refine hclear i ?_
    rcases hm.holding hs with hold | rfl
    · exact h.holding hold
    · exact hcareful
  queued hs := by
    refine Bool.eq_false_iff.mpr fun hr => ?_
    obtain ⟨hold, hremoved | ⟨handoffId, rfl, hpending⟩⟩ := hm.queued hs hr
    · rw [h.queued hold] at hremoved
      cases hremoved
    · have hnot := all_eq_true.mp hcareful w (mem_of_getElem? hw)
      rw [hpending, hold] at hnot
      cases hnot
  detached hs := by
    rw [hm.target]
    rcases hm.detached hs with hold | hold | ⟨sent, rfl⟩
    · exact h.detached (.inl hold)
    · exact h.detached (.inr hold)
    · simpa only [careful, hw, Option.all_some, Bool.not_eq_true'] using hcareful

theorem Tidy.fresh (hfresh : w.Fresh) : Tidy s i w := by
  rcases hfresh.stage with hs | ⟨hs, hhandoff⟩
  · constructor <;> intro h <;> simp [hs, Stage.ofHandoff] at h
  · refine ⟨fun _ => hhandoff, ?_, ?_, ?_, ?_⟩ <;> intro h <;> simp [hs] at h

theorem tidy_step (h : ∀ i w, s.works[i]? = some w → Tidy s i w) (hcareful : s.careful e = true)
    (hs : s.next cap e = some s') : ∀ i w, s'.works[i]? = some w → Tidy s' i w := by
  intro i w' hw'
  cases stepped hs with
  | moves hm =>
    obtain ⟨w, hw, hmoved⟩ := hm.moved i w' hw'
    exact (h i w hw).moved hw hcareful hmoved fun _ hc => by rw [hm.fences]; exact hc
  | reserves s₁ u hm hfresh hs' =>
    subst hs'
    obtain ⟨hold, -⟩ | ⟨-, rfl⟩ := getElem?_reserve hw'
    · obtain ⟨w, hw, hmoved⟩ := hm.moved i w' hold
      refine (h i w hw).moved hw hcareful hmoved fun _ hc => FenceChain.clear_join u.target ?_
      rw [hm.fences]
      exact hc
    · exact .fresh hfresh
  | resolves j u hu hreturned hclear hs' =>
    subst hs'
    exact (h i w' hw').moved hw' hcareful (.refl s e i w') fun _ hc => FenceChain.clear_resolve j hc

theorem tidy_reachable (h : ((daemon cap).restrict fun s e => s.careful e = true).Reachable s) :
    ∀ i w, s.works[i]? = some w → Tidy s i w := by
  induction h with
  | init hinit =>
    cases hinit
    exact fun _ _ h => nomatch h
  | step _ hs ih => exact tidy_step ih hs.1 hs.2

/-! ## Some wait can end -/

def Enabled (maxConcurrentAssignments : ℕ) (s : DaemonLoop) : Prop :=
  ∃ waiting i, (s.next maxConcurrentAssignments (.step waiting i)).isSome = true ∧
    s.careful (.step waiting i) = true

theorem Enabled.of_advance (waiting : Waiting) (hw : s.works[i]? = some w)
    (hadvance : (s.advance cap i w waiting).isSome = true) (hcareful : s.careful (.step waiting i) = true)
    (hne : waiting ≠ .finishTargetWork := by simp) : Enabled cap s := by
  obtain ⟨w', hw'⟩ := Option.isSome_iff_exists.mp hadvance
  refine ⟨waiting, i, ?_, hcareful⟩
  rw [next_step hne, change, hw, Option.bind_eq_bind, Option.bind_some, hw']
  rfl

section Stages

variable (hord : Ordered s) (htidy : ∀ i w, s.works[i]? = some w → Tidy s i w) (hquiet : Quiescent s)

include hord htidy hquiet

section

variable (hw : s.works[i]? = some w)
include hw

theorem mayRefuse_of_clear (hclear : s.fences.clear i = true)
    (hbusy : w.stage.holdsClaim = false) (hopen : w.stage ≠ .ended) : s.mayRefuse w = true := by
  unfold mayRefuse
  cases hmain : w.target.isMain with
  | false => rfl
  | true =>
    suffices hfree : s.unclaimed w.target = true by rw [hfree, Bool.or_true]
    refine all_eq_true.mpr fun v hv => ?_
    obtain ⟨k, hk⟩ := List.mem_iff_getElem?.mp hv
    by_contra hnot
    simp only [Bool.not_eq_true', Bool.and_eq_false_imp, decide_eq_false_iff_not, not_forall, not_not] at hnot
    obtain ⟨hholds, htarget⟩ := hnot
    -- nothing runs and no acknowledgement is missing, so only a settlement that waits for a slot could hold it
    have hwait : v.stage = .settleWait := by
      have hidle := hquiet.idle v hv
      have hdisposed := hquiet.disposed v hv
      have hdetached := (htidy k v hk).detached
      generalize v.stage = a at hholds hidle hdisposed hdetached
      cases a <;> simp_all [Stage.holdsClaim, Stage.works]
    rcases Nat.lt_trichotomy k i with hki | hki | hki
    · have hreturned := hord.earlier_returned hki hk hw htarget hclear
      rw [hwait] at hreturned
      cases hreturned
    · subst hki
      cases hw.symm.trans hk
      rw [hbusy] at hholds
      cases hholds
    · exact hopen (hord.began i k w v hki hw hk htarget.symm (hord.claimed k v hk hholds))

theorem enabled_of_starting (hs : w.stage = .starting) : Enabled cap s := by
  have hclear := hord.passed i w hw (by rw [hs]; rfl)
  have hmay := mayRefuse_of_clear hord htidy hquiet hw hclear (by rw [hs]; rfl) (by simp [hs])
  refine .of_advance (.claimRefused false) hw ?_ rfl
  simp only [advance, hs, (htidy i w hw).starting hs, hmay]
  rfl

theorem enabled_of_holding (hs : w.stage = .holding) : Enabled cap s := by
  have hclear := (htidy i w hw).holding hs
  have hmay := mayRefuse_of_clear hord htidy hquiet hw hclear (by rw [hs]; rfl) (by simp [hs])
  refine .of_advance .hookRefused hw ?_ rfl
  simp only [advance, hs, hclear, hmay]
  rfl

end

theorem spare_or_enabled (hmax : 0 < cap) :
    s.hasSpareExecutionCapacity cap = true ∨ Enabled cap s := by
  by_cases hbusy : ∃ w ∈ s.works, (w.occupiesSlot || w.isActiveHandoff) = true
  · obtain ⟨w, hmem, hocc⟩ := hbusy
    obtain ⟨i, hw⟩ := List.mem_iff_getElem?.mp hmem
    have hidle := hquiet.idle w hmem
    refine .inr ?_
    cases hs : w.stage with
    | starting => exact enabled_of_starting hord htidy hquiet hw hs
    | holding => exact enabled_of_holding hord htidy hquiet hw hs
    | reported retained =>
      refine .of_advance .returns hw ?_ rfl
      simp only [advance, hs]
      rfl
    | _ => simp [Work.occupiesSlot, Work.isActiveHandoff, Stage.works, hs] at hocc hidle
  · refine .inl (decide_eq_true ?_)
    have hnone : ∀ w ∈ s.works, w.occupiesSlot = false ∧ w.isActiveHandoff = false := fun w hw => by
      simpa using fun h => hbusy ⟨w, hw, h⟩
    rw [executingAssignmentCount, countP_eq_zero.mpr fun w hw => by simp [hnone w hw],
      activeTerminalHookHandoffs, countP_eq_zero.mpr fun w hw => by simp [hnone w hw]]
    exact hmax

end Stages

theorem closed_or_enabled (hquiet : Quiescent s)
    (hspare : s.hasSpareExecutionCapacity cap = true) :
    (∀ w ∈ s.works, w.stage.settlementOpen = false) ∨ Enabled cap s := by
  by_cases hopen : ∃ w ∈ s.works, w.stage.settlementOpen = true
  · obtain ⟨w, hmem, hopen⟩ := hopen
    obtain ⟨i, hw⟩ := List.mem_iff_getElem?.mp hmem
    have hidle := hquiet.idle w hmem
    refine .inr (.of_advance .acquireSettlement hw ?_ rfl)
    cases hs : w.stage <;> simp_all [advance, Stage.settlementOpen, Stage.works]
  · exact .inl fun w hw => by simpa using fun h => hopen ⟨w, hw, h⟩

/-- What is left of an item when nothing but its fence or a slot is in its way. -/
inductive Parked (w : Work) : Prop
  | returned (h : w.stage.returned = true)
  | acknowledged (hs : w.stage = .acknowledged) (haborted : w.aborted = false)
  | slotWait (hs : w.stage = .slotWait) (haborted : w.aborted = false)
  | queued (hs : w.stage = .queued)

theorem allOf_closed (hclosed : ∀ w ∈ s.works, w.stage.settlementOpen = false) (numbers : List ℕ) :
    s.allOf numbers (!·.stage.settlementOpen) = true := by
  refine all_eq_true.mpr fun i _ => ?_
  cases hw : s.works[i]? with
  | none => rfl
  | some w => rw [Option.all_some, hclosed w (mem_of_getElem? hw)]; rfl

theorem parked_or_enabled (hord : Ordered s) (htidy : ∀ i w, s.works[i]? = some w → Tidy s i w)
    (hquiet : Quiescent s) (hclosed : ∀ w ∈ s.works, w.stage.settlementOpen = false) (hw : s.works[i]? = some w) :
    Parked w ∨ Enabled cap s := by
  have hmem := mem_of_getElem? hw
  have hidle := hquiet.idle w hmem
  have hclose := hclosed w hmem
  have habandon : w.aborted = true →
      (w.stage = .accepted ∨ w.stage = .acknowledged ∨ w.stage = .slotWait) → Enabled cap s := by
    intro haborted hs
    refine .of_advance .abandon hw ?_ rfl
    rcases hs with hs | hs | hs <;> simp [advance, haborted, hs]
  cases hs : w.stage with
  | accepted => exact .inr (habandon (hquiet.acknowledged w hmem hs) (.inl hs))
  | acknowledged =>
    cases haborted : w.aborted with
    | true => exact .inr (habandon haborted (.inr (.inl hs)))
    | false => exact .inl (.acknowledged hs haborted)
  | slotWait =>
    cases haborted : w.aborted with
    | true => exact .inr (habandon haborted (.inr (.inr hs)))
    | false => exact .inl (.slotWait hs haborted)
  | starting => exact .inr (enabled_of_starting hord htidy hquiet hw hs)
  | reported retained =>
    refine .inr (.of_advance .returns hw ?_ rfl)
    simp [advance, hs]
  | awaitingDisposition => exact absurd hs (hquiet.disposed w hmem)
  | reconciling =>
    refine .inr (.of_advance (.reconcile false) hw ?_ rfl)
    simp [advance, hs, allOf_closed hclosed]
  | queued => exact .inl (.queued hs)
  | holding => exact .inr (enabled_of_holding hord htidy hquiet hw hs)
  | ended | leaked => exact .inl (.returned (by rw [hs]; rfl))
  | running | hookRunning | detachedHook | settling => simp [hs, Stage.works] at hidle
  | settleWait | detachedWait => simp [hs, Stage.settlementOpen] at hclose

theorem no_abortedAttempts (htidy : ∀ i w, s.works[i]? = some w → Tidy s i w)
    (hparked : ∀ w ∈ s.works, Parked w) : s.abortedAttempts w = [] := by
  refine filter_eq_nil_iff.mpr fun i _ => ?_
  cases hv : s.works[i]? with
  | none => simp
  | some v =>
    rcases hparked v (mem_of_getElem? hv) with hreturned | ⟨-, haborted⟩ | ⟨-, haborted⟩ | hs
    · simp [Work.inflight, hreturned]
    · simp [haborted]
    · simp [haborted]
    · have hhandoff := (htidy i v hv).handoff (by rw [hs]; rfl)
      simp [Work.inflight, hhandoff]

theorem enabled_of_parked (hord : Ordered s) (htidy : ∀ i w, s.works[i]? = some w → Tidy s i w)
    (hspare : s.hasSpareExecutionCapacity cap = true)
    (hclosed : ∀ w ∈ s.works, w.stage.settlementOpen = false) (hparked : ∀ w ∈ s.works, Parked w)
    (hopen : ∃ w ∈ s.works, w.unfinished = true) : Enabled cap s := by
  have hex : ∃ i, i < s.works.length ∧ s.fences.resolved i = false := by
    obtain ⟨w, hmem, hunfinished⟩ := hopen
    obtain ⟨i, hw⟩ := List.mem_iff_getElem?.mp hmem
    refine ⟨i, (List.getElem?_eq_some_iff.mp hw).1, Bool.eq_false_iff.mpr fun hr => ?_⟩
    have hreturned := hord.resolved i w hw hr
    have hclose := hclosed w hmem
    cases hs : w.stage <;> simp_all [Stage.returned, Stage.settlementOpen, Work.unfinished]
  obtain ⟨hlt, hunresolved⟩ := Nat.find_spec hex
  have hclear : s.fences.clear (Nat.find hex) = true := by
    refine hord.chained.clear_of_earlier (by rw [hord.length_eq]; exact hlt) fun k hk => ?_
    have hmin := Nat.find_min hex hk
    simpa [Nat.lt_trans hk hlt] using hmin
  generalize Nat.find hex = i at hlt hunresolved hclear
  have hw := List.getElem?_eq_getElem hlt
  rcases hparked _ (getElem_mem hlt) with hreturned | ⟨hs, haborted⟩ | ⟨hs, haborted⟩ | hs
  · refine ⟨.finishTargetWork, i, ?_, rfl⟩
    simp [DaemonLoop.next, hw, hreturned, hunresolved, hclear]
  · refine .of_advance .passFence hw ?_ rfl
    simp [advance, hs, haborted, allOf_closed hclosed, hclear]
  · refine .of_advance .acquireExecutionSlot hw ?_ ?_
    · simp [advance, hs, haborted, hspare]
    · rw [careful, hw, Option.all_some, no_abortedAttempts htidy hparked]
      rfl
  · refine .of_advance .startHandoff hw ?_ hclear
    simp [advance, hs, hspare, (htidy i _ hw).queued hs]

theorem enabled_of_quiescent (hmax : 0 < cap) (hord : Ordered s)
    (htidy : ∀ i w, s.works[i]? = some w → Tidy s i w) (hquiet : Quiescent s)
    (hopen : ∃ w ∈ s.works, w.unfinished = true) : Enabled cap s := by
  rcases spare_or_enabled hord htidy hquiet hmax with hspare | henabled
  · rcases closed_or_enabled hquiet hspare with hclosed | henabled
    · by_contra hno
      refine hno (enabled_of_parked hord htidy hspare hclosed (fun w hw => ?_) hopen)
      obtain ⟨i, hi⟩ := List.mem_iff_getElem?.mp hw
      exact (parked_or_enabled hord htidy hquiet hclosed hi).resolve_right hno
    · exact henabled
  · exact henabled

/-- **No deadlock between slots and targets**, in runs of careful steps. -/
theorem slots_never_deadlock {maxConcurrentAssignments : ℕ} {s : DaemonLoop} (hmax : 0 < maxConcurrentAssignments)
    (h : ((daemon maxConcurrentAssignments).restrict fun s e => s.careful e = true).Reachable s) :
    (∀ (i : ℕ) (w : Work), s.works[i]? = some w → w.stage = .holding → s.fences.clear i = true) ∧
    (Quiescent s → (∃ w ∈ s.works, w.unfinished = true) →
      ∃ waiting i, (s.next maxConcurrentAssignments (.step waiting i)).isSome = true ∧
        s.careful (.step waiting i) = true) :=
  ⟨fun i w hw => (tidy_reachable h i w hw).holding,
    enabled_of_quiescent hmax (ordered_reachable h.of_restrict) (tidy_reachable h)⟩

/-! ## Runs -/

def assignWorktree (sessionId attemptId worktreeId : String) : Event :=
  .assign { sessionId, attemptId, repositoryId := some "r", worktreeId := some worktreeId } false

def runAssignment (i : ℕ) : List Event :=
  [.acknowledged i, .step .passFence i, .step .acquireExecutionSlot i, .step .claim i]

def handoffOf (worktreeId : Option String) : Event :=
  .terminalHook { handoffId := "h", sessionId := "s", repositoryId := "r", worktreeId } false

def handoffLeavesSlot : List Event :=
  [assignWorktree "a" "1" "w", handoffOf (some "w"), .step (.reconcile false) 1, .acknowledged 0, .step .passFence 0]

theorem slots_never_deadlock_handoff : ∃ s, ((daemon 1).restrict fun s e => s.careful e = true).Reachable s ∧
      s.works.map (·.stage) = [.slotWait, .queued] ∧ Quiescent s ∧
      ∃ waiting i, (s.next 1 (.step waiting i)).isSome = true ∧ s.careful (.step waiting i) = true := by
  have hrun : (handoffLeavesSlot.foldlM (nextCareful 1) {}).map (fun s => s.works.map (·.stage)) =
      some [.slotWait, .queued] := by
    decide +kernel
  obtain ⟨s, hs, hstages⟩ := Option.map_eq_some_iff.mp hrun
  have hreach : ((daemon 1).restrict fun s e => s.careful e = true).Reachable s := by
    refine System.Reachable.foldlM (fun s e s' h => ?_) (.init rfl) hs
    unfold nextCareful at h
    split_ifs at h with hcareful
    exact ⟨hcareful, h⟩
  have hstage : ∀ w ∈ s.works, w.stage = .slotWait ∨ w.stage = .queued := fun w hw => by
    have hmem : w.stage ∈ s.works.map (·.stage) := mem_map_of_mem hw
    simpa [hstages] using hmem
  have hquiet : Quiescent s := by
    refine ⟨fun w hw => ?_, fun w hw => ?_, fun w hw => ?_⟩ <;> rcases hstage w hw with h | h <;> simp [h, Stage.works]
  have hne : s.works ≠ [] := fun h => by simp [h] at hstages
  obtain ⟨w, hw⟩ := exists_mem_of_ne_nil _ hne
  have hopen : w.unfinished = true := by rcases hstage w hw with h | h <;> simp [Work.unfinished, h]
  exact ⟨s, hreach, hstages, hquiet, (slots_never_deadlock (by decide) hreach).2 hquiet ⟨w, hw, hopen⟩⟩

def waitings : List Waiting :=
  [.abandon, .passFence, .acquireExecutionSlot, .claim, .claimRefused false, .claimRefused true, .returns,
    .acquireSettlement, .reconcile false, .reconcile true, .startHandoff, .claimHook, .hookRefused, .finishTargetWork]

theorem mem_waitings (waiting : Waiting) : waiting ∈ waitings := by
  rcases waiting with _ | _ | _ | _ | (_ | _) | _ | _ | (_ | _) | _ | _ | _ | _ <;> decide

def stuck (maxConcurrentAssignments : ℕ) (s : DaemonLoop) : Bool :=
  (List.range s.works.length).all fun i =>
    waitings.all fun waiting => (s.next maxConcurrentAssignments (.step waiting i)).isNone

theorem next_eq_none_of_stuck (h : stuck cap s = true) (waiting : Waiting) (i : ℕ) :
    s.next cap (.step waiting i) = none := by
  rcases Nat.lt_or_ge i s.works.length with hlt | hge
  · have hall := all_eq_true.mp h i (mem_range.mpr hlt)
    exact Option.isNone_iff_eq_none.mp (all_eq_true.mp hall waiting (mem_waitings waiting))
  · have hnone := List.getElem?_eq_none hge
    by_cases hne : waiting = .finishTargetWork
    · subst hne
      simp [DaemonLoop.next, hnone]
    · rw [next_step hne, change, hnone]
      rfl

/-- With one slot: it is taken by a handoff behind the assignment of its worktree; by an assignment behind an aborted
attempt; is awaited by an acknowledged handoff; or taken by a handoff behind a main checkout left claimed. -/
def deadlocks : List (List Event) :=
  [[assignWorktree "a" "1" "w", handoffOf (some "w"), .step (.reconcile false) 1, .step .startHandoff 1,
      .acknowledged 0, .step .passFence 0], assignWorktree "a" "1" "w" :: runAssignment 0 ++
      [assignWorktree "a" "2" "v", .acknowledged 1, .step .passFence 1, .step .acquireExecutionSlot 1,
        .processEnded 0 .deferred, .statusAcknowledged 0 false], assignWorktree "a" "1" "w" :: runAssignment 0 ++
      [handoffOf (some "v"), .step (.reconcile false) 1, .terminalHookAcknowledged "h",
        .processEnded 0 (.result false), .step .returns 0, .step .finishTargetWork 0, assignWorktree "b" "1" "v",
        .acknowledged 2],
    .assign { sessionId := "a", attemptId := "1", repositoryId := some "r", worktreeId := none } false ::
      runAssignment 0 ++
      [.processEnded 0 .deferred, .leaseUnusable 0 true, .step .finishTargetWork 0, handoffOf none,
        .step (.reconcile false) 1, .step .startHandoff 1]]

theorem slots_deadlock :
    deadlocks.map (fun run => (run.foldlM (DaemonLoop.next 1) {}).map fun s => s.works.map (·.stage)) =
      [some [.slotWait, .holding], some [.settleWait, .starting], some [.ended, .queued, .acknowledged],
        some [.leaked, .holding]] ∧
    ∀ run ∈ deadlocks, ∃ s, (daemon 1).Reachable s ∧ run.foldlM (DaemonLoop.next 1) {} = some s ∧ Quiescent s ∧
      (∃ w ∈ s.works, w.unfinished = true) ∧ ∀ waiting i, s.next 1 (.step waiting i) = none := by
  refine ⟨by decide +kernel, fun run hrun => ?_⟩
  have hall : ∀ run ∈ deadlocks, (run.foldlM (DaemonLoop.next 1) {}).any (fun s =>
      s.works.all (fun w => !w.stage.works && !(decide (w.stage = .accepted) && !w.aborted) &&
        !decide (w.stage = .awaitingDisposition)) && s.works.any (·.unfinished) && stuck 1 s) = true := by
    decide +kernel
  have hsome := hall run hrun
  cases hs : run.foldlM (DaemonLoop.next 1) {} with
  | none =>
    rw [hs] at hsome
    cases hsome
  | some s =>
    rw [hs, Option.any_some, Bool.and_eq_true, Bool.and_eq_true, all_eq_true, any_eq_true] at hsome
    obtain ⟨⟨hquiet, hopen⟩, hstuck⟩ := hsome
    refine ⟨s, System.Reachable.foldlM (fun _ _ _ h => h) (.init rfl) hs, rfl,
      ⟨fun w hw => ?_, fun w hw h => ?_, fun w hw h => ?_⟩, hopen, next_eq_none_of_stuck hstuck⟩
    · simpa using (Bool.and_eq_true_iff.mp (Bool.and_eq_true_iff.mp (hquiet w hw)).1).1
    · simpa [h] using (Bool.and_eq_true_iff.mp (Bool.and_eq_true_iff.mp (hquiet w hw)).1).2
    · simpa [h] using (Bool.and_eq_true_iff.mp (hquiet w hw)).2

end AutoHarness.Daemon.Targets

import AutoHarness.Foundation.Fences
import AutoHarness.Foundation.Transition

/-! Assignments and terminal-hook handoffs that contend for targets and slots. Each is a work item that moves from one
wait to the next; the code between two waits is one step. Shutdown and drain are not among the events. -/

namespace AutoHarness.Daemon.Targets
open Foundation

/-- What the keys of `physicalTargetKey` tell apart. -/
inductive Target
  | workspace (poolId slotId : String)
  | main (repositoryId : Option String)
  | worktree (repositoryId : Option String) (worktreeId : String)
deriving DecidableEq, Repr

structure TargetIds where
  repositoryId : Option String
  worktreeId : Option String
  workspacePoolId : Option String := none
  workspaceSlotId : Option String := none
deriving DecidableEq, Repr

/-- Empty pool and slot ids count as missing; without a worktree it is the main checkout. -/
def physicalTargetKey (input : TargetIds) : Target :=
  match input.workspacePoolId.filter (· ≠ ""), input.workspaceSlotId.filter (· ≠ "") with
  | some poolId, some slotId => .workspace poolId slotId
  | _, _ =>
    match input.worktreeId with
    | none => .main input.repositoryId
    | some worktreeId => .worktree input.repositoryId worktreeId

def Target.isMain : Target → Bool
  | .main _ => true
  | _ => false

inductive Stage
  -- the assignment: inventory refresh and acknowledgement, settlements it supersedes and target fence,
  -- execution slot, aborted attempts of its session and the claim, its process
  | accepted
  | acknowledged
  | slotWait
  | starting
  | running
  /-- `runAssign` returns once its status is sent; `retained`: it is in `pendingTerminalStatus`. -/
  | reported (retained : Bool)
  -- the hook is deferred: its status waits for the acknowledgement, its settlement for a slot, its hook runs
  | awaitingDisposition
  | settleWait
  /-- `claimed` is `claimedExecutionSlot`; `discarded` says that the status left `pendingTerminalStatus`. -/
  | settling (claimed discarded : Bool)
  -- `runAssign` returned while the settlement went on, or without any settlement
  | detachedWait
  | detachedHook
  | leaked
  -- the handoff: reconciliation with the session's statuses, execution slot, target fence and claim, its hook
  | reconciling
  | queued
  | holding
  | hookRunning
  | ended
deriving DecidableEq, Repr

namespace Stage

/-- The work is off the target's fence: `runAssign` or `runTerminalHookHandoff` is over. -/
def returned : Stage → Bool
  | .ended | .detachedWait | .detachedHook | .leaked => true
  | _ => false

def holdsClaim : Stage → Bool
  | .running | .awaitingDisposition | .settleWait | .settling _ _ | .detachedWait | .detachedHook | .leaked
  | .hookRunning => true
  | _ => false

/-- Something of the attempt runs on the target. -/
def works : Stage → Bool
  | .running | .settling _ _ | .detachedHook | .hookRunning => true
  | _ => false

/-- Behind the fence, before the claim. -/
def passedFence : Stage → Bool
  | .slotWait | .starting => true
  | _ => false

/-- The status is still in `pendingTerminalStatus` and its hook is being settled. -/
def settlementFound : Stage → Bool
  | .settleWait | .settling _ false => true
  | _ => false

/-- The promise of the settlement is open, whether or not the status is still found. -/
def settlementOpen : Stage → Bool
  | .settleWait | .settling _ _ | .detachedWait | .detachedHook => true
  | _ => false

end Stage

/-- Who works on a target. -/
inductive Party
  | assignment (attemptId : String)
  | handoff (handoffId : String)
deriving DecidableEq, Repr

/-- An assignment or a handoff, from its message to its end. -/
structure Work where
  party : Party
  sessionId : String
  target : Target
  stage : Stage
  /-- The assignment's controller was aborted. -/
  aborted : Bool := false
  /-- The handoff left `pendingTerminalHookHandoffs`. -/
  removed : Bool := false
  /-- The work items whose promises the present wait is for. -/
  awaits : List ℕ := []
  /-- The target was claimed. -/
  began : Bool := false
deriving DecidableEq, Repr

namespace Work

def isAssignment (w : Work) : Bool :=
  match w.party with
  | .assignment _ => true
  | .handoff _ => false

/-- The entry of `inflight`. -/
def inflight (w : Work) : Bool :=
  w.isAssignment && !w.stage.returned

def isAttempt (w : Work) (sessionId attemptId : String) : Bool :=
  w.inflight && decide (w.sessionId = sessionId) && decide (w.party = .assignment attemptId)

def isOtherAttempt (w : Work) (sessionId attemptId : String) : Bool :=
  w.inflight && decide (w.sessionId = sessionId) && !decide (w.party = .assignment attemptId)

/-- The entry of `pendingTerminalHookHandoffs`; a finished handoff stays until it is acknowledged. -/
def isPendingHandoff (w : Work) (handoffId : String) : Bool :=
  !w.removed && decide (w.party = .handoff handoffId)

/-- What `executingAssignmentCount` counts: the entry of `inflight`, or the orphaned settlement. -/
def occupiesSlot (w : Work) : Bool :=
  match w.stage with
  | .starting | .running => !w.aborted
  | .reported retained => !retained && !w.aborted
  | .settling claimed discarded => !w.aborted || (claimed && !discarded)
  | _ => false

/-- What `activeAssignmentCount` counts. -/
def active (w : Work) : Bool :=
  match w.stage with
  | .accepted | .acknowledged | .slotWait => !w.aborted
  | _ => w.occupiesSlot

def isActiveHandoff (w : Work) : Bool :=
  match w.stage with
  | .holding | .hookRunning => true
  | _ => false

end Work

structure DaemonLoop where
  works : List Work := []
  /-- `worktreeAssignmentTails` and the promises in it. -/
  fences : FenceChain Target := {}

/-- `session:assign`. -/
structure SessionAssign extends TargetIds where
  sessionId : String
  attemptId : String
deriving DecidableEq, Repr

/-- `session:terminal-hook`. -/
structure SessionTerminalHook where
  handoffId : String
  sessionId : String
  repositoryId : String
  worktreeId : Option String
deriving DecidableEq, Repr

/-- How `runner.run` ends after the claim. -/
inductive Ending
  | result (retained : Bool)
  | deferred
  | thrown
deriving DecidableEq, Repr

inductive Waiting
  | abandon
  | passFence
  | acquireExecutionSlot
  | claim
  | claimRefused (retained : Bool)
  | returns
  | acquireSettlement
  | reconcile (matched : Bool)
  | startHandoff
  | claimHook
  | hookRefused
  | finishTargetWork
deriving DecidableEq, Repr

/-- As far as they concern the work item `i`; and the daemon's own steps. -/
inductive Event
  | assign (msg : SessionAssign) (retryBufferFull : Bool)
  | cancel (sessionId : String) (attemptId : Option String)
  | abortInflight (unacknowledgedOnly : Bool)
  | acknowledged (i : ℕ)
  | unacknowledged (i : ℕ)
  | startTimedOut (i : ℕ) (retained : Bool)
  | processEnded (i : ℕ) (ending : Ending)
  | statusAcknowledged (i : ℕ) (retryAccepted : Bool)
  | leaseUnusable (i : ℕ) (sent : Bool)
  | statusExpired (i : ℕ)
  | hookEnded (i : ℕ)
  | terminalHook (msg : SessionTerminalHook) (bufferFull : Bool)
  | terminalHookAcknowledged (handoffId : String)
  | handoffExpired (i : ℕ)
  | expiredAtFence (i : ℕ)
  | step (waiting : Waiting) (i : ℕ)
deriving DecidableEq, Repr

namespace DaemonLoop

def executingAssignmentCount (s : DaemonLoop) : ℕ :=
  s.works.countP (·.occupiesSlot)

def activeAssignmentCount (s : DaemonLoop) : ℕ :=
  s.works.countP (·.active)

def activeTerminalHookHandoffs (s : DaemonLoop) : ℕ :=
  s.works.countP (·.isActiveHandoff)

def hasSpareExecutionCapacity (s : DaemonLoop) (maxConcurrentAssignments : ℕ) : Bool :=
  decide (s.executingAssignmentCount + s.activeTerminalHookHandoffs < maxConcurrentAssignments)

/-- Nobody holds the target. -/
def unclaimed (s : DaemonLoop) (target : Target) : Bool :=
  s.works.all fun w => !(w.stage.holdsClaim && decide (w.target = target))

/-- The work items that meet `p`, by their numbers. -/
def numbers (s : DaemonLoop) (p : Work → Bool) : List ℕ :=
  (List.range s.works.length).filter fun i => s.works[i]?.any p

/-- Each of the works numbered in the list meets `p`. -/
def allOf (s : DaemonLoop) (numbers : List ℕ) (p : Work → Bool) : Bool :=
  numbers.all fun i => s.works[i]?.all p

def each (s : DaemonLoop) (f : Work → Work) : DaemonLoop :=
  { s with works := s.works.map f }

def change (s : DaemonLoop) (i : ℕ) (f : Work → Option Work) : Option DaemonLoop := do
  let w ← s.works[i]?
  let w' ← f w
  return { s with works := s.works.set i w' }

/-- New work queues behind the fence of its target. -/
def reserve (s : DaemonLoop) (w : Work) : DaemonLoop where
  works := s.works ++ [w]
  fences := s.fences.join w.target

/-- An abort is never taken back. -/
def abortWhere (p : Work → Bool) (w : Work) : Work :=
  { w with aborted := w.aborted || p w }

def abortSupersededAttempts (s : DaemonLoop) (sessionId attemptId : String) : DaemonLoop :=
  s.each (abortWhere (·.isOtherAttempt sessionId attemptId))

/-- A retained status of the session is dropped: a hook that has not started is settled without running. -/
def discardStatus (sessionId : String) (w : Work) : Work :=
  if w.isAssignment && decide (w.sessionId = sessionId) then
    match w.stage with
    | .reported _ | .awaitingDisposition | .settleWait => { w with stage := .reported false }
    | .settling claimed _ => { w with stage := .settling claimed true }
    | _ => w
  else w

def discardSupersededTerminalStatuses (s : DaemonLoop) (sessionId : String) : DaemonLoop :=
  s.each (discardStatus sessionId)

/-- A repeated assignment changes nothing; a refused one has still aborted other attempts. -/
def handleAssign (s : DaemonLoop) (maxConcurrentAssignments : ℕ) (msg : SessionAssign) (retryBufferFull : Bool) :
    DaemonLoop :=
  if s.works.any (·.isAttempt msg.sessionId msg.attemptId) then s
  else
    let s₁ := s.abortSupersededAttempts msg.sessionId msg.attemptId
    if maxConcurrentAssignments ≤ s₁.activeAssignmentCount + s₁.activeTerminalHookHandoffs || retryBufferFull then s₁
    else
      let s₂ := s₁.discardSupersededTerminalStatuses msg.sessionId
      s₂.reserve
        { party := .assignment msg.attemptId
          sessionId := msg.sessionId
          target := physicalTargetKey msg.toTargetIds
          stage := .accepted
          -- the settlements of the statuses that are discarded here
          awaits := s₁.numbers fun w =>
            w.isAssignment && decide (w.sessionId = msg.sessionId) && w.stage.settlementFound }

/-- Without an attempt id every attempt of the session is aborted. -/
def handleCancel (s : DaemonLoop) (sessionId : String) : Option String → DaemonLoop
  | some attemptId => s.each (abortWhere (·.isAttempt sessionId attemptId))
  | none => s.each (abortWhere fun w => w.inflight && decide (w.sessionId = sessionId))

/-- The status of a deferred hook of the session that nobody settles yet runs its hook for the handoff. -/
def settleForHandoff (sessionId : String) (w : Work) : Work :=
  if w.isAssignment && decide (w.sessionId = sessionId) && decide (w.stage = .awaitingDisposition) then
    { w with stage := .settling false false }
  else w

def handleTerminalHookHandoff (s : DaemonLoop) (msg : SessionTerminalHook) (bufferFull : Bool) : DaemonLoop :=
  if s.works.any (·.isPendingHandoff msg.handoffId) || bufferFull then s
  else
    let s₁ := s.each (settleForHandoff msg.sessionId)
    s₁.reserve
      { party := .handoff msg.handoffId
        sessionId := msg.sessionId
        target := physicalTargetKey { repositoryId := some msg.repositoryId, worktreeId := msg.worktreeId }
        stage := .reconciling
        awaits := s₁.numbers fun w =>
          w.isAssignment && decide (w.sessionId = msg.sessionId) && w.stage.settlementFound }

/-- The aborted attempts that `waitForAbortedAttempts` finds. -/
def abortedAttempts (s : DaemonLoop) (w : Work) : List ℕ :=
  s.numbers fun v =>
    v.inflight && v.aborted && decide (v.sessionId = w.sessionId) && !decide (v.party = w.party)

/-- `runner.run` may give up the claim at once; only for a main checkout does it wait. -/
def mayRefuse (s : DaemonLoop) (w : Work) : Bool :=
  !w.target.isMain || w.aborted || s.unclaimed w.target

/-- One step of the work item `i` past its wait. -/
def advance (s : DaemonLoop) (maxConcurrentAssignments i : ℕ) (w : Work) : Waiting → Option Work
  | .abandon =>
    if w.aborted && (w.stage = .accepted || w.stage = .acknowledged || w.stage = .slotWait) then
      some { w with stage := .ended }
    else none
  | .passFence =>
    if w.stage = .acknowledged && !w.aborted && s.allOf w.awaits (!·.stage.settlementOpen) && s.fences.clear i then
      some { w with stage := .slotWait }
    else none
  | .acquireExecutionSlot =>
    if w.stage = .slotWait && !w.aborted && s.hasSpareExecutionCapacity maxConcurrentAssignments then
      some { w with stage := .starting, awaits := s.abortedAttempts w }
    else none
  | .claim =>
    if w.stage = .starting && !w.aborted && s.allOf w.awaits (·.stage.returned) && s.unclaimed w.target then
      some { w with stage := .running, began := true }
    else none
  | .claimRefused retained =>
    if w.stage = .starting && s.allOf w.awaits (·.stage.returned) && s.mayRefuse w then
      some { w with stage := .reported retained }
    else none
  | .returns =>
    match w.stage with
    | .reported _ => some { w with stage := .ended }
    | _ => none
  | .acquireSettlement =>
    if s.hasSpareExecutionCapacity maxConcurrentAssignments then
      match w.stage with
      | .settleWait => some { w with stage := .settling true false }
      | .detachedWait => some { w with stage := .detachedHook }
      | _ => none
    else none
  | .reconcile matched =>
    if w.stage = .reconciling && s.allOf w.awaits (!·.stage.settlementOpen) then
      some { w with stage := if w.removed || matched then .ended else .queued }
    else none
  | .startHandoff =>
    if w.stage = .queued && !w.removed && s.hasSpareExecutionCapacity maxConcurrentAssignments then
      some { w with stage := .holding }
    else none
  | .claimHook =>
    if w.stage = .holding && s.fences.clear i && s.unclaimed w.target then
      some { w with stage := .hookRunning, began := true }
    else none
  | .hookRefused =>
    if w.stage = .holding && s.fences.clear i && s.mayRefuse w then some { w with stage := .ended } else none
  | .finishTargetWork => none

/-- The status leaves `pendingTerminalStatus` and its hook is settled without running, or runs on. -/
def withoutStatus (w : Work) : Option Work :=
  match w.stage with
  | .reported true | .awaitingDisposition | .settleWait => some { w with stage := .reported false }
  | .settling claimed false => some { w with stage := .settling claimed true }
  | _ => none

def next (maxConcurrentAssignments : ℕ) (s : DaemonLoop) : Event → Option DaemonLoop
  | .assign msg retryBufferFull => some (s.handleAssign maxConcurrentAssignments msg retryBufferFull)
  | .cancel sessionId attemptId => some (s.handleCancel sessionId attemptId)
  | .abortInflight unacknowledgedOnly =>
    some (s.each (abortWhere fun w => w.inflight && (!unacknowledgedOnly || decide (w.stage = .accepted))))
  | .acknowledged i =>
    s.change i fun w =>
      if w.stage = .accepted && !w.aborted then some { w with stage := .acknowledged } else none
  | .unacknowledged i =>
    s.change i fun w => if w.stage = .accepted then some { w with stage := .ended } else none
  | .startTimedOut i retained =>
    s.change i fun w =>
      if w.stage = .starting && s.allOf w.awaits (·.stage.returned) then
        some { w with stage := .reported retained }
      else none
  | .processEnded i ending =>
    s.change i fun w =>
      if w.stage = .running then
        match ending, w.target with
        | .result retained, _ => some { w with stage := .reported retained }
        | .thrown, _ => some { w with stage := .ended }
        -- a workspace session defers no hook
        | .deferred, .workspace _ _ => none
        | .deferred, _ => some { w with stage := .awaitingDisposition }
      else none
  | .statusAcknowledged i retryAccepted =>
    s.change i fun w =>
      match w.stage with
      | .reported true => some { w with stage := .reported false }
      | .awaitingDisposition => some { w with stage := if retryAccepted then .reported false else .settleWait }
      | _ => none
  -- an acknowledgement whose handoff lease cannot authorize the hook; before the status send has settled,
  -- `runAssign` finds its status gone and settles the hook itself
  | .leaseUnusable i sent =>
    s.change i fun w =>
      match w.stage, sent with
      | .awaitingDisposition, false | .settleWait, false => some { w with stage := .settling false true }
      | .settling claimed false, false => some { w with stage := .settling claimed true }
      | .awaitingDisposition, true => some { w with stage := .leaked }
      | .settleWait, true => some { w with stage := .detachedWait }
      | .settling _ false, true => some { w with stage := .detachedHook }
      | _, _ => none
  | .statusExpired i => s.change i withoutStatus
  | .hookEnded i =>
    s.change i fun w =>
      match w.stage with
      | .settling _ _ => some { w with stage := .reported false }
      | .hookRunning | .detachedHook => some { w with stage := .ended }
      | _ => none
  | .terminalHook msg bufferFull => some (s.handleTerminalHookHandoff msg bufferFull)
  | .terminalHookAcknowledged handoffId =>
    some (s.each fun w => { w with removed := w.removed || w.isPendingHandoff handoffId })
  | .handoffExpired i =>
    s.change i fun w =>
      match w.stage with
      | .reconciling | .queued => if w.removed then none else some { w with stage := .ended, removed := true }
      | .holding | .hookRunning => some { w with removed := true }
      | .ended => if w.isAssignment then none else some { w with removed := true }
      | _ => none
  | .expiredAtFence i =>
    s.change i fun w =>
      if w.stage = .holding && s.fences.clear i then some { w with stage := .ended, removed := true } else none
  | .step .finishTargetWork i =>
    if s.works[i]?.any (·.stage.returned) && !s.fences.resolved i && s.fences.clear i then
      some { s with fences := s.fences.resolve i }
    else none
  | .step waiting i => s.change i fun w => s.advance maxConcurrentAssignments i w waiting

end DaemonLoop

def daemon (maxConcurrentAssignments : ℕ) : System DaemonLoop Event where
  init s := s = {}
  step s e s' := s.next maxConcurrentAssignments e = some s'

end AutoHarness.Daemon.Targets

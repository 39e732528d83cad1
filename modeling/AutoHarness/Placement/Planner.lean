import Mathlib.Data.List.Dedup
import AutoHarness.Placement.Routes

/-! Placement of queued prompt sessions: the worktrees that may take one, and the plan for it. -/

namespace AutoHarness.Placement
open Foundation Store List

def HOST_PROTOCOL_VERSION : ℕ := 7

def DEFAULT_MAX_CONCURRENT_SESSIONS : ℕ := 1

namespace PlacementState

variable (state : PlacementState)

def connectionOf (hostId : String) : Option ConnectionRecord :=
  (given (state.hostConnection hostId)).bind state.connections

/-! ## Hosts -/

def hostGitReady (hostId : String) : Bool :=
  (((state.hostConnection hostId).bind state.connections).bind (·.runtime)).any (·.gitReady)

/-- The host speaks the current protocol. -/
def hostAcceptsNewAssignments (hostId : String) : Bool :=
  (state.connectionOf hostId).any fun c =>
    (c.negotiatedProtocolVersion.or c.protocolVersion) == some HOST_PROTOCOL_VERSION

/-- The required names that the host's runtime lacks. Where names are folded, `String.toUpper` stands for
`toUpperCase`: the two agree on ASCII names. -/
def missingEnvironment (hostId repositoryId : String) : List String :=
  let inventory := state.hostInventories hostId
  let repository := inventory.bind fun i => i.repositories.find? (·.id == repositoryId)
  let required := (inventory.elim [] (·.requiredEnvironment)) ++ (repository.elim [] (·.requiredEnvironment))
  let runtime := match given (state.hostConnection hostId) with
    | some connectionId => (state.connections connectionId).bind (·.runtime)
    | none => inventory.bind (·.runtime)
  let caseSensitive := (runtime.bind (·.environmentNamesCaseSensitive)) != some false
  let fold := fun name : String => if caseSensitive then name else name.toUpper
  let available := (runtime.elim [] (·.environmentNames)).map fold
  required.eraseDups.filter fun name => !available.contains (fold name)

def hostEnvironmentReady (hostId repositoryId : String) : Bool :=
  (state.missingEnvironment hostId repositoryId).isEmpty

def hostProviderAccountReady (hostId : String) (providerAccountId : Option String) : Bool :=
  (given providerAccountId).all fun id =>
    (state.connectionOf hostId).any fun c =>
      c.providerAccountReadiness.any fun e => e.providerAccountId == id && e.ready

/-! ## Capacity -/

/-- What a session occupies on a host, so that it counts once. -/
inductive OccupancyKey where
  | worktree (id : String)
  | mainCheckout (repositoryId : String)
  | workspaceSlot (id : String)
  | session (id : String)
deriving DecidableEq

def hostOccupancyKey (id : String) (session : SessionRow) : OccupancyKey :=
  match given session.worktreeId.toOption with
  | some worktreeId => .worktree worktreeId
  | none =>
    if session.mainCheckoutLease then .mainCheckout session.repositoryId
    else
      match given session.workspaceSlotId.toOption with
      | some slotId => .workspaceSlot slotId
      | none => .session id

def sessionHoldsHostAssignment (session : SessionRow) (hostId : String) : Bool :=
  given session.hostId.toOption == some hostId &&
    (session.status == .running || session.providerAccountLease.isSome || session.worktreeId.toOption.isSome ||
      session.mainCheckoutLease || session.workspaceSlotLease)

def hostOccupancy (hostId : String) : List OccupancyKey :=
  ((state.sessions.entries.filter fun e => sessionHoldsHostAssignment e.2 hostId).map fun e =>
      hostOccupancyKey e.1 e.2) ++
    ((state.worktrees.filter fun w =>
        w.hostId == hostId && (w.status == .busy || (given w.currentSessionId).isSome)).map fun w =>
      OccupancyKey.worktree w.id) ++
    ((state.workspaceSlots.filter fun s =>
        s.hostId == hostId && (s.status == .busy || (given s.currentSessionId).isSome)).map fun s =>
      OccupancyKey.workspaceSlot s.id) ++
    (state.mainCheckoutLeases.filter (·.1 == hostId)).map fun key => OccupancyKey.mainCheckout key.2

/-- Each resource counts once. -/
def hostAssignmentOccupancyCount (hostId : String) : ℕ := (state.hostOccupancy hostId).dedup.length

/-- A host without a cap always has. -/
def hostHasAssignmentCapacity (hostId : String) : Bool :=
  ((state.connectionOf hostId).bind (·.maxConcurrentAssignments)).all fun cap =>
    decide (state.hostAssignmentOccupancyCount hostId < cap)

def maxConcurrentSessionsFor (account : Option ProviderAccount) : ℕ :=
  (account.bind (·.maxConcurrentSessions)).getD DEFAULT_MAX_CONCURRENT_SESSIONS

/-- The cached leases are beyond the cap. -/
def accountHasLeaseCapacityOverCap (providerAccountId : String) : Bool :=
  let max := maxConcurrentSessionsFor (state.providerAccounts.get? providerAccountId)
  let leases := (state.providerAccountLeases.entries.map Prod.snd).filter (·.providerAccountId == providerAccountId)
  leases.any (fun lease => decide (max ≤ lease.slot)) || decide (max < (leases.map (·.sessionId)).dedup.length)

def sessionOccupiesProviderAccountLease (session : SessionRow) : Bool :=
  session.providerAccountLease.isSome &&
    (session.status == .running || (session.status == .cancelled && session.hostId.toOption.isSome) ||
      (session.status == .timedOut && session.timedOutHostId.isSome))

/-- By its lease or by its route. -/
def sessionCountsForAccount (providerAccountId : String) (session : SessionRow) : Bool :=
  (sessionOccupiesProviderAccountLease session &&
      session.providerAccountLease.any (·.providerAccountId == providerAccountId)) ||
    ((session.status == .running || (session.status == .cancelled && session.hostId.toOption.isSome)) &&
      (session.resolvedRoute.bind (·.providerAccountId)) == some providerAccountId)

def accountHasLeaseCapacityFromReadModel (providerAccountId : String) : Bool :=
  let holders :=
    (((state.providerAccountLeases.entries.map Prod.snd).filter (·.providerAccountId == providerAccountId)).map
        (·.sessionId)) ++
      (state.sessions.entries.filter fun e => sessionCountsForAccount providerAccountId e.2).map Prod.fst
  decide (holders.dedup.length < maxConcurrentSessionsFor (state.providerAccounts.get? providerAccountId))

/-- With a store the lock decides later; only an exceeded cap is refused here. -/
def accountHasLeaseCapacity (providerAccountId : Option String) : Bool :=
  (given providerAccountId).all fun id =>
    if state.storage then !state.accountHasLeaseCapacityOverCap id
    else state.accountHasLeaseCapacityFromReadModel id

/-! ## Worktrees -/

def isSchedulableWorktree (worktree : WorktreeRecord) (repositoryId : Option String) : Bool :=
  repositoryId.all (worktree.repositoryId == ·) && worktree.status == .idle && worktree.online &&
    state.hostGitReady worktree.hostId && state.hostAcceptsNewAssignments worktree.hostId &&
    state.hostHasAssignmentCapacity worktree.hostId &&
    state.hostEnvironmentReady worktree.hostId worktree.repositoryId &&
    !state.drainingHosts.contains worktree.hostId && !state.disconnectedHosts.contains worktree.hostId

def eligibleIdleWorktrees (session : PromptSession) : List WorktreeRecord :=
  state.worktrees.filter fun worktree =>
    state.isSchedulableWorktree worktree (some session.repositoryId) &&
      session.requiredLabels.all worktree.labels.contains

end PlacementState

/-! ## The plan -/

inductive PlacementWaitReason where
  | queueExpired | admissionClosed | admissionDraining | alreadyAssigned | noIdleWorktree | noEligibleHost
  | noEligibleRoute
deriving DecidableEq, Repr

/-- What the assigner is to do with a queued session. -/
inductive PromptPlacementPlan where
  | expire
  | skip (reason : PlacementWaitReason)
  | clearPin
  | assign (candidates : List (WorktreeRecord × ResolvedSessionRoute))
deriving DecidableEq

/-- Admission checks are security fences: malformed persisted state is closed, never open. -/
def repositoryAdmissionOpen (value : Option String) : Bool := value == some "active"

def queueExpired (session : PromptSession) (nowMs : Timestamp) : Bool := decide (session.queueExpiresAt ≤ nowMs)

def pinExpired (session : PromptSession) (nowMs : Timestamp) : Bool :=
  session.pinExpiresAt.any fun expiry => decide (expiry < nowMs)

/-- A host acknowledged the session. -/
def alreadyAssigned (session : PromptSession) : Bool :=
  (given session.hostId).isSome && (given session.worktreeId).isSome && session.ackReceivedAt.isSome

section Plan

variable (localeCompare : String → String → Ordering) (state : PlacementState) (catalog : ProviderCatalog)

def compareWorktreesForRoundRobin (a b : WorktreeRecord) : Ordering :=
  (localeCompare (a.lastAssignedAt.getD "") (b.lastAssignedAt.getD "")).then (localeCompare a.id b.id)

def eligibleRoutes (session : PromptSession) (worktrees : List WorktreeRecord) (nowMs : Timestamp)
    (targetIndex : ℕ) : List (WorktreeRecord × ResolvedSessionRoute) :=
  let assignedAt := fun route : ResolvedSessionRoute =>
    ((given route.providerAccountId).bind fun id =>
      (state.providerAccounts.get? id).bind (·.lastAssignedAt)).getD ""
  (worktrees.flatMap fun candidate =>
    (resolveSessionTargetRoutesAt localeCompare state catalog session candidate nowMs targetIndex).map
      fun route => (candidate, route)).insertionSort fun left right =>
        (localeCompare (assignedAt left.2) (assignedAt right.2)).then
          (compareWorktreesForRoundRobin localeCompare left.1 right.1) ≠ .gt

/-- The pinned entry has a route here, and its account is ready. -/
def pinnedRouteReady (session : PromptSession) (nowMs : Timestamp) (candidate : WorktreeRecord) : Bool :=
  session.pinnedTargetIndex.any fun targetIndex =>
    (resolveSessionTargetRouteAt localeCompare state catalog session candidate nowMs targetIndex).any fun route =>
      state.hostProviderAccountReady candidate.hostId route.providerAccountId

/-- All routes of an entry before those of the next. -/
def planCandidates (session : PromptSession) (idle : List WorktreeRecord) (nowMs : Timestamp) :
    List (WorktreeRecord × ResolvedSessionRoute) :=
  (List.range (session.fallbacks.length + 1)).flatMap fun targetIndex =>
    (eligibleRoutes localeCompare state catalog session idle nowMs targetIndex).filter fun candidate =>
      state.hostProviderAccountReady candidate.1.hostId candidate.2.providerAccountId &&
        state.accountHasLeaseCapacity candidate.2.providerAccountId

/-- Without a candidate the reason says whether a worktree was idle. -/
def placeOn (session : PromptSession) (idle : List WorktreeRecord) (nowMs : Timestamp) : PromptPlacementPlan :=
  let idle := idle.insertionSort fun a b => compareWorktreesForRoundRobin localeCompare a b ≠ .gt
  match planCandidates localeCompare state catalog session idle nowMs with
  | [] => .skip (if idle.length = 0 then .noIdleWorktree else .noEligibleRoute)
  | candidates => .assign candidates

def planPromptPlacement (session : PromptSession) (nowMs : Timestamp) : PromptPlacementPlan :=
  if queueExpired session nowMs then .expire
  else if !repositoryAdmissionOpen (state.repositories session.repositoryId) then .skip .admissionClosed
  else if alreadyAssigned session then .skip .alreadyAssigned
  else
    let idle := state.eligibleIdleWorktrees session
    match given session.pinnedHostId with
    | some pinnedHostId =>
      if pinExpired session nowMs then .clearPin
      else
        let idle := idle.filter (·.hostId == pinnedHostId)
        if idle.any (pinnedRouteReady localeCompare state catalog session nowMs) then
          placeOn localeCompare state catalog session idle nowMs
        else .clearPin
    | none => placeOn localeCompare state catalog session idle nowMs

variable {localeCompare state catalog}
variable {session : PromptSession} {nowMs : Timestamp}

theorem placeOn_ne_clearPin {idle : List WorktreeRecord} :
    placeOn localeCompare state catalog session idle nowMs ≠ .clearPin := by
  unfold placeOn
  dsimp only
  split <;> nofun

def reachesWorktrees (state : PlacementState) (session : PromptSession) (nowMs : Timestamp) : Bool :=
  !queueExpired session nowMs && repositoryAdmissionOpen (state.repositories session.repositoryId) &&
    !alreadyAssigned session

/-- A pin is given up exactly when it is expired or no idle worktree has its route ready. -/
theorem plan_eq_clearPin_iff {pinnedHostId : String} (hpin : given session.pinnedHostId = some pinnedHostId) :
    planPromptPlacement localeCompare state catalog session nowMs = .clearPin ↔
      reachesWorktrees state session nowMs = true ∧ (pinExpired session nowMs = false →
        ∀ w ∈ state.eligibleIdleWorktrees session, w.hostId = pinnedHostId →
          pinnedRouteReady localeCompare state catalog session nowMs w = false) := by
  unfold planPromptPlacement reachesWorktrees
  cases hexpired : queueExpired session nowMs with
  | true => simp
  | false =>
    cases hopen : repositoryAdmissionOpen (state.repositories session.repositoryId) with
    | false => simp
    | true =>
      cases hassigned : alreadyAssigned session with
      | true => simp
      | false =>
        simp only [Bool.false_eq_true, if_false, Bool.not_true, hpin, Bool.not_false, Bool.and_self, true_and]
        cases hfresh : pinExpired session nowMs with
        | true => simp
        | false =>
          simp only [Bool.false_eq_true, if_false, true_imp_iff]
          cases hany : ((state.eligibleIdleWorktrees session).filter (·.hostId == pinnedHostId)).any
              (pinnedRouteReady localeCompare state catalog session nowMs) with
          | true =>
            obtain ⟨w, hw, hready⟩ := any_eq_true.mp hany
            obtain ⟨hidle, hhost⟩ := mem_filter.mp hw
            refine iff_of_false placeOn_ne_clearPin fun h => ?_
            rw [h w hidle (beq_iff_eq.mp hhost)] at hready
            cases hready
          | false =>
            simp only [Bool.false_eq_true, if_false, true_iff]
            intro w hidle hhost
            exact Bool.eq_false_iff.mpr
              (any_eq_false.mp hany w (mem_filter.mpr ⟨hidle, beq_iff_eq.mpr hhost⟩))

end Plan

end AutoHarness.Placement

import Mathlib.Data.List.Sort
import AutoHarness.Foundation.OrderedMap
import AutoHarness.Placement.Resume

/-! Route resolution: from the targets of a session, the catalog and a host's configuration to the commands and
accounts that may run it on a worktree. -/

namespace AutoHarness.Placement
open Foundation Store

/-! ## Records -/

/-- What a worktree or a repository of a host sets for an account. -/
structure ProviderAccountOverride where
  enabled : Option Bool := none
  commandId : Option String := none

structure HostWorktree where
  id : String
  providerAccountOverrides : String → Option ProviderAccountOverride := fun _ => none

structure HostRepository where
  id : String
  worktrees : List HostWorktree := []
  providerAccountOverrides : String → Option ProviderAccountOverride := fun _ => none
  requiredEnvironment : List String := []

structure HostProviderAccount where
  providerAccountId : String
  commandId : Option String := none

structure HostRuntime where
  gitReady : Bool := false
  environmentNames : List String := []
  environmentNamesCaseSensitive : Option Bool := none

structure HostInventory where
  repositories : List HostRepository := []
  providerAccounts : List HostProviderAccount := []
  requiredEnvironment : List String := []
  runtime : Option HostRuntime := none

structure Provider where
  defaultCommandId : Option String := none

structure ProviderAccount where
  id : String
  providerId : String
  usageLimitedUntil : Option Timestamp := none
  lastAssignedAt : Option String := none
  maxConcurrentSessions : Option ℕ := none
deriving DecidableEq

/-- The accounts in the order of their map, one for each id. -/
structure AccountTable where
  accounts : List ProviderAccount
  nodup : (accounts.map (·.id)).Nodup

def AccountTable.get? (table : AccountTable) (id : String) : Option ProviderAccount :=
  table.accounts.find? (·.id == id)

structure CommandRecord where
  id : String
  providerId : Option String := none
  argv : List String
  appendPrompt : Bool := false
  appendPromptSeparator : Bool := false
  resumeArgvTemplate : Option (List String) := none
  resumeRefCapture : Option ResumeRefCapture := none

structure ProviderAccountReadiness where
  providerAccountId : String
  ready : Bool

structure ConnectionRecord where
  protocolVersion : Option ℕ := none
  negotiatedProtocolVersion : Option ℕ := none
  runtime : Option HostRuntime := none
  maxConcurrentAssignments : Option ℕ := none
  providerAccountReadiness : List ProviderAccountReadiness := []

structure WorktreeRecord where
  id : String
  hostId : String
  repositoryId : String
  labels : List String := []
  status : ClaimStatus := .idle
  online : Bool := true
  currentSessionId : Option String := none
  lastAssignedAt : Option String := none
deriving DecidableEq

structure WorkspaceSlotRecord where
  id : String
  hostId : String
  status : ClaimStatus := .idle
  currentSessionId : Option String := none

structure LocalLease where
  sessionId : String
  attemptId : String
  slot : ℕ
  hostId : String
  providerAccountId : String
deriving DecidableEq

/-- What placement reads of the state of the control plane. A main-checkout lease is kept by host and
repository. -/
structure PlacementState where
  commands : String → Option CommandRecord
  providers : String → Option Provider
  providerAccounts : AccountTable
  hostInventories : String → Option HostInventory
  hostConnection : String → Option String
  connections : String → Option ConnectionRecord
  drainingHosts : List String := []
  disconnectedHosts : List String := []
  /-- The admission state of each repository, as it is stored. -/
  repositories : String → Option String
  worktrees : List WorktreeRecord
  workspaceSlots : List WorkspaceSlotRecord := []
  sessions : OrderedMap String SessionRow
  mainCheckoutLeases : List (String × String) := []
  providerAccountLeases : OrderedMap String LocalLease
  storage : Bool := false

structure ProviderCatalog where
  providers : String → Option Provider
  providerAccounts : String → Option ProviderAccount

def buildProviderCatalog (state : PlacementState) : ProviderCatalog where
  providers := state.providers
  providerAccounts := state.providerAccounts.get?

inductive TargetRef where
  | command (commandId : String)
  | provider (providerId : String)
deriving DecidableEq

structure PromptSession where
  id : String
  repositoryId : String
  prompt : String := ""
  target : TargetRef
  fallbacks : List TargetRef := []
  suppressedTargetIndexes : List ℕ := []
  requiredLabels : List String := []
  queueExpiresAt : Timestamp
  hostId : Option String := none
  worktreeId : Option String := none
  ackReceivedAt : Option Timestamp := none
  resumedFromSessionId : Option String := none
  resumeFallback : Bool := false
  cliResumeRef : Option String := none
  resumeSpec : Option SessionResumeSpec := none
  pinnedHostId : Option String := none
  pinnedProviderAccountId : Option String := none
  pinnedTargetIndex : Option ℕ := none
  pinnedCommandId : Option String := none
  pinExpiresAt : Option Timestamp := none

/-- A command with the account that runs it and its argv. -/
structure TargetRoute where
  providerId : Option String := none
  providerAccountId : Option String := none
  commandId : String
  resolvedArgv : List String
  resumeSpec : SessionResumeSpec
deriving DecidableEq

structure ResolvedSessionRoute extends TargetRoute where
  targetIndex : ℕ
deriving DecidableEq

/-! ## The configuration cascade -/

/-- The worktree decides before the repository; the host has to list the account. -/
def resolveProviderAccountEnabled (providerAccountId : String) (hostWorktree : Option HostWorktree)
    (hostRepository : Option HostRepository) (inventory : Option HostInventory) : Bool :=
  if inventory.any fun i => i.providerAccounts.any (·.providerAccountId == providerAccountId) then
    (((hostWorktree.bind (·.providerAccountOverrides providerAccountId)).bind (·.enabled)).or
      ((hostRepository.bind (·.providerAccountOverrides providerAccountId)).bind (·.enabled))).getD true
  else false

def resolveProviderAccountCommandId (providerAccountId : String) (hostWorktree : Option HostWorktree)
    (hostRepository : Option HostRepository) (inventory : Option HostInventory) (catalog : ProviderCatalog) :
    Option String :=
  let hostAccount := inventory.bind fun i => i.providerAccounts.find? (·.providerAccountId == providerAccountId)
  let providerDefault := ((catalog.providerAccounts providerAccountId).bind fun account =>
    catalog.providers account.providerId).bind (·.defaultCommandId)
  ((((hostWorktree.bind (·.providerAccountOverrides providerAccountId)).bind (·.commandId)).or
    ((hostRepository.bind (·.providerAccountOverrides providerAccountId)).bind (·.commandId))).or
      (hostAccount.bind (·.commandId))).or providerDefault

namespace PlacementState

variable (state : PlacementState)

def hostRepository (worktree : WorktreeRecord) : Option HostRepository :=
  (state.hostInventories worktree.hostId).bind fun host =>
    host.repositories.find? (·.id == worktree.repositoryId)

def hostWorktree (worktree : WorktreeRecord) : Option HostWorktree :=
  (state.hostRepository worktree).bind fun repository => repository.worktrees.find? (·.id == worktree.id)

def accountEnabled (worktree : WorktreeRecord) (providerAccountId : String) : Bool :=
  resolveProviderAccountEnabled providerAccountId (state.hostWorktree worktree) (state.hostRepository worktree)
    (state.hostInventories worktree.hostId)

end PlacementState

def ProviderAccount.usageLimited (account : ProviderAccount) (nowMs : Timestamp) : Bool :=
  account.usageLimitedUntil.any fun until_ => decide (nowMs < until_)

/-! ## Commands -/

/-- None without an executable. -/
def buildArgv (command : CommandRecord) (prompt : String) : Option (List String) :=
  if command.argv.length = 0 then none
  else if !command.appendPrompt then some command.argv
  else if command.appendPromptSeparator then some (command.argv ++ ["--", prompt])
  else some (command.argv ++ [prompt])

def commandResumeSpec (command : CommandRecord) : SessionResumeSpec where
  argv := command.argv
  appendPrompt := command.appendPrompt
  appendPromptSeparator := command.appendPromptSeparator
  resumeArgvTemplate := command.resumeArgvTemplate
  resumeRefCapture := command.resumeRefCapture

/-! ## Live routes -/

section Routes

variable (localeCompare : String → String → Ordering) (state : PlacementState) (catalog : ProviderCatalog)

/-- The account used longest ago first. -/
def compareAccounts (a b : ProviderAccount) : Ordering :=
  (localeCompare (a.lastAssignedAt.getD "") (b.lastAssignedAt.getD "")).then (localeCompare a.id b.id)

def resolveEligibleAccounts (providerId : String) (worktree : WorktreeRecord) (nowMs : Timestamp)
    (pinnedProviderAccountId : Option String) : List ProviderAccount :=
  (state.providerAccounts.accounts.filter fun account =>
    account.providerId == providerId && (given pinnedProviderAccountId).all (account.id == ·) &&
      !account.usageLimited nowMs && state.accountEnabled worktree account.id).insertionSort
        fun a b => compareAccounts localeCompare a b ≠ .gt

def resolveTargets (target : TargetRef) (prompt : String) (worktree : WorktreeRecord) (nowMs : Timestamp)
    (pinnedProviderAccountId : Option String) : List TargetRoute :=
  match target with
  | .command commandId =>
    match state.commands commandId with
    | none => []
    | some command =>
      match buildArgv command prompt with
      | none => []
      | some resolvedArgv =>
        match command.providerId with
        | none => [{ commandId := command.id, resolvedArgv, resumeSpec := commandResumeSpec command }]
        | some providerId =>
          (resolveEligibleAccounts localeCompare state providerId worktree nowMs pinnedProviderAccountId).map
            fun account =>
              { providerId := some providerId
                providerAccountId := some account.id
                commandId := command.id
                resolvedArgv
                resumeSpec := commandResumeSpec command }
  | .provider providerId =>
    (resolveEligibleAccounts localeCompare state providerId worktree nowMs pinnedProviderAccountId).filterMap
      fun account =>
        -- the account's own command; an account without a runnable one has no route
        (given (resolveProviderAccountCommandId account.id (state.hostWorktree worktree)
            (state.hostRepository worktree) (state.hostInventories worktree.hostId) catalog)).bind fun commandId =>
          (state.commands commandId).bind fun command =>
            (buildArgv command prompt).map fun resolvedArgv =>
              { providerId := some providerId
                providerAccountId := some account.id
                commandId
                resolvedArgv
                resumeSpec := commandResumeSpec command }

/-! ## Native continuations -/

/-- The session can go on in the tool that ran it. -/
def prefersNativeResumeRoute (session : PromptSession) : Bool :=
  session.cliResumeRef.isSome && (session.resumeSpec.bind (·.resumeArgvTemplate)).isSome

def pinnedAccountUsable (session : PromptSession) (worktree : WorktreeRecord) (nowMs : Timestamp) : Bool :=
  (given session.pinnedProviderAccountId).all fun accountId =>
    (state.providerAccounts.get? accountId).any (fun account => !account.usageLimited nowMs) &&
      state.accountEnabled worktree accountId

/-- The route with the stored command of the resumed session. -/
def resolveNativeResumeRoute (session : PromptSession) (worktree : WorktreeRecord) (nowMs : Timestamp)
    (targetIndex : ℕ) : Option ResolvedSessionRoute :=
  match session.resumeSpec, session.pinnedCommandId with
  | some spec, some pinnedCommandId =>
    if (given session.resumedFromSessionId).isNone then none
    else if (given session.cliResumeRef).isNone && !session.resumeFallback then none
    else if session.pinnedTargetIndex ≠ some targetIndex then none
    else if (state.commands pinnedCommandId).isNone then none
    else if !pinnedAccountUsable state session worktree nowMs then none
    else if spec.resumeArgvTemplate.isSome && (given session.cliResumeRef).isNone then none
    else
      let accountId := given session.pinnedProviderAccountId
      let route (template : Option (List String)) (resolvedArgv : List String) : ResolvedSessionRoute :=
        { targetIndex
          commandId := pinnedCommandId
          providerId := accountId.bind fun id => (catalog.providerAccounts id).map (·.providerId)
          providerAccountId := accountId
          resolvedArgv
          resumeSpec := { spec with resumeArgvTemplate := template } }
      match spec.resumeArgvTemplate with
      | some template =>
        match validateCommandResumeSpec template with
        | .error _ => none
        | .ok template =>
          some (route (some template)
            (materializeResumeArgv template (session.cliResumeRef.getD "") session.prompt
              spec.appendPromptSeparator))
      | none =>
        some (route none
          (if !spec.appendPrompt then spec.argv
            else if spec.appendPromptSeparator then spec.argv ++ ["--", session.prompt]
            else spec.argv ++ [session.prompt]))
  | _, _ => none

/-- A session without a pinned host accepts every route. -/
def matchesNativeResumePin (session : PromptSession) (route : ResolvedSessionRoute) : Bool :=
  (given session.pinnedHostId).isNone ||
    (session.pinnedTargetIndex.all (· == route.targetIndex) && session.pinnedCommandId.all (· == route.commandId) &&
      ((given session.pinnedProviderAccountId).isNone ||
        session.pinnedProviderAccountId == route.providerAccountId))

/-! ## The two resolutions of a policy entry -/

def PromptSession.targets (session : PromptSession) : List TargetRef := session.target :: session.fallbacks

/-- An account is pinned only together with a host. -/
def PromptSession.accountPin (session : PromptSession) : Option String :=
  if (given session.pinnedHostId).isSome then session.pinnedProviderAccountId else none

def resolveSessionTargetRouteAt (session : PromptSession) (worktree : WorktreeRecord) (nowMs : Timestamp)
    (targetIndex : ℕ) : Option ResolvedSessionRoute :=
  if session.suppressedTargetIndexes.contains targetIndex then none
  else
    match session.targets[targetIndex]? with
    | none => none
    | some target =>
      if prefersNativeResumeRoute session && session.pinnedTargetIndex == some targetIndex then
        (resolveNativeResumeRoute state catalog session worktree nowMs targetIndex).filter
          (matchesNativeResumePin session)
      else
        let route := (resolveTargets localeCompare state catalog target session.prompt worktree nowMs
          session.accountPin).head?
        let resolved : Option ResolvedSessionRoute := match route with
          | some route => some { route with targetIndex }
          | none => resolveNativeResumeRoute state catalog session worktree nowMs targetIndex
        resolved.filter (matchesNativeResumePin session)

def resolveSessionTargetRoutesAt (session : PromptSession) (worktree : WorktreeRecord) (nowMs : Timestamp)
    (targetIndex : ℕ) : List ResolvedSessionRoute :=
  if session.suppressedTargetIndexes.contains targetIndex then []
  else
    match session.targets[targetIndex]? with
    | none => []
    | some target =>
      if prefersNativeResumeRoute session && session.pinnedTargetIndex == some targetIndex then
        ((resolveNativeResumeRoute state catalog session worktree nowMs targetIndex).filter
          (matchesNativeResumePin session)).toList
      else
        let routes : List ResolvedSessionRoute :=
          (resolveTargets localeCompare state catalog target session.prompt worktree nowMs session.accountPin).map
            fun route => { route with targetIndex }
        if routes.length = 0 then
          ((resolveNativeResumeRoute state catalog session worktree nowMs targetIndex).filter
            (matchesNativeResumePin session)).toList
        else routes.filter (matchesNativeResumePin session)

/-! ## What both resolutions choose from -/

/-- The native continuation where it has precedence or nothing else resolves, otherwise the live routes. -/
def unpinnedRoutesAt (session : PromptSession) (worktree : WorktreeRecord) (nowMs : Timestamp) (targetIndex : ℕ) :
    List ResolvedSessionRoute :=
  if session.suppressedTargetIndexes.contains targetIndex then []
  else
    match session.targets[targetIndex]? with
    | none => []
    | some target =>
      if prefersNativeResumeRoute session && session.pinnedTargetIndex == some targetIndex then
        (resolveNativeResumeRoute state catalog session worktree nowMs targetIndex).toList
      else
        match resolveTargets localeCompare state catalog target session.prompt worktree nowMs session.accountPin with
        | [] => (resolveNativeResumeRoute state catalog session worktree nowMs targetIndex).toList
        | routes => routes.map fun route => { route with targetIndex }

variable {localeCompare state catalog}
variable {session : PromptSession} {worktree : WorktreeRecord} {nowMs : Timestamp} {targetIndex : ℕ}

theorem routeAt_eq : resolveSessionTargetRouteAt localeCompare state catalog session worktree nowMs targetIndex =
      (unpinnedRoutesAt localeCompare state catalog session worktree nowMs targetIndex).head?.filter
        (matchesNativeResumePin session) := by
  unfold resolveSessionTargetRouteAt unpinnedRoutesAt
  split
  · rfl
  split
  · rfl
  split
  · cases resolveNativeResumeRoute state catalog session worktree nowMs targetIndex <;> rfl
  · cases resolveTargets localeCompare state catalog _ session.prompt worktree nowMs session.accountPin with
    | nil => cases resolveNativeResumeRoute state catalog session worktree nowMs targetIndex <;> rfl
    | cons route routes => rfl

theorem routesAt_eq : resolveSessionTargetRoutesAt localeCompare state catalog session worktree nowMs targetIndex =
      (unpinnedRoutesAt localeCompare state catalog session worktree nowMs targetIndex).filter
        (matchesNativeResumePin session) := by
  have hnative : ∀ native : Option ResolvedSessionRoute,
      (native.filter (matchesNativeResumePin session)).toList =
        native.toList.filter (matchesNativeResumePin session) := by
    intro native
    cases native with
    | none => rfl
    | some route => cases h : matchesNativeResumePin session route <;> simp [h]
  unfold resolveSessionTargetRoutesAt unpinnedRoutesAt
  split
  · rfl
  split
  · rfl
  split
  · exact hnative _
  · cases resolveTargets localeCompare state catalog _ session.prompt worktree nowMs session.accountPin with
    | nil => exact hnative _
    | cons route routes => rfl

end Routes

end AutoHarness.Placement

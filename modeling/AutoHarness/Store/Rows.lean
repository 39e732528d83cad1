import Mathlib.Data.Int.Notation
import AutoHarness.Foundation.Transact

/-! The rows of the durable tables, with the attributes the modelled writers read or write. Timestamps are epoch
milliseconds (the stored ISO strings have one fixed format). Keys of secondary indexes only (`statusShard`,
`queueOrder`, …) are left out. -/

namespace AutoHarness.Store
open Foundation

/-- Times are only compared and shifted. -/
abbrev Timestamp := ℕ

/-- A result is stored and passed on as it is. -/
abbrev SessionResult := String

inductive SessionStatus where
  | queued | running | completed | failed | cancelled | timedOut
deriving DecidableEq, Repr

namespace SessionStatus

/-- Only an active holder of a concurrency lock is answered with. -/
def isActive : SessionStatus → Bool
  | queued => true
  | running => true
  | _ => false

def isTerminal : SessionStatus → Bool
  | completed => true
  | failed => true
  | cancelled => true
  | timedOut => true
  | _ => false

def text : SessionStatus → String
  | queued => "queued"
  | running => "running"
  | completed => "completed"
  | failed => "failed"
  | cancelled => "cancelled"
  | timedOut => "timed_out"

@[simp] theorem isTerminal_eq_false {s : SessionStatus} : s.isTerminal = false ↔ s.isActive = true := by
  cases s <;> simp [isTerminal, isActive]

theorem isTerminal_iff {s : SessionStatus} : s.isTerminal = true ↔ s.isActive = false := by
  cases s <;> simp [isTerminal, isActive]

end SessionStatus

inductive SessionType where
  | prompt | scheduled | workspace
deriving DecidableEq, Repr

inductive ClaimStatus where
  | idle | busy | error
deriving DecidableEq, Repr

/-- Whether the host may launch the command of the attempt. -/
inductive CommandStartState where
  | pending | authorized
deriving DecidableEq, Repr

inductive InfrastructureErrorCode where
  | checkoutFetchFailed | hostLost
deriving DecidableEq, Repr

def InfrastructureErrorCode.text : InfrastructureErrorCode → String
  | checkoutFetchFailed => "checkout_fetch_failed"
  | hostLost => "host_lost"

/-- A slot of a provider account, and the lock that stands for it. -/
structure ProviderAccountLease where
  concurrencyId : String
  providerAccountId : String
  slot : ℕ
  attemptId : String
deriving DecidableEq, Repr

/-- One assignment counted in the host's lock row. -/
structure HostAssignmentLease where
  hostId : String
deriving DecidableEq, Repr

/-- A terminal outcome whose repository hook the host still has to run. -/
structure TerminalHookHandoff where
  handoffId : String
  attemptId : Option String := none
  hostId : String
  repositoryId : String
  worktreeId : Option String := none
  mainCheckoutLease : Bool := false
  status : SessionStatus
  errorCode : Option String := none
  expiresAt : Timestamp
deriving DecidableEq, Repr

/-- The handoff that its host reported done; an expired one leaves only its time. -/
structure TerminalHookHandoffSettled where
  handoffId : String
  hostId : String
deriving DecidableEq, Repr

/-- The entry of the policy that an attempt runs, and where. -/
structure ResolvedRoute where
  targetIndex : ℕ
  providerId : Option String := none
  providerAccountId : Option String := none
  commandId : String
  hostId : String
  worktreeId : Option String := none
  workspacePoolId : Option String := none
  workspaceSlotId : Option String := none
  attemptId : String
deriving DecidableEq, Repr

/-- The attributes of a session row that the modelled writes read or change. -/
structure SessionRow where
  status : SessionStatus
  type : SessionType := .prompt
  repositoryId : String := ""
  workspacePoolId : Option String := none
  prompt : String := ""
  principalId : Option String := none
  metadataCreatedBy : Option String := none
  queueShard : ℕ := 0
  createdAt : Timestamp := 0
  queueExpiresAt : Timestamp := 0
  timeout : ℕ := 0
  concurrencyId : Option String := none
  parentSessionId : Option String := none
  rootSessionId : Option String := none
  resumedFromSessionId : Option String := none
  fallbackCount : ℕ := 0
  descendantCount : Option ℕ := none
  worktreeId : Attr String := .null
  workspaceSlotId : Attr String := .missing
  workspaceSlotLease : Bool := false
  hostId : Attr String := .null
  activeHostId : Option String := none
  attemptId : Option String := none
  resolvedRoute : Option ResolvedRoute := none
  suppressedTargetIndexes : List ℕ := []
  startedAt : Option Timestamp := none
  assignmentSentAt : Option Timestamp := none
  ackReceivedAt : Option Timestamp := none
  assignmentConnectionId : Option String := none
  reconnectDeadlineAt : Option Timestamp := none
  primaryCommandStartState : Option CommandStartState := none
  mainCheckoutLease : Bool := false
  providerAccountLease : Option ProviderAccountLease := none
  hostAssignmentLease : Option HostAssignmentLease := none
  timedOutHostId : Option String := none
  timedOutAssignmentConnectionId : Option String := none
  infrastructureRetryCount : Option ℕ := none
  lastInfrastructureErrorCode : Option InfrastructureErrorCode := none
  infrastructureRetryAttemptId : Option String := none
  cancelledByDrainOperationId : Option String := none
  sessionApiKeyHash : Option String := none
  sessionOutputsSupported : Option Bool := none
  completedAt : Option Timestamp := none
  errorCode : Option String := none
  errorMessage : Option String := none
  exitCode : Attr ℤ := .missing
  cliResumeRef : Option String := none
  resumeSpec : Option String := none
  result : Option SessionResult := none
  terminalHookHandoff : Option TerminalHookHandoff := none
  terminalHookHandoffSettled : Option TerminalHookHandoffSettled := none
  terminalHookHandoffExpiredAt : Option Timestamp := none
  terminalHookLifecycleEnqueuedAt : Option Timestamp := none
deriving DecidableEq

/-- The owner, or who created the session. -/
def SessionRow.sessionPrincipalId (r : SessionRow) : Option String :=
  r.principalId.or r.metadataCreatedBy

structure WorktreeRow where
  hostId : String
  repositoryId : String
  status : ClaimStatus := .idle
  online : Bool := true
  currentSessionId : Attr String := .null
  connectionId : Option String := none
  lastAssignedAt : Option Timestamp := none
deriving DecidableEq

structure WorkspaceSlotRow where
  hostId : String
  workspacePoolId : String
  status : ClaimStatus := .idle
  online : Bool := true
  currentSessionId : Attr String := .null
  retired : Bool := false
  connectionId : Option String := none
  lastAssignedAt : Option Timestamp := none
  errorMessage : Option String := none
deriving DecidableEq

/-- The table also holds provider-account slots (with `attemptId`, `providerAccountId`, `slot`) and catalog deletion
markers (with `deletionOwner`, `expiresAt` and no `sessionId`). -/
structure LockRow where
  sessionId : Option String := none
  attemptId : Option String := none
  providerAccountId : Option String := none
  slot : Option ℕ := none
  hostId : Option String := none
  deletionOwner : Option String := none
  expiresAt : Option Timestamp := none
deriving DecidableEq

/-- The session on a repository's main checkout and the connection it was assigned over. -/
structure MainCheckoutLease where
  sessionId : String
  connectionId : String
deriving DecidableEq, Repr

/-- A counter update may create a row with nothing but the counter, so the connection is optional. -/
structure HostLockRow where
  connectionId : Option String := none
  disconnected : Option Bool := none
  draining : Option Bool := none
  assignmentCount : Option ℤ := none
  mainCheckoutLeases : String → Option MainCheckoutLease := fun _ => none
  lastScheduledAssignedAt : Option Timestamp := none

structure ProviderAccountRow where
  providerId : String
  maxConcurrentSessions : Option ℕ := none
  usageLimitedUntil : Attr Timestamp := .missing
  usageLimitCooldownSeconds : ℕ := 0
  lastUsageLimitedAt : Option Timestamp := none
  lastAssignedAt : Option Timestamp := none
  updatedAt : Timestamp := 0
deriving DecidableEq

inductive AdmissionState where
  | active | closed
deriving DecidableEq

structure RepositoryRow where
  admissionState : Option AdmissionState := none
deriving DecidableEq

structure HostInventoryRow where
  version : Option ℕ := none
deriving DecidableEq

structure ConnectionRow where
  hostId : String
  capabilities : List String := []
  repositoryIds : List String := []
deriving DecidableEq

structure IntegrationRow where
  type : String
  version : ℕ
  enabled : Bool
  generation : String
deriving DecidableEq

/-- The partition key of the table of drains, activity rows and fences. -/
inductive DrainScope where
  | principal (repositoryId principalId : String)
  | retentionFence
  | active (shard : ℕ)
  | repository (repositoryId : String)
deriving DecidableEq

/-- Its sort key. -/
inductive DrainRecord where
  | current
  | operation (operationId : String)
  | activity (sessionId : String)
  | session (sessionId : String)
deriving DecidableEq

inductive DrainStatus where
  | draining | drained | released
deriving DecidableEq

/-- A row of the session-drains table: a drain operation or an activity member. -/
structure DrainRow where
  operationId : Option String := none
  status : Option DrainStatus := none
  cancelledCount : ℕ := 0
  sessionId : Option String := none
  repositoryId : Option String := none
  principalId : Option String := none
  generation : Option String := none
deriving DecidableEq

/-- A cancellation that may have to be sent to its host again. -/
structure CancelRedeliveryRow where
  hostId : String
  attemptId : String
  attempts : ℕ := 0
  createdAt : Timestamp
deriving DecidableEq

end AutoHarness.Store

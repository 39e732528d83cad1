import AutoHarness.Recovery.Sweep

/-! When a session needs nothing more. The notion is written four times, over the hydrated record
(`sessionNeedsOperationalRecovery`, `sessionRetentionEligible`) and as the conditions of two transactions, which read
missing, null, false and empty attributes each in its own way. -/

namespace AutoHarness.Recovery.Inactivity
open Foundation Store

/-- The attributes the predicates read, with anything that can be stored in them. -/
structure StoredSession where
  status : SessionStatus
  createdAt : Timestamp := 0
  (workspaceSlotLease mainCheckoutLease : Attr Bool := .missing)
  (worktreeId workspaceSlotId activeHostId errorCode retentionToken : Attr String := .missing)
  providerAccountLease : Attr ProviderAccountLease := .missing
  hostAssignmentLease : Attr HostAssignmentLease := .missing
  terminalHookHandoff : Attr TerminalHookHandoff := .missing
  terminalHookHandoffSettled : Attr TerminalHookHandoffSettled := .missing
  (completedAt reconnectDeadlineAt terminalHookHandoffExpiredAt terminalHookLifecycleEnqueuedAt
    outputsUploadExpiresAt : Attr Timestamp := .missing)

/-- `x == null` in the code; `attribute_not_exists(x)` or a null `x` in a condition. The falsy records and times. -/
def nullish {α : Type} (x : Attr α) : Bool := x.toOption.isNone

abbrev checkout : Attr String := .value InfrastructureErrorCode.checkoutFetchFailed.text

namespace StoredSession

def sessionNeedsOperationalRecovery (s : StoredSession) : Bool :=
  s.status == .running ||
  !nullish s.worktreeId ||
  !nullish s.workspaceSlotId ||
  s.workspaceSlotLease == .value true ||
  s.mainCheckoutLease == .value true ||
  s.activeHostId != .missing ||
  s.reconnectDeadlineAt != .missing ||
  s.providerAccountLease != .missing ||
  s.hostAssignmentLease != .missing ||
  s.terminalHookHandoff != .missing ||
  (s.errorCode == checkout && nullish s.terminalHookLifecycleEnqueuedAt &&
    (s.terminalHookHandoffExpiredAt != .missing || s.terminalHookHandoffSettled != .missing))

/-- The last clause of both conditions: no deferred checkout failure is left. -/
def hookDone (s : StoredSession) : Bool :=
  s.errorCode == .missing || s.errorCode != checkout ||
  (s.terminalHookHandoffSettled == .missing && s.terminalHookHandoffExpiredAt == .missing) ||
  s.terminalHookLifecycleEnqueuedAt != .missing

/-- The condition on the session's row in `deleteRepositoryActivityIfInactive`. -/
def repositoryActivityInactive : Option StoredSession → Bool
  | none => true
  | some s =>
    s.status.isTerminal && nullish s.worktreeId && nullish s.workspaceSlotId &&
    s.mainCheckoutLease == .missing && s.workspaceSlotLease == .missing && s.providerAccountLease == .missing &&
    s.hostAssignmentLease == .missing && s.activeHostId == .missing && s.terminalHookHandoff == .missing &&
    s.reconnectDeadlineAt == .missing && s.hookDone

def sessionRetentionEligible (s : StoredSession) : Bool :=
  s.status.isTerminal && !nullish s.completedAt &&
  (given s.worktreeId.toOption).isNone && (given s.workspaceSlotId.toOption).isNone &&
  s.mainCheckoutLease != .value true && s.workspaceSlotLease != .value true &&
  nullish s.providerAccountLease && nullish s.hostAssignmentLease &&
  (given s.activeHostId.toOption).isNone && nullish s.reconnectDeadlineAt && nullish s.terminalHookHandoff &&
  !(s.errorCode == checkout &&
    (!nullish s.terminalHookHandoffSettled || !nullish s.terminalHookHandoffExpiredAt) &&
    nullish s.terminalHookLifecycleEnqueuedAt)

/-- The condition of `claimSessionRetention` on the row `s`, of which it has read the version `read`. -/
def retentionClaimable (read : StoredSession) (now : Timestamp) (s : StoredSession) : Bool :=
  s.status == read.status && s.createdAt == read.createdAt && s.completedAt == read.completedAt &&
  s.providerAccountLease == .missing && s.hostAssignmentLease == .missing && s.activeHostId == .missing &&
  s.reconnectDeadlineAt == .missing && s.terminalHookHandoff == .missing && s.retentionToken == .missing &&
  nullish s.worktreeId && nullish s.workspaceSlotId &&
  (s.mainCheckoutLease == .missing || s.mainCheckoutLease == .value false) &&
  (s.workspaceSlotLease == .missing || s.workspaceSlotLease == .value false) && s.hookDone &&
  (s.outputsUploadExpiresAt == .missing || s.outputsUploadExpiresAt.toOption.any (· ≤ now))

/-- Of the writers' habits (flags are missing or true, ids missing, null or not empty, the rest missing or not empty)
what the predicates rest on. -/
structure Written (s : StoredSession) : Prop where
  flags : ∀ x ∈ [s.workspaceSlotLease, s.mainCheckoutLease], x = .missing ∨ x = .value true
  lifecycle : s.terminalHookLifecycleEnqueuedAt ≠ .null

variable {s read : StoredSession} {now : Timestamp}

theorem nullish_iff {α : Type} {x : Attr α} : nullish x = true ↔ x = .missing ∨ x = .null := by
  cases x <;> simp [nullish]

theorem hookDone_iff (h : Written s) : s.hookDone = true ↔
    ¬ (s.errorCode = checkout ∧ nullish s.terminalHookLifecycleEnqueuedAt = true ∧
      (s.terminalHookHandoffExpiredAt ≠ .missing ∨ s.terminalHookHandoffSettled ≠ .missing)) := by
  have hnull := h.lifecycle
  simp only [hookDone, nullish_iff, Bool.or_eq_true, Bool.and_eq_true, beq_iff_eq, bne_iff_ne]
  grind

theorem not_needs_iff (h : Written s) : s.sessionNeedsOperationalRecovery = false ↔
    s.status ≠ .running ∧ nullish s.worktreeId = true ∧ nullish s.workspaceSlotId = true ∧
      s.workspaceSlotLease ≠ .value true ∧ s.mainCheckoutLease ≠ .value true ∧ s.activeHostId = .missing ∧
      s.reconnectDeadlineAt = .missing ∧ s.providerAccountLease = .missing ∧ s.hostAssignmentLease = .missing ∧
      s.terminalHookHandoff = .missing ∧ s.hookDone = true := by
  rw [hookDone_iff h]
  simp only [sessionNeedsOperationalRecovery, Bool.or_eq_false_iff, Bool.and_eq_false_iff, beq_eq_false_iff_ne,
    bne_eq_false_iff_eq, Bool.not_eq_false', and_assoc]
  grind

theorem inactive_iff (h : Written s) : repositoryActivityInactive (some s) = true ↔
    s.status.isTerminal = true ∧ s.sessionNeedsOperationalRecovery = false := by
  rw [not_needs_iff h]
  have hslot := h.flags _ (.head _)
  have hmain := h.flags _ (.tail _ (.head _))
  simp only [repositoryActivityInactive, Bool.and_eq_true, beq_iff_eq, and_assoc]
  grind [SessionStatus.isTerminal]

theorem inactive_of_claimed (h : Written s) (hread : read.sessionRetentionEligible = true)
    (hclaim : retentionClaimable read now s = true) :
    s.status.isTerminal = true ∧ s.sessionNeedsOperationalRecovery = false := by
  rw [not_needs_iff h]
  simp only [sessionRetentionEligible, retentionClaimable, Bool.and_eq_true, Bool.or_eq_true, beq_iff_eq,
    and_assoc] at hread hclaim
  grind [SessionStatus.isTerminal]

/-- **The three notions of inactivity.** On the rows the store writes, a repository drain finds a session inactive just
when it has ended and needs no recovery, and retention claims no other. -/
theorem inactivity_agrees :
    (∀ s : StoredSession, s.Written → (repositoryActivityInactive (some s) = true ↔
      s.status.isTerminal = true ∧ s.sessionNeedsOperationalRecovery = false)) ∧
    ∀ (read s : StoredSession) (now : Timestamp), s.Written → read.sessionRetentionEligible = true →
      retentionClaimable read now s = true →
      s.status.isTerminal = true ∧ s.sessionNeedsOperationalRecovery = false :=
  ⟨fun _ => inactive_iff, fun _ _ _ => inactive_of_claimed⟩

theorem inactivity_agrees_enqueued :
    let s : StoredSession := {
      status := .failed, worktreeId := .null, completedAt := .value 5, errorCode := checkout
      terminalHookHandoffExpiredAt := .value 7, terminalHookLifecycleEnqueuedAt := .value 8 }
    s.Written ∧ s.sessionRetentionEligible = true ∧ retentionClaimable s 9 s = true ∧
      repositoryActivityInactive (some s) = true := by
  intro s
  have hw : s.Written := by constructor <;> decide
  exact ⟨hw, rfl, rfl, (inactivity_agrees.1 s hw).mpr (inactivity_agrees.2 s s 9 hw rfl rfl)⟩

/-! ## The rows of the sessions table -/

def stored {α : Type} (o : Option α) : Attr α := o.elim .missing .value

/-- A row as it is stored: a flag that is not set is missing. -/
def ofRow (r : SessionRow) : StoredSession :=
  { r with
    workspaceSlotLease := if r.workspaceSlotLease then .value true else .missing
    mainCheckoutLease := if r.mainCheckoutLease then .value true else .missing
    activeHostId := stored r.activeHostId
    errorCode := stored r.errorCode
    retentionToken := .missing
    providerAccountLease := stored r.providerAccountLease
    hostAssignmentLease := stored r.hostAssignmentLease
    terminalHookHandoff := stored r.terminalHookHandoff
    terminalHookHandoffSettled := stored r.terminalHookHandoffSettled
    completedAt := stored r.completedAt
    reconnectDeadlineAt := stored r.reconnectDeadlineAt
    terminalHookHandoffExpiredAt := stored r.terminalHookHandoffExpiredAt
    terminalHookLifecycleEnqueuedAt := stored r.terminalHookLifecycleEnqueuedAt
    outputsUploadExpiresAt := .missing }

theorem needs_ofRow (r : SessionRow) :
    (ofRow r).sessionNeedsOperationalRecovery = Recovery.sessionNeedsOperationalRecovery r := by
  have hflag : ∀ b : Bool, ((if b then .value true else .missing : Attr Bool) == .value true) = b := by decide
  have hstored : ∀ {α : Type} [DecidableEq α] (o : Option α), (stored o != .missing) = o.isSome := by
    rintro _ _ (_ | _) <;> rfl
  have hread : ∀ {α : Type} (o : Option α), (stored o).toOption = o := by rintro _ (_ | _) <;> rfl
  have hcode : (stored r.errorCode == checkout) =
      (r.errorCode == some InfrastructureErrorCode.checkoutFetchFailed.text) := by
    cases r.errorCode <;> simp [stored, beq_eq_beq]
  simp only [sessionNeedsOperationalRecovery, Recovery.sessionNeedsOperationalRecovery, ofRow, hflag, hstored, hcode,
    nullish, hread, Option.not_isNone]

end StoredSession
end AutoHarness.Recovery.Inactivity

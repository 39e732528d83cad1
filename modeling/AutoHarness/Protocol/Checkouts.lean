import AutoHarness.Protocol.Coherent
import AutoHarness.Protocol.Unacknowledged
import AutoHarness.Protocol.Worktrees

/-! What a handoff can reserve, who is named on it, and what a write does to the names. -/

namespace AutoHarness.Protocol
open Foundation Store Plane Option HostLockRow Occupancy

/-! ## Targets -/

/-- What a handoff can reserve for its hook. -/
inductive HookTarget where
  | worktree (id : String)
  | mainCheckout (hostId repositoryId : String)
deriving DecidableEq

def Reserves (h : TerminalHookHandoff) : HookTarget → Prop
  | .worktree i => h.worktreeId = some i
  | .mainCheckout host repo => h.mainCheckoutLease = true ∧ h.hostId = host ∧ h.repositoryId = repo

/-- By its handoff or by its own claim; the claim of a checkout counts only without a handoff. -/
def HoldsTarget (r : SessionRow) (t : HookTarget) : Prop :=
  (∃ h, r.terminalHookHandoff = some h ∧ Reserves h t) ∨
    match t with
    | .worktree i => r.worktreeId = .value i
    | .mainCheckout host repo => r.mainCheckoutLease = true ∧ r.terminalHookHandoff = none ∧
        r.hostId = .value host ∧ r.repositoryId = repo

/-- Some row of session `s` holds the target. -/
def targetHolds (sessions : String → Option SessionRow) (s : String) (t : HookTarget) : Prop :=
  ∃ r, sessions s = some r ∧ HoldsTarget r t

section

variable {r r' : SessionRow} {t : HookTarget}

theorem not_holdsTarget (hw : r.worktreeId.toOption = none) (hm : r.mainCheckoutLease = false)
    (hh : r.terminalHookHandoff = none) : ¬ HoldsTarget r t := by
  rintro (⟨h, hh', -⟩ | hdirect)
  · rw [hh] at hh'
    cases hh'
  · cases t with
    | worktree i =>
      have hi : r.worktreeId = .value i := hdirect
      rw [hi] at hw
      cases hw
    | mainCheckout host repo =>
      rw [hdirect.1] at hm
      cases hm

theorem HoldsTarget.of_same (h : HoldsTarget r' t) (hw : r'.worktreeId = r.worktreeId)
    (hm : r'.mainCheckoutLease = r.mainCheckoutLease) (hh : r'.terminalHookHandoff = r.terminalHookHandoff)
    (hhost : r'.hostId = r.hostId) (hrepo : r'.repositoryId = r.repositoryId) : HoldsTarget r t := by
  unfold HoldsTarget at h ⊢
  rw [hw, hm, hh, hhost, hrepo] at h
  exact h

theorem targetHolds_update {sessions sessions' : String → Option SessionRow} {s : String}
    (h : sessions' = Function.update sessions s (some r')) : (∀ t, targetHolds sessions' s t ↔ HoldsTarget r' t) ∧
      ∀ s', s' ≠ s → ∀ t, targetHolds sessions' s' t → targetHolds sessions s' t := by
  refine ⟨fun t => ?_, fun s' hs' t ht => ?_⟩
  · simp [targetHolds, h]
  · simpa [targetHolds, h, hs'] using ht

end

namespace Occupancy

def owner (o : Occupancy) : HookTarget → Option String
  | .worktree i => (o.worktrees i).bind fun x => x.currentSessionId.toOption
  | .mainCheckout host repo => (o.mainCheckouts host repo).map (·.sessionId)

/-- The target is marked busy for session `s`. -/
def Taken (o : Occupancy) (s : String) : HookTarget → Prop
  | .worktree i => ∃ x, o.worktrees i = some x ∧ x.status = .busy ∧ x.currentSessionId = .value s
  | .mainCheckout host repo => ∃ l, o.mainCheckouts host repo = some l ∧ l.sessionId = s

def Idle (o : Occupancy) : HookTarget → Prop
  | .worktree i => ∃ x, o.worktrees i = some x ∧ x.status = .idle ∧ x.currentSessionId = .null
  | .mainCheckout host repo => o.mainCheckouts host repo = none

theorem taken_of_owner {o : Occupancy} (hbusy : ∀ i x, o.worktrees i = some x → x.currentSessionId.toOption ≠ none →
    x.status = .busy) {s : String} {t : HookTarget} (h : o.owner t = some s) : o.Taken s t := by
  cases t with
  | worktree i =>
    obtain ⟨x, hx, hs⟩ := bind_eq_some_iff.mp h
    exact ⟨x, hx, hbusy i x hx (by rw [hs]; simp), Attr.toOption_eq_some.mp hs⟩
  | mainCheckout host repo =>
    obtain ⟨l, hl, hs⟩ := map_eq_some_iff.mp h
    exact ⟨l, hl, hs⟩

end Occupancy

/-- What a handoff is stored on and what it reserves, in a store or in the caches of a process. -/
structure HookView where
  sessions : String → Option SessionRow
  occupancy : Occupancy

namespace HookView

/-- Session `s` stores handoff `h`. -/
def Stores (v : HookView) (s : String) (h : TerminalHookHandoff) : Prop :=
  ∃ r, v.sessions s = some r ∧ r.terminalHookHandoff = some h

/-- A stored handoff keeps its target taken, and nobody else holds it. -/
def Reserved (v : HookView) : Prop :=
  ∀ s h t, v.Stores s h → Reserves h t →
    v.occupancy.Taken s t ∧ ∀ s', targetHolds v.sessions s' t → s' = s

def Known (v : HookView) (known : List String) : Prop := ∀ s h, v.Stores s h → h.handoffId ∈ known

/-- Handoffs with a reservation are kept, or disposed of with their target freed; a stored one was there or is not
among `known`. -/
structure Disposes (v v' : HookView) (known : List String) (disposal : Option (String × String)) : Prop where
  released : ∀ s h t, v.Stores s h → Reserves h t →
    v'.Stores s h ∨ (disposal = some (s, h.handoffId) ∧ v'.occupancy.Idle t)
  stored : ∀ s h, v'.Stores s h → v.Stores s h ∨ h.handoffId ∉ known

theorem reserved_of_backed {v : HookView}
    (hbusy : ∀ i x, v.occupancy.worktrees i = some x → x.currentSessionId.toOption ≠ none → x.status = .busy)
    (h : Backed v.occupancy.owner (targetHolds v.sessions)) : v.Reserved := by
  rintro s hand t ⟨r, hr, hh⟩ hres
  have hs : targetHolds v.sessions s t := ⟨r, hr, .inl ⟨hand, hh, hres⟩⟩
  exact ⟨taken_of_owner hbusy (h s t hs), fun s' hs' => h.unique hs' hs⟩

end HookView

def World.hookView (w : World) : HookView := ⟨w.db.sessions, storeOccupancy w.db⟩

/-! ## Main-checkout leases over a write -/

def WriteOp.checkout : WriteOp → Option (String × String)
  | releaseMainCheckout _ o _ => if o.retains then none else some (o.hostId, o.repositoryId)
  | requeueMainCheckoutUsageLimited _ o => some (o.hostId, o.repositoryId)
  | settleHandoff _ o => (given o.mainCheckoutRepositoryId).map (o.hostId, ·)
  | expireHandoff _ o => o.hostId.bind fun h => (given o.mainCheckoutRepositoryId).map (h, ·)
  | _ => none

/-- What a step does to the leases: it removes the one at `k`, which names session `s`. -/
structure LeaseGiven (s : String) (k : Option (String × String)) (db db' : Db) : Prop where
  owned : ∀ host repo, k = some (host, repo) → (storeOccupancy db).owner (.mainCheckout host repo) = some s
  after : ∀ host repo, (storeOccupancy db').mainCheckouts host repo =
    if k = some (host, repo) then none else (storeOccupancy db).mainCheckouts host repo

variable {s host : String} {db db' : Db} {lease : Option HostAssignmentLease}

theorem leaseGiven_of_same (h : db'.hostLocks = db.hostLocks) : LeaseGiven s none db db' where
  owned _ _ h := by cases h
  after host repo := by simp [storeOccupancy, h]

theorem leaseGiven_of_released
    (h : db'.hostLocks = hostLocksReleased lease db.hostLocks) : LeaseGiven s none db db' where
  owned _ _ h := by cases h
  after host repo := by
    simp only [storeOccupancy, h, reduceCtorEq, if_false]
    exact checkouts_released db.hostLocks host repo

theorem leaseGiven_of_checkout {retain : Bool} {repo k : String}
    {hl : HostLockRow} (hhost : db.hostLocks host = some hl) (hrel : hl.mainCheckoutReleasable repo s k lease = true)
    (h : db'.hostLocks = Function.update db.hostLocks host (some (hl.mainCheckoutReleased retain repo lease))) :
    LeaseGiven s (if retain then none else some (host, repo)) db db' where
  owned host' repo' he := by
    split at he
    · cases he
    · cases he
      simp [owner, storeOccupancy, hhost, (checkoutReleasable_iff.mp hrel).1]
  after host' repo' := by
    simp only [storeOccupancy, h]
    exact checkouts_mainCheckoutReleased retain repo lease hhost host' repo'

theorem leaseGiven_of_disposal {connectionId repo : Option String}
    (hready : (terminalHandoffHostLockItem s host connectionId repo).holds db = true)
    (h : db'.hostLocks = hostLocksSettled host repo db.hostLocks) :
    LeaseGiven s ((given repo).map (host, ·)) db db' := by
  cases hg : given repo with
  | none => exact leaseGiven_of_same (by rw [h, hostLocksSettled, hg])
  | some x =>
    simp only [terminalHandoffHostLockItem, hg, hostLockWrite_holds, any_eq_true, Bool.and_eq_true,
      mainCheckoutHeldBy, beq_iff_eq] at hready
    obtain ⟨hl, hhost, -, l, hlease, hs⟩ := hready
    constructor
    · intro host' repo' he
      cases he
      simp [owner, storeOccupancy, hhost, hlease, hs]
    · intro host' repo'
      simp only [storeOccupancy, h, hostLocksSettled, hg]
      exact checkouts_withoutMainCheckout db.hostLocks host x host' repo'

theorem leaseGiven_settle {o : SettleTerminalHookHandoffOpts}
    (h : transact (settleTerminalHookHandoffItems o) db = .committed db') :
    LeaseGiven o.sessionId ((given o.mainCheckoutRepositoryId).map (o.hostId, ·)) db db' := by
  obtain ⟨-, hr, -⟩ := committed_iff.mp h
  obtain ⟨r, hand, -, -, -, -, rfl⟩ := settleHandoff_committed h
  simp only [settleTerminalHookHandoffItems, ready_append, ready_cons] at hr
  exact leaseGiven_of_disposal hr.1.1 rfl

theorem leaseGiven_expire {o : ExpireTerminalHookHandoffOpts}
    (h : transact (expireTerminalHookHandoffItems o) db = .committed db') :
    LeaseGiven o.sessionId (o.hostId.bind fun x => (given o.mainCheckoutRepositoryId).map (x, ·)) db db' := by
  obtain ⟨-, hr, rfl⟩ := committed_iff.mp h
  simp only [expireTerminalHookHandoffItems, ready_append, ready_cons, ready_nil, and_true] at hr
  obtain ⟨⟨hhost, -⟩, -⟩ := hr
  have hlocks : (runAll (expireTerminalHookHandoffItems o) db).hostLocks =
      (runAll (expiredTerminalHandoffHostLockItems o) db).hostLocks := by
    simp [expireTerminalHookHandoffItems]
  unfold expiredTerminalHandoffHostLockItems at hhost hlocks
  cases ho : o.hostId with
  | none => exact leaseGiven_of_same (by rw [hlocks, ho]; rfl)
  | some x =>
    simp only [ho, bind_some] at hhost hlocks ⊢
    split at hhost
    · rename_i hc
      rw [Bool.and_eq_true, isNone_iff_eq_none] at hc
      rw [if_pos (by simp [hc])] at hlocks
      rw [hc.1]
      exact leaseGiven_of_same hlocks
    · rename_i hc
      rw [if_neg hc] at hlocks
      simp only [ready_cons, ready_nil, and_true] at hhost
      refine leaseGiven_of_disposal hhost ?_
      rw [hlocks, runAll_cons, run_handoffHostItem]
      rfl

/-- **Step lemma of the writers, for main checkouts.** -/
theorem leaseGiven_write {x : WriteOp} (h : transact x.items db = .committed db') :
    LeaseGiven x.sessionId x.checkout db db' := by
  cases x with
  | cancelQueued read o activity =>
    obtain ⟨r, -, -, -, drains, rfl⟩ := cancelQueued_committed h
    exact leaseGiven_of_same rfl
  | expireQueued read o activity =>
    obtain ⟨r, -, -, -, drains, rfl⟩ := expireQueued_committed h
    exact leaseGiven_of_same rfl
  | cancelRunning | cancelRunningMainCheckout =>
    obtain ⟨r, -, -, drains, redeliveries, rfl⟩ := writeCancelled_committed h
    exact leaseGiven_of_same rfl
  | requeue c =>
    obtain ⟨r, -, -, -, rfl⟩ := requeueSession_committed h
    exact leaseGiven_of_released rfl
  | requeueUsageLimited | requeueUsageLimitedWorkspace | suppressProviderless | suppressProviderlessWorkspace =>
    obtain ⟨r, -, -, -, -, -, -, accounts, rfl⟩ := usageLimit_committed h
    exact leaseGiven_of_released rfl
  | finish c cleanup =>
    obtain ⟨r, -, -, -, -, rfl⟩ := finishSession_committed h
    exact leaseGiven_of_released rfl
  | releaseCancelled c cleanup =>
    obtain ⟨r, -, -, -, -, rfl⟩ := releaseCancelled_committed h
    exact leaseGiven_of_released rfl
  | releaseMainCheckout read o cleanup =>
    obtain ⟨r, hl, -, -, hhost, hrel, -, -, rfl⟩ := releaseCheckout_committed h
    exact leaseGiven_of_checkout hhost hrel rfl
  | requeueMainCheckoutUsageLimited read o =>
    obtain ⟨r, hl, -, -, -, -, -, hhost, hrel, -, accounts, rfl⟩ := checkoutLimited_committed h
    change LeaseGiven o.sessionId (if false then none else some (o.hostId, o.repositoryId)) db _
    exact leaseGiven_of_checkout hhost hrel rfl
  | releaseTimedOutHostAssignment read o =>
    obtain ⟨r, -, -, -, -, -, rfl⟩ := timedOutHost_committed h
    exact leaseGiven_of_released rfl
  | releaseTimedOutProviderAccountLease read o =>
    obtain ⟨r, l, -, -, -, -, -, -, -, rfl⟩ := timedOutAccount_committed h
    exact leaseGiven_of_released rfl
  | forceReleaseProviderAccountLease o =>
    obtain ⟨r, x, -, -, -, -, -, -, -, rfl⟩ := forceRelease_committed h
    exact leaseGiven_of_same rfl
  | settleHandoff read o => exact leaseGiven_settle h
  | expireHandoff read o => exact leaseGiven_expire h
  | note t n =>
    obtain ⟨-, -, rfl⟩ := committed_iff.mp h
    exact leaseGiven_of_same rfl

def WriteOp.Frees (x : WriteOp) : HookTarget → Prop
  | .worktree i => x.writer.worktree = some i
  | .mainCheckout host repo => x.checkout = some (host, repo)

section

variable {x : WriteOp} {r : SessionRow} {t : HookTarget}

variable (h : Wrote x.writer db db' r) (hl : LeaseGiven x.sessionId x.checkout db db')
include h hl

theorem owner_of_frees (hf : x.Frees t) : (storeOccupancy db).owner t = some x.sessionId := by
  cases t with
  | worktree i =>
    rw [← x.writer_sessionId]
    exact worktreeOwner_eq_some.mpr (h.worktreeOwned i hf)
  | mainCheckout host repo => exact hl.owned host repo hf

theorem owner_of_not_frees (hf : ¬ x.Frees t) : (storeOccupancy db').owner t = (storeOccupancy db).owner t := by
  cases t with
  | worktree i =>
    obtain ⟨set, hset⟩ := h.worktrees
    exact (worktreeOwner_released hset i).trans (if_neg hf)
  | mainCheckout host repo =>
    have hsame := (hl.after host repo).trans (if_neg hf)
    simp only [owner, hsame]

theorem idle_of_frees (hf : x.Frees t) : (storeOccupancy db').Idle t := by
  cases t with
  | worktree i =>
    obtain ⟨set, hset⟩ := h.worktrees
    obtain ⟨y, hy, -⟩ := h.worktreeOwned i hf
    have hi : x.writer.worktree = some i := hf
    refine ⟨y.freed set, ?_, rfl, rfl⟩
    simp [storeOccupancy, hset, hi, worktreesReleased, hy]
  | mainCheckout host repo => exact (hl.after host repo).trans (if_pos hf)

end

end AutoHarness.Protocol

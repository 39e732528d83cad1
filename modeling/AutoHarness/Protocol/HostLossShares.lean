import AutoHarness.Plane.HostLoss
import AutoHarness.Protocol.Unacknowledged

/-! The share of a session in the caches: its record and what names it. A turn changes the share of its session alone,
as long as no running session names a worktree that somebody else claims. -/

namespace AutoHarness.Protocol.HostLoss
open Foundation Store Plane Plane.ControlPlaneState Function Option

/-- What names a session: worktrees and slots with their hosts, main checkouts and provider accounts. -/
@[ext] structure Share where
  record : Option SessionRow
  worktrees : String → Option (String × ClaimStatus)
  slots : String → Option String
  checkouts : String × String → Option MainCheckoutLease
  accounts : String → Option LockRow

def share (st : ControlPlaneState) (sessionId : String) : Share where
  record := st.sessions sessionId
  worktrees w := (st.worktrees w).bind fun wt =>
    if wt.currentSessionId = .value sessionId then some (wt.hostId, wt.status) else none
  slots s := (st.workspaceSlots s).bind fun slot =>
    if slot.currentSessionId = .value sessionId then some slot.hostId else none
  checkouts key := (st.mainCheckoutLeases key).filter fun lease => lease.sessionId = sessionId
  accounts key := (st.providerAccountLeases key).filter fun lock => lock.sessionId = some sessionId

namespace Share

end Share

/-- The record of a session on the worktree `w`. -/
structure OnWorktree (w : String) (wt : WorktreeRow) (r : SessionRow) : Prop where
  name : r.worktreeId = .value w
  host : r.hostId = .value wt.hostId
  hostNamed : wt.hostId ≠ ""
  busy : wt.status = .busy
  slot : given r.workspaceSlotId.toOption = none
  slotLease : r.workspaceSlotLease = false
  checkout : r.mainCheckoutLease = false
  handoff : r.terminalHookHandoff = none

/-- The record of a session on the workspace slot `x`. -/
structure OnSlot (x : String) (slot : WorkspaceSlotRow) (r : SessionRow) : Prop where
  name : r.workspaceSlotId = .value x
  host : r.hostId = .value slot.hostId
  hostNamed : slot.hostId ≠ ""
  slotLease : r.workspaceSlotLease = true
  worktree : given r.worktreeId.toOption = none
  checkout : r.mainCheckoutLease = false
  handoff : r.terminalHookHandoff = none

/-- The record of a session on the main checkout `key`, a host and a repository. -/
structure OnCheckout (key : String × String) (lease : MainCheckoutLease) (r : SessionRow) : Prop where
  host : r.hostId = .value key.1
  hostNamed : key.1 ≠ ""
  repository : r.repositoryId = key.2
  connection : r.assignmentConnectionId = some lease.connectionId
  connectionNamed : lease.connectionId ≠ ""
  checkout : r.mainCheckoutLease = true
  worktree : given r.worktreeId.toOption = none
  slot : given r.workspaceSlotId.toOption = none
  slotLease : r.workspaceSlotLease = false
  handoff : r.terminalHookHandoff = none

variable {st : ControlPlaneState} {s t : String}

variable {w : String}

variable {slotId host : String}

variable {key : String × String} {lease : MainCheckoutLease}

variable {r : SessionRow}

open Share (ext)

variable {session : SessionRow}

def OwnAccount (s : String) (session : SessionRow) (accounts : String → Option LockRow) : Prop :=
  ∀ key lock, accounts key = some lock → ∃ lease, session.providerAccountLease = some lease ∧
    lease.concurrencyId = key ∧ lock.ownedBy s lease.attemptId = true

variable {handoffId : String} {slot : WorkspaceSlotRow} {now : Timestamp}

variable {handoff : TerminalHookHandoff}

variable {reason : String} {deadlineAt : Timestamp} {draw : String → String} {st' : ControlPlaneState}

def OwnWorktrees (st : ControlPlaneState) : Prop :=
  ∀ s r w wt t, st.sessions s = some r → r.worktreeId = .value w → st.worktrees w = some wt →
    wt.currentSessionId = .value t → t = s

section

variable (hown : OwnWorktrees st)
include hown

end

/-! ## What the turns keep -/

structure Shrinks (st st' : ControlPlaneState) : Prop where
  record : ∀ s r' w, st'.sessions s = some r' → r'.worktreeId = .value w →
    ∃ r, st.sessions s = some r ∧ r.worktreeId = .value w
  worktree : ∀ w wt', st'.worktrees w = some wt' →
    ∃ wt, st.worktrees w = some wt ∧ ∀ s, wt'.currentSessionId = .value s → wt.currentSessionId = .value s
  slot : ∀ x slot' s, st'.workspaceSlots x = some slot' → slot'.currentSessionId = .value s →
    ∃ slot, st.workspaceSlots x = some slot ∧ slot.currentSessionId = .value s
  checkout : ∀ key lease, st'.mainCheckoutLeases key = some lease → st.mainCheckoutLeases key = some lease
  account : ∀ key lock, st'.providerAccountLeases key = some lock → st.providerAccountLeases key = some lock

theorem eq_some_of_update_none {α β : Type} [DecidableEq α] {f : α → Option β} {a b : α} {v : β}
    (h : update f a none b = some v) : f b = some v := by
  by_cases hb : b = a
  · subst hb
    rw [update_self] at h
    cases h
  · rwa [update_of_ne hb] at h

namespace Shrinks

variable {st₁ st₂ : ControlPlaneState}

theorem of_leases (hs : st₁.sessions = st.sessions) (hw : st₁.worktrees = st.worktrees)
    (hx : st₁.workspaceSlots = st.workspaceSlots)
    (hcheckout : ∀ key lease, st₁.mainCheckoutLeases key = some lease → st.mainCheckoutLeases key = some lease)
    (haccount : ∀ key lock, st₁.providerAccountLeases key = some lock → st.providerAccountLeases key = some lock) :
    Shrinks st st₁ where
  record _ r' _ h hn := ⟨r', hs ▸ h, hn⟩
  worktree _ wt' h := ⟨wt', hw ▸ h, fun _ h => h⟩
  slot _ slot' _ h hn := ⟨slot', hx ▸ h, hn⟩
  checkout := hcheckout
  account := haccount

theorem refl (st : ControlPlaneState) : Shrinks st st :=
  of_leases rfl rfl rfl (fun _ _ h => h) fun _ _ h => h

theorem forget (st : ControlPlaneState) (t : String) : Shrinks st (st.forget t) :=
  of_leases rfl rfl rfl (fun _ _ h => h) fun _ _ h => h

theorem trans (h₁ : Shrinks st st₁) (h₂ : Shrinks st₁ st₂) : Shrinks st st₂ where
  record s r' w hr' hn := by
    obtain ⟨r, hr, hn'⟩ := h₂.record s r' w hr' hn
    exact h₁.record s r w hr hn'
  worktree w wt' hwt' := by
    obtain ⟨wt, hwt, hc⟩ := h₂.worktree w wt' hwt'
    obtain ⟨wt₀, hwt₀, hc₀⟩ := h₁.worktree w wt hwt
    exact ⟨wt₀, hwt₀, fun s hs => hc₀ s (hc s hs)⟩
  slot x slot' s hslot' hc := by
    obtain ⟨slot, hslot, hc'⟩ := h₂.slot x slot' s hslot' hc
    exact h₁.slot x slot s hslot hc'
  checkout key lease h := h₁.checkout key lease (h₂.checkout key lease h)
  account key lock h := h₁.account key lock (h₂.account key lock h)

variable {r' : SessionRow}

theorem setSession (h : ∀ w, r'.worktreeId = .value w → ∃ r, st.sessions t = some r ∧ r.worktreeId = .value w) :
    Shrinks st (st.setSession t r') := by
  refine ⟨fun s r'' w hr hn => ?_, fun w wt' hwt' => ⟨wt', hwt', fun _ h => h⟩,
    fun x slot' s h hn => ⟨slot', h, hn⟩, fun _ _ h => h, fun _ _ h => h⟩
  simp only [ControlPlaneState.setSession] at hr
  by_cases hs : s = t
  · subst hs
    rw [update_self] at hr
    cases hr
    exact h w hn
  · rw [update_of_ne hs] at hr
    exact ⟨r'', hr, hn⟩

theorem setSession_null (h : r'.worktreeId = .null) : Shrinks st (st.setSession t r') :=
  setSession fun w hw => by rw [h] at hw; cases hw

theorem update {w : String} {f : WorktreeRow → WorktreeRow}
    (hf : ∀ wt s, (f wt).currentSessionId = .value s → wt.currentSessionId = .value s) :
    Shrinks st { st with worktrees := update st.worktrees w ((st.worktrees w).map f) } := by
  refine ⟨fun s r' w h hn => ⟨r', h, hn⟩, fun w' wt' hwt' => ?_, fun x slot' s h hn => ⟨slot', h, hn⟩,
    fun _ _ h => h, fun _ _ h => h⟩
  dsimp only at hwt'
  by_cases hw : w' = w
  · subst hw
    rw [update_self] at hwt'
    obtain ⟨wt, hwt, rfl⟩ := map_eq_some_iff.mp hwt'
    exact ⟨wt, hwt, hf wt⟩
  · rw [update_of_ne hw] at hwt'
    exact ⟨wt', hwt', fun _ h => h⟩

theorem releaseWorktree (w : String) : Shrinks st (st.releaseWorktree w) :=
  update nofun

theorem releaseScheduledLeaseLocal (session : SessionRow) : Shrinks st (st.releaseScheduledLeaseLocal t session) := by
  unfold ControlPlaneState.releaseScheduledLeaseLocal
  split
  · exact of_leases rfl rfl rfl (fun _ _ h => eq_some_of_update_none h) fun _ _ h => h
  · exact refl st

theorem releaseProviderAccountLeaseLocal (session : SessionRow) :
    Shrinks st (st.releaseProviderAccountLeaseLocal t session) := by
  unfold ControlPlaneState.releaseProviderAccountLeaseLocal
  split
  · split
    · exact of_leases rfl rfl rfl (fun _ _ h => h) fun _ _ h => eq_some_of_update_none h
    · exact refl st
  · exact refl st

theorem setSlot {x : String} {slot : Option WorkspaceSlotRow}
    (h : ∀ slot', slot = some slot' → ∀ s, slot'.currentSessionId ≠ .value s) : Shrinks st (st.setSlot x slot) := by
  refine ⟨fun s r' w h hn => ⟨r', h, hn⟩, fun w wt' hwt' => ⟨wt', hwt', fun _ h => h⟩, fun x' slot' s hslot hn => ?_,
    fun _ _ h => h, fun _ _ h => h⟩
  simp only [ControlPlaneState.setSlot] at hslot
  by_cases hx : x' = x
  · subst hx
    rw [update_self] at hslot
    exact absurd hn (h slot' hslot s)
  · rw [update_of_ne hx] at hslot
    exact ⟨slot', hslot, hn⟩

theorem settled {session : SessionRow} (h : Shrinks st st₁) (hr' : r'.worktreeId = .null) :
    Shrinks st (((st₁.releaseProviderAccountLeaseLocal t session).setSession t r').forget t) :=
  ((h.trans (releaseProviderAccountLeaseLocal session)).trans (setSession_null hr')).trans (forget _ t)

end Shrinks

theorem OwnWorktrees.of_shrinks (hown : OwnWorktrees st) (h : Shrinks st st') : OwnWorktrees st' := by
  intro s r w wt t hr hname hwt howner
  obtain ⟨r₀, hr₀, hname₀⟩ := h.record s r w hr hname
  obtain ⟨wt₀, hwt₀, howner₀⟩ := h.worktree w wt hwt
  exact hown s r₀ w wt₀ t hr₀ hname₀ hwt₀ (howner₀ t howner)

theorem unkeyed_of_shrinks (hkey : st.worktrees "" = none) (h : Shrinks st st') : st'.worktrees "" = none := by
  cases hwt : st'.worktrees "" with
  | none => rfl
  | some wt =>
    obtain ⟨wt₀, hwt₀, -⟩ := h.worktree "" wt hwt
    cases hkey.symm.trans hwt₀

end AutoHarness.Protocol.HostLoss

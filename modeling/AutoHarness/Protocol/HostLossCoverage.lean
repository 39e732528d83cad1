import AutoHarness.Protocol.HostLossShares

/-! What a host that does not come back still holds, in memory, after its loss and every reconnect deadline. Workspace
and cancelled sessions are taken up only with a deadline, a cancelled worktree session never. -/

namespace AutoHarness.Protocol.HostLoss
open Foundation Store Plane Plane.ControlPlaneState Function Option
open Attr (toOption value)

/-! ## The caches of a process, linked -/

def Active (r : SessionRow) : Prop := r.status = .running ∨ r.status = .cancelled

variable {st : ControlPlaneState} {r : SessionRow} {s host reason w : String} {deadlineAt now : Timestamp}
  {draw : String → String} {wt : WorktreeRow} {key : String × String} {lease : MainCheckoutLease}

def Holds (sh : Share) : Prop :=
  (∃ w x, sh.worktrees w = some x) ∨ (∃ slotId host, sh.slots slotId = some host) ∨
    ∃ key lease, sh.checkouts key = some lease

/-- What is held and the records of running and cancelled sessions name each other. -/
structure MemoryPlane where
  state : ControlPlaneState
  worktreeIds : List String
  sessionIds : List String
  worktreeIds_nodup : worktreeIds.Nodup
  sessionIds_nodup : sessionIds.Nodup
  worktree_listed : ∀ {w wt}, state.worktrees w = some wt → w ∈ worktreeIds
  session_listed : ∀ {s r}, state.sessions s = some r → s ∈ sessionIds
  worktree_named : state.worktrees "" = none
  slot_named : state.workspaceSlots "" = none
  session_named : state.sessions "" = none
  own : OwnWorktrees state
  worktree_claim : ∀ {s r w wt}, state.sessions s = some r → Active r → state.worktrees w = some wt →
    wt.currentSessionId = .value s → OnWorktree w wt r
  slot_claim : ∀ {s r x slot}, state.sessions s = some r → Active r → state.workspaceSlots x = some slot →
    slot.currentSessionId = .value s → OnSlot x slot r
  checkout_claim : ∀ {s r key lease}, state.sessions s = some r → Active r →
    state.mainCheckoutLeases key = some lease → lease.sessionId = s → OnCheckout key lease r
  account_claim : ∀ {s r}, state.sessions s = some r → Active r → OwnAccount s r (share state s).accounts
  account_held : ∀ {s r key lock}, state.sessions s = some r → Active r →
    state.providerAccountLeases key = some lock → lock.sessionId = some s → Holds (share state s)

/-! ## What is left -/

def Reserved (st : ControlPlaneState) (s : String) (now : Timestamp) (target : TerminalHookHandoff → Prop) : Prop :=
  ∃ r handoff, st.sessions s = some r ∧ r.terminalHookHandoff = some handoff ∧ now < handoff.expiresAt ∧
    target handoff

section Turns

/-- The record of a session that was taken off its worktree without an acknowledgement. -/
def requeuedRecord (reason : String) (r : SessionRow) : SessionRow :=
  { withoutLeases r with status := .queued, worktreeId := .null, hostId := .null, errorMessage := some reason }

section

variable (hr : st.sessions s = some r)
include hr

end

end Turns

/-! ## The passes, for one session -/

/-- Nothing names the session any more, except a main checkout that its handoff reserves. -/
structure Released (now : Timestamp) (sh : Share) : Prop where
  worktree : ∀ w, sh.worktrees w = none
  slot : ∀ x, sh.slots x = none
  checkout : ∀ key lease, sh.checkouts key = some lease → ∃ r handoff, sh.record = some r ∧
    r.terminalHookHandoff = some handoff ∧ now < handoff.expiresAt ∧ handoff.hostId = key.1 ∧
    handoff.mainCheckoutLease = true ∧ handoff.repositoryId = key.2
  account : ∀ key, sh.accounts key = none

structure Stage (s : String) (sh : Share) (st : ControlPlaneState) : Prop where
  share : share st s = sh
  own : OwnWorktrees st
  named : st.worktrees "" = none

theorem Stage.move {s : String} {sh sh' : Share} {st st' : ControlPlaneState} (h : Stage s sh st)
    (hshrinks : Shrinks st st') (hshare : HostLoss.share st' s = sh') : Stage s sh' st' :=
  ⟨hshare, h.own.of_shrinks hshrinks, unkeyed_of_shrinks h.named hshrinks⟩

theorem Stage.record {s : String} {sh : Share} {st : ControlPlaneState} (h : Stage s sh st) :
    st.sessions s = sh.record := congrArg Share.record h.share

section Passes

variable {sh sh' : Share} {keys : List String}

end Passes

/-! ## One session through both passes -/

namespace MemoryPlane

variable {p : MemoryPlane}

theorem stage (p : MemoryPlane) (s : String) : Stage s (share p.state s) p.state := ⟨rfl, p.own, p.worktree_named⟩

variable {w x : String} {key : String × String} {lease : MainCheckoutLease} {r' : SessionRow}

section Named

variable (hr : p.state.sessions s = some r) (hactive : Active r)

include hr hactive

end Named

/-! ### What the passes leave alone -/

variable (hr : p.state.sessions s = some r) (hactive : Active r)

include hr hactive

variable (hhost : r.hostId = .value host)
include hhost

end MemoryPlane

/-! ## Coverage -/

section OneSession

private structure LoneSession where
  record : SessionRow
  worktree : Option WorktreeRow := none
  slot : Option WorkspaceSlotRow := none
  worktree_claim : ∀ wt, worktree = some wt → wt.currentSessionId = .value "s" ∧ OnWorktree "w" wt record
  slot_claim : ∀ x, slot = some x → x.currentSessionId = .value "s" ∧ OnSlot "x" x record

private def LoneSession.state (l : LoneSession) : ControlPlaneState where
  ackDeadlineMs := 0
  pendingAcks := ⟨[], List.nodup_nil⟩
  sessions := fun s => if s = "s" then some l.record else none
  worktrees := fun w => if w = "w" then l.worktree else none
  workspaceSlots := fun x => if x = "x" then l.slot else none

private theorem ite_eq_some {α : Type} {k k₀ : String} {v : Option α} {a : α}
    (h : (if k = k₀ then v else none) = some a) : k = k₀ ∧ v = some a := by
  split at h
  · exact ⟨‹_›, h⟩
  · cases h

private def LoneSession.plane (l : LoneSession) : MemoryPlane where
  state := l.state
  worktreeIds := ["w"]
  sessionIds := ["s"]
  worktreeIds_nodup := by simp
  sessionIds_nodup := by simp
  worktree_listed h := by simp [(ite_eq_some h).1]
  session_listed h := by simp [(ite_eq_some h).1]
  worktree_named := rfl
  slot_named := rfl
  session_named := rfl
  own := by
    intro s r w wt t hr _ hwt howner
    obtain ⟨rfl, -⟩ := ite_eq_some hr
    obtain ⟨rfl, hw⟩ := ite_eq_some hwt
    exact (Attr.value.inj (howner.symm.trans (l.worktree_claim wt hw).1))
  worktree_claim hr _ hwt _ := by
    obtain ⟨rfl, hr⟩ := ite_eq_some hr
    obtain ⟨rfl, hw⟩ := ite_eq_some hwt
    exact Option.some.inj hr ▸ (l.worktree_claim _ hw).2
  slot_claim hr _ hx _ := by
    obtain ⟨rfl, hr⟩ := ite_eq_some hr
    obtain ⟨rfl, hx⟩ := ite_eq_some hx
    exact Option.some.inj hr ▸ (l.slot_claim _ hx).2
  checkout_claim _ _ h := nomatch h
  account_claim _ _ key lock h := by cases h
  account_held _ _ h := nomatch h

end OneSession

end AutoHarness.Protocol.HostLoss

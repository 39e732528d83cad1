import AutoHarness.Plane.Local
import AutoHarness.Protocol.Checkouts

/-! What a turn without a store can do: it writes one record, gives targets back or takes a free one, and mints or
disposes of at most one handoff. -/

namespace AutoHarness.Protocol
open Foundation Store Plane Function Option ControlPlaneState

/-! ## Records -/

structure LocalRow (r : SessionRow) : Prop where
  prompt : r.type = .prompt → r.mainCheckoutLease = false
  queued : r.status = .queued → r.worktreeId.toOption = none ∧ r.mainCheckoutLease = false
  active : r.status.isActive = true → r.terminalHookHandoff = none
  located : r.status = .running → r.mainCheckoutLease = true → ∃ host, r.hostId = .value host ∧ host ≠ ""
  worktree : ∀ i, r.worktreeId = .value i → r.mainCheckoutLease = false ∧ r.terminalHookHandoff = none
  ended : r.status.isTerminal = true → r.status ≠ .cancelled →
    r.worktreeId.toOption = none ∧ (r.mainCheckoutLease = true → r.terminalHookHandoff ≠ none)
  retained : r.mainCheckoutLease = true → ∀ h, r.terminalHookHandoff = some h → h.mainCheckoutLease = true
  attempt : r.status = .cancelled ∨ r.status = .timedOut → ∀ h, r.terminalHookHandoff = some h →
    h.attemptId = r.attemptId

namespace LocalRow

variable {r r' : SessionRow}

theorem of_queued (hs : r.status = .queued) (hw : r.worktreeId.toOption = none) (hm : r.mainCheckoutLease = false)
    (hh : r.terminalHookHandoff = none) : LocalRow r where
  prompt _ := hm
  queued _ := ⟨hw, hm⟩
  active _ := hh
  located h := by rw [hs] at h; cases h
  worktree _ _ := ⟨hm, hh⟩
  ended h := by rw [hs] at h; cases h
  retained _ h hh' := by rw [hh] at hh'; cases hh'
  attempt h := by rw [hs] at h; obtain h | h := h <;> cases h

section

variable (hp : r.type = .prompt → r.mainCheckoutLease = false)
include hp

theorem of_running (hs : r.status = .running) (hh : r.terminalHookHandoff = none)
    (hl : r.mainCheckoutLease = true → ∃ host, r.hostId = .value host ∧ host ≠ "")
    (hw : ∀ i, r.worktreeId = .value i → r.mainCheckoutLease = false) : LocalRow r where
  prompt := hp
  queued h := by rw [hs] at h; cases h
  active _ := hh
  located _ := hl
  worktree i hi := ⟨hw i hi, hh⟩
  ended h := by rw [hs] at h; cases h
  retained _ h hh' := by rw [hh] at hh'; cases hh'
  attempt h := by rw [hs] at h; obtain h | h := h <;> cases h

theorem of_cancelled (hs : r.status = .cancelled) (hh : r.terminalHookHandoff = none)
    (hw : ∀ i, r.worktreeId = .value i → r.mainCheckoutLease = false) : LocalRow r where
  prompt := hp
  queued h := by rw [hs] at h; cases h
  active _ := hh
  located h := by rw [hs] at h; cases h
  worktree i hi := ⟨hw i hi, hh⟩
  ended _ hne := absurd hs hne
  retained _ h hh' := by rw [hh] at hh'; cases hh'
  attempt _ h hh' := by rw [hh] at hh'; cases hh'

theorem of_ended (hs : r.status.isTerminal = true) (hw : r.worktreeId.toOption = none)
    (hm : r.mainCheckoutLease = true → ∃ h, r.terminalHookHandoff = some h ∧ h.mainCheckoutLease = true)
    (ha : r.status = .cancelled ∨ r.status = .timedOut → ∀ h, r.terminalHookHandoff = some h →
      h.attemptId = r.attemptId) : LocalRow r where
  prompt := hp
  queued h := by rw [h] at hs; cases hs
  active h := by rw [SessionStatus.isTerminal_iff.mp hs] at h; cases h
  located h := by rw [h] at hs; cases hs
  worktree i hi := by rw [hi] at hw; cases hw
  ended _ _ := by
    refine ⟨hw, fun h => ?_⟩
    obtain ⟨hand, hh, -⟩ := hm h
    simp [hh]
  retained h hand hh := by
    obtain ⟨hand', hh', hmain⟩ := hm h
    cases hh.symm.trans hh'
    exact hmain
  attempt := ha

end

theorem of_empty (hs : r.status ≠ .running) (hw : r.worktreeId.toOption = none) (hm : r.mainCheckoutLease = false)
    (hh : r.terminalHookHandoff = none) : LocalRow r := by
  by_cases hq : r.status = .queued
  · exact of_queued hq hw hm hh
  · refine of_ended (fun _ => hm) ?_ hw (fun h => ?_) fun _ h hh' => ?_
    · cases hst : r.status <;> simp_all [SessionStatus.isTerminal]
    · rw [hm] at h
      cases h
    · rw [hh] at hh'
      cases hh'

variable (h : LocalRow r)
include h

theorem host_of_active (ha : r.status.isActive = true) (hm : r.mainCheckoutLease = true) :
    r.status = .running ∧ ∃ host, r.hostId = .value host ∧ given r.hostId.toOption = some host := by
  have hrun : r.status = .running := by
    cases hst : r.status with
    | running => rfl
    | queued =>
      rw [(h.queued hst).2] at hm
      cases hm
    | _ =>
      rw [hst] at ha
      cases ha
  obtain ⟨host, hhost, hne⟩ := h.located hrun hm
  exact ⟨hrun, host, hhost, given_eq_some.mpr ⟨by rw [hhost]; rfl, hne⟩⟩

theorem of_same (ht : r'.type = r.type) (hs : r'.status = r.status) (hw : r'.worktreeId = r.worktreeId)
    (hm : r'.mainCheckoutLease = r.mainCheckoutLease) (hh : r'.terminalHookHandoff = r.terminalHookHandoff)
    (hhost : r'.hostId = r.hostId) (ha : r'.attemptId = r.attemptId) : LocalRow r' := by
  obtain ⟨h0, h1, h2, h3, h4, h5, h7, h6⟩ := h
  rw [← ht, ← hm] at h0
  rw [← hs, ← hw, ← hm] at h1
  rw [← hs, ← hh] at h2
  rw [← hs, ← hm, ← hhost] at h3
  rw [← hw, ← hm, ← hh] at h4
  rw [← hs, ← hw, ← hm, ← hh] at h5
  rw [← hm, ← hh] at h7
  rw [← hs, ← hh, ← ha] at h6
  exact ⟨h0, h1, h2, h3, h4, h5, h7, h6⟩

theorem worktreeId_of_main (hm : r.mainCheckoutLease = true) : r.worktreeId.toOption = none := by
  cases hw : r.worktreeId with
  | value i =>
    rw [(h.worktree i hw).1] at hm
    cases hm
  | _ => rfl

theorem handoff_of_running (hs : r.status = .running) : r.terminalHookHandoff = none :=
  h.active (by rw [hs]; rfl)

end LocalRow

/-! ## What a turn gives back -/

def Marked (st : ControlPlaneState) : Prop :=
  (∀ i x, st.worktrees i = some x → x.currentSessionId.toOption ≠ none → x.status = .busy) ∧ st.worktrees "" = none

/-- Records stay, targets outside `freed` keep the session they name, and nothing new awaits an
acknowledgement. -/
structure GivesBack (freed : HookTarget → Prop) (st st' : ControlPlaneState) : Prop where
  sessions : st'.sessions = st.sessions
  pending : ∀ e ∈ st'.pendingAcks.entries, e ∈ st.pendingAcks.entries
  owner : ∀ t, ¬ freed t → (cacheOccupancy st').owner t = (cacheOccupancy st).owner t
  names : ∀ t, (cacheOccupancy st').owner t = none ∨ (cacheOccupancy st').owner t = (cacheOccupancy st).owner t
  marked : Marked st → Marked st'

namespace GivesBack

variable {st st' st'' : ControlPlaneState} {freed : HookTarget → Prop} {s i : String} {r : SessionRow}

theorem refl (freed : HookTarget → Prop) (st : ControlPlaneState) : GivesBack freed st st :=
  ⟨rfl, fun _ h => h, fun _ _ => rfl, fun _ => .inr rfl, fun h => h⟩

section

variable (h : GivesBack freed st st')
include h

theorem trans (h' : GivesBack freed st' st'') : GivesBack freed st st'' where
  sessions := h'.sessions.trans h.sessions
  pending e he := h.pending e (h'.pending e he)
  owner t ht := (h'.owner t ht).trans (h.owner t ht)
  names t := (h'.names t).elim .inl fun ht => by rw [ht]; exact h.names t
  marked hm := h'.marked (h.marked hm)

theorem forget : GivesBack freed st (st'.forget s) :=
  ⟨h.sessions, fun e he => h.pending e (OrderedMap.mem_erase.mp he).1, h.owner, h.names, h.marked⟩

theorem account : GivesBack freed st (st'.releaseProviderAccountLeaseLocal s r) := by
  refine h.trans ?_
  unfold releaseProviderAccountLeaseLocal
  split
  · split <;> exact ⟨rfl, fun _ he => he, fun _ _ => rfl, fun _ => .inr rfl, fun hm => hm⟩
  · exact refl _ _

theorem worktree_update {f : WorktreeRow → WorktreeRow}
    (hf : ∀ x, (f x).status = x.status ∧ (f x).currentSessionId = x.currentSessionId) :
    GivesBack freed st { st' with worktrees := update st'.worktrees i ((st'.worktrees i).map f) } := by
  have howner : ∀ t, (cacheOccupancy { st' with
      worktrees := update st'.worktrees i ((st'.worktrees i).map f) }).owner t = (cacheOccupancy st').owner t := by
    intro t
    cases t with
    | worktree j =>
      by_cases hj : j = i
      · subst hj
        simp only [Occupancy.owner, cacheOccupancy, update_self]
        cases st'.worktrees j with
        | none => rfl
        | some x => simp [(hf x).2]
      · simp [Occupancy.owner, cacheOccupancy, hj]
    | mainCheckout host repo => rfl
  refine h.trans ⟨rfl, fun _ he => he, fun t _ => howner t, fun t => .inr (howner t),
    fun hm => ⟨fun j y hy hne => ?_, ?_⟩⟩
  · by_cases hj : j = i
    · subst hj
      simp only [update_self, map_eq_some_iff] at hy
      obtain ⟨x, hx, rfl⟩ := hy
      rw [(hf x).1]
      exact hm.1 j x hx (by rwa [(hf x).2] at hne)
    · exact hm.1 j y (by simpa [hj] using hy) hne
  · by_cases hi : "" = i
    · subst hi
      simp [hm.2]
    · simp [hi, hm.2]

theorem worktree (hi : freed (.worktree i)) : GivesBack freed st (st'.releaseWorktree i) := by
  have howner : ∀ t, t ≠ .worktree i → (cacheOccupancy (st'.releaseWorktree i)).owner t = (cacheOccupancy st').owner t := by
    intro t ht
    cases t with
    | worktree j =>
      have hj : j ≠ i := fun e => ht (by rw [e])
      simp [Occupancy.owner, cacheOccupancy, releaseWorktree, hj]
    | mainCheckout host repo => rfl
  refine h.trans ⟨rfl, fun _ he => he, fun t ht => howner t fun e => ht (e ▸ hi), fun t => ?_,
    fun hm => ⟨fun j y hy hne => ?_, ?_⟩⟩
  · by_cases ht : t = .worktree i
    · subst ht
      left
      simp only [Occupancy.owner, cacheOccupancy, releaseWorktree, update_self]
      cases st'.worktrees i <;> rfl
    · exact .inr (howner t ht)
  · by_cases hj : j = i
    · subst hj
      simp only [releaseWorktree, update_self, map_eq_some_iff] at hy
      obtain ⟨x, -, rfl⟩ := hy
      exact absurd rfl hne
    · exact hm.1 j y (by simpa [releaseWorktree, hj] using hy) hne
  · by_cases hi : "" = i
    · subst hi
      simp [releaseWorktree, hm.2]
    · simp [releaseWorktree, hi, hm.2]

theorem lease_update {key : String × String} {l : Option MainCheckoutLease}
    (hk : (freed (.mainCheckout key.1 key.2) ∧ l = none) ∨
      l.map (·.sessionId) = (st'.mainCheckoutLeases key).map (·.sessionId)) :
    GivesBack freed st { st' with mainCheckoutLeases := update st'.mainCheckoutLeases key l } := by
  have howner : ∀ t, t ≠ .mainCheckout key.1 key.2 → (cacheOccupancy { st' with
      mainCheckoutLeases := update st'.mainCheckoutLeases key l }).owner t = (cacheOccupancy st').owner t := by
    intro t ht
    cases t with
    | worktree j => rfl
    | mainCheckout host repo =>
      have hkey : (host, repo) ≠ key := fun e => ht (by rw [← e])
      simp [Occupancy.owner, cacheOccupancy, hkey]
  have hown : (cacheOccupancy { st' with
      mainCheckoutLeases := update st'.mainCheckoutLeases key l }).owner (.mainCheckout key.1 key.2) =
        l.map (·.sessionId) := by
    simp [Occupancy.owner, cacheOccupancy]
  refine h.trans ⟨rfl, fun _ he => he, fun t ht => ?_, fun t => ?_, fun hm => hm⟩
  · by_cases hkey : t = .mainCheckout key.1 key.2
    · subst hkey
      rw [hown]
      exact hk.resolve_left fun hf => ht hf.1
    · exact howner t hkey
  · by_cases hkey : t = .mainCheckout key.1 key.2
    · subst hkey
      rw [hown]
      refine hk.imp (fun hf => ?_) id
      rw [hf.2, map_none]
    · exact .inr (howner t hkey)

end

/-! ### A session gives back what names it -/

/-- The targets that name session `s`. -/
def Owned (st : ControlPlaneState) (s : String) (t : HookTarget) : Prop := (cacheOccupancy st).owner t = some s

variable (h : GivesBack (Owned st s) st st')
include h

theorem owned_of_owner {t : HookTarget} (ht : (cacheOccupancy st').owner t = some s) : Owned st s t := by
  by_contra hno
  rw [h.owner t hno] at ht
  exact hno ht

theorem checkout : GivesBack (Owned st s) st (st'.releaseScheduledLeaseLocal s r) := by
  unfold releaseScheduledLeaseLocal
  split
  · rename_i key hkey
    obtain ⟨-, -, -, l, hl, hs, -⟩ := holdsScheduled_eq_some.mp hkey
    refine h.lease_update (.inl ⟨h.owned_of_owner ?_, rfl⟩)
    simp [Occupancy.owner, cacheOccupancy, hl, hs]
  · exact h

theorem named (hn : (st'.worktrees i).any (fun wt => wt.currentSessionId == .value s) = true) :
    GivesBack (Owned st s) st (st'.releaseWorktree i) := by
  obtain ⟨x, hx, hs⟩ := (any_eq_true _ _).mp hn
  refine h.worktree (h.owned_of_owner ?_)
  simp [Occupancy.owner, cacheOccupancy, hx, beq_iff_eq.mp hs, Attr.toOption]

theorem ownWorktree : GivesBack (Owned st s) st (st'.releaseOwnWorktree s r) := by
  unfold releaseOwnWorktree
  split
  · split
    · exact h.named ‹_›
    · exact h
  · exact h

theorem reservedWorktree {j : Option String} : GivesBack (Owned st s) st (st'.releaseReservedWorktree s j) := by
  unfold releaseReservedWorktree
  split
  · split
    · exact h.named ‹_›
    · exact h
  · exact h

theorem reservedMainCheckout {hand : TerminalHookHandoff} :
    GivesBack (Owned st s) st (st'.releaseReservedMainCheckout s hand) := by
  unfold releaseReservedMainCheckout
  split
  · rename_i hc
    simp only [Bool.and_eq_true, any_eq_true, beq_iff_eq] at hc
    obtain ⟨-, l, hl, hs⟩ := hc
    refine h.lease_update (.inl ⟨h.owned_of_owner ?_, rfl⟩)
    simp [Occupancy.owner, cacheOccupancy, hl, hs]
  · exact h

end GivesBack

/-! ## Turns -/

variable {st st' : ControlPlaneState} {minted : Option String} {disposal : Option (String × String)}
  {h : TerminalHookHandoff}

/-- It frees only targets that name `s`, keeps what the new record holds, and loses a reservation only by disposal. -/
structure Turns (minted : Option String) (disposal : Option (String × String)) (s : String) (r r' : SessionRow)
    (freed : HookTarget → Prop) (st st' : ControlPlaneState) : Prop where
  before : st.sessions s = some r
  type : r'.type = r.type
  gives : GivesBack freed st st'
  own : ∀ t, freed t → (cacheOccupancy st).owner t = some s
  holds : ∀ t, HoldsTarget r' t → (cacheOccupancy st).owner t = some s ∧ ¬ freed t
  row : LocalRow r'
  pending : r'.status = .running ∨ ∀ p, (s, p) ∉ st'.pendingAcks.entries
  keeps : ∀ h t, r.terminalHookHandoff = some h → Reserves h t →
    r'.terminalHookHandoff = some h ∨ (disposal = some (s, h.handoffId) ∧ (cacheOccupancy st').Idle t)
  mints : ∀ h, r'.terminalHookHandoff = some h → r.terminalHookHandoff = some h ∨ minted = some h.handoffId

structure Takes (s : String) (r r' : SessionRow) (t : HookTarget) (st st' : ControlPlaneState) : Prop where
  before : st.sessions s = some r
  after : st'.sessions = Function.update st.sessions s (some r')
  type : r'.type = r.type
  prompt : ∀ i, t = .worktree i → r.type = .prompt
  free : (cacheOccupancy st).owner t = none
  taken : (cacheOccupancy st').owner t = some s
  others : ∀ t', t' ≠ t → (cacheOccupancy st').owner t' = (cacheOccupancy st).owner t'
  marked : Marked st → Marked st'
  pending : ∀ e ∈ st'.pendingAcks.entries, e.1 = s ∨ e ∈ st.pendingAcks.entries
  running : r'.status = .running
  row : LocalRow r'
  holds : ∀ t', HoldsTarget r' t' → t' = t
  empty : r.terminalHookHandoff = none

inductive LocalStep (minted : Option String) (disposal : Option (String × String)) (st st' : ControlPlaneState) :
    Prop where
  | still (gives : GivesBack (fun _ => False) st st')
  | turn {s : String} {r r' : SessionRow} {freed : HookTarget → Prop} {st₁ : ControlPlaneState}
      (h : Turns minted disposal s r r' freed st st₁) (after : st' = st₁.setSession s r')
  | take {s : String} {r r' : SessionRow} {t : HookTarget} (h : Takes s r r' t st st')
  | create {s : String} {r : SessionRow} (before : st.sessions s = none) (after : st' = st.setSession s r)
      (empty : ∀ t, ¬ HoldsTarget r t) (row : LocalRow r) (none : r.terminalHookHandoff = none)

structure LocalInv (st : ControlPlaneState) : Prop where
  backed : Backed (cacheOccupancy st).owner (targetHolds st.sessions)
  marked : Marked st
  row : ∀ s r, st.sessions s = some r → LocalRow r
  prompt : ∀ i s, (cacheOccupancy st).owner (.worktree i) = some s → ∃ r, st.sessions s = some r ∧ r.type = .prompt
  pending : ∀ s p, (s, p) ∈ st.pendingAcks.entries → ∃ r, st.sessions s = some r ∧ r.status = .running

namespace LocalInv

variable {s s₁ : String} {r r' : SessionRow} {t : HookTarget}

theorem owner_of_holds (h : LocalInv st) (hr : st.sessions s = some r) (ht : HoldsTarget r t) :
    (cacheOccupancy st).owner t = some s := h.backed s t ⟨r, hr, ht⟩

theorem not_pending (h : LocalInv st) (hr : st.sessions s = some r) (hs : r.status ≠ .running) (p : PendingAck) :
    (s, p) ∉ st.pendingAcks.entries := by
  intro hp
  obtain ⟨r₁, hr₁, hrun⟩ := h.pending s p hp
  rw [hr] at hr₁
  cases hr₁
  exact hs hrun

theorem worktreeId_ne_empty (h : LocalInv st) (hr : st.sessions s = some r) {i : String} (hi : r.worktreeId = .value i) :
    i ≠ "" := by
  rintro rfl
  have ho := h.owner_of_holds hr (t := .worktree "") (.inr hi)
  simp [Occupancy.owner, cacheOccupancy, h.marked.2] at ho

theorem row_update (h : LocalInv st) (hafter : st'.sessions = update st.sessions s (some r'))
    (hr' : LocalRow r') : ∀ s₁ r₁, st'.sessions s₁ = some r₁ → LocalRow r₁ := by
  intro s₁ r₁ hr₁
  by_cases hs : s₁ = s
  · subst hs
    rw [hafter, update_self] at hr₁
    cases hr₁
    exact hr'
  · rw [hafter, update_of_ne hs] at hr₁
    exact h.row s₁ r₁ hr₁

theorem pending_update (h : LocalInv st) (hafter : st'.sessions = update st.sessions s (some r'))
    (hold : ∀ e ∈ st'.pendingAcks.entries, e.1 ≠ s → e ∈ st.pendingAcks.entries)
    (hown : r'.status = .running ∨ ∀ p, (s, p) ∉ st'.pendingAcks.entries) :
    ∀ s₁ p, (s₁, p) ∈ st'.pendingAcks.entries → ∃ r₁, st'.sessions s₁ = some r₁ ∧ r₁.status = .running := by
  intro s₁ p hp
  by_cases hs : s₁ = s
  · subst hs
    exact ⟨r', by rw [hafter, update_self], hown.resolve_right fun hno => hno p hp⟩
  · obtain ⟨r₁, hr₁, hrun⟩ := h.pending s₁ p (hold _ hp hs)
    exact ⟨r₁, by rwa [hafter, update_of_ne hs], hrun⟩

theorem prompt_update (hr : st.sessions s = some r)
    (hafter : st'.sessions = update st.sessions s (some r')) (ht : r'.type = r.type)
    (h : ∃ r₁, st.sessions s₁ = some r₁ ∧ r₁.type = .prompt) : ∃ r₁, st'.sessions s₁ = some r₁ ∧ r₁.type = .prompt := by
  obtain ⟨r₁, hr₁, hp⟩ := h
  by_cases hs : s₁ = s
  · subst hs
    cases hr.symm.trans hr₁
    exact ⟨r', by rw [hafter, update_self], ht.trans hp⟩
  · exact ⟨r₁, by rwa [hafter, update_of_ne hs], hp⟩

theorem turn {freed : HookTarget → Prop} (h : LocalInv st) (ht : Turns minted disposal s r r' freed st st') :
    LocalInv (st'.setSession s r') := by
  have hafter : (st'.setSession s r').sessions = update st.sessions s (some r') := by
    rw [← ht.gives.sessions]
    rfl
  obtain ⟨hself, hother⟩ := targetHolds_update hafter
  refine ⟨?_, ht.gives.marked h.marked, h.row_update hafter ht.row, fun i s₁ hs₁ => ?_,
    h.pending_update hafter (fun e he _ => ht.gives.pending e he) ht.pending⟩
  · exact h.backed.give ht.own ht.gives.owner (fun t hs => ht.holds t ((hself t).mp hs)) hother
  · have hs₁' : (cacheOccupancy st').owner (.worktree i) = some s₁ := hs₁
    obtain hnone | hsame := ht.gives.names (.worktree i)
    · rw [hnone] at hs₁'
      cases hs₁'
    · exact prompt_update ht.before hafter ht.type (h.prompt i s₁ (hsame.symm.trans hs₁'))

theorem take (h : LocalInv st) (ht : Takes s r r' t st st') : LocalInv st' := by
  obtain ⟨hself, hother⟩ := targetHolds_update ht.after
  refine ⟨?_, ht.marked h.marked, h.row_update ht.after ht.row, fun i s₁ hs₁ => ?_,
    h.pending_update ht.after (fun e he hne => (ht.pending e he).resolve_left hne) (.inl ht.running)⟩
  · have hfree : ∀ t', t' = t → (cacheOccupancy st).owner t' = none := by
      rintro _ rfl
      exact ht.free
    refine h.backed.take (s := s) hfree ?_ ht.others (fun t' hs => .inr (ht.holds t' ((hself t').mp hs))) hother
    rintro _ rfl
    exact ht.taken
  · refine prompt_update ht.before ht.after ht.type ?_
    by_cases hi : .worktree i = t
    · rw [hi, ht.taken] at hs₁
      cases hs₁
      exact ⟨r, ht.before, ht.prompt i hi.symm⟩
    · exact h.prompt i s₁ ((ht.others _ hi).symm.trans hs₁)

theorem create (h : LocalInv st) (hnew : st.sessions s = none) (hempty : ∀ t, ¬ HoldsTarget r t) (hrow : LocalRow r) :
    LocalInv (st.setSession s r) := by
  obtain ⟨hself, hother⟩ := targetHolds_update (rfl : (st.setSession s r).sessions = _)
  refine ⟨h.backed.mono (fun _ => rfl) fun s₁ t ht => ?_, h.marked, h.row_update rfl hrow, fun i s₁ hs₁ => ?_,
    h.pending_update rfl (fun e he _ => he) (.inr fun p hp => ?_)⟩
  · by_cases hs : s₁ = s
    · subst hs
      exact absurd ((hself t).mp ht) (hempty t)
    · exact hother s₁ hs t ht
  · obtain ⟨r₁, hr₁, hp⟩ := h.prompt i s₁ hs₁
    have hs : s₁ ≠ s := by
      rintro rfl
      rw [hnew] at hr₁
      cases hr₁
    exact ⟨r₁, (update_of_ne hs ..).trans hr₁, hp⟩
  · obtain ⟨r₁, hr₁, -⟩ := h.pending s p hp
    rw [hnew] at hr₁
    cases hr₁

theorem step (h : LocalInv st) (hs : LocalStep minted disposal st st') : LocalInv st' := by
  cases hs with
  | still gives =>
    refine ⟨h.backed.mono (fun t => gives.owner t id) ?_, gives.marked h.marked, ?_, ?_, ?_⟩
    · rw [gives.sessions]
      exact fun _ _ hh => hh
    · rw [gives.sessions]
      exact h.row
    · rw [gives.sessions]
      exact fun i s hs => h.prompt i s ((gives.owner _ id).symm.trans hs)
    · rw [gives.sessions]
      exact fun s p hp => h.pending s p (gives.pending _ hp)
  | turn ht after =>
    rw [after]
    exact h.turn ht
  | take ht => exact h.take ht
  | create before after empty row none =>
    rw [after]
    exact h.create before empty row

end LocalInv

/-! ## Handoffs over a turn -/

def localView (st : ControlPlaneState) : HookView := ⟨st.sessions, cacheOccupancy st⟩

theorem LocalInv.reserved (h : LocalInv st) : (localView st).Reserved :=
  HookView.reserved_of_backed h.marked.1 h.backed

section

variable (hs : LocalStep minted disposal st st')
include hs

theorem LocalStep.stores {s : String}
    (hst : (localView st').Stores s h) : (localView st).Stores s h ∨ minted = some h.handoffId := by
  obtain ⟨r, hr, hh⟩ := hst
  -- the record that was written, or one that was there before
  have written : ∀ {s₁ : String} {r₁ : SessionRow}, st'.sessions = update st.sessions s₁ (some r₁) →
      (s = s₁ ∧ r = r₁) ∨ (localView st).Stores s h := by
    intro s₁ r₁ hafter
    have hr' : update st.sessions s₁ (some r₁) s = some r := hafter ▸ hr
    by_cases he : s = s₁
    · subst he
      rw [update_self] at hr'
      exact .inl ⟨rfl, (some.inj hr').symm⟩
    · rw [update_of_ne he] at hr'
      exact .inr ⟨r, hr', hh⟩
  cases hs with
  | still gives => exact .inl ⟨r, (congrFun gives.sessions s).symm.trans hr, hh⟩
  | turn ht after =>
    obtain ⟨rfl, rfl⟩ | hold := written (by rw [after, ← ht.gives.sessions]; rfl)
    · exact (ht.mints h hh).imp_left fun hold => ⟨_, ht.before, hold⟩
    · exact .inl hold
  | take ht =>
    obtain ⟨rfl, rfl⟩ | hold := written ht.after
    · rw [ht.row.handoff_of_running ht.running] at hh
      cases hh
    · exact .inl hold
  | create before after empty row none =>
    obtain ⟨rfl, rfl⟩ | hold := written (by rw [after]; rfl)
    · rw [none] at hh
      cases hh
    · exact .inl hold

theorem LocalStep.released {s : String} {t : HookTarget} (hst : (localView st).Stores s h) (hres : Reserves h t) :
    (localView st').Stores s h ∨ (disposal = some (s, h.handoffId) ∧ (cacheOccupancy st').Idle t) := by
  obtain ⟨r, hr, hh⟩ := hst
  have hr : st.sessions s = some r := hr
  have other : ∀ {s₁ : String} {r₁ : SessionRow}, st'.sessions = update st.sessions s₁ (some r₁) →
      s ≠ s₁ → (localView st').Stores s h := fun hafter hne =>
    ⟨r, (congrFun hafter s).trans ((update_of_ne hne ..).trans hr), hh⟩
  cases hs with
  | still gives => exact .inl ⟨r, (congrFun gives.sessions s).trans hr, hh⟩
  | @turn s₁ r₁ r' freed st₁ ht after =>
    have hafter : st'.sessions = update st.sessions s₁ (some r') := by
      rw [after, ← ht.gives.sessions]
      rfl
    by_cases he : s = s₁
    · subst he
      cases ht.before.symm.trans hr
      rw [after]
      exact (ht.keeps h t hh hres).imp_left fun hh' => ⟨r', update_self .., hh'⟩
    · exact .inl (other hafter he)
  | take ht =>
    refine .inl (other ht.after ?_)
    rintro rfl
    cases ht.before.symm.trans hr
    rw [ht.empty] at hh
    cases hh
  | create before after empty row none =>
    refine .inl (other (by rw [after]; rfl) ?_)
    rintro rfl
    cases before.symm.trans hr

/-- A step that minted an id nobody knew keeps every handoff that reserves something, unless it
disposed of it. -/
theorem LocalStep.disposes {known : List String}
    (hfresh : ∀ id, minted = some id → id ∉ known) : (localView st).Disposes (localView st') known disposal :=
  ⟨fun _ _ _ => hs.released, fun _ h hst => (hs.stores hst).imp_right (hfresh h.handoffId)⟩

end

/-! ## The usual turns -/

theorem not_mem_forget (s : String) (p : PendingAck) : (s, p) ∉ (st.forget s).pendingAcks.entries :=
  fun h => (OrderedMap.mem_erase.mp h).2 rfl

theorem LocalStep.emptied {s : String} {r r' : SessionRow} (hr : st.sessions s = some r)
    (hg : GivesBack (GivesBack.Owned st s) st st') (htype : r'.type = r.type)
    (hnone : r.terminalHookHandoff = none) (hs : r'.status ≠ .running) (hw : r'.worktreeId.toOption = none)
    (hm : r'.mainCheckoutLease = false) (hh : r'.terminalHookHandoff = none)
    (hpend : ∀ p, (s, p) ∉ st'.pendingAcks.entries) : LocalStep minted disposal st (st'.setSession s r') := by
  have ht : Turns minted disposal s r r' (GivesBack.Owned st s) st st' :=
    { before := hr
      type := htype
      gives := hg
      own := fun _ hf => hf
      holds := fun t ht => absurd ht (not_holdsTarget hw hm hh)
      row := .of_empty hs hw hm hh
      pending := .inr hpend
      keeps := fun _ _ hhand _ => by rw [hnone] at hhand; cases hhand
      mints := fun _ hhand => by rw [hh] at hhand; cases hhand }
  exact .turn ht rfl

namespace LocalInv

variable {s : String} {r r' : SessionRow}

theorem kept (h : LocalInv st) (hr : st.sessions s = some r) (hg : GivesBack (fun _ => False) st st')
    (htype : r'.type = r.type)
    (hholds : ∀ t, HoldsTarget r' t → HoldsTarget r t) (hh : r'.terminalHookHandoff = r.terminalHookHandoff)
    (hrow : LocalRow r') (hpend : r'.status = .running ∨ ∀ p, (s, p) ∉ st'.pendingAcks.entries) :
    LocalStep minted disposal st (st'.setSession s r') := by
  have ht : Turns minted disposal s r r' (fun _ => False) st st' :=
    { before := hr
      type := htype
      gives := hg
      own := fun _ hf => hf.elim
      holds := fun t ht => ⟨h.owner_of_holds hr (hholds t ht), id⟩
      row := hrow
      pending := hpend
      keeps := fun hand t hhand _ => .inl (hh.trans hhand)
      mints := fun hand hhand => .inl (hh.symm.trans hhand) }
  exact .turn ht rfl

theorem same (h : LocalInv st) (hr : st.sessions s = some r) (hg : GivesBack (fun _ => False) st st')
    (htype : r'.type = r.type) (hs : r'.status = r.status) (hw : r'.worktreeId = r.worktreeId)
    (hm : r'.mainCheckoutLease = r.mainCheckoutLease)
    (hh : r'.terminalHookHandoff = r.terminalHookHandoff) (hhost : r'.hostId = r.hostId)
    (hrepo : r'.repositoryId = r.repositoryId) (ha : r'.attemptId = r.attemptId) :
    LocalStep minted disposal st (st'.setSession s r') := by
  refine h.kept hr hg htype (fun t ht => ht.of_same hw hm hh hhost hrepo) hh
    ((h.row s r hr).of_same htype hs hw hm hh hhost ha) ?_
  by_cases hrun : r.status = .running
  · exact .inl (hs.trans hrun)
  · exact .inr fun p hp => h.not_pending hr hrun p (hg.pending _ hp)

theorem retired (h : LocalInv st) (hr : st.sessions s = some r) (hg : GivesBack (fun _ => False) st st')
    (htype : r'.type = r.type) (hmain : r'.mainCheckoutLease = r.mainCheckoutLease ∨ r'.mainCheckoutLease = false)
    (hrun : r.status = .running) {hand : TerminalHookHandoff} (hh : r'.terminalHookHandoff = some hand)
    (hsame : hand.mainCheckoutLease = r.mainCheckoutLease)
    (hholds : ∀ t, Reserves hand t → HoldsTarget r t) (hterm : r'.status.isTerminal = true)
    (hw : r'.worktreeId.toOption = none)
    (ha : r'.status = .cancelled ∨ r'.status = .timedOut → hand.attemptId = r'.attemptId)
    (hmint : minted = some hand.handoffId) (hpend : ∀ p, (s, p) ∉ st'.pendingAcks.entries) :
    LocalStep minted disposal st (st'.setSession s r') := by
  have hne : r'.terminalHookHandoff ≠ none := by rw [hh]; simp
  have hprompt : r'.type = .prompt → r'.mainCheckoutLease = false := by
    rw [htype]
    exact fun hp => hmain.elim (fun hm => hm.trans ((h.row s r hr).prompt hp)) id
  have ht : Turns minted disposal s r r' (fun _ => False) st st' := by
    refine ⟨hr, htype, hg, fun _ hf => hf.elim, fun t ht => ⟨h.owner_of_holds hr ?_, id⟩,
      .of_ended hprompt hterm hw (fun hm => ⟨hand, hh, ?_⟩) fun hs hand' hh' => ?_, .inr hpend, fun hand' t hhand _ => ?_,
      fun hand' hh' => ?_⟩
    · obtain ⟨hand', hh', hres⟩ | hdirect := ht
      · cases hh.symm.trans hh'
        exact hholds t hres
      · cases t with
        | worktree i =>
          have hi : r'.worktreeId = .value i := hdirect
          rw [hi] at hw
          cases hw
        | mainCheckout host repo => exact absurd hdirect.2.1 hne
    · rw [hsame]
      exact hmain.elim (fun e => e.symm.trans hm) fun e => absurd (e.symm.trans hm) (by simp)
    · cases hh.symm.trans hh'
      exact ha hs
    · rw [(h.row s r hr).handoff_of_running hrun] at hhand
      cases hhand
    · cases hh.symm.trans hh'
      exact .inr hmint
  exact .turn ht rfl

end LocalInv

end AutoHarness.Protocol

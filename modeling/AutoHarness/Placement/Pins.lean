import AutoHarness.Placement.Planner

/-! Pinned continuations: where the single and the plural route resolution agree, and when the planner gives up a
pin. -/

namespace AutoHarness.Placement
open Foundation Store List Option

universe u

section Agreement

theorem head_filter_eq_iff {α : Type u} (p : α → Bool) (l : List α) :
    l.head?.filter p = (l.filter p).head? ↔ (∀ a ∈ l.head?, p a = true) ∨ ∀ a ∈ l, p a = false := by
  cases l with
  | nil => simp
  | cons a l =>
    cases ha : p a with
    | true => simp [ha]
    | false =>
      simp only [head?_cons, filter_some, ha, filter_cons, Bool.false_eq_true, if_false]
      constructor
      · intro h
        refine .inr fun b hb => ?_
        obtain rfl | hb := mem_cons.mp hb
        · exact ha
        · have hnil : l.filter p = [] := head?_eq_none_iff.mp h.symm
          exact Bool.eq_false_iff.mpr (filter_eq_nil_iff.mp hnil b hb)
      · rintro (h | h)
        · exact absurd (h a rfl) (by rw [ha]; decide)
        · have hnil : l.filter p = [] :=
            filter_eq_nil_iff.mpr fun b hb => Bool.eq_false_iff.mp (h b (mem_cons_of_mem a hb))
          rw [hnil]
          rfl

variable (localeCompare : String → String → Ordering) (state : PlacementState) (catalog : ProviderCatalog)
  (session : PromptSession) (nowMs : Timestamp)

/-- The first route fits the pin, or none does. -/
def FrontFits (worktree : WorktreeRecord) (targetIndex : ℕ) : Prop :=
  (∀ r ∈ (unpinnedRoutesAt localeCompare state catalog session worktree nowMs targetIndex).head?,
      matchesNativeResumePin session r = true) ∨
    ∀ r ∈ unpinnedRoutesAt localeCompare state catalog session worktree nowMs targetIndex,
      matchesNativeResumePin session r = false

def FitsReady (worktree : WorktreeRecord) (r : ResolvedSessionRoute) : Prop :=
  matchesNativeResumePin session r = true ∧ state.hostProviderAccountReady worktree.hostId r.providerAccountId = true

/-- An eligible idle worktree on the pinned host. -/
def IdleOnPin (worktree : WorktreeRecord) : Prop :=
  worktree ∈ state.eligibleIdleWorktrees session ∧ given session.pinnedHostId = some worktree.hostId

/-- Some idle worktree of the pinned host has, at the pinned index, a route of the plural resolution whose account is
ready. -/
def PinKept : Prop :=
  ∀ targetIndex, session.pinnedTargetIndex = some targetIndex → pinExpired session nowMs = false →
    (∃ w, IdleOnPin state session w ∧
      ∃ r ∈ resolveSessionTargetRoutesAt localeCompare state catalog session w nowMs targetIndex,
        state.hostProviderAccountReady w.hostId r.providerAccountId = true) →
    planPromptPlacement localeCompare state catalog session nowMs ≠ .clearPin

/-- Where an account's route fits and is ready on an idle worktree, there is one on which the account in front does. -/
def FrontReady : Prop :=
  ∀ targetIndex, session.pinnedTargetIndex = some targetIndex → pinExpired session nowMs = false →
    reachesWorktrees state session nowMs = true →
    (∃ w, IdleOnPin state session w ∧
      ∃ r ∈ unpinnedRoutesAt localeCompare state catalog session w nowMs targetIndex, FitsReady state session w r) →
    ∃ w, IdleOnPin state session w ∧
      ∃ r ∈ (unpinnedRoutesAt localeCompare state catalog session w nowMs targetIndex).head?,
        FitsReady state session w r

variable {localeCompare state catalog session nowMs}

theorem pinnedRouteReady_iff {w : WorktreeRecord} {targetIndex : ℕ}
    (hindex : session.pinnedTargetIndex = some targetIndex) :
    pinnedRouteReady localeCompare state catalog session nowMs w = true ↔
      ∃ r ∈ (unpinnedRoutesAt localeCompare state catalog session w nowMs targetIndex).head?,
        FitsReady state session w r := by
  unfold pinnedRouteReady
  rw [hindex, any_some, routeAt_eq]
  cases (unpinnedRoutesAt localeCompare state catalog session w nowMs targetIndex).head? with
  | none => simp
  | some r => cases h : matchesNativeResumePin session r <;> simp [FitsReady, h]

theorem pinKept_iff :
    PinKept localeCompare state catalog session nowMs ↔ FrontReady localeCompare state catalog session nowMs := by
  have hlisted : ∀ w targetIndex,
      (∃ r ∈ resolveSessionTargetRoutesAt localeCompare state catalog session w nowMs targetIndex,
        state.hostProviderAccountReady w.hostId r.providerAccountId = true) ↔
      ∃ r ∈ unpinnedRoutesAt localeCompare state catalog session w nowMs targetIndex, FitsReady state session w r := by
    intro w targetIndex
    rw [routesAt_eq]
    simp only [mem_filter, FitsReady, and_assoc]
  unfold PinKept FrontReady
  simp only [hlisted]
  refine forall_congr' fun targetIndex => forall_congr' fun hindex => forall_congr' fun hfresh => ?_
  constructor
  · intro h hreach hexists
    have hkept := h hexists
    obtain ⟨w, ⟨-, hpin⟩, -⟩ := hexists
    rw [Ne, plan_eq_clearPin_iff hpin, not_and] at hkept
    have hone := hkept hreach
    push Not at hone
    obtain ⟨-, v, hidle, hhost, hready⟩ := hone
    refine ⟨v, ⟨hidle, hhost ▸ hpin⟩, (pinnedRouteReady_iff hindex).mp ?_⟩
    simpa using hready
  · intro h hexists hclear
    obtain ⟨w, ⟨hw, hpin⟩, hr⟩ := hexists
    obtain ⟨hreach, hnone⟩ := (plan_eq_clearPin_iff hpin).mp hclear
    obtain ⟨v, ⟨hidle, hpin'⟩, hready⟩ := h hreach ⟨w, ⟨hw, hpin⟩, hr⟩
    have hfalse := hnone hfresh v hidle (some.inj (hpin'.symm.trans hpin))
    rw [(pinnedRouteReady_iff hindex).mpr hready] at hfalse
    cases hfalse

/-- **Route resolution.** The single resolution is the first of the plural one exactly when the account in front fits
the pin or none does; pins are kept accordingly. -/
theorem route_resolutions_agree_iff (localeCompare : String → String → Ordering) (state : PlacementState)
    (catalog : ProviderCatalog) (session : PromptSession) (nowMs : Timestamp) : (∀ worktree targetIndex,
      resolveSessionTargetRouteAt localeCompare state catalog session worktree nowMs targetIndex =
          (resolveSessionTargetRoutesAt localeCompare state catalog session worktree nowMs targetIndex).head? ↔
        FrontFits localeCompare state catalog session nowMs worktree targetIndex) ∧
      (PinKept localeCompare state catalog session nowMs ↔ FrontReady localeCompare state catalog session nowMs) := by
  refine ⟨fun worktree targetIndex => ?_, pinKept_iff⟩
  rw [routeAt_eq, routesAt_eq]
  exact head_filter_eq_iff _ _

end Agreement

/-! ## Busy hosts -/

section BusyHosts

variable (localeCompare : String → String → Ordering) (state : PlacementState) (catalog : ProviderCatalog)
  (session : PromptSession) (nowMs : Timestamp) (worktree : WorktreeRecord)

variable {localeCompare state catalog session nowMs worktree} {targetIndex : ℕ}

section Native

variable (hindex : session.pinnedTargetIndex = some targetIndex)
include hindex

end Native

end BusyHosts

/-! ## Two accounts of one provider -/

section TwoAccounts

private def host : HostInventory where
  providerAccounts := [⟨"a1", some "c1"⟩, ⟨"a2", some "c2"⟩]

private def connection : ConnectionRecord where
  negotiatedProtocolVersion := some 7
  runtime := some { gitReady := true }
  providerAccountReadiness := [⟨"a1", true⟩, ⟨"a2", true⟩]

private def idleWorktree : WorktreeRecord := { id := "w", hostId := "h", repositoryId := "r" }

private def twoAccounts (worktree : WorktreeRecord) : PlacementState where
  commands := fun id => if id = "c1" ∨ id = "c2" then some { id, argv := ["cli"] } else none
  providers := fun _ => none
  providerAccounts := ⟨[{ id := "a1", providerId := "p" }, { id := "a2", providerId := "p" }], by decide⟩
  hostInventories := fun id => if id = "h" then some host else none
  hostConnection := fun id => if id = "h" then some "conn" else none
  connections := fun id => if id = "conn" then some connection else none
  repositories := fun _ => some "active"
  worktrees := [worktree]
  sessions := .empty
  providerAccountLeases := .empty

private def commandPinned : PromptSession where
  id := "s"
  repositoryId := "r"
  target := .provider "p"
  queueExpiresAt := 10
  pinnedHostId := some "h"
  pinnedTargetIndex := some 0
  pinnedCommandId := some "c2"

/-- The single resolution sees only the account in front; the plural one lists the second, which is ready. -/
theorem route_resolutions_differ :
    resolveSessionTargetRouteAt compare (twoAccounts idleWorktree) (buildProviderCatalog (twoAccounts idleWorktree))
        commandPinned idleWorktree 0 0 = none ∧ (resolveSessionTargetRoutesAt compare (twoAccounts idleWorktree)
          (buildProviderCatalog (twoAccounts idleWorktree)) commandPinned idleWorktree 0 0).map
        (fun r => (r.commandId, r.providerAccountId,
          (twoAccounts idleWorktree).hostProviderAccountReady "h" r.providerAccountId)) = [("c2", some "a2", true)] ∧
      (twoAccounts idleWorktree).eligibleIdleWorktrees commandPinned = [idleWorktree] ∧
      planPromptPlacement compare (twoAccounts idleWorktree) (buildProviderCatalog (twoAccounts idleWorktree))
        commandPinned 0 = .clearPin := by
  decide +kernel

private def continuation : PromptSession where
  id := "s"
  repositoryId := "r"
  target := .provider "p"
  queueExpiresAt := 10
  resumedFromSessionId := some "s0"
  cliResumeRef := some "ref"
  resumeSpec := some { argv := ["cli"], resumeArgvTemplate := some ["cli", "\x7bcliResumeRef\x7d"] }
  pinnedHostId := some "h"
  pinnedProviderAccountId := some "a2"
  pinnedTargetIndex := some 0
  pinnedCommandId := some "c2"
  pinExpiresAt := some 10

end TwoAccounts

end AutoHarness.Placement

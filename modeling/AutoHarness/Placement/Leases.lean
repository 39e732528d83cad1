import AutoHarness.Placement.Planner
import AutoHarness.Store.Assign
import AutoHarness.Store.Keys

/-! The local map of provider-account leases during a durable assignment: a slot is put in before the transaction, and
taken out when it is lost. -/

namespace AutoHarness.Placement
open Foundation Store List Option

abbrev LeaseMap := OrderedMap String LocalLease

structure AssignmentCandidate where
  sessionId : String
  hostId : String
  attemptId : String
  providerAccountId : Option String := none

/-- The three durable assigners, with what each looks at before it takes a slot. -/
inductive Assigner where
  | prompt
  | scheduled (connectionId : String)
  | workspace (fitsFrame : Bool)

/-- The lease map after an attempt, and whether it assigned. -/
structure AttemptEnd where
  leases : LeaseMap
  committed : Bool

section Acquire

variable (state : PlacementState)

/-- The first slot of the account that is not known to be occupied; the durable assigners do not consult the
map. -/
def tryAcquireProviderAccountLeaseLocal (leases : LeaseMap) (c : AssignmentCandidate) (occupiedSlots : List ℕ)
    (consultLocalMap : Bool) : Option ProviderAccountLease × LeaseMap :=
  match given c.providerAccountId with
  | none => (none, leases)
  | some providerAccountId =>
    let max := PlacementState.maxConcurrentSessionsFor (state.providerAccounts.get? providerAccountId)
    let free := fun slot : ℕ => !occupiedSlots.contains slot &&
      !(consultLocalMap && leases.contains (providerAccountLeaseConcurrencyId providerAccountId slot))
    match (List.range max).find? free with
    | none => (none, leases)
    | some slot =>
      let concurrencyId := providerAccountLeaseConcurrencyId providerAccountId slot
      (some { concurrencyId, providerAccountId, slot, attemptId := c.attemptId }, leases.set concurrencyId
          { sessionId := c.sessionId, attemptId := c.attemptId, slot, hostId := c.hostId, providerAccountId })

/-- Another slot after a collision, none after any other loss; `results` are the answers. -/
def acquireLoop (c : AssignmentCandidate) (results : ℕ → AssignmentWriteResult) :
    ℕ → ℕ → List ℕ → LeaseMap → AttemptEnd
  | 0, _, _, leases => ⟨leases, false⟩
  | fuel + 1, round, occupiedSlots, leases =>
    let (lease, leases) := tryAcquireProviderAccountLeaseLocal state leases c occupiedSlots false
    if (given c.providerAccountId).isSome && lease.isNone then ⟨leases, false⟩
    else if results round = .assigned then ⟨leases, true⟩
    else
      match lease with
      | none => ⟨leases, false⟩
      | some lease =>
        let leases := leases.erase lease.concurrencyId
        if results round = .leaseCollision then
          acquireLoop c results fuel (round + 1) (lease.slot :: occupiedSlots) leases
        else ⟨leases, false⟩

def slotCount (c : AssignmentCandidate) : ℕ :=
  (given c.providerAccountId).elim 0 fun id =>
    PlacementState.maxConcurrentSessionsFor (state.providerAccounts.get? id)

/-- The candidate is still connected, its account ready and not above its cap, and its message fits a frame. -/
def Assigner.admits (c : AssignmentCandidate) : Assigner → Bool
  | prompt => (given (state.hostConnection c.hostId)).isSome && ready
  | scheduled connectionId => state.hostConnection c.hostId == some connectionId &&
      ((state.connections connectionId).bind (·.runtime)).any (·.gitReady) && ready
  | workspace fitsFrame => (given (state.hostConnection c.hostId)).isSome && ready && fitsFrame
where
  ready := state.hostProviderAccountReady c.hostId c.providerAccountId &&
    state.accountHasLeaseCapacity c.providerAccountId

def assignCandidateDurable (assigner : Assigner) (c : AssignmentCandidate) (results : ℕ → AssignmentWriteResult) :
    AttemptEnd :=
  if assigner.admits state c then
    acquireLoop state c results (slotCount state c + 1) 0 [] state.providerAccountLeases
  else ⟨state.providerAccountLeases, false⟩

/-- The slots a run tries: the next one after a collision only. -/
def triedFrom (max : ℕ) (results : ℕ → AssignmentWriteResult) : ℕ → ℕ → List ℕ
  | 0, _ => []
  | fuel + 1, slot =>
    if slot < max then
      slot :: if results slot = .leaseCollision then triedFrom max results fuel (slot + 1) else []
    else []

def triedKeys (assigner : Assigner) (c : AssignmentCandidate) (results : ℕ → AssignmentWriteResult) : List String :=
  if assigner.admits state c then
    (triedFrom (slotCount state c) results (slotCount state c + 1) 0).map
      (providerAccountLeaseConcurrencyId ((given c.providerAccountId).getD ""))
  else []

end Acquire

section Rollback

variable {state : PlacementState} {c : AssignmentCandidate} {results : ℕ → AssignmentWriteResult}

variable {round : ℕ} {occupied : List ℕ}

theorem find_range_free (max : ℕ) (hocc : ∀ slot, slot ∈ occupied ↔ slot < round) :
    (range max).find? (fun slot => !occupied.contains slot) = if round < max then some round else none := by
  split_ifs with hround
  · refine find?_range_eq_some.mpr ⟨?_, mem_range.mpr hround, fun slot hslot => ?_⟩
    · simp [hocc]
    · simp [hocc, hslot]
  · refine find?_range_eq_none.mpr fun slot hslot => ?_
    simp only [Bool.not_not, contains_iff_mem, hocc]
    omega

variable {leases : LeaseMap} {id : String}

theorem tryAcquire_none {consult : Bool} (h : given c.providerAccountId = none) :
    tryAcquireProviderAccountLeaseLocal state leases c occupied consult = (none, leases) := by
  unfold tryAcquireProviderAccountLeaseLocal
  rw [h]

theorem tryAcquire_some (h : given c.providerAccountId = some id) (hocc : ∀ slot, slot ∈ occupied ↔ slot < round) :
    tryAcquireProviderAccountLeaseLocal state leases c occupied false = if round < slotCount state c then
        (some { concurrencyId := providerAccountLeaseConcurrencyId id round, providerAccountId := id, slot := round
                attemptId := c.attemptId }, leases.set (providerAccountLeaseConcurrencyId id round)
            { sessionId := c.sessionId, attemptId := c.attemptId, slot := round, hostId := c.hostId
              providerAccountId := id })
      else (none, leases) := by
  have hcount : slotCount state c = PlacementState.maxConcurrentSessionsFor (state.providerAccounts.get? id) := by
    unfold slotCount
    rw [h]
    rfl
  have hfind := find_range_free (slotCount state c) hocc
  unfold tryAcquireProviderAccountLeaseLocal
  rw [h]
  simp only [Bool.false_and, Bool.not_false, Bool.and_true, ← hcount, hfind]
  split_ifs <;> rfl

theorem acquireLoop_lost (hid : given c.providerAccountId = some id) {fuel : ℕ} (hocc : ∀ slot, slot ∈ occupied ↔ slot < round)
    (hfuel : slotCount state c < fuel + round)
    (hlost : (acquireLoop state c results fuel round occupied leases).committed = false) :
    (acquireLoop state c results fuel round occupied leases).leases =
      ((triedFrom (slotCount state c) results fuel round).map
        (providerAccountLeaseConcurrencyId id)).foldl OrderedMap.erase leases := by
  induction fuel generalizing round occupied leases with
  | zero => rfl
  | succ fuel ih =>
    unfold acquireLoop at hlost ⊢
    unfold triedFrom
    rw [tryAcquire_some hid hocc] at hlost ⊢
    by_cases hround : round < slotCount state c
    · simp only [hround, if_true, hid, isSome_some, isNone_some, Bool.and_false, Bool.false_eq_true,
        if_false, OrderedMap.erase_set, map_cons, foldl_cons] at hlost ⊢
      cases hresult : results round with
      | assigned => simp [hresult] at hlost
      | lost => simp
      | leaseCollision =>
        simp only [hresult, reduceCtorEq, if_false, if_true] at hlost ⊢
        have hocc' : ∀ slot, slot ∈ round :: occupied ↔ slot < round + 1 := by
          intro slot
          rw [mem_cons, hocc]
          omega
        exact ih hocc' (by omega) hlost
    · simp [hround, hid]

/-- **Lost races.** The lease map stays as it was exactly when none of the slots tried was in it. -/
theorem lost_race_keeps_leases_iff {assigner : Assigner}
    (hlost : (assignCandidateDurable state assigner c results).committed = false) :
    (assignCandidateDurable state assigner c results).leases = state.providerAccountLeases ↔
      ∀ key ∈ triedKeys state assigner c results, state.providerAccountLeases.contains key = false := by
  unfold assignCandidateDurable triedKeys at *
  cases hadmits : assigner.admits state c with
  | false => simp
  | true =>
    simp only [hadmits, if_true] at hlost ⊢
    cases hid : given c.providerAccountId with
    | none =>
      -- a route without an account has no slot
      have hcount : slotCount state c = 0 := by
        unfold slotCount
        rw [hid]
        rfl
      have hleases : (acquireLoop state c results (slotCount state c + 1) 0 []
          state.providerAccountLeases).leases = state.providerAccountLeases := by
        unfold acquireLoop
        rw [tryAcquire_none hid]
        simp only [hid, isSome_none, Bool.false_and, Bool.false_eq_true, if_false]
        split_ifs <;> rfl
      rw [hleases, hcount]
      simp [triedFrom]
    | some id =>
      rw [acquireLoop_lost hid (by simp) (by omega) hlost, getD_some]
      exact OrderedMap.foldl_erase_eq_iff

private def oneSlot (holder : LeaseMap) : PlacementState where
  commands := fun _ => none
  providers := fun _ => none
  providerAccounts := ⟨[{ id := "a", providerId := "p" }], by decide⟩
  hostInventories := fun _ => none
  hostConnection := fun _ => some "conn"
  connections := fun _ => some { providerAccountReadiness := [⟨"a", true⟩] }
  repositories := fun _ => none
  worktrees := []
  sessions := .empty
  providerAccountLeases := holder
  storage := true

/-- Slot 0 of the account, held by session `s0`. -/
private def held (account : String) : LeaseMap := OrderedMap.empty.set (providerAccountLeaseConcurrencyId account 0)
  { sessionId := "s0", attemptId := "t0", slot := 0, hostId := "h", providerAccountId := account }

private def second : AssignmentCandidate :=
  { sessionId := "s1", hostId := "h", attemptId := "t1", providerAccountId := some "a" }

theorem lost_race_keeps_leases_free :
    (assignCandidateDurable (oneSlot (held "b")) .prompt second fun _ => .lost).leases = held "b" :=
  have hlost : (assignCandidateDurable (oneSlot (held "b")) .prompt second fun _ => .lost).committed = false := by
    decide +kernel
  (lost_race_keeps_leases_iff hlost).mpr (by decide +kernel)

theorem lost_race_drops_lease :
    (assignCandidateDurable (oneSlot (held "a")) .prompt second fun _ => .leaseCollision).committed = false ∧
      (oneSlot (held "a")).providerAccountLeases.entries = [("provider-lease:a:0",
          { sessionId := "s0", attemptId := "t0", slot := 0, hostId := "h", providerAccountId := "a" })] ∧
      (assignCandidateDurable (oneSlot (held "a")) .prompt second fun _ => .leaseCollision).leases.entries = [] := by
  decide +kernel

end Rollback

end AutoHarness.Placement

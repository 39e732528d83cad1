import AutoHarness.Store.Create

/-! The cancellation reasons of a create. The transaction is put together from parts that may each be missing, and the
handlers of a cancelled one find an item's reason by counting the parts before it. -/

namespace AutoHarness.Store
open Foundation List
open CreateOpts (parentFenceIsValid)

/-- The arguments of `createSessionWithConcurrency`; each prebuilt part may be missing. -/
structure AdmissionParts extends CreateOpts where
  (principalCheck drainCheck integrationCheck activityPut repositoryActivity : Option TransactItem := none)

/-- What is thrown or returned; after `none` the next check follows, or another attempt. -/
abbrev CreateAnswer := Option (Except CreateError CreateSessionResult)

namespace AdmissionParts

section Code

variable (p : AdmissionParts) (c : String)

/-- The transaction, in the order of the source. -/
def items : List TransactItem :=
  p.markers.map markerCheck ++ p.principalCheck.toList ++ [resourceCheck p.session] ++ p.drainCheck.toList ++
  p.parentChecks ++ p.integrationCheck.toList ++ [p.lockPut c, p.sessionPut] ++ p.activityPut.toList ++
  p.repositoryActivity.toList ++ p.rootBudgetUpdates ++ [sessionRetentionAdmissionCheck p.sessionId]

/-! ## The positions -/

-- as `throwIfCreateAdmissionConflict` computes them
def principalIndex : ℕ := p.markers.length
def resourceIndex : ℕ := p.principalIndex + p.principalCheck.toList.length
def drainIndex : ℕ := p.resourceIndex + 1
def parentIndex : ℕ := p.drainIndex + p.drainCheck.toList.length
def integrationIndex : ℕ := p.parentIndex + p.hasSeparateParentCheck.toNat
def lockIndex : ℕ := p.integrationIndex + p.integrationCheck.toList.length
def rootBudgetIndex : Option ℕ :=
  (p.parentFence.bind (·.rootSessionId)).map fun _ =>
    p.lockIndex + 2 + p.activityPut.toList.length + p.repositoryActivity.toList.length

variable (failed : ℕ → Bool) (reads : AttemptReads)

/-- A session id that is taken is an error, anything else another attempt. -/
def sessionIdCollision (lockIndex : ℕ) : CreateAnswer :=
  if failed (lockIndex + 1) then some (.error (.sessionIdCollision p.sessionId)) else none

end Code

/-! ## The parts of `createSession` -/

variable {p : AdmissionParts} {c : String}

/-- The parts that `createSession` puts together, of which each has at most one item. -/
def ofOpts (o : CreateOpts) : AdmissionParts where
  toCreateOpts := o
  principalCheck := (principalExistsCheck o.session.sessionPrincipalId).head?
  drainCheck := o.drainChecks.head?
  integrationCheck := (integrationSessionFenceCheck o.integrationFence).head?
  activityPut := (sessionDrainActivityPut o.sessionId o.session).head?
  repositoryActivity := (repositoryActivityPut o.sessionId o.session).head?

theorem toList_head? {α : Type} {l : List α} (h : l.length ≤ 1) : l.head?.toList = l := by
  match l, h with
  | [], _ | [_], _ => rfl

theorem items_ofOpts (o : CreateOpts) (c : String) : (ofOpts o).items c = createSessionWithConcurrencyItems o c := by
  have hprincipal : (principalExistsCheck o.session.sessionPrincipalId).length ≤ 1 := by
    grind [principalExistsCheck]
  have hdrain : o.drainChecks.length ≤ 1 := by grind [CreateOpts.drainChecks, sessionDrainAdmissionCheck]
  have hintegration : (integrationSessionFenceCheck o.integrationFence).length ≤ 1 := by
    cases o.integrationFence <;> simp [integrationSessionFenceCheck]
  have hactivity : (sessionDrainActivityPut o.sessionId o.session).length ≤ 1 := by grind [sessionDrainActivityPut]
  have hrepository : (repositoryActivityPut o.sessionId o.session).length ≤ 1 := by grind [repositoryActivityPut]
  simp only [items, ofOpts, toList_head? hprincipal, toList_head? hdrain, toList_head? hintegration,
    toList_head? hactivity, toList_head? hrepository, createSessionWithConcurrencyItems, CreateOpts.admissionItems,
    CreateOpts.activityPuts, append_assoc]

/-! ## The positions are right -/

variable {failed : ℕ → Bool} {reads : AttemptReads} {a : Except CreateError CreateSessionResult} {e : CreateError}

section

variable (hroot : p.parentFence.bind (·.rootSessionId) ≠ some "")
include hroot

end

end AdmissionParts
end AutoHarness.Store

import AutoHarness.Store.Fragments

/-! The durable authorization of a session's primary command, written immediately before the host
starts it. -/

namespace AutoHarness.Store
open Foundation

structure CommandStart where
  sessionId : String
  worktreeId : Option String
  attemptId : String
  fence : Option Fence := none

namespace CommandStart

def condition (o : CommandStart) (r : SessionRow) : Bool :=
  r.status == .running && r.worktreeId == .ofOption o.worktreeId && r.attemptId == some o.attemptId &&
    r.primaryCommandStartState == some .pending

def items (o : CommandStart) : List TransactItem :=
  fenceChecks o.fence none ++
  [sessionWrite o.sessionId (fun row => row.any o.condition)
    (fun row => row.map fun r => { r with primaryCommandStartState := some .authorized })]

/-- A replayed frame is accepted when the connection still owns the host and the attempt is authorized. -/
def replayed (o : CommandStart) (db : Db) : Bool :=
  o.fence.all (fun f => (db.hostLocks f.hostId).any fun h =>
    h.connectionId == some f.connectionId && h.disconnected != some true) &&
  (db.sessions o.sessionId).any fun r =>
    r.status == .running && r.worktreeId == .ofOption o.worktreeId && r.attemptId == some o.attemptId &&
      r.primaryCommandStartState == some .authorized &&
      o.fence.all fun f => r.hostId == .value f.hostId && r.assignmentConnectionId.all (· == f.connectionId)

end CommandStart

def authorizePrimaryCommandStart (o : CommandStart) (db : Db) : Except StoreError Bool × Db :=
  match transact o.items db with
  | .committed db' => (.ok true, db')
  | .cancelled _ => (.ok (o.replayed db), db)
  | .rejected => (.error .validationException, db)

variable {o : CommandStart}

theorem CommandStart.condition_iff {r : SessionRow} :
    o.condition r = true ↔ r.status = .running ∧ r.worktreeId = .ofOption o.worktreeId ∧
      r.attemptId = some o.attemptId ∧ r.primaryCommandStartState = some .pending := by
  simp [CommandStart.condition, and_assoc]

theorem commandStart_committed {db db' : Db} (h : transact o.items db = .committed db') :
    ∃ r, db.sessions o.sessionId = some r ∧ o.condition r = true ∧
      db' = { db with
        sessions := Function.update db.sessions o.sessionId
          (some { r with primaryCommandStartState := some .authorized }) } := by
  obtain ⟨-, hr, rfl⟩ := committed_iff.mp h
  simp only [CommandStart.items, ready_append, ready_cons, ready_nil, and_true, sessionWrite_holds,
    Option.any_eq_true] at hr
  obtain ⟨-, r, hrow, hc⟩ := hr
  exact ⟨r, hrow, hc, by simp [CommandStart.items, hrow]⟩

end AutoHarness.Store

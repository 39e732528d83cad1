import AutoHarness.Protocol.Writers

/-! What one step of the plane can do. `World.effect` lists, once, everything a request changes and what it required.
-/

namespace AutoHarness.Protocol
open Foundation Store Plane Option

/-! ## Assignments -/

/-- An assignment: its shared options, what it makes of the session row, the worktree it claims. -/
structure Assigning where
  opts : AssignmentOpts
  next : SessionRow → SessionRow
  worktree : Option String := none

def Op.assigning : Op → Option Assigning
  | assignWorktree o => some ⟨o.toAssignmentOpts, o.claimed, some o.worktreeId⟩
  | assignMainCheckout o => some ⟨o.toAssignmentOpts, o.claimed, none⟩
  | assignWorkspace o => some ⟨o.toAssignmentOpts, o.claimed, none⟩
  | _ => none

structure Launched (o : AssignmentOpts) (worktree : Option String) (r r' : SessionRow) : Prop where
  status : r'.status = .running
  attemptId : r'.attemptId = some o.attemptId
  hostId : r'.hostId = .value o.hostId
  worktreeId : r'.worktreeId = .ofOption worktree
  providerAccountLease : r'.providerAccountLease = o.providerAccountLease.or r.providerAccountLease
  hostAssignmentLease : r'.hostAssignmentLease = some o.lease
  concurrencyId : r'.concurrencyId = r.concurrencyId
  createdAt : r'.createdAt = r.createdAt
  terminalHookHandoff : r'.terminalHookHandoff = r.terminalHookHandoff
  cancelledByDrain : r'.cancelledByDrainOperationId = r.cancelledByDrainOperationId

def WorktreeClaimed (o : AssignmentOpts) (worktree : Option String) (db db' : Db) : Prop :=
  match worktree with
  | none => db'.worktrees = db.worktrees
  | some i => ∃ y, db.worktrees i = some y ∧ y.status = .idle ∧
      db'.worktrees = Function.update db.worktrees i (some (y.claimed o.sessionId o.connectionId o.now))

/-- A committed assignment of row `r`. -/
structure Assigned (x : Assigning) (db db' : Db) (r : SessionRow) : Prop where
  checked : AssignmentChecked x.opts db r
  sessions : db'.sessions = Function.update db.sessions x.opts.sessionId (some (x.next r))
  launched : Launched x.opts x.worktree r (x.next r)
  worktrees : WorktreeClaimed x.opts x.worktree db db'
  locks : db'.concurrencyLocks = locksTaken x.opts.sessionId x.opts.attemptId x.opts.hostId
    x.opts.providerAccountLease db.concurrencyLocks
  host : ∃ hl, db.hostLocks x.opts.hostId = some hl ∧
    HostAcquirable x.opts.connectionId x.opts.hostAssignmentCap x.opts.legacyAssignmentCount hl
  counts : ∀ h, assignmentCount db'.hostLocks h =
    if h = x.opts.hostId then
      some ((assignmentCount db.hostLocks h).getD (x.opts.legacyAssignmentCount.getD 0 : ℕ) + 1)
    else assignmentCount db.hostLocks h
  connections : ∀ h, (db'.hostLocks h).bind HostLockRow.connectionId = (db.hostLocks h).bind HostLockRow.connectionId

theorem counts_of_update {t : String → Option HostLockRow} {host : String} {a b : HostLockRow} {legacy : ℕ}
    (ha : t host = some a) (hb : b.assignmentCount = some (a.assignmentCount.getD legacy + 1))
    (hk : b.connectionId = a.connectionId) (h : String) : assignmentCount (Function.update t host (some b)) h =
        (if h = host then some ((assignmentCount t h).getD legacy + 1) else assignmentCount t h) ∧
      (Function.update t host (some b) h).bind HostLockRow.connectionId = (t h).bind HostLockRow.connectionId := by
  by_cases hh : h = host
  · subst hh
    simp [assignmentCount, ha, hb, hk]
  · simp [assignmentCount, hh]

variable {db db' : Db}

theorem assigned_worktree {o : AssignSessionOpts} (hlease : o.lease = ⟨o.hostId⟩)
    (h : transact (tryAssignSessionItems o) db = .committed db') :
    ∃ r, Assigned ⟨o.toAssignmentOpts, o.claimed, some o.worktreeId⟩ db db' r := by
  obtain ⟨r, y, hl, hchecked, hy, hidle, hhost, hacq, rfl⟩ := assignSession_committed h
  rw [hlease] at hhost
  have hc := fun x => counts_of_update hhost (b := hl.acquired (o.legacyAssignmentCount.getD 0)) rfl rfl x
  exact ⟨r, {
    checked := hchecked, sessions := rfl
    launched := ⟨rfl, rfl, rfl, rfl, rfl, rfl, rfl, rfl, rfl, rfl⟩
    worktrees := ⟨y, hy, hidle, rfl⟩
    locks := rfl, host := ⟨hl, hhost, hacq⟩
    counts := fun x => by rw [hlease]; exact (hc x).1
    connections := fun x => by rw [hlease]; exact (hc x).2 }⟩

theorem assigned_mainCheckout {o : AssignMainCheckoutOpts}
    (h : transact (tryAssignMainCheckoutSessionItems o) db = .committed db') :
    ∃ r, Assigned ⟨o.toAssignmentOpts, o.claimed, none⟩ db db' r := by
  obtain ⟨r, hl, hchecked, hhost, -, hacq, rfl⟩ := assignCheckout_committed h
  have hc := fun x => counts_of_update hhost (b := o.claimedHost hl) rfl rfl x
  exact ⟨r, {
    checked := hchecked, sessions := rfl
    launched := ⟨rfl, rfl, rfl, rfl, rfl, rfl, rfl, rfl, rfl, rfl⟩
    worktrees := rfl
    locks := rfl, host := ⟨hl, hhost, hacq⟩
    counts := fun x => (hc x).1
    connections := fun x => (hc x).2 }⟩

theorem assigned_workspace {o : AssignWorkspaceOpts} (hlease : o.lease = ⟨o.hostId⟩)
    (h : transact (tryAssignWorkspaceSessionItems o) db = .committed db') :
    ∃ r, Assigned ⟨o.toAssignmentOpts, o.claimed, none⟩ db db' r := by
  obtain ⟨r, y, hl, hchecked, -, -, hhost, hacq, rfl⟩ := assignWorkspace_committed h
  rw [hlease] at hhost
  have hc := fun x => counts_of_update hhost (b := hl.acquired (o.legacyAssignmentCount.getD 0)) rfl rfl x
  exact ⟨r, {
    checked := hchecked, sessions := rfl
    launched := ⟨rfl, rfl, rfl, rfl, rfl, rfl, rfl, rfl, rfl, rfl⟩
    worktrees := rfl
    locks := rfl, host := ⟨hl, hhost, hacq⟩
    counts := fun x => by rw [hlease]; exact (hc x).1
    connections := fun x => by rw [hlease]; exact (hc x).2 }⟩

/-! ## The inversion lemma -/

structure Tables (db : Db) (sessions : String → Option SessionRow) (worktrees : String → Option WorktreeRow)
    (locks : String → Option LockRow) (hosts : String → Option HostLockRow) : Prop where
  sessions : db.sessions = sessions
  worktrees : db.worktrees = worktrees
  locks : db.concurrencyLocks = locks
  hosts : db.hostLocks = hosts

theorem Tables.self (db : Db) : Tables db db.sessions db.worktrees db.concurrencyLocks db.hostLocks :=
  ⟨rfl, rfl, rfl, rfl⟩

/-- Everything a request `op` can make of the store of world `w`. -/
inductive Effect (w : World) (op : Op) (db' : Db) : Prop
  | quiet (h : Tables db' w.db.sessions w.db.worktrees w.db.concurrencyLocks w.db.hostLocks)
  | wrote (x : WriteOp) (r : SessionRow) (hop : op = .write x) (h : Wrote x.writer w.db db' r)
  | assigned (x : Assigning) (r : SessionRow) (hop : op.assigning = some x) (h : Assigned x w.db db' r)
  | createdPlain (o : CreateOpts) (hop : op = .createPlain o) (h : Created o none w.db db')
  | created (n k : ℕ) (call : CreateCall) (hop : op = .createStep n) (hcall : w.calls n = some call)
      (hpc : call.pc = .send k) (h : Created call.opts (some call.concurrencyId) w.db db')
  | stolen (n k : ℕ) (call : CreateCall) (reasons : List Bool) (holder : String) (after : AfterResolve)
      (y : LockRow) (hop : op = .createStep n) (hcall : w.calls n = some call)
      (hpc : call.pc = .deleteLock k reasons holder after)
      (hy : w.db.concurrencyLocks call.concurrencyId = some y) (hn : y.sessionId = some holder)
      (h : Tables db' w.db.sessions w.db.worktrees
        (locksReleased (some call.concurrencyId) w.db.concurrencyLocks) w.db.hostLocks)
  | leaseReleased (s : String) (read : SessionRow) (l : ProviderAccountLease)
      (hop : op = .releaseProviderAccountLease s read l)
      (hown : ∀ y, w.db.concurrencyLocks l.concurrencyId = some y → y.ownedBy s l.attemptId = true)
      (h : Tables db' w.db.sessions w.db.worktrees
        (locksReleased (some l.concurrencyId) w.db.concurrencyLocks) w.db.hostLocks)
  | persisted (s : String) (read : SessionRow) (hop : op = .putTimedOut s read)
      (hcreated : ∀ r, w.db.sessions s = some r → r.createdAt = read.createdAt)
      (h : Tables db' (Function.update w.db.sessions s (some (timedOutPersisted read))) w.db.worktrees
        w.db.concurrencyLocks w.db.hostLocks)
  | hostLinked (host : String) (k : Option String) (d e : Option Bool) (hop : op = .hostLink host k d e)
      (h : Tables db' w.db.sessions w.db.worktrees w.db.concurrencyLocks
        (Function.update w.db.hostLocks host
          (some { (w.db.hostLocks host).getD {} with connectionId := k, disconnected := d, draining := e })))
  | worktreeLinked (i : String) (online : Bool) (k : Option String) (x : WorktreeRow)
      (hop : op = .worktreeLink i online k) (hx : w.db.worktrees i = some x)
      (h : Tables db' w.db.sessions
        (Function.update w.db.worktrees i (some { x with online := online, connectionId := k }))
        w.db.concurrencyLocks w.db.hostLocks)
  | marked (key : String) (row : Option Timestamp) (hop : op = .marker key row)
      (h : Tables db' w.db.sessions w.db.worktrees
        (Function.update w.db.concurrencyLocks ("catalog-delete:" ++ key)
          (row.map fun t => { expiresAt := some t })) w.db.hostLocks)

variable {w : World} {op : Op} {x : Assigning}

theorem effect_of_transact {items : List TransactItem}
    (h : ∀ db', transact items w.db = .committed db' → Effect w op db') :
    Effect w op ((transact items w.db).state w.db) := by
  cases ht : transact items w.db with
  | committed db' => exact h db' ht
  | cancelled | rejected => exact .quiet (.self _)

theorem effect_createStep {n : ℕ} {call : CreateCall} (hcall : w.calls n = some call) :
    Effect w (.createStep n) (createStep call.opts call.concurrencyId call.pc w.db).2 := by
  cases hpc : call.pc with
  | send k =>
    simp only [createStep]
    split
    · rename_i db' ht
      exact .created n k call rfl hcall hpc (createSessionWithConcurrency_committed ht)
    all_goals exact .quiet (.self _)
  | readDrain | done => exact .quiet (.self _)
  | readParent k reasons lockOnly after =>
    simp only [createStep]
    split
    · exact .quiet (.self _)
    · split <;> exact .quiet (.self _)
  | readLock | readHolder =>
    simp only [createStep]
    split
    · split <;> exact .quiet (.self _)
    · exact .quiet (.self _)
  | deleteLock k reasons holder after =>
    have hstolen : Effect w (.createStep n)
        ((transact (releaseConcurrencyLockItems call.concurrencyId holder) w.db).state w.db) := by
      refine effect_of_transact fun db' ht => ?_
      obtain ⟨-, hr, rfl⟩ := committed_iff.mp ht
      simp only [releaseConcurrencyLockItems, ready_cons, ready_nil, and_true, lockWrite_holds,
        any_eq_true, LockRow.names, beq_iff_eq] at hr
      obtain ⟨y, hy, hn⟩ := hr
      exact .stolen n k call reasons holder after y rfl hcall hpc hy hn ⟨rfl, rfl, rfl, rfl⟩
    simp only [createStep]
    split <;> exact hstolen

theorem lease_of_attemptPromised {o : AssignmentOpts} (h : attemptPromised w o = true) : o.lease = ⟨o.hostId⟩ := by
  simp only [attemptPromised, Bool.and_eq_true, beq_iff_eq] at h
  exact h.1.2

theorem attempt_of_allowed (ha : op.allowed w = true)
    (hop : op.assigning = some x) : attemptPromised w x.opts = true := by
  cases op with
  | assignWorktree | assignMainCheckout => cases hop; exact ha
  | assignWorkspace o => cases hop; exact (Bool.and_eq_true_iff.mp ha).1
  | _ => cases hop

theorem assigned_of_committed (ha : op.allowed w = true)
    (hop : op.assigning = some x) (ht : transact op.items w.db = .committed db') : ∃ r, Assigned x w.db db' r := by
  have hlease := lease_of_attemptPromised (attempt_of_allowed ha hop)
  cases op with
  | assignWorktree o =>
    cases hop
    exact assigned_worktree hlease ht
  | assignMainCheckout o =>
    cases hop
    exact assigned_mainCheckout ht
  | assignWorkspace o =>
    cases hop
    exact assigned_workspace hlease ht
  | _ => cases hop

/-- **Step lemma.** What an allowed request does to the store is one of the listed effects. -/
theorem World.effect (h : op.allowed w = true) : Effect w op (w.act op).1 := by
  cases op with
  | createBegin | catalog => exact .quiet (.self _)
  | createStep n =>
    obtain ⟨call, hcall⟩ := isSome_iff_exists.mp h
    simp only [World.act, hcall]
    exact effect_createStep hcall
  | createPlain o =>
    exact effect_of_transact fun db' ht => .createdPlain o rfl (createSession_committed ht)
  | assignWorktree | assignMainCheckout | assignWorkspace =>
    refine effect_of_transact fun db' ht => ?_
    obtain ⟨r, hr⟩ := assigned_of_committed h rfl ht
    exact .assigned _ r rfl hr
  | write x =>
    refine effect_of_transact fun db' ht => ?_
    obtain ⟨r, hr⟩ := WriteOp.wrote ht
    exact .wrote x r rfl hr
  | releaseProviderAccountLease s read l =>
    refine effect_of_transact fun db' ht => ?_
    obtain ⟨hown, rfl⟩ := releaseAccount_committed ht
    exact .leaseReleased s read l rfl hown ⟨rfl, rfl, rfl, rfl⟩
  | putTimedOut s read =>
    refine effect_of_transact fun db' ht => ?_
    obtain ⟨-, hr, rfl⟩ := committed_iff.mp ht
    simp only [Op.items, putTimedOutItems, ready_cons, ready_nil, and_true, sessionWrite_holds,
      all_eq_true, beq_iff_eq] at hr
    exact .persisted s read rfl hr.1 ⟨rfl, rfl, rfl, rfl⟩
  | hostLink host k d e =>
    change Effect w _ ((transact (Op.hostLink host k d e).items w.db).state w.db)
    refine effect_of_transact fun db' ht => ?_
    obtain ⟨-, -, rfl⟩ := committed_iff.mp ht
    exact .hostLinked host k d e rfl ⟨rfl, rfl, rfl, rfl⟩
  | worktreeLink i online k =>
    refine effect_of_transact fun db' ht => ?_
    obtain ⟨-, hr, rfl⟩ := committed_iff.mp ht
    simp only [Op.items, ready_cons, ready_nil, and_true, worktreeWrite_holds, isSome_iff_exists] at hr
    obtain ⟨x, hx⟩ := hr
    exact .worktreeLinked i online k x rfl hx ⟨rfl, by simp [Op.items, hx], rfl, rfl⟩
  | marker key row =>
    change Effect w _ ((transact (Op.marker key row).items w.db).state w.db)
    refine effect_of_transact fun db' ht => ?_
    obtain ⟨-, -, rfl⟩ := committed_iff.mp ht
    exact .marked key row rfl ⟨rfl, rfl, rfl, rfl⟩

end AutoHarness.Protocol

import Mathlib.Tactic.Simps.Basic
import AutoHarness.Store.Rows

/-! The durable store as one state, and the conditional writes its transactions are made of. -/

namespace AutoHarness.Store
open Foundation

/-- The tables the modelled writers touch. A table maps a key to its row, if it has one. -/
structure Db where
  sessions : String → Option SessionRow := fun _ => none
  worktrees : String → Option WorktreeRow := fun _ => none
  workspaceSlots : String → Option WorkspaceSlotRow := fun _ => none
  concurrencyLocks : String → Option LockRow := fun _ => none
  hostLocks : String → Option HostLockRow := fun _ => none
  providerAccounts : String → Option ProviderAccountRow := fun _ => none
  repositories : String → Option RepositoryRow := fun _ => none
  workspacePools : String → Bool := fun _ => false
  hostInventories : String → Option HostInventoryRow := fun _ => none
  connections : String → Option ConnectionRow := fun _ => none
  users : String → Bool := fun _ => false
  integrations : String → Option IntegrationRow := fun _ => none
  sessionDrains : DrainScope × DrainRecord → Option DrainRow := fun _ => none
  sessionCancelRedeliveries : String → Option CancelRedeliveryRow := fun _ => none

/-- A table and a key: what one operation of a transaction addresses. -/
inductive Target where
  | session (id : String)
  | worktree (id : String)
  | workspaceSlot (id : String)
  | concurrencyLock (concurrencyId : String)
  | hostLock (hostId : String)
  | providerAccount (id : String)
  | repository (id : String)
  | workspacePool (id : String)
  | hostInventory (hostId : String)
  | connection (connectionId : String)
  | user (id : String)
  | integration (id : String)
  | sessionDrain (key : DrainScope × DrainRecord)
  | cancelRedelivery (sessionId : String)
deriving DecidableEq

abbrev TransactItem := Item Db Target

/-! ## Writes, one constructor per table

`cond` looks at the addressed row and `next` gives the row after the write. `Option.any` reads an
ordinary condition (false on a missing row), `Option.all` one that starts with
`attribute_not_exists(key) OR`. -/

/-- A conditional update of one row: `cond` is checked on the row before, `next` gives the row after. -/
@[simps target holds run]
def sessionWrite (id : String) (cond : Option SessionRow → Bool)
    (next : Option SessionRow → Option SessionRow) : TransactItem where
  target := .session id
  holds db := cond (db.sessions id)
  run db := { db with sessions := Function.update db.sessions id (next (db.sessions id)) }

@[simps target holds run]
def worktreeWrite (id : String) (cond : Option WorktreeRow → Bool)
    (next : Option WorktreeRow → Option WorktreeRow) : TransactItem where
  target := .worktree id
  holds db := cond (db.worktrees id)
  run db := { db with worktrees := Function.update db.worktrees id (next (db.worktrees id)) }

@[simps target holds run]
def workspaceSlotWrite (id : String) (cond : Option WorkspaceSlotRow → Bool)
    (next : Option WorkspaceSlotRow → Option WorkspaceSlotRow) : TransactItem where
  target := .workspaceSlot id
  holds db := cond (db.workspaceSlots id)
  run db := { db with
    workspaceSlots := Function.update db.workspaceSlots id (next (db.workspaceSlots id)) }

@[simps target holds run]
def lockWrite (concurrencyId : String) (cond : Option LockRow → Bool)
    (next : Option LockRow → Option LockRow) : TransactItem where
  target := .concurrencyLock concurrencyId
  holds db := cond (db.concurrencyLocks concurrencyId)
  run db := { db with
    concurrencyLocks :=
      Function.update db.concurrencyLocks concurrencyId (next (db.concurrencyLocks concurrencyId)) }

@[simps target holds run]
def hostLockWrite (hostId : String) (cond : Option HostLockRow → Bool)
    (next : Option HostLockRow → Option HostLockRow) : TransactItem where
  target := .hostLock hostId
  holds db := cond (db.hostLocks hostId)
  run db := { db with hostLocks := Function.update db.hostLocks hostId (next (db.hostLocks hostId)) }

@[simps target holds run]
def providerAccountWrite (id : String) (cond : Option ProviderAccountRow → Bool)
    (next : Option ProviderAccountRow → Option ProviderAccountRow) : TransactItem where
  target := .providerAccount id
  holds db := cond (db.providerAccounts id)
  run db := { db with
    providerAccounts := Function.update db.providerAccounts id (next (db.providerAccounts id)) }

@[simps target holds run]
def sessionDrainWrite (key : DrainScope × DrainRecord) (cond : Option DrainRow → Bool)
    (next : Option DrainRow → Option DrainRow) : TransactItem where
  target := .sessionDrain key
  holds db := cond (db.sessionDrains key)
  run db := { db with
    sessionDrains := Function.update db.sessionDrains key (next (db.sessionDrains key)) }

/-- An unconditional put. -/
@[simps target holds run]
def cancelRedeliveryPut (sessionId : String) (row : CancelRedeliveryRow) : TransactItem where
  target := .cancelRedelivery sessionId
  holds _ := true
  run db := { db with
    sessionCancelRedeliveries :=
      Function.update db.sessionCancelRedeliveries sessionId (some row) }

/-! ## Answers of a writer -/

/-- What a writer throws: DynamoDB refuses the shape of the transaction. -/
inductive StoreError where
  | validationException
deriving DecidableEq

/-- Send a transaction; a failed condition is the answer `false`. -/
def commitOrFalse (items : List TransactItem) (db : Db) : Except StoreError Bool × Db :=
  match transact items db with
  | .committed db' => (.ok true, db')
  | .cancelled _ => (.ok false, db)
  | .rejected => (.error .validationException, db)

variable {items : List TransactItem}

theorem commitOrFalse_true {db db' : Db} :
    commitOrFalse items db = (.ok true, db') ↔ transact items db = .committed db' := by
  unfold commitOrFalse
  cases transact items db <;> simp

theorem commitOrFalse_of_nodup (hn : (targets items).Nodup) (db : Db) :
    (Ready items db ∧ commitOrFalse items db = (.ok true, runAll items db)) ∨
      (¬ Ready items db ∧ commitOrFalse items db = (.ok false, db)) := by
  by_cases hr : Ready items db
  · exact .inl ⟨hr, by simp [commitOrFalse, transact_of_ready hn hr]⟩
  · exact .inr ⟨hr, by simp [commitOrFalse, transact_of_not_ready hn hr]⟩

theorem commitOrFalse_true_iff (hn : (targets items).Nodup) {db : Db} :
    (∃ db', commitOrFalse items db = (.ok true, db')) ↔ Ready items db := by
  obtain ⟨hr, he⟩ | ⟨hr, he⟩ := commitOrFalse_of_nodup hn db
  · exact iff_of_true ⟨_, he⟩ hr
  · refine iff_of_false ?_ hr
    rintro ⟨db', he'⟩
    rw [he] at he'
    cases he'

end AutoHarness.Store

import Mathlib.Data.String.Basic
import AutoHarness.Foundation.Sweep
import AutoHarness.Store.Rows

/-! The recovery sweeps: a call reads one page of the activity ledger and saves a shard and a continuation key, of
which only the shard is checked later. -/

namespace AutoHarness.Recovery
open Foundation Store List Option Bool

structure OperationalActivity where
  scopeKey : DrainScope
  sessionId : String
  repositoryId : String
  generation : String
deriving DecidableEq

def OperationalActivity.recordKey (activity : OperationalActivity) : String := "ACT#" ++ activity.sessionId

structure ActivityKey where
  scopeKey : DrainScope
  recordKey : String
deriving DecidableEq

def OperationalActivity.key (activity : OperationalActivity) : ActivityKey := ⟨activity.scopeKey, activity.recordKey⟩

def operationalActivityScope (shard : ℕ) : DrainScope := .active shard

/-- The ledger: the members of every partition, in the order of their keys. -/
structure Ledger where
  rows : DrainScope → List OperationalActivity
  increasing : ∀ scope, Increasing OperationalActivity.recordKey (rows scope)
  inScope : ∀ scope, ∀ activity ∈ rows scope, activity.scopeKey = scope

def sessionNeedsOperationalRecovery (session : SessionRow) : Bool :=
  session.status == .running ||
  session.worktreeId.toOption.isSome ||
  session.workspaceSlotId.toOption.isSome ||
  session.workspaceSlotLease ||
  session.mainCheckoutLease ||
  session.activeHostId.isSome ||
  session.reconnectDeadlineAt.isSome ||
  session.providerAccountLease.isSome ||
  session.hostAssignmentLease.isSome ||
  session.terminalHookHandoff.isSome ||
  (session.errorCode == some InfrastructureErrorCode.checkoutFetchFailed.text &&
    session.terminalHookLifecycleEnqueuedAt.isNone &&
    (session.terminalHookHandoffExpiredAt.isSome || session.terminalHookHandoffSettled.isSome))

/-- `deleteOperationalActivity`: the row goes if it still is that of the session and the generation. -/
def Ledger.deleteOperationalActivity (ledger : Ledger) (activity : OperationalActivity) : Ledger where
  rows scope :=
    if scope = activity.scopeKey then
      (ledger.rows scope).filter fun row => !(row.recordKey == activity.recordKey &&
        row.sessionId == activity.sessionId && row.generation == activity.generation)
    else ledger.rows scope
  increasing scope := by
    split
    · exact (ledger.increasing scope).filter _
    · exact ledger.increasing scope
  inScope scope row hrow := by
    split at hrow
    · exact ledger.inScope scope row (List.mem_of_mem_filter hrow)
    · exact ledger.inScope scope row hrow

inductive RecoveryError where
  | notReady
  /-- The store refuses a start key outside the queried partition. -/
  | startKeyOutsidePartition
deriving DecidableEq, Repr

/-- A full page has a continuation key when more rows follow; when none follows the store may give one (`atEnd`). -/
def listActivityPage (ledger : Ledger) (atEnd : Bool) (scopeKey : DrainScope) (startKey : Option ActivityKey)
    (limit : ℕ) : Except RecoveryError (List OperationalActivity × Option ActivityKey) :=
  let limit := max 1 (min 25 limit)
  if startKey.any fun key => key.scopeKey ≠ scopeKey then .error .startKeyOutsidePartition
  else
    let left := rowsAfter OperationalActivity.recordKey (ledger.rows scopeKey) (startKey.map (·.recordKey))
    let records := left.take limit
    let stopped := limit < left.length || (limit == left.length && atEnd)
    .ok (records, if stopped then records.getLast?.map OperationalActivity.key else none)

def listOperationalActivityPage (ledger : Ledger) (atEnd : Bool) (shard : ℕ) (startKey : Option ActivityKey)
    (limit : ℕ) : Except RecoveryError (List OperationalActivity × Option ActivityKey) :=
  listActivityPage ledger atEnd (operationalActivityScope shard) startKey limit

inductive OperationalRecoverySweep where
  | ack | reconnect | timeout
deriving DecidableEq, Repr

structure CursorRow where
  shard : ℕ
  nextKey : Option ActivityKey
deriving DecidableEq

structure RecoveryState where
  ready : Bool
  ledger : Ledger
  cursor : OperationalRecoverySweep → Option CursorRow
  visited : List OperationalActivity := []

def PAGE_SIZE : ℕ := 25

section Calls

variable (getSession : String → Option SessionRow)

/-- The stored session runs or still claims something. -/
def needsRecovery (activity : OperationalActivity) : Bool :=
  (getSession activity.sessionId).any sessionNeedsOperationalRecovery

/-- A session that needs nothing is taken off the ledger. -/
def prune (ledger : Ledger) (activity : OperationalActivity) : Ledger :=
  if needsRecovery getSession activity then ledger else ledger.deleteOperationalActivity activity

/-- A cursor beyond the shard count starts again. -/
def shardOf (shardCount : ℕ) : Option CursorRow → ℕ
  | some row => if row.shard < shardCount then row.shard else 0
  | none => 0

def savePage (kind : OperationalRecoverySweep) (s : RecoveryState) (records : List OperationalActivity)
    (row : CursorRow) : RecoveryState :=
  { s with
    ledger := records.foldl (prune getSession) s.ledger
    cursor := Function.update s.cursor kind (some row)
    visited := s.visited ++ records }

def listOperationalRecoveryPage (atEnd : Bool) (kind : OperationalRecoverySweep) (shardCount : ℕ)
    (s : RecoveryState) : Except RecoveryError (List SessionRow × RecoveryState) :=
  if s.ready = false then .error .notReady
  else if shardCount < 1 then .ok ([], s)
  else
    let shard := shardOf shardCount (s.cursor kind)
    match listOperationalActivityPage s.ledger atEnd shard ((s.cursor kind).bind (·.nextKey)) PAGE_SIZE with
    | .error error => .error error
    | .ok (records, nextKey) =>
      .ok ((records.filter (needsRecovery getSession)).filterMap fun activity => getSession activity.sessionId,
        savePage getSession kind s records ⟨if nextKey.isSome then shard else (shard + 1) % shardCount, nextKey⟩)

/-- The state after the first `n` calls of a sweep. -/
def calls (atEnd : ℕ → Bool) (kind : OperationalRecoverySweep) (shardCount : ℕ) (s : RecoveryState) :
    ℕ → Except RecoveryError RecoveryState
  | 0 => .ok s
  | n + 1 =>
    match calls atEnd kind shardCount s n with
    | .error error => .error error
    | .ok t => (listOperationalRecoveryPage getSession (atEnd n) kind shardCount t).map Prod.snd

end Calls

/-! ## Pruning -/

variable {getSession : String → Option SessionRow} {kind : OperationalRecoverySweep} {shardCount : ℕ}
  {s : RecoveryState}

section Prune

theorem delete_sublist (ledger : Ledger) (activity : OperationalActivity) (scope : DrainScope) :
    ((ledger.deleteOperationalActivity activity).rows scope).Sublist (ledger.rows scope) := by
  unfold Ledger.deleteOperationalActivity
  dsimp only
  split
  · exact filter_sublist
  · exact List.Sublist.refl _

variable {scope : DrainScope} {ledger : Ledger} {activity row : OperationalActivity}
  {records : List OperationalActivity}

theorem mem_delete_of_ne (hrow : row ∈ ledger.rows scope) (hne : row.recordKey ≠ activity.recordKey) :
    row ∈ (ledger.deleteOperationalActivity activity).rows scope := by
  unfold Ledger.deleteOperationalActivity
  dsimp only
  split
  · refine mem_filter.mpr ⟨hrow, ?_⟩
    simp [hne]
  · exact hrow

theorem delete_other (ledger : Ledger)
    (hne : scope ≠ activity.scopeKey) : (ledger.deleteOperationalActivity activity).rows scope = ledger.rows scope :=
  if_neg hne

theorem prune_sublist (ledger : Ledger) (records : List OperationalActivity) (scope : DrainScope) :
    ((records.foldl (prune getSession) ledger).rows scope).Sublist (ledger.rows scope) := by
  induction records generalizing ledger with
  | nil => exact List.Sublist.refl _
  | cons activity records ih =>
    refine (ih _).trans ?_
    unfold prune
    split
    · exact List.Sublist.refl _
    · exact delete_sublist ledger activity scope

theorem mem_prune_of_ne (hrow : row ∈ ledger.rows scope) (hne : ∀ activity ∈ records, row.recordKey ≠ activity.recordKey) :
    row ∈ (records.foldl (prune getSession) ledger).rows scope := by
  induction records generalizing ledger with
  | nil => exact hrow
  | cons activity records ih =>
    refine ih ?_ fun a ha => hne a (mem_cons_of_mem _ ha)
    unfold prune
    split
    · exact hrow
    · exact mem_delete_of_ne hrow (hne activity mem_cons_self)

theorem prune_other (ledger : Ledger) (hne : ∀ activity ∈ records, activity.scopeKey ≠ scope) :
    (records.foldl (prune getSession) ledger).rows scope = ledger.rows scope := by
  induction records generalizing ledger with
  | nil => rfl
  | cons activity records ih =>
    rw [foldl_cons, ih _ fun a ha => hne a (mem_cons_of_mem _ ha)]
    unfold prune
    split
    · rfl
    · exact delete_other ledger fun he => hne activity mem_cons_self he.symm

end Prune

/-! ## A call is a turn of the sweep -/

section Turn

variable {atEnd : Bool} {left : List OperationalActivity}

/-- A saved key is of the shard it is used on. -/
def Aligned (shardCount : ℕ) (saved : Option CursorRow) : Prop :=
  ∀ row, saved = some row → ∀ key, row.nextKey = some key →
    key.scopeKey = operationalActivityScope (shardOf shardCount saved)

def asSweep (kind : OperationalRecoverySweep) (shardCount : ℕ) (s : RecoveryState) : Sweep OperationalActivity String where
  rows shard := s.ledger.rows (operationalActivityScope shard)
  shard := shardOf shardCount (s.cursor kind)
  after := ((s.cursor kind).bind (·.nextKey)).map (·.recordKey)
  visited := s.visited

theorem shardOf_lt (hcount : 0 < shardCount) (saved : Option CursorRow) : shardOf shardCount saved < shardCount := by
  unfold shardOf
  split
  · split
    · assumption
    · exact hcount
  · exact hcount

theorem shardOf_some {row : CursorRow} (h : row.shard < shardCount) : shardOf shardCount (some row) = row.shard :=
  if_pos h

theorem listActivityPage_ok {ledger : Ledger} {shard : ℕ} {startKey : Option ActivityKey}
    (h : ∀ key, startKey = some key → key.scopeKey = operationalActivityScope shard)
    (hleft : rowsAfter OperationalActivity.recordKey (ledger.rows (operationalActivityScope shard))
      (startKey.map (·.recordKey)) = left) :
    ∃ nextKey, listOperationalActivityPage ledger atEnd shard startKey PAGE_SIZE = .ok (left.take 25, nextKey) ∧
      (left.length ≤ 25 ∧ nextKey = none ∨
        25 ≤ left.length ∧ nextKey.isSome = true ∧ nextKey = (left.take 25).getLast?.map OperationalActivity.key) := by
  have hstart : ¬ (startKey.any fun key => key.scopeKey ≠ operationalActivityScope shard) = true := by
    cases startKey with
    | none => exact false_ne_true
    | some key => simp [h key rfl]
  unfold listOperationalActivityPage listActivityPage
  rw [if_neg hstart, hleft]
  refine ⟨_, rfl, ?_⟩
  by_cases hstop : (25 < left.length || (25 == left.length && atEnd)) = true
  · have hfull : 25 ≤ left.length := by
      rw [or_eq_true, and_eq_true, decide_eq_true_iff, beq_iff_eq] at hstop
      omega
    refine .inr ⟨hfull, ?_, if_pos hstop⟩
    have hne : left.take 25 ≠ [] := by
      intro he
      have hlen := congrArg length he
      rw [length_take, length_nil] at hlen
      omega
    rw [show max 1 (min 25 PAGE_SIZE) = 25 from rfl, if_pos hstop, isSome_map]
    exact getLast?_isSome.mpr hne
  · have hshort : left.length ≤ 25 := by
      rw [or_eq_true, decide_eq_true_iff] at hstop
      omega
    exact .inl ⟨hshort, if_neg hstop⟩

theorem savePage_cursor (records : List OperationalActivity) (row : CursorRow) :
    (savePage getSession kind s records row).cursor kind = some row :=
  Function.update_self _ _ _

theorem turn_savePage {row : CursorRow} (hleft : (asSweep kind shardCount s).left OperationalActivity.recordKey = left)
    (hmoves : left.length ≤ 25 ∧ shardOf shardCount (some row) = (shardOf shardCount (s.cursor kind) + 1) % shardCount ∧
        row.nextKey.map (·.recordKey) = none ∨
      25 ≤ left.length ∧ shardOf shardCount (some row) = shardOf shardCount (s.cursor kind) ∧
        row.nextKey.map (·.recordKey) = (left.take 25).getLast?.map OperationalActivity.recordKey) :
    Sweep.Turn OperationalActivity.recordKey 25 shardCount (asSweep kind shardCount s)
      (asSweep kind shardCount (savePage getSession kind s (left.take 25) row)) := by
  have hpage : (asSweep kind shardCount s).page OperationalActivity.recordKey 25 = left.take 25 := by
    rw [Sweep.page, hleft]
  have hrows : ∀ activity ∈ left.take 25,
      activity ∈ s.ledger.rows (operationalActivityScope (shardOf shardCount (s.cursor kind))) := by
    intro activity hmem
    rw [← hleft] at hmem
    exact (Sweep.mem_rowsAfter.mp (mem_of_mem_take hmem)).1
  refine ⟨fun i hi => ?_, prune_sublist _ _ _, fun a ha hnot => ?_, ?_, ?_⟩
  · refine prune_other _ fun activity hmem he => hi ?_
    rw [s.ledger.inScope _ _ (hrows activity hmem)] at he
    exact (DrainScope.active.inj he).symm
  · rw [hpage] at hnot
    refine mem_prune_of_ne ha fun activity hmem heq => hnot ?_
    rwa [(s.ledger.increasing _).inj ha (hrows activity hmem) heq]
  · rw [hpage]
    rfl
  · rw [hpage, hleft]
    unfold asSweep
    rw [savePage_cursor, bind_some]
    exact hmoves

theorem call_turn (hready : s.ready = true) (hcount : 0 < shardCount) (haligned : Aligned shardCount (s.cursor kind)) :
    ∃ sessions t, listOperationalRecoveryPage getSession atEnd kind shardCount s = .ok (sessions, t) ∧
      t.ready = true ∧ Aligned shardCount (t.cursor kind) ∧
      Sweep.Turn OperationalActivity.recordKey 25 shardCount (asSweep kind shardCount s) (asSweep kind shardCount t) := by
  have hstart : ∀ key, (s.cursor kind).bind (·.nextKey) = some key →
      key.scopeKey = operationalActivityScope (shardOf shardCount (s.cursor kind)) := by
    intro key hkey
    obtain ⟨row, hrow, hnext⟩ := bind_eq_some_iff.mp hkey
    exact haligned row hrow key hnext
  have hshard := shardOf_lt hcount (s.cursor kind)
  generalize hleft : rowsAfter OperationalActivity.recordKey
    (s.ledger.rows (operationalActivityScope (shardOf shardCount (s.cursor kind))))
    (((s.cursor kind).bind (·.nextKey)).map (·.recordKey)) = left
  have hscope : ∀ activity ∈ left.take 25,
      activity.scopeKey = operationalActivityScope (shardOf shardCount (s.cursor kind)) := by
    intro activity hmem
    rw [← hleft] at hmem
    exact s.ledger.inScope _ _ (Sweep.mem_rowsAfter.mp (mem_of_mem_take hmem)).1
  obtain ⟨nextKey, hpage, hnext⟩ := listActivityPage_ok hstart hleft
  unfold listOperationalRecoveryPage
  rw [if_neg (by simp [hready]), if_neg (Nat.not_lt.mpr hcount)]
  dsimp only
  rw [hpage]
  refine ⟨_, _, rfl, hready, ?_, ?_⟩
  · intro row hrow key hkey
    rw [hrow]
    obtain rfl := some.inj ((savePage_cursor _ _).symm.trans hrow)
    obtain ⟨-, rfl⟩ | ⟨-, hsome, heq⟩ := hnext
    · cases hkey
    · obtain ⟨last, hlast, rfl⟩ := map_eq_some_iff.mp (heq.symm.trans hkey)
      rw [if_pos hsome, shardOf_some hshard]
      exact hscope last (mem_of_getLast? hlast)
  · refine turn_savePage hleft ?_
    obtain ⟨hshort, rfl⟩ | ⟨hfull, hsome, heq⟩ := hnext
    · exact .inl ⟨hshort, shardOf_some (Nat.mod_lt _ hcount), rfl⟩
    · rw [if_pos hsome]
      refine .inr ⟨hfull, shardOf_some hshard, ?_⟩
      rw [heq, Option.map_map]
      rfl

end Turn

/-! ## Runs of a sweep -/

section Run

variable {atEnd : ℕ → Bool}

theorem calls_succ {n : ℕ} {t u : RecoveryState} {sessions : List SessionRow}
    (h : calls getSession atEnd kind shardCount s n = .ok t)
    (hcall : listOperationalRecoveryPage getSession (atEnd n) kind shardCount t = .ok (sessions, u)) :
    calls getSession atEnd kind shardCount s (n + 1) = .ok u := by
  rw [calls, h]
  dsimp only
  rw [hcall]
  rfl

theorem calls_turns (hready : s.ready = true) (hcount : 0 < shardCount) (haligned : Aligned shardCount (s.cursor kind)) :
    ∃ σ : ℕ → RecoveryState, σ 0 = s ∧ (∀ n, calls getSession atEnd kind shardCount s n = .ok (σ n)) ∧
      ∀ n, Sweep.Turn OperationalActivity.recordKey 25 shardCount (asSweep kind shardCount (σ n))
        (asSweep kind shardCount (σ (n + 1))) := by
  have hcalls : ∀ n, ∃ t, calls getSession atEnd kind shardCount s n = .ok t ∧ t.ready = true ∧
      Aligned shardCount (t.cursor kind) := by
    intro n
    induction n with
    | zero => exact ⟨s, rfl, hready, haligned⟩
    | succ n ih =>
      obtain ⟨t, ht, htready, htaligned⟩ := ih
      obtain ⟨sessions, u, hu, huready, hualigned, -⟩ := call_turn htready hcount htaligned
      exact ⟨u, calls_succ ht hu, huready, hualigned⟩
  choose σ hσ hσready hσaligned using hcalls
  refine ⟨σ, (Except.ok.inj (hσ 0)).symm, hσ, fun n => ?_⟩
  obtain ⟨sessions, u, hu, -, -, hturn⟩ := call_turn (hσready n) hcount (hσaligned n)
  rwa [Except.ok.inj ((hσ (n + 1)).symm.trans (calls_succ (hσ n) hu))]

/-- The rows an earlier run of the sweep can have saved, with any shard count: the key is one of the saved
shard. -/
def Written (saved : Option CursorRow) : Prop :=
  ∀ row, saved = some row → ∀ key, row.nextKey = some key → key.scopeKey = operationalActivityScope row.shard

theorem aligned_of_written {saved : Option CursorRow} (h : Written saved)
    (hshard : ∀ row, saved = some row → row.nextKey.isSome = true → row.shard < shardCount) :
    Aligned shardCount saved := by
  rintro row rfl key hkey
  rw [shardOf_some (hshard row rfl (by rw [hkey]; rfl))]
  exact h row rfl key hkey

theorem call_refused {row : CursorRow} {key : ActivityKey} {atEnd : Bool} (hready : s.ready = true)
    (hcount : 0 < shardCount) (hrow : s.cursor kind = some row) (hkey : row.nextKey = some key)
    (hscope : key.scopeKey = operationalActivityScope row.shard) (hshard : shardCount ≤ row.shard) :
    listOperationalRecoveryPage getSession atEnd kind shardCount s = .error .startKeyOutsidePartition := by
  have hzero : shardOf shardCount (some row) = 0 := if_neg (Nat.not_lt.mpr hshard)
  have hother : key.scopeKey ≠ operationalActivityScope 0 := by
    rw [hscope]
    intro he
    have := DrainScope.active.inj he
    omega
  have hpage : listOperationalActivityPage s.ledger atEnd 0 (some key) PAGE_SIZE =
      .error .startKeyOutsidePartition := by
    unfold listOperationalActivityPage listActivityPage
    rw [if_pos (by simpa using hother)]
  unfold listOperationalRecoveryPage
  rw [if_neg (by simp [hready]), if_neg (Nat.not_lt.mpr hcount)]
  dsimp only
  rw [hrow, hzero, bind_some, hkey, hpage]

end Run

def ledgerPages (ledger : Ledger) (shardCount : ℕ) : ℕ :=
  ∑ shard ∈ Finset.range shardCount, Sweep.pages PAGE_SIZE (ledger.rows (operationalActivityScope shard))

/-- Every call succeeds and every activity is visited in time exactly when the ledger is ready and a saved key belongs
to a shard that is still read. -/
theorem recovery_sweep_covers_iff (getSession : String → Option SessionRow) (kind : OperationalRecoverySweep)
    (shardCount : ℕ) (hcount : 1 ≤ shardCount) (s : RecoveryState) (hwritten : Written (s.cursor kind)) :
    (∀ atEnd : ℕ → Bool, (∀ n, ∃ t, calls getSession atEnd kind shardCount s n = .ok t) ∧
      ∃ n ≤ ledgerPages s.ledger shardCount + shardCount, ∃ t, calls getSession atEnd kind shardCount s n = .ok t ∧
        ∀ shard < shardCount, ∀ activity ∈ s.ledger.rows (operationalActivityScope shard), activity ∈ t.visited) ↔
    s.ready = true ∧ ∀ row, s.cursor kind = some row → row.nextKey.isSome = true → row.shard < shardCount := by
  constructor
  · intro h
    obtain ⟨t, ht⟩ := (h fun _ => false).1 1
    have hready : s.ready = true := by
      by_contra hnot
      rw [not_eq_true] at hnot
      simp only [calls, listOperationalRecoveryPage, hnot, if_true] at ht
      cases ht
    refine ⟨hready, fun row hrow hsome => ?_⟩
    obtain ⟨key, hkey⟩ := isSome_iff_exists.mp hsome
    by_contra hshard
    simp only [calls, call_refused hready hcount hrow hkey (hwritten row hrow key hkey) (Nat.not_lt.mp hshard)] at ht
    cases ht
  · rintro ⟨hready, hshard⟩ atEnd
    obtain ⟨σ, rfl, hσ, hturn⟩ := calls_turns hready hcount (aligned_of_written hwritten hshard)
    refine ⟨fun n => ⟨σ n, hσ n⟩, ?_⟩
    obtain ⟨n, hn, hvisited⟩ := Sweep.covers hturn (fun shard => (σ 0).ledger.increasing _) (by decide)
      (shardOf_lt hcount ((σ 0).cursor kind))
    exact ⟨n, hn, σ n, hσ n, hvisited⟩

def letters : Ledger where
  rows
    | .active 1 => "abcdefghijklmnopqrstuvwxyz".toList.map fun c => ⟨.active 1, String.ofList [c], "r", "a1"⟩
    | _ => []
  increasing scope := by
    unfold Increasing
    split
    · decide +kernel
    · exact List.Pairwise.nil
  inScope scope row hrow := by
    split at hrow
    · obtain ⟨c, -, rfl⟩ := List.mem_map.mp hrow
      rfl
    · cases hrow

def allRunning : String → Option SessionRow := fun _ => some { status := .running }

def interrupted : RecoveryState where
  ready := true
  ledger := letters
  cursor := fun _ => some ⟨1, some ⟨.active 1, "ACT#m"⟩⟩

theorem recovery_sweep_covers_letters : ledgerPages letters 2 = 2 ∧ ∀ atEnd : ℕ → Bool,
    (∀ n, ∃ t, calls allRunning atEnd .ack 2 interrupted n = .ok t) ∧
    ∃ n ≤ ledgerPages letters 2 + 2, ∃ t, calls allRunning atEnd .ack 2 interrupted n = .ok t ∧
      ∀ shard < 2, ∀ activity ∈ letters.rows (operationalActivityScope shard), activity ∈ t.visited := by
  have hwritten : Written (interrupted.cursor .ack) := by
    rintro row ⟨⟩ key ⟨⟩
    rfl
  refine ⟨by decide +kernel, (recovery_sweep_covers_iff allRunning .ack 2 (by decide) interrupted hwritten).mpr
    ⟨rfl, ?_⟩⟩
  rintro row ⟨⟩ -
  exact Nat.one_lt_two

/-- The sweep goes on with one shard instead of two: the saved key is one of shard 1, and the call is refused again
and again. -/
theorem recovery_sweep_stuck : ∃ t,
    calls allRunning (fun _ => false) .ack 2 { ready := true, ledger := letters, cursor := fun _ => none } 2 = .ok t ∧
    t.cursor .ack = some ⟨1, some ⟨.active 1, "ACT#y"⟩⟩ ∧
    ∀ atEnd, listOperationalRecoveryPage allRunning atEnd .ack 1 t = .error .startKeyOutsidePartition := by
  have hcursor : (calls allRunning (fun _ => false) .ack 2
      { ready := true, ledger := letters, cursor := fun _ => none } 2).toOption.map
      (fun t => (t.ready, t.cursor .ack)) = some (true, some ⟨1, some ⟨.active 1, "ACT#y"⟩⟩) := by
    decide +kernel
  cases hcalls : calls allRunning (fun _ => false) .ack 2
      { ready := true, ledger := letters, cursor := fun _ => none } 2 with
  | error error =>
    rw [hcalls] at hcursor
    cases hcursor
  | ok t =>
    rw [hcalls] at hcursor
    have hrow := some.inj hcursor
    refine ⟨t, rfl, congrArg Prod.snd hrow, fun atEnd => ?_⟩
    exact call_refused (congrArg Prod.fst hrow) Nat.one_pos (congrArg Prod.snd hrow) rfl rfl (Nat.le_refl 1)

end AutoHarness.Recovery

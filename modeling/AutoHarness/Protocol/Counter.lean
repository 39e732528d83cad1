import AutoHarness.Foundation.Counting
import AutoHarness.Protocol.Leases

/-! The assignment counter of a host is the number of recorded reservations as long as every release passes the
reservation that the row carries at that moment. -/

namespace AutoHarness.Protocol
open Foundation Store Plane Option World

/-- By how much the counter of a host exceeds the number of sessions that reserve the host. -/
noncomputable def surplus (db : Db) (h : String) : ℤ :=
  (assignmentCount db.hostLocks h).getD 0 - tally (reserves db) ⟨h⟩

/-! ## Reservations are finitely many -/

variable {w : World}

theorem finitelyReserved (h : plane.Reachable w) : FinitelyHeld (reserves w.db) := by
  induction h with
  | init hw =>
    refine Set.finite_empty.subset fun s hs => ?_
    simp [reserves, hw.sessions] at hs
  | @step w w' op hw hs ih =>
    obtain ⟨ha, rfl⟩ := hs
    change FinitelyHeld (reserves (w.act op).1)
    cases leaseEffect hw ha with
    | kept h => rw [h.reserved]; exact ih
    | wrote x r hop h | assigned x r hop h | persisted s read hop h =>
      rw [reserves_update h.sessions]; exact ih.update _ _
    | leaseReleased s read l hop hown h => unfold reserves; rw [h.sessions]; exact ih

/-! ## One step -/

/-- What a release has to respect: it gives back the reservation on the row, and only when it clears it. -/
def reservesExactly (w : World) : Op → Bool
  | .write x => (w.db.sessions x.sessionId).all fun r => !x.writer.cond r ||
      x.writer.host ==
        if (x.writer.next r).hostAssignmentLease = r.hostAssignmentLease then none else r.hostAssignmentLease
  | .putTimedOut s _ => (reserves w.db s).isNone
  | _ => true

def unseeded (w : World) (op : Op) : Bool :=
  op.assigning.all fun x =>
    (assignmentCount w.db.hostLocks x.opts.hostId).isSome || x.opts.legacyAssignmentCount.getD 0 == 0

variable {r : SessionRow} {x : WriteOp}

theorem host_of_reservesExactly (hok : reservesExactly w (.write x) = true)
    (hrow : w.db.sessions x.sessionId = some r) (hcond : x.writer.cond r = true) :
    x.writer.host =
      if (x.writer.next r).hostAssignmentLease = r.hostAssignmentLease then none else r.hostAssignmentLease := by
  simpa [reservesExactly, hrow, hcond] using hok

variable {db' db : Db} {op : Op}

section

variable (hw : plane.Reachable w)
include hw

theorem surplus_wrote (hok : reservesExactly w (.write x) = true) (h : Wrote x.writer w.db db' r)
    (hpos : ∀ h, 0 ≤ surplus w.db h) (host : String) :
    surplus db' host = surplus w.db host := by
  have hrow := h.row
  have hnext := reserves_update h.sessions
  rw [x.writer_sessionId] at hrow hnext
  have hold : reserves w.db x.sessionId = r.hostAssignmentLease := by simp [reserves, hrow]
  have hhost := host_of_reservesExactly hok hrow h.cond
  have hcount := h.counts host
  by_cases hsame : (x.writer.next r).hostAssignmentLease = r.hostAssignmentLease
  · rw [if_pos hsame] at hhost
    rw [hsame, ← hold, Function.update_eq_self] at hnext
    rw [hhost, if_neg (by simp)] at hcount
    rw [surplus, surplus, hcount, hnext]
  · have hnone := (x.hostAssignmentLease_next r).resolve_right hsame
    rw [if_neg hsame] at hhost
    rw [hnone] at hnext
    have htally := tally_update (finitelyReserved hw) x.sessionId none (⟨host⟩ : HostAssignmentLease)
    rw [← hnext, hold] at htally
    simp only [reduceCtorEq, if_false, add_zero] at htally
    rw [hhost] at hcount
    have hp := hpos host
    simp only [surplus] at hp ⊢
    rw [hcount]
    by_cases hl : r.hostAssignmentLease = some ⟨host⟩
    · rw [if_pos hl] at htally ⊢
      -- the row that is cleared is one of the holders, so there is a counter
      cases hc : assignmentCount w.db.hostLocks host with
      | none =>
        rw [hc] at hp
        simp only [getD_none] at hp
        omega
      | some n =>
        simp only [getD_some]
        omega
    · rw [if_neg hl] at htally ⊢
      omega

theorem surplus_assigned (ha : op.allowed w = true) {x : Assigning}
    (hop : op.assigning = some x) (h : Assigned x w.db db' r) (host : String) :
    surplus w.db host ≤ surplus db' host ∧ (unseeded w op = true → surplus db' host = surplus w.db host) := by
  have hfresh := (queued_unleased hw _ r h.checked.row h.checked.queued).2
  have hold : reserves w.db x.opts.sessionId = none := by simp [reserves, h.checked.row, hfresh]
  have hlease : x.opts.lease = ⟨x.opts.hostId⟩ := lease_of_assigned ha hop
  have hnext := reserves_update h.sessions
  rw [h.launched.hostAssignmentLease, hlease] at hnext
  have htally := tally_update (finitelyReserved hw) x.opts.sessionId (some ⟨x.opts.hostId⟩)
    (⟨host⟩ : HostAssignmentLease)
  rw [← hnext, hold] at htally
  simp only [reduceCtorEq, if_false, add_zero] at htally
  have hcount := h.counts host
  by_cases hh : host = x.opts.hostId
  · subst hh
    rw [if_pos rfl] at hcount htally
    simp only [surplus, hcount, getD_some]
    cases hc : assignmentCount w.db.hostLocks x.opts.hostId with
    | none =>
      simp only [getD_none]
      refine ⟨by omega, fun hseed => ?_⟩
      simp only [unseeded, hop, hc, all_some, isSome_none, Bool.false_or, beq_iff_eq] at hseed
      omega
    | some n =>
      simp only [getD_some]
      exact ⟨by omega, fun _ => by omega⟩
  · rw [if_neg hh] at hcount
    rw [if_neg (by simpa using fun e => hh e.symm)] at htally
    simp only [surplus, hcount]
    exact ⟨by omega, fun _ => by omega⟩

/-- **Step lemma.** Exact releases never lower a surplus, and only a seeded counter raises one. -/
theorem surplus_step (ha : op.allowed w = true)
    (hok : reservesExactly w op = true) (hpos : ∀ h, 0 ≤ surplus w.db h) (host : String) :
    surplus w.db host ≤ surplus (w.act op).1 host ∧
      (unseeded w op = true → surplus (w.act op).1 host = surplus w.db host) := by
  have of_eq : surplus (w.act op).1 host = surplus w.db host →
      surplus w.db host ≤ surplus (w.act op).1 host ∧
        (unseeded w op = true → surplus (w.act op).1 host = surplus w.db host) :=
    fun he => ⟨he.ge, fun _ => he⟩
  cases leaseEffect hw ha with
  | kept h => exact of_eq (by rw [surplus, surplus, h.counts, h.reserved])
  | wrote x r hop h =>
    subst hop
    exact of_eq (surplus_wrote hw hok h hpos host)
  | assigned x r hop h => exact surplus_assigned hw ha hop h host
  | leaseReleased s read l hop hown h =>
    have hsame : reserves (w.act op).1 = reserves w.db := by unfold reserves; rw [h.sessions]
    exact of_eq (by rw [surplus, surplus, h.hosts, hsame])
  | persisted s read hop h =>
    subst hop
    have hnext := reserves_update h.sessions
    change reserves _ = Function.update (reserves w.db) s none at hnext
    rw [← isNone_iff_eq_none.mp hok, Function.update_eq_self] at hnext
    exact of_eq (by rw [surplus, surplus, h.hosts, hnext])

end

/-! ## Whole runs -/

def countsExactly (w : World) (op : Op) : Bool := reservesExactly w op && unseeded w op

theorem surplus_init (hw : w.Fresh) (host : String) : surplus w.db host = 0 := by
  have hnone : tally (reserves w.db) ⟨host⟩ = 0 := tally_eq_zero fun s => by simp [reserves, hw.sessions]
  rw [surplus, hw.counts, hnone]
  rfl

theorem surplus_nonneg (h : (plane.restrict fun w op => reservesExactly w op = true).Reachable w)
    (host : String) : 0 ≤ surplus w.db host := by
  induction h generalizing host with
  | init hw => exact (surplus_init hw host).ge
  | step hw hs ih =>
    obtain ⟨hok, ha, rfl⟩ := hs
    exact (ih host).trans (surplus_step hw.of_restrict ha hok ih host).1

theorem surplus_eq_zero (h : (plane.restrict fun w op => countsExactly w op = true).Reachable w)
    (host : String) : surplus w.db host = 0 := by
  induction h generalizing host with
  | init hw => exact surplus_init hw host
  | step hw hs ih =>
    obtain ⟨hok, ha, rfl⟩ := hs
    rw [countsExactly, Bool.and_eq_true] at hok
    exact ((surplus_step hw.of_restrict ha hok.1 (fun x => (ih x).ge) host).2 hok.2).trans (ih host)

theorem assignmentCount_nonneg (h : plane.Reachable w) {host : String} {n : ℤ}
    (hn : assignmentCount w.db.hostLocks host = some n) : 0 ≤ n := by
  induction h generalizing host n with
  | init hw =>
    rw [hw.counts] at hn
    cases hn
  | @step w w' op hw hs ih =>
    obtain ⟨ha, rfl⟩ := hs
    change assignmentCount (w.act op).1.hostLocks host = some n at hn
    cases leaseEffect hw ha with
    | kept h => exact ih (h.counts host ▸ hn)
    | wrote x r hop h =>
      rw [h.counts host] at hn
      split at hn
      · rename_i hhost
        cases hn
        cases hc : assignmentCount w.db.hostLocks host with
        | none => simp
        | some m =>
          have hpos := h.countPos ⟨host⟩ hhost m hc
          simp only [getD_some]
          omega
      · exact ih hn
    | assigned x r hop h =>
      rw [h.counts host] at hn
      split at hn
      · cases hn
        cases hc : assignmentCount w.db.hostLocks host with
        | none =>
          simp only [getD_none]
          omega
        | some m =>
          have hpos := ih hc
          simp only [getD_some]
          omega
      · exact ih hn
    | leaseReleased s read l hop hown h | persisted s read hop h => exact ih (h.hosts ▸ hn)

theorem acquired_le_cap {x : Assigning} (h : Assigned x db db' r) {c : ℕ} (hcap : x.opts.hostAssignmentCap = some c) :
    ∃ n, assignmentCount db'.hostLocks x.opts.hostId = some n ∧ n ≤ c := by
  obtain ⟨hl, hrow, hacq⟩ := h.host
  have hlt := hacq.belowCap c hcap
  refine ⟨_, by rw [h.counts, if_pos rfl], ?_⟩
  simp only [assignmentCount, hrow, bind_some]
  omega

/-- A counter is never negative and an acquire stays within its cap; in runs of exact releases it is the number of
sessions that reserve the host. -/
theorem hostCounter {w : World} (h : plane.Reachable w) :
    (∀ host n, assignmentCount w.db.hostLocks host = some n → 0 ≤ n) ∧
    (∀ (op : Op) (x : Assigning) (c : ℕ) db', op.allowed w = true → op.assigning = some x → x.opts.hostAssignmentCap = some c →
      transact op.items w.db = .committed db' → ∃ n, assignmentCount db'.hostLocks x.opts.hostId = some n ∧ n ≤ c) ∧
    ((plane.restrict fun w op => countsExactly w op = true).Reachable w →
      ∀ host, (assignmentCount w.db.hostLocks host).getD 0 =
        {s | ∃ r, w.db.sessions s = some r ∧ r.hostAssignmentLease = some ⟨host⟩}.ncard) := by
  refine ⟨fun host n hn => assignmentCount_nonneg h hn, fun op x c db' ha hop hcap ht => ?_, fun hexact host => ?_⟩
  · obtain ⟨r, hr⟩ := assigned_of_committed ha hop ht
    exact acquired_le_cap hr hcap
  · have hzero := surplus_eq_zero hexact host
    have hset : {s | ∃ r, w.db.sessions s = some r ∧ r.hostAssignmentLease = some ⟨host⟩} =
        {s | reserves w.db s = some ⟨host⟩} := by
      ext s
      exact bind_eq_some_iff.symm
    rw [hset]
    exact sub_eq_zero.mp hzero

/-! ## Two recoveries of one session -/

def slotAssign : AssignWorkspaceOpts :=
  { sessionId := "s1", hostId := "h1", connectionId := "k1", now := 1, attemptId := "a1"
    resolvedRoute := { targetIndex := 0, commandId := "cmd", hostId := "h1", attemptId := "a1" }
    workspacePoolId := "pool", workspaceSlotId := "slot1" }

def slotAck : SessionNotes :=
  { assignmentSentAt := some 1, ackReceivedAt := some 2, assignmentConnectionId := some "k1" }

def slotSession : SessionRow :=
  { status := .queued, type := .workspace, workspacePoolId := some "pool", queueExpiresAt := 100 }

def runningSlotRow : SessionRow := slotAck.apply (slotAssign.claimed slotSession)

def timeoutCall : FinishCall := { sessionId := "s1", read := runningSlotRow, now := 5, site := .timeout }

def timedOutSlotRow : SessionRow := timeoutCall.opts.finished runningSlotRow

/-- A workspace session times out and keeps its reservation; a second session starts on the host. -/
def timedOutOps : List Op :=
  [.createPlain { sessionId := "s1", session := slotSession }, .assignWorkspace slotAssign, .write (.note "s1" slotAck),
   .write (.finish timeoutCall none),
   .createPlain { sessionId := "s2", session := { status := .queued, repositoryId := "repo", queueExpiresAt := 100 } },
   .assignWorktree {
     sessionId := "s2", hostId := "h1", connectionId := "k1", now := 6, attemptId := "a2", hostAssignmentCap := some 2
     resolvedRoute := { targetIndex := 0, commandId := "cmd", hostId := "h1", attemptId := "a2" }
     repositoryId := "repo", worktreeId := "w1" }]

/-- The late report gives the reservation back, and then the disconnect recovery does so again. -/
def twoRecoveries : List Op :=
  [.write (.releaseTimedOutHostAssignment timedOutSlotRow
     { sessionId := "s1", attemptId := "a1", hostId := "h1", hostAssignmentLease := some ⟨"h1"⟩ }), .write (.finish
     { sessionId := "s1", read := timedOutSlotRow, now := 7
       site := .disconnectSlot "slot1" ⟨"h1", "k1"⟩ "agent disconnected" } none)]

theorem hostCounter_two : ∃ w, plane.Reachable w ∧ assignmentCount w.db.hostLocks "h1" = some 2 ∧
      {s | ∃ r, w.db.sessions s = some r ∧ r.hostAssignmentLease = some ⟨"h1"⟩}.ncard = 2 := by
  obtain ⟨w, hw, hp⟩ := exists_reachable_of_run countsExactly timedOutOps
    (fun w => assignmentCount w.db.hostLocks "h1" == some 2) smallWorld_fresh (by decide)
  have hcount := (hostCounter hw.of_restrict).2.2 hw "h1"
  rw [beq_iff_eq.mp hp, getD_some] at hcount
  exact ⟨w, hw.of_restrict, beq_iff_eq.mp hp, by exact_mod_cast hcount.symm⟩

theorem counted_twice : ∃ w r, plane.Reachable w ∧ assignmentCount w.db.hostLocks "h1" = some 0 ∧
      w.db.sessions "s2" = some r ∧ r.hostAssignmentLease = some ⟨"h1"⟩ := by
  obtain ⟨w, r, hw, hr, hcount, hlease⟩ := exists_row_of_run (timedOutOps ++ twoRecoveries) (s := "s2")
    (P := fun w r => assignmentCount w.db.hostLocks "h1" = some 0 ∧ r.hostAssignmentLease = some ⟨"h1"⟩) (by decide)
  exact ⟨w, r, hw, hcount, hr, hlease⟩

end AutoHarness.Protocol

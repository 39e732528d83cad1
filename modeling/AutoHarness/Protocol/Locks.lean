import AutoHarness.Protocol.History

/-! Exclusivity of concurrency ids. The lock row of an active session is the one its create put there: requeues leave
it, terminal writers delete it with the row, and a create steals only from a holder seen terminal. -/

namespace AutoHarness.Protocol
open Foundation Store Plane Function Option Bool CreateOpts
open SessionStatus (isActive isTerminal_iff)

/-! ## Where a create call stands -/

def holderOf : CreatePc → Option String
  | .readHolder _ _ h _ => some h
  | .deleteLock _ _ h _ => some h
  | _ => none

def deletes : CreatePc → Bool
  | .deleteLock _ _ _ _ => true
  | _ => false

theorem holderOf_finishResolve (c : String) (n : ℕ) (after : AfterResolve) :
    holderOf (finishResolve c n after) = none := by
  unfold finishResolve
  split
  · rfl
  · split <;> rfl

section

variable (o : CreateOpts) (n : ℕ) (reasons : List Bool)
include o n reasons

theorem holderOf_startResolve (after : AfterResolve) : holderOf (o.startResolve n reasons after) = none := by
  unfold startResolve
  split <;> rfl

theorem holderOf_acknowledgeWinner (e : CreateError) : holderOf (o.acknowledgeWinner n reasons e) = none := by
  unfold acknowledgeWinner
  split
  · exact holderOf_startResolve o n reasons _
  · rfl

theorem holderOf_afterParentFence (e : CreateError) : holderOf (o.afterParentFence n reasons e) = none := by
  unfold afterParentFence
  split
  · rfl
  · split
    · rfl
    · exact holderOf_acknowledgeWinner o n reasons e

theorem holderOf_onConflict : holderOf (o.onConflict n reasons) = none := by
  unfold onConflict afterAdmission
  repeat' split
  all_goals first
    | rfl
    | exact holderOf_afterParentFence o n reasons _
    | exact holderOf_startResolve o n reasons _

end

variable {c h : String} {db : Db}

/-- The session the lock named, or the holder in hand, which was seen not to be active. -/
theorem holderOf_createStep {o : CreateOpts} {pc : CreatePc} (hh : holderOf (createStep o c pc db).1 = some h) :
    ((∃ y, db.concurrencyLocks c = some y ∧ y.sessionId = some h) ∧ deletes (createStep o c pc db).1 = false) ∨
      (holderOf pc = some h ∧ ∀ r, db.sessions h = some r → r.status.isActive = false) := by
  cases pc with
  | send k =>
    simp only [createStep] at hh
    split at hh
    · cases hh
    · rw [holderOf_onConflict] at hh
      cases hh
    · cases hh
  | readDrain | done => cases hh
  | readParent k reasons lockOnly after =>
    simp only [createStep] at hh
    split at hh
    · cases hh
    · split at hh
      · split at hh
        · rw [holderOf_acknowledgeWinner] at hh
          cases hh
        · rw [holderOf_startResolve] at hh
          cases hh
      · rw [holderOf_startResolve] at hh
        cases hh
  | readLock k reasons after =>
    simp only [createStep] at hh ⊢
    split at hh
    · split at hh
      · cases hh
      · rw [holderOf_finishResolve] at hh
        cases hh
    · rename_i holder hl
      cases hh
      obtain ⟨y, hy, hs⟩ := bind_eq_some_iff.mp hl
      exact .inl ⟨⟨y, hy, hs⟩, rfl⟩
  | readHolder k reasons holder after =>
    right
    simp only [createStep] at hh
    split at hh
    · rename_i r hr
      split at hh
      · cases hh
      · rename_i hact
        cases hh
        refine ⟨rfl, fun r' hr' => ?_⟩
        rw [hr] at hr'
        cases hr'
        exact eq_false_iff.mpr hact
    · rename_i hr
      cases hh
      refine ⟨rfl, fun r' hr' => ?_⟩
      rw [hr] at hr'
      cases hr'
  | deleteLock k reasons holder after =>
    simp only [createStep] at hh
    split at hh
    · cases hh
    · rw [holderOf_finishResolve] at hh
      cases hh

/-! ## The invariant -/

/-- Its holder exists, and one whose lock it is about to delete is terminal. -/
def HolderKnown (db : Db) (call : CreateCall) : Prop :=
  ∀ h, holderOf call.pc = some h → ∃ r, db.sessions h = some r ∧
    (deletes call.pc = true → r.status.isTerminal = true)

/-- The lock row of an active session's concurrency id is the one its create put. -/
structure LockInv (w : World) : Prop where
  owned : ∀ s r c, w.db.sessions s = some r → r.status.isActive = true → r.concurrencyId = some c →
    w.db.concurrencyLocks c = some { sessionId := some s }
  holderExists : ∀ c y s, w.db.concurrencyLocks c = some y → y.sessionId = some s → ∃ r, w.db.sessions s = some r
  calls : ∀ n call, w.calls n = some call → HolderKnown w.db call

variable {s : String} {r : SessionRow}

theorem Wrote.lock_kept {x : Writer} {db' : Db} (h : Wrote x db db' r)
    (hl : db.concurrencyLocks c = some { sessionId := some s }) (hx : x.sessionId ≠ s ∨ x.lock = none) :
    db'.concurrencyLocks c = some { sessionId := some s } := by
  have hlock : x.lock ≠ some c := by
    intro hc
    obtain hx | hx := hx
    · have := h.lockOwned c hc _ hl
      exact hx (some.inj this).symm
    · rw [hx] at hc
      cases hc
  -- a provider release requires the row's attempt id, and a session's lock row has none
  have hlease : x.lease.map (·.concurrencyId) ≠ some c := by
    intro hc
    obtain ⟨l, hlx, rfl⟩ := map_eq_some_iff.mp hc
    have := (LockRow.ownedBy_iff.mp (h.leaseOwned l hlx _ hl)).2
    cases this
  rw [h.locks, locksReleased_ne hlease, locksReleased_ne hlock, hl]

theorem WriteOp.lock_of_active {op : WriteOp} (hp : op.promised = true)
    (hc : op.writer.cond r = true) (ha : (op.writer.next r).status.isActive = true) : op.writer.lock = none := by
  cases op with
  | cancelQueued | expireQueued => cases ha
  | finish c cleanup =>
    have hne := (FinishCall.opts_status hp).1
    have hq : c.opts.status = .queued := by
      change c.opts.status.isActive = true at ha
      cases hst : c.opts.status <;> simp_all [isActive]
    simp [writer, FinishSessionOpts.deletedLock, hq]
  | releaseCancelled c cleanup =>
    have hst := (ReleaseCancelledOpts.condition_iff.mp hc).1
    change r.status.isActive = true at ha
    rw [hst] at ha
    cases ha
  | releaseMainCheckout read o cleanup =>
    simp only [promised, and_eq_true, bne_iff_ne] at hp
    have hq : o.status = .queued := by
      change o.status.isActive = true at ha
      cases hst : o.status <;> simp_all [isActive]
    simp [writer, ReleaseMainCheckoutOpts.deletedLock, hq]
  | _ => rfl

variable {w : World} {op : Op}

theorem lock_step (ha : op.allowed w = true) {y : LockRow}
    (hy : (w.act op).1.concurrencyLocks c = some y) (hs : y.sessionId = some s) :
    w.db.concurrencyLocks c = some y ∨ ∃ r, (w.act op).1.sessions s = some r := by
  have created : ∀ {o : CreateOpts} {lock : Option String} {db' : Db}, Created o lock w.db db' →
      db'.concurrencyLocks c = some y → w.db.concurrencyLocks c = some y ∨ ∃ r, db'.sessions s = some r := by
    intro o lock db' h h'
    rw [h.locks] at h'
    cases lock with
    | none => exact .inl h'
    | some d =>
      by_cases hd : c = d
      · subst hd
        simp only [lockCreated, update_self, some.injEq] at h'
        subst h'
        cases hs
        exact .inr ⟨_, h.row⟩
      · simp only [lockCreated, update_of_ne hd] at h'
        exact .inl h'
  cases World.effect ha with
  | quiet h => exact .inl (by rw [← h.locks]; exact hy)
  | wrote x r hop h =>
    rw [h.locks] at hy
    exact .inl (locksReleased_some (locksReleased_some hy).1).1
  | assigned x r hop h =>
    rw [h.locks] at hy
    cases hlease : x.opts.providerAccountLease with
    | none => exact .inl (by simpa [hlease] using hy)
    | some l =>
      rw [hlease] at hy
      by_cases hk : c = l.concurrencyId
      · subst hk
        simp only [locksTaken, update_self, some.injEq] at hy
        subst hy
        cases hs
        exact .inr ⟨_, by rw [h.sessions, update_self]⟩
      · simp only [locksTaken, update_of_ne hk] at hy
        exact .inl hy
  | createdPlain o hop h | created n k call hop hcall hpc h => exact created h hy
  | stolen n k call reasons holder after z hop hcall hpc hz hn h | leaseReleased x read l hop hown h =>
    rw [h.locks] at hy
    exact .inl (locksReleased_some hy).1
  | persisted x read hop hcreated h | hostLinked x k d e hop h | worktreeLinked i online k x hop hx h =>
    exact .inl (by rw [h.locks] at hy; exact hy)
  | marked key row hop h =>
    rw [h.locks] at hy
    by_cases hk : c = "catalog-delete:" ++ key
    · subst hk
      simp only [update_self, map_eq_some_iff] at hy
      obtain ⟨t, -, rfl⟩ := hy
      cases hs
    · simp only [update_of_ne hk] at hy
      exact .inl hy

theorem created_of_new (hw : plane.Reachable w) (ha : op.allowed w = true) (hnone : w.db.sessions s = none)
    (hr : (w.act op).1.sessions s = some r) : ∃ o, Created o o.session.concurrencyId w.db (w.act op).1 ∧
      o.sessionId = s := by
  have hown : ∀ {o : CreateOpts} {lock : Option String}, Created o lock w.db (w.act op).1 → o.sessionId = s := by
    intro o lock h
    by_contra hne
    obtain h₁ | ⟨y, n, hy, -⟩ := h.others s (Ne.symm hne)
    · cases hr.symm.trans (h₁.trans hnone)
    · cases hnone.symm.trans hy
  have hupdated : ∀ {t : String} {y : SessionRow} {x : Option SessionRow}, w.db.sessions t = some y →
      (w.act op).1.sessions ≠ update w.db.sessions t x := by
    intro t y x hy h
    have hne : s ≠ t := by
      rintro rfl
      cases hnone.symm.trans hy
    rw [h, update_of_ne hne, hnone] at hr
    cases hr
  cases World.effect ha with
  | createdPlain o hop h =>
    subst hop
    simp only [Op.allowed, and_eq_true, isNone_iff_eq_none] at ha
    exact ⟨o, ha.2 ▸ h, hown h⟩
  | created n k call hop hcall hpc h => exact ⟨call.opts, (calls_admissible hw hcall).2 ▸ h, hown h⟩
  | wrote x y hop h => exact absurd h.sessions (hupdated h.row)
  | assigned x y hop h => exact absurd h.sessions (hupdated h.checked.row)
  | persisted x read hop hcreated h =>
    subst hop
    simp only [Op.allowed, and_eq_true] at ha
    obtain ⟨y, hy, -⟩ := remembers hw x read ha.1.1
    exact absurd h.sessions (hupdated hy)
  | quiet h | hostLinked x k d e hop h | worktreeLinked i online k x hop hx h | marked key row hop h
  | stolen n k call reasons holder after y hop hcall hpc hy hn h | leaseReleased x y l hop hown h =>
    rw [h.sessions, hnone] at hr
    cases hr

/-- **Step lemma.** Every active session's lock row is in place after a request. -/
theorem owned_step (hw : plane.Reachable w) (hinv : LockInv w) (ha : op.allowed w = true) {r' : SessionRow}
    (hr' : (w.act op).1.sessions s = some r')
    (hact : r'.status.isActive = true) (hc : r'.concurrencyId = some c) :
    (w.act op).1.concurrencyLocks c = some { sessionId := some s } := by
  cases hrow : w.db.sessions s with
  | none =>
    obtain ⟨o, h, rfl⟩ := created_of_new hw ha hrow hr'
    obtain rfl : o.session = r' := some.inj (h.row.symm.trans hr')
    rw [h.locks, hc]
    simp [lockCreated]
  | some r =>
    -- a row that was there before was active too, so its lock was in place
    obtain ⟨r₁, h₁, hk⟩ := kept_step (remembers hw) ha hrow
    obtain rfl : r' = r₁ := some.inj (hr'.symm.trans h₁)
    have hc' : r.concurrencyId = some c := by rw [← hk.concurrencyId, hc]
    have hactive := hk.active hact
    have hin := hinv.owned s r c hrow hactive hc'
    have created : ∀ {o : CreateOpts} {lock : Option String} {db' : Db}, Created o lock w.db db' →
        db'.concurrencyLocks c = some { sessionId := some s } := by
      intro o lock db' h
      rw [h.locks]
      cases lock with
      | none => exact hin
      | some d =>
        have hd : c ≠ d := by
          rintro rfl
          rw [h.free c rfl] at hin
          cases hin
        simpa [lockCreated, hd] using hin
    cases World.effect ha with
    | quiet h | persisted x read hop hcreated h | hostLinked x k d e hop h
    | worktreeLinked i online k x hop hx h =>
      rw [h.locks]
      exact hin
    | wrote x y hop h =>
      subst hop
      refine h.lock_kept hin ?_
      by_cases hs : x.writer.sessionId = s
      · have hnext : r' = x.writer.next y := by
          rw [h.sessions, hs, update_self] at hr'
          exact (some.inj hr').symm
        rw [hnext] at hact
        exact .inr (WriteOp.lock_of_active (promised_of_allowed ha) h.cond hact)
      · exact .inl hs
    | assigned x y hop h =>
      rw [h.locks]
      cases hlease : x.opts.providerAccountLease with
      | none => simpa [hlease] using hin
      | some l =>
        have hne : c ≠ l.concurrencyId := by
          rintro rfl
          rw [h.checked.slotFree l hlease] at hin
          cases hin
        simpa [locksTaken, hne] using hin
    | createdPlain o hop h | created n k call hop hcall hpc h => exact created h
    | stolen n k call reasons holder after y hop hcall hpc hy hn h =>
      have hne : call.concurrencyId ≠ c := by
        rintro rfl
        rw [hin] at hy
        cases hy
        cases hn
        obtain ⟨r₁, h₁, ht⟩ := hinv.calls n call hcall s (by rw [hpc]; rfl)
        obtain rfl : r = r₁ := some.inj (hrow.symm.trans h₁)
        have hterminal := ht (by rw [hpc]; rfl)
        rw [isTerminal_iff, hactive] at hterminal
        cases hterminal
      rw [h.locks, locksReleased_ne (by simpa using hne)]
      exact hin
    | leaseReleased x read l hop hown h =>
      have hne : l.concurrencyId ≠ c := by
        rintro rfl
        cases (LockRow.ownedBy_iff.mp (hown _ hin)).2
      rw [h.locks, locksReleased_ne (by simpa using hne)]
      exact hin
    | marked key row hop h =>
      rw [h.locks, update_of_ne (creatable_ne_marker (creatable_of_row hw hrow hc'))]
      exact hin

theorem holderKnown_step (hw : plane.Reachable w) (hinv : LockInv w)
    (ha : op.allowed w = true) {n : ℕ} {call : CreateCall} (hc : (w.act op).2 n = some call) :
    HolderKnown (w.act op).1 call := by
  intro h hh
  have later : ∀ r, w.db.sessions h = some r → (deletes call.pc = true → r.status.isTerminal = true) →
      ∃ r', (w.act op).1.sessions h = some r' ∧ (deletes call.pc = true → r'.status.isTerminal = true) := by
    intro r hr ht
    obtain ⟨r', hr', hk⟩ := kept_step (remembers hw) ha hr
    exact ⟨r', hr', fun hd => hk.terminal (ht hd)⟩
  obtain hold | ⟨o, rfl, rfl⟩ | ⟨old, rfl, hold, rfl⟩ := calls_step hc
  · obtain ⟨r, hr, ht⟩ := hinv.calls n call hold h hh
    exact later r hr ht
  · simp only [begin] at hh
    split at hh <;> cases hh
  · obtain ⟨⟨y, hy, hn⟩, hnot⟩ | ⟨hold', hnot⟩ := holderOf_createStep hh
    · obtain ⟨r, hr⟩ := hinv.holderExists _ y h hy hn
      exact later r hr (fun hd => by rw [hnot] at hd; cases hd)
    · obtain ⟨r, hr, -⟩ := hinv.calls n old hold h hold'
      exact later r hr (fun _ => isTerminal_iff.mpr (hnot r hr))

/-- **Run lemma.** The lock invariant holds in every reachable world. -/
theorem lockInv (h : plane.Reachable w) : LockInv w := by
  refine System.Reachable.invariant ?_ ?_ h
  · intro w hw
    refine ⟨fun s r c hr => ?_, fun c y s hy => ?_, fun n call hc => ?_⟩
    · rw [hw.sessions] at hr
      cases hr
    · rw [hw.locks] at hy
      cases hy
    · rw [hw.calls] at hc
      cases hc
  · rintro w op w' hw hinv ⟨ha, rfl⟩
    refine ⟨fun s r c hr hact hc => owned_step hw hinv ha hr hact hc, fun c y s hy hs => ?_,
      fun n call hc => holderKnown_step hw hinv ha hc⟩
    obtain hold | hnew := lock_step ha hy hs
    · obtain ⟨r, hr⟩ := hinv.holderExists c y s hold hs
      obtain ⟨r', hr', -⟩ := kept_step (remembers hw) ha hr
      exact ⟨r', hr'⟩
    · exact hnew

/-! ## Exclusivity -/

/-- Session `s` has concurrency id `c` and is queued or running. -/
def ActiveWith (db : Db) (c s : String) : Prop :=
  ∃ r, db.sessions s = some r ∧ r.concurrencyId = some c ∧ r.status.isActive = true

/-- At most one session of a concurrency id is queued or running, and the lock row then names it. -/
theorem concurrencyId_exclusive {w : World} (h : plane.Reachable w) (c : String) :
    (∀ s s', ActiveWith w.db c s → ActiveWith w.db c s' → s = s') ∧
      ∀ s, ActiveWith w.db c s → ∃ y, w.db.concurrencyLocks c = some y ∧ y.sessionId = some s := by
  have hlock : ∀ s, ActiveWith w.db c s → w.db.concurrencyLocks c = some { sessionId := some s } := by
    rintro s ⟨r, hr, hc, hact⟩
    exact (lockInv h).owned s r c hr hact hc
  refine ⟨fun s s' hs hs' => ?_, fun s hs => ⟨_, hlock s hs, rfl⟩⟩
  have heq := (hlock s hs).symm.trans (hlock s' hs')
  simpa using heq

theorem concurrencyId_exclusive_race :
    ∃ w, plane.Reachable w ∧ ActiveWith w.db "c" "s1" ∧ ∀ s, ActiveWith w.db "c" s → s = "s1" := by
  let row : SessionRow := { status := .queued, repositoryId := "repo", concurrencyId := some "c" }
  obtain ⟨w, r, hw, hr, hc, hact⟩ := exists_row_of_run (s := "s1")
    [.createBegin 0 { sessionId := "s1", session := row }, .createBegin 1 { sessionId := "s2", session := row },
      .createStep 0, .createStep 1, .createStep 1, .createStep 1]
    (P := fun w r => r.concurrencyId = some "c" ∧ r.status.isActive = true) (by decide)
  have hs : ActiveWith w.db "c" "s1" := ⟨r, hr, hc, hact⟩
  exact ⟨w, hw, hs, fun s hs' => (concurrencyId_exclusive hw "c").1 s "s1" hs' hs⟩

end AutoHarness.Protocol

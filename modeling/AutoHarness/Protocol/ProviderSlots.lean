import AutoHarness.Foundation.Ownership
import AutoHarness.Protocol.Leases
import AutoHarness.Protocol.Released

/-! Provider-account slots. The lock row and the lease on the session's row agree as long as every release deletes the
lock of the lease it clears, and only that. -/

namespace AutoHarness.Protocol
open Foundation Store Plane Function Option Bool

abbrev AccountSlot := String × ℕ

def slotKey (i : AccountSlot) : String := providerAccountLeaseConcurrencyId i.1 i.2

def leaseSlot (l : ProviderAccountLease) : AccountSlot := (l.providerAccountId, l.slot)

def lockOwner (y : LockRow) : Option (String × String) := y.sessionId.bind fun s => y.attemptId.map fun a => (s, a)

def slotOwner (db : Db) (i : AccountSlot) : Option (String × String) :=
  (db.concurrencyLocks (slotKey i)).bind lockOwner

/-- The row of session `x.1` carries the lease of slot `i` for attempt `x.2`. -/
def HoldsSlot (db : Db) (x : String × String) (i : AccountSlot) : Prop :=
  ∃ l, carries db x.1 = some l ∧ leaseSlot l = i ∧ l.attemptId = x.2

variable {i j : AccountSlot}

theorem slotKey_inj (h : slotKey i = slotKey j) : i = j := by
  obtain ⟨ha, hn⟩ := accountConcurrencyId_inj h
  exact Prod.ext ha hn

variable {y : LockRow} {s a : String}

theorem lockOwner_eq_some : lockOwner y = some (s, a) ↔ y.sessionId = some s ∧ y.attemptId = some a := by
  simp [lockOwner, bind_eq_some_iff]

theorem lockOwner_of_ownedBy (h : y.ownedBy s a = true) : lockOwner y = some (s, a) :=
  lockOwner_eq_some.mpr (LockRow.ownedBy_iff.mp h)

variable {w : World} {l : ProviderAccountLease}

theorem carries_keyed (h : plane.Reachable w)
    (hl : carries w.db s = some l) : l.concurrencyId = slotKey (leaseSlot l) := by
  obtain ⟨r, hr, hlease⟩ := bind_eq_some_iff.mp hl
  exact leaseKeyed_row h s r hr l hlease

variable {db db' : Db}

theorem holdsSlot_update {v : Option ProviderAccountLease}
    (h : carries db' = update (carries db) s v) {x : String × String} : HoldsSlot db' x i ↔
      if x.1 = s then ∃ l, v = some l ∧ leaseSlot l = i ∧ l.attemptId = x.2 else HoldsSlot db x i := by
  unfold HoldsSlot
  by_cases hx : x.1 = s
  · simp [h, hx]
  · simp [h, hx]

/-! ## One step -/

def releasesExactly (w : World) : Op → Bool
  | .write x => (w.db.sessions x.sessionId).all fun r => !x.writer.cond r ||
      r.providerAccountLease.all fun l =>
        (x.writer.next r).providerAccountLease.isSome || x.writer.lease == some (leaseRef l)
  | .releaseProviderAccountLease s _ l => carries w.db s != some l
  | .putTimedOut s _ => (carries w.db s).isNone
  | _ => true

variable {x : WriteOp} {r : SessionRow}

theorem lease_of_releasesExactly (hok : releasesExactly w (.write x) = true)
    (hrow : w.db.sessions x.sessionId = some r) (hcond : x.writer.cond r = true) (hl : r.providerAccountLease = some l)
    (hnone : (x.writer.next r).providerAccountLease = none) : x.writer.lease = some (leaseRef l) := by
  simpa [releasesExactly, hrow, hcond, hl, hnone] using hok

def SlotsConsistent (db : Db) : Prop := Consistent (slotOwner db) (HoldsSlot db)

theorem lease_ext {l' : ProviderAccountLease} (hkey : l.concurrencyId = l'.concurrencyId)
    (hslot : leaseSlot l = leaseSlot l') (hatt : l.attemptId = l'.attemptId) : l = l' := by
  obtain ⟨k, p, n, a⟩ := l
  obtain ⟨k', p', n', a'⟩ := l'
  cases hkey
  cases hslot
  cases hatt
  rfl

theorem slotOwner_delete_free (howner : ∀ i, slotOwner db' i = if some j = some i then none else slotOwner db i)
    (hfree : slotOwner db j = none) (i : AccountSlot) : slotOwner db' i = slotOwner db i := by
  rw [howner]
  split
  · rename_i hi
    rw [← some.inj hi, hfree]
  · rfl

/-- A session whose row carries at most the lease of slot `j` gives that slot back. -/
theorem slotsConsistent_give (hinv : SlotsConsistent db)
    (howner : ∀ i, slotOwner db' i = if some j = some i then none else slotOwner db i)
    (hown : ∀ x, slotOwner db j = some x → x.1 = s) (hcarries : carries db' = update (carries db) s none)
    (hexact : ∀ l, carries db s = some l → leaseSlot l = j) : SlotsConsistent db' := by
  intro i x
  rw [howner, holdsSlot_update hcarries]
  by_cases hi : j = i
  · subst hi
    rw [if_pos rfl]
    split
    · simp
    · rename_i hx
      rw [← hinv j x]
      exact ⟨nofun, fun ho => absurd (hown x ho) hx⟩
  · rw [if_neg fun e => hi (some.inj e), hinv i x]
    split
    · rename_i hx
      refine ⟨?_, nofun⟩
      rintro ⟨l, hl, hslot, -⟩
      rw [hx] at hl
      exact absurd ((hexact l hl).symm.trans hslot) hi
    · exact Iff.rfl

theorem slotOwner_released
    (h : ∀ i, db'.concurrencyLocks (slotKey i) = locksReleased (some (slotKey j)) db.concurrencyLocks (slotKey i))
    (i : AccountSlot) : slotOwner db' i = if some j = some i then none else slotOwner db i := by
  rw [slotOwner, h]
  by_cases hi : j = i
  · subst hi
    rw [if_pos rfl, locksReleased_self]
    rfl
  · rw [if_neg fun e => hi (some.inj e), locksReleased_ne fun e => hi (slotKey_inj (some.inj e))]
    rfl

theorem slotLocks_wrote (hw : plane.Reachable w) (ha : Op.allowed w (.write x) = true) (h : Wrote x.writer w.db db' r) (i : AccountSlot) :
    db'.concurrencyLocks (slotKey i) =
      locksReleased (x.writer.lease.map (·.concurrencyId)) w.db.concurrencyLocks (slotKey i) := by
  have hlock : locksReleased x.writer.lock w.db.concurrencyLocks (slotKey i) = w.db.concurrencyLocks (slotKey i) :=
    locksReleased_ne fun hc => creatable_ne_account (creatable_lock hw ha hc) rfl
  rw [h.locks]
  by_cases hk : x.writer.lease.map (·.concurrencyId) = some (slotKey i)
  · rw [hk, locksReleased_self, locksReleased_self]
  · rw [locksReleased_ne hk, locksReleased_ne hk, hlock]

theorem slotsConsistent_wrote (hw : plane.Reachable w)
    (ha : Op.allowed w (.write x) = true) (hok : releasesExactly w (.write x) = true)
    (h : Wrote x.writer w.db db' r) (hinv : SlotsConsistent w.db) : SlotsConsistent db' := by
  have hrow := h.row
  have hnext := carries_update h.sessions
  rw [x.writer_sessionId] at hrow hnext
  have hcarry : carries w.db x.sessionId = r.providerAccountLease := by simp [carries, hrow]
  cases hlease : x.writer.lease with
  | none =>
    -- nothing is deleted, so nothing is cleared
    have hsame : (x.writer.next r).providerAccountLease = r.providerAccountLease := by
      obtain hnone | hsame := x.account_next r
      · cases hl : r.providerAccountLease with
        | none => exact hnone
        | some l =>
          have hdel := lease_of_releasesExactly hok hrow h.cond hl hnone
          rw [hlease] at hdel
          cases hdel
      · exact hsame
    have hcarries : carries db' = carries w.db := by
      rw [hnext, hsame, ← hcarry, update_eq_self]
    refine hinv.congr (fun i => ?_) fun y i => by unfold HoldsSlot; rw [hcarries]
    rw [slotOwner, slotLocks_wrote hw ha h i, hlease]
    rfl
  | some ref =>
    obtain ⟨account, slot, hkey⟩ := lease_keyed hw ha h.row h.cond hlease
    have hcleared := x.account_cleared (r := r) hlease
    have hlocks := fun i => slotLocks_wrote hw ha h i
    rw [hlease, map_some, hkey] at hlocks
    rw [hcleared] at hnext
    refine slotsConsistent_give (j := (account, slot)) hinv
      (slotOwner_released hlocks) (fun o ho => ?_) hnext fun l hl => ?_
    · obtain ⟨y, hy, hoy⟩ := bind_eq_some_iff.mp ho
      have hby := h.leaseOwned ref hlease y (by rw [hkey]; exact hy)
      rw [x.writer_sessionId] at hby
      rw [lockOwner_of_ownedBy hby] at hoy
      cases hoy
      rfl
    · have hdel := lease_of_releasesExactly hok hrow h.cond (hcarry.symm.trans hl) hcleared
      rw [hlease] at hdel
      cases hdel
      exact slotKey_inj ((carries_keyed hw hl).symm.trans hkey)

variable {op : Op}

theorem slotsConsistent_assigned (hw : plane.Reachable w) (ha : op.allowed w = true)
    {x : Assigning} (hop : op.assigning = some x) (h : Assigned x w.db db' r)
    (hinv : SlotsConsistent w.db) : SlotsConsistent db' := by
  have hfresh := (queued_unleased hw _ r h.checked.row h.checked.queued).1
  have hcarry : carries w.db x.opts.sessionId = none := by simp [carries, h.checked.row, hfresh]
  have hnext := carries_update h.sessions
  rw [h.launched.providerAccountLease, hfresh, or_none] at hnext
  cases hlease : x.opts.providerAccountLease with
  | none =>
    rw [hlease, ← hcarry, update_eq_self] at hnext
    refine hinv.congr (fun i => ?_) fun y i => by unfold HoldsSlot; rw [hnext]
    rw [slotOwner, h.locks, hlease]
    rfl
  | some l =>
    rw [hlease] at hnext
    have hatt := (lease_of_assigning ha hop hlease).1
    have hkey : l.concurrencyId = slotKey (leaseSlot l) := (lease_of_assigning ha hop hlease).2.2.2
    have hfree := h.checked.slotFree l hlease
    rw [hkey] at hfree
    intro i y
    rw [holdsSlot_update hnext, slotOwner, h.locks, hlease, locksTaken, hkey]
    by_cases hi : leaseSlot l = i
    · subst hi
      rw [update_self]
      change some (x.opts.sessionId, x.opts.attemptId) = some y ↔ _
      split
      · rename_i hy
        simp [Prod.ext_iff, hy, hatt]
      · rename_i hy
        refine ⟨fun e => absurd (congrArg Prod.fst (some.inj e)).symm hy, fun hold => absurd hold (hinv.not_holds ?_)⟩
        rw [slotOwner, hfree]
        rfl
    · rw [update_of_ne fun e => hi (slotKey_inj e.symm), ← slotOwner, hinv i y]
      split
      · rename_i hy
        refine ⟨?_, ?_⟩
        · rintro ⟨l', hl', -⟩
          rw [hy, hcarry] at hl'
          cases hl'
        · rintro ⟨l', hl', hslot, -⟩
          cases hl'
          exact absurd hslot hi
      · exact Iff.rfl

/-- **Step lemma.** A request that releases exactly keeps lock rows and carried leases in agreement. -/
theorem slotsConsistent_step (hw : plane.Reachable w) (ha : op.allowed w = true)
    (hok : releasesExactly w op = true) (hinv : SlotsConsistent w.db) : SlotsConsistent (w.act op).1 := by
  cases World.leaseEffect hw ha with
  | kept h =>
    refine hinv.congr (fun i => ?_) fun x i => by unfold HoldsSlot; rw [h.carried]
    rw [slotOwner, slotKey, h.locks]
    rfl
  | wrote x r hop h =>
    subst hop
    exact slotsConsistent_wrote hw ha hok h hinv
  | assigned x r hop h => exact slotsConsistent_assigned hw ha hop h hinv
  | leaseReleased s read l hop hown h =>
    subst hop
    simp only [Op.allowed, and_eq_true, beq_iff_eq] at ha
    have hkey : l.concurrencyId = slotKey (leaseSlot l) := leaseKeyed_read hw ha.1 l ha.2
    have hcarries : carries (w.act (.releaseProviderAccountLease s read l)).1 = carries w.db := by
      unfold carries
      rw [h.sessions]
    -- a lock that were still there would be owned by a row that carries this very lease
    have hfree : slotOwner w.db (leaseSlot l) = none := by
      rw [eq_none_iff_forall_ne_some]
      intro o ho
      obtain ⟨y, hy, hoy⟩ := bind_eq_some_iff.mp ho
      rw [lockOwner_of_ownedBy (hown y (by rw [hkey]; exact hy))] at hoy
      obtain ⟨l', hl', hslot, hatt⟩ := (hinv (leaseSlot l) _).mp (ho.trans hoy.symm)
      have hkey' := carries_keyed hw hl'
      rw [hslot, ← hkey] at hkey'
      exact bne_iff_ne.mp hok (lease_ext hkey' hslot hatt ▸ hl')
    have hlocks := h.locks
    rw [hkey] at hlocks
    exact hinv.congr (slotOwner_delete_free (slotOwner_released fun i => by rw [hlocks]) hfree)
      fun x i => by unfold HoldsSlot; rw [hcarries]
  | persisted s read hop h =>
    subst hop
    have hnext := carries_update h.sessions
    change carries _ = update (carries w.db) s none at hnext
    rw [← isNone_iff_eq_none.mp hok, update_eq_self] at hnext
    refine hinv.congr (fun i => ?_) fun x i => by unfold HoldsSlot; rw [hnext]
    rw [slotOwner, h.locks]
    rfl

theorem slotsConsistent (h : (plane.restrict fun w op => releasesExactly w op = true).Reachable w) : SlotsConsistent w.db := by
  induction h with
  | init hw =>
    intro i x
    simp [slotOwner, HoldsSlot, carries, hw.locks, hw.sessions]
  | step hw hs ih =>
    obtain ⟨hok, ha, rfl⟩ := hs
    exact slotsConsistent_step hw.of_restrict ha hok ih

/-! ## What holds of every step -/

def Op.releases : Op → Option (String × LeaseRef)
  | .write x => x.writer.lease.map fun ref => (x.sessionId, ref)
  | .releaseProviderAccountLease s _ l => some (s, leaseRef l)
  | _ => none

/-- Untouched, deleted on behalf of its owner, or taken while free below the account's cap. -/
theorem slotLock_step (hw : plane.Reachable w) (ha : op.allowed w = true) (i : AccountSlot) :
    (w.act op).1.concurrencyLocks (slotKey i) = w.db.concurrencyLocks (slotKey i) ∨
    ((w.act op).1.concurrencyLocks (slotKey i) = none ∧ ∃ s ref, op.releases = some (s, ref) ∧
      ref.concurrencyId = slotKey i ∧
      ∀ y, w.db.concurrencyLocks (slotKey i) = some y → y.ownedBy s ref.attemptId = true) ∨
    (w.db.concurrencyLocks (slotKey i) = none ∧ ∃ y account,
      (w.act op).1.concurrencyLocks (slotKey i) = some y ∧ (lockOwner y).isSome = true ∧
      w.db.providerAccounts i.1 = some account ∧ i.2 < account.maxConcurrent) := by
  cases World.leaseEffect hw ha with
  | kept h => exact .inl (h.locks i.1 i.2)
  | wrote x r hop h =>
    subst hop
    rw [slotLocks_wrote hw ha h i]
    by_cases hk : x.writer.lease.map (·.concurrencyId) = some (slotKey i)
    · obtain ⟨ref, hlease, hkey⟩ := map_eq_some_iff.mp hk
      refine .inr (.inl ⟨by rw [hk, locksReleased_self], x.sessionId, ref, ?_, hkey, fun y hy => ?_⟩)
      · simp [Op.releases, hlease]
      · rw [← x.writer_sessionId]
        exact h.leaseOwned ref hlease y (hkey ▸ hy)
    · exact .inl (locksReleased_ne hk)
  | assigned x r hop h =>
    rw [h.locks]
    cases hlease : x.opts.providerAccountLease with
    | none => exact .inl rfl
    | some l =>
      obtain ⟨-, hne, hacct, hkey⟩ := lease_of_assigning ha hop hlease
      by_cases hi : leaseSlot l = i
      · subst hi
        have hready := h.checked.account
        rw [hlease, hacct] at hready
        obtain ⟨account, haccount, hlt⟩ := slot_lt_of_ready hne hready
        refine .inr (.inr ⟨?_, providerAccountLeaseLock x.opts.sessionId x.opts.attemptId x.opts.hostId l,
          account, ?_, rfl, haccount, hlt⟩)
        · exact (congrArg w.db.concurrencyLocks hkey).symm.trans (h.checked.slotFree l hlease)
        · rw [locksTaken, hkey]
          exact update_self _ _ _
      · refine .inl (update_of_ne ?_ _ _)
        rw [hkey]
        exact fun e => hi (slotKey_inj (i := leaseSlot l) e.symm)
  | leaseReleased s read l hop hown h =>
    subst hop
    rw [h.locks]
    by_cases hk : l.concurrencyId = slotKey i
    · refine .inr (.inl ⟨by rw [hk, locksReleased_self], s, leaseRef l, rfl, hk, fun y hy => ?_⟩)
      exact hown y (hk ▸ hy)
    · exact .inl (locksReleased_ne fun e => hk (some.inj e))
  | persisted s read hop h => exact .inl (by rw [h.locks])

theorem slotLock_named (h : plane.Reachable w)
    (hy : w.db.concurrencyLocks (slotKey i) = some y) : ∃ s a, lockOwner y = some (s, a) := by
  induction h generalizing i y with
  | init hw =>
    rw [hw.locks] at hy
    cases hy
  | @step w w' op hw hs ih =>
    obtain ⟨ha, rfl⟩ := hs
    change (w.act op).1.concurrencyLocks (slotKey i) = some y at hy
    obtain hsame | ⟨hnone, -⟩ | ⟨-, y', account, hy', hsome, -⟩ := slotLock_step hw ha i
    · exact ih (hsame ▸ hy)
    · rw [hnone] at hy
      cases hy
    · rw [hy'] at hy
      cases hy
      obtain ⟨⟨s, a⟩, ho⟩ := isSome_iff_exists.mp hsome
      exact ⟨s, a, ho⟩

/-! ## Exclusivity -/

/-- A lock row exists exactly when the session it names carries the lease. -/
structure SlotRecordsAgree (db : Db) : Prop where
  carried : ∀ account slot y, db.concurrencyLocks (providerAccountLeaseConcurrencyId account slot) = some y →
    ∃ s r l, y.sessionId = some s ∧ db.sessions s = some r ∧ r.providerAccountLease = some l ∧
      l.providerAccountId = account ∧ l.slot = slot ∧ y.attemptId = some l.attemptId
  locked : ∀ s r l, db.sessions s = some r → r.providerAccountLease = some l →
    ∃ y, db.concurrencyLocks (providerAccountLeaseConcurrencyId l.providerAccountId l.slot) = some y ∧
      y.sessionId = some s ∧ y.attemptId = some l.attemptId

theorem slotRecordsAgree (h : (plane.restrict fun w op => releasesExactly w op = true).Reachable w) : SlotRecordsAgree w.db := by
  have hinv := slotsConsistent h
  constructor
  · intro account slot y hy
    obtain ⟨s, a, ho⟩ := slotLock_named (i := (account, slot)) h.of_restrict hy
    have hown := lockOwner_eq_some.mp ho
    have hslot : slotOwner w.db (account, slot) = some (s, a) := by
      rw [slotOwner, slotKey, hy]
      exact ho
    obtain ⟨l, hl, hls, rfl⟩ := (hinv _ _).mp hslot
    obtain ⟨r, hr, hlease⟩ := bind_eq_some_iff.mp hl
    cases hls
    exact ⟨s, r, l, hown.1, hr, hlease, rfl, rfl, hown.2⟩
  · intro s r l hr hl
    have hslot := (hinv (leaseSlot l) (s, l.attemptId)).mpr ⟨l, by simp [carries, hr, hl], rfl, rfl⟩
    obtain ⟨y, hy, ho⟩ := bind_eq_some_iff.mp hslot
    exact ⟨y, hy, lockOwner_eq_some.mp ho⟩

/-- A slot's lock row disappears only on behalf of its owner, and appears only below the cap; in runs of exact
releases locks and leases agree. -/
theorem providerSlot_exclusive {w : World} (h : plane.Reachable w) : (∀ op account slot y, op.allowed w = true →
      w.db.concurrencyLocks (providerAccountLeaseConcurrencyId account slot) = some y →
      (w.apply op).db.concurrencyLocks (providerAccountLeaseConcurrencyId account slot) ≠ some y →
      ∃ s ref, op.releases = some (s, ref) ∧ y.sessionId = some s ∧ y.attemptId = some ref.attemptId) ∧
    (∀ op account slot y, op.allowed w = true →
      w.db.concurrencyLocks (providerAccountLeaseConcurrencyId account slot) = none →
      (w.apply op).db.concurrencyLocks (providerAccountLeaseConcurrencyId account slot) = some y →
      ∃ row, w.db.providerAccounts account = some row ∧ slot < row.maxConcurrent) ∧
    ((plane.restrict fun w op => releasesExactly w op = true).Reachable w → SlotRecordsAgree w.db) := by
  refine ⟨fun op account slot y ha hy hne => ?_, fun op account slot y ha hfree hy => ?_, slotRecordsAgree⟩
  · obtain hsame | ⟨-, s, ref, hrel, -, hown⟩ | ⟨hfree, -⟩ := slotLock_step h ha (account, slot)
    · exact absurd (hsame.trans hy) hne
    · exact ⟨s, ref, hrel, LockRow.ownedBy_iff.mp (hown y hy)⟩
    · rw [slotKey, hy] at hfree
      cases hfree
  · change (w.act op).1.concurrencyLocks (slotKey (account, slot)) = some y at hy
    obtain hsame | ⟨hnone, -⟩ | ⟨-, -, row, -, -, hrow, hlt⟩ := slotLock_step h ha (account, slot)
    · rw [hsame] at hy
      exact absurd (hfree.symm.trans hy) (by simp)
    · rw [hnone] at hy
      cases hy
    · exact ⟨row, hrow, hlt⟩

theorem providerSlot_exclusive_running :
    ∃ w, plane.Reachable w ∧ carries w.db "s1" = some firstLease ∧ SlotRecordsAgree w.db := by
  obtain ⟨w, hw, hp⟩ := World.exists_reachable_of_run releasesExactly takeoverOps
    (fun w => carries w.db "s1" == some firstLease) smallWorld_fresh (by decide)
  exact ⟨w, hw.of_restrict, beq_iff_eq.mp hp, (providerSlot_exclusive hw.of_restrict).2.2 hw⟩

/-! ## A lease without its lock -/

/-- After a duplicate answer the handler deletes the provider lock on the side. -/
def followUp (r : SessionRow) : Op := .releaseProviderAccountLease "s1" r firstLease

/-- The terminal write was answered as a duplicate, and the lock then deleted on the side. -/
theorem lease_without_lock : ∃ w r, plane.Reachable w ∧ w.db.sessions "s1" = some r ∧
      (finishSession (lateFinish r).opts w.db (some r) w.db).1.toOption = some .duplicate ∧
      plane.Reachable (w.apply (followUp r)) ∧ ¬ SlotRecordsAgree (w.apply (followUp r)).db := by
  obtain ⟨w, r, hw, hr, hdup, ha, hcarries, hlock⟩ := exists_row_of_run takeoverOps (P := fun w r =>
    (finishSession (lateFinish r).opts w.db (some r) w.db).1.toOption = some .duplicate ∧
      (followUp r).allowed w = true ∧ carries (w.apply (followUp r)).db "s1" = some firstLease ∧
      (w.apply (followUp r)).db.concurrencyLocks firstLease.concurrencyId = none) (s := "s1") (by decide)
  refine ⟨w, r, hw, hr, hdup, .step hw ⟨ha, rfl⟩, fun hagree => ?_⟩
  obtain ⟨r', hr', hl'⟩ := bind_eq_some_iff.mp hcarries
  obtain ⟨y, hy, -⟩ := hagree.locked "s1" r' firstLease hr' hl'
  exact absurd (hlock.symm.trans hy) (by simp)

end AutoHarness.Protocol

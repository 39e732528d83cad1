import AutoHarness.Plane.AckDeadline
import AutoHarness.Protocol.World

/-! Reclaiming assignments nobody acknowledged. A turn writes the row of its own session and otherwise only frees
worktrees and main checkouts, so each session is decided by its own turn. -/

namespace AutoHarness.Protocol
open Foundation Store Plane Function Option ControlPlaneState ReleaseMainCheckoutOpts HostLockRow

/-! ## What a session holds -/

/-- What a running session occupies: a worktree, a main checkout on a host, or a workspace slot. -/
inductive Held where
  | worktree (id : String)
  | mainCheckout (hostId : String)
  | workspaceSlot (id : String)

/-- The row claims exactly this. -/
def Occupies (r : SessionRow) : Held → Prop
  | .worktree w => r.worktreeId = .value w ∧ w ≠ "" ∧ r.mainCheckoutLease = false ∧
      given r.workspaceSlotId.toOption = none
  | .mainCheckout h => r.worktreeId.toOption = none ∧ r.mainCheckoutLease = true ∧ r.hostId = .value h ∧ h ≠ "" ∧
      given r.workspaceSlotId.toOption = none
  | .workspaceSlot i => r.worktreeId.toOption = none ∧ r.mainCheckoutLease = false ∧ r.workspaceSlotId = .value i

instance (r : SessionRow) (k : Held) : Decidable (Occupies r k) := by
  cases k <;> exact instDecidableAnd

/-- Who is on what, in the store or in the caches. -/
structure Occupancy where
  worktrees : String → Option WorktreeRow
  workspaceSlots : String → Option WorkspaceSlotRow
  mainCheckouts : String → String → Option MainCheckoutLease

def storeOccupancy (db : Db) : Occupancy where
  worktrees := db.worktrees
  workspaceSlots := db.workspaceSlots
  mainCheckouts h repo := (db.hostLocks h).bind fun x => x.mainCheckoutLeases repo

def cacheOccupancy (st : ControlPlaneState) : Occupancy where
  worktrees := st.worktrees
  workspaceSlots := st.workspaceSlots
  mainCheckouts h repo := st.mainCheckoutLeases (h, repo)

namespace Occupancy

/-- What session `s` held is free for others; a main checkout is looked up under `repo`. -/
def Free (o : Occupancy) (s repo : String) : Held → Prop
  | .worktree w => ∀ x, o.worktrees w = some x → x.status = .idle ∧ x.currentSessionId = .null
  | .mainCheckout h => ∀ l, o.mainCheckouts h repo = some l → l.sessionId ≠ s
  | .workspaceSlot i => ∀ x, o.workspaceSlots i = some x → x.status = .idle ∧ x.currentSessionId = .null

/-- Worktrees are freed or left alone, a main checkout is given back only by its owner, slots are left alone. -/
structure Frees (t : String) (o o' : Occupancy) : Prop where
  worktrees : ∀ w x, o'.worktrees w = some x →
    o.worktrees w = some x ∨ (x.status = .idle ∧ x.currentSessionId = .null)
  workspaceSlots : o'.workspaceSlots = o.workspaceSlots
  mainCheckouts : ∀ h repo, o'.mainCheckouts h repo = o.mainCheckouts h repo ∨
    (o'.mainCheckouts h repo = none ∧ ∀ l, o.mainCheckouts h repo = some l → l.sessionId = t)

variable {o o' : Occupancy} {s t repo host : String}

theorem Frees.refl (t : String) (o : Occupancy) : o.Frees t o := ⟨fun _ _ h => .inl h, rfl, fun _ _ => .inl rfl⟩

theorem Frees.free (h : o.Frees t o') {k : Held} (hf : o.Free s repo k) : o'.Free s repo k := by
  cases k with
  | worktree w =>
    intro x hx
    obtain hx | hx := h.worktrees w x hx
    · exact hf x hx
    · exact hx
  | mainCheckout host =>
    intro l hl
    obtain he | ⟨hn, -⟩ := h.mainCheckouts host repo
    · rw [he] at hl
      exact hf l hl
    · rw [hn] at hl
      cases hl
  | workspaceSlot i =>
    intro x hx
    rw [h.workspaceSlots] at hx
    exact hf x hx

theorem Frees.mainCheckout_iff (h : o.Frees t o') (hne : t ≠ s) {l : MainCheckoutLease}
    (hl : l.sessionId = s) : o'.mainCheckouts host repo = some l ↔ o.mainCheckouts host repo = some l := by
  obtain he | ⟨hn, hown⟩ := h.mainCheckouts host repo
  · rw [he]
  · rw [hn]
    refine iff_of_false (by simp) fun hl' => hne ?_
    rw [← hown l hl', hl]

end Occupancy

/-- The session is queued, and what it held is free. -/
def Reclaimed (sessions : String → Option SessionRow) (o : Occupancy) (s repo : String) (k : Held) : Prop :=
  (∃ r, sessions s = some r ∧ r.status = .queued ∧ r.hostId = .null) ∧ o.Free s repo k

theorem not_reclaimed_of_running {sessions : String → Option SessionRow} {o : Occupancy} {s repo : String} {k : Held}
    {r : SessionRow} (hrow : sessions s = some r) (hr : r.status = .running) : ¬ Reclaimed sessions o s repo k := by
  rintro ⟨⟨r', hr', hq, -⟩, -⟩
  rw [hrow] at hr'
  cases hr'
  rw [hr] at hq
  cases hq

section

variable {f : WorktreeRow → WorktreeRow} {t : String → Option WorktreeRow} {v w : String} {y : WorktreeRow}
  (hf : ∀ y, (f y).status = .idle ∧ (f y).currentSessionId = .null)
include hf

theorem freed_idle (h : update t w ((t w).map f) w = some y) : y.status = .idle ∧ y.currentSessionId = .null := by
  rw [update_self, map_eq_some_iff] at h
  obtain ⟨y, -, rfl⟩ := h
  exact hf y

theorem released_idle (h : update t w ((t w).map f) v = some y) :
    t v = some y ∨ (y.status = .idle ∧ y.currentSessionId = .null) := by
  by_cases hv : v = w
  · subst hv
    exact .inr (freed_idle hf h)
  · exact .inl ((update_of_ne hv ..).symm.trans h)

end

/-! ## Pending acknowledgements -/

section Pending

variable {p : PendingAck} {r : SessionRow} {w : String}

theorem matchesSession_iff : p.matchesSession r = true ↔
    r.ackReceivedAt = none ∧ r.worktreeId = Attr.ofOption p.worktreeId ∧ r.attemptId = some p.attemptId := by
  simp [PendingAck.matchesSession, and_assoc]

theorem given_worktree_of_matches (hm : p.matchesSession r = true) (h : r.worktreeId = .value w) (hw : w ≠ "") :
    given p.worktreeId = some w := by
  have he := (matchesSession_iff.mp hm).2.1
  rw [h, eq_comm, ← Attr.toOption_eq_some, Attr.toOption_ofOption] at he
  exact given_eq_some.mpr ⟨he, hw⟩

theorem given_none_of_matches (hm : p.matchesSession r = true) (h : r.worktreeId.toOption = none) :
    given p.worktreeId = none := by
  rw [(matchesSession_iff.mp hm).2.1, Attr.toOption_ofOption] at h
  rw [h, given_none]

theorem cached_current {o : Option SessionRow} (ho : o = some r) (hm : p.matchesSession r = true) :
    o.filter p.matchesSession = some r := by
  rw [ho, filter_some_pos hm]

theorem cached_stale {o : Option SessionRow} (ho : o = some r) (hm : ¬ p.matchesSession r = true) :
    o.filter p.matchesSession = none := by
  rw [ho, filter_some_neg (Bool.not_eq_true _ ▸ hm)]

end Pending

/-! ## In memory -/

section Memory

variable {st : ControlPlaneState} {x : ControlPlaneState × List String} {now : Timestamp} {s t repo : String}
  {p : PendingAck} {r r' : SessionRow} {k : Held}

theorem frees_releaseWorktree (w : String) : (cacheOccupancy st).Frees t (cacheOccupancy (st.releaseWorktree w)) :=
  ⟨fun _ _ hy => released_idle (fun _ => ⟨rfl, rfl⟩) hy, rfl, fun _ _ => .inl rfl⟩

theorem holdsScheduled_eq_some {key : String × String} : st.holdsScheduledLeaseLocal s r = some key ↔
      given r.hostId.toOption = some key.1 ∧ r.repositoryId = key.2 ∧ r.mainCheckoutLease = true ∧
      ∃ l, st.mainCheckoutLeases key = some l ∧ l.sessionId = s ∧
        given r.assignmentConnectionId = some l.connectionId := by
  obtain ⟨h, repo⟩ := key
  simp only [holdsScheduledLeaseLocal, bind_eq_some_iff, ite_none_right_eq_some,
    Bool.and_eq_true, any_eq_true, beq_iff_eq, some.injEq, Prod.mk.injEq]
  constructor
  · rintro ⟨h, hh, ⟨⟨hk, hm⟩, l, hl, hs, hc⟩, rfl, rfl⟩
    obtain ⟨c, hc'⟩ := isSome_iff_exists.mp hk
    refine ⟨hh, rfl, hm, l, hl, hs, ?_⟩
    have := (given_eq_some.mp hc').1
    rw [← hc] at this
    cases this
    exact hc'
  · rintro ⟨hh, rfl, hm, l, hl, hs, hc⟩
    exact ⟨h, hh, ⟨⟨by rw [hc]; rfl, hm⟩, l, hl, hs, (given_eq_some.mp hc).1.symm⟩, rfl, rfl⟩

theorem frees_releaseScheduled (st : ControlPlaneState) (t : String) (r : SessionRow) :
    (cacheOccupancy st).Frees t (cacheOccupancy (st.releaseScheduledLeaseLocal t r)) := by
  unfold releaseScheduledLeaseLocal
  split
  · rename_i key hkey
    obtain ⟨-, -, -, l, hl, hs, -⟩ := holdsScheduled_eq_some.mp hkey
    refine ⟨fun _ _ h => .inl h, rfl, fun h repo => ?_⟩
    by_cases he : (h, repo) = key
    · subst he
      refine .inr ⟨update_self .., fun l' hl' => ?_⟩
      simp only [cacheOccupancy] at hl'
      rw [hl] at hl'
      cases hl'
      exact hs
    · exact .inl (update_of_ne he ..)
  · exact .refl t _

@[simp] theorem cacheOccupancy_setSession : cacheOccupancy (st.setSession s r) = cacheOccupancy st := rfl
@[simp] theorem cacheOccupancy_forget : cacheOccupancy (st.forget s) = cacheOccupancy st := rfl

@[simp] theorem cacheOccupancy_releaseAccount :
    cacheOccupancy (st.releaseProviderAccountLeaseLocal s r) = cacheOccupancy st := by
  unfold releaseProviderAccountLeaseLocal
  split
  · split <;> rfl
  · rfl

def KeepsSessions (st st' : ControlPlaneState) : Prop :=
  st'.sessions = st.sessions ∧ st'.ackDeadlineMs = st.ackDeadlineMs

theorem keeps_releaseScheduled (st : ControlPlaneState) (s : String) (r : SessionRow) :
    KeepsSessions st (st.releaseScheduledLeaseLocal s r) := by
  unfold releaseScheduledLeaseLocal
  split <;> exact ⟨rfl, rfl⟩

theorem keeps_releaseAccount (st : ControlPlaneState) (s : String) (r : SessionRow) :
    KeepsSessions st (st.releaseProviderAccountLeaseLocal s r) := by
  unfold releaseProviderAccountLeaseLocal
  split
  · split <;> exact ⟨rfl, rfl⟩
  · exact ⟨rfl, rfl⟩

/-- The turn of session `t`: it writes no other session, and frees at most what is its own to free. -/
structure CacheTurn (t : String) (st st' : ControlPlaneState) : Prop where
  sessions : ∀ s, s ≠ t → st'.sessions s = st.sessions s
  deadline : st'.ackDeadlineMs = st.ackDeadlineMs
  frees : (cacheOccupancy st).Frees t (cacheOccupancy st')

variable {st' : ControlPlaneState}

theorem CacheTurn.of_release (hk : KeepsSessions st st') (hf : (cacheOccupancy st).Frees t (cacheOccupancy st')) :
    CacheTurn t st (((st'.releaseProviderAccountLeaseLocal t r).setSession t r').forget t) := by
  have hk' := keeps_releaseAccount st' t r
  refine ⟨fun s hs => ?_, hk'.2.trans hk.2, by simpa using hf⟩
  rw [← hk.1, ← hk'.1]
  exact update_of_ne hs ..

theorem ackTurn_turn (x : ControlPlaneState × List String) (e : String × PendingAck) :
    CacheTurn e.1 x.1 (ackTurn now x e).1 := by
  obtain ⟨st, requeued⟩ := x
  obtain ⟨t, p⟩ := e
  simp only [ackTurn]
  split
  · exact ⟨fun _ _ => rfl, rfl, .refl t _⟩
  · split
    · exact ⟨fun _ _ => rfl, rfl, .refl t _⟩
    · split
      · exact .of_release ⟨rfl, rfl⟩ (frees_releaseWorktree _)
      · exact .of_release (keeps_releaseScheduled ..) (frees_releaseScheduled ..)

/-- What the turns of other sessions keep of session `s`. -/
structure Undisturbed (s : String) (st st' : ControlPlaneState) : Prop where
  session : st'.sessions s = st.sessions s
  deadline : st'.ackDeadlineMs = st.ackDeadlineMs
  workspaceSlots : st'.workspaceSlots = st.workspaceSlots
  mainCheckouts : ∀ h repo l, l.sessionId = s →
    (st'.mainCheckoutLeases (h, repo) = some l ↔ st.mainCheckoutLeases (h, repo) = some l)
  free : ∀ repo k, (cacheOccupancy st).Free s repo k → (cacheOccupancy st').Free s repo k

theorem Undisturbed.turn {st₀ st st' : ControlPlaneState} (h : Undisturbed s st₀ st) (ht : CacheTurn t st st')
    (hne : t ≠ s) : Undisturbed s st₀ st' where
  session := (ht.sessions s hne.symm).trans h.session
  deadline := ht.deadline.trans h.deadline
  workspaceSlots := ht.frees.workspaceSlots.trans h.workspaceSlots
  mainCheckouts host repo l hl := (ht.frees.mainCheckout_iff hne hl).trans (h.mainCheckouts host repo l hl)
  free repo k hf := ht.frees.free (h.free repo k hf)

theorem undisturbed_foldl (now : Timestamp) {l : List (String × PendingAck)} (hl : ∀ e ∈ l, e.1 ≠ s) (x : ControlPlaneState × List String) :
    Undisturbed s x.1 (l.foldl (ackTurn now) x).1 :=
  OrderedMap.foldl_keeps (P := fun y => Undisturbed s x.1 y.1) hl
    (fun y e he hy => hy.turn (ackTurn_turn y e) he)
    ⟨rfl, rfl, rfl, fun _ _ _ _ => Iff.rfl, fun _ _ hf => hf⟩

/-- Always for a worktree, for a main checkout under the session's connection, never for a taken slot. -/
def LocallyReleasable (st : ControlPlaneState) (s : String) (r : SessionRow) : Held → Prop
  | .worktree _ => True
  | .mainCheckout h => ∀ l, st.mainCheckoutLeases (h, r.repositoryId) = some l → l.sessionId = s →
      given r.assignmentConnectionId = some l.connectionId
  | .workspaceSlot i => ∀ x, st.workspaceSlots i = some x → x.status = .idle ∧ x.currentSessionId = .null

theorem Undisturbed.locallyReleasable_iff (h : Undisturbed s st st') :
    LocallyReleasable st' s r k ↔ LocallyReleasable st s r k := by
  cases k with
  | worktree w => exact Iff.rfl
  | mainCheckout host =>
    refine ⟨fun hl l hlease hs => hl l ?_ hs, fun hl l hlease hs => hl l ?_ hs⟩
    · exact (h.mainCheckouts host r.repositoryId l hs).mpr hlease
    · exact (h.mainCheckouts host r.repositoryId l hs).mp hlease
  | workspaceSlot i => simp only [LocallyReleasable, h.workspaceSlots]

theorem Undisturbed.free_iff (h : Undisturbed s st st')
    (hw : ∀ w, k = .worktree w → (cacheOccupancy st).Free s repo k) :
    (cacheOccupancy st').Free s repo k ↔ (cacheOccupancy st).Free s repo k := by
  refine ⟨fun hf => ?_, h.free repo k⟩
  cases k with
  | worktree w => exact hw w rfl
  | mainCheckout host => exact fun l hl hs => hf l ((h.mainCheckouts host repo l hs).mpr hl) hs
  | workspaceSlot i =>
    intro x hx
    exact hf x (by simpa only [cacheOccupancy, h.workspaceSlots] using hx)

theorem free_releaseScheduled (hk : Occupies r k) (hw : ∀ w, k ≠ .worktree w) :
    (cacheOccupancy (st.releaseScheduledLeaseLocal s r)).Free s r.repositoryId k ↔ LocallyReleasable st s r k := by
  cases k with
  | worktree w => exact absurd rfl (hw w)
  | workspaceSlot i =>
    have hslots := (frees_releaseScheduled st s r).workspaceSlots
    simp only [Occupancy.Free, hslots]
    rfl
  | mainCheckout host =>
    obtain ⟨-, hm, hhost, hne, -⟩ := hk
    have hg : given r.hostId.toOption = some host := by
      rw [hhost]
      exact given_of_ne hne
    unfold releaseScheduledLeaseLocal
    split
    · rename_i key hkey
      obtain ⟨hh, hrepo, -, l, hl, hs, hc⟩ := holdsScheduled_eq_some.mp hkey
      obtain ⟨h', repo'⟩ := key
      rw [hg] at hh
      cases hh
      cases hrepo
      refine iff_of_true (fun l' hl' => ?_) fun l' hl' _ => ?_
      · simp only [cacheOccupancy, update_self] at hl'
        cases hl'
      · rw [hl] at hl'
        cases hl'
        exact hc
    · rename_i hnone
      refine ⟨fun hf l hl hs => absurd hs (hf l hl), fun hr l hl hs => ?_⟩
      have hsome := holdsScheduled_eq_some.mpr ⟨hg, rfl, hm, l, hl, hs, hr l hl hs⟩
      rw [hnone] at hsome
      cases hsome

theorem ackTurn_own (hrow : x.1.sessions s = some r) (hdue : p.due x.1.ackDeadlineMs now = true)
    (hm : p.matchesSession r = true) (hk : Occupies r k) :
    (∃ r', (ackTurn now x (s, p)).1.sessions s = some r' ∧ r'.status = .queued ∧ r'.hostId = .null) ∧
      ((cacheOccupancy (ackTurn now x (s, p)).1).Free s r.repositoryId k ↔ LocallyReleasable x.1 s r k) := by
  obtain ⟨st, requeued⟩ := x
  simp only [ackTurn, hdue, cached_current hrow hm, Bool.not_true, Bool.false_eq_true, if_false]
  cases k with
  | worktree w =>
    rw [given_worktree_of_matches hm hk.1 hk.2.1]
    refine ⟨⟨_, update_self .., rfl, rfl⟩, iff_of_true (fun y hy => ?_) trivial⟩
    simp only [cacheOccupancy_forget, cacheOccupancy_setSession, cacheOccupancy_releaseAccount] at hy
    exact freed_idle (fun _ => ⟨rfl, rfl⟩) hy
  | mainCheckout | workspaceSlot =>
    rw [given_none_of_matches hm hk.1]
    exact ⟨⟨_, update_self .., rfl, rfl⟩, by simpa using free_releaseScheduled hk (by simp)⟩

/-- The in-memory pass reclaims a due session exactly when its record is current and its claim can be
freed locally. -/
theorem enforceAckDeadlines_reclaims {before after : List (String × PendingAck)}
    (hp : st.pendingAcks.entries = before ++ (s, p) :: after) (hdue : p.due st.ackDeadlineMs now = true)
    (hrow : st.sessions s = some r) (hrun : r.status = .running) (hk : Occupies r k) :
    Reclaimed (enforceAckDeadlines st now).1.sessions (cacheOccupancy (enforceAckDeadlines st now).1) s
        r.repositoryId k ↔ p.matchesSession r = true ∧ LocallyReleasable st s r k := by
  obtain ⟨hbefore, hafter⟩ := st.pendingAcks.split_fst_ne hp
  have hb := undisturbed_foldl now hbefore (st, [])
  rw [enforceAckDeadlines, OrderedMap.foldl_split _ hp]
  generalize before.foldl (ackTurn now) (st, []) = x at hb
  have ha := undisturbed_foldl now hafter (ackTurn now x (s, p))
  generalize after.foldl (ackTurn now) (ackTurn now x (s, p)) = y at ha
  have hrow' : x.1.sessions s = some r := hb.session.trans hrow
  have hdue' : p.due x.1.ackDeadlineMs now = true := by rw [hb.deadline]; exact hdue
  by_cases hm : p.matchesSession r = true
  · obtain ⟨hq, hf⟩ := ackTurn_own hrow' hdue' hm hk
    have hfree : (cacheOccupancy y.1).Free s r.repositoryId k ↔ _ := ha.free_iff fun w hw => by
      subst hw
      exact hf.mpr trivial
    rw [Reclaimed, ha.session, hfree, hf, hb.locallyReleasable_iff]
    exact ⟨fun h => ⟨hm, h.2⟩, fun h => ⟨hq, h.2⟩⟩
  · refine iff_of_false (not_reclaimed_of_running (ha.session.trans ?_) hrun) fun h => hm h.1
    simp only [ackTurn, hdue', cached_stale hrow' hm, Bool.not_true, Bool.false_eq_true, if_false]
    exact hrow'

end Memory

/-! ## Over the durable store -/

section Durable

variable {x : AckPass} {db db' : Db} {now : Timestamp} {s t repo w h c : String} {p : PendingAck} {r : SessionRow}
  {k : Held}

theorem ackRequeue_nodup : (targets (tryRequeueSessionItems (ackRequeueOpts s p r w))).Nodup := by
  rw [tryRequeueSession_nodup]
  intro h hh
  cases hh

theorem ackRelease_nodup : (targets (releaseMainCheckoutSessionItems (ackReleaseOpts s p r h c) none)).Nodup := by
  unfold releaseMainCheckoutSessionItems mainCheckoutHostItem
  cases hl : r.providerAccountLease <;>
    simp [ackReleaseOpts, retains, deletedLock, deletedLease, concurrencyLockDeleteItems, targets_accountDelete,
      targets_drainDelete, hl]

theorem ackRelease_eq : releaseMainCheckoutSession (ackReleaseOpts s p r h c) db db =
    commitOrFalse (releaseMainCheckoutSessionItems (ackReleaseOpts s p r h c) none) db := by
  unfold releaseMainCheckoutSession commitOrFalse
  have hcleanup : (ackReleaseOpts s p r h c).cleanup db = none := rfl
  dsimp only
  rw [hcleanup]
  cases transact (releaseMainCheckoutSessionItems (ackReleaseOpts s p r h c) none) db <;> simp

theorem ackWrite_cases (s : String) (p : PendingAck) (r : SessionRow) (db : Db) : (∃ w, given p.worktreeId = some w ∧
      ackWrite s p r db = commitOrFalse (tryRequeueSessionItems (ackRequeueOpts s p r w)) db) ∨
    (given p.worktreeId = none ∧ ∃ h c, given r.hostId.toOption = some h ∧ given r.assignmentConnectionId = some c ∧
      ackWrite s p r db = commitOrFalse (releaseMainCheckoutSessionItems (ackReleaseOpts s p r h c) none) db) ∨
    (given p.worktreeId = none ∧ (given r.hostId.toOption = none ∨ given r.assignmentConnectionId = none) ∧
      ackWrite s p r db = (.ok false, db)) := by
  unfold ackWrite
  cases given p.worktreeId with
  | some w => exact .inl ⟨w, rfl, rfl⟩
  | none =>
    cases given r.hostId.toOption with
    | none => exact .inr (.inr ⟨rfl, .inl rfl, rfl⟩)
    | some h =>
      cases given r.assignmentConnectionId with
      | none => exact .inr (.inr ⟨rfl, .inr rfl, rfl⟩)
      | some c => exact .inr (.inl ⟨rfl, h, c, rfl, rfl, ackRelease_eq⟩)

theorem ackWrite_ok (s : String) (p : PendingAck) (r : SessionRow) (db : Db) :
    (∃ db', ackWrite s p r db = (.ok true, db')) ∨ ackWrite s p r db = (.ok false, db) := by
  obtain ⟨w, -, he⟩ | ⟨-, h, c, -, -, he⟩ | ⟨-, -, he⟩ := ackWrite_cases s p r db
  · rw [he]
    obtain ⟨-, hc⟩ | ⟨-, hc⟩ := commitOrFalse_of_nodup (ackRequeue_nodup (s := s) (p := p) (r := r) (w := w)) db
    · exact .inl ⟨_, hc⟩
    · exact .inr hc
  · rw [he]
    obtain ⟨-, hc⟩ | ⟨-, hc⟩ :=
      commitOrFalse_of_nodup (ackRelease_nodup (s := s) (p := p) (r := r) (h := h) (c := c)) db
    · exact .inl ⟨_, hc⟩
    · exact .inr hc
  · exact .inr he

theorem checkouts_released {lease : Option HostAssignmentLease} (t : String → Option HostLockRow)
    (h repo : String) : ((hostLocksReleased lease t h).bind fun x => x.mainCheckoutLeases repo) =
      (t h).bind fun x => x.mainCheckoutLeases repo := by
  cases lease with
  | none => rfl
  | some l =>
    by_cases hl : h = l.hostId
    · subst hl
      cases ht : t l.hostId <;> simp [hostLocksReleased, HostLockRow.released, ht]
    · simp [hostLocksReleased, update_of_ne hl]

/-- What a committed turn leaves: the session waits in the queue, what it held is free, and the rest is
undisturbed. -/
structure Settles (s : String) (p : PendingAck) (r : SessionRow) (db db' : Db) : Prop where
  queued : ∃ r', db'.sessions = Function.update db.sessions s (some r') ∧ r'.status = .queued ∧ r'.hostId = .null
  frees : (storeOccupancy db).Frees s (storeOccupancy db')
  worktree : ∀ w, given p.worktreeId = some w → (storeOccupancy db').Free s r.repositoryId (.worktree w)
  mainCheckout : given p.worktreeId = none → ∀ h, given r.hostId.toOption = some h →
    (storeOccupancy db').Free s r.repositoryId (.mainCheckout h)

theorem settles_requeue (hw : given p.worktreeId = some w)
    (ht : transact (tryRequeueSessionItems (ackRequeueOpts s p r w)) db = .committed db') : Settles s p r db db' := by
  obtain ⟨row, -, -, -, rfl⟩ := requeueSession_committed ht
  refine ⟨⟨_, rfl, rfl, rfl⟩, ⟨fun v y hy => ?_, rfl, fun h repo => .inl ?_⟩, fun v hv y hy => ?_, fun hn => ?_⟩
  · exact released_idle (fun _ => ⟨rfl, rfl⟩) hy
  · exact checkouts_released db.hostLocks h repo
  · rw [hw] at hv
    cases hv
    exact freed_idle (fun _ => ⟨rfl, rfl⟩) hy
  · rw [hw] at hn
    cases hn

theorem settles_release (hw : given p.worktreeId = none) (hh : given r.hostId.toOption = some h)
    (ht : transact (releaseMainCheckoutSessionItems (ackReleaseOpts s p r h c) none) db = .committed db') :
    Settles s p r db db' := by
  obtain ⟨row, hl, -, -, hhost, hrel, -, -, rfl⟩ := releaseCheckout_committed ht
  obtain ⟨hlease, -⟩ := checkoutReleasable_iff.mp hrel
  have hafter := checkouts_mainCheckoutReleased false r.repositoryId r.hostAssignmentLease hhost
  refine ⟨⟨_, rfl, rfl, rfl⟩, ⟨fun v y hy => .inl hy, rfl, fun h' repo => ?_⟩, fun v hv => ?_, fun _ h' hh' l hl' => ?_⟩
  · by_cases he : some (h, r.repositoryId) = some (h', repo)
    · refine .inr ⟨(hafter h' repo).trans (if_pos he), fun l hl' => ?_⟩
      cases he
      simp only [storeOccupancy, show db.hostLocks h = some hl from hhost, bind_some] at hl'
      cases hlease.symm.trans hl'
      rfl
    · exact .inl ((hafter h' repo).trans (if_neg he))
  · rw [hw] at hv
    cases hv
  · rw [hh] at hh'
    cases hh'
    cases ((hafter h r.repositoryId).trans (if_pos rfl)).symm.trans hl'

theorem ackWrite_settles (ht : ackWrite s p r db = (.ok true, db')) : Settles s p r db db' := by
  obtain ⟨w, hw, he⟩ | ⟨hw, h, c, hh, -, he⟩ | ⟨-, -, he⟩ := ackWrite_cases s p r db
  · exact settles_requeue hw (commitOrFalse_true.mp (he.symm.trans ht))
  · exact settles_release hw hh (commitOrFalse_true.mp (he.symm.trans ht))
  · rw [he] at ht
    cases ht

/-- The turn of session `t` over the store and the caches. -/
structure StoreTurn (t : String) (x x' : AckPass) : Prop where
  row : ∀ s, s ≠ t → x'.db.sessions s = x.db.sessions s
  cached : ∀ s, s ≠ t → x'.state.sessions s = x.state.sessions s
  deadline : x'.state.ackDeadlineMs = x.state.ackDeadlineMs
  error : x.error = none → x'.error = none
  frees : (storeOccupancy x.db).Frees t (storeOccupancy x'.db)

theorem ackReleaseLock_eq (s : String) (r : SessionRow) (db : Db) :
    ∃ locks, ackReleaseLock s r db = { db with concurrencyLocks := locks } := by
  unfold ackReleaseLock
  split
  · rename_i l _
    cases ht : transact (releaseProviderAccountLeaseItems l.concurrencyId s l.attemptId) db with
    | committed db' =>
      obtain ⟨-, rfl⟩ := releaseAccount_committed ht
      exact ⟨_, rfl⟩
    | cancelled | rejected => exact ⟨db.concurrencyLocks, rfl⟩
  · exact ⟨db.concurrencyLocks, rfl⟩

theorem ackSettled_keeps (st : ControlPlaneState) (t : String) (p : PendingAck) (r : SessionRow) :
    (∀ s, s ≠ t → (ackSettled st t p r).sessions s = st.sessions s) ∧
      (ackSettled st t p r).ackDeadlineMs = st.ackDeadlineMs := by
  have hk := keeps_releaseAccount st t r
  unfold ackSettled
  split
  · exact ⟨fun s hne => (update_of_ne hne ..).trans (congrFun hk.1 s), hk.2⟩
  · have hk' := keeps_releaseScheduled
      ((st.releaseProviderAccountLeaseLocal t r).setSession t
        (queueReconnectSession (withoutLeases r) ACK_DEADLINE_REASON)) t (withoutLeases r)
    exact ⟨fun s hne => (congrFun hk'.1 s).trans ((update_of_ne hne ..).trans (congrFun hk.1 s)), hk'.2.trans hk.2⟩

theorem ackTurnDurable_turn (now : Timestamp) (x : AckPass) (e : String × PendingAck) :
    StoreTurn e.1 x (ackTurnDurable now x e) := by
  obtain ⟨t, p⟩ := e
  simp only [ackTurnDurable]
  split
  · exact ⟨fun _ _ => rfl, fun _ _ => rfl, rfl, id, .refl t _⟩
  · split
    · exact ⟨fun _ _ => rfl, fun _ _ => rfl, rfl, id, .refl t _⟩
    · rename_i session _
      obtain ⟨db', ht⟩ | hf := ackWrite_ok t p session x.db
      · rw [ht]
        have hset := ackWrite_settles ht
        obtain ⟨locks, hlocks⟩ := ackReleaseLock_eq t session db'
        obtain ⟨r', hsessions, -, -⟩ := hset.queued
        dsimp only
        rw [hlocks]
        obtain ⟨hcached, hdeadline⟩ := ackSettled_keeps x.state t p session
        refine ⟨fun s hs => ?_, hcached, hdeadline, id, hset.frees⟩
        exact (congrFun hsessions s).trans (update_of_ne hs ..)
      · rw [hf]
        exact ⟨fun _ _ => rfl, fun _ _ => rfl, rfl, id, .refl t _⟩

/-- The account lock that the row lists is missing or its own. -/
def LeaseOwned (db : Db) (s : String) (r : SessionRow) : Prop :=
  ∀ l, r.providerAccountLease = some l → ∀ y, db.concurrencyLocks l.concurrencyId = some y →
    y.ownedBy s l.attemptId = true

/-- What the write of a turn needs. It is made from the record `p` and the cached row `c`; its conditions are read off
the stored row `r`, the worktree or the lease map, and the lock and the counter of the claims that `c` lists. -/
def Reclaimable (db : Db) (s : String) (p : PendingAck) (c r : SessionRow) : Held → Prop
  | .worktree w => p.worktreeId = some w ∧ r.attemptId = some p.attemptId ∧
      (∃ y, db.worktrees w = some y ∧ y.currentSessionId = .value s) ∧ LeaseOwned db s c ∧
      ∀ l, c.hostAssignmentLease = some l → ∀ n, assignmentCount db.hostLocks l.hostId = some n → 1 ≤ n
  | .mainCheckout h => given p.worktreeId = none ∧ (∀ a, given (some p.attemptId) = some a → r.attemptId = some a) ∧
      c.hostId = .value h ∧ ∃ k y, given c.assignmentConnectionId = some k ∧ r.assignmentConnectionId = some k ∧
      db.hostLocks h = some y ∧ y.mainCheckoutLeases c.repositoryId = some ⟨s, k⟩ ∧
      (c.hostAssignmentLease ≠ none → ∃ n, y.assignmentCount = some n ∧ 1 ≤ n) ∧ LeaseOwned db s c
  | .workspaceSlot _ => False

section

variable {c : SessionRow} {kid : String} (hrow : db.sessions s = some r) (hrun : r.status = .running)
  (hack : r.ackReceivedAt = none)
include hrow hrun hack

theorem ready_ackRequeue : Ready (tryRequeueSessionItems (ackRequeueOpts s p c w)) db ↔
    r.worktreeId = .value w ∧ r.attemptId = some p.attemptId ∧
      (∃ y, db.worktrees w = some y ∧ y.currentSessionId = .value s) ∧ LeaseOwned db s c ∧
      ∀ l, c.hostAssignmentLease = some l → ∀ n, assignmentCount db.hostLocks l.hostId = some n → 1 ≤ n := by
  rw [ready_tryRequeueSession]
  constructor
  · rintro ⟨-, hready⟩
    obtain ⟨y, hy, hown, -⟩ := hready.worktree
    obtain ⟨r', hr', hcond⟩ := hready.session
    cases hrow.symm.trans hr'
    obtain ⟨-, hw, hatt, -⟩ := RequeueOpts.condition_iff.mp hcond
    exact ⟨hw, hatt, ⟨y, hy, hown⟩, hready.lease, hready.counter⟩
  · rintro ⟨hw, hatt, ⟨y, hy, hown⟩, hlease, hcount⟩
    refine ⟨nofun, nofun, ⟨y, hy, hown, rfl⟩, ⟨r, hrow, ?_⟩, hlease, hcount⟩
    rw [RequeueOpts.condition_iff]
    exact ⟨hrun, hw, hatt, fun _ => hack, nofun, nofun, nofun, fun hne => absurd rfl hne, nofun⟩

theorem ready_ackRelease : Ready (releaseMainCheckoutSessionItems (ackReleaseOpts s p c h kid) none) db ↔
    (r.hostId = .value h ∧ r.assignmentConnectionId = some kid ∧ r.mainCheckoutLease = true ∧
      ∀ a, given (some p.attemptId) = some a → r.attemptId = some a) ∧
    (∃ y, db.hostLocks h = some y ∧ y.mainCheckoutLeases c.repositoryId = some ⟨s, kid⟩ ∧
      (c.hostAssignmentLease ≠ none → ∃ n, y.assignmentCount = some n ∧ 1 ≤ n)) ∧ LeaseOwned db s c := by
  simp only [releaseMainCheckoutSessionItems, ready_append, ready_cons, ready_nil, and_true,
    holds_checkoutHostItem, sessionWrite_holds, any_eq_true, ready_lockDelete,
    ready_accountDelete, ready_drainDelete, checkoutReleasable_iff]
  constructor
  · rintro ⟨⟨⟨hhost, r', hr', hcond⟩, -⟩, hlease⟩
    cases hrow.symm.trans hr'
    obtain ⟨-, hh, hc, hmain, hatt, -⟩ := ReleaseMainCheckoutOpts.condition_iff.mp hcond
    exact ⟨⟨hh, hc, hmain, hatt⟩, hhost, hlease⟩
  · rintro ⟨⟨hh, hc, hmain, hatt⟩, hhost, hlease⟩
    refine ⟨⟨⟨hhost, r, hrow, ?_⟩, fun c hc => (by cases hc)⟩, hlease⟩
    rw [ReleaseMainCheckoutOpts.condition_iff]
    exact ⟨hrun, hh, hc, hmain, hatt, fun h => (by cases h), fun _ => hack, fun hne => absurd rfl hne,
      fun h => (by cases h), fun h => (by cases h)⟩

theorem ready_ackRequeue_iff (hk : Occupies r k) (hw : given p.worktreeId = some w) :
    Ready (tryRequeueSessionItems (ackRequeueOpts s p c w)) db ↔ Reclaimable db s p c r k := by
  rw [ready_ackRequeue hrow hrun hack]
  have hp := (given_eq_some.mp hw).1
  cases k with
  | worktree w' =>
    have hiff : r.worktreeId = .value w ↔ p.worktreeId = some w' := by
      rw [hk.1, hp, Attr.value.injEq, some.injEq, eq_comm]
    rw [hiff]
    refine and_congr_right fun hp' => ?_
    cases hp.symm.trans hp'
    exact Iff.rfl
  | mainCheckout h =>
    refine iff_of_false (fun h => ?_) fun h => ?_
    · have hn := hk.1
      rw [h.1] at hn
      cases hn
    · cases hw.symm.trans h.1
  | workspaceSlot i =>
    refine iff_of_false (fun h => ?_) id
    have hn := hk.1
    rw [h.1] at hn
    cases hn

theorem ready_ackRelease_iff (hk : Occupies r k) (hw : given p.worktreeId = none) (hh : given c.hostId.toOption = some h)
    (hc : given c.assignmentConnectionId = some kid) :
    Ready (releaseMainCheckoutSessionItems (ackReleaseOpts s p c h kid) none) db ↔ Reclaimable db s p c r k := by
  rw [ready_ackRelease hrow hrun hack]
  cases k with
  | worktree w =>
    refine iff_of_false (fun h => ?_) fun h => ?_
    · rw [hk.2.2.1] at h
      cases h.1.2.2.1
    · rw [h.1, given_of_ne hk.2.1] at hw
      cases hw
  | mainCheckout h' =>
    obtain ⟨-, hmain, hhost, hne, -⟩ := hk
    constructor
    · rintro ⟨⟨hh', hc', -, hatt⟩, ⟨y, hy, hl, hcount⟩, hlease⟩
      cases hhost.symm.trans hh'
      exact ⟨hw, hatt, Attr.toOption_eq_some.mp (given_eq_some.mp hh).1, kid, y, hc, hc', hy, hl, hcount, hlease⟩
    · rintro ⟨-, hatt, hch, kid', y, hc', hrc, hy, hl, hcount, hlease⟩
      cases hc.symm.trans hc'
      rw [hch] at hh
      cases (given_of_ne hne).symm.trans hh
      exact ⟨⟨hhost, hrc, hmain, hatt⟩, ⟨y, hy, hl, hcount⟩, hlease⟩
  | workspaceSlot i =>
    -- The release requires a main-checkout lease on the row, which a workspace session does not have.
    refine iff_of_false (fun h => ?_) id
    rw [hk.2.1] at h
    cases h.1.2.2.1

omit hrow hrun hack in
theorem not_reclaimable (hk : Occupies r k) (hw : given p.worktreeId = none)
    (hn : given c.hostId.toOption = none ∨ given c.assignmentConnectionId = none) : ¬ Reclaimable db s p c r k := by
  intro h
  cases k with
  | worktree w =>
    rw [h.1, given_of_ne hk.2.1] at hw
    cases hw
  | mainCheckout h' =>
    obtain ⟨-, -, hch, kid, -, hc, -⟩ := h
    rw [hch, hc] at hn
    obtain hn | hn := hn
    · cases (given_of_ne hk.2.2.2.1).symm.trans hn
    · cases hn
  | workspaceSlot i => exact h

/-- The write of a turn is made exactly when the claim can be taken back. -/
theorem ackWrite_iff (hk : Occupies r k) :
    (∃ db', ackWrite s p c db = (.ok true, db')) ↔ Reclaimable db s p c r k := by
  obtain ⟨w', hw, he⟩ | ⟨hw, h', c', hh, hc, he⟩ | ⟨hw, hn, he⟩ := ackWrite_cases s p c db
  · rw [he, commitOrFalse_true_iff ackRequeue_nodup, ready_ackRequeue_iff hrow hrun hack hk hw]
  · rw [he, commitOrFalse_true_iff ackRelease_nodup, ready_ackRelease_iff hrow hrun hack hk hw hh hc]
  · rw [he]
    exact iff_of_false nofun (not_reclaimable hk hw hn)

end

/-- What the turns of other sessions keep of session `s` in the store and the caches. -/
structure Unmoved (s : String) (x x' : AckPass) : Prop where
  row : x'.db.sessions s = x.db.sessions s
  cached : x'.state.sessions s = x.state.sessions s
  deadline : x'.state.ackDeadlineMs = x.state.ackDeadlineMs
  error : x.error = none → x'.error = none
  free : ∀ repo k, (storeOccupancy x.db).Free s repo k → (storeOccupancy x'.db).Free s repo k

theorem unmoved_foldl (now : Timestamp) {l : List (String × PendingAck)} (hl : ∀ e ∈ l, e.1 ≠ s) (x : AckPass) :
    Unmoved s x (l.foldl (ackTurnDurable now) x) :=
  OrderedMap.foldl_keeps (P := fun y => Unmoved s x y) hl
    (fun y e he hy =>
      have ht := ackTurnDurable_turn now y e
      ⟨(ht.row s he.symm).trans hy.row, (ht.cached s he.symm).trans hy.cached, ht.deadline.trans hy.deadline,
        fun hn => ht.error (hy.error hn), fun repo k hf => ht.frees.free (hy.free repo k hf)⟩)
    ⟨rfl, rfl, rfl, id, fun _ _ hf => hf⟩

theorem ackTurnDurable_own {c : SessionRow} (hrow : x.db.sessions s = some r) (hcached : x.state.sessions s = some c)
    (hrepo : c.repositoryId = r.repositoryId) (hrun : r.status = .running) (hack : r.ackReceivedAt = none)
    (herr : x.error = none) (hdue : p.due x.state.ackDeadlineMs now = true) (hk : Occupies r k) :
    (p.matchesSession c = true ∧ Reclaimable x.db s p c r k →
      Reclaimed (ackTurnDurable now x (s, p)).db.sessions (storeOccupancy (ackTurnDurable now x (s, p)).db) s
        r.repositoryId k) ∧ (¬ (p.matchesSession c = true ∧ Reclaimable x.db s p c r k) →
      (ackTurnDurable now x (s, p)).db.sessions s = some r) := by
  simp only [ackTurnDurable, herr, hdue, isSome_none, Bool.not_true, Bool.or_self, Bool.false_eq_true, if_false]
  by_cases hm : p.matchesSession c = true
  · have hiff := ackWrite_iff (p := p) (c := c) hrow hrun hack hk
    rw [cached_current hcached hm]
    dsimp only
    obtain ⟨db', ht⟩ | hf := ackWrite_ok s p c x.db
    · have hcan := hiff.mp ⟨db', ht⟩
      refine ⟨fun _ => ?_, fun hno => absurd ⟨hm, hcan⟩ hno⟩
      rw [ht]
      have hset := ackWrite_settles ht
      obtain ⟨r', hsessions, hq, hhost⟩ := hset.queued
      obtain ⟨locks, hlocks⟩ := ackReleaseLock_eq s c db'
      dsimp only
      rw [hlocks, ← hrepo]
      refine ⟨⟨r', (congrFun hsessions s).trans (update_self ..), hq, hhost⟩, ?_⟩
      cases k with
      | worktree w => exact hset.worktree w (given_eq_some.mpr ⟨hcan.1, hk.2.1⟩)
      | mainCheckout h =>
        refine hset.mainCheckout hcan.1 h ?_
        rw [hcan.2.2.1]
        exact given_of_ne hk.2.2.2.1
      | workspaceSlot i => exact hcan.elim
    · rw [hf]
      refine ⟨fun h => ?_, fun _ => hrow⟩
      obtain ⟨db', ht⟩ := hiff.mpr h.2
      rw [hf] at ht
      cases ht
  · rw [cached_stale hcached hm]
    exact ⟨fun h => absurd h.1 hm, fun _ => hrow⟩

/-- A due session is reclaimed exactly when its cached row is current and its claim can be freed in the store its
turn finds. -/
theorem enforceAckDeadlinesDurable_reclaims {st : ControlPlaneState} {page : List (String × SessionRow)}
    {before after : List (String × PendingAck)} {c : SessionRow}
    (hp : (recoverPendings page st).pendingAcks.entries = before ++ (s, p) :: after)
    (hdue : p.due (recoverPendings page st).ackDeadlineMs now = true)
    (hcached : (recoverPendings page st).sessions s = some c) (hrow : db.sessions s = some r)
    (hrepo : c.repositoryId = r.repositoryId) (hrun : r.status = .running) (hack : r.ackReceivedAt = none)
    (hk : Occupies r k) : Reclaimed (enforceAckDeadlinesDurable st page db now).db.sessions
        (storeOccupancy (enforceAckDeadlinesDurable st page db now).db) s r.repositoryId k ↔
      p.matchesSession c = true ∧
        Reclaimable (before.foldl (ackTurnDurable now) { state := recoverPendings page st, db := db }).db s p c r k := by
  obtain ⟨hbefore, hafter⟩ := (recoverPendings page st).pendingAcks.split_fst_ne hp
  have hb := unmoved_foldl now hbefore { state := recoverPendings page st, db := db }
  simp only [enforceAckDeadlinesDurable]
  rw [OrderedMap.foldl_split _ hp]
  generalize before.foldl (ackTurnDurable now) { state := recoverPendings page st, db := db } = x at hb ⊢
  have ha := unmoved_foldl now hafter (ackTurnDurable now x (s, p))
  generalize after.foldl (ackTurnDurable now) (ackTurnDurable now x (s, p)) = y at ha ⊢
  have hdue' : p.due x.state.ackDeadlineMs now = true := by rw [hb.deadline]; exact hdue
  obtain ⟨hyes, hno⟩ := ackTurnDurable_own (hb.row.trans hrow) (hb.cached.trans hcached) hrepo hrun hack
    (hb.error rfl) hdue' hk
  by_cases hc : p.matchesSession c = true ∧ Reclaimable x.db s p c r k
  · obtain ⟨hq, hf⟩ := hyes hc
    refine iff_of_true ⟨?_, ha.free _ _ hf⟩ hc
    rw [ha.row]
    exact hq
  · exact iff_of_false (not_reclaimed_of_running (ha.row.trans (hno hc)) hrun) hc

end Durable

/-! ## Both modes -/

/-- A due, unacknowledged session is reclaimed by either pass exactly when its record is current and its claim can be
freed there. The durable pass reads the cached row `c`, which may lack what the stored row `r` has. A taken workspace
slot is freed by neither. -/
theorem unacknowledged_reclaimed {s : String} {r : SessionRow} {k : Held} (hrun : r.status = .running)
    (hack : r.ackReceivedAt = none) (hk : Occupies r k) (st : ControlPlaneState) (now : Timestamp)
    (p : PendingAck) (before after : List (String × PendingAck)) :
    (∀ page db c, (recoverPendings page st).pendingAcks.entries = before ++ (s, p) :: after →
      p.due (recoverPendings page st).ackDeadlineMs now = true →
      (recoverPendings page st).sessions s = some c → db.sessions s = some r → c.repositoryId = r.repositoryId →
      (Reclaimed (enforceAckDeadlinesDurable st page db now).db.sessions
          (storeOccupancy (enforceAckDeadlinesDurable st page db now).db) s r.repositoryId k ↔
        (c.ackReceivedAt = none ∧ c.worktreeId = Attr.ofOption p.worktreeId ∧ c.attemptId = some p.attemptId) ∧
        Reclaimable (before.foldl (ackTurnDurable now) { state := recoverPendings page st, db := db }).db s p c r k)) ∧
    (st.pendingAcks.entries = before ++ (s, p) :: after → p.due st.ackDeadlineMs now = true →
      st.sessions s = some r →
      (Reclaimed (enforceAckDeadlines st now).1.sessions (cacheOccupancy (enforceAckDeadlines st now).1) s
          r.repositoryId k ↔
        (r.worktreeId = Attr.ofOption p.worktreeId ∧ r.attemptId = some p.attemptId) ∧
        LocallyReleasable st s r k)) := by
  refine ⟨fun page db c hp hdue hcached hrow hrepo => ?_, fun hp hdue hrow => ?_⟩
  · rw [← matchesSession_iff]
    exact enforceAckDeadlinesDurable_reclaims hp hdue hcached hrow hrepo hrun hack hk
  · rw [enforceAckDeadlines_reclaims hp hdue hrow hrun hk, matchesSession_iff]
    exact and_congr_left fun _ => ⟨fun h => h.2, fun h => ⟨hack, h⟩⟩

/-- The row that an assigner leaves in its cache: neither of the two that place prompts and workspace sessions copies the
connection, the time of the assignment and the active host to it. -/
def assignerCached (r : SessionRow) : SessionRow :=
  { r with activeHostId := none, assignmentConnectionId := none, assignmentSentAt := none }

/-- The process that placed `s1` on attempt `a1` at time 1. -/
def assignerState (worktreeId : Option String) (db : Db) : ControlPlaneState where
  ackDeadlineMs := 10
  pendingAcks := OrderedMap.empty.insertNew "s1" ⟨worktreeId, "a1", 1⟩
  sessions s := (db.sessions s).map assignerCached
  worktrees := db.worktrees
  workspaceSlots := db.workspaceSlots

/-- A running session on worktree `w1`, assigned at time 1. -/
def worktreeSession : SessionRow where
  status := .running
  repositoryId := "repo"
  worktreeId := .value "w1"
  hostId := .value "h1"
  activeHostId := some "h1"
  assignmentConnectionId := some "k1"
  attemptId := some "a1"
  assignmentSentAt := some 1

def worktreeSessionDb : Db :=
  { smallDb with
    sessions := fun s => if s = "s1" then some worktreeSession else none
    worktrees := fun i => if i = "w1" then
      some { hostId := "h1", repositoryId := "repo", status := .busy, currentSessionId := .value "s1" } else none }

def worktreeAssigner : ControlPlaneState := assignerState (some "w1") worktreeSessionDb

theorem unacknowledged_reclaimed_worktree :
    Reclaimed (enforceAckDeadlinesDurable worktreeAssigner [] worktreeSessionDb 11).db.sessions
      (storeOccupancy (enforceAckDeadlinesDurable worktreeAssigner [] worktreeSessionDb 11).db)
      "s1" "repo" (.worktree "w1") ∧
    Reclaimed (enforceAckDeadlines worktreeAssigner 11).1.sessions
      (cacheOccupancy (enforceAckDeadlines worktreeAssigner 11).1)
      "s1" "repo" (.worktree "w1") := by
  have hdurable := (unacknowledged_reclaimed (r := worktreeSession) (k := .worktree "w1") rfl rfl
    ⟨rfl, by decide, rfl, rfl⟩ worktreeAssigner 11 ⟨some "w1", "a1", 1⟩ [] []).1
    [] worktreeSessionDb (assignerCached worktreeSession) rfl (by decide) (by decide) (by decide) rfl
  have hmemory := (unacknowledged_reclaimed (r := assignerCached worktreeSession) (k := .worktree "w1") rfl rfl
    ⟨rfl, by decide, rfl, rfl⟩ worktreeAssigner 11 ⟨some "w1", "a1", 1⟩ [] []).2
    rfl (by decide) (by decide)
  refine ⟨hdurable.mpr ⟨⟨rfl, rfl, rfl⟩, rfl, rfl, ⟨_, rfl, rfl⟩, ?_, ?_⟩, hmemory.mpr ⟨⟨rfl, rfl⟩, trivial⟩⟩
  all_goals
    intro l hl
    cases hl

def workspaceOps : List Op :=
  [.createPlain {
     sessionId := "s1"
     session := { status := .queued, type := .workspace, repositoryId := "", queueExpiresAt := 9 } },
   .assignWorkspace {
     sessionId := "s1", hostId := "h1", connectionId := "k1", now := 1, attemptId := "a1"
     resolvedRoute := {
       targetIndex := 0, commandId := "cmd", hostId := "h1", workspacePoolId := some "pool"
       workspaceSlotId := some "slot1", attemptId := "a1" }
     workspacePoolId := "pool", workspaceSlotId := "slot1" }]

def slotTaken (slots : String → Option WorkspaceSlotRow) : Bool :=
  (slots "slot1").any fun x => x.status == .busy && x.currentSessionId == .value "s1"

/-- The durable pass leaves the workspace session running and drops its record, both in the process that placed it
and in one that read its row from the recovery page. The in-memory pass queues it and leaves the slot taken. -/
theorem unacknowledged_workspace_kept :
    ∃ w r, plane.Reachable w ∧ w.db.sessions "s1" = some r ∧ r.status = .running ∧ r.ackReceivedAt = none ∧
      Occupies r (.workspaceSlot "slot1") ∧
      (∀ pass ∈ [enforceAckDeadlinesDurable (assignerState none w.db) [] w.db 11,
          enforceAckDeadlinesDurable { ackDeadlineMs := 10, pendingAcks := .empty, sessions := fun _ => none }
            [("s1", r)] w.db 11],
        pass.db.sessions "s1" = some r ∧ slotTaken pass.db.workspaceSlots = true ∧
          pass.state.pendingAcks.contains "s1" = false) ∧
      (enforceAckDeadlines (assignerState none w.db) 11).2 = ["s1"] ∧
      slotTaken (enforceAckDeadlines (assignerState none w.db) 11).1.workspaceSlots = true := by
  exact exists_row_of_run workspaceOps (by decide)

end AutoHarness.Protocol

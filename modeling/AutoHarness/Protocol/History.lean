import AutoHarness.Protocol.Steps

/-! What a session row keeps over a whole run: its existence, concurrency id and creation time, and a terminal status.
Every stale read is compared with the current row through this. -/

namespace AutoHarness.Protocol
open Foundation Store Plane Function List Option Bool World Op

/-- Row `r'` is a later version of row `r`. -/
structure Kept (r r' : SessionRow) : Prop where
  concurrencyId : r'.concurrencyId = r.concurrencyId
  createdAt : r'.createdAt = r.createdAt
  terminal : r.status.isTerminal = true → r'.status.isTerminal = true

namespace Kept

theorem refl (r : SessionRow) : Kept r r := ⟨rfl, rfl, id⟩

theorem trans {a b c : SessionRow} (hab : Kept a b) (hbc : Kept b c) : Kept a c where
  concurrencyId := hbc.concurrencyId.trans hab.concurrencyId
  createdAt := hbc.createdAt.trans hab.createdAt
  terminal h := hbc.terminal (hab.terminal h)

theorem active {r r' : SessionRow} (h : Kept r r') (ha : r'.status.isActive = true) : r.status.isActive = true := by
  rw [← SessionStatus.isTerminal_eq_false] at ha ⊢
  rw [eq_false_iff] at ha ⊢
  exact fun ht => ha (h.terminal ht)

end Kept

/-! ## Reads -/

namespace World

variable {w : World} {op : Op} {s : String} {r : SessionRow}

theorem hasRead_iff : w.hasRead s r = true ↔ ∃ d ∈ w.db :: w.past, d.sessions s = some r := by
  simp [hasRead]

theorem hasRead_current (h : w.db.sessions s = some r) : w.hasRead s r = true :=
  hasRead_iff.mpr ⟨w.db, mem_cons_self, h⟩

theorem hasRead_apply (h : (w.apply op).hasRead s r = true) :
    (w.act op).1.sessions s = some r ∨ w.hasRead s r = true := by
  obtain ⟨d, hd, hr⟩ := hasRead_iff.mp h
  obtain rfl | hd := mem_cons.mp hd
  · exact .inl hr
  · exact .inr (hasRead_iff.mpr ⟨d, hd, hr⟩)

theorem Fresh.no_row (hw : w.Fresh) : w.db.sessions s ≠ some r := by
  rw [hw.sessions]
  nofun

theorem Fresh.no_read (hw : w.Fresh) : w.hasRead s r ≠ true := by
  simp [hasRead, hw.past, hw.sessions]

end World

/-! ## Writers keep a row -/

namespace WriteOp

variable {r r' : SessionRow}

theorem kept_of_running (hr : r.status = .running) (hc : r'.concurrencyId = r.concurrencyId)
    (ht : r'.createdAt = r.createdAt) : Kept r r' :=
  ⟨hc, ht, fun h => by rw [hr] at h; cases h⟩

theorem kept_of_queued (hr : r.status = .queued) (hc : r'.concurrencyId = r.concurrencyId)
    (ht : r'.createdAt = r.createdAt) : Kept r r' :=
  ⟨hc, ht, fun h => by rw [hr] at h; cases h⟩

/-- It writes the status it expects, unless it expects a running session. -/
theorem terminal_of_expected {expected : Option SessionStatus} {status : SessionStatus}
    (hr : r.status = expected.getD .running)
    (h : expected.getD .running = .running ∨ expected = some status) (ht : r.status.isTerminal = true) :
    status.isTerminal = true := by
  obtain h | h := h
  · rw [hr, h] at ht
    cases ht
  · rw [hr, h] at ht
    exact ht

theorem kept {op : WriteOp} (hp : op.promised = true) (hc : op.writer.cond r = true) : Kept r (op.writer.next r) := by
  cases op with
  | cancelQueued | expireQueued => exact kept_of_queued (beq_iff_eq.mp hc) rfl rfl
  | cancelRunning | cancelRunningMainCheckout => exact ⟨rfl, rfl, fun _ => rfl⟩
  | requeue c => exact kept_of_running (RequeueOpts.condition_iff.mp hc).1 rfl rfl
  | requeueUsageLimited | suppressProviderless => exact kept_of_running (runningOnWorktree_iff.mp hc).1 rfl rfl
  | requeueUsageLimitedWorkspace | suppressProviderlessWorkspace =>
    exact kept_of_running (runningOnSlot_iff.mp hc).1 rfl rfl
  | finish c cleanup =>
    have hst := (FinishSessionOpts.condition_iff.mp hc).1
    exact ⟨rfl, rfl, terminal_of_expected hst (FinishCall.opts_status hp).2⟩
  | releaseCancelled | releaseTimedOutHostAssignment | releaseTimedOutProviderAccountLease
  | forceReleaseProviderAccountLease | settleHandoff | expireHandoff | note => exact ⟨rfl, rfl, id⟩
  | releaseMainCheckout read o cleanup =>
    have hst := (ReleaseMainCheckoutOpts.condition_iff.mp hc).1
    simp only [promised, and_eq_true, or_eq_true, beq_iff_eq] at hp
    exact ⟨rfl, rfl, terminal_of_expected hst hp.2⟩
  | requeueMainCheckoutUsageLimited read o =>
    simp only [writer, usageLimitWriter, and_eq_true, beq_iff_eq] at hc
    exact kept_of_running hc.1.1.1 rfl rfl

end WriteOp

/-! ## Rows over a run -/

def World.Remembers (w : World) : Prop :=
  ∀ s r, w.hasRead s r = true → ∃ r', w.db.sessions s = some r' ∧ Kept r r'

variable {s : String} {r : SessionRow}

theorem kept_of_update {t t' : String → Option SessionRow} {r' : SessionRow}
    (hrow : t s = some r) (ht : t' = update t s (some r')) (hk : Kept r r') :
    ∀ x y, t x = some y → ∃ y', t' x = some y' ∧ Kept y y' := by
  intro x y hy
  by_cases hx : x = s
  · subst hx
    rw [hrow] at hy
    cases hy
    exact ⟨r', by rw [ht]; simp, hk⟩
  · exact ⟨y, by rw [ht]; simpa [hx] using hy, .refl y⟩

variable {w : World} {x : WriteOp}

theorem promised_of_allowed (h : allowed w (.write x) = true) : x.promised = true := by
  simp only [allowed, and_eq_true] at h
  exact h.1.2

theorem read_of_allowed (h : allowed w (.write x) = true) (hr : x.read = some r) : w.hasRead x.sessionId r = true := by
  simp only [allowed, and_eq_true, hr, all_some] at h
  exact h.1.1

variable {op : Op} {n : ℕ} {call : CreateCall} {P : String → SessionRow → Prop}

theorem kept_step (hmem : w.Remembers) (ha : op.allowed w = true) (hr : w.db.sessions s = some r) : ∃ r',
    (w.act op).1.sessions s = some r' ∧ Kept r r' := by
  have same : ∀ {db' : Db}, db'.sessions = w.db.sessions → ∃ r', db'.sessions s = some r' ∧ Kept r r' :=
    fun h => ⟨r, by rw [h]; exact hr, .refl r⟩
  have bumped : ∀ {o : CreateOpts} {lock : Option String} {db' : Db}, Created o lock w.db db' →
      ∃ r', db'.sessions s = some r' ∧ Kept r r' := by
    intro o lock db' hc
    have hs : s ≠ o.sessionId := by
      rintro rfl
      rw [hc.absent] at hr
      cases hr
    obtain h | ⟨y, n, hy, h⟩ := hc.others s hs
    · exact ⟨r, by rw [h]; exact hr, .refl r⟩
    · rw [hr] at hy
      cases hy
      exact ⟨_, h, rfl, rfl, id⟩
  cases effect ha with
  | quiet h | hostLinked x k d e hop h | worktreeLinked i online k x hop hx h | marked key row hop h
  | stolen n k call reasons holder after y hop hcall hpc hy hn h | leaseReleased x y l hop hown h =>
    exact same h.sessions
  | wrote x y hop h =>
    subst hop
    exact kept_of_update h.row h.sessions (WriteOp.kept (promised_of_allowed ha) h.cond) s r hr
  | assigned x y hop h =>
    have hk : Kept y (x.next y) :=
      ⟨h.launched.concurrencyId, h.launched.createdAt, fun ht => by rw [h.checked.queued] at ht; cases ht⟩
    exact kept_of_update h.checked.row h.sessions hk s r hr
  | createdPlain o hop h | created n k call hop hcall hpc h => exact bumped h
  | persisted x read hop hcreated h =>
    subst hop
    simp only [allowed, and_eq_true, beq_iff_eq] at ha
    obtain ⟨y, hy, hk⟩ := hmem x read ha.1.1
    have hk' : Kept y (timedOutPersisted read) :=
      ⟨hk.concurrencyId.symm, hk.createdAt.symm, fun _ => by simp [timedOutPersisted, ha.1.2, SessionStatus.isTerminal]⟩
    exact kept_of_update hy h.sessions hk' s r hr

/-- **Run lemma.** In every reachable world every row ever read is still there, in a later version. -/
theorem remembers (h : plane.Reachable w) : w.Remembers := by
  refine System.Reachable.invariant ?_ ?_ h
  · exact fun w hw s r hr => absurd hr hw.no_read
  · rintro w op w' - hmem ⟨ha, rfl⟩ s r hr
    obtain h | h := hasRead_apply hr
    · exact ⟨r, h, .refl r⟩
    · obtain ⟨r₁, h₁, hk₁⟩ := hmem s r h
      obtain ⟨r₂, h₂, hk₂⟩ := kept_step hmem ha h₁
      exact ⟨r₂, h₂, hk₁.trans hk₂⟩

/-! ## New rows -/

/-- Queued, holding nothing, with a concurrency id that creates accept, or none. -/
def Admissible (r : SessionRow) : Prop :=
  SessionRow.isNew r = true ∧ ∀ c, r.concurrencyId = some c → creatableConcurrencyId c = true

/-- What `SessionRow.isNew` checks. -/
structure Blank (r : SessionRow) : Prop where
  status : r.status = .queued
  worktreeId : r.worktreeId = .null
  workspaceSlotId : r.workspaceSlotId.toOption = none
  mainCheckoutLease : r.mainCheckoutLease = false
  attemptId : r.attemptId = none
  providerAccountLease : r.providerAccountLease = none
  hostAssignmentLease : r.hostAssignmentLease = none
  terminalHookHandoff : r.terminalHookHandoff = none
  cancelledByDrainOperationId : r.cancelledByDrainOperationId = none

theorem blank_of_isNew (h : SessionRow.isNew r = true) : Blank r := by
  simp only [SessionRow.isNew, and_eq_true, beq_iff_eq, isNone_iff_eq_none, not_eq_true'] at h
  obtain ⟨⟨⟨⟨⟨⟨⟨⟨h₁, h₂⟩, h₃⟩, h₄⟩, h₅⟩, h₆⟩, h₇⟩, h₈⟩, h₉⟩ := h
  exact ⟨h₁, h₂, h₃, h₄, h₅, h₆, h₇, h₈, h₉⟩

theorem Admissible.blank (h : Admissible r) : Blank r := blank_of_isNew h.1

theorem admissible_of_createPlain {o : CreateOpts} (h : allowed w (.createPlain o) = true) : Admissible o.session := by
  simp only [allowed, and_eq_true, isNone_iff_eq_none] at h
  exact ⟨h.1, fun c hc => by rw [h.2] at hc; cases hc⟩

theorem calls_step (h : (w.act op).2 n = some call) : w.calls n = some call ∨ (∃ o, op = .createBegin n o ∧
        call = ⟨o, (given o.session.concurrencyId).getD "", o.begin ((given o.session.concurrencyId).getD "")⟩) ∨
      ∃ old, op = .createStep n ∧ w.calls n = some old ∧
        call = { old with pc := (createStep old.opts old.concurrencyId old.pc w.db).1 } := by
  cases op with
  | createBegin m o =>
    by_cases hm : n = m
    · subst hm
      simp only [act, update_self, some.injEq] at h
      exact .inr (.inl ⟨o, rfl, h.symm⟩)
    · simp only [act, update_of_ne hm] at h
      exact .inl h
  | createStep m =>
    cases hcall : w.calls m with
    | none =>
      simp only [act, hcall] at h
      exact .inl h
    | some old =>
      simp only [act, hcall] at h
      by_cases hm : n = m
      · subst hm
        simp only [update_self, some.injEq] at h
        exact .inr (.inr ⟨old, rfl, hcall, h.symm⟩)
      · rw [update_of_ne hm] at h
        exact .inl h
  | _ => exact .inl h

theorem calls_admissible (h : plane.Reachable w) (hc : w.calls n = some call) :
    Admissible call.opts.session ∧ call.opts.session.concurrencyId = some call.concurrencyId := by
  induction h generalizing n call with
  | init hw =>
    rw [hw.calls] at hc
    cases hc
  | @step w w' op hw hs ih =>
    obtain ⟨ha, rfl⟩ := hs
    obtain h | ⟨o, rfl, rfl⟩ | ⟨old, rfl, hold, rfl⟩ := calls_step hc
    · exact ih h
    · simp only [allowed, and_eq_true, Option.any_eq_true] at ha
      obtain ⟨⟨-, hnew⟩, k, hk, hcr⟩ := ha
      have hk' := (given_eq_some.mp hk).1
      refine ⟨⟨hnew, fun d hd => ?_⟩, by rw [hk]; exact hk'⟩
      rw [hk'] at hd
      cases hd
      exact hcr
    · have hadm := ih hold
      exact hadm

/-- The row that a request may put as a new one. -/
def Op.creates (w : World) : Op → Option SessionRow
  | createPlain o => some o.session
  | createStep n => (w.calls n).map (·.opts.session)
  | _ => none

/-- **Row rule.** What every writer, assignment, create and put gives its new row holds of every row. -/
theorem rows_step (hw : plane.Reachable w) (ha : op.allowed w = true) (hold : ∀ s r, w.db.sessions s = some r → P s r)
    (hwrote : ∀ x r, op = .write x → Wrote x.writer w.db (w.act op).1 r → P x.writer.sessionId (x.writer.next r))
    (hassigned : ∀ x r, op.assigning = some x → Assigned x w.db (w.act op).1 r → P x.opts.sessionId (x.next r))
    (hnew : ∀ s r, w.db.sessions s = none ∧ op.creates w = some r → Admissible r → P s r)
    (hbump : ∀ s r n, P s r → P s { r with descendantCount := some n })
    (hpersist : ∀ s read, op = .putTimedOut s read → P s (timedOutPersisted read)) :
    ∀ s r, (w.act op).1.sessions s = some r → P s r := by
  intro s r hr
  have updated : ∀ {x : String} {y : SessionRow}, (w.act op).1.sessions = update w.db.sessions x (some y) →
      P x y → P s r := by
    intro x y h hy
    rw [h] at hr
    by_cases hx : s = x
    · subst hx
      rw [update_self] at hr
      cases hr
      exact hy
    · rw [update_of_ne hx] at hr
      exact hold s r hr
  have created : ∀ {o : CreateOpts} {lock : Option String}, Created o lock w.db (w.act op).1 →
      op.creates w = some o.session → Admissible o.session → P s r := by
    intro o lock h hop hadm
    by_cases hs : s = o.sessionId
    · subst hs
      rw [h.row] at hr
      cases hr
      exact hnew _ _ ⟨h.absent, hop⟩ hadm
    · obtain h₁ | ⟨y, n, hy, h₁⟩ := h.others s hs
      · rw [h₁] at hr
        exact hold s r hr
      · rw [h₁] at hr
        cases hr
        exact hbump s y n (hold s y hy)
  cases effect ha with
  | quiet h | leaseReleased x y l hop hown h => exact hold s r (by rw [← h.sessions]; exact hr)
  | wrote x y hop h => exact updated h.sessions (hwrote x y hop h)
  | assigned x y hop h => exact updated h.sessions (hassigned x y hop h)
  | createdPlain o hop h =>
    subst hop
    exact created h rfl (admissible_of_createPlain ha)
  | created n k call hop hcall hpc h => exact created h (by simp [creates, hop, hcall]) (calls_admissible hw hcall).1
  | stolen n k call reasons holder after y hop hcall hpc hy hn h | hostLinked x k d e hop h
  | worktreeLinked i online k x hop hx h | marked key row hop h =>
    exact hold s r (by rw [← h.sessions]; exact hr)
  | persisted x read hop hcreated h => exact updated h.sessions (hpersist x read hop)

theorem row_step (hw : plane.Reachable w) (ha : op.allowed w = true) : ∀ s r', (w.act op).1.sessions s = some r' →
      (∃ r, w.db.sessions s = some r ∧ Kept r r') ∨ (w.db.sessions s = none ∧ Admissible r') := by
  refine rows_step hw ha (fun s r hr => .inl ⟨r, hr, .refl r⟩) (fun x r hop h => ?_) (fun x r hop h => ?_)
    (fun s r hs hadm => .inr ⟨hs.1, hadm⟩) (fun s r n hP => ?_) (fun s read hop => ?_)
  · subst hop
    exact .inl ⟨r, h.row, WriteOp.kept (promised_of_allowed ha) h.cond⟩
  · exact .inl ⟨r, h.checked.row, h.launched.concurrencyId, h.launched.createdAt,
      fun ht => by rw [h.checked.queued] at ht; cases ht⟩
  · obtain ⟨r₀, hr₀, hk⟩ | ⟨hs, hadm⟩ := hP
    · exact .inl ⟨r₀, hr₀, hk.concurrencyId, hk.createdAt, hk.terminal⟩
    · exact .inr ⟨hs, hadm⟩
  · subst hop
    simp only [allowed, and_eq_true, beq_iff_eq] at ha
    obtain ⟨y, hy, hk⟩ := remembers hw s read ha.1.1
    exact .inl ⟨y, hy, hk.concurrencyId.symm, hk.createdAt.symm,
      fun _ => by simp [timedOutPersisted, ha.1.2, SessionStatus.isTerminal]⟩

/-- **Read rule.** What holds of the current rows of every reachable world holds of every row anyone
has read. -/
theorem reads_of_rows (hrows : ∀ w, plane.Reachable w → ∀ s r, w.db.sessions s = some r → P s r)
    (h : plane.Reachable w) : ∀ s r, w.hasRead s r = true → P s r := by
  induction h with
  | init hw => exact fun s r hr => absurd hr hw.no_read
  | @step w w' op hw hs ih =>
    have hw' := System.Reachable.step hw hs
    obtain ⟨ha, rfl⟩ := hs
    intro s r hr
    obtain h | h := hasRead_apply hr
    · exact hrows _ hw' s r h
    · exact ih s r h

theorem creatable_of_row (h : plane.Reachable w) {c : String}
    (hr : w.db.sessions s = some r) (hc : r.concurrencyId = some c) : creatableConcurrencyId c = true := by
  induction h generalizing s c r with
  | init hw => exact absurd hr hw.no_row
  | @step w w' op hw hs ih =>
    obtain ⟨ha, rfl⟩ := hs
    obtain ⟨r₀, h₀, hk⟩ | ⟨-, hadm⟩ := row_step hw ha s r hr
    · exact ih h₀ (hk.concurrencyId ▸ hc)
    · exact hadm.2 c hc

/-! ## Attempt ids -/

theorem WriteOp.attemptId_next (x : WriteOp) (r : SessionRow) : (x.writer.next r).attemptId = r.attemptId := by
  cases x <;> rfl

theorem attempt_of_assigning {x : Assigning} (h : op.assigning = some x) : op.attempt = some x.opts.attemptId := by
  cases op <;> cases h <;> rfl

theorem attempt_known (h : plane.Reachable w) :
    ∀ s r, w.hasRead s r = true → ∀ a, r.attemptId = some a → a ∈ w.attempts := by
  induction h with
  | init hw => exact fun s r hr => absurd hr hw.no_read
  | @step w w' op hw hs ih =>
    obtain ⟨ha, rfl⟩ := hs
    have hold : ∀ s r, w.hasRead s r = true → ∀ a, r.attemptId = some a → a ∈ (w.apply op).attempts :=
      fun s r hr a hra => mem_append_right _ (ih s r hr a hra)
    have hrows : ∀ s r, w.db.sessions s = some r → ∀ a, r.attemptId = some a → a ∈ (w.apply op).attempts :=
      fun s r hr => hold s r (hasRead_current hr)
    intro s r hr
    obtain h | h := hasRead_apply hr
    · refine rows_step (P := fun _ r => ∀ a, r.attemptId = some a → a ∈ (w.apply op).attempts) hw ha hrows
        (fun x r hop h a hra => ?_) (fun x r hop h a hra => ?_) (fun s r _ hadm a hra => ?_)
        (fun s r n hP => hP) (fun s read hop => ?_) s r h
      · rw [x.attemptId_next] at hra
        exact hrows _ r h.row a hra
      · rw [h.launched.attemptId] at hra
        cases hra
        exact mem_append_left _ (by simp [attempt_of_assigning hop])
      · rw [hadm.blank.attemptId] at hra
        cases hra
      · subst hop
        simp only [allowed, and_eq_true] at ha
        exact hold s read ha.1.1
    · exact hold s r h

/-! ## Handoff ids -/

variable {h h' : TerminalHookHandoff} {s' handoffId : String}

theorem WriteOp.handoff_next (x : WriteOp) (hh : (x.writer.next r).terminalHookHandoff = some h) :
    r.terminalHookHandoff = some h ∨ x.stored = some h := by
  cases x with
  | finish c cleanup =>
    change (c.opts.terminalHookHandoff.or r.terminalHookHandoff) = some h at hh
    cases ho : c.opts.terminalHookHandoff with
    | none => exact .inl (by simpa [ho] using hh)
    | some h' => exact .inr (by simpa [stored, ho] using hh)
  | releaseMainCheckout read o cleanup =>
    change (o.terminalHookHandoff.or r.terminalHookHandoff) = some h at hh
    cases ho : o.terminalHookHandoff with
    | none => exact .inl (by simpa [ho] using hh)
    | some h' => exact .inr (by simpa [stored, ho] using hh)
  | settleHandoff | expireHandoff => cases hh
  | _ => exact .inl hh

theorem handoff_step (hw : plane.Reachable w) (ha : op.allowed w = true) : ∀ s r,
    (w.act op).1.sessions s = some r → ∀ h, r.terminalHookHandoff = some h →
      (∃ r', w.hasRead s r' = true ∧ r'.terminalHookHandoff = some h) ∨ ∃ x, op = .write x ∧ x.stored = some h := by
  refine rows_step hw ha (fun s r hr h hh => .inl ⟨r, hasRead_current hr, hh⟩) (fun x r hop hx h hh => ?_)
    (fun x r hop hx h hh => ?_) (fun s r _ hadm h hh => ?_) (fun s r n hr => hr) (fun s read hop h hh => ?_)
  · obtain hold | hnew := x.handoff_next hh
    · exact .inl ⟨r, hasRead_current hx.row, hold⟩
    · exact .inr ⟨x, hop, hnew⟩
  · rw [hx.launched.terminalHookHandoff] at hh
    exact .inl ⟨r, hasRead_current hx.checked.row, hh⟩
  · rw [hadm.blank.terminalHookHandoff] at hh
    cases hh
  · subst hop
    simp only [allowed, and_eq_true] at ha
    exact .inl ⟨read, ha.1.1, hh⟩

theorem handoff_read (hw : plane.Reachable w) (ha : op.allowed w = true) (hr : (w.apply op).hasRead s r = true)
    (hh : r.terminalHookHandoff = some h) :
    (∃ r', w.hasRead s r' = true ∧ r'.terminalHookHandoff = some h) ∨ ∃ x, op = .write x ∧ x.stored = some h := by
  obtain hnow | hold := hasRead_apply hr
  · exact handoff_step hw ha s r hnow h hh
  · exact .inl ⟨r, hold, hh⟩

theorem fresh_of_stored (ha : allowed w (.write x) = true) (hs : x.stored = some h) : h.handoffId ∉ w.handoffs := by
  simp only [allowed, and_eq_true, hs, all_some, not_eq_true', contains_eq_mem, decide_eq_false_iff_not] at ha
  exact ha.2

theorem handoff_known (hw : plane.Reachable w)
    (hr : w.hasRead s r = true) (hh : r.terminalHookHandoff = some h) : h.handoffId ∈ w.handoffs := by
  induction hw generalizing s r h with
  | init hw => exact absurd hr hw.no_read
  | @step w w' op hw hs ih =>
    obtain ⟨ha, rfl⟩ := hs
    obtain ⟨r', hr', hh'⟩ | ⟨x, rfl, hs⟩ := handoff_read hw ha hr hh
    · exact mem_append_right _ (ih hr' hh')
    · refine mem_append_left _ ?_
      simp [handoff, hs]

/-- **Run lemma.** A handoff id names one handoff, on whatever rows and at whatever time it is read. -/
theorem handoff_unique (hw : plane.Reachable w) {r' : SessionRow}
    (hr : w.hasRead s r = true) (hh : r.terminalHookHandoff = some h)
    (hr' : w.hasRead s' r' = true) (hh' : r'.terminalHookHandoff = some h') (hid : h.handoffId = h'.handoffId) :
    h = h' := by
  induction hw generalizing s s' r r' h h' with
  | init hw => exact absurd hr hw.no_read
  | @step w w' op hw hs ih =>
    obtain ⟨ha, rfl⟩ := hs
    obtain ⟨q, hq, hqh⟩ | ⟨x, rfl, hs⟩ := handoff_read hw ha hr hh
    · obtain ⟨q', hq', hqh'⟩ | ⟨x', rfl, hs'⟩ := handoff_read hw ha hr' hh'
      · exact ih hq hqh hq' hqh' hid
      · have hmem := handoff_known hw hq hqh
        rw [hid] at hmem
        exact absurd hmem (fresh_of_stored ha hs')
    · obtain ⟨q', hq', hqh'⟩ | ⟨x', hop, hs'⟩ := handoff_read hw ha hr' hh'
      · have hmem := handoff_known hw hq' hqh'
        rw [← hid] at hmem
        exact absurd hmem (fresh_of_stored ha hs)
      · cases hop
        rw [hs] at hs'
        exact some.inj hs'

theorem disposed_handoff (hw : plane.Reachable w) {read : SessionRow}
    {worktreeId repo : Option String} (hread : w.hasRead s read = true)
    (hd : WriteOp.disposes read handoffId worktreeId repo = true) (hrow : w.db.sessions s' = some r)
    (hh : r.terminalHookHandoff = some h) (hid : h.handoffId = handoffId) :
    h.worktreeId = worktreeId ∧ h.mainCheckoutLease = (given repo).isSome := by
  simp only [WriteOp.disposes, Option.any_eq_true, and_eq_true, beq_iff_eq] at hd
  obtain ⟨h', hh', ⟨hid', hw'⟩, hm'⟩ := hd
  rw [handoff_unique hw (hasRead_current hrow) hh hread hh' (hid.trans hid'.symm)]
  exact ⟨hw', hm'⟩

end AutoHarness.Protocol

import AutoHarness.Protocol.Coherent
import AutoHarness.Protocol.Leases
import AutoHarness.Store.CommandStart

/-! Infrastructure replays: how often a session returns to the queue because its checkout could not be fetched or its
host was lost. The retry count bounds them as long as every such write passes its code to the store. -/

namespace AutoHarness.Protocol
open Foundation Store Plane List Bool WriteOp World

/-! ## Which writes are replays -/

namespace WriteOp

def code : WriteOp → Option InfrastructureErrorCode
  | requeue c => c.opts.infrastructureErrorCode
  | finish c _ => c.opts.infrastructureErrorCode
  | releaseMainCheckout _ o _ => o.infrastructureErrorCode
  | _ => none

def reported (c : FinishCall) : Option InfrastructureErrorCode :=
  match c.site with
  | .report msg _ _ account =>
    (requeueEffect (c.plan msg account)).bind fun e =>
      if e.1 = .infrastructure then some (infrastructureCode e.2) else none
  | _ => none

/-- The recovery of a worktree that a keepalive omits sends two requeues: one with the code, and one without it when
that one is lost. -/
def replays : WriteOp → Option InfrastructureErrorCode
  | requeue c =>
    match c.site with
    | .omitted _ _ => if retryableHostLoss c.read then some .hostLost else none
    | _ => c.opts.infrastructureErrorCode
  | finish c _ => if c.opts.status = .queued then c.opts.infrastructureErrorCode.or (reported c) else none
  | releaseMainCheckout _ o _ => if o.status = .queued then o.infrastructureErrorCode else none
  | _ => none

end WriteOp

/-- Whose, of which attempt, for which failure, and whether its command had been authorized before. -/
structure Replay where
  sessionId : String
  attemptId : Option String
  code : InfrastructureErrorCode
  launched : Bool
deriving DecidableEq

def launchedBefore (w : World) (s : String) (a : Option String) : Bool :=
  (w.db :: w.past).any fun d => (d.sessions s).any fun r =>
    a.isSome && r.attemptId == a && r.primaryCommandStartState == some .authorized

def replay (w : World) : Op → List Replay
  | .write x =>
    match transact x.items w.db, x.replays with
    | .committed _, some code =>
      let a := (w.db.sessions x.sessionId).bind (·.attemptId)
      [⟨x.sessionId, a, code, launchedBefore w x.sessionId a⟩]
    | _, _ => []
  | _ => []

/-- Only the authorization, of a running session whose command is not started, changes the start state. -/
def authorizes (r : SessionRow) (n : SessionNotes) : Bool :=
  r.status == .running && r.primaryCommandStartState == some .pending &&
    n.primaryCommandStartState == some .authorized

def notesLaunch (w : World) : Op → Bool
  | .write (.note s n) =>
    (w.db.sessions s).all fun r => n.primaryCommandStartState == r.primaryCommandStartState || authorizes r n
  | _ => true

def launchPlane : System World Op := plane.restrict fun w op => notesLaunch w op = true

variable {w : World}

theorem commandStart_note {o : CommandStart} {db' : Db} (h : transact o.items w.db = .committed db') :
    ∃ n, notesLaunch w (.write (.note o.sessionId n)) = true ∧
      ∀ r, w.db.sessions o.sessionId = some r → db'.sessions = Function.update w.db.sessions o.sessionId (some (n.apply r)) := by
  obtain ⟨r, hrow, hc, rfl⟩ := commandStart_committed h
  obtain ⟨hst, -, -, hp⟩ := CommandStart.condition_iff.mp hc
  refine ⟨⟨r.assignmentSentAt, r.ackReceivedAt, r.assignmentConnectionId, r.reconnectDeadlineAt, some .authorized,
    r.terminalHookLifecycleEnqueuedAt⟩, ?_, fun r' hr' => ?_⟩
  · simp [notesLaunch, hrow, authorizes, hst, hp]
  · rw [hrow] at hr'
    cases hr'
    rfl

/-! ## What the writers do to the retry count and the start state -/

namespace WriteOp

theorem retryCount_next (x : WriteOp) (r : SessionRow) : (x.writer.next r).infrastructureRetryCount =
    if x.code.isSome then some (r.infrastructureRetryCount.getD 0 + 1) else r.infrastructureRetryCount := by
  cases x <;> rfl

variable {x : WriteOp} {r : SessionRow} {e : InfrastructureErrorCode}

/-- Nothing was retried before; for a lost host the command is not started. -/
theorem code_cond (hc : x.writer.cond r = true) (he : x.code = some e) :
    r.infrastructureRetryCount.getD 0 = 0 ∧ (e = .hostLost → r.primaryCommandStartState = some .pending) := by
  have hzero : (∀ n, r.infrastructureRetryCount = some n → n < 1) → r.infrastructureRetryCount.getD 0 = 0 := by
    intro h
    cases hn : r.infrastructureRetryCount with
    | none => rfl
    | some n =>
      have hlt := h n hn
      simp only [Option.getD_some]
      omega
  cases x with
  | requeue c =>
    obtain ⟨-, -, -, -, -, -, -, hcount, hstart⟩ := RequeueOpts.condition_iff.mp hc
    have hne : c.opts.infrastructureErrorCode ≠ none := by
      rw [show c.opts.infrastructureErrorCode = some e from he]
      simp
    exact ⟨hzero (hcount hne), fun hl => hstart (he.trans (by rw [hl]))⟩
  | finish c cleanup =>
    obtain ⟨-, -, -, -, -, -, -, hcode⟩ := FinishSessionOpts.condition_iff.mp hc
    have hne : c.opts.infrastructureErrorCode ≠ none := by
      rw [show c.opts.infrastructureErrorCode = some e from he]
      simp
    exact ⟨hzero (hcode hne).1, fun _ => (hcode hne).2⟩
  | releaseMainCheckout read o cleanup =>
    obtain ⟨-, -, -, -, -, -, -, hcount, hstart, -⟩ := ReleaseMainCheckoutOpts.condition_iff.mp hc
    have hne : o.infrastructureErrorCode ≠ none := by
      rw [show o.infrastructureErrorCode = some e from he]
      simp
    exact ⟨hzero (hcount hne), fun hl => hstart (he.trans (by rw [hl]))⟩
  | _ => cases he

theorem startState_next (hn : notesLaunch w (.write x) = true) (hr : w.db.sessions x.writer.sessionId = some r) :
    (x.writer.next r).primaryCommandStartState = r.primaryCommandStartState ∨
    (x.writer.next r).primaryCommandStartState = none ∨
    (r.status = .running ∧ (x.writer.next r).primaryCommandStartState = some .authorized) := by
  cases x with
  | requeue | releaseMainCheckout => exact .inr (.inl rfl)
  | finish c cleanup =>
    simp only [writer, FinishSessionOpts.finished]
    split
    · exact .inr (.inl rfl)
    · exact .inl rfl
  | note s n =>
    have hrow : w.db.sessions s = some r := hr
    simp only [notesLaunch, hrow, Option.all_some, or_eq_true, beq_iff_eq, authorizes, and_eq_true] at hn
    obtain h | ⟨⟨hst, -⟩, h⟩ := hn
    · exact .inl h
    · exact .inr (.inr ⟨hst, h⟩)
  | _ => exact .inl rfl

theorem queued_of_replays (h : x.replays = some e) : (x.writer.next r).status = .queued := by
  cases x with
  | requeue c => rfl
  | finish | releaseMainCheckout =>
    simp only [replays] at h
    split at h
    · assumption
    · cases h
  | _ => cases h

/-- The settlement of a report, which only a workspace session reaches, and the second requeue of a worktree session
that a keepalive omitted. -/
def unguarded : WriteOp → Bool
  | requeue c =>
    match c.site with
    | .omitted _ _ => retryableHostLoss c.read
    | _ => false
  | finish c _ => (reported c).isSome
  | _ => false

theorem code_of_replays (hg : x.unguarded = false) (h : x.replays = some e) : x.code = some e := by
  cases x with
  | requeue c =>
    simp only [unguarded, replays] at hg h
    split at h
    · rename_i hsite
      rw [hsite] at hg
      rw [if_neg (by simpa using hg)] at h
      cases h
    · exact h
  | finish c cleanup =>
    have hnone : reported c = none := by simpa [unguarded] using hg
    simp only [replays, hnone, Option.or_none] at h
    split at h
    · exact h
    · cases h
  | releaseMainCheckout read o cleanup =>
    simp only [replays] at h
    split at h
    · exact h
    · cases h
  | _ => cases h

end WriteOp

/-! ## Authorized attempts stay authorized -/

section Launches

variable {w : World} {op : Op} {s a : String} {r r' : SessionRow}

/-- The current row, or a terminal row that somebody has read: a terminal row may be written back whole. -/
def Latest (w : World) (s : String) (r : SessionRow) : Prop :=
  w.db.sessions s = some r ∨ (w.hasRead s r = true ∧ r.status.isTerminal = true)

theorem Latest.read (h : Latest w s r) : w.hasRead s r = true := by
  obtain h | h := h
  · exact hasRead_current h
  · exact h.1

theorem latest_apply (h : Latest (w.apply op) s r) :
    (w.act op).1.sessions s = some r ∨ (w.hasRead s r = true ∧ r.status.isTerminal = true) := by
  obtain h | ⟨h, ht⟩ := h
  · exact .inl h
  · obtain h | h := hasRead_apply h
    · exact .inl h
    · exact .inr ⟨h, ht⟩

theorem latest_of_putTimedOut {read : SessionRow} (ha : Op.allowed w (.putTimedOut s read) = true) :
    Latest w s read := by
  simp only [Op.allowed, and_eq_true, beq_iff_eq] at ha
  exact .inr ⟨ha.1.1, by rw [ha.1.2]; rfl⟩

theorem not_terminal_read (hw : plane.Reachable w) (hr : w.db.sessions s = some r) (hact : r.status.isActive = true)
    (hr' : w.hasRead s r' = true) : r'.status.isTerminal = false := by
  obtain ⟨r₀, h₀, hk⟩ := remembers hw s r' hr'
  rw [hr] at h₀
  cases h₀
  rw [SessionStatus.isTerminal_eq_false]
  exact hk.active hact

def NotRelaunched (w : World) : Prop :=
  ∀ s r r' a, w.hasRead s r = true → r.attemptId = some a → r.primaryCommandStartState = some .authorized →
    Latest w s r' → r'.attemptId = some a → r'.primaryCommandStartState ≠ some .pending

/-- Not pending if its attempt was authorized; if authorized, it was before, or the session was running, or the
attempt is new. -/
structure Relaunch (w : World) (s : String) (r' : SessionRow) : Prop where
  notPending : ∀ r a, w.hasRead s r = true → r.attemptId = some a → r.primaryCommandStartState = some .authorized →
    r'.attemptId = some a → r'.primaryCommandStartState ≠ some .pending
  authorized : ∀ a, r'.attemptId = some a → r'.primaryCommandStartState = some .authorized →
    (∃ r, w.hasRead s r = true ∧ r.attemptId = some a ∧ r.primaryCommandStartState = some .authorized) ∨
    (∃ r, w.db.sessions s = some r ∧ r.status = .running) ∨ a ∉ w.attempts

theorem NotRelaunched.of_latest (h : NotRelaunched w) (hl : Latest w s r') : Relaunch w s r' where
  notPending r a hr hra hst := h s r r' a hr hra hst hl
  authorized _ hra hst := .inl ⟨r', hl.read, hra, hst⟩

theorem relaunch_step (hw : plane.Reachable w) (ha : op.allowed w = true) (hn : notesLaunch w op = true)
    (hinv : NotRelaunched w) : ∀ s r', (w.act op).1.sessions s = some r' → Relaunch w s r' := by
  refine rows_step hw ha (fun s r hr => hinv.of_latest (.inl hr)) (fun x r hop h => ?_) (fun x r hop h => ?_)
    (fun s r _ hadm => ?_) (fun s r n hP => ⟨hP.notPending, hP.authorized⟩) (fun s read hop => ?_)
  · subst hop
    have hold := hinv.of_latest (.inl h.row)
    obtain he | he | ⟨hrun, he⟩ := startState_next hn h.row
    · refine ⟨fun r₀ b hr₀ hb hst hb' => ?_, fun b hb hst => ?_⟩
      · rw [x.attemptId_next] at hb'
        rw [he]
        exact hold.notPending r₀ b hr₀ hb hst hb'
      · rw [x.attemptId_next] at hb
        rw [he] at hst
        exact hold.authorized b hb hst
    · exact ⟨fun _ _ _ _ _ _ => by rw [he]; simp, fun _ _ hst => by rw [he] at hst; cases hst⟩
    · exact ⟨fun _ _ _ _ _ _ => by rw [he]; simp, fun _ _ _ => .inr (.inl ⟨r, h.row, hrun⟩)⟩
  · have hfresh : x.opts.attemptId ∉ w.attempts := by
      have hp := attempt_of_allowed ha hop
      simp only [attemptPromised, and_eq_true, not_eq_true', contains_eq_mem, decide_eq_false_iff_not]
        at hp
      exact hp.1.1.1.1
    refine ⟨fun r₀ b hr₀ hb _ hb' => ?_, fun b hb _ => .inr (.inr ?_)⟩
    · rw [h.launched.attemptId] at hb'
      cases hb'
      exact absurd (attempt_known hw _ r₀ hr₀ _ hb) hfresh
    · rw [h.launched.attemptId] at hb
      cases hb
      exact hfresh
  · refine ⟨fun _ _ _ _ _ hb => ?_, fun _ hb _ => ?_⟩ <;>
    · rw [hadm.blank.attemptId] at hb
      cases hb
  · subst hop
    have hold := hinv.of_latest (latest_of_putTimedOut ha)
    exact ⟨hold.notPending, hold.authorized⟩

theorem notRelaunched_step (hw : plane.Reachable w) (ha : op.allowed w = true) (hn : notesLaunch w op = true)
    (hinv : NotRelaunched w) : NotRelaunched (w.apply op) := by
  have hrows := relaunch_step hw ha hn hinv
  intro s r r' a hr hra hst hl hra'
  obtain hr | hr := hasRead_apply hr
  · obtain hl | ⟨hl, hterm⟩ := latest_apply hl
    · rw [hr] at hl
      cases hl
      rw [hst]
      simp
    · -- The row was just authorized, and a terminal row of the same attempt was read before.
      obtain ⟨r₀, hr₀, hra₀, hst₀⟩ | ⟨r₀, hr₀, hrun⟩ | hfresh := (hrows s r hr).authorized a hra hst
      · exact hinv s r₀ r' a hr₀ hra₀ hst₀ (.inr ⟨hl, hterm⟩) hra'
      · rw [not_terminal_read hw hr₀ (by rw [hrun]; rfl) hl] at hterm
        cases hterm
      · exact absurd (attempt_known hw s r' hl a hra') hfresh
  · obtain hl | ⟨hl, hterm⟩ := latest_apply hl
    · exact (hrows s r' hl).notPending r a hr hra hst hra'
    · exact hinv s r r' a hr hra hst (.inr ⟨hl, hterm⟩) hra'

/-- **Run lemma.** In every reachable world an attempt that was once authorized is not pending. -/
theorem notRelaunched (h : launchPlane.Reachable w) : NotRelaunched w := by
  induction h with
  | init hw => exact fun s r r' a hr => absurd hr hw.no_read
  | @step w w' op hw hs ih =>
    obtain ⟨hn, ha, rfl⟩ := hs
    exact notRelaunched_step hw.of_restrict ha hn ih

end Launches

/-! ## At most one replay -/

def guardsReplays : Op → Bool
  | .write x => !x.unguarded
  | _ => true

def replayRuns (ok : World → Op → Bool) : System (World × List Replay) Op :=
  (launchPlane.restrict fun w op => ok w op = true).observe replay

def replayCount (s : String) (seen : List Replay) : ℕ := seen.countP fun e => e.sessionId == s

/-- Replayed at most as often as the row counts and at most once, no launched attempt for a lost host. -/
structure ReplayInv (x : World × List Replay) : Prop where
  counted : ∀ s r, Latest x.1 s r → replayCount s x.2 ≤ r.infrastructureRetryCount.getD 0
  absent : ∀ s, x.1.db.sessions s = none → replayCount s x.2 = 0
  once : ∀ s, replayCount s x.2 ≤ 1
  unlaunched : ∀ e ∈ x.2, e.code = .hostLost → e.launched = false

section Steps

variable {w : World} {op : Op} {seen : List Replay}

theorem replay_cases (w : World) (op : Op) : replay w op = [] ∨
    ∃ x r db' e, op = .write x ∧ transact x.items w.db = .committed db' ∧ x.replays = some e ∧
      w.db.sessions x.sessionId = some r ∧ Wrote x.writer w.db db' r ∧
      replay w op = [⟨x.sessionId, r.attemptId, e, launchedBefore w x.sessionId r.attemptId⟩] := by
  cases op with
  | write x =>
    cases ht : transact x.items w.db with
    | committed db' =>
      cases he : x.replays with
      | none => exact .inl (by simp [replay, ht, he])
      | some e =>
        obtain ⟨r, hr⟩ := wrote ht
        have hrow : w.db.sessions x.sessionId = some r := by rw [← x.writer_sessionId]; exact hr.row
        exact .inr ⟨x, r, db', e, rfl, ht, he, hrow, hr, by simp [replay, ht, he, hrow]⟩
    | cancelled | rejected => exact .inl (by simp [replay, ht])
  | _ => exact .inl rfl

theorem retryCount_assigned {x : Assigning} (hop : op.assigning = some x) (r : SessionRow) :
    (x.next r).infrastructureRetryCount = r.infrastructureRetryCount := by
  cases op <;> cases hop <;> rfl

theorem counted_step (hw : plane.Reachable w) (ha : op.allowed w = true) (hinv : ReplayInv (w, seen)) :
    ∀ s r, (w.act op).1.sessions s = some r → replayCount s seen ≤ r.infrastructureRetryCount.getD 0 := by
  refine rows_step hw ha (fun s r hr => hinv.counted s r (.inl hr)) (fun x r hop h => ?_) (fun x r hop h => ?_)
    (fun s r hs _ => ?_) (fun s r n hP => hP) (fun s read hop => ?_)
  · have hold := hinv.counted _ r (.inl h.row)
    rw [x.retryCount_next]
    split
    · exact Nat.le_succ_of_le hold
    · exact hold
  · rw [retryCount_assigned hop]
    exact hinv.counted _ r (.inl h.checked.row)
  · rw [hinv.absent s hs.1]
    exact Nat.zero_le _
  · subst hop
    exact hinv.counted s read (latest_of_putTimedOut ha)

theorem not_launchedBefore {s : String} {r : SessionRow} (h : NotRelaunched w) (hr : w.db.sessions s = some r)
    (hp : r.primaryCommandStartState = some .pending) : launchedBefore w s r.attemptId = false := by
  by_contra hne
  rw [not_eq_false] at hne
  simp only [launchedBefore, any_eq_true, Option.any_eq_true, and_eq_true, beq_iff_eq] at hne
  obtain ⟨d, hd, r₀, hr₀, ⟨hsome, hatt⟩, hst⟩ := hne
  obtain ⟨a, hra⟩ := Option.isSome_iff_exists.mp hsome
  exact h s r₀ r a (hasRead_iff.mpr ⟨d, hd, hr₀⟩) (hatt.trans hra) hst (.inl hr) hra hp

theorem absent_before (hw : plane.Reachable w) (ha : op.allowed w = true) {s : String}
    (hs : (w.act op).1.sessions s = none) : w.db.sessions s = none := by
  cases hr : w.db.sessions s with
  | none => rfl
  | some r =>
    obtain ⟨r', hr', -⟩ := kept_step (remembers hw) ha hr
    rw [hs] at hr'
    cases hr'

theorem replayInv_step (hw : plane.Reachable w) (hl : NotRelaunched w) (ha : op.allowed w = true)
    (hg : guardsReplays op = true) (hinv : ReplayInv (w, seen)) : ReplayInv (w.apply op, replay w op ++ seen) := by
  obtain he | ⟨x, r, db', e, rfl, ht, hx, hrow, hwrote, he⟩ := replay_cases w op
  · rw [he, nil_append]
    refine ⟨fun s r hr => ?_, fun s hs => hinv.absent s (absent_before hw ha hs), hinv.once, hinv.unlaunched⟩
    obtain hr | hr := latest_apply hr
    · exact counted_step hw ha hinv s r hr
    · exact hinv.counted s r (.inr hr)
  · have hcode := code_of_replays (by simpa [guardsReplays] using hg) hx
    obtain ⟨hzero, hpending⟩ := code_cond hwrote.cond hcode
    have hquiet : replayCount x.sessionId seen = 0 := by
      have hle := hinv.counted _ r (.inl hrow)
      rw [hzero] at hle
      exact Nat.le_zero.mp hle
    have htally : ∀ s, replayCount s (replay w (.write x) ++ seen) =
        (if s = x.sessionId then 1 else 0) + replayCount s seen := by
      intro s
      rw [he, singleton_append, replayCount, countP_cons, Nat.add_comm]
      by_cases hs : s = x.sessionId
      · simp [hs, replayCount]
      · simp [hs, Ne.symm hs, replayCount]
    have hact : (w.act (.write x)).1 = db' := by
      change (transact x.items w.db).state w.db = db'
      rw [ht]
      rfl
    have hactive : r.status.isActive = true := by
      refine (kept (promised_of_allowed ha) hwrote.cond).active ?_
      rw [queued_of_replays hx]
      rfl
    refine ⟨fun s y hy => ?_, fun s hs => ?_, fun s => ?_, fun y hy => ?_⟩
    · rw [htally]
      obtain hy | hy := latest_apply hy
      · rw [hact, hwrote.sessions, x.writer_sessionId] at hy
        by_cases hs : s = x.sessionId
        · subst hs
          rw [Function.update_self] at hy
          cases hy
          rw [if_pos rfl, hquiet, x.retryCount_next, hcode]
          simp
        · rw [Function.update_of_ne hs] at hy
          rw [if_neg hs, Nat.zero_add]
          exact hinv.counted s y (.inl hy)
      · have hs : s ≠ x.sessionId := by
          rintro rfl
          rw [not_terminal_read hw hrow hactive hy.1] at hy
          cases hy.2
        rw [if_neg hs, Nat.zero_add]
        exact hinv.counted s y (.inr hy)
    · have hs' := absent_before hw ha hs
      have hne : s ≠ x.sessionId := by
        rintro rfl
        rw [hrow] at hs'
        cases hs'
      rw [htally, if_neg hne, hinv.absent s hs']
    · rw [htally]
      by_cases hs : s = x.sessionId
      · rw [if_pos hs, hs]
        omega
      · rw [if_neg hs, Nat.zero_add]
        exact hinv.once s
    · rw [he, singleton_append, mem_cons] at hy
      obtain rfl | hy := hy
      · exact fun hlost => not_launchedBefore hl hrow (hpending hlost)
      · exact hinv.unlaunched y hy

end Steps

/-- **Run lemma.** -/
theorem replayInv {x : World × List Replay} (h : (replayRuns fun _ op => guardsReplays op).Reachable x) :
    ReplayInv x := by
  induction h with
  | @init x hx =>
    obtain ⟨w, seen⟩ := x
    obtain ⟨-, rfl⟩ := hx
    exact ⟨fun _ _ _ => Nat.zero_le _, fun _ _ => rfl, fun _ => Nat.zero_le _, nofun⟩
  | @step x y op hx hs ih =>
    obtain ⟨w, seen⟩ := x
    obtain ⟨w', seen'⟩ := y
    obtain ⟨⟨hg, hn, ha, rfl⟩, rfl⟩ := hs
    have hw := hx.of_observe.of_restrict
    exact replayInv_step hw.of_restrict (notRelaunched hw) ha hg ih

/-- In every run whose replays all pass their code, a session is replayed at most once, and no authorized attempt for
a lost host. -/
theorem infrastructure_replays {w : World} {seen : List Replay}
    (h : (replayRuns fun _ op => guardsReplays op).Reachable (w, seen)) :
    (∀ s, replayCount s seen ≤ 1) ∧ ∀ e ∈ seen, e.code = .hostLost → e.launched = false :=
  ⟨(replayInv h).once, (replayInv h).unlaunched⟩

/-! ## Runs -/

/-- As long as each request is allowed and meets `ok`; a request may depend on what its process has read. -/
def World.watch (ok : World → Op → Bool) (x : World × List Replay) : List (World → Op) → Option (World × List Replay)
  | [] => some x
  | next :: ops =>
    if (next x.1).allowed x.1 && (ok x.1 (next x.1) && notesLaunch x.1 (next x.1)) then
      World.watch ok (x.1.apply (next x.1), replay x.1 (next x.1) ++ x.2) ops
    else none

theorem reachable_of_watch {ok : World → Op → Bool} {x y : World × List Replay} {ops : List (World → Op)}
    (hx : (replayRuns ok).Reachable x) (hrun : watch ok x ops = some y) : (replayRuns ok).Reachable y := by
  induction ops generalizing x with
  | nil =>
    cases hrun
    exact hx
  | cons next ops ih =>
    simp only [watch] at hrun
    split at hrun
    · rename_i h
      simp only [and_eq_true] at h
      exact ih (.step hx ⟨⟨h.2.1, h.2.2, h.1, rfl⟩, rfl⟩) hrun
    · cases hrun

theorem exists_of_watch (ok : World → Op → Bool) (ops : List (World → Op)) (p : List Replay → Bool)
    (hrun : (watch ok (smallWorld, []) ops).any (fun y => p y.2) = true) :
    ∃ w seen, (replayRuns ok).Reachable (w, seen) ∧ p seen = true := by
  rw [Option.any_eq_true] at hrun
  obtain ⟨⟨w, seen⟩, hy, hp⟩ := hrun
  have hinit : (replayRuns ok).init (smallWorld, []) := ⟨smallWorld_fresh, rfl⟩
  exact ⟨w, seen, reachable_of_watch (.init hinit) hy, hp⟩

/-- The row of session `s1` as read now. -/
def readNow (w : World) : SessionRow := (w.db.sessions "s1").getD { status := .queued }

/-- The row of session `s1` as read before the latest request. -/
def readBefore (w : World) : SessionRow := (w.past.head?.bind (·.sessions "s1")).getD { status := .queued }

def createOp (type : SessionType) : Op :=
  .createPlain {
    sessionId := "s1", session := { status := .queued, type := type, repositoryId := "repo", queueExpiresAt := 100 } }

def assignSlotOp (attemptId : String) : Op :=
  .assignWorkspace {
    sessionId := "s1", hostId := "h1", connectionId := "k1", now := 1, attemptId := attemptId
    resolvedRoute := {
      targetIndex := 0, commandId := "cmd", hostId := "h1", workspacePoolId := some "pool"
      workspaceSlotId := some "slot1", attemptId := attemptId }
    workspacePoolId := "pool", workspaceSlotId := "slot1" }

def assignWorktreeOp : Op :=
  .assignWorktree {
    sessionId := "s1", hostId := "h1", connectionId := "k1", now := 1, attemptId := "a1"
    resolvedRoute := { targetIndex := 0, commandId := "cmd", hostId := "h1", attemptId := "a1" }
    repositoryId := "repo", worktreeId := "w1" }

/-- The acknowledgement of the assignment, or the authorization of its command after it. -/
def startOp (state : CommandStartState) : Op :=
  .write (.note "s1" {
    assignmentSentAt := some 1, ackReceivedAt := some 2, assignmentConnectionId := some "k1"
    primaryCommandStartState := some state })

/-- The host's deferred report that the checkout could not be fetched, settled from the row it finds. -/
def fetchFailedOp (attemptId : String) (w : World) : Op :=
  .write (.finish
    { sessionId := "s1", read := readNow w, now := 3
      site := .report
        { sessionId := "s1", worktreeId := none, attemptId := attemptId, status := .failed
          errorCode := some "checkout_fetch_failed", deferTerminalHookResult := true } none "handoff" none } none)

def omittedOp (read : SessionRow) (site : RequeueSite) : Op :=
  .write (.requeue { sessionId := "s1", read := read, worktreeId := "w1", site := site })

theorem infrastructure_replays_once :
    ∃ w seen, (replayRuns fun _ op => guardsReplays op).Reachable (w, seen) ∧ replayCount "s1" seen = 1 ∧
      (∀ s, replayCount s seen ≤ 1) ∧ ∀ e ∈ seen, e.code = .hostLost → e.launched = false := by
  obtain ⟨w, seen, h, hp⟩ := exists_of_watch (fun _ op => guardsReplays op)
    [fun _ => createOp .prompt, fun _ => assignWorktreeOp, fun _ => startOp .pending,
      fun w => omittedOp (readNow w) (.omittedHostLoss ⟨"h1", "k1"⟩)]
    (fun seen => replayCount "s1" seen == 1) (by decide)
  exact ⟨w, seen, h, beq_iff_eq.mp hp, infrastructure_replays h⟩

/-- A workspace session is replayed at each deferred fetch failure; a worktree session after its command was
authorized, by the second requeue. -/
theorem infrastructure_replays_unbounded :
    (∃ w seen, (replayRuns fun _ _ => true).Reachable (w, seen) ∧ replayCount "s1" seen = 2) ∧
    ∃ w seen, (replayRuns fun _ _ => true).Reachable (w, seen) ∧
      ∃ e ∈ seen, e.sessionId = "s1" ∧ e.code = .hostLost ∧ e.launched = true := by
  constructor
  · obtain ⟨w, seen, h, hp⟩ := exists_of_watch (fun _ _ => true)
      [fun _ => createOp .workspace, fun _ => assignSlotOp "a1", fetchFailedOp "a1", fun _ => assignSlotOp "a2",
        fetchFailedOp "a2"]
      (fun seen => replayCount "s1" seen == 2) (by decide)
    exact ⟨w, seen, h, beq_iff_eq.mp hp⟩
  · obtain ⟨w, seen, h, hp⟩ := exists_of_watch (fun _ _ => true)
      [fun _ => createOp .prompt, fun _ => assignWorktreeOp, fun _ => startOp .pending, fun _ => startOp .authorized,
        fun w => omittedOp (readBefore w) (.omittedHostLoss ⟨"h1", "k1"⟩),
        fun w => omittedOp ((w.past.tail.head?.bind (·.sessions "s1")).getD { status := .queued })
          (.omitted ⟨"h1", "k1"⟩ "daemon did not report session after reconnect; requeued")]
      (fun seen => seen.any fun e => e.sessionId == "s1" && e.code == .hostLost && e.launched) (by decide)
    simp only [any_eq_true, and_eq_true, beq_iff_eq] at hp
    obtain ⟨e, he, ⟨hs, hc⟩, hl⟩ := hp
    exact ⟨w, seen, h, e, he, hs, hc, hl⟩

/-! ## Sessions over a run -/

variable {w w' : World} {s : String} {r : SessionRow}

/-- Whatever is requested next, no session is lost, changes its concurrency id or becomes active again. -/
theorem run_keeps_sessions {ok : World → Op → Bool} {ops : List Op} (hw : plane.Reachable w)
    (hrun : w.run ok ops = some w') (hr : w.db.sessions s = some r) :
    ∃ r', w'.db.sessions s = some r' ∧ Kept r r' := by
  induction ops generalizing w r with
  | nil =>
    cases hrun
    exact ⟨r, hr, .refl r⟩
  | cons op ops ih =>
    rw [run, Option.ite_none_right_eq_some, and_eq_true] at hrun
    obtain ⟨⟨ha, -⟩, hrun⟩ := hrun
    obtain ⟨r₁, hr₁, hk₁⟩ := kept_step (remembers hw) ha hr
    obtain ⟨r', hr', hk⟩ := ih (.step hw ⟨ha, rfl⟩) hrun hr₁
    exact ⟨r', hr', hk₁.trans hk⟩

theorem run_keeps_sessions_assigned : ∃ w w' r, plane.Reachable w ∧ w.db.sessions "s1" = some r ∧
    w.run (fun _ _ => true) [assignWorktreeOp] = some w' ∧ ∃ r', w'.db.sessions "s1" = some r' ∧ Kept r r' := by
  obtain ⟨w, r, hw, hr, hsome⟩ := exists_row_of_run [createOp .prompt] (s := "s1")
    (P := fun w _ => (w.run (fun _ _ => true) [assignWorktreeOp]).isSome = true) (by decide)
  obtain ⟨w', hrun⟩ := Option.isSome_iff_exists.mp hsome
  exact ⟨w, w', r, hw, hr, hrun, run_keeps_sessions hw hrun hr⟩

/-- A queued session holds nothing, a completed or failed one no worktree or slot, and none holds two checkouts. -/
theorem holdings_fit_status (h : plane.Reachable w) (hr : w.db.sessions s = some r) :
    (r.status = .queued → r.worktreeId.toOption = none ∧ r.workspaceSlotId.toOption = none ∧
      r.mainCheckoutLease = false ∧ r.terminalHookHandoff = none ∧ r.providerAccountLease = none ∧
      r.hostAssignmentLease = none) ∧
    (r.status = .completed ∨ r.status = .failed → r.worktreeId.toOption = none ∧ r.workspaceSlotId.toOption = none) ∧
    (∀ i, r.worktreeId = .value i → r.workspaceSlotId.toOption = none ∧ r.mainCheckoutLease = false) ∧
    (r.mainCheckoutLease = true → r.workspaceSlotId.toOption = none) := by
  have hread := hasRead_current hr
  have hc := coherent h s r hread
  refine ⟨fun hq => ?_, hc.ended, fun i hi => ⟨(hc.worktree hi).1, (hc.worktree hi).2.1⟩, hc.main_slot⟩
  obtain ⟨hworktree, hslot, hmain⟩ := hc.queued hq
  exact ⟨hworktree, hslot, hmain, no_handoff_of_active h hread (by rw [hq]; rfl), queued_unleased h s r hr hq⟩

theorem holdings_fit_status_requeued : ∃ w r r', plane.Reachable w ∧ w.db.sessions "s1" = some r ∧
    r.worktreeId = .value "w1" ∧ r.hostAssignmentLease = some ⟨"h1"⟩ ∧
    (w.apply (omittedOp r (.omittedHostLoss ⟨"h1", "k1"⟩))).db.sessions "s1" = some r' ∧ r'.status = .queued ∧
    r'.worktreeId.toOption = none ∧ r'.hostAssignmentLease = none := by
  obtain ⟨w, r, hw, hr, hworktree, hlease, ha, hp⟩ := exists_row_of_run
    [createOp .prompt, assignWorktreeOp, startOp .pending] (s := "s1")
    (P := fun w r => r.worktreeId = .value "w1" ∧ r.hostAssignmentLease = some ⟨"h1"⟩ ∧
      Op.allowed w (omittedOp r (.omittedHostLoss ⟨"h1", "k1"⟩)) = true ∧
      ((w.apply (omittedOp r (.omittedHostLoss ⟨"h1", "k1"⟩))).db.sessions "s1").any (·.status == .queued) = true)
    (by decide)
  rw [Option.any_eq_true] at hp
  obtain ⟨r', hr', hq⟩ := hp
  have hq := beq_iff_eq.mp hq
  have hfit := (holdings_fit_status (.step hw ⟨ha, rfl⟩) hr').1 hq
  exact ⟨w, r, r', hw, hr, hworktree, hlease, hr', hq, hfit.1, hfit.2.2.2.2.2⟩

end AutoHarness.Protocol

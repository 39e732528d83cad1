import AutoHarness.Protocol.Coherent

/-! Session keys. An assignment to a checkout stores the hash of the key it mints for its attempt. Every write that ends
a run clears the hash, except on a workspace slot, where there is none. -/

namespace AutoHarness.Protocol
open Foundation Store Plane Option

/-- Validate the ephemeral credential against the current run only. -/
def authenticateSessionApiKey (sha256 : String → String) (db : Db) (parentId key : String) : Bool :=
  key.startsWith "hns_session_" && (db.sessions parentId).any fun session =>
    session.status == .running && (given session.sessionApiKeyHash).any (· == sha256 key)

section Keys

variable (key sha256 : String → String)

/-- Attempt `a` stores the hash of its own key `key a`, or none; a new session has none. -/
def Op.mints (w : World) (op : Op) : Bool :=
  ((op.creates w).all fun r => r.sessionApiKeyHash.isNone) && match op with
    | assignWorktree o => o.sessionApiKeyHash.all (· == sha256 (key o.attemptId))
    | assignMainCheckout o => o.sessionApiKeyHash.all (· == sha256 (key o.attemptId))
    | _ => true

def keyPlane : System World Op := plane.restrict fun w op => op.mints key sha256 w = true

def KeyHeld (r : SessionRow) : Prop := ∀ h, r.sessionApiKeyHash = some h →
  r.status = .running ∧ r.workspaceSlotId.toOption = none ∧ ∃ a, r.attemptId = some a ∧ h = sha256 (key a)

variable {key sha256} {r r' : SessionRow} {w : World}

namespace KeyHeld

theorem of_none (h : r.sessionApiKeyHash = none) : KeyHeld key sha256 r := fun _ hh => by
  rw [h] at hh
  cases hh

variable (h : KeyHeld key sha256 r)
include h

theorem hash_eq_none (hst : r.status ≠ .running) : r.sessionApiKeyHash = none :=
  eq_none_iff_forall_ne_some.mpr fun k hk => hst (h k hk).1

theorem same (hk : r'.sessionApiKeyHash = r.sessionApiKeyHash) (hst : r'.status = r.status)
    (hs : r'.workspaceSlotId = r.workspaceSlotId) (ha : r'.attemptId = r.attemptId) : KeyHeld key sha256 r' := by
  intro k hr
  rw [hst, hs, ha]
  exact h k (hk ▸ hr)

/-- A row on a slot has no hash, so that none is left when the slot is given up. -/
theorem of_slot {i a : String} (hc : runningOnSlot i a r = true)
    (hk : r'.sessionApiKeyHash = r.sessionApiKeyHash) : KeyHeld key sha256 r' := by
  simp only [runningOnSlot, Bool.and_eq_true, beq_iff_eq] at hc
  refine of_none (hk.trans (eq_none_iff_forall_ne_some.mpr fun k hr => ?_))
  have hnone := (h k hr).2.1
  rw [hc.1.2] at hnone
  cases hnone

end KeyHeld

theorem WriteOp.keyHeld_next (x : WriteOp) (hc : x.writer.cond r = true) (h : KeyHeld key sha256 r) :
    KeyHeld key sha256 (x.writer.next r) := by
  cases x with
  | requeueUsageLimitedWorkspace | suppressProviderlessWorkspace => exact h.of_slot hc rfl
  | expireQueued read o activity =>
    have hq : r.status = .queued := beq_iff_eq.mp hc
    exact .of_none (h.hash_eq_none (by simp [hq]))
  | releaseCancelled | releaseTimedOutHostAssignment | releaseTimedOutProviderAccountLease
  | forceReleaseProviderAccountLease | settleHandoff | expireHandoff | note => exact h.same rfl rfl rfl rfl
  | _ => exact .of_none rfl

theorem keyHeld_assigned {op : Op} {x : Assigning} (hm : op.mints key sha256 w = true) (hop : op.assigning = some x)
    (h : KeyHeld key sha256 r) (hq : r.status = .queued) (hslot : r.workspaceSlotId.toOption = none) :
    KeyHeld key sha256 (x.next r) := by
  have hnone := h.hash_eq_none (by simp [hq])
  cases op with
  | assignWorktree o =>
    cases hop
    simp only [Op.mints, Op.creates, all_none, Bool.true_and, all_eq_true, beq_iff_eq] at hm
    intro k hk
    change o.sessionApiKeyHash.or r.sessionApiKeyHash = some k at hk
    rw [hnone, or_none] at hk
    exact ⟨rfl, hslot, _, rfl, hm k hk⟩
  | assignMainCheckout o =>
    cases hop
    simp only [Op.mints, Op.creates, all_none, Bool.true_and, all_eq_true, beq_iff_eq] at hm
    intro k hk
    exact ⟨rfl, hslot, _, rfl, hm k (given_eq_some.mp hk).1⟩
  | assignWorkspace o =>
    cases hop
    exact .of_none hnone
  | _ => cases hop

theorem keyHeld (hw : (keyPlane key sha256).Reachable w) : ∀ s r, w.db.sessions s = some r → KeyHeld key sha256 r := by
  induction hw with
  | init hw => exact fun s r hr => absurd hr hw.no_row
  | @step w w' op hw hs ih =>
    obtain ⟨hm, ha, rfl⟩ := hs
    have hplane : plane.Reachable w := hw.of_restrict
    refine rows_step (P := fun _ r => KeyHeld key sha256 r) hplane ha ih (fun x r hop h => ?_) (fun x r hop h => ?_)
      (fun s r hnew _ => .of_none ?_) (fun s r n h => h.same rfl rfl rfl rfl) (fun s read _ => .of_none rfl)
    · exact x.keyHeld_next h.cond (ih _ r h.row)
    · have hcoherent := coherent hplane _ r (World.hasRead_current h.checked.row)
      exact keyHeld_assigned hm hop (ih _ r h.checked.row) h.checked.queued (hcoherent.queued h.checked.queued).2.1
    · simp only [Op.mints, hnew.2, all_some, Bool.and_eq_true, isNone_iff_eq_none] at hm
      exact hm.1

/-- A key authenticates only for the session that is running its attempt. -/
theorem sessionKey_scope (hkey : Function.Injective key) (hsha : Function.Injective sha256)
    (hw : (keyPlane key sha256).Reachable w) {s a : String}
    (hauth : authenticateSessionApiKey sha256 w.db s (key a) = true) :
    ∃ r, w.db.sessions s = some r ∧ r.status = .running ∧ r.attemptId = some a := by
  simp only [authenticateSessionApiKey, Bool.and_eq_true, any_eq_true, beq_iff_eq] at hauth
  obtain ⟨-, r, hr, hrun, hash, hgiven, hhash⟩ := hauth
  obtain ⟨-, -, a', ha, hheld⟩ := keyHeld hw s r hr hash (given_eq_some.mp hgiven).1
  have hsame : a' = a := hkey (hsha (hheld.symm.trans hhash))
  exact ⟨r, hr, hrun, hsame ▸ ha⟩

end Keys

def attemptKey (a : String) : String := "hns_session_" ++ a

/-- The key of the running attempt, with a hash that is the key itself. -/
theorem sessionKey_scope_running : ∃ w, (keyPlane attemptKey id).Reachable w ∧
    authenticateSessionApiKey id w.db "s1" (attemptKey "a1") = true ∧
      ∃ r, w.db.sessions "s1" = some r ∧ r.status = .running ∧ r.attemptId = some "a1" := by
  obtain ⟨w, hw, hauth⟩ := World.exists_reachable_of_run (fun w op => op.mints attemptKey id w)
    [.createPlain { sessionId := "s1", session := { status := .queued, repositoryId := "repo", queueExpiresAt := 100 } },
      .assignWorktree {
        sessionId := "s1", hostId := "h1", connectionId := "k1", now := 1, attemptId := "a1"
        resolvedRoute := { targetIndex := 0, commandId := "cmd", hostId := "h1", attemptId := "a1" }
        repositoryId := "repo", worktreeId := "w1", sessionApiKeyHash := some (attemptKey "a1") }]
    (fun w => authenticateSessionApiKey id w.db "s1" (attemptKey "a1")) smallWorld_fresh (by decide +kernel)
  have hinj : Function.Injective attemptKey := fun a b h => by simpa [attemptKey] using h
  exact ⟨w, hw, hauth, sessionKey_scope hinj Function.injective_id hw hauth⟩

end AutoHarness.Protocol

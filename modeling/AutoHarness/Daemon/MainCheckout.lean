import Mathlib.Data.List.Basic
import AutoHarness.Foundation.Transition

/-! The lock on the main checkout of a repository. A release hands the lock to the first waiter that is not aborted,
while abort listeners take their waiters out of the same queue. -/

namespace AutoHarness.Daemon.MainCheckout
open Foundation Function

/-- The locks of all repositories. Calls of `acquireMain` are numbered as they come; `granted`, `refused` and `released`
record which calls were answered with true, which with false, and which gave the lock back. -/
structure MainLocks where
  mainBusy : String → Bool := fun _ => false
  mainWaiters : String → List ℕ := fun _ => []
  aborted : ℕ → Bool := fun _ => false
  granted : ℕ → Bool := fun _ => false
  refused : ℕ → Bool := fun _ => false
  released : ℕ → Bool := fun _ => false
  next : ℕ := 0

inductive Event
  | acquire
  | abort (signal : ℕ)
  /-- The abort listener of a waiting call runs. -/
  | listener (call : ℕ)
  | release (call : ℕ)

namespace MainLocks

def setWaiters (s : MainLocks) (r : String) (waiters : List ℕ) : MainLocks :=
  { s with mainWaiters := update s.mainWaiters r waiters }

def setBusy (s : MainLocks) (r : String) (busy : Bool) : MainLocks := { s with mainBusy := update s.mainBusy r busy }

def grant (s : MainLocks) (c : ℕ) : MainLocks := { s with granted := update s.granted c true }

def refuse (s : MainLocks) (c : ℕ) : MainLocks := { s with refused := update s.refused c true }

def Holds (s : MainLocks) (c : ℕ) : Prop := s.granted c = true ∧ s.released c = false

section Calls

/-! Call `c` is for the repository `repo c`, with the signal `signal c`. -/

variable (repo : ℕ → String) (signal : ℕ → Option ℕ)

def isAborted (s : MainLocks) (c : ℕ) : Bool := (signal c).any s.aborted

def acquireMain (s : MainLocks) : MainLocks :=
  let c := s.next
  let s := { s with next := c + 1 }
  if s.isAborted signal c then s.refuse c
  else if !s.mainBusy (repo c) then (s.setBusy (repo c) true).grant c
  else s.setWaiters (repo c) (s.mainWaiters (repo c) ++ [c])

def onAbort (s : MainLocks) (c : ℕ) : MainLocks :=
  if c ∈ s.mainWaiters (repo c) then (s.setWaiters (repo c) ((s.mainWaiters (repo c)).erase c)).refuse c else s

def handOver (r : String) : List ℕ → MainLocks → MainLocks
  | [], s => (s.setWaiters r []).setBusy r false
  | c :: rest, s =>
    let s := s.setWaiters r rest
    if s.isAborted signal c then handOver r rest (s.refuse c) else s.grant c

def releaseMain (s : MainLocks) (r : String) : MainLocks :=
  if s.mainBusy r then handOver signal r (s.mainWaiters r) s else s

/-- Any order of calls, aborts, listeners of aborted calls, and releases by calls that hold the lock. -/
def system : System MainLocks Event where
  init s := s = {}
  step s e s' := match e with
    | .acquire => s' = s.acquireMain repo signal
    | .abort i => s' = { s with aborted := update s.aborted i true }
    | .listener c => s.isAborted signal c = true ∧ s' = s.onAbort repo c
    | .release c => s.Holds c ∧ s' = { s with released := update s.released c true }.releaseMain signal (repo c)

/-! ## What holds between the steps -/

/-- The invariant; while `passed` is handed over, its last holder has released and nobody holds it yet. -/
structure Inv (passed : Option String) (s : MainLocks) : Prop where
  busy : ∀ r, s.mainBusy r = true → passed ≠ some r → ∃ c, s.Holds c ∧ repo c = r
  vacant : ∀ r, passed = some r → s.mainBusy r = true ∧ ∀ c, s.Holds c → repo c ≠ r
  holder : ∀ c, s.Holds c → s.mainBusy (repo c) = true
  unique : ∀ c c', s.Holds c → s.Holds c' → repo c = repo c' → c = c'
  fresh : ∀ c, s.next ≤ c → s.granted c = false ∧ s.refused c = false
  kept : ∀ c, s.granted c = false → s.released c = false
  queued : ∀ r, ∀ c ∈ s.mainWaiters r, repo c = r ∧ c < s.next ∧ s.granted c = false ∧ s.refused c = false
  sorted : ∀ r, (s.mainWaiters r).Pairwise (· < ·)
  waiting : ∀ c < s.next, s.granted c = false → s.refused c = false → c ∈ s.mainWaiters (repo c)
  free : ∀ r, s.mainBusy r = false → s.mainWaiters r = []
  once : ∀ c, s.refused c = true → s.granted c = false ∧ s.isAborted signal c = true
  order : ∀ c c', c < c' → repo c = repo c' → s.granted c' = true → s.granted c = false → s.isAborted signal c = true

end Calls

variable {repo : ℕ → String} {signal : ℕ → Option ℕ} {passed : Option String} {s : MainLocks} {r : String} {c : ℕ}
  {waiters rest : List ℕ}

theorem pairwise_setWaiters (r : String) (h : ∀ r, (s.mainWaiters r).Pairwise (· < ·))
    (hw : waiters.Pairwise (· < ·)) (r' : String) : (update s.mainWaiters r waiters r').Pairwise (· < ·) := by
  by_cases hr : r' = r
  · subst hr
    simpa using hw
  · simpa [hr] using h r'

/-- An aborted waiter leaves the queue, wherever it stands. -/
theorem Inv.refuse (h : Inv repo signal passed s) (hc : c ∈ s.mainWaiters r) (haborted : s.isAborted signal c = true) :
    Inv repo signal passed ((s.setWaiters r ((s.mainWaiters r).erase c)).refuse c) := by
  obtain ⟨hrepo, hlt, hgranted, hrefused⟩ := h.queued r c hc
  have hnodup : (s.mainWaiters r).Nodup := (h.sorted r).imp Nat.ne_of_lt
  have hsorted := pairwise_setWaiters r h.sorted ((h.sorted r).sublist (List.erase_sublist (a := c)))
  obtain ⟨hbusy, hvacant, hholder, hunique, hfresh, hkept, hqueued, -, hwaiting, hfree, honce, horder⟩ := h
  simp only [Holds, isAborted] at *
  constructor <;> simp only [Holds, isAborted, setWaiters, MainLocks.refuse] <;> grind

/-- The first waiter gets the lock: those before it in the order of the calls have been answered or are aborted. -/
theorem Inv.grant (h : Inv repo signal (some r) s) (hq : s.mainWaiters r = c :: rest) :
    Inv repo signal none ((s.setWaiters r rest).grant c) := by
  obtain ⟨hrepo, hlt, hgranted, hrefused⟩ := h.queued r c (by rw [hq]; exact List.mem_cons_self)
  have hfirst := h.sorted r
  rw [hq, List.pairwise_cons] at hfirst
  have hsorted := pairwise_setWaiters r h.sorted hfirst.2
  obtain ⟨hbusy, hvacant, hholder, hunique, hfresh, hkept, hqueued, -, hwaiting, hfree, honce, horder⟩ := h
  simp only [Holds, isAborted, Option.some.injEq, ne_eq] at *
  constructor <;> simp only [Holds, isAborted, setWaiters, MainLocks.grant] <;> grind

theorem Inv.handOver (h : Inv repo signal (some r) s) (hq : s.mainWaiters r = waiters) :
    Inv repo signal none (handOver signal r waiters s) := by
  induction waiters generalizing s with
  | nil =>
    obtain ⟨hbusy, hvacant, hholder, hunique, hfresh, hkept, hqueued, hsorted, hwaiting, hfree, honce, horder⟩ := h
    simp only [Holds, isAborted, Option.some.injEq, ne_eq] at *
    constructor <;> simp only [Holds, isAborted, MainLocks.handOver, setWaiters, setBusy] <;> grind
  | cons c rest ih =>
    rw [MainLocks.handOver]
    split
    · next hc =>
      refine ih ?_ (by simp [setWaiters, MainLocks.refuse])
      have hrefuse := h.refuse (by rw [hq]; exact List.mem_cons_self) hc
      rwa [hq, List.erase_cons_head] at hrefuse
    · exact h.grant hq

theorem Inv.acquireMain (h : Inv repo signal none s) : Inv repo signal none (s.acquireMain repo signal) := by
  have hsorted := pairwise_setWaiters (repo s.next) h.sorted
    (List.pairwise_append.mpr ⟨h.sorted (repo s.next), List.pairwise_singleton _ s.next, fun c hc _ hn => by
      rw [List.mem_singleton.mp hn]
      exact (h.queued _ c hc).2.1⟩)
  obtain ⟨hbusy, hvacant, hholder, hunique, hfresh, hkept, hqueued, hold, hwaiting, hfree, honce, horder⟩ := h
  unfold MainLocks.acquireMain
  simp only [Holds, isAborted, ne_eq] at *
  split
  · constructor <;> simp only [Holds, isAborted, MainLocks.refuse] <;> grind
  split
  · constructor <;> simp only [Holds, isAborted, setBusy, MainLocks.grant] <;> grind
  · constructor <;> simp only [Holds, isAborted, setWaiters] <;> grind

theorem Inv.abort (i : ℕ) (h : Inv repo signal none s) :
    Inv repo signal none { s with aborted := update s.aborted i true } := by
  have hmono : ∀ c, s.isAborted signal c = true →
      ({ s with aborted := update s.aborted i true } : MainLocks).isAborted signal c = true := by
    intro c hc
    cases hj : signal c with
    | none => simp [isAborted, hj] at hc
    | some j => by_cases hij : j = i <;> simp_all [isAborted]
  exact { h with
    once c hc := ⟨(h.once c hc).1, hmono c (h.once c hc).2⟩
    order c c' hlt hrepo hc' hc := hmono c (h.order c c' hlt hrepo hc' hc) }

theorem Inv.releaseMain (h : Inv repo signal none s) (hc : s.Holds c) :
    Inv repo signal none ({ s with released := update s.released c true }.releaseMain signal (repo c)) := by
  have hbusy := h.holder c hc
  rw [MainLocks.releaseMain, if_pos hbusy]
  refine Inv.handOver ?_ rfl
  obtain ⟨hbusy, hvacant, hholder, hunique, hfresh, hkept, hqueued, hsorted, hwaiting, hfree, honce, horder⟩ := h
  simp only [Holds, isAborted, ne_eq] at *
  constructor <;> simp only [Holds, isAborted] <;> grind

theorem Inv.of_reachable (h : (system repo signal).Reachable s) : Inv repo signal none s := by
  refine h.invariant ?_ fun s e s' _ ih hs => ?_
  · rintro _ rfl
    exact ⟨nofun, nofun, nofun, nofun, fun _ _ => ⟨rfl, rfl⟩, fun _ _ => rfl, nofun, fun _ => .nil, nofun,
      fun _ _ => rfl, nofun, nofun⟩
  · cases e with
    | acquire => exact hs ▸ ih.acquireMain
    | abort i => exact hs ▸ ih.abort i
    | listener c =>
      obtain ⟨haborted, rfl⟩ := hs
      rw [onAbort]
      split
      · next hc => exact ih.refuse hc haborted
      · exact ih
    | release c => exact hs.2 ▸ ih.releaseMain hs.1

/-- **The lock on the main checkout.** In every run, at most one call holds the lock of a repository; a call that was
answered with false has never been granted the lock; calls that are not aborted get it in their order; and a lock that
nobody holds is free, with nobody waiting for it. -/
theorem mainCheckout_lock (h : (system repo signal).Reachable s) :
    (∀ c c', s.Holds c → s.Holds c' → repo c = repo c' → c = c') ∧ (∀ c, s.refused c = true → s.granted c = false) ∧
    (∀ c c', c < c' → repo c = repo c' → s.granted c' = true → s.isAborted signal c = false → s.granted c = true) ∧
    ∀ r, (∀ c, s.Holds c → repo c ≠ r) → s.mainBusy r = false ∧ s.mainWaiters r = [] := by
  have hinv := Inv.of_reachable h
  refine ⟨hinv.unique, fun c hc => (hinv.once c hc).1, fun c c' hlt hrepo hc' hc => ?_, fun r hnobody => ?_⟩
  · by_contra hnot
    rw [hinv.order c c' hlt hrepo hc' (Bool.eq_false_iff.mpr hnot)] at hc
    cases hc
  · have hfree : s.mainBusy r = false := by
      by_contra hbusy
      obtain ⟨c, hc, hr⟩ := hinv.busy r (by simpa using hbusy) nofun
      exact hnobody c hc hr
    exact ⟨hfree, hinv.free r hfree⟩

/-- Three calls for one repository; the second is aborted while it waits, so the first holder's release gives the lock
to the third. -/
theorem mainCheckout_lock_skips :
    ∃ s, (system (fun _ => "repo") some).Reachable s ∧ s.refused 1 = true ∧ s.Holds 2 ∧ ∀ c, s.Holds c → 2 = c := by
  let acquire := acquireMain (fun _ => "repo") some
  have hcalls : (system (fun _ => "repo") some).Reachable (acquire (acquire (acquire {}))) :=
    .step (a := .acquire) (.step (a := .acquire) (.step (a := .acquire) (.init rfl) rfl) rfl) rfl
  have habort : (system (fun _ => "repo") some).Reachable
      { acquire (acquire (acquire {})) with aborted := update (fun _ => false) 1 true } := hcalls.step (a := .abort 1) rfl
  have h := habort.step (a := Event.release 0) ⟨⟨rfl, rfl⟩, rfl⟩
  exact ⟨_, h, rfl, ⟨rfl, rfl⟩, fun c hc => (mainCheckout_lock h).1 2 c ⟨rfl, rfl⟩ hc rfl⟩

end MainLocks

end AutoHarness.Daemon.MainCheckout

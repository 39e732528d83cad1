import AutoHarness.Foundation.Transition
import AutoHarness.Logs.Buffer

/-! Several attempts of one session over one object store. No key names the attempt, so a later attempt may overwrite
or hide what an earlier one stored. -/

namespace AutoHarness.Logs
open Foundation Function List
open OrderedMap (mem_set_iff)

/-- The buffer of every attempt, the objects, and the parts committed so far with their attempts. -/
structure Attempts where
  buffers : ℕ → LogPartBuffer
  objects : LogObjects
  committed : List (ℕ × List SessionLogChunk) := []

namespace Attempts

def commit (s : Attempts) (attempt : ℕ) : Option Upload → List (ℕ × List SessionLogChunk)
  | some (.part batch) => s.committed ++ [(attempt, batch)]
  | _ => s.committed

def next (sessionId : String) (s : Attempts) (label : ℕ × Event) : Option Attempts :=
  (step sessionId (s.buffers label.1, s.objects) label.2).map fun moved =>
    { buffers := Function.update s.buffers label.1 moved.1
      objects := moved.2
      committed := s.commit label.1 (upload (s.buffers label.1) label.2) }

/-- Every attempt starts with an empty buffer and its own counter; nothing of the session is stored. -/
def system (sessionId : String) : System Attempts (ℕ × Event) where
  init s := (∀ attempt, ∃ nextSeq, s.buffers attempt = { nextSeq := nextSeq }) ∧
    (∀ e ∈ s.objects.entries, e.1.sessionId ≠ sessionId) ∧ s.committed = []
  step s label s' := s.next sessionId label = some s'

/-- A part goes under a range of no other attempt while no archive is stored, an archive is stored by an attempt that
alone has parts. -/
def LeavesOthers (sessionId : String) (s : Attempts) (label : ℕ × Event) : Prop :=
  match upload (s.buffers label.1) label.2 with
  | none => True
  | some (.part batch) =>
    (∀ e ∈ s.objects.entries, e.1 ≠ sessionLogArchiveKey sessionId) ∧
    ∀ x ∈ s.committed, x.1 ≠ label.1 → sessionLogPartKey sessionId x.2 ≠ sessionLogPartKey sessionId batch
  | some .archive => ∀ x ∈ s.committed, x.1 = label.1

instance (sessionId : String) (s : Attempts) (label : ℕ × Event) : Decidable (s.LeavesOthers sessionId label) := by
  unfold LeavesOthers
  split <;> infer_instance

/-- Every committed part is stored as it was, and an archive holds all that was committed. -/
structure Retained (sessionId : String) (s : Attempts) : Prop where
  kept : ∀ attempt, Kept (s.buffers attempt)
  sent : ∀ x ∈ s.committed, Sent (s.buffers x.1) x.2
  parts : ∀ x ∈ s.committed, (sessionLogPartKey sessionId x.2, x.2) ∈ s.objects.entries
  archive : ∀ chunks, (sessionLogArchiveKey sessionId, chunks) ∈ s.objects.entries →
    ∃ attempt, chunks = (s.buffers attempt).pushed ∧ Settled (s.buffers attempt) ∧
      ∀ x ∈ s.committed, x.1 = attempt

section Retained

variable {sessionId : String} {s s' : Attempts} {attempt : ℕ} {b : LogPartBuffer} {x : ℕ × List SessionLogChunk}

theorem retained_init (h : (system sessionId).init s) : Retained sessionId s where
  kept attempt := by
    obtain ⟨nextSeq, e⟩ := h.1 attempt
    rw [e]
    exact Kept.start nextSeq
  sent x hx := by
    rw [h.2.2] at hx
    cases hx
  parts x hx := by
    rw [h.2.2] at hx
    cases hx
  archive chunks hmem := absurd rfl (h.2.1 _ hmem)

theorem kept_update (h : ∀ a, Kept (s.buffers a)) (hb : Kept b) (a : ℕ) : Kept (update s.buffers attempt b a) := by
  by_cases ha : a = attempt
  · subst ha
    rwa [update_self]
  · rw [update_of_ne ha]
    exact h a

theorem sent_update (hsent : ∀ x, Sent (s.buffers attempt) x → Sent b x) (hx : Sent (s.buffers x.1) x.2) :
    Sent (update s.buffers attempt b x.1) x.2 := by
  by_cases ha : x.1 = attempt
  · rw [ha, update_self]
    exact hsent _ (ha ▸ hx)
  · rwa [update_of_ne ha]

section Moves

variable {attempt : ℕ} {b' : LogPartBuffer} (h : Retained sessionId s) (hkept : Kept b')

include h hkept

theorem Retained.still (hsent : ∀ x, Sent b' x ↔ Sent (s.buffers attempt) x)
    (hrest : Settled (s.buffers attempt) → b'.pushed = (s.buffers attempt).pushed ∧ Settled b') :
    Retained sessionId { s with buffers := update s.buffers attempt b' } where
  kept := kept_update h.kept hkept
  sent x hx := sent_update (fun x => (hsent x).mpr) (h.sent x hx)
  parts := h.parts
  archive chunks hmem := by
    obtain ⟨a, hchunks, hsettled, hall⟩ := h.archive chunks hmem
    refine ⟨a, ?_⟩
    dsimp only
    by_cases ha : a = attempt
    · subst ha
      rw [update_self, (hrest hsettled).1]
      exact ⟨hchunks, (hrest hsettled).2, hall⟩
    · rw [update_of_ne ha]
      exact ⟨hchunks, hsettled, hall⟩

theorem Retained.part {batch : List SessionLogChunk} (hflushing : (s.buffers attempt).flushing = some batch)
    (hsent : ∀ x, Sent b' x ↔ Sent (s.buffers attempt) x ∨ x = batch)
    (hnoArchive : ∀ e ∈ s.objects.entries, e.1 ≠ sessionLogArchiveKey sessionId)
    (hother : ∀ x ∈ s.committed, x.1 ≠ attempt → sessionLogPartKey sessionId x.2 ≠ sessionLogPartKey sessionId batch) :
    Retained sessionId { buffers := update s.buffers attempt b'
                         objects := putSessionLogPart s.objects sessionId batch
                         committed := s.committed ++ [(attempt, batch)] } where
  kept := kept_update h.kept hkept
  sent x hx := by
    rcases mem_append.mp hx with hx | hx
    · exact sent_update (fun x hx => (hsent x).mpr (.inl hx)) (h.sent x hx)
    · rw [mem_singleton.mp hx]
      dsimp only
      rw [update_self]
      exact (hsent batch).mpr (.inr rfl)
  parts x hx := by
    rw [putSessionLogPart, mem_set_iff]
    rcases mem_append.mp hx with hx | hx
    · by_cases hkey : sessionLogPartKey sessionId x.2 = sessionLogPartKey sessionId batch
      · -- the same range can only be the attempt's own, and then it is the same batch
        have ha : x.1 = attempt := not_not.mp fun hne => hother x hx hne hkey
        have hkeptb := h.kept attempt
        have hbatch := And.intro (hkeptb.flushing batch hflushing) (hkeptb.infix_flushing hflushing)
        rw [hkeptb.eq_of_partKey_eq (hkeptb.sent (ha ▸ h.sent x hx)) hbatch hkey]
        exact .inl rfl
      · exact .inr ⟨h.parts x hx, hkey⟩
    · rw [mem_singleton.mp hx]
      exact .inl rfl
  archive chunks hmem := by
    rw [putSessionLogPart, mem_set_iff] at hmem
    rcases hmem with heq | ⟨hmem, -⟩
    · cases heq
    · exact absurd rfl (hnoArchive _ hmem)

theorem Retained.archived (hsent : ∀ x, Sent (s.buffers attempt) x → Sent b' x) (hsettled : Settled b')
    (hall : ∀ x ∈ s.committed, x.1 = attempt) :
    Retained sessionId { buffers := update s.buffers attempt b'
                         objects := putSessionLogArchive s.objects sessionId b'.pushed
                         committed := s.committed } where
  kept := kept_update h.kept hkept
  sent x hx := sent_update hsent (h.sent x hx)
  parts x hx := by
    rw [putSessionLogArchive, mem_set_iff]
    exact .inr ⟨h.parts x hx, by rintro ⟨⟩⟩
  archive chunks hmem := by
    rw [putSessionLogArchive, mem_set_iff] at hmem
    refine ⟨attempt, ?_⟩
    dsimp only
    rw [update_self]
    rcases hmem with heq | ⟨-, hne⟩
    · cases heq
      exact ⟨rfl, hsettled, hall⟩
    · exact absurd rfl hne

end Moves

theorem Retained.step {label : ℕ × Event} (h : Retained sessionId s) (hok : s.LeavesOthers sessionId label)
    (hs : s.next sessionId label = some s') : Retained sessionId s' := by
  obtain ⟨attempt, event⟩ := label
  obtain ⟨moved, hstep, rfl⟩ := Option.map_eq_some_iff.mp hs
  obtain ⟨hkept, hmoved⟩ := (h.kept attempt).step hstep
  unfold LeavesOthers at hok
  generalize upload (s.buffers attempt) event = stored at hok hmoved
  generalize hb : s.buffers attempt = b at hmoved
  cases hmoved with
  | still hsent _ hrest =>
    subst hb
    exact h.still hkept hsent hrest
  | part hflushing hsent _ _ =>
    subst hb
    exact h.part hkept hflushing hsent hok.1 hok.2
  | archive hsettled =>
    subst hb
    exact h.archived hkept (fun _ hx => hx) hsettled hok

theorem Retained.read (h : Retained sessionId s) (hx : x ∈ s.committed) {c : SessionLogChunk} (hc : c ∈ x.2) :
    toLogRecord sessionId c ∈ (readSessionLogObjects s.objects sessionId).getD [] := by
  by_cases harchive : ∃ chunks, (sessionLogArchiveKey sessionId, chunks) ∈ s.objects.entries
  · obtain ⟨chunks, hmem⟩ := harchive
    obtain ⟨attempt, rfl, -, hall⟩ := h.archive chunks hmem
    rw [readObjects_of_archive hmem, Option.getD_some, mem_insertionSort, ← hall x hx]
    exact mem_map_of_mem (((h.kept x.1).sent (h.sent x hx)).2.subset hc)
  · rw [readObjects_of_parts fun e he hkey => harchive ⟨e.2, hkey ▸ he⟩, mem_insertionSort, mem_flatMap]
    have hlisted : (sessionLogPartKey sessionId x.2, x.2) ∈ sessionObjects s.objects sessionId :=
      mem_filter.mpr ⟨h.parts x hx, decide_eq_true rfl⟩
    exact ⟨_, (mem_insertionSort _).mpr hlisted, mem_map_of_mem hc⟩

end Retained

/-- In every such run every chunk of every committed part is read. -/
theorem committed_parts_read (sessionId : String) (s : Attempts)
    (h : ((system sessionId).restrict (LeavesOthers sessionId)).Reachable s) :
    ∀ x ∈ s.committed, ∀ c ∈ x.2, toLogRecord sessionId c ∈ (readSessionLogObjects s.objects sessionId).getD [] := by
  have hretained : Retained sessionId s := by
    refine h.invariant (fun _ hinit => ?_) fun _ _ _ _ hr hs => ?_
    · exact retained_init hinit
    · exact Retained.step hr hs.1 hs.2
  exact fun x hx c hc => hretained.read hx hc

/-- The second attempt goes on with the numbers of the first. -/
def continued : Attempts := { buffers := fun attempt => { nextSeq := attempt }, objects := OrderedMap.empty }

def nextLeaving (s : Attempts) (label : ℕ × Event) : Option Attempts :=
  if s.LeavesOthers "s" label then s.next "s" label else none

def uploadOf (attempt : ℕ) (content : String) : List (ℕ × Event) :=
  [(attempt, .push 0 .stdout content none), (attempt, .flush), (attempt, .answered .stored)]

theorem committed_parts_read_continued : ∃ s, (uploadOf 0 "a" ++ uploadOf 1 "b").foldlM nextLeaving continued = some s ∧
    s.committed.length = 2 ∧ ∀ x ∈ s.committed, ∀ c ∈ x.2,
      toLogRecord "s" c ∈ (readSessionLogObjects s.objects "s").getD [] := by
  have hstart : ((system "s").restrict (LeavesOthers "s")).Reachable continued :=
    .init ⟨fun attempt => ⟨attempt, rfl⟩, (fun _ he => nomatch he), rfl⟩
  refine ⟨_, rfl, rfl, committed_parts_read "s" _ (hstart.foldlM (fun s label s' hs => ?_)
    (show (uploadOf 0 "a" ++ uploadOf 1 "b").foldlM nextLeaving continued = some _ from rfl))⟩
  unfold nextLeaving at hs
  split at hs
  · next hok => exact ⟨hok, hs⟩
  · cases hs

/-- A second attempt that counts from zero overwrites a part; one that goes on counting hides it behind its archive.
-/
theorem committed_parts_lost : (∃ s, (uploadOf 0 "a" ++ uploadOf 1 "b").foldlM (next "s")
        { buffers := fun _ => {}, objects := OrderedMap.empty } = some s ∧
      s.committed.map (fun x => (x.1, x.2.map (·.content))) = [(0, ["a"]), (1, ["b"])] ∧
      ((readSessionLogObjects s.objects "s").getD []).map (·.content) = ["b"]) ∧
    ∃ s, (uploadOf 0 "a" ++ uploadOf 1 "b" ++ [(1, Event.flushFinal), (1, Event.archive .stored)]).foldlM (next "s") continued =
        some s ∧
      s.committed.map (fun x => (x.1, x.2.map (·.content))) = [(0, ["a"]), (1, ["b"])] ∧
      ((readSessionLogObjects s.objects "s").getD []).map (·.content) = ["b"] :=
  ⟨⟨_, rfl, by decide +kernel, by decide +kernel⟩, ⟨_, rfl, by decide +kernel, by decide +kernel⟩⟩

end Attempts

end AutoHarness.Logs

import AutoHarness.Logs.Objects

/-! The buffer of log parts of one attempt: chunks are pushed, flushed in batches whose upload may fail, and archived.
-/

namespace AutoHarness.Logs
open Foundation List Option Bool

/-- What becomes of a PUT: stored and reported ok, not stored and reported failed, or stored and reported
failed. -/
inductive PutOutcome where
  | stored | lost | unconfirmed
deriving DecidableEq, Repr

/-- It uploads always; the counter is that of the streamer, and the last three fields record what has happened. -/
structure LogPartBuffer where
  nextSeq : ℕ := 0
  pending : List SessionLogChunk := []
  /-- The batch of the PUT in flight: flushes run one after the other. -/
  flushing : Option (List SessionLogChunk) := none
  uploaded : List (List SessionLogChunk) := []
  /-- `flushFinal` was called: the run is over and nothing more is pushed. -/
  closed : Bool := false
  pushed : List SessionLogChunk := []
  unconfirmed : List (List SessionLogChunk) := []
  archived : Bool := false
deriving DecidableEq

inductive Event where
  | push (timestamp : ℕ) (stream : LogStream) (content : String) (dropped : Option ℕ)
  | flush
  | answered (outcome : PutOutcome)
  | flushFinal
  | archive (outcome : PutOutcome)
deriving DecidableEq, Repr

namespace LogPartBuffer

def push (b : LogPartBuffer) (chunk : SessionLogChunk) : LogPartBuffer :=
  { b with nextSeq := b.nextSeq + 1, pending := b.pending ++ [chunk], pushed := b.pushed ++ [chunk] }

/-- The beginning of `flushOnce`: the pending chunks become the batch of a PUT. -/
def flush (b : LogPartBuffer) : LogPartBuffer :=
  if b.pending.isEmpty then b else { b with pending := [], flushing := some b.pending }

/-- The end of `flushOnce`: a batch that was not reported ok goes back in front of the newer chunks. -/
def answered (b : LogPartBuffer) (batch : List SessionLogChunk) : PutOutcome → LogPartBuffer
  | .stored => { b with flushing := none, uploaded := b.uploaded ++ [batch] }
  | .lost => { b with flushing := none, pending := batch ++ b.pending }
  | .unconfirmed =>
    { b with flushing := none, pending := batch ++ b.pending, unconfirmed := b.unconfirmed ++ [batch] }

/-- `flushFinal` is past its flush and has something to archive. -/
def archives (b : LogPartBuffer) : Bool :=
  b.closed && b.flushing.isNone && b.pending.isEmpty && !b.uploaded.isEmpty

end LogPartBuffer

def PutOutcome.apply (outcome : PutOutcome) (objects stored : LogObjects) : LogObjects :=
  match outcome with
  | .lost => objects
  | _ => stored

def step (sessionId : String) (s : LogPartBuffer × LogObjects) : Event → Option (LogPartBuffer × LogObjects)
  | .push timestamp stream content dropped =>
    if s.1.closed then none
    else some (s.1.push ⟨timestamp, stream, content, s.1.nextSeq, dropped⟩, s.2)
  | .flush => if s.1.flushing.isSome then none else some (s.1.flush, s.2)
  | .answered outcome =>
    match s.1.flushing with
    | none => none
    | some batch => some (s.1.answered batch outcome, outcome.apply s.2 (putSessionLogPart s.2 sessionId batch))
  | .flushFinal => if s.1.closed then none else some ({ s.1 with closed := true }, s.2)
  | .archive outcome =>
    if s.1.archives then
      some ({ s.1 with archived := s.1.archived || outcome != .lost },
        outcome.apply s.2 (putSessionLogArchive s.2 sessionId s.1.uploaded.flatten))
    else none

inductive Upload where
  | part (batch : List SessionLogChunk)
  | archive
deriving DecidableEq

def upload (b : LogPartBuffer) : Event → Option Upload
  | .answered outcome => if outcome = .lost then none else b.flushing.map .part
  | .archive outcome => if outcome = .lost then none else some .archive
  | _ => none

/-! ## Batches and their ranges -/

section Ranges

variable {batch : List SessionLogChunk}

theorem seqStart_spec (h : batch ≠ []) : (∃ c ∈ batch, c.seq = seqStart batch) ∧ ∀ c ∈ batch, seqStart batch ≤ c.seq := by
  unfold seqStart
  cases hm : (batch.map (·.seq)).min? with
  | none => exact absurd (map_eq_nil_iff.mp (min?_eq_none_iff.mp hm)) h
  | some m =>
    obtain ⟨hmem, hle⟩ := min?_eq_some_iff.mp hm
    obtain ⟨c, hc, hcm⟩ := mem_map.mp hmem
    exact ⟨⟨c, hc, hcm⟩, fun c hc => hle _ (mem_map_of_mem hc)⟩

theorem seqEnd_spec (h : batch ≠ []) : (∃ c ∈ batch, c.seq = seqEnd batch) ∧ ∀ c ∈ batch, c.seq ≤ seqEnd batch := by
  unfold seqEnd
  cases hm : (batch.map (·.seq)).max? with
  | none => exact absurd (map_eq_nil_iff.mp (max?_eq_none_iff.mp hm)) h
  | some m =>
    obtain ⟨hmem, hle⟩ := max?_eq_some_iff.mp hm
    obtain ⟨c, hc, hcm⟩ := mem_map.mp hmem
    exact ⟨⟨c, hc, hcm⟩, fun c hc => hle _ (mem_map_of_mem hc)⟩

variable {l batch' : List SessionLogChunk} (hl : Increasing (·.seq) l)

include hl

variable (h : batch <:+: l)
include h

theorem increasing_piece : Increasing (·.seq) batch :=
  List.Pairwise.sublist h.sublist hl

theorem mem_infix_iff (hne : batch ≠ []) {c : SessionLogChunk} :
    c ∈ batch ↔ c ∈ l ∧ seqStart batch ≤ c.seq ∧ c.seq ≤ seqEnd batch := by
  obtain ⟨⟨s, hs, hs'⟩, hmin⟩ := seqStart_spec hne
  obtain ⟨⟨e, he, he'⟩, hmax⟩ := seqEnd_spec hne
  obtain ⟨before, after, rfl⟩ := h
  constructor
  · intro hc
    exact ⟨mem_append_left _ (mem_append_right _ hc), hmin c hc, hmax c hc⟩
  · rintro ⟨hc, h1, h2⟩
    rcases mem_append.mp hc with hc | hc
    · rcases mem_append.mp hc with hc | hc
      · -- before the piece all numbers are lower
        rw [append_assoc] at hl
        have := hl.lt_of_append hc (mem_append_left _ hs)
        omega
      · exact hc
    · have := hl.lt_of_append (mem_append_right _ he) hc
      omega

theorem infix_eq_of_range_eq (h' : batch' <:+: l)
    (hne : batch ≠ []) (hne' : batch' ≠ []) (hs : seqStart batch = seqStart batch')
    (he : seqEnd batch = seqEnd batch') : batch = batch' := by
  refine (increasing_piece hl h').eq_of_mem_iff (increasing_piece hl h) fun c => ?_
  rw [mem_infix_iff hl h hne, mem_infix_iff hl h' hne', hs, he]

end Ranges

/-! ## What a buffer holds -/

/-- Every pushed chunk is uploaded, in flight or pending, in order. -/
structure Kept (b : LogPartBuffer) : Prop where
  chunks : b.uploaded.flatten ++ (b.flushing.getD [] ++ b.pending) = b.pushed
  increasing : Increasing (·.seq) b.pushed
  next : ∀ c ∈ b.pushed, c.seq < b.nextSeq
  uploaded : ∀ batch ∈ b.uploaded, batch ≠ []
  flushing : ∀ batch, b.flushing = some batch → batch ≠ []
  unconfirmed : ∀ batch ∈ b.unconfirmed, batch ≠ [] ∧ batch <:+: b.pushed

theorem Kept.start (nextSeq : ℕ) : Kept { nextSeq := nextSeq } where
  chunks := rfl
  increasing := List.Pairwise.nil
  next := fun _ hc => absurd hc not_mem_nil
  uploaded := fun _ hb => absurd hb not_mem_nil
  flushing := fun _ hb => nomatch hb
  unconfirmed := fun _ hb => absurd hb not_mem_nil

section Kept

variable {b : LogPartBuffer}

variable {batch : List SessionLogChunk}

section

variable (h : Kept b)
include h

theorem Kept.infix_uploaded (hb : batch ∈ b.uploaded) : batch <:+: b.pushed := by
  obtain ⟨before, after, he⟩ := append_of_mem hb
  rw [← h.chunks, he, flatten_append, flatten_cons]
  exact ⟨before.flatten, after.flatten ++ (b.flushing.getD [] ++ b.pending), by simp only [append_assoc]⟩

theorem Kept.infix_flushing (hb : b.flushing = some batch) : batch <:+: b.pushed := by
  rw [← h.chunks, hb, getD_some]
  exact ⟨b.uploaded.flatten, b.pending, by rw [append_assoc]⟩

theorem Kept.push {chunk : SessionLogChunk} (hseq : chunk.seq = b.nextSeq) : Kept (b.push chunk) where
  chunks := by
    change b.uploaded.flatten ++ (b.flushing.getD [] ++ (b.pending ++ [chunk])) = b.pushed ++ [chunk]
    rw [← h.chunks]
    simp only [append_assoc]
  increasing := h.increasing.append (pairwise_singleton _ _) fun a ha c hc => by
    rw [mem_singleton.mp hc, hseq]
    exact h.next a ha
  next := fun c hc => by
    rcases mem_append.mp hc with hc | hc
    · exact Nat.lt_succ_of_lt (h.next c hc)
    · rw [mem_singleton.mp hc, hseq]
      exact Nat.lt_succ_self _
  uploaded := h.uploaded
  flushing := h.flushing
  unconfirmed := fun batch hb =>
    ⟨(h.unconfirmed batch hb).1, (h.unconfirmed batch hb).2.trans (prefix_append _ _).isInfix⟩

theorem Kept.flush (hnone : b.flushing = none) : Kept b.flush := by
  unfold LogPartBuffer.flush
  split
  · exact h
  · next hne =>
    refine ⟨?_, h.increasing, h.next, h.uploaded, fun batch hb => ?_, h.unconfirmed⟩
    · have e := h.chunks
      rw [hnone, getD_none, nil_append] at e
      rw [getD_some, append_nil]
      exact e
    · cases hb
      exact fun he => hne (List.isEmpty_iff.mpr he)

theorem Kept.answered (hb : b.flushing = some batch) (outcome : PutOutcome) : Kept (b.answered batch outcome) := by
  have e := h.chunks
  rw [hb, getD_some] at e
  cases outcome with
  | stored =>
    refine ⟨?_, h.increasing, h.next, fun batch' hb' => ?_, (fun _ hf => nomatch hf), h.unconfirmed⟩
    · change (b.uploaded ++ [batch]).flatten ++ ([] ++ b.pending) = b.pushed
      rw [flatten_append, flatten_singleton, nil_append, append_assoc]
      exact e
    · rcases mem_append.mp hb' with hb' | hb'
      · exact h.uploaded batch' hb'
      · rw [mem_singleton.mp hb']
        exact h.flushing batch hb
  | lost => exact ⟨e, h.increasing, h.next, h.uploaded, (fun _ hf => nomatch hf), h.unconfirmed⟩
  | unconfirmed =>
    refine ⟨e, h.increasing, h.next, h.uploaded, (fun _ hf => nomatch hf), fun batch' hb' => ?_⟩
    rcases mem_append.mp hb' with hb' | hb'
    · exact h.unconfirmed batch' hb'
    · rw [mem_singleton.mp hb']
      exact ⟨h.flushing batch hb, h.infix_flushing hb⟩

end

def Sent (b : LogPartBuffer) (batch : List SessionLogChunk) : Prop :=
  batch ∈ b.uploaded ∨ batch ∈ b.unconfirmed

theorem Kept.sent (h : Kept b) (hb : Sent b batch) : batch ≠ [] ∧ batch <:+: b.pushed := by
  rcases hb with hb | hb
  · exact ⟨h.uploaded batch hb, h.infix_uploaded hb⟩
  · exact h.unconfirmed batch hb

theorem Kept.eq_of_partKey_eq (h : Kept b) {sessionId : String} {batch' : List SessionLogChunk}
    (hb : batch ≠ [] ∧ batch <:+: b.pushed) (hb' : batch' ≠ [] ∧ batch' <:+: b.pushed)
    (hk : sessionLogPartKey sessionId batch = sessionLogPartKey sessionId batch') : batch = batch' := by
  injection hk with _ hs he
  exact infix_eq_of_range_eq h.increasing hb.2 hb'.2 hb.1 hb'.1 hs he

theorem Kept.nodup_uploaded (h : Kept b) : b.uploaded.Nodup := by
  have hflat : b.uploaded.flatten.Nodup := by
    have hp := h.increasing.nodup
    rw [← h.chunks] at hp
    exact (nodup_append.mp hp).1
  obtain ⟨_, hdisj⟩ := nodup_flatten.mp hflat
  refine hdisj.imp_of_mem fun {x y} hx _ hxy heq => ?_
  subst heq
  obtain ⟨c, hc⟩ := exists_mem_of_ne_nil x (h.uploaded x hx)
  exact hxy hc hc

/-- `flushFinal` is past its flush: nothing more is sent but the archive. -/
def Settled (b : LogPartBuffer) : Prop := b.closed = true ∧ b.flushing = none ∧ b.pending = []

theorem Kept.flatten_uploaded (h : Kept b) (hflushing : b.flushing = none) (hpending : b.pending = []) :
    b.uploaded.flatten = b.pushed := by
  have e := h.chunks
  rwa [hflushing, hpending, getD_none, append_nil, append_nil] at e

theorem settled_of_archives (h : b.archives = true) : Settled b := by
  unfold LogPartBuffer.archives at h
  rw [and_eq_true, and_eq_true, and_eq_true, isNone_iff_eq_none, List.isEmpty_iff] at h
  exact ⟨h.1.1.1, h.1.1.2, h.1.2⟩

theorem Kept.congr (h : Kept b) {closed archived : Bool} : Kept { b with closed := closed, archived := archived } :=
  ⟨h.chunks, h.increasing, h.next, h.uploaded, h.flushing, h.unconfirmed⟩

end Kept

/-! ## What a step does -/

/-- What a step does to a buffer and to the objects, by what it stores. -/
inductive Moved (sessionId : String) : LogPartBuffer × LogObjects → Option Upload → LogPartBuffer × LogObjects → Prop
  | still {b b' : LogPartBuffer} {objects : LogObjects} (hsent : ∀ x, Sent b' x ↔ Sent b x)
      (hflag : b'.archived = b.archived) (hrest : Settled b → b'.pushed = b.pushed ∧ Settled b') :
      Moved sessionId (b, objects) none (b', objects)
  | part {b b' : LogPartBuffer} {objects : LogObjects} {batch : List SessionLogChunk} (hb : b.flushing = some batch)
      (hsent : ∀ x, Sent b' x ↔ Sent b x ∨ x = batch) (hflag : b'.archived = b.archived) (hpushed : b'.pushed = b.pushed) :
      Moved sessionId (b, objects) (some (.part batch)) (b', putSessionLogPart objects sessionId batch)
  | archive {b : LogPartBuffer} {objects : LogObjects} (hsettled : Settled b) :
      Moved sessionId (b, objects) (some .archive)
        ({ b with archived := true }, putSessionLogArchive objects sessionId b.pushed)

section Moved

variable {sessionId : String} {b : LogPartBuffer} {objects : LogObjects} {s s' : LogPartBuffer × LogObjects}

theorem moved_answered {batch : List SessionLogChunk} (hb : b.flushing = some batch) (outcome : PutOutcome) :
    Moved sessionId (b, objects) (upload b (.answered outcome))
      (b.answered batch outcome, outcome.apply objects (putSessionLogPart objects sessionId batch)) := by
  have hupload : outcome ≠ .lost → upload b (.answered outcome) = some (.part batch) := by
    intro hne
    rw [upload, if_neg hne, hb, map_some]
  cases outcome with
  | stored | unconfirmed =>
    rw [hupload (by decide)]
    refine .part hb (fun x => ?_) rfl rfl
    simp only [Sent, LogPartBuffer.answered, mem_append, mem_singleton]
    tauto
  | lost =>
    refine .still (fun _ => Iff.rfl) rfl fun hsettled => ?_
    rw [hsettled.2.1] at hb
    cases hb

theorem Kept.moved_archive (h : Kept b) (harchives : b.archives = true) (outcome : PutOutcome) :
    Moved sessionId (b, objects) (upload b (.archive outcome)) ({ b with archived := b.archived || outcome != .lost },
        outcome.apply objects (putSessionLogArchive objects sessionId b.uploaded.flatten)) := by
  have hsettled := settled_of_archives harchives
  rw [h.flatten_uploaded hsettled.2.1 hsettled.2.2]
  cases outcome with
  | stored =>
    rw [show (b.archived || PutOutcome.stored != .lost) = true from or_true _]
    exact .archive hsettled
  | lost =>
    refine .still (fun _ => Iff.rfl) (or_false _) fun _ => ⟨rfl, hsettled⟩
  | unconfirmed =>
    rw [show (b.archived || PutOutcome.unconfirmed != .lost) = true from or_true _]
    exact .archive hsettled

theorem Kept.step {event : Event} (h : Kept s.1) (hs : step sessionId s event = some s') :
    Kept s'.1 ∧ Moved sessionId s (upload s.1 event) s' := by
  obtain ⟨b, objects⟩ := s
  cases event with
  | push timestamp stream content dropped =>
    simp only [Logs.step] at hs
    split at hs
    · cases hs
    · next hclosed =>
      cases hs
      exact ⟨h.push rfl, .still (fun _ => Iff.rfl) rfl fun hsettled => absurd hsettled.1 hclosed⟩
  | flush =>
    simp only [Logs.step] at hs
    split at hs
    · cases hs
    · next hnone =>
      cases hs
      refine ⟨h.flush (not_isSome_iff_eq_none.mp hnone), ?_⟩
      unfold LogPartBuffer.flush
      split
      · exact .still (fun _ => Iff.rfl) rfl fun hsettled => ⟨rfl, hsettled⟩
      · next hne =>
        exact .still (fun _ => Iff.rfl) rfl fun hsettled => absurd (List.isEmpty_iff.mpr hsettled.2.2) hne
  | answered outcome =>
    simp only [Logs.step] at hs
    split at hs
    · cases hs
    · next batch hb =>
      cases hs
      exact ⟨h.answered hb outcome, moved_answered hb outcome⟩
  | flushFinal =>
    simp only [Logs.step] at hs
    split at hs
    · cases hs
    · cases hs
      exact ⟨Kept.congr h, .still (fun _ => Iff.rfl) rfl fun hsettled => ⟨rfl, rfl, hsettled.2⟩⟩
  | archive outcome =>
    simp only [Logs.step] at hs
    split at hs
    · next harchives =>
      cases hs
      exact ⟨Kept.congr h, Kept.moved_archive h harchives outcome⟩
    · cases hs

end Moved

end AutoHarness.Logs

import Mathlib.Logic.Function.Basic
import AutoHarness.Foundation.Replacement

/-! The process runner that redacts one secret from what another runner reports, chunk by chunk. -/

namespace AutoHarness.Daemon
open Foundation Function List

abbrev Text := List UInt16

def Text.ascii (s : String) : Text :=
  s.toList.map fun c => c.val.toUInt16

inductive OutputStream where
  | stdout | stderr
deriving DecidableEq, Repr

structure OutputChunk where
  stream : OutputStream
  data : Text
deriving DecidableEq, Repr

/-- The secret a runner is built with. An empty one would make `forward` loop for ever. -/
structure Secret where
  text : Text
  nonempty : text ≠ []

structure ProcessResult (ρ : Type) where
  agentSummary : Option Text := none
  passed : ρ

/-- The chunks the inner runner reports, then its result or the message of its error. -/
structure InnerRun (ρ : Type) where
  chunks : List OutputChunk
  outcome : Except Text (ProcessResult ρ)

def redactedMarker : Text := Text.ascii "[redacted]"

/-- The variables of a call of `run`: what is held back for each stream, and the chunks given to
`options.onChunk`. -/
structure Redactor where
  pending : OutputStream → Text := fun _ => []
  forwarded : List OutputChunk := []

def pendingPrefixLength (secret : Secret) (value : Text) : ℕ :=
  longestBorder secret.text value (min (secret.text.length - 1) value.length)

def suffixLength (secret : Secret) (remaining : Text) (finished : Bool) : ℕ :=
  if finished then 0 else pendingPrefixLength secret remaining

def forward (secret : Secret) (s : Redactor) (stream : OutputStream) (finished : Bool) : Redactor :=
  let scanned := replaceScan secret.text redactedMarker (s.pending stream)
  let remaining := scanned.2
  let shown := remaining.length - suffixLength secret remaining finished
  let emitted := scanned.1 ++ remaining.take shown
  { pending := Function.update s.pending stream (remaining.drop shown)
    forwarded := if emitted.isEmpty then s.forwarded else s.forwarded ++ [⟨stream, emitted⟩] }

def onChunk (secret : Secret) (s : Redactor) (chunk : OutputChunk) : Redactor :=
  forward secret
    { s with pending := Function.update s.pending chunk.stream (s.pending chunk.stream ++ chunk.data) }
    chunk.stream false

def redact (secret : Secret) (value : Text) : Text :=
  replaceAll secret.text redactedMarker value

def run {ρ : Type} (secret : Secret) (inner : InnerRun ρ) :
    List OutputChunk × Except Text (ProcessResult ρ) :=
  let reported := inner.chunks.foldl (onChunk secret) {}
  let finished := forward secret (forward secret reported .stdout true) .stderr true
  (finished.forwarded, match inner.outcome with
    | .ok result => .ok { result with agentSummary := result.agentSummary.map (redact secret) }
    | .error message => .error (redact secret message))

def streamData (stream : OutputStream) (chunks : List OutputChunk) : Text :=
  chunks.flatMap fun chunk => if chunk.stream = stream then chunk.data else []

/-! ## One call of `forward` -/

theorem streamData_append (stream : OutputStream) (l l' : List OutputChunk) :
    streamData stream (l ++ l') = streamData stream l ++ streamData stream l' :=
  flatMap_append

theorem streamData_single (stream : OutputStream) (chunk : OutputChunk) :
    streamData stream [chunk] = if chunk.stream = stream then chunk.data else [] := by
  rw [streamData, flatMap_singleton]

section

variable (secret : Secret) (s : Redactor)
include secret s

theorem streamData_forward_ne {stream other : OutputStream} (finished : Bool) (h : stream ≠ other) :
    streamData other (forward secret s stream finished).forwarded = streamData other s.forwarded ∧
      (forward secret s stream finished).pending other = s.pending other := by
  refine ⟨?_, update_of_ne h.symm _ _⟩
  simp only [forward]
  split
  · rfl
  · rw [streamData_append, streamData_single, if_neg h, append_nil]

variable (stream : OutputStream)
include stream

theorem streamData_forward (finished : Bool) :
    streamData stream (forward secret s stream finished).forwarded = streamData stream s.forwarded ++
        ((replaceScan secret.text redactedMarker (s.pending stream)).1 ++
          (replaceScan secret.text redactedMarker (s.pending stream)).2.take
            ((replaceScan secret.text redactedMarker (s.pending stream)).2.length -
              suffixLength secret (replaceScan secret.text redactedMarker (s.pending stream)).2 finished)) := by
  simp only [forward]
  split
  · next he => rw [isEmpty_iff.mp he, append_nil]
  · rw [streamData_append, streamData_single, if_pos rfl]

theorem redact_forward (t : Text) : streamData stream s.forwarded ++ redact secret (s.pending stream ++ t) =
      streamData stream (forward secret s stream false).forwarded ++
        redact secret ((forward secret s stream false).pending stream ++ t) := by
  have hpending : (forward secret s stream false).pending stream =
      (replaceScan secret.text redactedMarker (s.pending stream)).2.drop
        ((replaceScan secret.text redactedMarker (s.pending stream)).2.length -
          suffixLength secret (replaceScan secret.text redactedMarker (s.pending stream)).2 false) :=
    update_self ..
  rw [streamData_forward, hpending, redact, replaceAll_append secret.nonempty,
    replaceAll_hold secret.nonempty (not_infix_replaceScan secret.nonempty (s.pending stream)) t]
  simp only [append_assoc]
  rfl

theorem streamData_finish : streamData stream (forward secret s stream true).forwarded =
      streamData stream s.forwarded ++ redact secret (s.pending stream) := by
  rw [streamData_forward, suffixLength, if_pos rfl, Nat.sub_zero, take_length]
  rfl

end

/-! ## A whole call -/

/-- The forwarded text and the text held back account for the input seen so far, whatever follows. -/
def Accounted (secret : Secret) (s : Redactor) (input : OutputStream → Text) : Prop :=
  ∀ stream t, redact secret (input stream ++ t) =
    streamData stream s.forwarded ++ redact secret (s.pending stream ++ t)

variable {secret : Secret} {s : Redactor}

theorem accounted_onChunk {chunks : List OutputChunk} (chunk : OutputChunk)
    (h : Accounted secret s fun stream => streamData stream chunks) :
    Accounted secret (onChunk secret s chunk) fun stream => streamData stream (chunks ++ [chunk]) := by
  intro stream t
  dsimp only
  rw [streamData_append, streamData_single, append_assoc, h stream]
  by_cases hs : chunk.stream = stream
  · subst hs
    have hf := redact_forward secret
      { s with pending := update s.pending chunk.stream (s.pending chunk.stream ++ chunk.data) }
      chunk.stream t
    dsimp only at hf
    rw [update_self, append_assoc] at hf
    rw [if_pos rfl]
    exact hf
  · obtain ⟨hdata, hpending⟩ := streamData_forward_ne secret
      { s with pending := update s.pending chunk.stream (s.pending chunk.stream ++ chunk.data) }
      false hs
    rw [onChunk, hdata, hpending, if_neg hs, nil_append]
    dsimp only
    rw [update_of_ne (Ne.symm hs)]

theorem accounted_foldl (later : List OutputChunk) {earlier : List OutputChunk}
    (h : Accounted secret s fun stream => streamData stream earlier) :
    Accounted secret (later.foldl (onChunk secret) s) fun stream => streamData stream (earlier ++ later) := by
  induction later generalizing earlier s with
  | nil => simpa using h
  | cons chunk later ih =>
    have e : earlier ++ chunk :: later = earlier ++ [chunk] ++ later := by simp
    rw [foldl_cons, e]
    exact ih (accounted_onChunk chunk h)

theorem accounted_start (secret : Secret) : Accounted secret {} fun stream => streamData stream [] :=
  fun _ _ => rfl

theorem streamData_run {ρ : Type} (secret : Secret) (inner : InnerRun ρ) (stream : OutputStream) :
    streamData stream (run secret inner).1 = redact secret (streamData stream inner.chunks) := by
  have h := accounted_foldl inner.chunks (accounted_start secret) stream []
  rw [nil_append, append_nil, append_nil] at h
  rw [h, run]
  cases stream with
  | stdout => rw [(streamData_forward_ne secret _ true (by decide)).1, streamData_finish]
  | stderr =>
    have hne : OutputStream.stdout ≠ .stderr := by decide
    obtain ⟨hdata, hpending⟩ := streamData_forward_ne secret (inner.chunks.foldl (onChunk secret) {}) true hne
    rw [streamData_finish, hdata, hpending]

/-- **Chunk independence.** What is forwarded is the whole input of the stream with the secret replaced from the left,
however it was cut. -/
theorem redaction_chunk_independent {ρ : Type} (secret : Secret) (inner : InnerRun ρ) :
    (∀ stream out, Replaced secret.text redactedMarker (streamData stream inner.chunks) out ↔
      out = streamData stream (run secret inner).1) ∧ (run secret inner).2 = match inner.outcome with
      | .ok result => .ok { result with agentSummary := result.agentSummary.map (redact secret) }
      | .error message => .error (redact secret message) := by
  refine ⟨fun stream out => ?_, rfl⟩
  rw [streamData_run]
  exact replaced_iff secret.nonempty

open Text (ascii)

/-- A secret that overlaps itself, cut inside an occurrence. -/
example :
    (run ⟨ascii "aba", by decide⟩
      { chunks := [⟨.stdout, ascii "xab"⟩, ⟨.stderr, ascii "ab"⟩, ⟨.stdout, ascii "aba"⟩]
        outcome := (.ok ⟨none, ()⟩ : Except Text (ProcessResult Unit)) }).1 =
      [⟨.stdout, ascii "x"⟩, ⟨.stdout, ascii "[redacted]b"⟩, ⟨.stdout, ascii "a"⟩,
        ⟨.stderr, ascii "ab"⟩] := by
  decide +kernel

end AutoHarness.Daemon

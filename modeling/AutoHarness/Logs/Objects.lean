import Mathlib.Data.String.Basic
import Mathlib.Data.Prod.Lex
import AutoHarness.Foundation.OrderedMap
import AutoHarness.Foundation.Increasing

/-! The log objects of a session. Gzip and JSON lose nothing, so an object is the list of its chunks. Sort keys of
timestamps have one format, so their order is that of the texts. -/

namespace AutoHarness.Logs
open Foundation List

inductive LogStream where
  | stdout | stderr | system
deriving DecidableEq, Repr

structure SessionLogChunk where
  timestamp : ℕ
  stream : LogStream
  content : String
  seq : ℕ
  dropped : Option ℕ := none
deriving DecidableEq, Repr

abbrev SortKey := Lex (ℕ × List Char)

/-- The number is padded to ten digits, so the order is by text. -/
def formatLogSortKey (timestamp seq : ℕ) : SortKey :=
  toLex (timestamp, (Nat.toDigits 10 seq).leftpad 10 '0')

structure LogRecord where
  sessionId : String
  timestamp : ℕ
  stream : LogStream
  content : String
  seq : ℕ
  timestampSeq : SortKey
  dropped : Option ℕ
deriving DecidableEq

def toLogRecord (sessionId : String) (parsed : SessionLogChunk) : LogRecord where
  sessionId := sessionId
  timestamp := parsed.timestamp
  stream := parsed.stream
  content := parsed.content
  seq := parsed.seq
  timestampSeq := formatLogSortKey parsed.timestamp parsed.seq
  dropped := parsed.dropped

/-- The key of an object: `sessionLogPartKey` and `sessionLogArchiveKey`. -/
inductive LogObjectKey where
  | part (sessionId : String) (seqStart seqEnd : ℕ)
  | archive (sessionId : String)
deriving DecidableEq, Repr

def LogObjectKey.sessionId : LogObjectKey → String
  | part sessionId _ _ => sessionId
  | archive sessionId => sessionId

abbrev LogObjects := OrderedMap LogObjectKey (List SessionLogChunk)

def recordOrder (a b : LogRecord) : Prop := a.timestampSeq ≤ b.timestampSeq

instance : DecidableRel recordOrder := fun a b => inferInstanceAs (Decidable (a.timestampSeq ≤ b.timestampSeq))

def LogObjectKey.name : LogObjectKey → List Char
  | part _ seqStart seqEnd =>
    "parts/".toList ++ Nat.toDigits 10 seqStart ++ '-' :: Nat.toDigits 10 seqEnd ++ ".jsonl.gz".toList
  | archive _ => "logs.jsonl.gz".toList

def keyOrder (a b : LogObjectKey × List SessionLogChunk) : Prop := a.1.name ≤ b.1.name

instance : DecidableRel keyOrder := fun a b => inferInstanceAs (Decidable (a.1.name ≤ b.1.name))

def sessionObjects (objects : LogObjects) (sessionId : String) : List (LogObjectKey × List SessionLogChunk) :=
  objects.entries.filter fun e => e.1.sessionId = sessionId

def parseGzipJsonlLogs (sessionId : String) (object : LogObjectKey × List SessionLogChunk) : List LogRecord :=
  object.2.map (toLogRecord sessionId)

/-- The archive alone, once it is there. -/
def readSessionLogObjects (objects : LogObjects) (sessionId : String) : Option (List LogRecord) :=
  let listed := sessionObjects objects sessionId
  if listed.isEmpty then none
  else
    match listed.find? fun e => e.1 = .archive sessionId with
    | some archived => some ((parseGzipJsonlLogs sessionId archived).insertionSort recordOrder)
    | none =>
      let ordered := listed.insertionSort keyOrder
      some ((ordered.flatMap (parseGzipJsonlLogs sessionId)).insertionSort recordOrder)

def seqStart (batch : List SessionLogChunk) : ℕ := (batch.map (·.seq)).min?.getD 0

def seqEnd (batch : List SessionLogChunk) : ℕ := (batch.map (·.seq)).max?.getD 0

def sessionLogPartKey (sessionId : String) (batch : List SessionLogChunk) : LogObjectKey :=
  .part sessionId (seqStart batch) (seqEnd batch)

def sessionLogArchiveKey (sessionId : String) : LogObjectKey := .archive sessionId

/-- `putSessionLogPart` for a part whose chunks lie in the declared range. -/
def putSessionLogPart (objects : LogObjects) (sessionId : String) (batch : List SessionLogChunk) : LogObjects :=
  objects.set (sessionLogPartKey sessionId batch) batch

def putSessionLogArchive (objects : LogObjects) (sessionId : String) (chunks : List SessionLogChunk) : LogObjects :=
  objects.set (sessionLogArchiveKey sessionId) chunks

/-! ## What is read -/

section Read

variable {objects : LogObjects} {sessionId : String}

theorem readObjects_of_archive {chunks : List SessionLogChunk}
    (h : (sessionLogArchiveKey sessionId, chunks) ∈ objects.entries) :
    readSessionLogObjects objects sessionId = some ((chunks.map (toLogRecord sessionId)).insertionSort recordOrder) := by
  have hlisted : (sessionLogArchiveKey sessionId, chunks) ∈ sessionObjects objects sessionId :=
    mem_filter.mpr ⟨h, decide_eq_true rfl⟩
  unfold readSessionLogObjects
  rw [if_neg fun he => ne_nil_of_mem hlisted (isEmpty_iff.mp he)]
  cases hfind : (sessionObjects objects sessionId).find? fun e => e.1 = .archive sessionId with
  | none => exact absurd (decide_eq_true rfl) (find?_eq_none.mp hfind _ hlisted)
  | some archived =>
    have hfound := find?_some hfind
    have hkey : archived.1 = sessionLogArchiveKey sessionId := of_decide_eq_true hfound
    have hmem := (mem_filter.mp (mem_of_find?_eq_some hfind)).1
    have heq : archived = (sessionLogArchiveKey sessionId, chunks) :=
      inj_on_of_nodup_map objects.nodup hmem h hkey
    subst heq
    rfl

theorem readObjects_of_parts (h : ∀ e ∈ objects.entries, e.1 ≠ sessionLogArchiveKey sessionId) :
    (readSessionLogObjects objects sessionId).getD [] =
      (((sessionObjects objects sessionId).insertionSort keyOrder).flatMap
        (parseGzipJsonlLogs sessionId)).insertionSort recordOrder := by
  have hfind : ((sessionObjects objects sessionId).find? fun e => e.1 = .archive sessionId) = none := by
    rw [find?_eq_none]
    intro e he hk
    exact h e (mem_filter.mp he).1 (of_decide_eq_true hk)
  unfold readSessionLogObjects
  dsimp only
  rw [hfind]
  split
  · next hnil =>
    rw [isEmpty_iff.mp hnil]
    rfl
  · rfl

end Read

end AutoHarness.Logs

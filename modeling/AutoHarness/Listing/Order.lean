import AutoHarness.Foundation.Increasing
import AutoHarness.Foundation.TextKeys
import AutoHarness.Store.Rows

/-! The comparators of the session list, and the sort keys that the indexes store for them. -/

namespace AutoHarness.Listing
open Foundation Store

inductive SessionListSort where
  | latest | oldest | priorityDesc | priorityAsc
deriving DecidableEq, Repr

namespace SessionListSort

def isPriority : SessionListSort → Bool
  | priorityDesc => true
  | priorityAsc => true
  | _ => false

/-- Whether the index is read upwards. -/
def forward : SessionListSort → Bool
  | oldest => true
  | priorityAsc => true
  | _ => false

end SessionListSort

/-- What the order of a listing looks at. -/
structure CursorPosition where
  createdAt : String
  id : String
  priority : ℤ := 0
deriving DecidableEq, Repr

structure SessionRecord extends CursorPosition where
  status : SessionStatus := .queued
  repositoryId : String := ""
  hostId : Option String := none
  worktreeId : Option String := none
  /-- The worktree that the resolved route names. -/
  routeWorktree : Option String := none
  source : Option String := none
  concurrencyId : Option String := none
  scheduleId : Option String := none
  queueShard : ℕ := 0
deriving DecidableEq, Repr

/-- The collation of `localeCompare` and the hexadecimal SHA-256 digest, of fixed width. -/
structure Runtime where
  localeCompare : String → String → Ordering
  sha256 : String → String
  sha256_width : ∀ a b, (sha256 a).length = (sha256 b).length

/-- Texts compared by their code points; no digest is read. -/
def codePointRuntime : Runtime where
  localeCompare := compare
  sha256 _ := ""
  sha256_width _ _ := rfl

/-! ## Comparators -/

section Comparators

variable (env : Runtime)

/-- The order of the page. -/
def compareSessions (a b : CursorPosition) : SessionListSort → Ordering
  | .latest => (env.localeCompare b.createdAt a.createdAt).then (env.localeCompare b.id a.id)
  | .oldest => (env.localeCompare a.createdAt b.createdAt).then (env.localeCompare a.id b.id)
  | .priorityDesc => (compare b.priority a.priority).then
      ((env.localeCompare b.createdAt a.createdAt).then (env.localeCompare b.id a.id))
  | .priorityAsc => (compare a.priority b.priority).then
      ((env.localeCompare a.createdAt b.createdAt).then (env.localeCompare a.id b.id))

/-- Greater for what comes after the position. -/
def compareSessionToCursor (session position : CursorPosition) : SessionListSort → Ordering
  | .latest => (env.localeCompare position.createdAt session.createdAt).then
      (env.localeCompare position.id session.id)
  | .oldest => (env.localeCompare session.createdAt position.createdAt).then
      (env.localeCompare session.id position.id)
  | .priorityDesc => (compare position.priority session.priority).then
      ((env.localeCompare position.createdAt session.createdAt).then (env.localeCompare position.id session.id))
  | .priorityAsc => (compare session.priority position.priority).then
      ((env.localeCompare session.createdAt position.createdAt).then (env.localeCompare session.id position.id))

theorem compareSessionToCursor_eq (session position : CursorPosition) (sort : SessionListSort) :
    compareSessionToCursor env session position sort = compareSessions env session position sort := by
  cases sort <;> rfl

end Comparators

/-! ## Sort keys -/

def queueOrderPriorityOffset : ℤ := 10000

def createdOrderKey (session : CursorPosition) : String := session.createdAt ++ "#" ++ session.id

def padStart (text : String) (width : ℕ) (fill : Char) : String :=
  String.ofList (List.replicate (width - text.length) fill) ++ text

/-- Clamped, so that five digits suffice. -/
def normalizedPriority (priority : ℤ) : ℕ :=
  (min (queueOrderPriorityOffset * 2) (max 0 (queueOrderPriorityOffset + priority))).toNat

def priorityOrderKey (session : CursorPosition) : String :=
  padStart (toString (normalizedPriority session.priority)) 5 '0' ++
    ("#" ++ session.createdAt ++ "#" ++ session.id)

def repositoryPriorityOrderPrefix (env : Runtime) (repositoryId : String) : String := env.sha256 repositoryId

def repositoryPriorityOrderKey (env : Runtime) (repositoryId : String) (session : CursorPosition) : String :=
  repositoryPriorityOrderPrefix env repositoryId ++ ("#" ++ priorityOrderKey session)

def repositoryPriorityOrderRange (env : Runtime) (repositoryId : String) : String × String :=
  (repositoryPriorityOrderPrefix env repositoryId ++ "#", repositoryPriorityOrderPrefix env repositoryId ++ "#\uffff")

theorem priorityOrderKey_lt (session : CursorPosition) : priorityOrderKey session < "\uffff" := by
  obtain ⟨c, l, hl, hc⟩ := toString_head_lt (normalizedPriority session.priority) (d := '\uffff') (by decide)
  have hhead : ∃ c l, (priorityOrderKey session).toList = c :: l ∧ c < '\uffff' := by
    rw [priorityOrderKey, padStart, String.toList_append, String.toList_append, String.toList_ofList, hl]
    cases 5 - (toString (normalizedPriority session.priority)).length with
    | zero => exact ⟨c, _, rfl, hc⟩
    | succ n => exact ⟨'0', _, rfl, by decide⟩
  obtain ⟨c, l, hl, hc⟩ := hhead
  exact lt_of_head_lt hl rfl hc

theorem mem_priorityRange {env : Runtime} {repositoryId other : String} {session : CursorPosition} :
    ((repositoryPriorityOrderRange env repositoryId).1 ≤ repositoryPriorityOrderKey env other session ∧
      repositoryPriorityOrderKey env other session ≤ (repositoryPriorityOrderRange env repositoryId).2) ↔
      repositoryPriorityOrderPrefix env other = repositoryPriorityOrderPrefix env repositoryId := by
  unfold repositoryPriorityOrderRange repositoryPriorityOrderKey
  constructor
  · rintro ⟨hlow, hhigh⟩
    exact eq_of_between (env.sha256_width _ _) hlow hhigh
  · intro heq
    rw [heq]
    refine ⟨append_le_append_iff.mpr le_append, append_le_append_iff.mpr ?_⟩
    have hend : "#\uffff" = "#" ++ "\uffff" := rfl
    exact append_le_append_iff.mpr (priorityOrderKey_lt session).le

/-! ## Ranks -/

/-- `a` comes before `b` when keys are read in the given direction. -/
def precedes (forward : Bool) (a b : String) : Bool := if forward then a < b else b < a

/-- The sort keys, in the direction they are read. -/
def Place (_forward : Bool) : Type := String

instance (forward : Bool) : LinearOrder (Place forward) :=
  match forward with
  | true => inferInstanceAs (LinearOrder String)
  | false => inferInstanceAs (LinearOrder Stringᵒᵈ)

variable {forward : Bool} {a b x : String}

theorem precedes_iff : precedes forward a b = true ↔ (show Place forward from a) < (show Place forward from b) := by
  cases forward <;> simp only [precedes, Bool.false_eq_true, if_false, if_true, decide_eq_true_iff] <;> exact Iff.rfl

theorem precedes_append : precedes forward (x ++ a) (x ++ b) = precedes forward a b := by
  cases forward <;> simp only [precedes, append_lt_append_iff]

/-- The key whose order is that of the page. -/
def orderKey (sort : SessionListSort) (session : CursorPosition) : String :=
  if sort.isPriority then priorityOrderKey session else createdOrderKey session

def rank (sort : SessionListSort) (session : CursorPosition) : Place sort.forward := orderKey sort session

/-- Sort-key order agrees with the comparator on these rows, and no two of them share a key. -/
structure SortKeysAgree (env : Runtime) (sort : SessionListSort) (rows : List SessionRecord) : Prop where
  lt_iff : ∀ a ∈ rows, ∀ b ∈ rows,
    compareSessions env a.toCursorPosition b.toCursorPosition sort = .lt ↔
      precedes sort.forward (orderKey sort a.toCursorPosition) (orderKey sort b.toCursorPosition) = true
  gt_iff : ∀ a ∈ rows, ∀ b ∈ rows,
    compareSessions env a.toCursorPosition b.toCursorPosition sort = .gt ↔
      precedes sort.forward (orderKey sort b.toCursorPosition) (orderKey sort a.toCursorPosition) = true
  distinct : ∀ a ∈ rows, ∀ b ∈ rows, orderKey sort a.toCursorPosition = orderKey sort b.toCursorPosition → a = b

namespace SortKeysAgree

variable {env : Runtime} {sort : SessionListSort} {rows : List SessionRecord} {a b : SessionRecord}

variable (h : SortKeysAgree env sort rows) (ha : a ∈ rows) (hb : b ∈ rows)
include h ha hb

theorem compare_lt : compareSessions env a.toCursorPosition b.toCursorPosition sort = .lt ↔
      rank sort a.toCursorPosition < rank sort b.toCursorPosition :=
  (h.lt_iff a ha b hb).trans precedes_iff

theorem compare_gt : compareSessions env a.toCursorPosition b.toCursorPosition sort = .gt ↔
      rank sort b.toCursorPosition < rank sort a.toCursorPosition :=
  (h.gt_iff a ha b hb).trans precedes_iff

theorem compare_le : compareSessions env a.toCursorPosition b.toCursorPosition sort ≠ .gt ↔
      rank sort a.toCursorPosition ≤ rank sort b.toCursorPosition := by
  rw [ne_eq, h.compare_gt ha hb, not_lt]

theorem rank_inj (heq : rank sort a.toCursorPosition = rank sort b.toCursorPosition) : a = b :=
  h.distinct a ha b hb heq

end SortKeysAgree

end AutoHarness.Listing

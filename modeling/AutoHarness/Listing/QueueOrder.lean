import AutoHarness.Foundation.HeadMerge
import AutoHarness.Listing.Order

/-! The comparator of the scheduler, the sort key of the queue index, and the merge of the queue shards. -/

namespace AutoHarness.Listing
open Foundation Store List

structure QueueSession extends CursorPosition where
  status : SessionStatus := .queued
  type : Option SessionType := none
  queueShard : ℕ := 0
deriving DecidableEq, Repr

def QueueSession.sessionType (session : QueueSession) : SessionType :=
  match session.type with
  | some .scheduled => .scheduled
  | some .workspace => .workspace
  | _ => .prompt

section Queue

variable (env : Runtime)

/-- The urgent first, then the old. -/
def compareSessionsForQueue (a b : CursorPosition) : Ordering :=
  (compare b.priority a.priority).then ((env.localeCompare a.createdAt b.createdAt).then (env.localeCompare a.id b.id))

def invertedPriority (priority : ℤ) : ℕ :=
  (min (queueOrderPriorityOffset * 2) (max 0 (queueOrderPriorityOffset - priority))).toNat

def queueOrderKey (session : CursorPosition) : String :=
  padStart (toString (invertedPriority session.priority)) 5 '0' ++ ("#" ++ session.createdAt ++ "#" ++ session.id)

/-- Take the least of the heads until all shards are empty. -/
def mergeQueuedShardHeads (shards : List (List QueueSession)) : List QueueSession :=
  mergeHeads (fun a b => decide (compareSessionsForQueue env a.toCursorPosition b.toCursorPosition = .lt))
    shards.flatten.length shards

def QueueSession.isQueued (type : SessionType) (session : QueueSession) : Bool :=
  decide (session.status = .queued) && decide (session.sessionType = type)

def pushQueued (type : SessionType) (shards : List (List QueueSession)) (session : QueueSession) :
    List (List QueueSession) :=
  if session.isQueued type then shards.modify session.queueShard (· ++ [session]) else shards

def sortShard (shard : List QueueSession) : List QueueSession :=
  shard.insertionSort fun a b => compareSessionsForQueue env a.toCursorPosition b.toCursorPosition ≠ .gt

def queuedSessionsByShard (sessions : List QueueSession) (shardCount : ℕ) (type : SessionType) :
    List (List QueueSession) :=
  (sessions.foldl (pushQueued type) (List.replicate shardCount [])).map (sortShard env)

def orderedQueuedSessions (sessions : List QueueSession) (shardCount : ℕ) (type : SessionType) : List QueueSession :=
  mergeQueuedShardHeads env (queuedSessionsByShard env sessions shardCount type)

end Queue

/-! ## Keys -/

theorem toList_padStart (n : ℕ) : (padStart (toString n) 5 '0').toList = (Nat.toDigits 10 n).leftpad 5 '0' := by
  have hdigits : (toString n).toList = Nat.toDigits 10 n := by
    simp [Nat.repr]
  rw [padStart, String.toList_append, String.toList_ofList, hdigits, leftpad, ← hdigits, String.length_toList]

variable {n m : ℕ}

theorem padStart_lt (h : n < m) (hm : m < 10 ^ 5) : padStart (toString n) 5 '0' < padStart (toString m) 5 '0' := by
  rw [String.lt_iff_toList_lt, toList_padStart, toList_padStart]
  exact leftpad_lt_leftpad (by decide) h hm

theorem compare_padStart (hn : n < 10 ^ 5) (hm : m < 10 ^ 5) :
    compare (padStart (toString n) 5 '0') (padStart (toString m) 5 '0') = compare n m := by
  rcases lt_trichotomy n m with h | h | h
  · rw [compare_lt_iff_lt.mpr h, compare_lt_iff_lt.mpr (padStart_lt h hm)]
  · rw [h, compare_eq_iff_eq.mpr rfl, compare_eq_iff_eq.mpr rfl]
  · rw [compare_gt_iff_gt.mpr h, compare_gt_iff_gt.mpr (padStart_lt h hn)]

theorem length_padStart (hn : n < 10 ^ 5) : (padStart (toString n) 5 '0').length = 5 := by
  rw [← String.length_toList, toList_padStart]
  exact length_leftpad_toDigits (by decide) hn

theorem compare_key {a b : CursorPosition} (hn : n < 10 ^ 5) (hm : m < 10 ^ 5)
    (hwidth : a.createdAt.length = b.createdAt.length) :
    compare (padStart (toString n) 5 '0' ++ ("#" ++ a.createdAt ++ "#" ++ a.id))
        (padStart (toString m) 5 '0' ++ ("#" ++ b.createdAt ++ "#" ++ b.id)) =
      (compare n m).then ((compare a.createdAt b.createdAt).then (compare a.id b.id)) := by
  have hmark : compare "#" "#" = .eq := compare_eq_iff_eq.mpr rfl
  have htime : compare ("#" ++ a.createdAt ++ "#") ("#" ++ b.createdAt ++ "#") = compare a.createdAt b.createdAt := by
    rw [compare_append (by simp [hwidth]), compare_append rfl, hmark, Ordering.eq_then, Ordering.then_eq]
  rw [compare_append (by rw [length_padStart hn, length_padStart hm]), compare_padStart hn hm,
    compare_append (by simp [hwidth]), htime]

section Order

variable {env : Runtime} {a b : CursorPosition}

def InRange (priority : ℤ) : Prop := -10000 ≤ priority ∧ priority ≤ 10000

theorem compare_of_sub_eq {x y : ℕ} {p q : ℤ} (h : (x : ℤ) - y = p - q) : compare x y = compare p q := by
  rcases lt_trichotomy p q with hpq | hpq | hpq
  · rw [compare_lt_iff_lt.mpr hpq, compare_lt_iff_lt.mpr (by omega)]
  · rw [compare_eq_iff_eq.mpr hpq, compare_eq_iff_eq.mpr (by omega)]
  · rw [compare_gt_iff_gt.mpr hpq, compare_gt_iff_gt.mpr (by omega)]

theorem compare_invertedPriority (ha : InRange a.priority) (hb : InRange b.priority) :
    compare (invertedPriority a.priority) (invertedPriority b.priority) = compare b.priority a.priority := by
  refine compare_of_sub_eq ?_
  unfold InRange at ha hb
  unfold invertedPriority queueOrderPriorityOffset
  omega

theorem compare_normalizedPriority (ha : InRange a.priority) (hb : InRange b.priority) :
    compare (normalizedPriority a.priority) (normalizedPriority b.priority) = compare a.priority b.priority := by
  refine compare_of_sub_eq ?_
  unfold InRange at ha hb
  unfold normalizedPriority queueOrderPriorityOffset
  omega

variable (hlocale : env.localeCompare = compare) (hwidth : a.createdAt.length = b.createdAt.length)
  (ha : InRange a.priority) (hb : InRange b.priority)

include hlocale hwidth ha hb

theorem compare_queueOrderKey : compare (queueOrderKey a) (queueOrderKey b) = compareSessionsForQueue env a b := by
  have hbound : ∀ p : ℤ, invertedPriority p < 10 ^ 5 := fun p => by
    unfold invertedPriority queueOrderPriorityOffset
    omega
  unfold queueOrderKey compareSessionsForQueue
  rw [compare_key (hbound _) (hbound _) hwidth, compare_invertedPriority ha hb, hlocale]

theorem compare_priorityOrderKey :
    compare (priorityOrderKey a) (priorityOrderKey b) = compareSessions env a b .priorityAsc := by
  have hbound : ∀ p : ℤ, normalizedPriority p < 10 ^ 5 := fun p => by
    unfold normalizedPriority queueOrderPriorityOffset
    omega
  unfold priorityOrderKey compareSessions
  rw [compare_key (hbound _) (hbound _) hwidth, compare_normalizedPriority ha hb, hlocale]

end Order

/-! ## Shards -/

section Shards

variable {type : SessionType} {shards : List (List QueueSession)} {session : QueueSession}

theorem perm_flatten_modify_concat (h : session.queueShard < shards.length) :
    (shards.modify session.queueShard (· ++ [session])).flatten.Perm (shards.flatten ++ [session]) := by
  have hsplit : shards.flatten = (shards.take session.queueShard).flatten ++
      (shards[session.queueShard] ++ (shards.drop (session.queueShard + 1)).flatten) := by
    rw [← flatten_cons, getElem_cons_drop h, ← flatten_append, take_append_drop]
  rw [modify_eq_take_cons_drop h, hsplit]
  simp only [flatten_append, flatten_cons, append_assoc]
  exact ((perm_append_comm.append_left _).append_left _)

theorem length_pushQueued : (pushQueued type shards session).length = shards.length := by
  unfold pushQueued
  split_ifs
  · exact length_modify _ _ _
  · rfl

theorem perm_foldl_pushQueued (type : SessionType) (sessions : List QueueSession) (shards : List (List QueueSession))
    (h : ∀ s ∈ sessions, s.queueShard < shards.length) :
    (sessions.foldl (pushQueued type) shards).flatten.Perm (shards.flatten ++ sessions.filter (·.isQueued type)) := by
  induction sessions generalizing shards with
  | nil => simp
  | cons s sessions ih =>
    have hrest := ih (pushQueued type shards s) fun x hx => by
      rw [length_pushQueued]
      exact h x (mem_cons_of_mem _ hx)
    refine hrest.trans ?_
    unfold pushQueued
    by_cases hq : s.isQueued type
    · have hpush := (perm_flatten_modify_concat (h s mem_cons_self)).append_right
        (sessions.filter (·.isQueued type))
      rw [append_assoc, singleton_append] at hpush
      rw [if_pos hq, filter_cons_of_pos hq]
      exact hpush
    · rw [if_neg hq, filter_cons_of_neg hq]

theorem perm_flatten_sortShard (env : Runtime) (shards : List (List QueueSession)) :
    (shards.map (sortShard env)).flatten.Perm shards.flatten := by
  induction shards with
  | nil => exact .refl _
  | cons shard shards ih => exact (perm_insertionSort _ shard).append ih

end Shards

/-- The records of one queue: ids are distinct, priorities in range and timestamps of one width. -/
structure Queueable (sessions : List QueueSession) : Prop where
  ids : (sessions.map (·.id)).Nodup
  range : ∀ s ∈ sessions, InRange s.priority
  width : ∀ a ∈ sessions, ∀ b ∈ sessions, a.createdAt.length = b.createdAt.length

namespace Queueable

variable {env : Runtime} {sessions : List QueueSession} {shardCount : ℕ}

abbrev rank (session : QueueSession) : String := queueOrderKey session.toCursorPosition

variable (h : Queueable sessions)
include h

theorem compare_rank (hlocale : env.localeCompare = compare) {a b : QueueSession}
    (ha : a ∈ sessions) (hb : b ∈ sessions) :
    compare (rank a) (rank b) = compareSessionsForQueue env a.toCursorPosition b.toCursorPosition :=
  compare_queueOrderKey hlocale (h.width a ha b hb) (h.range a ha) (h.range b hb)

theorem rank_inj {a b : QueueSession} (ha : a ∈ sessions) (hb : b ∈ sessions) (heq : rank a = rank b) : a = b := by
  have hcmp := h.compare_rank (show codePointRuntime.localeCompare = compare from rfl) ha hb
  rw [compare_eq_iff_eq.mpr heq] at hcmp
  have hid : a.id = b.id := by
    obtain ⟨-, hrest⟩ := Ordering.then_eq_eq.mp hcmp.symm
    exact compare_eq_iff_eq.mp (Ordering.then_eq_eq.mp hrest).2
  exact inj_on_of_nodup_map h.ids ha hb hid

theorem nodup : sessions.Nodup := List.Nodup.of_map _ h.ids

theorem ordered_spec (hlocale : env.localeCompare = compare) (type : SessionType)
    (hshard : ∀ s ∈ sessions, s.queueShard < shardCount) :
    (orderedQueuedSessions env sessions shardCount type).Perm (sessions.filter (·.isQueued type)) ∧
      Increasing rank (orderedQueuedSessions env sessions shardCount type) := by
  have hfold : (sessions.foldl (pushQueued type) (replicate shardCount [])).flatten.Perm
      (sessions.filter (·.isQueued type)) := by
    have hperm := perm_foldl_pushQueued type sessions (replicate shardCount [])
      (by simpa using hshard)
    rwa [flatten_replicate_nil, nil_append] at hperm
  have hflat := (perm_flatten_sortShard env _).trans hfold
  have hmem : ∀ a ∈ (queuedSessionsByShard env sessions shardCount type).flatten, a ∈ sessions := fun a ha =>
    mem_of_mem_filter (hflat.mem_iff.mp ha)
  have hnodup : (sessions.filter (·.isQueued type)).Nodup := h.nodup.filter _
  have hruns : ∀ run ∈ queuedSessionsByShard env sessions shardCount type, Increasing rank run := by
    intro run hrun
    obtain ⟨shard, hshard, rfl⟩ := mem_map.mp hrun
    have hsub : ∀ a ∈ shard, a ∈ sessions := fun a ha =>
      mem_of_mem_filter (hfold.mem_iff.mp (mem_flatten.mpr ⟨shard, hshard, ha⟩))
    refine increasing_insertionSort _ ((nodup_flatten.mp (hfold.nodup_iff.mpr hnodup)).1 _ hshard)
      (fun a ha b hb => h.rank_inj (hsub a ha) (hsub b hb)) fun a ha b hb => ?_
    rw [← h.compare_rank hlocale (hsub a ha) (hsub b hb), ← compare_le_iff_le]
  have hinj : ((queuedSessionsByShard env sessions shardCount type).flatten.map rank).Nodup := by
    refine (hflat.nodup_iff.mpr hnodup).map_on fun a ha b hb => ?_
    exact h.rank_inj (hmem a ha) (hmem b hb)
  have hbefore : ∀ a ∈ (queuedSessionsByShard env sessions shardCount type).flatten,
      ∀ b ∈ (queuedSessionsByShard env sessions shardCount type).flatten,
        decide (compareSessionsForQueue env a.toCursorPosition b.toCursorPosition = .lt) = true ↔
          rank a < rank b := by
    intro a ha b hb
    rw [decide_eq_true_iff, ← h.compare_rank hlocale (hmem a ha) (hmem b hb), compare_lt_iff_lt]
  have hmerge := mergeHeads_spec (le_refl _) hruns hinj hbefore
  exact ⟨hmerge.1.trans hflat, hmerge.2⟩

end Queueable

/-- Sessions spread over the shards in another way. -/
def reshard (assign : QueueSession → ℕ) (session : QueueSession) : QueueSession :=
  { session with queueShard := assign session }

section Main

variable {env : Runtime} {sessions : List QueueSession}

theorem Queueable.reshard (h : Queueable sessions) (assign : QueueSession → ℕ) :
    Queueable (sessions.map (reshard assign)) where
  ids := by
    rw [map_map]
    exact h.ids
  range := by
    intro s hs
    obtain ⟨t, ht, rfl⟩ := mem_map.mp hs
    exact h.range t ht
  width := by
    intro a ha b hb
    obtain ⟨c, hc, rfl⟩ := mem_map.mp ha
    obtain ⟨d, hd, rfl⟩ := mem_map.mp hb
    exact h.width c hc d hd

theorem filter_map_reshard (assign : QueueSession → ℕ) (type : SessionType) :
    (sessions.map (reshard assign)).filter (·.isQueued type) =
      (sessions.filter (·.isQueued type)).map (reshard assign) :=
  filter_map

/-- **Queue order.** The index keys order as the comparators do; a queue holds its sessions once each, sorted. -/
theorem queue_order_total (hlocale : env.localeCompare = compare) (h : Queueable sessions) :
    (∀ a ∈ sessions, ∀ b ∈ sessions, compare (queueOrderKey a.toCursorPosition) (queueOrderKey b.toCursorPosition) =
          compareSessionsForQueue env a.toCursorPosition b.toCursorPosition ∧
        compare (priorityOrderKey a.toCursorPosition) (priorityOrderKey b.toCursorPosition) =
          compareSessions env a.toCursorPosition b.toCursorPosition .priorityAsc) ∧
      ∀ type shardCount, (∀ s ∈ sessions, s.queueShard < shardCount) →
        (orderedQueuedSessions env sessions shardCount type).Perm (sessions.filter (·.isQueued type)) ∧
        (orderedQueuedSessions env sessions shardCount type).Pairwise
          (fun a b => compareSessionsForQueue env a.toCursorPosition b.toCursorPosition = .lt) ∧
        ∀ assign shardCount', (∀ s ∈ sessions, assign s < shardCount') →
          orderedQueuedSessions env (sessions.map (reshard assign)) shardCount' type =
            (orderedQueuedSessions env sessions shardCount type).map (reshard assign) := by
  refine ⟨fun a ha b hb => ⟨h.compare_rank hlocale ha hb, ?_⟩, fun type shardCount hshard => ?_⟩
  · exact compare_priorityOrderKey hlocale (h.width a ha b hb) (h.range a ha) (h.range b hb)
  obtain ⟨hperm, hincr⟩ := h.ordered_spec hlocale type hshard
  refine ⟨hperm, hincr.imp_of_mem fun {a b} ha hb hlt => ?_, fun assign shardCount' hassign => ?_⟩
  · have hsub : ∀ x ∈ orderedQueuedSessions env sessions shardCount type, x ∈ sessions := fun x hx =>
      mem_of_mem_filter (hperm.mem_iff.mp hx)
    rw [← h.compare_rank hlocale (hsub a ha) (hsub b hb), compare_lt_iff_lt]
    exact hlt
  · have hshard' : ∀ s ∈ sessions.map (reshard assign), s.queueShard < shardCount' := by
      simpa [reshard] using hassign
    obtain ⟨hperm', hincr'⟩ := (h.reshard assign).ordered_spec hlocale type hshard'
    -- keys do not look at shards, so the old order is the new one
    have hmap : Increasing Queueable.rank ((orderedQueuedSessions env sessions shardCount type).map (reshard assign)) :=
      pairwise_map.mpr hincr
    refine hmap.eq_of_mem_iff hincr' fun a => ?_
    rw [hperm'.mem_iff, filter_map_reshard, (hperm.map (reshard assign)).mem_iff]

private def urgent : QueueSession :=
  { createdAt := "2026-01-01T00:00:00.002Z", id := "s2", priority := 5, queueShard := 1 }

private def early : QueueSession := { createdAt := "2026-01-01T00:00:00.001Z", id := "s1" }

theorem queue_order_total_two : orderedQueuedSessions codePointRuntime ([early, urgent].map (reshard fun _ => 0)) 1 .prompt =
      (orderedQueuedSessions codePointRuntime [early, urgent] 2 .prompt).map (reshard fun _ => 0) :=
  have hqueue : Queueable [early, urgent] :=
    { ids := by decide
      range := by simp [early, urgent, InRange]
      width := by decide }
  ((queue_order_total (show codePointRuntime.localeCompare = compare from rfl) hqueue).2 .prompt 2 (by decide)).2.2 _ 1 (by decide)

end Main

end AutoHarness.Listing

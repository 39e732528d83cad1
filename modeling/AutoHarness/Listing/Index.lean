import AutoHarness.Listing.Plan

/-! Index rows in rank order, and the rows a plan covers. -/

namespace AutoHarness.Listing
open Foundation Store List
open Bool (and_eq_true false_eq_true)
open AutoHarness.Listing.Partition (inRange isIndexed isKeyed rows)
open SessionListPageQuery (admits)
open Option (all_some)

def Partition.boundValue (env : Runtime) (p : Partition) (position : CursorPosition) : String :=
  sortKeyValue env p.sortKeyName (p.repositoryId.getD "") position

structure Partition.Reads (env : Runtime) (sort : SessionListSort) (p : Partition) : Prop where
  forward : p.forward = sort.forward
  sortKey : (p.sortKeyName = .createdOrder ∧ sort.isPriority = false ∧ p.sortKeyRange = none) ∨
    (p.sortKeyName = .priorityOrder ∧ sort.isPriority = true ∧ p.sortKeyRange = none) ∨
    ∃ repositoryId, p.sortKeyName = .repositoryPriorityOrder ∧ sort.isPriority = true ∧
      p.repositoryId = some repositoryId ∧ p.sortKeyRange = some (repositoryPriorityOrderRange env repositoryId)

abbrev rankOf (sort : SessionListSort) (session : SessionRecord) : Place sort.forward :=
  rank sort session.toCursorPosition

variable {env : Runtime} {sort : SessionListSort} {p : Partition} {table : List SessionRecord} {a b : SessionRecord}
  {forward : Bool} {c : String}

theorem mem_indexRows : a ∈ indexRows env table p ↔ a ∈ table ∧ p.isIndexed a = true := by
  rw [indexRows, mem_insertionSort, mem_filter]

theorem Partition.mem_rows : a ∈ p.rows env table ↔ a ∈ table ∧ p.isIndexed a = true ∧ p.inRange env a = true := by
  rw [rows, mem_filter, mem_indexRows, and_assoc]

theorem Partition.mem_table (h : a ∈ p.rows env table) : a ∈ table := (p.mem_rows.mp h).1

section

variable (hp : p.Reads env sort)
include hp

theorem Partition.Reads.sortKey_eq (ha : p.inRange env a = true) :
    p.sortKey env a = p.boundValue env a.toCursorPosition := by
  obtain ⟨hname, -, -⟩ | ⟨hname, -, -⟩ | ⟨repositoryId, hname, -, hrepo, hrange⟩ := hp.sortKey
  · rw [Partition.sortKey, Partition.boundValue, hname]
    rfl
  · rw [Partition.sortKey, Partition.boundValue, hname]
    rfl
  · rw [inRange, hrange, all_some, and_eq_true, decide_eq_true_iff, decide_eq_true_iff,
      Partition.sortKey, hname] at ha
    have hdigest := mem_priorityRange.mp ha
    rw [Partition.sortKey, Partition.boundValue, hname, hrepo]
    simp only [sortKeyValue, repositoryPriorityOrderKey, Option.getD_some, hdigest]

theorem Partition.Reads.precedes_boundValue (x y : CursorPosition) :
    precedes p.forward (p.boundValue env x) (p.boundValue env y) = true ↔ rank sort x < rank sort y := by
  have hrank : rank sort x < rank sort y ↔ precedes sort.forward (orderKey sort x) (orderKey sort y) = true :=
    precedes_iff.symm
  rw [hrank, hp.forward]
  obtain ⟨hname, hsort, -⟩ | ⟨hname, hsort, -⟩ | ⟨repositoryId, hname, hsort, hrepo, -⟩ := hp.sortKey
  · simp only [Partition.boundValue, hname, sortKeyValue, orderKey, hsort, false_eq_true, if_false]
  · simp only [Partition.boundValue, hname, sortKeyValue, orderKey, hsort, if_true]
  · simp only [Partition.boundValue, hname, sortKeyValue, orderKey, hsort, if_true, repositoryPriorityOrderKey,
      precedes_append]

theorem Partition.Reads.precedes_sortKey (ha : a ∈ p.rows env table) (hb : b ∈ p.rows env table) :
    precedes p.forward (p.sortKey env a) (p.sortKey env b) = true ↔ rankOf sort a < rankOf sort b := by
  rw [hp.sortKey_eq (p.mem_rows.mp ha).2.2, hp.sortKey_eq (p.mem_rows.mp hb).2.2, hp.precedes_boundValue]

end

theorem precedes_eq_false {a b : String} :
    precedes forward b a = false ↔ (show Place forward from a) ≤ (show Place forward from b) := by
  rw [← not_lt, ← precedes_iff, Bool.not_eq_true]

theorem precedes_trans {a b : String} (hab : precedes forward a b = true)
    (hbc : precedes forward b c = true) : precedes forward a c = true :=
  precedes_iff.mpr ((precedes_iff.mp hab).trans (precedes_iff.mp hbc))

theorem precedes_of_not {a b : String} (hab : precedes forward b a = false)
    (hbc : precedes forward b c = true) : precedes forward a c = true :=
  precedes_iff.mpr (lt_of_le_of_lt (precedes_eq_false.mp hab) (precedes_iff.mp hbc))

theorem not_precedes_trans {a b : String} (hab : precedes forward b a = false)
    (hbc : precedes forward c b = false) : precedes forward c a = false :=
  precedes_eq_false.mpr ((precedes_eq_false.mp hab).trans (precedes_eq_false.mp hbc))

theorem pairwise_indexRows :
    (indexRows env table p).Pairwise fun a b => precedes p.forward (p.sortKey env b) (p.sortKey env a) = false := by
  have htotal : Std.Total fun a b => precedes p.forward (p.sortKey env b) (p.sortKey env a) = false :=
    ⟨fun a b => by
      rw [precedes_eq_false, precedes_eq_false]
      exact le_total _ _⟩
  have htrans : IsTrans SessionRecord fun a b => precedes p.forward (p.sortKey env b) (p.sortKey env a) = false :=
    ⟨fun _ _ _ => not_precedes_trans⟩
  exact pairwise_insertionSort _ _

theorem Partition.Reads.increasing_rows (hp : p.Reads env sort) (hagree : SortKeysAgree env sort table)
    (hnodup : table.Nodup) : Increasing (rankOf sort) (p.rows env table) := by
  have hindex : (indexRows env table p).Nodup :=
    (perm_insertionSort _ _).nodup_iff.mpr (hnodup.filter _)
  have hrows := (pairwise_indexRows.and hindex).sublist (filter_sublist (p := p.inRange env))
  refine hrows.imp_of_mem fun {a b} ha hb hab => lt_of_le_of_ne ?_ fun heq => hab.2 ?_
  · rw [← not_lt, ← hp.precedes_sortKey hb ha, hab.1]
    exact Bool.false_ne_true
  · exact hagree.rank_inj (p.mem_table ha) (p.mem_table hb) heq

/-! ## An index whose responses end only at their limit -/

/-- Two rows of the table differ in every sort key. -/
def DistinctSortKeys (env : Runtime) (table : List SessionRecord) : Prop :=
  ∀ name, ∀ a ∈ table, ∀ b ∈ table,
    sortKeyValue env name a.repositoryId a.toCursorPosition = sortKeyValue env name b.repositoryId b.toCursorPosition → a = b

def exactIndex (env : Runtime) (table : List SessionRecord) : QueryRequest → QueryResponse := fun r =>
  let items := (r.rows env table).take r.limit
  ⟨items, if r.limit < (r.rows env table).length then
    items.getLast?.map fun last => ⟨last.id, r.partition.key, r.partition.sortKeyName, r.partition.sortKey env last⟩
    else none⟩

theorem exactIndex_key {r : QueryRequest} {k : SessionPartitionCheckpoint}
    (h : (exactIndex env table r).lastEvaluatedKey = some k) :
    ∃ last, (exactIndex env table r).items.getLast? = some last ∧ k.key = r.partition.key ∧
      k.sortKeyName = r.partition.sortKeyName ∧ k.range = r.partition.sortKey env last := by
  unfold exactIndex at h ⊢
  split at h
  · obtain ⟨last, hlast, rfl⟩ := Option.map_eq_some_iff.mp h
    exact ⟨last, hlast, rfl, rfl, rfl⟩
  · cases h

theorem exactIndex_productive : Productive (exactIndex env table) := by
  intro r k hk hnil
  obtain ⟨last, hlast, -⟩ := exactIndex_key hk
  rw [hnil] at hlast
  cases hlast

theorem pairwise_request_rows (hnodup : table.Nodup) (hdistinct : DistinctSortKeys env table) (r : QueryRequest) :
    (r.rows env table).Pairwise fun a b =>
      precedes r.partition.forward (r.partition.sortKey env a) (r.partition.sortKey env b) = true := by
  have hindex : (indexRows env table r.partition).Nodup :=
    (perm_insertionSort _ _).nodup_iff.mpr (hnodup.filter _)
  refine List.Pairwise.sublist filter_sublist ((pairwise_indexRows.and hindex).imp_of_mem fun {a b} ha hb hab => ?_)
  rw [precedes_iff]
  refine lt_of_le_of_ne (precedes_eq_false.mp hab.1) fun heq => hab.2 ?_
  exact hdistinct _ a (mem_indexRows.mp ha).1 b (mem_indexRows.mp hb).1 heq

theorem exactIndex_answers (hnodup : table.Nodup) (hdistinct : DistinctSortKeys env table) :
    Answers env table (exactIndex env table) where
  items r _ := ⟨r.limit, le_refl _, rfl⟩
  last r hlimit hnone := by
    have hall : (r.rows env table).length ≤ r.limit := by
      by_contra hlt
      rw [not_le] at hlt
      unfold exactIndex at hnone
      dsimp only at hnone
      rw [if_pos hlt, Option.map_eq_none_iff, getLast?_eq_none_iff, take_eq_nil_iff] at hnone
      obtain hzero | hnil := hnone
      · omega
      · rw [hnil] at hlt
        cases hlt
    exact take_of_length_le hall
  valid r _ := by
    cases hkey : (exactIndex env table r).lastEvaluatedKey with
    | none => rfl
    | some k =>
      obtain ⟨last, -, hk, hname, -⟩ := exactIndex_key hkey
      simp [validCheckpoint, hk, hname]
  split r _ k hk session hmem := by
    obtain ⟨last, hlast, -, -, hrange⟩ := exactIndex_key hk
    have hsorted := pairwise_request_rows hnodup hdistinct r
    obtain ⟨front, hitems⟩ := getLast?_eq_some_iff.mp hlast
    have hrows : r.rows env table = front ++ last :: (r.rows env table).drop r.limit := by
      have hsplit := take_append_drop r.limit (r.rows env table)
      change (exactIndex env table r).items ++ _ = _ at hsplit
      rw [hitems, append_assoc] at hsplit
      exact hsplit.symm
    have hlastLt : ∀ a ∈ (r.rows env table).drop r.limit,
        precedes r.partition.forward (r.partition.sortKey env last) (r.partition.sortKey env a) = true := by
      rw [hrows, pairwise_append, pairwise_cons] at hsorted
      exact hsorted.2.1.1
    rw [SessionPartitionCheckpoint.before, hrange]
    constructor
    · intro hread
      rw [hitems, mem_append, mem_singleton] at hread
      obtain hread | rfl := hread
      · have hlt := (pairwise_append.mp (hrows ▸ hsorted)).2.2 session hread last mem_cons_self
        exact precedes_eq_false.mpr (precedes_iff.mp hlt).le
      · exact precedes_eq_false.mpr (le_refl _)
    · intro hnot
      rw [← take_append_drop r.limit (r.rows env table)] at hmem
      obtain hread | hrest := mem_append.mp hmem
      · exact hread
      · rw [hlastLt session hrest] at hnot
        cases hnot
  ahead r _ k hk start hstart := by
    obtain ⟨last, hlast, -, -, hrange⟩ := exactIndex_key hk
    have hmem : last ∈ r.rows env table := mem_of_mem_take (mem_of_getLast? hlast)
    have hafter := (Bool.and_eq_true_iff.mp (mem_filter.mp hmem).2).2
    rw [hstart, all_some] at hafter
    rw [hrange, precedes_eq_false]
    exact (precedes_iff.mp hafter).le

/-! ## Which rows a plan covers -/

variable {ready ready' : Bool} {q : SessionListPageQuery} {p' : Partition} {session : SessionRecord}
  {partition : SessionStatus → ℕ → Partition}

theorem mem_fanOut :
    p ∈ fanOut q partition ↔ ∃ status ∈ statuses q, ∃ shard < q.shardCount, partition status shard = p := by
  simp only [fanOut, mem_flatMap, mem_map, mem_range]

theorem legacyPartitionPlan_cases (env : Runtime) (q : SessionListPageQuery) :
    legacyPartitionPlan env q = [] ∨ legacyPartitionPlan env q = fanOut q (statusPartition q) ∨
      ∃ repositoryId, q.sort.isPriority = true ∧ given q.repositoryId = some repositoryId ∧
        legacyPartitionPlan env q = fanOut q (repositoryPriorityPartition env q repositoryId) := by
  unfold legacyPartitionPlan
  split
  · exact .inl rfl
  · split
    case h_1 repositoryId hrepo =>
      split
      · exact .inl rfl
      · split
        case isTrue hsort => exact .inr (.inr ⟨repositoryId, hsort, hrepo, rfl⟩)
        case isFalse => exact .inr (.inl rfl)
    case h_2 => exact .inr (.inl rfl)

theorem planForRequest_cases (env : Runtime) (ready : Bool) (q : SessionListPageQuery) :
    planForRequest env ready q = [] ∨ (∃ single, singlePartition q = some single ∧ planForRequest env ready q = [single]) ∨
      planForRequest env ready q = fanOut q (statusPartition q) ∨
      ∃ repositoryId, q.sort.isPriority = true ∧ given q.repositoryId = some repositoryId ∧
        planForRequest env ready q = fanOut q (repositoryPriorityPartition env q repositoryId) := by
  have hplan : planForRequest env ready q = [] ∨
      (∃ single, singlePartition q = some single ∧ planForRequest env ready q = [single]) ∨
      planForRequest env ready q = legacyPartitionPlan env q := by
    unfold planForRequest
    split
    · exact .inr (.inr rfl)
    · case h_2 single hsingle =>
      split
      · exact .inl rfl
      · split <;> split
        · exact .inr (.inl ⟨single, hsingle, rfl⟩)
        · exact .inr (.inr rfl)
        · exact .inr (.inl ⟨single, hsingle, rfl⟩)
        · exact .inr (.inr rfl)
  obtain hnil | hsingle | hplan := hplan
  · exact .inl hnil
  · exact .inr (.inl hsingle)
  · rw [hplan]
    obtain hnil | hstatus | hrepo := legacyPartitionPlan_cases env q
    · exact .inl hnil
    · exact .inr (.inr (.inl hstatus))
    · exact .inr (.inr (.inr hrepo))

section

variable (hadmits : q.admits session = true)
include hadmits

theorem mem_statuses : session.status ∈ statuses q := by
  have hstatus : q.status.all (session.status == ·) = true := by
    simp only [admits, and_eq_true] at hadmits
    exact hadmits.1.1.1.1.1.1.1
  unfold statuses
  split
  case h_1 status hq =>
    rw [hq, all_some, beq_iff_eq] at hstatus
    exact mem_singleton.mpr hstatus
  case h_2 =>
    cases session.status <;> decide

theorem admits_repository {repositoryId : String}
    (hq : given q.repositoryId = some repositoryId) : session.repositoryId = repositoryId ∧ repositoryId ≠ "" := by
  obtain ⟨hq, hne⟩ := given_eq_some.mp hq
  have hrepo : q.repositoryId.all (session.repositoryId == ·) = true := by
    simp only [admits, and_eq_true] at hadmits
    exact hadmits.1.1.1.1.1.1.2
  rw [hq, all_some, beq_iff_eq] at hrepo
  exact ⟨hrepo, hne⟩

theorem admits_worktree {worktreeId : String}
    (hq : given q.worktreeId = some worktreeId) : sessionInWorktree session worktreeId = true := by
  have hworktree : (given q.worktreeId).all (sessionInWorktree session ·) = true := by
    simp only [admits, and_eq_true] at hadmits
    exact hadmits.1.1.1.1.2
  rwa [hq, all_some] at hworktree

theorem admits_repositoryIds {ids : List String} (hq : q.repositoryIds = some ids) : session.repositoryId ∈ ids := by
  have hids : q.repositoryIds.all (·.contains session.repositoryId) = true := by
    simp only [admits, and_eq_true] at hadmits
    exact hadmits.2
  rwa [hq, all_some, contains_iff_mem] at hids

end

/-- A session on a worktree was routed there. -/
def Routed (session : SessionRecord) : Prop :=
  ∀ worktreeId, session.worktreeId = some worktreeId → routeWorktreeIdOf session = some worktreeId

theorem singlePartition_eq_some (h : singlePartition q = some p) :
    q.sort.isPriority = false ∧ ∃ key, p = singleIndex key (q.sort == .oldest) ∧
      ∀ session, q.admits session = true → Routed session → p.isKeyed session = true := by
  unfold singlePartition at h
  split at h
  · cases h
  case isFalse hsort =>
    refine ⟨by simpa using hsort, ?_⟩
    split at h
    case h_1 _ worktreeId hworktree =>
      cases h
      refine ⟨_, rfl, fun session hadmits hrouted => ?_⟩
      have hin := admits_worktree hadmits hworktree
      rw [sessionInWorktree, Bool.or_eq_true, beq_iff_eq, beq_iff_eq] at hin
      change (routeWorktreeIdOf session == some worktreeId) = true
      rw [beq_iff_eq]
      exact hin.elim id (hrouted worktreeId)
    case h_2 repositoryId hworktree hrepo =>
      cases h
      refine ⟨_, rfl, fun session hadmits _ => ?_⟩
      obtain ⟨heq, hne⟩ := admits_repository hadmits hrepo
      change (session.repositoryId == repositoryId && session.repositoryId != "") = true
      rw [and_eq_true, beq_iff_eq, bne_iff_ne, heq]
      exact ⟨rfl, hne⟩
    case h_3 =>
      split at h
      · cases h
        exact ⟨_, rfl, fun _ _ _ => rfl⟩
      · cases h

theorem forward_of_created {sort : SessionListSort} (h : sort.isPriority = false) :
    sort.forward = (sort == .oldest) ∧ sort.forward = (sort != .latest) := by
  cases sort <;> first | exact ⟨rfl, rfl⟩ | cases h

theorem forward_of_priority {sort : SessionListSort} (h : sort.isPriority = true) :
    sort.forward = (sort == .priorityAsc) := by
  cases sort <;> first | rfl | cases h

theorem statusPartition_reads (q : SessionListPageQuery) (status : SessionStatus) (shard : ℕ) :
    (statusPartition q status shard).Reads env q.sort := by
  cases hsort : q.sort.isPriority with
  | false =>
    refine ⟨?_, .inl ⟨?_, hsort, rfl⟩⟩
    · simp only [statusPartition, hsort, false_eq_true, if_false, (forward_of_created hsort).2]
    · simp only [statusPartition, hsort, false_eq_true, if_false]
  | true =>
    refine ⟨?_, .inr (.inl ⟨?_, hsort, rfl⟩)⟩
    · simp only [statusPartition, hsort, if_true, forward_of_priority hsort]
    · simp only [statusPartition, hsort, if_true]

theorem plan_reads (h : p ∈ planForRequest env ready q) : p.Reads env q.sort := by
  obtain hnil | ⟨single, hsingle, hplan⟩ | hplan | ⟨repositoryId, hsort, -, hplan⟩ := planForRequest_cases env ready q
  · rw [hnil] at h
    cases h
  · rw [hplan, mem_singleton] at h
    subst h
    obtain ⟨hsort, key, rfl, -⟩ := singlePartition_eq_some hsingle
    exact ⟨(forward_of_created hsort).1.symm, .inl ⟨rfl, hsort, rfl⟩⟩
  · rw [hplan, mem_fanOut] at h
    obtain ⟨status, -, shard, -, rfl⟩ := h
    exact statusPartition_reads q status shard
  · rw [hplan, mem_fanOut] at h
    obtain ⟨status, -, shard, -, rfl⟩ := h
    exact ⟨(forward_of_priority hsort).symm, .inr (.inr ⟨repositoryId, rfl, hsort, rfl, rfl⟩)⟩

theorem plan_disjoint (hp : p ∈ planForRequest env ready q) (hp' : p' ∈ planForRequest env ready q)
    (h : p.id = p'.id ∨ ∃ session, p.isKeyed session = true ∧ p'.isKeyed session = true) : p = p' := by
  have hkeys : ∀ {s s' : SessionStatus} {n n' : ℕ}, p.key = .statusShard s n → p'.key = .statusShard s' n' →
      (∃ session, p.isKeyed session = true ∧ p'.isKeyed session = true) → s = s' ∧ n = n' := by
    rintro s s' n n' hk hk' ⟨session, hs, hs'⟩
    simp only [isKeyed, hk, hk', and_eq_true, beq_iff_eq] at hs hs'
    exact ⟨hs.1.symm.trans hs'.1, hs.2.symm.trans hs'.2⟩
  obtain hnil | ⟨single, -, hplan⟩ | hplan | ⟨repositoryId, -, -, hplan⟩ := planForRequest_cases env ready q
  · rw [hnil] at hp
    cases hp
  · rw [hplan, mem_singleton] at hp hp'
    exact hp.trans hp'.symm
  all_goals
    rw [hplan, mem_fanOut] at hp hp'
    obtain ⟨s, -, n, -, rfl⟩ := hp
    obtain ⟨s', -, n', -, rfl⟩ := hp'
    obtain hid | hrow := h
    · cases hid
      rfl
    · obtain ⟨rfl, rfl⟩ := hkeys rfl rfl hrow
      rfl

theorem nodup_statuses (q : SessionListPageQuery) : (statuses q).Nodup := by
  unfold statuses
  split
  · exact nodup_singleton _
  · decide

theorem nodup_fanOut
    (hinj : ∀ s n s' n', partition s n = partition s' n' → s = s' ∧ n = n') : (fanOut q partition).Nodup := by
  refine nodup_flatMap.mpr ⟨fun s _ => ?_, ?_⟩
  · exact nodup_range.map_on fun n _ n' _ h => (hinj s n s n' h).2
  · refine (nodup_statuses q).imp fun {s s'} hne => ?_
    intro p hp hp'
    obtain ⟨n, -, rfl⟩ := mem_map.mp hp
    obtain ⟨n', -, h⟩ := mem_map.mp hp'
    exact hne (hinj s' n' s n h).1.symm

theorem nodup_plan (env : Runtime) (ready : Bool) (q : SessionListPageQuery) : (planForRequest env ready q).Nodup := by
  obtain hnil | ⟨single, -, hplan⟩ | hplan | ⟨repositoryId, -, -, hplan⟩ := planForRequest_cases env ready q
  · rw [hnil]
    exact nodup_nil
  · rw [hplan]
    exact nodup_singleton _
  all_goals
    rw [hplan]
    refine nodup_fanOut fun s n s' n' h => ?_
    have hid := congrArg Partition.id h
    cases hid
    exact ⟨rfl, rfl⟩

theorem legacyPartitionPlan_covers (env : Runtime) (hadmits : q.admits session = true) (hshard : session.queueShard < q.shardCount) :
    ∃ p ∈ legacyPartitionPlan env q, p.isIndexed session = true ∧ p.inRange env session = true := by
  have hkeyed : (session.status == session.status && session.queueShard == session.queueShard) = true := by simp
  unfold legacyPartitionPlan
  split
  case isTrue hids => exact absurd (admits_repositoryIds hadmits hids) not_mem_nil
  case isFalse =>
    have hstatus : ∃ p ∈ fanOut q (statusPartition q), p.isIndexed session = true ∧ p.inRange env session = true := by
      refine ⟨_, mem_fanOut.mpr ⟨session.status, mem_statuses hadmits, session.queueShard, hshard, rfl⟩, ?_, rfl⟩
      rw [isIndexed, and_eq_true]
      refine ⟨hkeyed, ?_⟩
      cases hsort : q.sort.isPriority <;> simp [statusPartition, hsort]
    split
    case h_2 => exact hstatus
    case h_1 repositoryId hrepo =>
      obtain ⟨heq, hne⟩ := admits_repository hadmits hrepo
      split
      case isTrue hany =>
        obtain ⟨ids, hids, hnot⟩ := (Option.any_eq_true _ _).mp hany
        have hmem := admits_repositoryIds hadmits hids
        rw [heq] at hmem
        simp [hmem] at hnot
      case isFalse =>
        split
        case isFalse => exact hstatus
        case isTrue =>
          refine ⟨_, mem_fanOut.mpr ⟨session.status, mem_statuses hadmits, session.queueShard, hshard, rfl⟩, ?_, ?_⟩
          · rw [isIndexed, and_eq_true, Bool.or_eq_true, bne_iff_ne, heq]
            exact ⟨hkeyed, .inr (by simpa using hne)⟩
          · have hrange : (repositoryPriorityOrderRange env repositoryId).1 ≤
                repositoryPriorityOrderKey env repositoryId session.toCursorPosition ∧
                repositoryPriorityOrderKey env repositoryId session.toCursorPosition ≤
                (repositoryPriorityOrderRange env repositoryId).2 := mem_priorityRange.mpr rfl
            rw [inRange]
            simp only [repositoryPriorityPartition, all_some, and_eq_true, decide_eq_true_iff,
              Partition.sortKey, sortKeyValue, heq]
            exact hrange

def ReadsSingle (ready : Bool) (q : SessionListPageQuery) : Prop :=
  0 < q.shardCount ∧ q.continuation = none ∧ ready = true ∧ (singlePartition q).isSome = true

theorem plan_covers (hadmits : q.admits session = true)
    (hshard : session.queueShard < q.shardCount ∨ ReadsSingle ready q) (hrouted : Routed session) (hmem : session ∈ table) :
    ∃ p ∈ planForRequest env ready q, session ∈ p.rows env table := by
  have hsingle : ∀ single, singlePartition q = some single → ∃ p ∈ [single], session ∈ p.rows env table := by
    intro single hs
    obtain ⟨-, key, rfl, hkeyed⟩ := singlePartition_eq_some hs
    refine ⟨_, mem_singleton_self _, Partition.mem_rows.mpr ⟨hmem, ?_, rfl⟩⟩
    rw [isIndexed, hkeyed session hadmits hrouted]
    rfl
  obtain hshard | ⟨hcount, hfirst, hready, hsome⟩ := hshard
  · obtain ⟨p, hp, hindexed, hrange⟩ := legacyPartitionPlan_covers env hadmits hshard
    have hlegacy : ∃ p ∈ legacyPartitionPlan env q, session ∈ p.rows env table :=
      ⟨p, hp, Partition.mem_rows.mpr ⟨hmem, hindexed, hrange⟩⟩
    unfold planForRequest
    split
    · exact hlegacy
    · case h_2 single hs =>
      split
      case isTrue hempty =>
        rw [isEmpty_iff.mp hempty] at hp
        cases hp
      case isFalse =>
        split <;> split
        · exact hsingle single hs
        · exact hlegacy
        · exact hsingle single hs
        · exact hlegacy
  · obtain ⟨single, hs⟩ := Option.isSome_iff_exists.mp hsome
    -- the status plan is not empty: it would cover the row in shard 0
    have hzero : q.admits { session with queueShard := 0 } = true := hadmits
    obtain ⟨p, hp, -⟩ := legacyPartitionPlan_covers env hzero hcount
    have hplan : planForRequest env ready q = [single] := by
      unfold planForRequest
      rw [hs, hfirst, hready]
      dsimp only
      rw [if_neg (fun hempty => by rw [isEmpty_iff.mp hempty] at hp; cases hp), if_pos rfl]
    rw [hplan]
    exact hsingle single hs

/-! ## Plans of later pages -/

theorem legacyPartitionPlan_id (h : p ∈ legacyPartitionPlan env q) (key : PartitionKey) : p.id ≠ .single key := by
  obtain hnil | hplan | ⟨repositoryId, -, -, hplan⟩ := legacyPartitionPlan_cases env q
  · rw [hnil] at h
    cases h
  all_goals
    rw [hplan, mem_fanOut] at h
    obtain ⟨status, -, shard, -, rfl⟩ := h
    exact fun hid => PartitionId.noConfusion hid

theorem plan_follow {cursor : List PartitionState} {position : Option CursorPosition}
    (hfirst : q.continuation = none) (hcursor : cursor.map (·.id) = (planForRequest env ready q).map (·.id)) :
    planForRequest env ready' { q with position := position, continuation := some cursor } =
      planForRequest env ready q := by
  set q' : SessionListPageQuery := { q with position := position, continuation := some cursor }
  have hlegacy : legacyPartitionPlan env q' = legacyPartitionPlan env q := rfl
  have hsingle : singlePartition q' = singlePartition q := rfl
  have hcontinuation : q'.continuation = some cursor := rfl
  unfold planForRequest at hcursor ⊢
  rw [hlegacy, hsingle]
  rw [hfirst] at hcursor
  cases hs : singlePartition q with
  | none => rfl
  | some single =>
    rw [hs] at hcursor
    cases hempty : (legacyPartitionPlan env q).isEmpty with
    | true => rfl
    | false =>
      rw [hempty] at hcursor
      cases ready with
      | true =>
        have hmatch : planMatches cursor [single] = true := beq_iff_eq.mpr hcursor
        simp only [hfirst, hcontinuation, hmatch, if_true]
      | false =>
        have hmatch : planMatches cursor [single] = false := by
          rw [planMatches, beq_eq_false_iff_ne, hcursor]
          intro hids
          obtain ⟨hsort, key, rfl, -⟩ := singlePartition_eq_some hs
          have hmem : PartitionId.single key ∈ (legacyPartitionPlan env q).map (·.id) := by
            simp only [false_eq_true, if_false] at hids
            rw [hids]
            exact mem_singleton_self _
          obtain ⟨p, hp, hid⟩ := mem_map.mp hmem
          exact legacyPartitionPlan_id hp key hid
        simp only [hfirst, hcontinuation, hmatch, if_false, false_eq_true]

end AutoHarness.Listing

import AutoHarness.Listing.Index

/-! Windows: consecutive rows that one page has read of each partition. -/

namespace AutoHarness.Listing
open Foundation Store List Bool AutoHarness.Listing.Partition
open SortCondition (admits)
open Option (all_some)

/-- A row that was read; only matching ones are listed. -/
structure RawRow where
  session : SessionRecord
  matching : Bool
deriving DecidableEq

/-- What a page has read of one partition. -/
structure PartitionWindow where
  partition : Partition
  previous : PartitionState
  rows : List RawRow := []
  nextKey : Option SessionPartitionCheckpoint := none
  exhaustedRead : Bool := false
  requested : ℕ := 0
deriving DecidableEq

/-- `Math.min(limit + 1, Math.ceil(limit / partitionCount) + 1)`. -/
def initialWindowLimit (limit partitionCount : ℕ) : ℕ :=
  min (limit + 1) ((limit + partitionCount - 1) / partitionCount + 1)

/-- The bound by the position is used only without a start key. -/
def legacySortValue (env : Runtime) (p : Partition) (position : Option CursorPosition)
    (nextKey : Option SessionPartitionCheckpoint) : Option String :=
  if nextKey.isNone then position.map (p.boundValue env) else none

def keyCondition (p : Partition) (legacySortValue : Option String) : SortCondition :=
  match p.sortKeyRange, legacySortValue with
  | some range, some value => if p.forward then .between value range.2 else .between range.1 value
  | some range, none => .between range.1 range.2
  | none, some value =>
    if p.sortKeyName = .createdOrder then if p.forward then .atLeast value else .atMost value
    else if p.forward then .above value else .below value
  | none, none => .any

section Reading

variable (env : Runtime) (index : QueryRequest → QueryResponse) (q : SessionListPageQuery)

def PartitionWindow.extend (w : PartitionWindow) (response : QueryResponse) : PartitionWindow :=
  { w with
    rows := w.rows ++ response.items.map fun session => ⟨session, q.matchesFilters env session⟩
    nextKey := response.lastEvaluatedKey }

/-- Every query that is followed by another brings a row, so `fuel` need not exceed `remaining`. -/
def readRows (condition : SortCondition) : ℕ → ℕ → PartitionWindow → PartitionWindow
  | 0, _, w => w
  | fuel + 1, remaining, w =>
    let response := index ⟨w.partition, condition, remaining, w.nextKey⟩
    let read := response.items.length
    if 0 < remaining - read ∧ 0 < read ∧ response.lastEvaluatedKey.isSome then
      readRows condition fuel (remaining - read) (w.extend env q response)
    else w.extend env q response

def readPartition (w : PartitionWindow) (limit : ℕ) : PartitionWindow :=
  let condition := keyCondition w.partition (legacySortValue env w.partition q.position w.nextKey)
  let read := readRows env index q condition limit limit w
  { read with exhaustedRead := read.nextKey.isNone, requested := w.requested + limit }

def openPartitionWindow (p : Partition) (previous : PartitionState) (limit : ℕ) : PartitionWindow :=
  readPartition env index q { partition := p, previous := previous, nextKey := previous.checkpoint } limit

def extendPartitionWindow (w : PartitionWindow) : PartitionWindow :=
  readPartition env index q w (min w.requested (q.limit + 1 - w.requested))

end Reading

/-- The last row read. -/
def PartitionWindow.frontier (w : PartitionWindow) : Option SessionRecord := w.rows.getLast?.map (·.session)

def matchingSessions (env : Runtime) (q : SessionListPageQuery) (windows : List PartitionWindow) : List SessionRecord :=
  (windows.flatMap fun w => (w.rows.filter (·.matching)).map (·.session)).insertionSort fun a b =>
    compareSessions env a.toCursorPosition b.toCursorPosition q.sort ≠ .gt

/-- More rows of the window could still change the page. -/
def isRefillable (env : Runtime) (q : SessionListPageQuery) (windows : List PartitionWindow) (w : PartitionWindow) : Bool :=
  !w.exhaustedRead && decide (w.requested ≤ q.limit) &&
    match w.frontier, (matchingSessions env q windows)[q.limit - 1]? with
    | some frontier, some threshold =>
      compareSessions env frontier.toCursorPosition threshold.toCursorPosition q.sort == .lt
    | _, _ => true

def refillableWindows (env : Runtime) (q : SessionListPageQuery) (windows : List PartitionWindow) : List PartitionWindow :=
  windows.filter (isRefillable env q windows)

/-! ## Reading keeps a window consecutive -/

section Sound

variable {env : Runtime} {table : List SessionRecord} {q : SessionListPageQuery} {index : QueryRequest → QueryResponse}
  {p : Partition} {w : PartitionWindow} {session : SessionRecord} {condition : SortCondition} {value : Option String}
  {limit : ℕ}

def PositionKnown (table : List SessionRecord) (q : SessionListPageQuery) : Prop :=
  ∀ position, q.position = some position → ∃ a ∈ table, a.toCursorPosition = position

/-- The rows are distinct, the sort keys order them, and the index answers its queries. -/
structure Sources (env : Runtime) (table : List SessionRecord) (sort : SessionListSort)
    (index : QueryRequest → QueryResponse) : Prop where
  nodup : table.Nodup
  agree : SortKeysAgree env sort table
  answers : Answers env table index

theorem Sources.exact {sort : SessionListSort} (hnodup : table.Nodup) (hagree : SortKeysAgree env sort table)
    (hdistinct : DistinctSortKeys env table) : Sources env table sort (exactIndex env table) :=
  ⟨hnodup, hagree, exactIndex_answers hnodup hdistinct⟩

theorem isBeyond_iff (hs : Sources env table q.sort index) (hposition : PositionKnown table q) (hmem : session ∈ table) :
    q.isBeyond env session = true ↔ ∀ position, q.position = some position → rank q.sort position < rankOf q.sort session := by
  unfold SessionListPageQuery.isBeyond
  cases hq : q.position with
  | none => simp
  | some position =>
    obtain ⟨a, ha, rfl⟩ := hposition position hq
    rw [all_some, beq_iff_eq, compareSessionToCursor_eq, hs.agree.compare_gt hmem ha]
    constructor
    · rintro h _ ⟨⟩
      exact h
    · exact fun h => h _ rfl

def Bounds (env : Runtime) (p : Partition) (q : SessionListPageQuery) (value : Option String) : Prop :=
  value = none ∨ ∃ position, q.position = some position ∧ value = some (p.boundValue env position)

theorem legacySortValue_bounds (env : Runtime) (p : Partition) (q : SessionListPageQuery) (nextKey : Option SessionPartitionCheckpoint) :
    Bounds env p q (legacySortValue env p q.position nextKey) := by
  unfold legacySortValue
  split
  · cases hq : q.position with
    | none => exact .inl rfl
    | some position => exact .inr ⟨position, hq, rfl⟩
  · exact .inl rfl

theorem keyCondition_inRange (hp : p.Reads env q.sort) (hvalue : Bounds env p q value)
    (h : (keyCondition p value).admits (p.sortKey env session) = true) : p.inRange env session = true := by
  obtain ⟨-, -, hrange⟩ | ⟨-, -, hrange⟩ | ⟨repositoryId, hname, -, hrepo, hrange⟩ := hp.sortKey
  · rw [inRange, hrange]
    rfl
  · rw [inRange, hrange]
    rfl
  · rw [inRange, hrange, all_some, and_eq_true, decide_eq_true_iff, decide_eq_true_iff]
    obtain rfl | ⟨position, -, rfl⟩ := hvalue
    · simpa only [keyCondition, hrange, admits, and_eq_true, decide_eq_true_iff] using h
    · have hbound : (repositoryPriorityOrderRange env repositoryId).1 ≤ p.boundValue env position ∧
          p.boundValue env position ≤ (repositoryPriorityOrderRange env repositoryId).2 := by
        rw [boundValue, hname, hrepo]
        exact mem_priorityRange.mpr rfl
      cases hforward : p.forward
      all_goals
        simp only [keyCondition, hrange, hforward, false_eq_true, if_false, if_true, admits,
          and_eq_true, decide_eq_true_iff] at h
      · exact ⟨h.1, h.2.trans hbound.2⟩
      · exact ⟨hbound.1.trans h.1, h.2⟩

theorem keyCondition_admits (hs : Sources env table q.sort index) (hposition : PositionKnown table q)
    (hp : p.Reads env q.sort) (hvalue : Bounds env p q value)
    (hmem : session ∈ p.rows env table) (hmatch : q.matchesFilters env session = true) :
    (keyCondition p value).admits (p.sortKey env session) = true := by
  have hinRange := (p.mem_rows.mp hmem).2.2
  have hbeyond : q.isBeyond env session = true := (and_eq_true_iff.mp hmatch).2
  rw [isBeyond_iff hs hposition (p.mem_table hmem)] at hbeyond
  have hrange : ∀ range, p.sortKeyRange = some range → range.1 ≤ p.sortKey env session ∧ p.sortKey env session ≤ range.2 := by
    intro range hr
    rw [inRange, hr, all_some, and_eq_true, decide_eq_true_iff, decide_eq_true_iff] at hinRange
    exact hinRange
  obtain rfl | ⟨position, hq, rfl⟩ := hvalue
  · cases hr : p.sortKeyRange with
    | none => simp only [keyCondition, hr, admits]
    | some range =>
      simp only [keyCondition, hr, admits, and_eq_true, decide_eq_true_iff]
      exact hrange range hr
  · have hlt : precedes p.forward (p.boundValue env position) (p.sortKey env session) = true := by
      rw [hp.sortKey_eq hinRange, hp.precedes_boundValue]
      exact hbeyond position hq
    cases hr : p.sortKeyRange with
    | none =>
      cases hforward : p.forward
      all_goals
        simp only [precedes, hforward, false_eq_true, if_false, if_true, decide_eq_true_iff] at hlt
        by_cases hname : p.sortKeyName = .createdOrder
      all_goals
        simp only [keyCondition, hr, hforward, hname, false_eq_true, if_false, if_true, admits,
          decide_eq_true_iff]
      · exact hlt.le
      · exact hlt
      · exact hlt.le
      · exact hlt
    | some range =>
      obtain ⟨hlow, hhigh⟩ := hrange range hr
      cases hforward : p.forward
      all_goals
        simp only [precedes, hforward, false_eq_true, if_false, if_true, decide_eq_true_iff] at hlt
        simp only [keyCondition, hr, hforward, false_eq_true, if_false, if_true, admits,
          and_eq_true, decide_eq_true_iff]
      · exact ⟨hlow, hlt.le⟩
      · exact ⟨hlt.le, hhigh⟩

/-- Consecutive rows, after the checkpoint and not after the key at which the next read starts. -/
structure Gathered (env : Runtime) (table : List SessionRecord) (q : SessionListPageQuery) (w : PartitionWindow) :
    Prop where
  mem : ∀ x ∈ w.rows, x.session ∈ w.partition.rows env table
  flag : ∀ x ∈ w.rows, x.matching = q.matchesFilters env x.session
  sorted : Increasing (rankOf q.sort) (w.rows.map (·.session))
  resumed : ∀ k, w.previous.checkpoint = some k → ∀ x ∈ w.rows, k.before env w.partition x.session = true
  behind : ∀ k, w.nextKey = some k → ∀ x ∈ w.rows, k.before env w.partition x.session = false
  onward : ∀ k, w.nextKey = some k → ∀ k₀, w.previous.checkpoint = some k₀ →
    precedes w.partition.forward k.range k₀.range = false
  valid : validCheckpoint w.nextKey w.partition = true

theorem Gathered.of_rows_nil (hrows : w.rows = []) (hvalid : validCheckpoint w.nextKey w.partition = true)
    (honward : ∀ k, w.nextKey = some k → ∀ k₀, w.previous.checkpoint = some k₀ →
      precedes w.partition.forward k.range k₀.range = false) : Gathered env table q w where
  mem x hx := by rw [hrows] at hx; cases hx
  flag x hx := by rw [hrows] at hx; cases hx
  sorted := by rw [hrows]; exact List.Pairwise.nil
  resumed _ _ x hx := by rw [hrows] at hx; cases hx
  behind _ _ x hx := by rw [hrows] at hx; cases hx
  onward := honward
  valid := hvalid

/-- A matching row was read or lies beyond the next key. -/
def Complete (env : Runtime) (table : List SessionRecord) (q : SessionListPageQuery) (w : PartitionWindow) : Prop :=
  ∀ session ∈ w.partition.rows env table, q.matchesFilters env session = true →
    (∃ x ∈ w.rows, x.session = session) ∨ ∃ k, w.nextKey = some k ∧ k.before env w.partition session = true

def Resumable (w : PartitionWindow) : Prop :=
  w.nextKey = none → w.rows = [] ∧ w.previous.checkpoint = none

/-- The next request admits every matching row not yet read. -/
def Asks (env : Runtime) (table : List SessionRecord) (q : SessionListPageQuery) (w : PartitionWindow)
    (condition : SortCondition) : Prop :=
  ∀ session ∈ w.partition.rows env table, q.matchesFilters env session = true →
    (∃ x ∈ w.rows, x.session = session) ∨
      (condition.admits (w.partition.sortKey env session) = true ∧
        ∀ k, w.nextKey = some k → k.before env w.partition session = true)

theorem request_rows {start : Option SessionPartitionCheckpoint}
    (hrange : ∀ session, condition.admits (p.sortKey env session) = true → p.inRange env session = true) :
    QueryRequest.rows env table ⟨p, condition, limit, start⟩ = (p.rows env table).filter fun session =>
      condition.admits (p.sortKey env session) && start.all fun k => k.before env p session := by
  rw [QueryRequest.rows, rows, filter_filter]
  refine filter_congr fun session _ => ?_
  cases hadmits : condition.admits (p.sortKey env session) with
  | false => rfl
  | true => rw [hrange session hadmits, Bool.and_true]

theorem gathered_query (hs : Sources env table q.sort index) (hp : w.partition.Reads env q.sort)
    (hlimit : 0 < limit) (hw : Gathered env table q w) (hresume : Resumable w)
    (hrange : ∀ session, condition.admits (w.partition.sortKey env session) = true → w.partition.inRange env session = true)
    (hasks : Asks env table q w condition) :
    Gathered env table q (w.extend env q (index ⟨w.partition, condition, limit, w.nextKey⟩)) ∧
      Complete env table q (w.extend env q (index ⟨w.partition, condition, limit, w.nextKey⟩)) := by
  set request : QueryRequest := ⟨w.partition, condition, limit, w.nextKey⟩ with hrequest
  have hrows : request.rows env table = _ := request_rows hrange
  have hmem : ∀ r ∈ request.rows env table, r ∈ w.partition.rows env table := by
    intro r hr
    rw [hrows] at hr
    exact (mem_filter.mp hr).1
  have hstart : ∀ r ∈ request.rows env table, ∀ k, w.nextKey = some k → k.before env w.partition r = true := by
    intro r hr k hk
    rw [hrows] at hr
    have hafter := (and_eq_true_iff.mp (mem_filter.mp hr).2).2
    rwa [hk, all_some] at hafter
  have hsorted : Increasing (rankOf q.sort) (request.rows env table) := by
    rw [hrows]
    exact (hp.increasing_rows hs.agree hs.nodup).filter _
  obtain ⟨n, -, hitems⟩ := hs.answers.items request hlimit
  have hitem : ∀ r ∈ (index request).items, r ∈ request.rows env table := by
    intro r hr
    rw [hitems] at hr
    exact mem_of_mem_take hr
  have hnew : ∀ {x : RawRow}, x ∈ (w.extend env q (index request)).rows →
      x ∈ w.rows ∨ (x.session ∈ request.rows env table ∧ x.session ∈ (index request).items ∧
        x.matching = q.matchesFilters env x.session) := by
    intro x hx
    obtain hx | hx := mem_append.mp hx
    · exact .inl hx
    · obtain ⟨r, hr, rfl⟩ := mem_map.mp hx
      exact .inr ⟨hitem r hr, hr, rfl⟩
  refine ⟨⟨fun x hx => ?_, fun x hx => ?_, ?_, fun k hk x hx => ?_, fun k hk x hx => ?_, fun k hk k₀ hk₀ => ?_, ?_⟩, ?_⟩
  · obtain hx | ⟨hx, -, -⟩ := hnew hx
    · exact hw.mem x hx
    · exact hmem _ hx
  · obtain hx | ⟨-, -, hx⟩ := hnew hx
    · exact hw.flag x hx
    · exact hx
  · have hmap : ((w.extend env q (index request)).rows.map (·.session)) =
        w.rows.map (·.session) ++ (index request).items := by
      rw [PartitionWindow.extend, map_append, map_map]
      exact congrArg (w.rows.map (·.session) ++ ·) (map_id _)
    rw [hmap]
    refine hw.sorted.append ?_ fun a ha r hr => ?_
    · rw [hitems]
      exact List.Pairwise.sublist (take_sublist _ _) hsorted
    · obtain ⟨x, hx, rfl⟩ := mem_map.mp ha
      have hr := hitem r hr
      rw [← hp.precedes_sortKey (hw.mem x hx) (hmem r hr)]
      cases hk : w.nextKey with
      | none =>
        rw [(hresume hk).1] at hx
        cases hx
      | some k => exact precedes_of_not (hw.behind k hk x hx) (hstart r hr k hk)
  · obtain hx | ⟨hx, -, -⟩ := hnew hx
    · exact hw.resumed k hk x hx
    · cases hnext : w.nextKey with
      | none =>
        have hnone := (hresume hnext).2
        rw [show w.previous.checkpoint = some k from hk] at hnone
        cases hnone
      | some next => exact precedes_of_not (hw.onward next hnext k hk) (hstart _ hx next hnext)
  · obtain hx | ⟨hx, hitem, -⟩ := hnew hx
    · cases hnext : w.nextKey with
      | none =>
        rw [(hresume hnext).1] at hx
        cases hx
      | some next =>
        have hahead := hs.answers.ahead request hlimit k hk next hnext
        exact not_precedes_trans (hw.behind next hnext x hx) hahead
    · exact (hs.answers.split request hlimit k hk _ hx).mp hitem
  · cases hnext : w.nextKey with
    | none =>
      have hnone := (hresume hnext).2
      rw [show w.previous.checkpoint = some k₀ from hk₀] at hnone
      cases hnone
    | some next =>
      exact not_precedes_trans (hw.onward next hnext k₀ hk₀) (hs.answers.ahead request hlimit k hk next hnext)
  · exact hs.answers.valid request hlimit
  · intro session hsession hmatch
    obtain ⟨x, hx, hxs⟩ | ⟨hadmits, hafter⟩ := hasks session hsession hmatch
    · exact .inl ⟨x, mem_append_left _ hx, hxs⟩
    · have hselected : session ∈ request.rows env table := by
        rw [hrows, mem_filter]
        refine ⟨hsession, and_eq_true_iff.mpr ⟨hadmits, ?_⟩⟩
        cases hk : w.nextKey with
        | none => rfl
        | some k => exact hafter k hk
      by_cases hread : session ∈ (index request).items
      · refine .inl ⟨⟨session, q.matchesFilters env session⟩, mem_append_right _ ?_, rfl⟩
        exact mem_map.mpr ⟨session, hread, rfl⟩
      · cases hlast : (index request).lastEvaluatedKey with
        | none =>
          rw [hs.answers.last request hlimit hlast] at hread
          exact absurd hselected hread
        | some k =>
          refine .inr ⟨k, hlast, ?_⟩
          have hsplit := hs.answers.split request hlimit k hlast session hselected
          cases hbefore : k.before env w.partition session with
          | true => exact hbefore
          | false => exact absurd (hsplit.mpr hbefore) hread

theorem Complete.asks (hcomplete : Complete env table q w)
    (hadmits : ∀ session ∈ w.partition.rows env table, q.matchesFilters env session = true →
      condition.admits (w.partition.sortKey env session) = true) : Asks env table q w condition := by
  intro session hsession hmatch
  obtain hread | ⟨k, hk, hbefore⟩ := hcomplete session hsession hmatch
  · exact .inl hread
  · refine .inr ⟨hadmits session hsession hmatch, fun k' hk' => ?_⟩
    obtain rfl : k = k' := Option.some.inj (hk.symm.trans hk')
    exact hbefore

theorem readRows_gathered (hs : Sources env table q.sort index) (hp : p.Reads env q.sort)
    (hrange : ∀ session, condition.admits (p.sortKey env session) = true → p.inRange env session = true)
    (hadmits : ∀ session ∈ p.rows env table, q.matchesFilters env session = true →
      condition.admits (p.sortKey env session) = true) (previous : PartitionState) :
    ∀ {fuel remaining : ℕ} {w : PartitionWindow}, 0 < remaining → remaining ≤ fuel → w.partition = p →
      w.previous = previous → Gathered env table q w → Resumable w → Asks env table q w condition →
      (readRows env index q condition fuel remaining w).partition = p ∧
      (readRows env index q condition fuel remaining w).previous = previous ∧
      Gathered env table q (readRows env index q condition fuel remaining w) ∧
      Complete env table q (readRows env index q condition fuel remaining w) := by
  intro fuel
  induction fuel with
  | zero =>
    intro remaining w hpos hle
    omega
  | succ fuel ih =>
    intro remaining w hpos hle hpart hprev hw hresume hasks
    subst hpart
    obtain ⟨hnext, hcomplete⟩ := gathered_query hs hp hpos hw hresume hrange hasks
    simp only [readRows]
    split
    case isTrue hmore =>
      obtain ⟨hleft, hread, hkey⟩ := hmore
      refine ih hleft (by omega) rfl hprev hnext (fun hnone => ?_) (hcomplete.asks hadmits)
      rw [show (index _).lastEvaluatedKey = none from hnone] at hkey
      cases hkey
    case isFalse => exact ⟨rfl, hprev, hnext, hcomplete⟩

/-- A window the page has read: what it gathered, and whether its partition has more. -/
structure Sound (env : Runtime) (table : List SessionRecord) (q : SessionListPageQuery) (w : PartitionWindow) : Prop
    extends Gathered env table q w where
  complete : Complete env table q w
  closed : w.exhaustedRead = w.nextKey.isNone
  asked : w.exhaustedRead = false → 0 < w.requested

theorem readPartition_sound (hs : Sources env table q.sort index) (hposition : PositionKnown table q)
    (hp : w.partition.Reads env q.sort) (hlimit : 0 < limit) (hw : Gathered env table q w) (hresume : Resumable w)
    (hasks : Asks env table q w (keyCondition w.partition (legacySortValue env w.partition q.position w.nextKey))) :
    (readPartition env index q w limit).partition = w.partition ∧
      (readPartition env index q w limit).previous = w.previous ∧
      Sound env table q (readPartition env index q w limit) := by
  have hbounds := legacySortValue_bounds env w.partition q w.nextKey
  obtain ⟨hpart, hprev, hgathered, hcomplete⟩ := readRows_gathered hs hp
    (fun session => keyCondition_inRange hp hbounds)
    (fun session hmem hmatch => keyCondition_admits hs hposition hp hbounds hmem hmatch)
    w.previous hlimit (le_refl limit) rfl rfl hw hresume hasks
  have hkept : Gathered env table q (readPartition env index q w limit) :=
    ⟨hgathered.mem, hgathered.flag, hgathered.sorted, hgathered.resumed, hgathered.behind, hgathered.onward,
      hgathered.valid⟩
  exact ⟨hpart, hprev, ⟨hkept, hcomplete, rfl, fun _ => Nat.add_pos_right _ hlimit⟩⟩

/-- No row up to the checkpoint matches any more. -/
def Passed (env : Runtime) (table : List SessionRecord) (q : SessionListPageQuery) (p : Partition)
    (checkpoint : Option SessionPartitionCheckpoint) : Prop :=
  ∀ k, checkpoint = some k → ∀ session ∈ p.rows env table, k.before env p session = false →
    q.matchesFilters env session = false

theorem openPartitionWindow_sound (hs : Sources env table q.sort index) (hposition : PositionKnown table q)
    (hp : p.Reads env q.sort) {previous : PartitionState} (hvalid : validCheckpoint previous.checkpoint p = true)
    (hpassed : Passed env table q p previous.checkpoint) (hlimit : 0 < limit) :
    (openPartitionWindow env index q p previous limit).partition = p ∧
      (openPartitionWindow env index q p previous limit).previous = previous ∧
      Sound env table q (openPartitionWindow env index q p previous limit) := by
  have hbounds := legacySortValue_bounds env p q previous.checkpoint
  refine readPartition_sound hs hposition hp hlimit ?_ (fun hnone => ⟨rfl, hnone⟩) fun session hmem hmatch => ?_
  · refine Gathered.of_rows_nil rfl hvalid fun k hk k₀ hk₀ => ?_
    obtain rfl : k = k₀ := Option.some.inj (hk.symm.trans hk₀)
    exact precedes_eq_false.mpr (le_refl _)
  · refine .inr ⟨keyCondition_admits hs hposition hp hbounds hmem hmatch, fun k hk => ?_⟩
    cases hbefore : k.before env p session with
    | true => rfl
    | false =>
      rw [hpassed k hk session hmem hbefore] at hmatch
      cases hmatch

theorem extendPartitionWindow_sound (hs : Sources env table q.sort index) (hposition : PositionKnown table q)
    (hp : w.partition.Reads env q.sort) (hw : Sound env table q w) (hopen : w.exhaustedRead = false)
    (hrequested : w.requested ≤ q.limit) : (extendPartitionWindow env index q w).partition = w.partition ∧
      (extendPartitionWindow env index q w).previous = w.previous ∧
      Sound env table q (extendPartitionWindow env index q w) := by
  have hpos := hw.asked hopen
  have hlimit : 0 < min w.requested (q.limit + 1 - w.requested) := by omega
  refine readPartition_sound hs hposition hp hlimit hw.toGathered (fun hnone => ?_) (hw.complete.asks ?_)
  · rw [hw.closed, hnone] at hopen
    cases hopen
  · exact fun session hmem hmatch =>
      keyCondition_admits hs hposition hp (legacySortValue_bounds env w.partition q w.nextKey) hmem hmatch

end Sound

end AutoHarness.Listing

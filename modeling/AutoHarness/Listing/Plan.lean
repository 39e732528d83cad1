import AutoHarness.Listing.Order

/-! The partitions a session list reads, the rows a secondary index holds of them, and what one index
query selects. -/

namespace AutoHarness.Listing
open Foundation Store

/-- The hash key of an index. -/
inductive PartitionKey where
  | statusShard (status : SessionStatus) (shard : ℕ)
  | repositoryId (value : String)
  | routeWorktreeId (value : String)
  | sessionList
deriving DecidableEq, Repr

inductive SortKeyName where
  | createdOrder | priorityOrder | repositoryPriorityOrder
deriving DecidableEq, Repr

/-- `status:…`, `repository-priority:…` and, of a one-partition plan, its key with its value. -/
inductive PartitionId where
  | single (key : PartitionKey)
  | status (status : SessionStatus) (shard : ℕ)
  | repositoryPriority (repositoryId : String) (status : SessionStatus) (shard : ℕ)
deriving DecidableEq, Repr

structure Partition where
  id : PartitionId
  key : PartitionKey
  forward : Bool
  sortKeyName : SortKeyName
  sortKeyRange : Option (String × String) := none
  repositoryId : Option String := none
deriving DecidableEq, Repr

/-- The key after which a partition is read on. -/
structure SessionPartitionCheckpoint where
  id : String
  key : PartitionKey
  sortKeyName : SortKeyName
  range : String
deriving DecidableEq, Repr

/-- How far a partition was read. -/
structure PartitionState where
  id : PartitionId
  checkpoint : Option SessionPartitionCheckpoint := none
  exhausted : Bool := false
deriving DecidableEq, Repr

structure SessionListPageQuery where
  limit : ℕ
  sort : SessionListSort
  shardCount : ℕ
  status : Option SessionStatus := none
  repositoryId : Option String := none
  repositoryIds : Option (List String) := none
  hostId : Option String := none
  worktreeId : Option String := none
  source : Option String := none
  concurrencyId : Option String := none
  scheduleId : Option String := none
  position : Option CursorPosition := none
  continuation : Option (List PartitionState) := none
deriving DecidableEq, Repr

/-! ## Filters -/

def routeWorktreeIdOf (session : SessionRecord) : Option String := given session.routeWorktree

/-- By its route or by its own attribute. -/
def sessionInWorktree (session : SessionRecord) (worktreeId : String) : Bool :=
  routeWorktreeIdOf session == some worktreeId || session.worktreeId == some worktreeId

namespace SessionListPageQuery

variable (env : Runtime) (q : SessionListPageQuery)

def admits (session : SessionRecord) : Bool :=
  q.status.all (session.status == ·) && q.repositoryId.all (session.repositoryId == ·) &&
  q.hostId.all (session.hostId == some ·) && (given q.worktreeId).all (sessionInWorktree session ·) &&
  q.source.all (session.source == some ·) && q.concurrencyId.all (session.concurrencyId == some ·) &&
  q.scheduleId.all (session.scheduleId == some ·) && q.repositoryIds.all (·.contains session.repositoryId)

def isBeyond (session : SessionRecord) : Bool :=
  q.position.all fun position =>
    compareSessionToCursor env session.toCursorPosition position q.sort == .gt

def matchesFilters (session : SessionRecord) : Bool := q.admits session && q.isBeyond env session

end SessionListPageQuery

/-! ## Plans -/

def sessionStatuses : List SessionStatus := [.queued, .running, .completed, .failed, .cancelled, .timedOut]

def singleIndex (key : PartitionKey) (forward : Bool) : Partition :=
  { id := .single key, key := key, forward := forward, sortKeyName := .createdOrder }

/-- One index holds all the sessions asked for. -/
def singlePartition (q : SessionListPageQuery) : Option Partition :=
  if q.sort.isPriority then none
  else
    match given q.worktreeId, given q.repositoryId with
    | some worktreeId, _ => some (singleIndex (.routeWorktreeId worktreeId) (q.sort == .oldest))
    | none, some repositoryId => some (singleIndex (.repositoryId repositoryId) (q.sort == .oldest))
    | none, none =>
      if q.status.isNone && q.hostId.isNone && q.source.isNone && q.concurrencyId.isNone && q.scheduleId.isNone &&
          q.repositoryIds.isNone then
        some (singleIndex .sessionList (q.sort == .oldest))
      else none

def statuses (q : SessionListPageQuery) : List SessionStatus :=
  match q.status with
  | some status => [status]
  | none => sessionStatuses

def statusPartition (q : SessionListPageQuery) (status : SessionStatus) (shard : ℕ) : Partition where
  id := .status status shard
  key := .statusShard status shard
  forward := if q.sort.isPriority then q.sort == .priorityAsc else q.sort != .latest
  sortKeyName := if q.sort.isPriority then .priorityOrder else .createdOrder

def repositoryPriorityPartition (env : Runtime) (q : SessionListPageQuery) (repositoryId : String)
    (status : SessionStatus) (shard : ℕ) : Partition where
  id := .repositoryPriority repositoryId status shard
  key := .statusShard status shard
  forward := q.sort == .priorityAsc
  sortKeyName := .repositoryPriorityOrder
  sortKeyRange := some (repositoryPriorityOrderRange env repositoryId)
  repositoryId := some repositoryId

/-- One partition for each status and shard. -/
def fanOut (q : SessionListPageQuery) (partition : SessionStatus → ℕ → Partition) : List Partition :=
  (statuses q).flatMap fun status => (List.range q.shardCount).map fun shard => partition status shard

def legacyPartitionPlan (env : Runtime) (q : SessionListPageQuery) : List Partition :=
  if q.repositoryIds = some [] then []
  else
    match given q.repositoryId with
    | some repositoryId =>
      if q.repositoryIds.any (!·.contains repositoryId) then []
      else if q.sort.isPriority then fanOut q (repositoryPriorityPartition env q repositoryId)
      else fanOut q (statusPartition q)
    | none => fanOut q (statusPartition q)

def planMatches (cursor : List PartitionState) (partitions : List Partition) : Bool :=
  cursor.map (·.id) == partitions.map (·.id)

/-- `ready` says whether the one-partition indexes are known to be complete. -/
def planForRequest (env : Runtime) (ready : Bool) (q : SessionListPageQuery) : List Partition :=
  match singlePartition q with
  | none => legacyPartitionPlan env q
  | some single =>
    if (legacyPartitionPlan env q).isEmpty then []
    else
      match q.continuation with
      | some cursor => if planMatches cursor [single] then [single] else legacyPartitionPlan env q
      | none => if ready then [single] else legacyPartitionPlan env q

/-! ## What an index holds -/

section Index

variable (env : Runtime)

/-- The hash key of the row is that of the partition. -/
def Partition.isKeyed (p : Partition) (session : SessionRecord) : Bool :=
  match p.key with
  | .statusShard status shard => session.status == status && session.queueShard == shard
  | .repositoryId value => session.repositoryId == value && session.repositoryId != ""
  | .routeWorktreeId value => routeWorktreeIdOf session == some value
  | .sessionList => true

def sortKeyValue (name : SortKeyName) (repositoryId : String) (session : CursorPosition) : String :=
  match name with
  | .createdOrder => createdOrderKey session
  | .priorityOrder => priorityOrderKey session
  | .repositoryPriorityOrder => repositoryPriorityOrderKey env repositoryId session

def Partition.sortKey (p : Partition) (session : SessionRecord) : String :=
  sortKeyValue env p.sortKeyName session.repositoryId session.toCursorPosition

/-- Sessions of no repository have no repository-priority key, so that index leaves them out. -/
def Partition.isIndexed (p : Partition) (session : SessionRecord) : Bool :=
  p.isKeyed session && (p.sortKeyName != .repositoryPriorityOrder || session.repositoryId != "")

def indexRows (table : List SessionRecord) (p : Partition) : List SessionRecord :=
  (table.filter p.isIndexed).insertionSort fun a b => precedes p.forward (p.sortKey env b) (p.sortKey env a) = false

def Partition.inRange (p : Partition) (session : SessionRecord) : Bool :=
  p.sortKeyRange.all fun range => range.1 ≤ p.sortKey env session && p.sortKey env session ≤ range.2

def Partition.rows (table : List SessionRecord) (p : Partition) : List SessionRecord :=
  (indexRows env table p).filter (p.inRange env)

inductive SortCondition where
  | any
  | between (start stop : String)
  | atLeast (value : String)
  | atMost (value : String)
  | above (value : String)
  | below (value : String)
deriving DecidableEq

def SortCondition.admits : SortCondition → String → Bool
  | any, _ => true
  | between start stop, key => start ≤ key && key ≤ stop
  | atLeast value, key => value ≤ key
  | atMost value, key => key ≤ value
  | above value, key => value < key
  | below value, key => key < value

structure QueryRequest where
  partition : Partition
  condition : SortCondition
  limit : ℕ
  exclusiveStartKey : Option SessionPartitionCheckpoint

structure QueryResponse where
  items : List SessionRecord
  lastEvaluatedKey : Option SessionPartitionCheckpoint

def SessionPartitionCheckpoint.before (k : SessionPartitionCheckpoint) (p : Partition) (session : SessionRecord) : Bool :=
  precedes p.forward k.range (p.sortKey env session)

/-- The rows the request asks for, before its limit. -/
def QueryRequest.rows (table : List SessionRecord) (r : QueryRequest) : List SessionRecord :=
  (indexRows env table r.partition).filter fun session =>
    r.condition.admits (r.partition.sortKey env session) &&
      r.exclusiveStartKey.all fun k => k.before env r.partition session

end Index

def validCheckpoint (checkpoint : Option SessionPartitionCheckpoint) (p : Partition) : Bool :=
  checkpoint.all fun k => k.key == p.key && k.sortKeyName == p.sortKeyName

/-- The first rows a request selects and, unless these are all, a key between them and the rest. -/
structure Answers (env : Runtime) (table : List SessionRecord) (index : QueryRequest → QueryResponse) : Prop where
  items : ∀ r, 0 < r.limit → ∃ n ≤ r.limit, (index r).items = (r.rows env table).take n
  last : ∀ r, 0 < r.limit → (index r).lastEvaluatedKey = none → (index r).items = r.rows env table
  valid : ∀ r, 0 < r.limit → validCheckpoint (index r).lastEvaluatedKey r.partition = true
  split : ∀ r, 0 < r.limit → ∀ k, (index r).lastEvaluatedKey = some k →
    ∀ session ∈ r.rows env table, session ∈ (index r).items ↔ k.before env r.partition session = false
  ahead : ∀ r, 0 < r.limit → ∀ k, (index r).lastEvaluatedKey = some k →
    ∀ start, r.exclusiveStartKey = some start → precedes r.partition.forward k.range start.range = false

/-- A response that is not the last has rows. -/
def Productive (index : QueryRequest → QueryResponse) : Prop :=
  ∀ r k, (index r).lastEvaluatedKey = some k → (index r).items ≠ []

end AutoHarness.Listing

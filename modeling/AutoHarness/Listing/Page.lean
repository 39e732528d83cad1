import AutoHarness.Foundation.Paging
import AutoHarness.Listing.Window

/-! One page of the durable session list: its windows, the rows it selects, and the state it stores of each partition.
-/

namespace AutoHarness.Listing
open Foundation Store

/-! ## Selection -/

/-- A matching row that was read, with its window. -/
structure Candidate where
  window : PartitionWindow
  row : RawRow
deriving DecidableEq

section Select

variable (env : Runtime) (index : QueryRequest → QueryResponse) (q : SessionListPageQuery)

def candidates (windows : List PartitionWindow) : List Candidate :=
  (windows.flatMap fun w => (w.rows.filter (·.matching)).map (Candidate.mk w)).insertionSort fun a b =>
    compareSessions env a.row.session.toCursorPosition b.row.session.toCursorPosition q.sort ≠ .gt

/-- No window can still bring a row before the candidate. -/
def isSafe (windows : List PartitionWindow) (c : Candidate) : Bool :=
  windows.all fun w => w.exhaustedRead ||
    w.frontier.any fun frontier =>
      compareSessions env c.row.session.toCursorPosition frontier.toCursorPosition q.sort != .gt

/-- Every matching row before it in its window is selected. -/
def isConsumable (selected : List Candidate) (c : Candidate) : Bool :=
  (c.window.rows.takeWhile (· != c.row)).all fun prior => !prior.matching || selected.any (·.row == prior)

/-- Select the first consumable candidate until the page is full. -/
def selectConsumable : ℕ → List Candidate → List Candidate → List Candidate
  | 0, selected, _ => selected
  | n + 1, selected, remaining =>
    match remaining.find? (isConsumable selected) with
    | none => selected
    | some c => selectConsumable n (selected ++ [c]) (remaining.erase c)

def selectPage (windows : List PartitionWindow) : List Candidate :=
  selectConsumable q.limit [] ((candidates env q windows).filter (isSafe env q windows))

/-- Read on until the page is full or nothing can be refilled. -/
def fillPage : ℕ → List PartitionWindow → List PartitionWindow
  | 0, windows => windows
  | fuel + 1, windows =>
    if (selectPage env q windows).length < q.limit then
      if (refillableWindows env q windows).isEmpty then windows
      else fillPage fuel (windows.map fun w =>
        if isRefillable env q windows w then extendPartitionWindow env index q w else w)
    else windows

end Select

/-! ## What is stored of each partition -/

def keyForRow (env : Runtime) (p : Partition) (row : RawRow) : SessionPartitionCheckpoint :=
  ⟨row.session.id, p.key, p.sortKeyName, p.sortKey env row.session⟩

/-- The rows that the next page need not read again. -/
def PartitionWindow.consumed (w : PartitionWindow) (selected : List Candidate) : List RawRow :=
  w.rows.takeWhile fun row => !row.matching || selected.any (·.row == row)

def nextState (env : Runtime) (w : PartitionWindow) (selected : List Candidate) : PartitionState :=
  if w.previous.exhausted then w.previous
  else
    match (w.consumed selected).getLast? with
    | none =>
      if w.rows.isEmpty && w.nextKey.isSome then ⟨w.partition.id, w.nextKey, false⟩
      else if w.rows.isEmpty && w.exhaustedRead then ⟨w.partition.id, w.previous.checkpoint, true⟩
      else ⟨w.partition.id, w.previous.checkpoint, false⟩
    | some row =>
      if (w.consumed selected).length == w.rows.length && w.exhaustedRead then
        ⟨w.partition.id, w.previous.checkpoint, true⟩
      else ⟨w.partition.id, some (keyForRow env w.partition row), false⟩

/-! ## Pages -/

inductive SessionListError where
  | invalidSessionCursor
deriving DecidableEq, Repr

/-- A cursor that does not fit the plan is an error. -/
def continuationForPlan (cursor : Option (List PartitionState)) (partitions : List Partition) :
    Except SessionListError (List PartitionState) :=
  match cursor with
  | none => .ok (partitions.map fun p => { id := p.id })
  | some states =>
    if planMatches states partitions &&
        (states.zip partitions).all (fun x => validCheckpoint x.1.checkpoint x.2) then .ok states
    else .error .invalidSessionCursor

def stateOf (states : List PartitionState) (p : Partition) : PartitionState :=
  (states.find? (·.id == p.id)).getD { id := p.id }

/-- A session may have moved to a partition that was exhausted. -/
def revisitExhausted (q : SessionListPageQuery) (states : List PartitionState) : Bool :=
  q.status.isNone && q.position.isSome && states.any (!·.exhausted)

def previousState (q : SessionListPageQuery) (states : List PartitionState) (p : Partition) : PartitionState :=
  let stored := stateOf states p
  if revisitExhausted q states && stored.exhausted then { id := stored.id } else stored

section Storage

variable (env : Runtime) (index : QueryRequest → QueryResponse)

def openWindows (q : SessionListPageQuery) (partitions : List Partition) (states : List PartitionState) :
    List PartitionWindow :=
  partitions.map fun p =>
    if (previousState q states p).exhausted then
      { partition := p, previous := previousState q states p, exhaustedRead := true }
    else openPartitionWindow env index q p (previousState q states p) (initialWindowLimit q.limit partitions.length)

def pageWindows (q : SessionListPageQuery) (partitions : List Partition) (states : List PartitionState) :
    List PartitionWindow :=
  fillPage env index q (partitions.length * (q.limit + 1)) (openWindows env index q partitions states)

def listSessionsPageFromStorage (ready : Bool) (q : SessionListPageQuery) :
    Except SessionListError (List SessionRecord × Option (List PartitionState)) :=
  let partitions := planForRequest env ready q
  if partitions.isEmpty then .ok ([], none)
  else
    match continuationForPlan q.continuation partitions with
    | .error e => .error e
    | .ok states =>
      let windows := pageWindows env index q partitions states
      let selected := selectPage env q windows
      let continuation := windows.map fun w => nextState env w selected
      .ok (selected.map (·.row.session), if continuation.all (·.exhausted) then none else some continuation)

end Storage

/-! ## Requests -/

/-- The filters of a request. An empty text is refused before it gets here. -/
structure CursorQuery where
  repositoryId : Option String := none
  status : Option SessionStatus := none
  hostId : Option String := none
  worktreeId : Option String := none
  concurrencyId : Option String := none
  scheduleId : Option String := none
  source : Option String := none
  filled : some "" ∉ [repositoryId, hostId, worktreeId, concurrencyId, scheduleId, source] := by decide

structure CursorScope where
  repositoryIds : Option (List String) := none
  hostId : Option String := none

structure ListSessionsPageQuery where
  limit : ℕ
  sort : SessionListSort
  query : CursorQuery := {}
  scope : CursorScope := {}
  limit_pos : 0 < limit := by decide

structure SessionCursor where
  position : Option CursorPosition
  partitions : List PartitionState
deriving DecidableEq

def sessionCursorPosition (session : Option SessionRecord) (prior : Option CursorPosition) : Option CursorPosition :=
  match session with
  | some session => some session.toCursorPosition
  | none => prior

namespace ListSessionsPageQuery

def storageQuery (request : ListSessionsPageQuery) (shardCount : ℕ) (cursor : Option SessionCursor) :
    SessionListPageQuery where
  limit := request.limit
  sort := request.sort
  shardCount := shardCount
  status := request.query.status
  repositoryId := request.query.repositoryId
  repositoryIds := request.scope.repositoryIds
  hostId := request.query.hostId <|> request.scope.hostId
  worktreeId := request.query.worktreeId
  source := request.query.source
  concurrencyId := request.query.concurrencyId
  scheduleId := request.query.scheduleId
  position := cursor.bind (·.position)
  continuation := cursor.map (·.partitions)

/-- The query asks for another host than the scope allows. -/
def isForeignHost (request : ListSessionsPageQuery) : Bool :=
  (given request.query.hostId).any fun host => (given request.scope.hostId).any (host != ·)

end ListSessionsPageQuery

def listSessionsPageDurable (env : Runtime) (index : QueryRequest → QueryResponse) (ready : Bool) (shardCount : ℕ)
    (request : ListSessionsPageQuery) : Service SessionRecord SessionCursor SessionListError := fun cursor =>
  if request.isForeignHost then .ok ([], none)
  else
    let q := request.storageQuery shardCount cursor
    match listSessionsPageFromStorage env index ready q with
    | .error e => .error e
    | .ok (items, none) => .ok (items, none)
    | .ok (items, some continuation) =>
      .ok (items, some ⟨sessionCursorPosition items.getLast? q.position, continuation⟩)

/-! ## The in-memory list -/

def matchesScope (scope : CursorScope) (session : SessionRecord) : Bool :=
  scope.repositoryIds.all (·.contains session.repositoryId) && scope.hostId.all (session.hostId == some ·)

def matchesQuery (query : CursorQuery) (session : SessionRecord) : Bool :=
  query.repositoryId.all (session.repositoryId == ·) && query.status.all (session.status == ·) &&
  query.hostId.all (session.hostId == some ·) && query.worktreeId.all (sessionInWorktree session ·) &&
  query.concurrencyId.all (session.concurrencyId == some ·) && query.scheduleId.all (session.scheduleId == some ·) &&
  query.source.all (session.source == some ·)

/-- The rows from which `listSessionsPage` takes its slices. -/
def listedSessions (env : Runtime) (request : ListSessionsPageQuery) (records : List SessionRecord) :
    List SessionRecord :=
  ((records.filter (matchesScope request.scope)).filter (matchesQuery request.query)).insertionSort fun a b =>
    compareSessions env a.toCursorPosition b.toCursorPosition request.sort ≠ .gt

end AutoHarness.Listing

import AutoHarness.Listing.Select

/-! Pagination is exact: the pages of the durable list, one after the other, are the in-memory list. -/

namespace AutoHarness.Listing
open Foundation Store List

/-! ## The windows of a page -/

variable {env : Runtime} {table : List SessionRecord} {q : SessionListPageQuery} {index : QueryRequest → QueryResponse}
  {plan : List Partition} {states : List PartitionState} {windows : List PartitionWindow}

theorem initialWindowLimit_pos (limit partitionCount : ℕ) : 0 < initialWindowLimit limit partitionCount :=
  lt_min (Nat.succ_pos _) (Nat.succ_pos _)

def Keeps (q : SessionListPageQuery) (states : List PartitionState) (windows : List PartitionWindow) : Prop :=
  ∀ w ∈ windows, w.previous = previousState q states w.partition

variable {p : Partition} {s : PartitionState}

theorem previousState_inv (h : StateInv env table q p (stateOf states p)) :
    StateInv env table q p (previousState q states p) := by
  unfold previousState
  dsimp only
  split
  · rw [h.id]
    exact StateInv.start p
  · exact h

theorem openWindows_windows (hs : Sources env table q.sort index) (hposition : PositionKnown table q)
    (hplan : Mergeable env q.sort plan) (hstates : ∀ p ∈ plan, StateInv env table q p (stateOf states p)) :
    Windows env table q plan (openWindows env index q plan states) ∧ Keeps q states (openWindows env index q plan states) := by
  have hopen : ∀ p ∈ plan, ∀ w, w = (if (previousState q states p).exhausted then
        ({ partition := p, previous := previousState q states p, exhaustedRead := true } : PartitionWindow)
      else openPartitionWindow env index q p (previousState q states p) (initialWindowLimit q.limit plan.length)) →
      w.partition = p ∧ w.previous = previousState q states p ∧ Sound env table q w := by
    intro p hp w hw
    have hinv := previousState_inv (hstates p hp)
    split at hw
    case isTrue hexhausted =>
      subst hw
      refine ⟨rfl, rfl, ⟨Gathered.of_rows_nil rfl rfl (fun k hk => by cases hk), fun session hmem hmatch => ?_, rfl,
        fun h => by cases h⟩⟩
      rw [hinv.done hexhausted session hmem] at hmatch
      cases hmatch
    case isFalse =>
      subst hw
      exact openPartitionWindow_sound hs hposition (hplan.reads p hp) hinv.valid hinv.passed (initialWindowLimit_pos _ _)
  refine ⟨⟨?_, fun w hw => ?_⟩, fun w hw => ?_⟩
  · rw [openWindows, map_map]
    refine (map_congr_left fun p hp => ?_).trans (map_id plan)
    exact (hopen p hp _ rfl).1
  · obtain ⟨p, hp, rfl⟩ := mem_map.mp hw
    exact (hopen p hp _ rfl).2.2
  · obtain ⟨p, hp, rfl⟩ := mem_map.mp hw
    obtain ⟨hpart, hprev, -⟩ := hopen p hp _ rfl
    rw [hprev, hpart]

theorem fillPage_invariant (env : Runtime) (index : QueryRequest → QueryResponse) (q : SessionListPageQuery) {R : PartitionWindow → Prop}
    (hrefill : ∀ w, R w → w.exhaustedRead = false → w.requested ≤ q.limit → R (extendPartitionWindow env index q w))
    (fuel : ℕ) (h : ∀ w ∈ windows, R w) : ∀ w ∈ fillPage env index q fuel windows, R w := by
  induction fuel generalizing windows with
  | zero => exact h
  | succ fuel ih =>
    rw [fillPage]
    split
    case isFalse => exact h
    case isTrue =>
      split
      case isTrue => exact h
      case isFalse =>
        refine ih fun w' hw' => ?_
        obtain ⟨w, hwin, rfl⟩ := mem_map.mp hw'
        split
        case isFalse => exact h w hwin
        case isTrue hrefillable =>
          rw [isRefillable, Bool.and_eq_true, Bool.and_eq_true, Bool.not_eq_true', decide_eq_true_iff] at hrefillable
          exact hrefill w (h w hwin) hrefillable.1.1 hrefillable.1.2

theorem readRows_partition (condition : SortCondition) (fuel remaining : ℕ) (w : PartitionWindow) :
    (readRows env index q condition fuel remaining w).partition = w.partition := by
  induction fuel generalizing remaining w with
  | zero => rfl
  | succ fuel ih =>
    simp only [readRows]
    split
    · exact ih _ _
    · rfl

theorem fillPage_partitions (fuel : ℕ) (windows : List PartitionWindow) :
    (fillPage env index q fuel windows).map (·.partition) = windows.map (·.partition) := by
  induction fuel generalizing windows with
  | zero => rfl
  | succ fuel ih =>
    rw [fillPage]
    split
    · split
      · rfl
      · rw [ih, map_map]
        refine map_congr_left fun w _ => ?_
        change (if isRefillable env q windows w then extendPartitionWindow env index q w else w).partition = _
        split
        · exact readRows_partition _ _ _ w
        · rfl
    · rfl

theorem fillPage_windows (hs : Sources env table q.sort index) (hposition : PositionKnown table q)
    (hplan : Mergeable env q.sort plan) (fuel : ℕ)
    (hw : Windows env table q plan windows) (hkeeps : Keeps q states windows) :
    Windows env table q plan (fillPage env index q fuel windows) ∧ Keeps q states (fillPage env index q fuel windows) := by
  have hkept := fillPage_invariant env index q
    (R := fun w => w.partition ∈ plan ∧ Sound env table q w ∧ w.previous = previousState q states w.partition)
    (fun w hw hopen hrequested => by
      obtain ⟨hp, hsound, hprev⟩ := hw
      obtain ⟨hpart, hprev', hsound'⟩ :=
        extendPartitionWindow_sound hs hposition (hplan.reads _ hp) hsound hopen hrequested
      exact ⟨hpart ▸ hp, hsound', by rw [hprev', hpart, hprev]⟩)
    fuel fun w hwin => ⟨hw.mem_plan hwin, hw.sound w hwin, hkeeps w hwin⟩
  refine ⟨⟨?_, fun w hwin => (hkept w hwin).2.1⟩, fun w hwin => (hkept w hwin).2.2⟩
  rw [fillPage_partitions, hw.partitions]

theorem pageWindows_windows (hs : Sources env table q.sort index) (hposition : PositionKnown table q)
    (hplan : Mergeable env q.sort plan) (hstates : ∀ p ∈ plan, StateInv env table q p (stateOf states p)) :
    Windows env table q plan (pageWindows env index q plan states) ∧ Keeps q states (pageWindows env index q plan states) := by
  obtain ⟨hw, hkeeps⟩ := openWindows_windows hs hposition hplan hstates
  exact fillPage_windows hs hposition hplan _ hw hkeeps

/-! ## The stored states of the next page -/

theorem Mergeable.nodup_ids {sort : SessionListSort} (hplan : Mergeable env sort plan) : (plan.map (·.id)).Nodup :=
  hplan.nodup.map_on fun p hp p' hp' h => hplan.disjoint p hp p' hp' (.inl h)

theorem stateOf_eq (hnodup : (states.map (·.id)).Nodup) (hs : s ∈ states)
    (hid : s.id = p.id) : stateOf states p = s := by
  cases hfind : states.find? (·.id == p.id) with
  | none =>
    have hne := find?_eq_none.mp hfind s hs
    rw [hid, beq_self_eq_true] at hne
    exact absurd rfl hne
  | some s' =>
    have hid' := find?_some hfind
    rw [beq_iff_eq, ← hid] at hid'
    rw [stateOf, hfind, Option.getD_some]
    exact inj_on_of_nodup_map hnodup (mem_of_find?_eq_some hfind) hs hid'

/-- What a cursor of the list carries: the states of its plan's partitions, each true of its partition. -/
structure CursorInv (env : Runtime) (table : List SessionRecord) (q : SessionListPageQuery) (plan : List Partition)
    (states : List PartitionState) : Prop where
  ids : states.map (·.id) = plan.map (·.id)
  position : PositionKnown table q
  states : ∀ p ∈ plan, StateInv env table q p (stateOf states p)

theorem CursorInv.stateOf_mem (h : CursorInv env table q plan states) (hp : p ∈ plan) : stateOf states p ∈ states := by
  have hid : p.id ∈ states.map (·.id) := by
    rw [h.ids]
    exact mem_map_of_mem hp
  obtain ⟨s, hs, hsid⟩ := mem_map.mp hid
  cases hfind : states.find? (·.id == p.id) with
  | none =>
    have hne := find?_eq_none.mp hfind s hs
    rw [hsid, beq_self_eq_true] at hne
    exact absurd rfl hne
  | some s' =>
    rw [stateOf, hfind, Option.getD_some]
    exact mem_of_find?_eq_some hfind

theorem CursorInv.start (hplan : Mergeable env q.sort plan) (hposition : PositionKnown table q) :
    CursorInv env table q plan (plan.map fun p => { id := p.id }) := by
  have hids : (plan.map fun p => ({ id := p.id } : PartitionState)).map (·.id) = plan.map (·.id) := by
    rw [map_map]
    rfl
  refine ⟨hids, hposition, fun p hp => ?_⟩
  rw [stateOf_eq (hids ▸ hplan.nodup_ids) (mem_map_of_mem (f := fun p : Partition => ({ id := p.id } : PartitionState)) hp) rfl]
  exact StateInv.start p

theorem id_of_mem_zip (hids : states.map (·.id) = plan.map (·.id)) (h : (s, p) ∈ states.zip plan) : s.id = p.id := by
  induction states generalizing plan with
  | nil => cases h
  | cons t states ih =>
    cases plan with
    | nil => cases h
    | cons r plan =>
      obtain ⟨hhead, htail⟩ := cons.inj hids
      obtain h | h := mem_cons.mp h
      · cases h
        exact hhead
      · exact ih htail h

theorem CursorInv.accepted (hplan : Mergeable env q.sort plan) (h : CursorInv env table q plan states) :
    continuationForPlan (some states) plan = .ok states := by
  have hmatch : planMatches states plan = true := beq_iff_eq.mpr h.ids
  have hvalid : (states.zip plan).all (fun x => validCheckpoint x.1.checkpoint x.2) = true := by
    rw [all_eq_true]
    rintro ⟨s, p⟩ hx
    have hstate := h.states p (of_mem_zip hx).2
    rw [stateOf_eq (h.ids ▸ hplan.nodup_ids) (of_mem_zip hx).1 (id_of_mem_zip h.ids hx)] at hstate
    exact hstate.valid
  simp only [continuationForPlan, hmatch, hvalid, Bool.and_self, if_true]

abbrev pageStates (env : Runtime) (q : SessionListPageQuery) (windows : List PartitionWindow) : List PartitionState :=
  windows.map fun w => nextState env w (selectPage env q windows)

theorem CursorInv.next (hs : Sources env table q.sort index) (hplan : Mergeable env q.sort plan)
    (h : CursorInv env table q plan states) : let windows := pageWindows env index q plan states
    CursorInv env table (q.advance (pageItems env q windows) (pageStates env q windows)) plan (pageStates env q windows) := by
  intro windows
  obtain ⟨hw, hkeeps⟩ := pageWindows_windows hs h.position hplan h.states
  have hinv : ∀ w ∈ windows, StateInv env table (q.advance (pageItems env q windows) (pageStates env q windows)) w.partition
      (nextState env w (selectPage env q windows)) := by
    intro w hwin
    refine hw.nextState_inv hs h.position hplan _ hwin ?_
    rw [hkeeps w hwin]
    exact previousState_inv (h.states _ (hw.mem_plan hwin))
  have hids : (pageStates env q windows).map (·.id) = plan.map (·.id) := by
    rw [← hw.partitions, map_map, map_map]
    exact map_congr_left fun w hwin => (hinv w hwin).id
  refine ⟨hids, hw.position_advance hs h.position hplan _, fun p hp => ?_⟩
  rw [← hw.partitions] at hp
  obtain ⟨w, hwin, rfl⟩ := mem_map.mp hp
  rw [stateOf_eq (hids ▸ hplan.nodup_ids)
    (mem_map_of_mem (f := fun w => nextState env w (selectPage env q windows)) hwin) (hinv w hwin).id]
  exact hinv w hwin

theorem listSessionsPage_eq {ready : Bool} (hne : planForRequest env ready q ≠ [])
    (hstates : continuationForPlan q.continuation (planForRequest env ready q) = .ok states) :
    listSessionsPageFromStorage env index ready q =
      .ok (pageItems env q (pageWindows env index q (planForRequest env ready q) states),
        if (pageStates env q (pageWindows env index q (planForRequest env ready q) states)).all (·.exhausted) then none
        else some (pageStates env q (pageWindows env index q (planForRequest env ready q) states))) := by
  unfold listSessionsPageFromStorage
  rw [if_neg (by rwa [List.isEmpty_iff]), hstates]

/-! ## A client that follows the cursors -/

variable {request : ListSessionsPageQuery} {shardCount : ℕ}

abbrev firstQuery (request : ListSessionsPageQuery) (shardCount : ℕ) : SessionListPageQuery :=
  request.storageQuery shardCount none

abbrev cursorQuery (request : ListSessionsPageQuery) (shardCount : ℕ) (c : SessionCursor) : SessionListPageQuery :=
  request.storageQuery shardCount (some c)

/-- What holds of a cursor that a page has given: it names the partitions of the plan and is true of
them. -/
structure CursorSound (env : Runtime) (table : List SessionRecord) (request : ListSessionsPageQuery) (shardCount : ℕ)
    (plan : List Partition) (c : SessionCursor) : Prop where
  nonempty : plan ≠ []
  states : CursorInv env table (cursorQuery request shardCount c) plan c.partitions

def statesOf (plan : List Partition) (cursor : Option SessionCursor) : List PartitionState :=
  match cursor with
  | none => plan.map fun p => { id := p.id }
  | some c => c.partitions

variable {ready ready' : Bool} {cursor : Option SessionCursor}

theorem request_states (hcursor : ∀ c, cursor = some c →
      CursorSound env table request shardCount (planForRequest env ready (firstQuery request shardCount)) c)
    (hready : cursor = none → ready' = ready) : let plan := planForRequest env ready (firstQuery request shardCount)
    let q := request.storageQuery shardCount cursor
    planForRequest env ready' q = plan ∧ continuationForPlan q.continuation plan = .ok (statesOf plan cursor) ∧
      CursorInv env table q plan (statesOf plan cursor) := by
  intro plan q
  have hplan : Mergeable env request.sort plan := plan_mergeable env ready (firstQuery request shardCount)
  cases cursor with
  | none =>
    obtain rfl := hready rfl
    refine ⟨rfl, rfl, CursorInv.start hplan fun position hpos => ?_⟩
    cases hpos
  | some c =>
    have hc := hcursor c rfl
    exact ⟨plan_follow rfl hc.states.ids, hc.states.accepted hplan, hc.states⟩

theorem listSessionsPageDurable_eq (index : QueryRequest → QueryResponse)
    {states : List PartitionState} (hhost : request.isForeignHost = false)
    (hne : planForRequest env ready (request.storageQuery shardCount cursor) ≠ [])
    (hstates : continuationForPlan (request.storageQuery shardCount cursor).continuation
      (planForRequest env ready (request.storageQuery shardCount cursor)) = .ok states) :
    let q := request.storageQuery shardCount cursor
    let windows := pageWindows env index q (planForRequest env ready q) states
    listSessionsPageDurable env index ready shardCount request cursor = .ok (pageItems env q windows,
      if (pageStates env q windows).all (·.exhausted) then none
      else some ⟨sessionCursorPosition (pageItems env q windows).getLast? q.position, pageStates env q windows⟩) := by
  intro q windows
  unfold listSessionsPageDurable
  rw [hhost]
  simp only [Bool.false_eq_true, if_false]
  rw [listSessionsPage_eq hne hstates]
  cases hall : (pageStates env q windows).all (·.exhausted) with
  | true | false => rfl

abbrev windowsOf (env : Runtime) (index : QueryRequest → QueryResponse) (request : ListSessionsPageQuery)
    (shardCount : ℕ) (plan : List Partition) (cursor : Option SessionCursor) : List PartitionWindow :=
  pageWindows env index (request.storageQuery shardCount cursor) plan (statesOf plan cursor)

theorem request_answered {index : QueryRequest → QueryResponse}
    (hs : Sources env table request.sort index) (hhost : request.isForeignHost = false)
    (hne : planForRequest env ready (firstQuery request shardCount) ≠ []) (hcursor : ∀ c, cursor = some c →
      CursorSound env table request shardCount (planForRequest env ready (firstQuery request shardCount)) c)
    (hready : cursor = none → ready' = ready) : let plan := planForRequest env ready (firstQuery request shardCount)
    let q := request.storageQuery shardCount cursor
    let windows := windowsOf env index request shardCount plan cursor
    let next : SessionCursor := ⟨sessionCursorPosition (pageItems env q windows).getLast? q.position, pageStates env q windows⟩
    listSessionsPageDurable env index ready' shardCount request cursor =
        .ok (pageItems env q windows, if (pageStates env q windows).all (·.exhausted) then none else some next) ∧
      CursorSound env table request shardCount plan next := by
  intro plan q windows next
  have hplan : Mergeable env request.sort plan := plan_mergeable env ready (firstQuery request shardCount)
  obtain ⟨hsame, hstates, hinv⟩ := request_states hcursor hready
  refine ⟨?_, ⟨hne, CursorInv.next hs hplan hinv⟩⟩
  have hpage := listSessionsPageDurable_eq index hhost (by rw [hsame]; exact hne) (by rw [hsame]; exact hstates)
  dsimp only at hpage
  rw [hsame] at hpage
  exact hpage

/-! ## The in-memory list -/

variable {session : SessionRecord}

theorem mem_listedSessions : session ∈ listedSessions env request table ↔
    session ∈ table ∧ matchesScope request.scope session = true ∧ matchesQuery request.query session = true := by
  rw [listedSessions, mem_insertionSort, mem_filter, mem_filter, and_assoc]

theorem increasing_listed (request : ListSessionsPageQuery) (hs : Sources env table request.sort index) :
    Increasing (rankOf request.sort) (listedSessions env request table) := by
  have hmem : ∀ a ∈ (table.filter (matchesScope request.scope)).filter (matchesQuery request.query), a ∈ table :=
    fun a ha => (mem_filter.mp (mem_filter.mp ha).1).1
  exact increasing_insertionSort _ ((hs.nodup.filter _).filter _)
    (fun a ha b hb => hs.agree.rank_inj (hmem a ha) (hmem b hb))
    fun a ha b hb => hs.agree.compare_le (hmem a ha) (hmem b hb)

theorem given_of_filled {o : Option String} (h : o ≠ some "") : given o = o := by
  cases o with
  | none => rfl
  | some s => exact given_eq_some.mpr ⟨rfl, fun hs => h (by rw [hs])⟩

/-- They differ when a principal bound to a nameless host asks for a host. -/
theorem admits_eq (hscope : request.query.hostId.isSome = true → request.scope.hostId ≠ some "")
    (hhost : request.isForeignHost = false) {cursor : Option SessionCursor} :
    (request.storageQuery shardCount cursor).admits session =
      (matchesScope request.scope session && matchesQuery request.query session) := by
  have hfilled := request.query.filled
  simp only [mem_cons, not_mem_nil, or_false, not_or] at hfilled
  have hworktree : given request.query.worktreeId = request.query.worktreeId := given_of_filled fun h => hfilled.2.2.1 h.symm
  have hhostFilter : (request.query.hostId <|> request.scope.hostId).all (session.hostId == some ·) =
      (request.scope.hostId.all (session.hostId == some ·) && request.query.hostId.all (session.hostId == some ·)) := by
    cases hq : request.query.hostId with
    | none => cases request.scope.hostId <;> simp
    | some host =>
      rw [hq] at hscope
      rw [ListSessionsPageQuery.isForeignHost, given_of_filled fun h => hfilled.2.1 h.symm,
        given_of_filled (hscope rfl), hq] at hhost
      cases hsc : request.scope.hostId with
      | none => simp
      | some bound =>
        rw [hsc] at hhost
        simp only [Option.any_some, bne_eq_false_iff_eq] at hhost
        simp [hhost]
  rw [SessionListPageQuery.admits, matchesScope, matchesQuery]
  simp only [ListSessionsPageQuery.storageQuery, hworktree, hhostFilter]
  ac_rfl

theorem listedSessions_eq_nil (hhost : request.isForeignHost = true) : listedSessions env request table = [] := by
  obtain ⟨host, hquery, hany⟩ := (Option.any_eq_true _ _).mp hhost
  obtain ⟨bound, hscope, hne⟩ := (Option.any_eq_true _ _).mp hany
  refine eq_nil_iff_forall_not_mem.mpr fun session hmem => ?_
  obtain ⟨-, hs, hq⟩ := mem_listedSessions.mp hmem
  simp only [matchesScope, matchesQuery, Bool.and_eq_true, (given_eq_some.mp hquery).1, (given_eq_some.mp hscope).1,
    Option.all_some, beq_iff_eq] at hs hq
  have heq : some host = some bound := hq.1.1.1.1.2.symm.trans hs.2
  exact bne_iff_ne.mp hne (Option.some.inj heq)

/-! ## Exactness -/

def PagesInv (env : Runtime) (table : List SessionRecord) (request : ListSessionsPageQuery) (shardCount : ℕ)
    (plan : List Partition) (n : ℕ) (items : List SessionRecord) (cursor : Option SessionCursor) : Prop :=
  items <+: listedSessions env request table ∧
    cursor.bind (·.position) = items.getLast?.map (·.toCursorPosition) ∧ (cursor = none → n = 0) ∧
    ∀ c, cursor = some c → CursorSound env table request shardCount plan c

variable {items : List SessionRecord}

theorem mem_pages (cursor : Option SessionCursor)
    (hs : Sources env table request.sort index) (hposition : PositionKnown table (request.storageQuery shardCount cursor))
    (hpre : items <+: listedSessions env request table)
    (hpos : cursor.bind (·.position) = items.getLast?.map (·.toCursorPosition)) {session : SessionRecord}
    (hmem : session ∈ listedSessions env request table)
    (hbehind : (request.storageQuery shardCount cursor).isBeyond env session = false) : session ∈ items := by
  have hsTable := (mem_listedSessions.mp hmem).1
  have hnot := Bool.eq_false_iff.mp hbehind
  rw [ne_eq, isBeyond_iff hs hposition hsTable] at hnot
  change ¬ ∀ position, cursor.bind (·.position) = some position → _ at hnot
  rw [hpos] at hnot
  cases hlast : items.getLast? with
  | none =>
    rw [hlast] at hnot
    exact absurd (fun position h => by cases h) hnot
  | some last =>
    have hle : rankOf request.sort session ≤ rankOf request.sort last := by
      rw [← not_lt]
      intro hlt
      refine hnot fun position h => ?_
      rw [hlast] at h
      cases h
      exact hlt
    have hlastMem : last ∈ items := mem_of_getLast? hlast
    obtain ⟨rest, hlist⟩ := hpre
    have hsorted := increasing_listed request hs
    rw [← hlist] at hsorted hmem
    obtain hlt | heq := hle.lt_or_eq
    · exact hsorted.mem_left hlastMem hmem hlt
    · rw [hsorted.inj hmem (mem_append_left _ hlastMem) heq]
      exact hlastMem

theorem sessionCursorPosition_append (page : List SessionRecord) {position : Option CursorPosition}
    (h : position = items.getLast?.map (·.toCursorPosition)) :
    sessionCursorPosition page.getLast? position = (items ++ page).getLast?.map (·.toCursorPosition) := by
  rw [getLast?_append]
  cases page.getLast? with
  | none => exact h
  | some last => rfl

theorem pages_prefix {plan : List Partition} {cursor : Option SessionCursor} (hs : Sources env table request.sort index)
    (hscope : request.query.hostId.isSome = true → request.scope.hostId ≠ some "") (hhost : request.isForeignHost = false)
    (hcover : ∀ session ∈ listedSessions env request table, ∃ p ∈ plan, session ∈ p.rows env table)
    (hplan : Mergeable env request.sort plan)
    (hw : Windows env table (request.storageQuery shardCount cursor) plan windows)
    (hposition : PositionKnown table (request.storageQuery shardCount cursor))
    (hpre : items <+: listedSessions env request table)
    (hpos : cursor.bind (·.position) = items.getLast?.map (·.toCursorPosition)) :
    items ++ pageItems env (request.storageQuery shardCount cursor) windows <+: listedSessions env request table := by
  have hlisted := increasing_listed request hs
  have hmatch : ∀ session ∈ pageItems env (request.storageQuery shardCount cursor) windows,
      session ∈ table ∧ (request.storageQuery shardCount cursor).matchesFilters env session = true := by
    intro session hmem
    obtain ⟨⟨p, -, hrow⟩, hmatch⟩ := hw.items_match hs hplan hmem
    exact ⟨p.mem_table hrow, hmatch⟩
  have hsub : ∀ a ∈ items, a ∈ listedSessions env request table := fun a ha => hpre.subset ha
  obtain ⟨rest, hlist⟩ := hpre
  have hcross : ∀ a ∈ items, ∀ b ∈ pageItems env (request.storageQuery shardCount cursor) windows,
      rankOf request.sort a < rankOf request.sort b := by
    intro a ha b hb
    obtain ⟨hbTable, hbMatch⟩ := hmatch b hb
    have hbeyond := (isBeyond_iff hs hposition hbTable).mp (Bool.and_eq_true_iff.mp hbMatch).2
    cases hlast : items.getLast? with
    | none =>
      rw [getLast?_eq_none_iff.mp hlast] at ha
      cases ha
    | some last =>
      have hlt : rankOf request.sort last < rankOf request.sort b := hbeyond _ (by
        change cursor.bind (·.position) = _
        rw [hpos, hlast]
        rfl)
      obtain ⟨front, hitems⟩ := getLast?_eq_some_iff.mp hlast
      rw [← hlist, hitems, append_assoc] at hlisted
      rw [hitems] at ha
      obtain ha | ha := mem_append.mp ha
      · exact (hlisted.lt_of_append ha (mem_append_left _ (mem_singleton_self _))).trans hlt
      · rw [mem_singleton.mp ha]
        exact hlt
  have hitems : Increasing (rankOf request.sort) items := by
    have hsorted := hlisted
    rw [← hlist] at hsorted
    exact (pairwise_append.mp hsorted).1
  refine hlisted.prefix_of_lower (hitems.append (hw.increasing_items hs hplan) hcross) ?_ ?_
  · intro a ha
    obtain ha | ha := mem_append.mp ha
    · exact hsub a ha
    · obtain ⟨haTable, haMatch⟩ := hmatch a ha
      have hadmits := (Bool.and_eq_true_iff.mp haMatch).1
      rw [admits_eq hscope hhost, Bool.and_eq_true] at hadmits
      exact mem_listedSessions.mpr ⟨haTable, hadmits⟩
  · intro a ha b hb hlt
    obtain ha | ha := mem_append.mp ha
    · rw [← hlist] at hlisted hb
      exact mem_append_left _ (hlisted.mem_left ha hb hlt)
    · cases hbeyond : (request.storageQuery shardCount cursor).isBeyond env b with
      | false => exact mem_append_left _ (mem_pages cursor hs hposition ⟨rest, hlist⟩ hpos hb hbeyond)
      | true =>
        have hbMatch : (request.storageQuery shardCount cursor).matchesFilters env b = true := by
          obtain ⟨-, hfilters⟩ := mem_listedSessions.mp hb
          rw [SessionListPageQuery.matchesFilters, admits_eq hscope hhost, hbeyond, Bool.and_true, Bool.and_eq_true]
          exact hfilters
        obtain ⟨p, hp, hrow⟩ := hcover b hb
        obtain ⟨c, hc, rfl⟩ := mem_map.mp ha
        obtain ⟨d, hd, rfl⟩ := hw.selected_lower hs hplan hp hrow hbMatch hc hlt
        exact mem_append_right _ (mem_map_of_mem (f := fun c : Candidate => c.row.session) hd)

theorem page_exact (hs : Sources env table request.sort index)
    (hscope : request.query.hostId.isSome = true → request.scope.hostId ≠ some "") (hhost : request.isForeignHost = false)
    {ready : ℕ → Bool} (hcover : ∀ session ∈ listedSessions env request table,
      ∃ p ∈ planForRequest env (ready 0) (firstQuery request shardCount), session ∈ p.rows env table)
    {n : ℕ} {cursor : Option SessionCursor}
    (h : PagesInv env table request shardCount (planForRequest env (ready 0) (firstQuery request shardCount)) n items cursor) :
    ∃ page next, listSessionsPageDurable env index (ready n) shardCount request cursor = .ok (page, next) ∧
      Walk.Meets (PagesInv env table request shardCount (planForRequest env (ready 0) (firstQuery request shardCount)) (n + 1))
        (· = listedSessions env request table) ⟨items ++ page, .ofNext next⟩ := by
  obtain ⟨hpre, hpos, hzero, hcursor⟩ := h
  have hready : cursor = none → ready n = ready 0 := fun hnone => by rw [hzero hnone]
  by_cases hne : planForRequest env (ready 0) (firstQuery request shardCount) = []
  · have hnil : listedSessions env request table = [] := by
      refine eq_nil_iff_forall_not_mem.mpr fun session hmem => ?_
      obtain ⟨p, hp, -⟩ := hcover session hmem
      rw [hne] at hp
      cases hp
    obtain rfl : cursor = none := by
      cases cursor with
      | none => rfl
      | some c => exact absurd hne (hcursor c rfl).nonempty
    refine ⟨[], none, ?_, ?_⟩
    · simp [listSessionsPageDurable, hhost, listSessionsPageFromStorage, hready rfl, hne]
    · change items ++ [] = listedSessions env request table
      rw [hnil, prefix_nil] at hpre
      rw [hnil, append_nil, hpre]
  · have hplan : Mergeable env request.sort (planForRequest env (ready 0) (firstQuery request shardCount)) :=
      plan_mergeable env (ready 0) (firstQuery request shardCount)
    obtain ⟨-, -, hinv⟩ := request_states hcursor hready
    obtain ⟨hserve, hnext⟩ := request_answered hs hhost hne hcursor hready
    obtain ⟨hw, -⟩ := pageWindows_windows hs hinv.position hplan hinv.states
    have hpages := pages_prefix hs hscope hhost hcover hplan hw hinv.position hpre hpos
    have hposition := sessionCursorPosition_append (pageItems env (request.storageQuery shardCount cursor)
      (windowsOf env index request shardCount (planForRequest env (ready 0) (firstQuery request shardCount)) cursor)) hpos
    refine ⟨_, _, hserve, ?_⟩
    split
    case isFalse =>
      refine ⟨hpages, hposition, fun hnone => (by cases hnone), fun c hc => ?_⟩
      cases hc
      exact hnext
    case isTrue hall =>
      -- every state is exhausted, so no row is left for a next page
      have hlisted := increasing_listed request hs
      have hsorted : Increasing (rankOf request.sort) (items ++ pageItems env (request.storageQuery shardCount cursor)
          (windowsOf env index request shardCount (planForRequest env (ready 0) (firstQuery request shardCount)) cursor)) :=
        List.Pairwise.sublist hpages.sublist hlisted
      refine hlisted.eq_of_mem_iff hsorted fun session => ⟨fun hmem => hpages.subset hmem, fun hmem => ?_⟩
      refine mem_pages (some _) hs hnext.states.position hpages hposition hmem ?_
      obtain ⟨p, hp, hrow⟩ := hcover session hmem
      have hdone := (hnext.states.states p hp).done (all_eq_true.mp hall _ (hnext.states.stateOf_mem hp)) session hrow
      obtain ⟨-, hfilters⟩ := mem_listedSessions.mp hmem
      rwa [SessionListPageQuery.matchesFilters, admits_eq hscope hhost, Bool.and_eq_true_iff.mpr hfilters,
        Bool.true_and] at hdone

abbrev pages (env : Runtime) (index : ℕ → QueryRequest → QueryResponse) (ready : ℕ → Bool) (shardCount : ℕ)
    (request : ListSessionsPageQuery) (n : ℕ) : Walk SessionRecord SessionCursor :=
  walk (fun n => listSessionsPageDurable env (index n) (ready n) shardCount request) n

/-- **Pagination is exact.** The pages so far are the beginning of the in-memory list, and all of it at the null
cursor. -/
theorem pages_exact {index : ℕ → QueryRequest → QueryResponse} (hs : ∀ n, Sources env table request.sort (index n))
    (hrouted : ∀ session ∈ table, Routed session) (ready : ℕ → Bool)
    (hscope : request.query.hostId.isSome = true → request.scope.hostId ≠ some "")
    (hshard : ∀ session ∈ table, session.queueShard < shardCount ∨ ReadsSingle (ready 0) (firstQuery request shardCount))
    (n : ℕ) : (pages env index ready shardCount request n).items <+: listedSessions env request table ∧
    (pages env index ready shardCount request n).items.Nodup ∧
    (pages env index ready shardCount request n).standing ≠ .refused ∧
    ((pages env index ready shardCount request n).standing = .finished →
      (pages env index ready shardCount request n).items = listedSessions env request table) := by
  have hmeets : ∃ P : ℕ → List SessionRecord → Option SessionCursor → Prop,
      (∀ n items cursor, P n items cursor → items <+: listedSessions env request table) ∧
      (pages env index ready shardCount request n).Meets (P n) (· = listedSessions env request table) := by
    cases hhost : request.isForeignHost with
    | true =>
      have hnil : listedSessions env request table = [] := listedSessions_eq_nil hhost
      refine ⟨fun _ items _ => items = [], fun _ items _ h => h ▸ nil_prefix,
        walk_invariant (P := fun _ items _ => items = []) rfl ?_ n⟩
      intro n items cursor hitems
      refine ⟨[], none, by rw [listSessionsPageDurable, hhost, if_pos rfl], ?_⟩
      change items ++ [] = _
      rw [hitems, hnil, append_nil]
    | false =>
      refine ⟨PagesInv env table request shardCount (planForRequest env (ready 0) (firstQuery request shardCount)),
        fun _ _ _ h => h.1, walk_invariant ⟨List.nil_prefix, rfl, fun _ => rfl, fun c hc => by cases hc⟩ ?_ n⟩
      intro n items cursor h
      refine page_exact (hs n) hscope hhost (fun session hmem => ?_) h
      obtain ⟨htable, hfilters⟩ := mem_listedSessions.mp hmem
      refine plan_covers ?_ (hshard session htable) (hrouted session htable) htable
      rw [admits_eq hscope hhost, Bool.and_eq_true]
      exact hfilters
  obtain ⟨P, hP, hmeets⟩ := hmeets
  have hpre := hmeets.items (hP n) fun items h => h ▸ prefix_refl items
  exact ⟨hpre, (increasing_listed request (hs 0)).nodup.sublist hpre.sublist, hmeets.not_refused, hmeets.finished⟩

/-! ## Runs -/

def threeSessions : List SessionRecord :=
  [{ createdAt := "1", id := "a", status := .running }, { createdAt := "2", id := "b", status := .queued },
   { createdAt := "3", id := "c", status := .running }]

theorem threeSessions_sources : Sources codePointRuntime threeSessions .latest (exactIndex codePointRuntime threeSessions) := by
  refine Sources.exact (by decide) ⟨by decide +kernel, by decide +kernel, by decide +kernel⟩ fun name => ?_
  cases name <;> decide +kernel

theorem threeSessions_routed : ∀ session ∈ threeSessions, Routed session := by
  simp [threeSessions, Routed]

theorem pages_exact_three :
    (pages codePointRuntime (fun _ => exactIndex codePointRuntime threeSessions) (fun _ => false) 1
        { limit := 1, sort := .latest } 3).items =
      listedSessions codePointRuntime { limit := 1, sort := .latest } threeSessions := by
  refine (pages_exact (fun _ => threeSessions_sources) threeSessions_routed (fun _ => false) (fun h => by cases h)
    (fun session hmem => .inl ?_) 3).2.2.2 (by decide +kernel)
  revert session
  decide

/-- A session in a shard that is not read is never given; a principal bound to a nameless host sees any host. -/
theorem pages_inexact :
    (∃ table request, Sources codePointRuntime table request.sort (exactIndex codePointRuntime table) ∧
      (∀ session ∈ table, Routed session) ∧
      (pages codePointRuntime (fun _ => exactIndex codePointRuntime table) (fun _ => false) 1 request 1).standing = .finished ∧
      (pages codePointRuntime (fun _ => exactIndex codePointRuntime table) (fun _ => false) 1 request 1).items = [] ∧
      listedSessions codePointRuntime request table ≠ []) ∧
    ∃ table request, Sources codePointRuntime table request.sort (exactIndex codePointRuntime table) ∧
      (∀ session ∈ table, Routed session ∧ session.queueShard < 1) ∧
      (pages codePointRuntime (fun _ => exactIndex codePointRuntime table) (fun _ => false) 1 request 1).items ≠ [] ∧
      listedSessions codePointRuntime request table = [] := by
  constructor
  · refine ⟨[{ createdAt := "1", id := "a", queueShard := 1 }], { limit := 1, sort := .latest }, ?_, ?_,
      by decide +kernel, by decide +kernel, by decide +kernel⟩
    · refine Sources.exact (by decide) ⟨by decide +kernel, by decide +kernel, by decide +kernel⟩ fun name => ?_
      cases name <;> decide +kernel
    · simp [Routed]
  · refine ⟨[{ createdAt := "1", id := "a", hostId := some "h" }],
      { limit := 1, sort := .latest, query := { hostId := some "h" }, scope := { hostId := some "" } }, ?_, ?_,
      by decide +kernel, by decide +kernel⟩
    · refine Sources.exact (by decide) ⟨by decide +kernel, by decide +kernel, by decide +kernel⟩ fun name => ?_
      cases name <;> decide +kernel
    · simp [Routed]

end AutoHarness.Listing

import Mathlib.Data.List.TakeWhile
import AutoHarness.Listing.Page

/-! What a page selects: of the rows that match and are not given yet, the first ones in list order. -/

namespace AutoHarness.Listing
open Foundation Store Option Bool
open List (mem_map_of_mem mem_map mem_append mem_singleton mem_of_getLast? append_assoc)

variable {env : Runtime} {table : List SessionRecord} {q : SessionListPageQuery} {index : QueryRequest → QueryResponse}
  {plan : List Partition} {windows : List PartitionWindow} {w : PartitionWindow} {session : SessionRecord} {c : Candidate}
  {x : RawRow}

/-- The partitions are read in the order of the page and share no session. -/
structure Mergeable (env : Runtime) (sort : SessionListSort) (plan : List Partition) : Prop where
  nodup : plan.Nodup
  reads : ∀ p ∈ plan, p.Reads env sort
  disjoint : ∀ p ∈ plan, ∀ p' ∈ plan, (p.id = p'.id ∨ ∃ session, p.isKeyed session = true ∧ p'.isKeyed session = true) →
    p = p'

theorem plan_mergeable (env : Runtime) (ready : Bool) (q : SessionListPageQuery) :
    Mergeable env q.sort (planForRequest env ready q) :=
  ⟨nodup_plan env ready q, fun _ hp => plan_reads hp, fun _ hp _ hp' h => plan_disjoint hp hp' h⟩

structure Windows (env : Runtime) (table : List SessionRecord) (q : SessionListPageQuery) (plan : List Partition)
    (windows : List PartitionWindow) : Prop where
  partitions : windows.map (·.partition) = plan
  sound : ∀ w ∈ windows, Sound env table q w

abbrev Candidate.rank (sort : SessionListSort) (c : Candidate) : Place sort.forward := rankOf sort c.row.session

/-! ## Candidates in list order -/

section Merge

variable (hs : Sources env table q.sort index) (hplan : Mergeable env q.sort plan) (hw : Windows env table q plan windows)
  {a b : Candidate} {frontier : SessionRecord}

include hw in
theorem Windows.mem_plan (h : w ∈ windows) : w.partition ∈ plan := by
  rw [← hw.partitions]
  exact mem_map_of_mem h

include hplan hw in
theorem Windows.eq_of_partition {w w' : PartitionWindow} (h : w ∈ windows) (h' : w' ∈ windows)
    (heq : w.partition = w'.partition) : w = w' := by
  have hnodup := hplan.nodup
  rw [← hw.partitions] at hnodup
  exact List.inj_on_of_nodup_map hnodup h h' heq

include hplan hw in
theorem Windows.nodup : windows.Nodup := by
  have hnodup := hplan.nodup
  rw [← hw.partitions] at hnodup
  exact hnodup.of_map

theorem mem_candidates :
    c ∈ candidates env q windows ↔ c.window ∈ windows ∧ c.row ∈ c.window.rows ∧ c.row.matching = true := by
  rw [candidates, List.mem_insertionSort, List.mem_flatMap]
  constructor
  · rintro ⟨w, hw, hc⟩
    obtain ⟨row, hrow, rfl⟩ := mem_map.mp hc
    exact ⟨hw, List.mem_filter.mp hrow⟩
  · rintro ⟨hwindow, hrow⟩
    exact ⟨c.window, hwindow, mem_map.mpr ⟨c.row, List.mem_filter.mpr hrow, rfl⟩⟩

include hw in
theorem Windows.mem_rows (h : w ∈ windows) (hx : x ∈ w.rows) : x.session ∈ w.partition.rows env table :=
  (hw.sound w h).mem x hx

include hw in
theorem Windows.mem_table (h : w ∈ windows) (hx : x ∈ w.rows) : x.session ∈ table :=
  w.partition.mem_table (hw.mem_rows h hx)

theorem Sound.row_eq (hsound : Sound env table q w) {x y : RawRow} (hx : x ∈ w.rows)
    (hy : y ∈ w.rows) (h : x.session = y.session) : x = y := by
  obtain ⟨s, m⟩ := x
  obtain ⟨s', m'⟩ := y
  have hm := hsound.flag _ hx
  have hm' := hsound.flag _ hy
  cases h
  rw [RawRow.mk.injEq]
  exact ⟨rfl, hm.trans hm'.symm⟩

include hs hplan hw in
theorem Windows.candidate_inj (ha : a.window ∈ windows ∧ a.row ∈ a.window.rows)
    (hb : b.window ∈ windows ∧ b.row ∈ b.window.rows) (h : a.rank q.sort = b.rank q.sort) : a = b := by
  have hsession : a.row.session = b.row.session :=
    hs.agree.rank_inj (hw.mem_table ha.1 ha.2) (hw.mem_table hb.1 hb.2) h
  have hkeyed : ∀ c : Candidate, c.window ∈ windows → c.row ∈ c.window.rows →
      c.window.partition.isKeyed c.row.session = true := by
    intro c hc hrow
    have hindexed := (Partition.mem_rows.mp (hw.mem_rows hc hrow)).2.1
    exact (and_eq_true_iff.mp hindexed).1
  have hpartition : a.window.partition = b.window.partition := by
    refine hplan.disjoint _ (hw.mem_plan ha.1) _ (hw.mem_plan hb.1) (.inr ⟨a.row.session, hkeyed a ha.1 ha.2, ?_⟩)
    rw [hsession]
    exact hkeyed b hb.1 hb.2
  obtain ⟨w, x⟩ := a
  obtain ⟨w', y⟩ := b
  obtain rfl : w = w' := hw.eq_of_partition hplan ha.1 hb.1 hpartition
  rw [Candidate.mk.injEq]
  exact ⟨rfl, (hw.sound w ha.1).row_eq ha.2 hb.2 hsession⟩

theorem Sound.rows_nodup (hsound : Sound env table q w) : w.rows.Nodup :=
  hsound.sorted.nodup.of_map

include hs hplan hw in
theorem Windows.increasing_candidates : Increasing (Candidate.rank q.sort) (candidates env q windows) := by
  have hmem : ∀ c ∈ windows.flatMap fun w => (w.rows.filter (·.matching)).map (Candidate.mk w),
      c.window ∈ windows ∧ c.row ∈ c.window.rows := by
    intro c hc
    obtain ⟨w, hwin, hc⟩ := List.mem_flatMap.mp hc
    obtain ⟨row, hrow, rfl⟩ := mem_map.mp hc
    exact ⟨hwin, (List.mem_filter.mp hrow).1⟩
  refine increasing_insertionSort _ ?_ (fun a ha b hb h => hw.candidate_inj hs hplan (hmem a ha) (hmem b hb) h)
    fun a ha b hb => hs.agree.compare_le (hw.mem_table (hmem a ha).1 (hmem a ha).2) (hw.mem_table (hmem b hb).1 (hmem b hb).2)
  refine List.nodup_flatMap.mpr ⟨fun w hwin => ?_, ?_⟩
  · refine List.Nodup.map_on (fun x _ y _ h => ?_) ((hw.sound w hwin).rows_nodup.filter _)
    cases h
    rfl
  · refine (hw.nodup hplan).imp fun {w w'} hne => ?_
    intro c hc hc'
    obtain ⟨x, -, rfl⟩ := mem_map.mp hc
    obtain ⟨y, -, h⟩ := mem_map.mp hc'
    exact hne (congrArg Candidate.window h).symm

/-! ## Safe candidates -/

theorem Sound.le_frontier (hsound : Sound env table q w) (hx : x ∈ w.rows)
    (hf : w.frontier = some frontier) : rankOf q.sort x.session ≤ rankOf q.sort frontier := by
  obtain ⟨last, hlast, rfl⟩ := map_eq_some_iff.mp hf
  obtain ⟨front, hrows⟩ := List.getLast?_eq_some_iff.mp hlast
  have hsorted := hsound.sorted
  rw [hrows, List.map_append] at hsorted
  rw [hrows, mem_append, mem_singleton] at hx
  obtain hx | rfl := hx
  · exact (hsorted.lt_of_append (mem_map_of_mem hx) (List.mem_singleton_self _)).le
  · exact le_refl _

theorem Sound.frontier_mem (hf : w.frontier = some frontier) : ∃ x ∈ w.rows, x.session = frontier := by
  obtain ⟨last, hlast, rfl⟩ := map_eq_some_iff.mp hf
  exact ⟨last, mem_of_getLast? hlast, rfl⟩

include hs hw in
theorem Windows.isSafe_iff (hc : c.window ∈ windows ∧ c.row ∈ c.window.rows) :
    isSafe env q windows c = true ↔ ∀ w ∈ windows, w.exhaustedRead = false →
      ∃ frontier, w.frontier = some frontier ∧ c.rank q.sort ≤ rankOf q.sort frontier := by
  have hcompare : ∀ w ∈ windows, ∀ frontier, w.frontier = some frontier →
      ((compareSessions env c.row.session.toCursorPosition frontier.toCursorPosition q.sort != .gt) = true ↔
        c.rank q.sort ≤ rankOf q.sort frontier) := by
    intro w hwin frontier hf
    obtain ⟨x, hx, rfl⟩ := Sound.frontier_mem hf
    rw [bne_iff_ne, hs.agree.compare_le (hw.mem_table hc.1 hc.2) (hw.mem_table hwin hx)]
  rw [isSafe, List.all_eq_true]
  constructor
  · intro h w hwin hopen
    have hor := h w hwin
    rw [hopen, Bool.false_or, any_eq_true] at hor
    obtain ⟨frontier, hf, hle⟩ := hor
    exact ⟨frontier, hf, (hcompare w hwin frontier hf).mp hle⟩
  · intro h w hwin
    cases hopen : w.exhaustedRead with
    | true => rfl
    | false =>
      obtain ⟨frontier, hf, hle⟩ := h w hwin hopen
      rw [Bool.false_or, any_eq_true]
      exact ⟨frontier, hf, (hcompare w hwin frontier hf).mpr hle⟩

include hs hw in
theorem Windows.isSafe_of_le (ha : a.window ∈ windows ∧ a.row ∈ a.window.rows)
    (hb : b.window ∈ windows ∧ b.row ∈ b.window.rows) (hle : b.rank q.sort ≤ a.rank q.sort)
    (hsafe : isSafe env q windows a = true) : isSafe env q windows b = true := by
  rw [hw.isSafe_iff hs ha] at hsafe
  rw [hw.isSafe_iff hs hb]
  intro w hwin hopen
  obtain ⟨frontier, hf, hfront⟩ := hsafe w hwin hopen
  exact ⟨frontier, hf, hle.trans hfront⟩

/-! ## The selection is the first safe candidates -/

theorem selectConsumable_eq_take (n : ℕ) {selected remaining : List Candidate}
    (h : ∀ front c back, remaining = front ++ c :: back → isConsumable (selected ++ front) c = true) :
    selectConsumable n selected remaining = selected ++ remaining.take n := by
  induction n generalizing selected remaining with
  | zero => rw [selectConsumable, List.take_zero, List.append_nil]
  | succ n ih =>
    cases remaining with
    | nil => rw [selectConsumable, List.find?_nil, List.take_nil, List.append_nil]
    | cons c rest =>
      have hfirst : isConsumable selected c = true := by
        have hc := h [] c rest rfl
        rwa [List.append_nil] at hc
      rw [selectConsumable, List.find?_cons_of_pos hfirst]
      dsimp only
      rw [List.erase_cons_head, List.take_succ_cons, ih fun front d back hrest => ?_, append_assoc]
      · rfl
      · have hd := h (c :: front) d back (by rw [hrest, List.cons_append])
        rwa [append_assoc]

theorem Sound.lt_of_takeWhile (hsound : Sound env table q w) {x prior : RawRow} (hx : x ∈ w.rows)
    (hprior : prior ∈ w.rows.takeWhile (· != x)) : rankOf q.sort prior.session < rankOf q.sort x.session := by
  have hsplit := List.takeWhile_append_dropWhile (p := (· != x)) (l := w.rows)
  have hsorted := hsound.sorted
  rw [← hsplit, List.map_append] at hsorted
  rw [← hsplit, mem_append] at hx
  obtain hx | hx := hx
  · have hne := List.mem_takeWhile_imp hx
    rw [bne_self_eq_false] at hne
    cases hne
  · exact hsorted.lt_of_append (mem_map_of_mem hprior) (mem_map_of_mem hx)

include hs hplan hw in
theorem Windows.selectPage_eq :
    selectPage env q windows = ((candidates env q windows).filter (isSafe env q windows)).take q.limit := by
  have hsorted := (hw.increasing_candidates hs hplan).filter (isSafe env q windows)
  rw [selectPage, selectConsumable_eq_take, List.nil_append]
  intro front c back hlist
  have hmem : c ∈ (candidates env q windows).filter (isSafe env q windows) := by
    rw [hlist]
    exact List.mem_append_right _ List.mem_cons_self
  obtain ⟨hc, hsafe⟩ := List.mem_filter.mp hmem
  obtain ⟨hwin, hrow, -⟩ := mem_candidates.mp hc
  rw [isConsumable, List.all_eq_true, List.nil_append]
  intro prior hprior
  cases hmatching : prior.matching with
  | false => rfl
  | true =>
    -- a matching row before `c` in its window is a safe candidate of lower rank, so it is in `front`
    have hlt := (hw.sound _ hwin).lt_of_takeWhile hrow hprior
    have hpriorRow : prior ∈ c.window.rows := (List.takeWhile_prefix _).subset hprior
    have hpriorSafe : (⟨c.window, prior⟩ : Candidate) ∈ (candidates env q windows).filter (isSafe env q windows) :=
      List.mem_filter.mpr ⟨mem_candidates.mpr ⟨hwin, hpriorRow, hmatching⟩,
        hw.isSafe_of_le hs ⟨hwin, hrow⟩ ⟨hwin, hpriorRow⟩ hlt.le hsafe⟩
    rw [hlist] at hsorted hpriorSafe
    have hfront : (⟨c.window, prior⟩ : Candidate) ∈ front := by
      have hassoc : front ++ c :: back = (front ++ [c]) ++ back := by rw [append_assoc]; rfl
      rw [hassoc] at hsorted hpriorSafe
      have hleft := hsorted.mem_left (List.mem_append_right front (List.mem_singleton_self c)) hpriorSafe hlt
      obtain hleft | hleft := mem_append.mp hleft
      · exact hleft
      · rw [mem_singleton] at hleft
        rw [← hleft] at hlt
        exact absurd hlt (lt_irrefl _)
    rw [Bool.not_true, Bool.false_or, List.any_eq_true]
    exact ⟨_, hfront, by simp⟩

/-! ## What is left -/

include hs hplan hw in
theorem Windows.mem_selected (h : c ∈ selectPage env q windows) :
    c.window ∈ windows ∧ c.row ∈ c.window.rows ∧ c.row.matching = true ∧ isSafe env q windows c = true := by
  rw [hw.selectPage_eq hs hplan] at h
  obtain ⟨hc, hsafe⟩ := List.mem_filter.mp (List.mem_of_mem_take h)
  obtain ⟨hwin, hrow, hmatching⟩ := mem_candidates.mp hc
  exact ⟨hwin, hrow, hmatching, hsafe⟩

include hs hplan hw in
theorem Windows.increasing_selected : Increasing (Candidate.rank q.sort) (selectPage env q windows) := by
  rw [hw.selectPage_eq hs hplan]
  exact List.Pairwise.sublist (List.take_sublist _ _) ((hw.increasing_candidates hs hplan).filter _)

include hs hplan hw in
theorem Windows.lt_of_before (hwin : w ∈ windows) {k : SessionPartitionCheckpoint}
    (hk : w.nextKey = some k) (hsession : session ∈ w.partition.rows env table)
    (hbefore : k.before env w.partition session = true) (hc : c.window ∈ windows ∧ c.row ∈ c.window.rows)
    (hsafe : isSafe env q windows c = true) : c.rank q.sort < rankOf q.sort session := by
  have hopen : w.exhaustedRead = false := by rw [(hw.sound w hwin).closed, hk]; rfl
  obtain ⟨frontier, hf, hle⟩ := (hw.isSafe_iff hs hc).mp hsafe w hwin hopen
  obtain ⟨x, hx, rfl⟩ := Sound.frontier_mem hf
  refine lt_of_le_of_lt hle ?_
  rw [← (hplan.reads _ (hw.mem_plan hwin)).precedes_sortKey (hw.mem_rows hwin hx) hsession]
  exact precedes_of_not ((hw.sound w hwin).behind k hk x hx) hbefore

include hs hplan hw in
theorem Windows.selected_lower {p : Partition} (hp : p ∈ plan)
    (hsession : session ∈ p.rows env table) (hmatch : q.matchesFilters env session = true)
    (hc : c ∈ selectPage env q windows) (hlt : rankOf q.sort session < c.rank q.sort) :
    ∃ d ∈ selectPage env q windows, d.row.session = session := by
  obtain ⟨w, hwin, rfl⟩ : ∃ w ∈ windows, w.partition = p := by
    rw [← hw.partitions] at hp
    exact mem_map.mp hp
  obtain ⟨hcwin, hcrow, -, hsafe⟩ := hw.mem_selected hs hplan hc
  obtain ⟨x, hx, rfl⟩ | ⟨k, hk, hbefore⟩ := (hw.sound w hwin).complete session hsession hmatch
  · have hmatching : x.matching = true := ((hw.sound w hwin).flag x hx).trans hmatch
    refine ⟨⟨w, x⟩, ?_, rfl⟩
    rw [hw.selectPage_eq hs hplan] at hc ⊢
    refine Increasing.mem_take ((hw.increasing_candidates hs hplan).filter _) hc ?_ hlt
    exact List.mem_filter.mpr ⟨mem_candidates.mpr ⟨hwin, hx, hmatching⟩,
      hw.isSafe_of_le hs ⟨hcwin, hcrow⟩ ⟨hwin, hx⟩ hlt.le hsafe⟩
  · exact absurd (hw.lt_of_before hs hplan hwin hk hsession hbefore ⟨hcwin, hcrow⟩ hsafe) hlt.not_gt

end Merge

/-! ## The query of the next page -/

def SessionListPageQuery.advance (q : SessionListPageQuery) (items : List SessionRecord)
    (continuation : List PartitionState) : SessionListPageQuery :=
  { q with position := sessionCursorPosition items.getLast? q.position, continuation := some continuation }

/-- The rows before the checkpoint are done with, and all of them once exhausted. -/
structure StateInv (env : Runtime) (table : List SessionRecord) (q : SessionListPageQuery) (p : Partition)
    (s : PartitionState) : Prop where
  id : s.id = p.id
  valid : validCheckpoint s.checkpoint p = true
  passed : Passed env table q p s.checkpoint
  done : s.exhausted = true → ∀ session ∈ p.rows env table, q.matchesFilters env session = false

theorem StateInv.start (p : Partition) : StateInv env table q p { id := p.id } where
  id := rfl
  valid := rfl
  passed _ hk := by cases hk
  done h := by cases h

section Advance

variable (hs : Sources env table q.sort index) (hposition : PositionKnown table q) (hplan : Mergeable env q.sort plan)
  (hw : Windows env table q plan windows) (continuation : List PartitionState)

abbrev pageItems (env : Runtime) (q : SessionListPageQuery) (windows : List PartitionWindow) : List SessionRecord :=
  (selectPage env q windows).map (·.row.session)

include hs hplan hw in
theorem Windows.increasing_items : Increasing (rankOf q.sort) (pageItems env q windows) :=
  List.pairwise_map.mpr (hw.increasing_selected hs hplan)

include hs hplan hw in
theorem Windows.items_match (h : session ∈ pageItems env q windows) :
    (∃ p ∈ plan, session ∈ p.rows env table) ∧ q.matchesFilters env session = true := by
  obtain ⟨c, hc, rfl⟩ := mem_map.mp h
  obtain ⟨hwin, hrow, hmatching, -⟩ := hw.mem_selected hs hplan hc
  refine ⟨⟨_, hw.mem_plan hwin, hw.mem_rows hwin hrow⟩, ?_⟩
  rw [← (hw.sound _ hwin).flag _ hrow, hmatching]

include hs hposition hplan hw in
theorem Windows.position_advance : PositionKnown table (q.advance (pageItems env q windows) continuation) := by
  intro position hpos
  change sessionCursorPosition (pageItems env q windows).getLast? q.position = some position at hpos
  cases hlast : (pageItems env q windows).getLast? with
  | none =>
    rw [hlast] at hpos
    exact hposition position hpos
  | some last =>
    rw [hlast] at hpos
    obtain ⟨⟨p, -, hmem⟩, -⟩ := hw.items_match hs hplan (mem_of_getLast? hlast)
    exact ⟨last, p.mem_table hmem, some.inj hpos⟩

include hs hposition hplan hw in
theorem Windows.matches_advance (hmem : session ∈ table)
    (h : (q.advance (pageItems env q windows) continuation).matchesFilters env session = true) :
    q.matchesFilters env session = true ∧ ∀ a ∈ pageItems env q windows, rankOf q.sort a < rankOf q.sort session := by
  obtain ⟨hadmits, hbeyond⟩ := and_eq_true_iff.mp h
  have hs' : Sources env table (q.advance (pageItems env q windows) continuation).sort index := hs
  rw [isBeyond_iff hs' (hw.position_advance hs hposition hplan continuation) hmem] at hbeyond
  cases hlast : (pageItems env q windows).getLast? with
  | none =>
    have hsame : (q.advance (pageItems env q windows) continuation).position = q.position := by
      rw [SessionListPageQuery.advance, hlast]
      rfl
    rw [List.getLast?_eq_none_iff] at hlast
    refine ⟨and_eq_true_iff.mpr ⟨hadmits, ?_⟩, fun a ha => ?_⟩
    · rw [isBeyond_iff hs hposition hmem]
      exact fun position hpos => hbeyond position (hsame.trans hpos)
    · rw [hlast] at ha
      cases ha
  | some last =>
    have hlt : rankOf q.sort last < rankOf q.sort session := by
      refine hbeyond last.toCursorPosition ?_
      rw [SessionListPageQuery.advance, hlast]
      rfl
    have hle : ∀ a ∈ pageItems env q windows, rankOf q.sort a ≤ rankOf q.sort last := by
      intro a ha
      obtain ⟨front, hitems⟩ := List.getLast?_eq_some_iff.mp hlast
      have hsorted := hw.increasing_items hs hplan
      rw [hitems] at hsorted ha
      obtain ha | ha := mem_append.mp ha
      · exact (hsorted.lt_of_append ha (List.mem_singleton_self _)).le
      · rw [mem_singleton] at ha
        rw [ha]
    refine ⟨and_eq_true_iff.mpr ⟨hadmits, ?_⟩, fun a ha => lt_of_le_of_lt (hle a ha) hlt⟩
    obtain ⟨⟨p, -, hlastMem⟩, hlastMatch⟩ := hw.items_match hs hplan (mem_of_getLast? hlast)
    have hlastBeyond := (and_eq_true_iff.mp hlastMatch).2
    rw [isBeyond_iff hs hposition (p.mem_table hlastMem)] at hlastBeyond
    rw [isBeyond_iff hs hposition hmem]
    exact fun position hpos => (hlastBeyond position hpos).trans hlt

theorem consumed_selected {selected : List Candidate} (hx : x ∈ w.consumed selected)
    (hmatching : x.matching = true) : ∃ c ∈ selected, c.row = x := by
  have h := List.mem_takeWhile_imp hx
  rw [hmatching, Bool.not_true, Bool.false_or, List.any_eq_true] at h
  obtain ⟨c, hc, hrow⟩ := h
  exact ⟨c, hc, beq_iff_eq.mp hrow⟩

include hs hposition hplan hw in
theorem Windows.not_consumed (hwin : w ∈ windows) (hx : x ∈ w.consumed (selectPage env q windows))
    (h : (q.advance (pageItems env q windows) continuation).matchesFilters env x.session = true) : False := by
  have hrow : x ∈ w.rows := (List.takeWhile_prefix _).subset hx
  obtain ⟨hmatch, hlt⟩ := hw.matches_advance hs hposition hplan continuation (hw.mem_table hwin hrow) h
  obtain ⟨c, hc, rfl⟩ := consumed_selected hx (((hw.sound w hwin).flag x hrow).trans hmatch)
  exact lt_irrefl _ (hlt _ (mem_map_of_mem (f := fun c : Candidate => c.row.session) hc))

include hs hposition hplan hw in
theorem Windows.nextState_inv (hwin : w ∈ windows) (hprev : StateInv env table q w.partition w.previous) :
    StateInv env table (q.advance (pageItems env q windows) continuation) w.partition
      (nextState env w (selectPage env q windows)) := by
  have hsound := hw.sound w hwin
  have hmatches : ∀ {session}, session ∈ w.partition.rows env table →
      (q.advance (pageItems env q windows) continuation).matchesFilters env session = true →
      q.matchesFilters env session = true := fun hmem h =>
    (hw.matches_advance hs hposition hplan continuation (w.partition.mem_table hmem) h).1
  have hpassed : Passed env table (q.advance (pageItems env q windows) continuation) w.partition w.previous.checkpoint := by
    intro k hk session hmem hbefore
    have hnot := hprev.passed k hk session hmem hbefore
    exact eq_false_iff.mpr fun h => by rw [hmatches hmem h] at hnot; cases hnot
  -- what is done with when the whole window is consumed and nothing follows it
  have hall : w.nextKey = none → (∀ x ∈ w.rows, x ∈ w.consumed (selectPage env q windows)) →
      ∀ session ∈ w.partition.rows env table,
        (q.advance (pageItems env q windows) continuation).matchesFilters env session = false := by
    intro hnone hconsumed session hmem
    refine eq_false_iff.mpr fun h => ?_
    obtain ⟨x, hx, rfl⟩ | ⟨k, hk, -⟩ := hsound.complete session hmem (hmatches hmem h)
    · exact hw.not_consumed hs hposition hplan continuation hwin (hconsumed x hx) h
    · rw [hnone] at hk
      cases hk
  have hread : w.exhaustedRead = true → w.nextKey = none := by
    intro hclosed
    rw [hsound.closed, isNone_iff_eq_none] at hclosed
    exact hclosed
  unfold nextState
  split
  case isTrue hexhausted =>
    refine ⟨hprev.id, hprev.valid, hpassed, fun _ session hmem => eq_false_iff.mpr fun h => ?_⟩
    have hnot := hprev.done hexhausted session hmem
    rw [hmatches hmem h] at hnot
    cases hnot
  case isFalse =>
    split
    case h_1 hnone =>
      split
      case isTrue hempty =>
        rw [and_eq_true, List.isEmpty_iff] at hempty
        refine ⟨rfl, hsound.valid, fun k hk session hmem hbefore => eq_false_iff.mpr fun h => ?_, nofun⟩
        obtain ⟨x, hx, -⟩ | ⟨k', hk', hbefore'⟩ := hsound.complete session hmem (hmatches hmem h)
        · rw [hempty.1] at hx
          cases hx
        · obtain rfl : k = k' := some.inj (hk.symm.trans hk')
          rw [hbefore] at hbefore'
          cases hbefore'
      case isFalse =>
        split
        case isTrue hempty =>
          rw [and_eq_true, List.isEmpty_iff] at hempty
          refine ⟨rfl, hprev.valid, hpassed, fun _ => hall (hread hempty.2) fun x hx => ?_⟩
          rw [hempty.1] at hx
          cases hx
        case isFalse => exact ⟨rfl, hprev.valid, hpassed, nofun⟩
    case h_2 last hlast =>
      split
      case isTrue hfull =>
        rw [and_eq_true, beq_iff_eq] at hfull
        refine ⟨rfl, hprev.valid, hpassed, fun _ => hall (hread hfull.2) fun x hx => ?_⟩
        rw [show w.consumed (selectPage env q windows) = w.rows from
          (List.takeWhile_prefix _).eq_of_length hfull.1]
        exact hx
      case isFalse =>
        refine ⟨rfl, ?_, fun k hk session hmem hbefore => eq_false_iff.mpr fun h => ?_, nofun⟩
        · simp [validCheckpoint, keyForRow]
        · cases hk
          have hlastMem : last ∈ w.consumed (selectPage env q windows) := mem_of_getLast? hlast
          have hlastRow : last ∈ w.rows := (List.takeWhile_prefix _).subset hlastMem
          have hreads := hplan.reads _ (hw.mem_plan hwin)
          have hle : rankOf q.sort session ≤ rankOf q.sort last.session := by
            rw [← not_lt, ← hreads.precedes_sortKey (hw.mem_rows hwin hlastRow) hmem]
            exact eq_false_iff.mp hbefore
          obtain ⟨x, hx, rfl⟩ | ⟨k', hk', hbefore'⟩ := hsound.complete session hmem (hmatches hmem h)
          · -- rows of the window up to the last consumed one are consumed
            have hconsumed : x ∈ w.consumed (selectPage env q windows) := by
              obtain hlt | heq := hle.lt_or_eq
              · have hsplit := List.takeWhile_append_dropWhile
                  (p := fun row : RawRow => !row.matching || (selectPage env q windows).any (·.row == row)) (l := w.rows)
                have hsorted := hsound.sorted
                rw [← hsplit] at hx hsorted
                obtain hx | hx := mem_append.mp hx
                · exact hx
                · rw [List.map_append] at hsorted
                  exact absurd (hsorted.lt_of_append (mem_map_of_mem hlastMem) (mem_map_of_mem hx)) hlt.not_gt
              · have hsame : x.session = last.session :=
                  hs.agree.rank_inj (hw.mem_table hwin hx) (hw.mem_table hwin hlastRow) heq
                rw [hsound.row_eq hx hlastRow hsame]
                exact hlastMem
            exact hw.not_consumed hs hposition hplan continuation hwin hconsumed h
          · have hlt : rankOf q.sort last.session < rankOf q.sort session := by
              rw [← hreads.precedes_sortKey (hw.mem_rows hwin hlastRow) hmem]
              exact precedes_of_not (hsound.behind k' hk' last hlastRow) hbefore'
            exact absurd hlt hle.not_gt

end Advance

end AutoHarness.Listing

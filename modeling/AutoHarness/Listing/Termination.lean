import Mathlib.Algebra.Order.BigOperators.Group.List
import AutoHarness.Listing.Exact

/-! Pagination ends. A page may open an exhausted partition again, so the pages can go round; where such partitions
are short, each page brings some partition forward. -/

namespace AutoHarness.Listing
open Foundation Store List Bool QueryRequest

/-! ## The refills of one page -/

variable {env : Runtime} {table : List SessionRecord} {q : SessionListPageQuery} {index : QueryRequest → QueryResponse}
  {plan : List Partition} {states : List PartitionState} {fuel : ℕ}

def readBudget (q : SessionListPageQuery) (windows : List PartitionWindow) : ℕ :=
  (windows.map fun w => q.limit + 1 - w.requested).sum

theorem fillPage_settled {windows : List PartitionWindow}
    (hasked : ∀ w ∈ windows, w.exhaustedRead = false → 0 < w.requested) (hfuel : readBudget q windows ≤ fuel) :
    q.limit ≤ (selectPage env q (fillPage env index q fuel windows)).length ∨
      refillableWindows env q (fillPage env index q fuel windows) = [] := by
  have hrefillable : ∀ {ws : List PartitionWindow} {w : PartitionWindow}, isRefillable env q ws w = true →
      w.exhaustedRead = false ∧ w.requested ≤ q.limit := by
    intro ws w h
    rw [isRefillable, and_eq_true, and_eq_true, not_eq_true', decide_eq_true_iff] at h
    exact h.1
  induction fuel generalizing windows with
  | zero =>
    refine .inr (filter_eq_nil_iff.mpr fun w hw h => ?_)
    have hle : q.limit + 1 - w.requested ≤ readBudget q windows :=
      single_le_sum (by simp) _ (mem_map_of_mem (f := fun w : PartitionWindow => q.limit + 1 - w.requested) hw)
    have hrequested := (hrefillable h).2
    omega
  | succ fuel ih =>
    rw [fillPage]
    split
    case isFalse hfull => exact .inl (Nat.le_of_not_lt hfull)
    case isTrue hshort =>
      split
      case isTrue hempty => exact .inr (isEmpty_iff.mp hempty)
      case isFalse hne =>
        have hextend : ∀ w ∈ windows, isRefillable env q windows w = true →
            w.requested < (extendPartitionWindow env index q w).requested := by
          intro w hw h
          have hpos := hasked w hw (hrefillable h).1
          have hrequested := (hrefillable h).2
          change w.requested < w.requested + min w.requested (q.limit + 1 - w.requested)
          omega
        refine ih (fun w' hw' hopen => ?_) ?_
        · obtain ⟨w, hw, rfl⟩ := mem_map.mp hw'
          split at hopen
          case isTrue h =>
            rw [if_pos h]
            exact (Nat.zero_le _).trans_lt (hextend w hw h)
          case isFalse h =>
            rw [if_neg h]
            exact hasked w hw hopen
        · have hlt : readBudget q (windows.map fun w =>
              if isRefillable env q windows w then extendPartitionWindow env index q w else w) < readBudget q windows := by
            rw [readBudget, readBudget, map_map]
            refine sum_lt_sum _ _ (fun w hw => ?_) ?_
            · change q.limit + 1 - (if isRefillable env q windows w then extendPartitionWindow env index q w else w).requested ≤ _
              split
              case isTrue h =>
                have := hextend w hw h
                omega
              case isFalse => exact le_refl _
            · obtain ⟨w, hw⟩ := exists_mem_of_ne_nil _ (mt isEmpty_iff.mpr hne)
              obtain ⟨hw, h⟩ := mem_filter.mp hw
              refine ⟨w, hw, ?_⟩
              change q.limit + 1 - (if isRefillable env q windows w then extendPartitionWindow env index q w else w).requested < _
              rw [if_pos h]
              have hextended := hextend w hw h
              have hrequested := (hrefillable h).2
              omega
          omega

/-- The refills of a page end by themselves. -/
theorem pageWindows_settled (hs : Sources env table q.sort index) (hposition : PositionKnown table q)
    (hplan : Mergeable env q.sort plan) (hstates : ∀ p ∈ plan, StateInv env table q p (stateOf states p)) :
    q.limit ≤ (selectPage env q (pageWindows env index q plan states)).length ∨
      refillableWindows env q (pageWindows env index q plan states) = [] := by
  obtain ⟨hw, -⟩ := openWindows_windows hs hposition hplan hstates
  refine fillPage_settled (fun w hwin => (hw.sound w hwin).asked) ?_
  have hle := sum_le_card_nsmul ((openWindows env index q plan states).map fun w => q.limit + 1 - w.requested)
    (q.limit + 1) (fun x hx => by
      obtain ⟨w, -, rfl⟩ := mem_map.mp hx
      exact Nat.sub_le _ _)
  rw [length_map, openWindows, length_map] at hle
  exact hle

/-! ## Short partitions are read to their end -/

variable {p : Partition} {condition : SortCondition} {w : PartitionWindow} {remaining limit : ℕ}

theorem request_rows_next (limit : ℕ) (hs : Sources env table q.sort index) {start : Option SessionPartitionCheckpoint}
    (hpos : 0 < remaining) {k : SessionPartitionCheckpoint}
    (hk : (index ⟨p, condition, remaining, start⟩).lastEvaluatedKey = some k) :
    (rows env table ⟨p, condition, limit, some k⟩).length + (index ⟨p, condition, remaining, start⟩).items.length ≤
      (rows env table ⟨p, condition, remaining, start⟩).length := by
  set request : QueryRequest := ⟨p, condition, remaining, start⟩ with hrequest
  have hrest : rows env table ⟨p, condition, limit, some k⟩ =
      (request.rows env table).filter fun session => k.before env p session := by
    rw [rows, rows, filter_filter]
    refine filter_congr fun session _ => ?_
    change (condition.admits _ && k.before env p session) =
      (k.before env p session && (condition.admits _ && start.all fun k => k.before env p session))
    cases hbefore : k.before env p session with
    | false => rw [Bool.and_false, Bool.false_and]
    | true =>
      have hstart : (start.all fun k => k.before env p session) = true := by
        cases hst : start with
        | none => rfl
        | some k₀ => exact precedes_of_not (hs.answers.ahead request hpos k hk k₀ hst) hbefore
      rw [hstart, Bool.and_true, Bool.true_and]
  obtain ⟨n, -, hitems⟩ := hs.answers.items request hpos
  have hread : (index request).items.length ≤
      ((request.rows env table).filter fun session => !k.before env p session).length := by
    have hself : (index request).items.filter (fun session => !k.before env p session) = (index request).items := by
      refine filter_eq_self.mpr fun session hmem => ?_
      have hrow : session ∈ request.rows env table := by
        rw [hitems] at hmem
        exact mem_of_mem_take hmem
      rw [(hs.answers.split request hpos k hk session hrow).mp hmem]
      rfl
    rw [← hself, hitems]
    exact ((take_sublist _ _).filter _).length_le
  have hsum := length_eq_length_filter_add (l := request.rows env table) fun session => k.before env p session
  rw [hrest]
  omega

theorem readRows_ends (hs : Sources env table q.sort index) (hproductive : Productive index) (hfuel : remaining ≤ fuel)
    (hshort : (rows env table ⟨w.partition, condition, remaining, w.nextKey⟩).length < remaining) :
    (readRows env index q condition fuel remaining w).nextKey = none := by
  induction fuel generalizing remaining w with
  | zero => omega
  | succ fuel ih =>
    have hpos : 0 < remaining := by omega
    simp only [readRows]
    cases hk : (index ⟨w.partition, condition, remaining, w.nextKey⟩).lastEvaluatedKey with
    | none =>
      rw [if_neg (fun h => by cases h.2.2)]
      exact hk
    | some k =>
      have hne := hproductive _ k hk
      have hread : 0 < (index ⟨w.partition, condition, remaining, w.nextKey⟩).items.length :=
        length_pos_of_ne_nil hne
      have hnext := request_rows_next
        (remaining - (index ⟨w.partition, condition, remaining, w.nextKey⟩).items.length) hs hpos hk
      rw [if_pos ⟨by omega, hread, rfl⟩]
      refine ih (by omega) ?_
      rw [show (w.extend env q (index ⟨w.partition, condition, remaining, w.nextKey⟩)).nextKey = some k from hk]
      change (rows env table ⟨w.partition, condition, _, some k⟩).length < _
      omega

def rowsFrom (env : Runtime) (table : List SessionRecord) (q : SessionListPageQuery) (p : Partition) : List SessionRecord :=
  (p.rows env table).filter fun session =>
    q.position.all fun position => compareSessionToCursor env session.toCursorPosition position q.sort != .lt

theorem rank_of_keyCondition (hp : p.Reads env q.sort) {session : SessionRecord} (hrange : p.inRange env session = true)
    {position : CursorPosition}
    (h : (keyCondition p (some (p.boundValue env position))).admits (p.sortKey env session) = true) :
    rank q.sort position ≤ rankOf q.sort session := by
  rw [← not_lt, ← hp.precedes_boundValue, ← hp.sortKey_eq hrange]
  cases hr : p.sortKeyRange <;> cases hforward : p.forward
  all_goals by_cases hname : p.sortKeyName = .createdOrder
  all_goals
    simp only [keyCondition, hr, hforward, hname, false_eq_true, if_false, if_true, SortCondition.admits,
      and_eq_true, decide_eq_true_iff] at h
    simp only [precedes, false_eq_true, if_false, if_true, decide_eq_true_iff, not_lt]
  -- the bound is inclusive, strict, or an end of a range, by index
  all_goals first | exact h | exact h.le | exact h.1 | exact h.2

theorem openPartitionWindow_ends (hs : Sources env table q.sort index) (hproductive : Productive index)
    (hposition : PositionKnown table q) (hp : p.Reads env q.sort) {previous : PartitionState}
    (hstart : previous.checkpoint = none) (hshort : (rowsFrom env table q p).length < limit) :
    (openPartitionWindow env index q p previous limit).exhaustedRead = true := by
  have hbounds := legacySortValue_bounds env p q none
  have hle : (rows env table
      ⟨p, keyCondition p (legacySortValue env p q.position none), limit, none⟩).length ≤ (rowsFrom env table q p).length := by
    rw [request_rows fun session => keyCondition_inRange hp hbounds, rowsFrom, ← countP_eq_length_filter,
      ← countP_eq_length_filter]
    refine countP_mono_left fun session hmem hadmits => ?_
    have hadmits := (and_eq_true_iff.mp hadmits).1
    cases hq : q.position with
    | none => rfl
    | some position =>
      obtain ⟨a, ha, rfl⟩ := hposition position hq
      rw [Option.all_some, bne_iff_ne, compareSessionToCursor_eq, ne_eq, hs.agree.compare_lt (p.mem_table hmem) ha, not_lt]
      rw [legacySortValue, hq] at hadmits
      exact rank_of_keyCondition hp (p.mem_rows.mp hmem).2.2 hadmits
  refine Option.isNone_iff_eq_none.mpr (readRows_ends hs hproductive (le_refl limit) ?_)
  rw [hstart]
  exact lt_of_le_of_lt hle hshort

/-! ## Progress -/

variable {windows : List PartitionWindow} {sort : SessionListSort}

def cost (env : Runtime) (table : List SessionRecord) (p : Partition) (s : PartitionState) : ℕ :=
  if s.exhausted then 0
  else ((p.rows env table).filter fun session => s.checkpoint.all fun k => k.before env p session).length + 1

def totalCost (env : Runtime) (table : List SessionRecord) (plan : List Partition) (states : List PartitionState) : ℕ :=
  (plan.map fun p => cost env table p (stateOf states p)).sum

def Brisk (w : PartitionWindow) : Prop := w.rows = [] → w.nextKey = none

section

variable (hproductive : Productive index)
include hproductive

theorem readRows_brisk {condition : SortCondition}
    (hfuel : 0 < fuel) : Brisk (readRows env index q condition fuel remaining w) := by
  induction fuel generalizing remaining w with
  | zero => omega
  | succ fuel ih =>
    have hquery : Brisk (w.extend env q (index ⟨w.partition, condition, remaining, w.nextKey⟩)) := by
      intro hnil
      obtain ⟨-, hitems⟩ := append_eq_nil_iff.mp hnil
      rw [map_eq_nil_iff] at hitems
      cases hk : (index ⟨w.partition, condition, remaining, w.nextKey⟩).lastEvaluatedKey with
      | none => exact hk
      | some k => exact absurd hitems (hproductive _ k hk)
    simp only [readRows]
    split
    case isTrue hmore =>
      cases fuel with
      | zero => exact hquery
      | succ fuel => exact ih (Nat.succ_pos _)
    case isFalse => exact hquery

theorem readPartition_brisk (hlimit : 0 < limit) : Brisk (readPartition env index q w limit) :=
  readRows_brisk hproductive hlimit

theorem pageWindows_brisk (w : PartitionWindow)
    (h : w ∈ pageWindows env index q plan states) : Brisk w ∧ (w.exhaustedRead = false → 0 < w.requested) := by
  refine fillPage_invariant env index q (R := fun w => Brisk w ∧ (w.exhaustedRead = false → 0 < w.requested))
    (fun w hw hopen hrequested => ?_) _ (fun w hw => ?_) w h
  · have hpos := hw.2 hopen
    refine ⟨readPartition_brisk hproductive (by omega), fun _ => ?_⟩
    change 0 < w.requested + _
    omega
  · obtain ⟨p, -, rfl⟩ := mem_map.mp hw
    split
    · exact ⟨fun _ => rfl, nofun⟩
    · refine ⟨readPartition_brisk hproductive (initialWindowLimit_pos _ _), fun _ => ?_⟩
      exact Nat.add_pos_right _ (initialWindowLimit_pos _ _)

end

/-- A page never loses ground in a partition, and gains some when a row of it is consumed. -/
theorem nextState_cost (hw : Windows env table q plan windows)
    (hwin : w ∈ windows) (hbrisk : Brisk w) (hopen : w.previous.exhausted = false) (selected : List Candidate) :
    cost env table w.partition (nextState env w selected) ≤ cost env table w.partition w.previous ∧
      (w.rows = [] ∨ w.consumed selected ≠ [] →
        cost env table w.partition (nextState env w selected) < cost env table w.partition w.previous) := by
  have hsound := hw.sound w hwin
  have hpos : 0 < cost env table w.partition w.previous := by
    rw [cost, hopen]
    exact Nat.succ_pos _
  have hexhausted : ∀ k, cost env table w.partition ⟨w.partition.id, k, true⟩ < cost env table w.partition w.previous := by
    intro k
    exact hpos
  unfold nextState
  rw [hopen, if_neg Bool.false_ne_true]
  split
  case h_1 hnone =>
    rw [getLast?_eq_none_iff] at hnone
    cases hrows : w.rows with
    | nil =>
      have hnext := hbrisk hrows
      have hread : w.exhaustedRead = true := by
        rw [hsound.closed, hnext]
        rfl
      simp only [hnext, hread, isEmpty_nil, Option.isSome_none, Bool.and_false, false_eq_true, if_false,
        Bool.and_self, if_true]
      exact ⟨(hexhausted _).le, fun _ => hexhausted _⟩
    | cons x rows =>
      simp only [isEmpty_cons, Bool.false_and, false_eq_true, if_false]
      refine ⟨le_of_eq ?_, fun h => absurd hnone (h.resolve_left (cons_ne_nil _ _))⟩
      rw [cost, cost, hopen]
  case h_2 last hlast =>
    have hlastRow : last ∈ w.rows := (List.takeWhile_prefix _).subset (mem_of_getLast? hlast)
    have hlastMem := hw.mem_rows hwin hlastRow
    split
    · exact ⟨(hexhausted _).le, fun _ => hexhausted _⟩
    · have hlt : cost env table w.partition ⟨w.partition.id, some (keyForRow env w.partition last), false⟩ <
          cost env table w.partition w.previous := by
        rw [cost, cost, hopen, if_neg Bool.false_ne_true, if_neg Bool.false_ne_true, Nat.add_lt_add_iff_right]
        have hafter : ∀ session, (keyForRow env w.partition last).before env w.partition session = true →
            (w.previous.checkpoint.all fun k => k.before env w.partition session) = true := by
          intro session hbefore
          cases hk : w.previous.checkpoint with
          | none => rfl
          | some k => exact precedes_trans (hsound.resumed k hk last hlastRow) hbefore
        have hfilter : ((w.partition.rows env table).filter fun session =>
              (some (keyForRow env w.partition last)).all fun k => k.before env w.partition session) =
            ((w.partition.rows env table).filter fun session =>
              w.previous.checkpoint.all fun k => k.before env w.partition session).filter fun session =>
              (keyForRow env w.partition last).before env w.partition session := by
          rw [filter_filter]
          refine filter_congr fun session _ => ?_
          rw [Option.all_some]
          cases hbefore : (keyForRow env w.partition last).before env w.partition session with
          | false => rfl
          | true => rw [hafter session hbefore]; rfl
        rw [hfilter, length_filter_lt_length_iff_exists]
        refine ⟨last.session, mem_filter.mpr ⟨hlastMem, ?_⟩, ?_⟩
        · cases hk : w.previous.checkpoint with
          | none => rfl
          | some k => exact hsound.resumed k hk last hlastRow
        · rw [Bool.not_eq_true]
          exact precedes_eq_false.mpr (le_refl _)
      exact ⟨hlt.le, fun _ => hlt⟩

/-- Some partition that is still open gains ground: the least row its windows begin with is passed over
or selected. -/
theorem exists_progress (hs : Sources env table q.sort index) (hplan : Mergeable env q.sort plan)
    (hw : Windows env table q plan windows) (hlimit : 0 < q.limit) (live : PartitionWindow → Prop)
    (hlive : ∃ w ∈ windows, live w) (hopen : ∀ w ∈ windows, w.exhaustedRead = false → live w)
    (hmatching : ∀ w ∈ windows, ∀ x ∈ w.rows, x.matching = true → live w) :
    ∃ w ∈ windows, live w ∧ (w.rows = [] ∨ w.consumed (selectPage env q windows) ≠ []) := by
  by_contra hnone
  -- otherwise every open window begins with a matching row that is not selected
  have hstuck : ∀ w ∈ windows, live w → ∃ x rest, w.rows = x :: rest ∧ x.matching = true ∧
      ∀ c ∈ selectPage env q windows, c.row ≠ x := by
    intro w hwin hw'
    have hstill : w.rows ≠ [] ∧ w.consumed (selectPage env q windows) = [] := by
      constructor
      · exact fun hnil => hnone ⟨w, hwin, hw', .inl hnil⟩
      · by_contra hne
        exact hnone ⟨w, hwin, hw', .inr hne⟩
    obtain ⟨hne, hconsumed⟩ := hstill
    obtain ⟨x, rest, hrows⟩ := exists_cons_of_ne_nil hne
    have hhead : ¬ (!x.matching || (selectPage env q windows).any (·.row == x)) = true := by
      intro htrue
      rw [PartitionWindow.consumed, hrows, takeWhile_cons, if_pos htrue] at hconsumed
      cases hconsumed
    rw [Bool.not_eq_true, or_eq_false_iff, not_eq_false', any_eq_false] at hhead
    exact ⟨x, rest, hrows, hhead.1, fun c hc heq => hhead.2 c hc (beq_iff_eq.mpr heq)⟩
  have hfirst : ∀ w ∈ windows, live w → ∃ x ∈ w.rows, (⟨w, x⟩ : Candidate) ∈ candidates env q windows ∧
      (∀ y ∈ w.rows, rankOf q.sort x.session ≤ rankOf q.sort y.session) ∧ ∀ c ∈ selectPage env q windows, c.row ≠ x := by
    intro w hwin hw'
    obtain ⟨x, rest, hrows, hx, hnot⟩ := hstuck w hwin hw'
    have hmem : x ∈ w.rows := hrows ▸ mem_cons_self
    refine ⟨x, hmem, mem_candidates.mpr ⟨hwin, hmem, hx⟩, fun y hy => ?_, hnot⟩
    have hsorted := (hw.sound w hwin).sorted
    rw [hrows, map_cons] at hsorted
    rw [hrows] at hy
    obtain rfl | hy := mem_cons.mp hy
    · exact le_refl _
    · exact ((pairwise_cons.mp hsorted).1 _ (mem_map_of_mem hy)).le
  obtain ⟨w₀, hw₀, hlive₀⟩ := hlive
  obtain ⟨x₀, -, hx₀, -⟩ := hfirst w₀ hw₀ hlive₀
  obtain ⟨c, cs, hcs⟩ := exists_cons_of_ne_nil (ne_nil_of_mem hx₀)
  have hsorted := hw.increasing_candidates hs hplan
  have hleast : ∀ d ∈ candidates env q windows, c.rank q.sort ≤ d.rank q.sort := by
    intro d hd
    rw [hcs] at hsorted hd
    obtain rfl | hd := mem_cons.mp hd
    · exact le_refl _
    · exact ((pairwise_cons.mp hsorted).1 d hd).le
  have hc : c ∈ candidates env q windows := hcs ▸ mem_cons_self
  obtain ⟨hcwin, hcrow, hcmatching⟩ := mem_candidates.mp hc
  obtain ⟨x, hx, hxc, hxleast, hxnot⟩ := hfirst c.window hcwin (hmatching _ hcwin _ hcrow hcmatching)
  -- the least candidate is the first row of its window
  have hcx : c = ⟨c.window, x⟩ := hw.candidate_inj hs hplan ⟨hcwin, hcrow⟩ ⟨hcwin, hx⟩
    (le_antisymm (hleast _ hxc) (hxleast _ hcrow))
  have hsafe : isSafe env q windows c = true := by
    rw [hw.isSafe_iff hs ⟨hcwin, hcrow⟩]
    intro w hwin hread
    obtain ⟨y, hy, hyc, -, -⟩ := hfirst w hwin (hopen w hwin hread)
    cases hf : w.frontier with
    | none =>
      rw [PartitionWindow.frontier, Option.map_eq_none_iff, getLast?_eq_none_iff] at hf
      rw [hf] at hy
      cases hy
    | some frontier => exact ⟨frontier, rfl, (hleast _ hyc).trans ((hw.sound w hwin).le_frontier hy hf)⟩
  have hselected : c ∈ selectPage env q windows := by
    rw [hw.selectPage_eq hs hplan, hcs, filter_cons_of_pos hsafe]
    obtain ⟨n, hn⟩ := Nat.exists_eq_succ_of_ne_zero hlimit.ne'
    rw [hn, take_succ_cons]
    exact mem_cons_self
  exact hxnot c hselected (congrArg Candidate.row hcx)

/-! ## The pages end -/

/-- Every exhausted partition that the page opens again is short. -/
def ReopensShort (env : Runtime) (table : List SessionRecord) (q : SessionListPageQuery) (plan : List Partition)
    (states : List PartitionState) : Prop :=
  revisitExhausted q states = true → ∀ p ∈ plan, (stateOf states p).exhausted = true →
    (rowsFrom env table q p).length < initialWindowLimit q.limit plan.length

theorem pageWindows_ended (hs : Sources env table q.sort index) (hproductive : Productive index)
    (hposition : PositionKnown table q) (hplan : Mergeable env q.sort plan) (hshort : ReopensShort env table q plan states)
    (w : PartitionWindow) (h : w ∈ pageWindows env index q plan states)
    (hexhausted : (stateOf states w.partition).exhausted = true) : w.exhaustedRead = true := by
  have hinv := fillPage_invariant env index q
    (R := fun w => (stateOf states w.partition).exhausted = true → w.exhaustedRead = true)
    (fun w hw hopen _ hexhausted => by
      have hpart : (extendPartitionWindow env index q w).partition = w.partition := readRows_partition _ _ _ w
      rw [hpart] at hexhausted
      rw [hw hexhausted] at hopen
      cases hopen)
    (plan.length * (q.limit + 1)) fun w (hw : w ∈ openWindows env index q plan states) => by
      obtain ⟨p, hp, rfl⟩ := mem_map.mp hw
      intro hex
      split at hex
      case isTrue hprev => rw [if_pos hprev]
      case isFalse hprev =>
        have hpart : (openPartitionWindow env index q p (previousState q states p)
            (initialWindowLimit q.limit plan.length)).partition = p := readRows_partition _ _ _ _
        rw [hpart] at hex
        -- an exhausted partition is read only when it is opened again
        have hrevisit : revisitExhausted q states = true := by
          by_contra hnot
          rw [Bool.not_eq_true] at hnot
          rw [previousState, hnot, Bool.false_and, if_neg Bool.false_ne_true] at hprev
          exact hprev hex
        rw [if_neg hprev]
        refine openPartitionWindow_ends hs hproductive hposition (hplan.reads p hp) ?_ (hshort hrevisit p hp hex)
        simp only [previousState, hrevisit, hex, Bool.and_self, if_true]
  exact hinv w h hexhausted

theorem nextState_exhausted {selected : List Candidate} (hread : w.exhaustedRead = true)
    (hnext : w.nextKey = none) (hrows : ∀ x ∈ w.rows, x.matching = false) : (nextState env w selected).exhausted = true := by
  have hconsumed : w.consumed selected = w.rows := by
    rw [PartitionWindow.consumed, takeWhile_eq_self_iff]
    intro x hx
    rw [hrows x hx]
    rfl
  unfold nextState
  split
  case isTrue h => exact h
  case isFalse =>
    rw [hconsumed]
    cases hlist : w.rows with
    | nil => simp [hnext, hread]
    | cons x rows =>
      cases hlast : (x :: rows).getLast? with
      | none => simp at hlast
      | some last => simp [hread]

theorem totalCost_lt (hs : Sources env table q.sort index) (hproductive : Productive index)
    (hplan : Mergeable env q.sort plan) (hlimit : 0 < q.limit) (h : CursorInv env table q plan states)
    (hshort : ReopensShort env table q plan states) (hopen : ∃ p ∈ plan, (stateOf states p).exhausted = false) :
    totalCost env table plan (pageStates env q (pageWindows env index q plan states)) < totalCost env table plan states := by
  set windows := pageWindows env index q plan states with hwindows
  obtain ⟨hw, hkeeps⟩ := pageWindows_windows hs h.position hplan h.states
  have hnext := CursorInv.next hs hplan h
  have hstate : ∀ w ∈ windows, stateOf (pageStates env q windows) w.partition = nextState env w (selectPage env q windows) := by
    intro w hwin
    have hids := hnext.ids
    refine stateOf_eq (hids ▸ hplan.nodup_ids)
      (mem_map_of_mem (f := fun w => nextState env w (selectPage env q windows)) hwin) ?_
    refine (hw.nextState_inv hs h.position hplan [] hwin ?_).id
    rw [hkeeps w hwin]
    exact previousState_inv (h.states _ (hw.mem_plan hwin))
  have hlive : ∀ w ∈ windows, (stateOf states w.partition).exhausted = false →
      w.previous = stateOf states w.partition := by
    intro w hwin hlive
    rw [hkeeps w hwin, previousState]
    simp [hlive]
  have hended := pageWindows_ended hs hproductive h.position hplan hshort
  have hdone : ∀ w ∈ windows, (stateOf states w.partition).exhausted = true → ∀ x ∈ w.rows, x.matching = false := by
    intro w hwin hexhausted x hx
    rw [(hw.sound w hwin).flag x hx]
    exact (h.states _ (hw.mem_plan hwin)).done hexhausted _ (hw.mem_rows hwin hx)
  have hle : ∀ w ∈ windows, cost env table w.partition (stateOf (pageStates env q windows) w.partition) ≤
      cost env table w.partition (stateOf states w.partition) := by
    intro w hwin
    rw [hstate w hwin]
    cases hexhausted : (stateOf states w.partition).exhausted with
    | false =>
      have hprev := hlive w hwin hexhausted
      rw [← hprev] at hexhausted ⊢
      exact (nextState_cost hw hwin (pageWindows_brisk hproductive w hwin).1 hexhausted _).1
    | true =>
      have hread := hended w hwin hexhausted
      have hnone : w.nextKey = none := by
        have hclosed := (hw.sound w hwin).closed
        rw [hread] at hclosed
        exact Option.isNone_iff_eq_none.mp hclosed.symm
      rw [cost, nextState_exhausted hread hnone (hdone w hwin hexhausted), if_pos rfl]
      exact Nat.zero_le _
  have hlt : ∃ w ∈ windows, cost env table w.partition (stateOf (pageStates env q windows) w.partition) <
      cost env table w.partition (stateOf states w.partition) := by
    obtain ⟨w, hwin, hw', hgain⟩ := exists_progress hs hplan hw hlimit
      (fun w => (stateOf states w.partition).exhausted = false)
      (by
        obtain ⟨p, hp, hlive⟩ := hopen
        rw [← hw.partitions] at hp
        obtain ⟨w, hwin, rfl⟩ := mem_map.mp hp
        exact ⟨w, hwin, hlive⟩)
      (fun w hwin hread => eq_false_iff.mpr fun hexhausted => by
        rw [hended w hwin hexhausted] at hread
        cases hread)
      (fun w hwin x hx hmatching => eq_false_iff.mpr fun hexhausted => by
        rw [hdone w hwin hexhausted x hx] at hmatching
        cases hmatching)
    refine ⟨w, hwin, ?_⟩
    have hprev := hlive w hwin hw'
    rw [hstate w hwin]
    rw [← hprev] at hw' ⊢
    exact (nextState_cost hw hwin (pageWindows_brisk hproductive w hwin).1 hw' _).2 hgain
  rw [totalCost, totalCost, ← hw.partitions, map_map, map_map]
  exact sum_lt_sum _ _ hle hlt

def pageBound (env : Runtime) (table : List SessionRecord) (plan : List Partition) : ℕ :=
  (plan.map fun p => (p.rows env table).length).sum + plan.length

theorem stateOf_start (hplan : Mergeable env sort plan) {p : Partition} (hp : p ∈ plan) :
    stateOf (statesOf plan none) p = { id := p.id } := by
  have hids : (statesOf plan none).map (·.id) = plan.map (·.id) := by
    rw [statesOf, map_map]
    rfl
  exact stateOf_eq (hids ▸ hplan.nodup_ids)
    (mem_map_of_mem (f := fun p : Partition => ({ id := p.id } : PartitionState)) hp) rfl

theorem totalCost_start (hplan : Mergeable env sort plan) :
    totalCost env table plan (statesOf plan none) = pageBound env table plan := by
  have hcost : ∀ p ∈ plan, cost env table p (stateOf (statesOf plan none) p) = (p.rows env table).length + 1 := by
    intro p hp
    rw [stateOf_start hplan hp, cost, if_neg Bool.false_ne_true]
    congr 2
    exact filter_eq_self.mpr fun _ _ => rfl
  rw [totalCost, map_congr_left hcost, pageBound, sum_map_add, map_const', sum_replicate]
  exact congrArg _ (Nat.mul_one _)

theorem totalCost_pos (hopen : ∃ p ∈ plan, (stateOf states p).exhausted = false) : 0 < totalCost env table plan states := by
  obtain ⟨p, hp, hopen⟩ := hopen
  have hle : cost env table p (stateOf states p) ≤ totalCost env table plan states :=
    single_le_sum (by simp) _ (mem_map_of_mem (f := fun p => cost env table p (stateOf states p)) hp)
  refine lt_of_lt_of_le ?_ hle
  rw [cost, hopen]
  exact Nat.succ_pos _

variable {request : ListSessionsPageQuery} {shardCount : ℕ}

/-- **Pagination ends**, when every page finds the partitions it opens again short. -/
theorem pages_finish {index : ℕ → QueryRequest → QueryResponse} (hs : ∀ n, Sources env table request.sort (index n))
    (hproductive : ∀ n, Productive (index n)) (ready : ℕ → Bool)
    (hshort : ∀ n c, (pages env index ready shardCount request n).standing = .asking (some c) →
      ReopensShort env table (cursorQuery request shardCount c)
        (planForRequest env (ready 0) (firstQuery request shardCount)) c.partitions) :
    ∃ n, n ≤ max 1 (pageBound env table (planForRequest env (ready 0) (firstQuery request shardCount))) ∧
      (pages env index ready shardCount request n).standing = .finished := by
  set plan := planForRequest env (ready 0) (firstQuery request shardCount) with hplanEq
  have hplan : Mergeable env request.sort plan := plan_mergeable env (ready 0) (firstQuery request shardCount)
  have hfirst : ∀ page, listSessionsPageDurable env (index 0) (ready 0) shardCount request none = .ok (page, none) →
      (pages env index ready shardCount request 1).standing = .finished := by
    intro page hpage
    exact congrArg Walk.standing (Walk.next_page (s := ⟨[], .asking none⟩) rfl hpage)
  cases hhost : request.isForeignHost with
  | true =>
    refine ⟨1, le_max_left _ _, hfirst [] ?_⟩
    rw [listSessionsPageDurable, hhost, if_pos rfl]
  | false =>
    by_cases hne : plan = []
    · refine ⟨1, le_max_left _ _, hfirst [] ?_⟩
      simp [listSessionsPageDurable, hhost, listSessionsPageFromStorage, ← hplanEq, hne]
    · rw [← totalCost_start hplan]
      refine walk_finishes (P := fun cursor => (∀ c, cursor = some c → CursorSound env table request shardCount plan c) ∧
          ∃ p ∈ plan, (stateOf (statesOf plan cursor) p).exhausted = false)
        (fun cursor => totalCost env table plan (statesOf plan cursor)) ⟨fun c hc => (by cases hc), ?_⟩ ?_
      · obtain ⟨p, hp⟩ := exists_mem_of_ne_nil _ hne
        exact ⟨p, hp, by rw [stateOf_start hplan hp]⟩
      · intro n cursor hstanding hP
        obtain ⟨hcursor, hopen⟩ := hP
        have hready : cursor = none → ready n = ready 0 := by
          rintro rfl
          rw [walk_asking_none hstanding]
        obtain ⟨-, -, hinv⟩ := request_states hcursor hready
        obtain ⟨hserve, hnext⟩ := request_answered (hs n) hhost hne hcursor hready
        refine ⟨_, _, hserve, fun c hc => ?_⟩
        split at hc
        · cases hc
        case isFalse hall =>
          cases hc
          have hopenNext : ∃ p ∈ plan, (stateOf (pageStates env (request.storageQuery shardCount cursor)
              (windowsOf env (index n) request shardCount plan cursor)) p).exhausted = false := by
            rw [all_eq_true, not_forall] at hall
            obtain ⟨state, hstate⟩ := hall
            rw [Classical.not_imp, Bool.not_eq_true] at hstate
            have hid := mem_map_of_mem (f := fun s : PartitionState => s.id) hstate.1
            rw [hnext.states.ids] at hid
            obtain ⟨p, hp, hpid⟩ := mem_map.mp hid
            refine ⟨p, hp, ?_⟩
            rw [stateOf_eq (hnext.states.ids ▸ hplan.nodup_ids) hstate.1 hpid.symm]
            exact hstate.2
          refine ⟨⟨fun c hc => ?_, hopenNext⟩, totalCost_pos hopenNext, ?_⟩
          · cases hc
            exact hnext
          · refine totalCost_lt (hs n) (hproductive n) hplan request.limit_pos hinv ?_ hopen
            cases cursor with
            | none =>
              intro hrevisit
              simp [revisitExhausted, ListSessionsPageQuery.storageQuery] at hrevisit
            | some c => exact hshort n c hstanding

/-! ## Runs -/

/-- Five failed and three completed sessions, of which one is of the source `api`. -/
def outOfStep : List SessionRecord :=
  [{ createdAt := "1", id := "a", status := .failed }, { createdAt := "2", id := "b", status := .failed },
   { createdAt := "3", id := "c", status := .failed, source := some "api" },
   { createdAt := "4", id := "d", status := .failed }, { createdAt := "5", id := "e", status := .failed },
   { createdAt := "6", id := "f", status := .completed }, { createdAt := "7", id := "g", status := .completed },
   { createdAt := "8", id := "h", status := .completed }]

def oldestOfSource : ListSessionsPageQuery := { limit := 1, sort := .oldest, query := { source := some "api" } }

theorem outOfStep_sources : Sources codePointRuntime outOfStep .oldest (exactIndex codePointRuntime outOfStep) := by
  refine Sources.exact (by decide) ⟨by decide +kernel, by decide +kernel, by decide +kernel⟩ fun name => ?_
  cases name <;> decide +kernel

/-- The failed and the completed sessions are exhausted by turns. -/
theorem pages_go_round :
    Sources codePointRuntime outOfStep oldestOfSource.sort (exactIndex codePointRuntime outOfStep) ∧
    Productive (exactIndex codePointRuntime outOfStep) ∧
    ∀ n, (pages codePointRuntime (fun _ => exactIndex codePointRuntime outOfStep) (fun _ => true) 1 oldestOfSource
      n).standing ≠ .finished := by
  refine ⟨outOfStep_sources, exactIndex_productive, walk_cycles (i := 3) (d := 2) (by decide) ?_ ?_⟩
  all_goals decide +kernel

/-- Four failed sessions, the first of the source `api`, and a completed one. -/
def inStep : List SessionRecord :=
  [{ createdAt := "1", id := "a", status := .failed, source := some "api" },
   { createdAt := "2", id := "b", status := .failed }, { createdAt := "3", id := "c", status := .failed },
   { createdAt := "4", id := "d", status := .failed }, { createdAt := "5", id := "e", status := .completed }]

theorem inStep_sources : Sources codePointRuntime inStep .oldest (exactIndex codePointRuntime inStep) := by
  refine Sources.exact (by decide) ⟨by decide +kernel, by decide +kernel, by decide +kernel⟩ fun name => ?_
  cases name <;> decide +kernel

instance (env : Runtime) (table : List SessionRecord) (q : SessionListPageQuery) (plan : List Partition)
    (states : List PartitionState) : Decidable (ReopensShort env table q plan states) :=
  inferInstanceAs (Decidable (_ → _))

theorem pages_finish_inStep :
    ∃ n, n ≤ 11 ∧ (pages codePointRuntime (fun _ => exactIndex codePointRuntime inStep) (fun _ => true) 1 oldestOfSource
      n).standing = .finished := by
  have hbound : max 1 (pageBound codePointRuntime inStep
      (planForRequest codePointRuntime true (firstQuery oldestOfSource 1))) = 11 := by decide +kernel
  rw [← hbound]
  refine pages_finish (fun _ => inStep_sources) (fun _ => exactIndex_productive) (fun _ => true) fun n c hn => ?_
  exact of_decide_eq_true (walk_holds (n := 2) (fun c => decide (ReopensShort codePointRuntime inStep
    (cursorQuery oldestOfSource 1 c) (planForRequest codePointRuntime true (firstQuery oldestOfSource 1)) c.partitions))
    (by decide +kernel) (by decide +kernel) hn)

/-- The second page of two sessions of the source: its first windows hold none of them, and one is refilled. -/
theorem pageWindows_settled_refilled :
    let request : ListSessionsPageQuery := { limit := 2, sort := .oldest, query := { source := some "api" } }
    let plan := planForRequest codePointRuntime true (firstQuery request 1)
    let index := exactIndex codePointRuntime outOfStep
    let first := pageWindows codePointRuntime index (firstQuery request 1) plan (plan.map fun p => { id := p.id })
    let states := pageStates codePointRuntime (firstQuery request 1) first
    let q := (firstQuery request 1).advance (pageItems codePointRuntime (firstQuery request 1) first) states
    let opened := openWindows codePointRuntime index q plan states
    let windows := pageWindows codePointRuntime index q plan states
    ((selectPage codePointRuntime q opened).length < q.limit ∧ refillableWindows codePointRuntime q opened ≠ []) ∧
    (q.limit ≤ (selectPage codePointRuntime q windows).length ∨ refillableWindows codePointRuntime q windows = []) := by
  intro request plan index first states q opened windows
  have hplan : Mergeable codePointRuntime request.sort plan := plan_mergeable _ true (firstQuery request 1)
  have hstart : CursorInv codePointRuntime outOfStep (firstQuery request 1) plan (plan.map fun p => { id := p.id }) :=
    CursorInv.start hplan fun _ h => by cases h
  have hinv := hstart.next outOfStep_sources hplan
  have hopened : (selectPage codePointRuntime q opened).length < q.limit ∧
      (refillableWindows codePointRuntime q opened).length = 1 := by decide +kernel
  refine ⟨⟨hopened.1, ne_nil_of_length_eq_add_one hopened.2⟩, ?_⟩
  exact pageWindows_settled outOfStep_sources hinv.position hplan hinv.states

end AutoHarness.Listing

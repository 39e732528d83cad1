import Mathlib.Algebra.Order.Ring.Int
import Mathlib.Data.List.Dedup
import Mathlib.Data.List.Perm.Subperm
import AutoHarness.Foundation.OrderedMap
import AutoHarness.Store.RateLimits

/-! The rate limit of one process, with a bound on the keys it remembers: the oldest entries are evicted. -/

namespace AutoHarness.RateLimits
open Foundation

structure MemoryEntry where
  windowStartMs : ℤ
  count : ℕ
  touchedAtMs : ℤ

abbrev Entries := OrderedMap String MemoryEntry

section Eviction

variable {maxEntries : ℕ} {es : List (String × MemoryEntry)} {e : String × MemoryEntry}

/-- The loop of `evictIfNeeded`: the first keys go until the bound is met. -/
def deleteOldest (maxEntries : ℕ) : List (String × MemoryEntry) → List (String × MemoryEntry)
  | [] => []
  | e :: rest => if maxEntries < (e :: rest).length then deleteOldest maxEntries rest else e :: rest

theorem deleteOldest_sublist : (deleteOldest maxEntries es).Sublist es := by
  induction es with
  | nil => exact .slnil
  | cons e rest ih =>
    rw [deleteOldest]
    split
    · exact ih.cons e
    · exact .refl _

theorem length_deleteOldest_le : (deleteOldest maxEntries es).length ≤ maxEntries := by
  induction es with
  | nil => exact Nat.zero_le _
  | cons e rest ih =>
    rw [deleteOldest]
    split
    · exact ih
    · omega

/-- No entry of the latest window is evicted while these are not too many: they stand at the end. -/
theorem mem_deleteOldest {start : ℤ} (hsorted : es.Pairwise fun a b => a.2.windowStartMs ≤ b.2.windowStartMs)
    (hlast : ∀ e ∈ es, e.2.windowStartMs ≤ start)
    (hfew : (es.filter fun e => e.2.windowStartMs = start).length ≤ maxEntries) (he : e ∈ es)
    (hstart : e.2.windowStartMs = start) : e ∈ deleteOldest maxEntries es := by
  induction es with
  | nil => exact he
  | cons a rest ih =>
    obtain ⟨hfirst, hsorted⟩ := List.pairwise_cons.mp hsorted
    rw [deleteOldest]
    split
    · next hlong =>
      have hold : a.2.windowStartMs ≠ start := by
        intro ha
        have hall : (a :: rest).filter (fun e => e.2.windowStartMs = start) = a :: rest := by
          refine List.filter_eq_self.mpr fun b hb => decide_eq_true ?_
          obtain rfl | hb' := List.mem_cons.mp hb
          · exact ha
          · exact le_antisymm (hlast b hb) (ha ▸ hfirst b hb')
        rw [hall] at hfew
        omega
      refine ih hsorted (fun b hb => hlast b (List.mem_cons_of_mem a hb)) ?_ ?_
      · rwa [List.filter_cons_of_neg (by simpa using hold)] at hfew
      · exact (List.mem_cons.mp he).resolve_left fun h => hold (h ▸ hstart)
    · exact he

end Eviction

def evictIfNeeded (maxEntries : ℕ) (entries : Entries) : Entries where
  entries := deleteOldest maxEntries entries.entries
  nodup := (deleteOldest_sublist.map Prod.fst).nodup entries.nodup

/-- The entry of a key is changed in place, when it is still in the map. -/
def changed (entries : Entries) (key : String) (entry : MemoryEntry) : Entries :=
  if entries.contains key then entries.set key entry else entries

/-- An entry of an older window is deleted and set anew, so that it stands last. -/
def consume (maxEntries : ℕ) (entries : Entries) (key : String) (limit : ℕ) (windowSeconds : ℕ+) (nowMs : ℤ) :
    Entries × RateLimitDecision :=
  let start := windowStartMs nowMs windowSeconds
  let resetAtMs := start + windowSeconds * 1000
  let existing := (entries.get? key).filter (·.windowStartMs = start)
  let entry := existing.getD ⟨start, 0, nowMs⟩
  let entries := if existing.isNone then evictIfNeeded maxEntries ((entries.erase key).set key entry) else entries
  let entry := { entry with touchedAtMs := nowMs }
  if limit ≤ entry.count then (changed entries key entry, ⟨false, limit, 0, resetAtMs⟩)
  else
    let entry := { entry with count := entry.count + 1 }
    (changed entries key entry, ⟨true, limit, limit - entry.count, resetAtMs⟩)

section Calls

variable (maxEntries : ℕ) (limit : String → ℕ) (windowSeconds : ℕ+)

/-- The key and the window of a call. -/
def windowOf (c : String × ℤ) : String × ℤ := (c.1, windowStartMs c.2 windowSeconds)

/-- The map after the calls, the latest first, and the windows of those that were allowed. -/
def consumeAll : List (String × ℤ) → Entries × List (String × ℤ)
  | [] => (.empty, [])
  | c :: earlier =>
    let s := consumeAll earlier
    let next := consume maxEntries s.1 c.1 (limit c.1) windowSeconds c.2
    (next.1, if next.2.allowed then windowOf windowSeconds c :: s.2 else s.2)

end Calls

/-- The map after the calls whose keys and windows are `ws`, the latest first: it is in the order of the windows, has an
entry for every call of the last one, and its entries count. -/
structure Holds (limit : String → ℕ) (ws : List (String × ℤ)) (es : Entries) : Prop where
  sorted : es.entries.Pairwise fun a b => a.2.windowStartMs ≤ b.2.windowStartMs
  known : ∀ e ∈ es.entries, (e.1, e.2.windowStartMs) ∈ ws
  live : ∀ w ∈ ws, (∀ w' ∈ ws, w'.2 ≤ w.2) → ∃ e ∈ es.entries, (e.1, e.2.windowStartMs) = w
  counted : ∀ e ∈ es.entries, e.2.count = min (limit e.1) (ws.count (e.1, e.2.windowStartMs))

variable {limit : String → ℕ} {ws : List (String × ℤ)} {es es' : Entries} {key : String} {start : ℤ}
  {entry entry' : MemoryEntry}

/-- What a call leaves before it changes its own entry: that entry, and of the others those of the window. -/
structure Admits (es : Entries) (key : String) (start : ℤ) (entry : MemoryEntry) (es' : Entries) : Prop where
  sorted : es'.entries.Pairwise fun a b => a.2.windowStartMs ≤ b.2.windowStartMs
  own : (key, entry) ∈ es'.entries
  from_old : ∀ e ∈ es'.entries, e = (key, entry) ∨ (e ∈ es.entries ∧ e.1 ≠ key)
  keeps : ∀ e ∈ es.entries, e.2.windowStartMs = start → e.1 ≠ key → e ∈ es'.entries

theorem Admits.changed (ha : Admits es key start entry es') : changed es' key entry' = es'.set key entry' :=
  if_pos (List.any_eq_true.mpr ⟨_, ha.own, beq_self_eq_true key⟩)

theorem Holds.put (h : Holds limit ws es) (ha : Admits es key start entry es') (hlate : ∀ w ∈ ws, w.2 ≤ start)
    (hentry : entry.windowStartMs = start) (hentry' : entry'.windowStartMs = start)
    (hcount : entry'.count = min (limit key) (ws.count (key, start) + 1)) :
    Holds limit ((key, start) :: ws) (changed es' key entry') := by
  rw [ha.changed]
  have hold : ∀ e ∈ es'.entries, e.1 ≠ key → e ∈ es.entries := by
    intro e he hk
    obtain rfl | hmem := ha.from_old e he
    · exact absurd rfl hk
    · exact hmem.1
  constructor
  · rw [OrderedMap.entries_set ha.own rfl]
    refine List.pairwise_map.mpr (ha.sorted.imp_of_mem fun {a b} ha' hb hab => ?_)
    have hws : ∀ e ∈ es'.entries, (if e.1 = key then (key, entry') else e).2.windowStartMs = e.2.windowStartMs := by
      intro e he
      have := ha.from_old e he
      grind
    rwa [hws a ha', hws b hb]
  · intro e he
    obtain rfl | ⟨he, hk⟩ := OrderedMap.mem_set he
    · exact hentry' ▸ List.mem_cons_self
    · exact List.mem_cons_of_mem _ (h.known e (hold e he hk))
  · intro w hw hmax
    by_cases hown : w = (key, start)
    · exact ⟨(key, entry'), OrderedMap.mem_set_self _ _ _, by rw [hown, hentry']⟩
    · have hw' : w ∈ ws := (List.mem_cons.mp hw).resolve_left hown
      have hstart : w.2 = start := le_antisymm (hlate w hw') (hmax (key, start) List.mem_cons_self)
      obtain ⟨e, he, rfl⟩ := h.live w hw' fun w' hw' => (hlate w' hw').trans_eq hstart.symm
      have hne : e.1 ≠ key := fun hk => hown (Prod.ext hk hstart)
      exact ⟨e, OrderedMap.mem_set_of_ne (ha.keeps e he hstart hne) hne, rfl⟩
  · intro e he
    obtain rfl | ⟨he, hk⟩ := OrderedMap.mem_set he
    · simpa [hentry'] using hcount
    · rw [List.count_cons_of_ne (by simp [Ne.symm hk])]
      exact h.counted e (hold e he hk)

theorem length_le_dedup {l l' : List String} (hl : l.Nodup) (h : l ⊆ l') : l.length ≤ l'.dedup.length :=
  (hl.subperm fun _ ha => List.mem_dedup.mpr (h ha)).length_le

/-- The keys used in one window. -/
def keysIn (start : ℤ) (ws : List (String × ℤ)) : List String := ((ws.filter fun w => w.2 = start).map Prod.fst).dedup

theorem Holds.admits_new {maxEntries : ℕ} (h : Holds limit ws es) (hlate : ∀ w ∈ ws, w.2 ≤ start)
    (hfew : (keysIn start ((key, start) :: ws)).length ≤ maxEntries) (hentry : entry.windowStartMs = start) :
    Admits es key start entry (evictIfNeeded maxEntries ((es.erase key).set key entry)) := by
  set added := (es.erase key).set key entry with hadded
  have hmem : ∀ e, e ∈ added.entries ↔ e = (key, entry) ∨ (e ∈ es.entries ∧ e.1 ≠ key) := by
    intro e
    rw [hadded, OrderedMap.mem_set_iff, OrderedMap.mem_erase, and_assoc, and_self]
  have hknown : ∀ e ∈ added.entries, (e.1, e.2.windowStartMs) ∈ (key, start) :: ws := by
    intro e he
    obtain rfl | ⟨he, -⟩ := (hmem e).mp he
    · exact hentry ▸ List.mem_cons_self
    · exact List.mem_cons_of_mem _ (h.known e he)
  have hlast : ∀ e ∈ added.entries, e.2.windowStartMs ≤ start := by
    intro e he
    obtain hown | hold := List.mem_cons.mp (hknown e he)
    · exact (congrArg Prod.snd hown).le
    · exact hlate _ hold
  have hsorted : added.entries.Pairwise fun a b => a.2.windowStartMs ≤ b.2.windowStartMs := by
    have hentries : added.entries = _ := OrderedMap.entries_set_erase es key entry
    rw [hentries]
    refine List.pairwise_append.mpr ⟨h.sorted.filter _, List.pairwise_singleton _ _, fun a ha b hb => ?_⟩
    rw [List.mem_singleton.mp hb, hentry]
    exact hlast a (hentries ▸ List.mem_append_left _ ha)
  have hcurrent : ∀ e ∈ added.entries, e.2.windowStartMs = start → e ∈ (evictIfNeeded maxEntries added).entries := by
    refine fun e he => mem_deleteOldest hsorted hlast ?_ he
    rw [← List.length_map Prod.fst]
    refine (length_le_dedup ((List.filter_sublist.map Prod.fst).nodup added.nodup) fun k hk => ?_).trans hfew
    obtain ⟨e, he, rfl⟩ := List.mem_map.mp hk
    obtain ⟨he, hstart⟩ := List.mem_filter.mp he
    exact List.mem_map.mpr ⟨_, List.mem_filter.mpr ⟨hknown e he, hstart⟩, rfl⟩
  exact {
    sorted := hsorted.sublist deleteOldest_sublist
    own := hcurrent _ ((hmem _).mpr (.inl rfl)) hentry
    from_old e he := (hmem e).mp (deleteOldest_sublist.subset he)
    keeps e he hstart hne := hcurrent e ((hmem e).mpr (.inr ⟨he, hne⟩)) hstart }

/-- One call: the map keeps counting, and the call is allowed while its key has calls left in its window. -/
theorem Holds.consume {maxEntries : ℕ} {windowSeconds : ℕ+} {nowMs : ℤ} (h : Holds limit ws es)
    (hstart : start = windowStartMs nowMs windowSeconds) (hlate : ∀ w ∈ ws, w.2 ≤ start)
    (hfew : (keysIn start ((key, start) :: ws)).length ≤ maxEntries) :
    Holds limit ((key, start) :: ws) (consume maxEntries es key (limit key) windowSeconds nowMs).1 ∧
    ((consume maxEntries es key (limit key) windowSeconds nowMs).2.allowed = true ↔
      ws.count (key, start) < limit key) := by
  unfold RateLimits.consume
  rw [← hstart]
  dsimp only
  cases hex : (es.get? key).filter (fun e => e.windowStartMs = start) with
  | some entry =>
    obtain ⟨hget, hentry⟩ := Option.filter_eq_some_iff.mp hex
    have hentry := of_decide_eq_true hentry
    have hmem := OrderedMap.get?_eq_some.mp hget
    have hcount := h.counted _ hmem
    have hadmits : Admits es key start entry es := ⟨h.sorted, hmem, fun e he => ?_, fun e he _ _ => he⟩
    · simp only [Option.isNone_some, Bool.false_eq_true, if_false, Option.getD_some]
      rw [hentry] at hcount
      split
      · exact ⟨h.put hadmits hlate hentry hentry (by grind), by grind⟩
      · exact ⟨h.put hadmits hlate hentry hentry (by grind), by grind⟩
    · by_cases hk : e.1 = key
      · exact .inl (List.inj_on_of_nodup_map es.nodup he hmem hk)
      · exact .inr ⟨he, hk⟩
  | none =>
    -- a key without an entry of the window has made no call in it: such entries are not evicted
    have hzero : ws.count (key, start) = 0 := by
      refine List.count_eq_zero.mpr fun hw => ?_
      obtain ⟨e, he, hew⟩ := h.live _ hw hlate
      obtain ⟨rfl, hes⟩ := Prod.mk.inj hew
      rw [OrderedMap.get?_eq_some.mpr he, Option.filter_some, if_pos (decide_eq_true hes)] at hex
      cases hex
    simp only [Option.isNone_none, if_true, Option.getD_none]
    have hadmits : Admits es key start ⟨start, 0, nowMs⟩ _ := h.admits_new hlate hfew rfl
    split
    · exact ⟨h.put hadmits hlate rfl rfl (by grind), by grind⟩
    · exact ⟨h.put hadmits hlate rfl rfl (by grind), by grind⟩

theorem length_changed : (changed es key entry).entries.length = es.entries.length := by
  unfold changed OrderedMap.set
  split
  · exact List.length_map _
  · rfl

theorem length_consume_le {maxEntries n : ℕ} {windowSeconds : ℕ+} {nowMs : ℤ} (h : es.entries.length ≤ maxEntries) :
    (consume maxEntries es key n windowSeconds nowMs).1.entries.length ≤ maxEntries := by
  unfold RateLimits.consume
  dsimp only
  split_ifs <;> rw [length_changed] <;> first | exact length_deleteOldest_le | exact h

theorem windowStartMs_mono {a b : ℤ} (windowSeconds : ℕ+) (h : a ≤ b) :
    windowStartMs a windowSeconds ≤ windowStartMs b windowSeconds := by
  have hsize : (0 : ℤ) < windowSeconds * 1000 := by
    have := windowSeconds.pos
    omega
  exact mul_le_mul_of_nonneg_right (Int.ediv_le_ediv hsize h) hsize.le

/-- The map and the grants after a sequence of calls. -/
theorem consumeAll_spec (maxEntries : ℕ) (limit : String → ℕ) (windowSeconds : ℕ+) {calls : List (String × ℤ)}
    (hsorted : calls.Pairwise fun later earlier => earlier.2 ≤ later.2)
    (hkeys : ∀ start, (keysIn start (calls.map (windowOf windowSeconds))).length ≤ maxEntries) :
    Holds limit (calls.map (windowOf windowSeconds)) (consumeAll maxEntries limit windowSeconds calls).1 ∧
    (consumeAll maxEntries limit windowSeconds calls).1.entries.length ≤ maxEntries ∧
    ∀ w : String × ℤ, (consumeAll maxEntries limit windowSeconds calls).2.count w =
      min (limit w.1) ((calls.map (windowOf windowSeconds)).count w) := by
  induction calls with
  | nil => exact ⟨⟨.nil, nofun, nofun, nofun⟩, Nat.zero_le _, fun w => (Nat.min_zero _).symm⟩
  | cons c earlier ih =>
    obtain ⟨hlater, hsorted⟩ := List.pairwise_cons.mp hsorted
    obtain ⟨hholds, hlength, hcount⟩ := ih hsorted fun start => by
      refine (length_le_dedup (List.nodup_dedup _) fun k hk => ?_).trans (hkeys start)
      obtain ⟨w, hw, rfl⟩ := List.mem_map.mp (List.mem_dedup.mp hk)
      exact List.mem_map_of_mem (((List.sublist_cons_self _ _).filter _).subset hw)
    have hlate : ∀ w ∈ earlier.map (windowOf windowSeconds), w.2 ≤ windowStartMs c.2 windowSeconds := by
      intro w hw
      obtain ⟨d, hd, rfl⟩ := List.mem_map.mp hw
      exact windowStartMs_mono windowSeconds (hlater d hd)
    obtain ⟨hnext, hallowed⟩ := hholds.consume rfl hlate (hkeys _)
    refine ⟨hnext, length_consume_le hlength, fun w => ?_⟩
    have := hcount w
    simp only [consumeAll, List.map_cons, List.count_cons]
    grind [windowOf]

/-- **The limiter of one process.** While the times do not decrease and no window sees more than `maxEntries` keys, a key
is allowed as many calls in a window as its limit and its calls permit, and the map stays within its bound. -/
theorem memoryLimit_exact (maxEntries : ℕ) (limit : String → ℕ) (windowSeconds : ℕ+) {calls : List (String × ℤ)}
    (hsorted : calls.Pairwise fun later earlier => earlier.2 ≤ later.2)
    (hkeys : ∀ start, (keysIn start (calls.map (windowOf windowSeconds))).length ≤ maxEntries) :
    (∀ key start, (consumeAll maxEntries limit windowSeconds calls).2.count (key, start) =
      min (limit key) ((calls.map (windowOf windowSeconds)).count (key, start))) ∧
    (consumeAll maxEntries limit windowSeconds calls).1.entries.length ≤ maxEntries := by
  obtain ⟨-, hlength, hcount⟩ := consumeAll_spec maxEntries limit windowSeconds hsorted hkeys
  exact ⟨fun key start => hcount (key, start), hlength⟩

/-- One key fits the map: `b` is evicted for `a`, which is allowed one of its two calls. -/
theorem memoryLimit_exact_evicted :
    let calls := [("a", 61000), ("a", 60000), ("b", 1000)]
    (consumeAll 1 (fun _ => 1) 60 calls).2.count ("a", 60000) = 1 ∧
      (consumeAll 1 (fun _ => 1) 60 calls).1.entries.length ≤ 1 := by
  intro calls
  have hwindows : calls.map (windowOf 60) = [("a", 60000), ("a", 60000), ("b", 0)] := by decide
  obtain ⟨hcount, hlength⟩ := memoryLimit_exact 1 (fun _ => 1) 60 (show calls.Pairwise _ by decide) fun start => by
      rw [hwindows]
      by_cases ha : (60000 : ℤ) = start
      · subst ha
        decide
      · by_cases hb : (0 : ℤ) = start
        · subst hb
          decide
        · simp [keysIn, ha, hb]
  refine ⟨?_, hlength⟩
  rw [hcount, hwindows]
  rfl

end AutoHarness.RateLimits

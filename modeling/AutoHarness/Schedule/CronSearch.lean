import AutoHarness.Schedule.Cron

/-! The search for the next occurrence returns the least matching minute, and gives up only when none matches. -/

namespace AutoHarness.Schedule
open Foundation List Option

/-- A matching minute, by the parsed value sets and `matchesDay`. -/
structure Matches (cron : ParsedCron) (t : CivilMinute) : Prop where
  minute : t.minute ∈ cron.minute.values
  hour : t.hour ∈ cron.hour.values
  day : matchesDay cron t.day (weekday t.year t.month t.day) = true
  month : t.month ∈ cron.month.values

structure FieldWithin (field : CronField) (min max : ℕ) : Prop where
  nonempty : ∃ v, v ∈ field.values
  within : ∀ v ∈ field.values, min ≤ v ∧ v ≤ max

structure WellFormed (cron : ParsedCron) : Prop where
  minute : FieldWithin cron.minute 0 59
  hour : FieldWithin cron.hour 0 23
  dayOfMonth : FieldWithin cron.dayOfMonth 1 31
  month : FieldWithin cron.month 1 12
  dayOfWeek : FieldWithin cron.dayOfWeek 0 6

/-! ## What the parser accepts -/

variable {v : ℕ} {item : CronItem}

theorem CronItem.mem_values (hstep : 1 ≤ item.step) :
    v ∈ item.values ↔ item.start ≤ v ∧ v ≤ max item.start item.stop ∧ item.step ∣ v - item.start := by
  rw [values, mem_range']
  constructor
  · rintro ⟨i, hi, rfl⟩
    have hle : item.step * i ≤ item.stop - item.start :=
      Nat.le_trans (Nat.mul_le_mul_left _ (Nat.le_of_lt_succ hi)) (Nat.mul_div_le _ _)
    refine ⟨Nat.le_add_right _ _, by omega, ?_⟩
    rw [Nat.add_sub_cancel_left]
    exact Nat.dvd_mul_right _ _
  · rintro ⟨hlo, hhi, i, hi⟩
    refine ⟨i, Nat.lt_succ_of_le ?_, by omega⟩
    rw [Nat.le_div_iff_mul_le hstep, Nat.mul_comm, ← hi]
    omega

variable {min max : ℕ} {source : List Char}

theorem parseItem_spec (hrange : min ≤ max) (h : parseItem min max source = some item) :
    1 ≤ item.step ∧ min ≤ item.start ∧ item.start ≤ item.stop ∧ item.stop ≤ max := by
  unfold parseItem at h
  dsimp only at h
  split at h
  · cases h
  split at h
  · cases h
  split at h
  · cases h
  next step _ hstep =>
  split at h
  · cases h
    exact ⟨Nat.le_of_not_lt hstep, Nat.le_refl _, hrange, Nat.le_refl _⟩
  split at h
  · cases h
  split at h
  · split at h
    · cases h
    next hbounds =>
    split at h
    · cases h
    · cases h
      simp only [Bool.or_eq_true, decide_eq_true_eq, not_or, Nat.not_lt] at hbounds
      exact ⟨Nat.le_of_not_lt hstep, hbounds.1.1, hbounds.2, hbounds.1.2⟩
  · cases h

theorem mapM_parse {α β : Type} {f : α → Option β} {l : List α} {l' : List β} (h : l.mapM f = some l') :
    l.length = l'.length ∧ ∀ b ∈ l', ∃ a ∈ l, f a = some b := by
  induction l generalizing l' with
  | nil =>
    cases h
    exact ⟨rfl, fun b hb => absurd hb not_mem_nil⟩
  | cons a l ih =>
    rw [mapM_cons] at h
    obtain ⟨b, hb, h⟩ := bind_eq_some_iff.mp h
    obtain ⟨rest, hrest, h⟩ := bind_eq_some_iff.mp h
    cases h
    obtain ⟨hlen, hmem⟩ := ih hrest
    refine ⟨by rw [length_cons, length_cons, hlen], fun b' hb' => ?_⟩
    rcases mem_cons.mp hb' with rfl | hb'
    · exact ⟨a, mem_cons_self, hb⟩
    · obtain ⟨a', ha', hf⟩ := hmem b' hb'
      exact ⟨a', mem_cons_of_mem a ha', hf⟩

variable {items : List CronItem}

theorem parseFieldItems_spec (hrange : min ≤ max) (h : parseFieldItems source min max = some items) :
    items ≠ [] ∧ ∀ item ∈ items, 1 ≤ item.step ∧ min ≤ item.start ∧ item.start ≤ item.stop ∧ item.stop ≤ max := by
  obtain ⟨hlen, hmem⟩ := mapM_parse h
  refine ⟨fun he => ?_, fun item hi => ?_⟩
  · rw [he, length_nil, length_eq_zero_iff] at hlen
    exact absurd hlen (splitOn_ne_nil ',' source)
  · obtain ⟨part, _, hpart⟩ := hmem item hi
    exact parseItem_spec hrange hpart

theorem mem_ofItems : v ∈ (CronField.ofItems items).values ↔ ∃ item ∈ items, v ∈ item.values :=
  mem_flatMap

theorem fieldWithin_ofItems (hrange : min ≤ max)
    (h : parseFieldItems source min max = some items) : FieldWithin (.ofItems items) min max := by
  obtain ⟨hne, hall⟩ := parseFieldItems_spec hrange h
  constructor
  · obtain ⟨item, hitem⟩ := exists_mem_of_ne_nil items hne
    obtain ⟨hstep, _, hle, _⟩ := hall item hitem
    refine ⟨item.start, mem_ofItems.mpr ⟨item, hitem, (CronItem.mem_values hstep).mpr ⟨Nat.le_refl _, by omega, ?_⟩⟩⟩
    rw [Nat.sub_self]
    exact Nat.dvd_zero _
  · intro v hv
    obtain ⟨item, hitem, hv⟩ := mem_ofItems.mp hv
    obtain ⟨hstep, hlo, hle, hhi⟩ := hall item hitem
    obtain ⟨h1, h2, _⟩ := (CronItem.mem_values hstep).mp hv
    omega

variable {expression : String}

theorem parseCronItems_spec {items : CronItems} (h : parseCronItems expression = some items) :
    (∃ source, parseFieldItems source 0 59 = some items.minute) ∧
    (∃ source, parseFieldItems source 0 23 = some items.hour) ∧
    (∃ source, parseFieldItems source 1 31 = some items.dayOfMonth) ∧
    (∃ source, parseFieldItems source 1 12 = some items.month) ∧
    (∃ source, parseFieldItems source 0 6 = some items.dayOfWeek) := by
  unfold parseCronItems at h
  split at h
  · split at h
    · cases h
    · obtain ⟨minute, hminute, h⟩ := bind_eq_some_iff.mp h
      obtain ⟨hour, hhour, h⟩ := bind_eq_some_iff.mp h
      obtain ⟨dayOfMonth, hdayOfMonth, h⟩ := bind_eq_some_iff.mp h
      obtain ⟨month, hmonth, h⟩ := bind_eq_some_iff.mp h
      obtain ⟨dayOfWeek, hdayOfWeek, h⟩ := bind_eq_some_iff.mp h
      cases h
      exact ⟨⟨_, hminute⟩, ⟨_, hhour⟩, ⟨_, hdayOfMonth⟩, ⟨_, hmonth⟩, ⟨_, hdayOfWeek⟩⟩
  · cases h

theorem wellFormed_ofItems {items : CronItems} (h : parseCronItems expression = some items) :
    WellFormed (.ofItems items) := by
  obtain ⟨⟨_, hminute⟩, ⟨_, hhour⟩, ⟨_, hdayOfMonth⟩, ⟨_, hmonth⟩, ⟨_, hdayOfWeek⟩⟩ := parseCronItems_spec h
  exact ⟨fieldWithin_ofItems (by decide) hminute, fieldWithin_ofItems (by decide) hhour,
    fieldWithin_ofItems (by decide) hdayOfMonth, fieldWithin_ofItems (by decide) hmonth,
    fieldWithin_ofItems (by decide) hdayOfWeek⟩

variable {cron : ParsedCron}

theorem wellFormed_of_parseCron (h : parseCron expression = some cron) : WellFormed cron := by
  obtain ⟨items, hitems, rfl⟩ := map_eq_some_iff.mp h
  exact wellFormed_ofItems hitems

/-! ## The next value of a field -/

variable {values : List ℕ}

theorem nextValue_some {w : ℕ} (h : nextValue values v = some w) :
    w ∈ values ∧ v ≤ w ∧ ∀ x ∈ values, v ≤ x → w ≤ x := by
  obtain ⟨hw, hmem, hmin⟩ := find?_range'_eq_some.mp h
  obtain ⟨i, _, hi⟩ := mem_range'.mp hmem
  refine ⟨contains_iff_mem.mp hw, by omega, fun x hx hvx => ?_⟩
  by_contra hlt
  have := hmin x hvx (by omega)
  rw [contains_iff_mem.mpr hx] at this
  cases this

theorem nextValue_none (hmax : ∀ x ∈ values, x ≤ 59) (h : nextValue values v = none) : ∀ x ∈ values, x < v := by
  intro x hx
  by_contra hlt
  have hx59 := hmax x hx
  have := find?_range'_eq_none.mp h x (by omega) (by omega)
  rw [contains_iff_mem.mpr hx] at this
  cases this

theorem firstValue_spec (h : ∃ v, v ∈ values) : firstValue values ∈ values ∧ ∀ x ∈ values, firstValue values ≤ x := by
  unfold firstValue
  cases hm : values.min? with
  | none =>
    obtain ⟨v, hv⟩ := h
    rw [min?_eq_none_iff] at hm
    rw [hm] at hv
    exact absurd hv not_mem_nil
  | some m =>
    obtain ⟨hmem, hle⟩ := min?_eq_some_iff.mp hm
    exact ⟨hmem, hle⟩

/-! ## Moves of the candidate -/

variable {s t : CivilMinute}

theorem key_lt_iff_lex (hs : s.Valid) (ht : t.Valid) :
    s.key < t.key ↔ s.year < t.year ∨ s.year = t.year ∧ (s.month < t.month ∨ s.month = t.month ∧
      (s.day < t.day ∨ s.day = t.day ∧ (s.hour < t.hour ∨ s.hour = t.hour ∧ s.minute < t.minute))) := by
  rw [CivilMinute.key_lt_iff_fields hs ht, CivilMinute.dateKey_lt_iff hs ht, CivilMinute.dateKey_eq_iff hs ht]
  omega

variable {month year day : ℕ}

theorem valid_monthBegin (h1 : 1 ≤ month) (h2 : month ≤ 12) : CivilMinute.Valid ⟨year, month, 1, 0, 0⟩ := by
  have hlen : 1 ≤ monthLength year month := Nat.le_trans (by decide) (le_monthLength year month)
  exact ⟨h1, h2, Nat.le_refl 1, hlen, Nat.succ_pos _, Nat.succ_pos _⟩

theorem valid_resetToMonth (year : ℕ) (h1 : 1 ≤ month) (h2 : month ≤ 13) : (resetToMonth year month).Valid := by
  unfold resetToMonth
  split
  · exact valid_monthBegin h1 (by assumption)
  · exact valid_monthBegin (by omega) (by omega)

theorem valid_midnightOf (year : ℕ) (h1 : 1 ≤ month) (h2 : month ≤ 12) (h3 : 1 ≤ day) :
    (midnightOf year month day).Valid := by
  unfold midnightOf
  split
  · exact ⟨h1, h2, h3, by assumption, Nat.succ_pos _, Nat.succ_pos _⟩
  · exact valid_resetToMonth year (by omega) (by omega)

theorem valid_setUTCHours (h : t.Valid) (hour : ℕ) : (setUTCHours t hour).Valid := by
  unfold setUTCHours
  split
  · exact ⟨h.month_pos, h.month_le, h.day_pos, h.day_le, by assumption, Nat.succ_pos _⟩
  · exact valid_midnightOf t.year h.month_pos h.month_le (by omega)

theorem valid_addMinute (h : t.Valid) : (addMinute t).Valid := by
  unfold addMinute
  split
  · exact ⟨h.month_pos, h.month_le, h.day_pos, h.day_le, h.hour_lt, by assumption⟩
  · exact valid_setUTCHours h _

section

variable (hs : s.Valid) (ht : t.Valid)
include hs ht

theorem resetToMonth_le : (resetToMonth s.year (s.month + 1)).key ≤ t.key ↔
      s.year < t.year ∨ s.year = t.year ∧ s.month < t.month := by
  have hs2 := hs.month_le
  have ht1 := ht.month_pos
  have ht2 := ht.month_le
  have ht3 := ht.day_pos
  rw [← Nat.not_lt, key_lt_iff_lex ht (valid_resetToMonth s.year (by omega) (by omega))]
  unfold resetToMonth
  split <;> dsimp only <;> omega

theorem midnightOf_le : (midnightOf s.year s.month (s.day + 1)).key ≤ t.key ↔
      s.year < t.year ∨ s.year = t.year ∧ (s.month < t.month ∨ s.month = t.month ∧ s.day < t.day) := by
  by_cases hlast : s.day + 1 ≤ monthLength s.year s.month
  · rw [← Nat.not_lt, key_lt_iff_lex ht (valid_midnightOf s.year hs.month_pos hs.month_le (by omega)), midnightOf,
      if_pos hlast]
    dsimp only
    omega
  · rw [midnightOf, if_neg hlast, resetToMonth_le hs ht]
    have hday := ht.day_le
    constructor
    · omega
    · rintro (h | ⟨hy, h | ⟨hm, hd⟩⟩)
      · exact .inl h
      · exact .inr ⟨hy, h⟩
      · rw [← hy, ← hm] at hday
        omega

theorem setUTCHours_le : (setUTCHours s (s.hour + 1)).key ≤ t.key ↔
      s.year < t.year ∨ s.year = t.year ∧ (s.month < t.month ∨ s.month = t.month ∧
        (s.day < t.day ∨ s.day = t.day ∧ s.hour < t.hour)) := by
  have hh := ht.hour_lt
  by_cases hlast : s.hour + 1 < 24
  · rw [← Nat.not_lt, key_lt_iff_lex ht (valid_setUTCHours hs _), setUTCHours, if_pos hlast]
    dsimp only
    omega
  · rw [setUTCHours, if_neg hlast, midnightOf_le hs ht]
    omega

theorem addMinute_le : (addMinute s).key ≤ t.key ↔ s.key < t.key := by
  have hm := ht.minute_lt
  rw [key_lt_iff_lex hs ht]
  by_cases hlast : s.minute + 1 < 60
  · rw [← Nat.not_lt, key_lt_iff_lex ht (valid_addMinute hs), addMinute, if_pos hlast]
    dsimp only
    omega
  · rw [addMinute, if_neg hlast, setUTCHours_le hs ht]
    omega

end

/-! ## One round -/

/-- Going from `s` to `s'` passes over no matching minute. -/
structure Skips (cron : ParsedCron) (s s' : CivilMinute) : Prop where
  valid : s'.Valid
  le : s.key ≤ s'.key
  least : ∀ t, t.Valid → Matches cron t → s.key ≤ t.key → s'.key ≤ t.key

variable {s' s'' : CivilMinute} {finalYear y z m d : ℕ}

theorem Skips.trans (h : Skips cron s s') (h' : Skips cron s' s'') : Skips cron s s'' :=
  ⟨h'.valid, Nat.le_trans h.le h'.le, fun t ht hm hle => h'.least t ht hm (h.least t ht hm hle)⟩

/-- A round either moves on behind minutes that do not match, or returns the least matching minute. -/
def RoundExact (cron : ParsedCron) (s : CivilMinute) : Round → Prop
  | .again s' => Skips cron s s' ∧ s.key < s'.key
  | .found t => Skips cron s t ∧ Matches cron t

theorem RoundExact.of_skips {r : Round} (h : Skips cron s s') (hr : RoundExact cron s' r) : RoundExact cron s r := by
  cases r with
  | again s'' => exact ⟨h.trans hr.1, Nat.lt_of_le_of_lt h.le hr.2⟩
  | found t => exact ⟨h.trans hr.1, hr.2⟩

section Rounds

variable {cron : ParsedCron} (hcron : WellFormed cron) {s : CivilMinute} (hs : s.Valid)

include hcron hs

theorem minuteRound_exact (hhour : s.hour ∈ cron.hour.values)
    (hday : matchesDay cron s.day (weekday s.year s.month s.day) = true) (hmonth : s.month ∈ cron.month.values) :
    RoundExact cron s (minuteRound cron s) := by
  unfold minuteRound
  split
  · next hnone =>
    have hlt := nextValue_none (fun x hx => (hcron.minute.within x hx).2) hnone
    have hself : s.key < (setUTCHours s (s.hour + 1)).key := by
      by_contra hle
      have := (setUTCHours_le hs hs).mp (Nat.le_of_not_lt hle)
      omega
    refine ⟨⟨valid_setUTCHours hs _, Nat.le_of_lt hself, fun t ht hm hle => ?_⟩, hself⟩
    rw [setUTCHours_le hs ht]
    rw [← Nat.not_lt, key_lt_iff_lex ht hs] at hle
    have := hlt t.minute hm.minute
    omega
  · next minute hsome =>
    obtain ⟨hmem, hge, hleast⟩ := nextValue_some hsome
    have hv : CivilMinute.Valid { s with minute := minute } :=
      ⟨hs.month_pos, hs.month_le, hs.day_pos, hs.day_le, hs.hour_lt, Nat.lt_succ_of_le (hcron.minute.within _ hmem).2⟩
    refine ⟨⟨hv, ?_, fun t ht hm hle => ?_⟩, ⟨hmem, hhour, hday, hmonth⟩⟩
    · rw [← Nat.not_lt, key_lt_iff_lex hv hs]
      dsimp only
      omega
    · rw [← Nat.not_lt, key_lt_iff_lex ht hs] at hle
      rw [← Nat.not_lt, key_lt_iff_lex ht hv]
      dsimp only
      have := hleast t.minute hm.minute
      omega

theorem hourRound_exact (hday : matchesDay cron s.day (weekday s.year s.month s.day) = true)
    (hmonth : s.month ∈ cron.month.values) : RoundExact cron s (hourRound cron s) := by
  unfold hourRound
  split
  · next hnone =>
    have hlt := nextValue_none (fun x hx => by have := (hcron.hour.within x hx).2; omega) hnone
    have hself : s.key < (midnightOf s.year s.month (s.day + 1)).key := by
      by_contra hle
      have := (midnightOf_le hs hs).mp (Nat.le_of_not_lt hle)
      omega
    refine ⟨⟨valid_midnightOf s.year hs.month_pos hs.month_le (by omega), Nat.le_of_lt hself, fun t ht hm hle => ?_⟩,
      hself⟩
    rw [midnightOf_le hs ht]
    rw [← Nat.not_lt, key_lt_iff_lex ht hs] at hle
    have := hlt t.hour hm.hour
    omega
  · next hour hsome =>
    obtain ⟨hmem, hge, hleast⟩ := nextValue_some hsome
    split
    · next hne =>
      have hlt : hour < 24 := Nat.lt_succ_of_le (hcron.hour.within _ hmem).2
      have hv := valid_setUTCHours hs hour
      rw [setUTCHours, if_pos hlt] at hv ⊢
      refine .of_skips ⟨hv, ?_, fun t ht hm hle => ?_⟩ (minuteRound_exact hcron hv hmem hday hmonth)
      · rw [← Nat.not_lt, key_lt_iff_lex hv hs]
        dsimp only
        omega
      · rw [← Nat.not_lt, key_lt_iff_lex ht hs] at hle
        rw [← Nat.not_lt, key_lt_iff_lex ht hv]
        dsimp only
        have := hleast t.hour hm.hour
        omega
    · next heq => exact minuteRound_exact hcron hs (not_not.mp heq ▸ hmem) hday hmonth

theorem dayRound_exact (hmonth : s.month ∈ cron.month.values) : RoundExact cron s (dayRound cron s) := by
  unfold dayRound
  split
  · next hnone =>
    have hlt : ∀ d, s.day ≤ d → d ≤ monthLength s.year s.month →
        matchesDay cron d (weekday s.year s.month d) = false := by
      intro d h1 h2
      have := find?_range'_eq_none.mp hnone d h1 (by omega)
      rwa [Bool.not_eq_true'] at this
    have hself : s.key < (resetToMonth s.year (s.month + 1)).key := by
      by_contra hle
      have := (resetToMonth_le hs hs).mp (Nat.le_of_not_lt hle)
      omega
    have hm1 := hs.month_le
    refine ⟨⟨valid_resetToMonth s.year (by omega) (by omega), Nat.le_of_lt hself, fun t ht hm hle => ?_⟩, hself⟩
    rw [resetToMonth_le hs ht]
    rw [← Nat.not_lt, key_lt_iff_lex ht hs] at hle
    by_contra hnot
    have hy : t.year = s.year := by omega
    have hmo : t.month = s.month := by omega
    have hd := ht.day_le
    have hmatch := hm.day
    rw [hy, hmo] at hd hmatch
    rw [hlt t.day (by omega) hd] at hmatch
    cases hmatch
  · next day hsome =>
    obtain ⟨hmatch, hmem, hleast⟩ := find?_range'_eq_some.mp hsome
    obtain ⟨i, hi, hi'⟩ := mem_range'.mp hmem
    have hge : s.day ≤ day := by omega
    have hlen : day ≤ monthLength s.year s.month := by omega
    split
    · next hne =>
      have hv := valid_midnightOf s.year hs.month_pos hs.month_le (Nat.le_trans hs.day_pos hge)
      rw [midnightOf, if_pos hlen] at hv ⊢
      refine .of_skips ⟨hv, ?_, fun t ht hm hle => ?_⟩ (hourRound_exact hcron hv hmatch hmonth)
      · rw [← Nat.not_lt, key_lt_iff_lex hv hs]
        dsimp only
        omega
      · rw [← Nat.not_lt, key_lt_iff_lex ht hs] at hle
        rw [← Nat.not_lt, key_lt_iff_lex ht hv]
        dsimp only
        intro hlt
        have hy : t.year = s.year := by omega
        have hmo : t.month = s.month := by omega
        have hno := hleast t.day (by omega) (by omega)
        have hday := hm.day
        rw [hy, hmo] at hday
        rw [hday] at hno
        cases hno
    · next heq => exact hourRound_exact hcron hs (not_not.mp heq ▸ hmatch) hmonth

theorem monthRound_exact : RoundExact cron s (monthRound cron s) := by
  unfold monthRound
  split
  · next hnone =>
    have hlt := nextValue_none (fun x hx => by have := (hcron.month.within x hx).2; omega) hnone
    obtain ⟨hfirst, hleast⟩ := firstValue_spec hcron.month.nonempty
    obtain ⟨h1, h2⟩ := hcron.month.within _ hfirst
    have hv : (resetToMonth (s.year + 1) (firstValue cron.month.values)).Valid := valid_resetToMonth _ h1 (by omega)
    rw [resetToMonth, if_pos h2] at hv ⊢
    have hself : s.key < CivilMinute.key ⟨s.year + 1, firstValue cron.month.values, 1, 0, 0⟩ := by
      rw [key_lt_iff_lex hs hv]
      exact .inl (Nat.lt_succ_self _)
    refine ⟨⟨hv, Nat.le_of_lt hself, fun t ht hm hle => ?_⟩, hself⟩
    rw [← Nat.not_lt, key_lt_iff_lex ht hs] at hle
    rw [← Nat.not_lt, key_lt_iff_lex ht hv]
    dsimp only
    have hbefore := hlt t.month hm.month
    have hfirst := hleast t.month hm.month
    have hd := ht.day_pos
    omega
  · next month hsome =>
    obtain ⟨hmem, hge, hleast⟩ := nextValue_some hsome
    split
    · next hne =>
      obtain ⟨h1, h2⟩ := hcron.month.within _ hmem
      have hv : (resetToMonth s.year month).Valid := valid_resetToMonth _ h1 (by omega)
      rw [resetToMonth, if_pos h2] at hv ⊢
      refine .of_skips ⟨hv, ?_, fun t ht hm hle => ?_⟩ (dayRound_exact hcron hv hmem)
      · rw [← Nat.not_lt, key_lt_iff_lex hv hs]
        dsimp only
        omega
      · rw [← Nat.not_lt, key_lt_iff_lex ht hs] at hle
        rw [← Nat.not_lt, key_lt_iff_lex ht hv]
        dsimp only
        have := hleast t.month hm.month
        have hd := ht.day_pos
        omega
    · next heq => exact dayRound_exact hcron hs (not_not.mp heq ▸ hmem)

end Rounds

/-! ## The whole search -/

theorem year_le_of_key_le (hs : s.Valid) (ht : t.Valid) (h : s.key ≤ t.key) : s.year ≤ t.year := by
  rw [← Nat.not_lt, key_lt_iff_lex ht hs] at h
  omega

theorem lt_year_of_roundBound_le (hs : s.Valid) (h : roundBound finalYear ≤ s.key) : finalYear < s.year := by
  have h1 := hs.month_lt
  have h2 := hs.day_lt
  have h3 := hs.hour_lt
  have h4 := hs.minute_lt
  unfold roundBound CivilMinute.key at h
  omega

/-- A result of the search from `s`: the least matching minute, or none up to the final year. -/
def SearchExact (cron : ParsedCron) (finalYear : ℕ) (s : CivilMinute) : Option CivilMinute → Prop
  | some t => Skips cron s t ∧ Matches cron t
  | none => ∀ t, t.Valid → Matches cron t → s.key ≤ t.key → finalYear < t.year

theorem SearchExact.of_skips {r : Option CivilMinute}
    (h : Skips cron s s') (hr : SearchExact cron finalYear s' r) : SearchExact cron finalYear s r := by
  cases r with
  | some t => exact ⟨h.trans hr.1, hr.2⟩
  | none => exact fun t ht hm hle => hr t ht hm (h.least t ht hm hle)

/-- The key of the candidate grows in every round, so the rounds do not run out. -/
theorem search_exact (hcron : WellFormed cron) (finalYear rounds : ℕ)
    (hs : s.Valid) (hrounds : roundBound finalYear ≤ s.key + rounds) :
    SearchExact cron finalYear s (search cron finalYear rounds s) := by
  induction rounds generalizing s with
  | zero =>
    intro t ht _ hle
    exact Nat.lt_of_lt_of_le (lt_year_of_roundBound_le hs hrounds) (year_le_of_key_le hs ht hle)
  | succ rounds ih =>
    rw [search]
    by_cases hyear : s.year ≤ finalYear
    · rw [if_pos hyear]
      have hround := monthRound_exact hcron hs
      cases hr : monthRound cron s with
      | again s' =>
        rw [hr] at hround
        have hlt := hround.2
        exact .of_skips hround.1 (ih hround.1.valid (by omega))
      | found t =>
        rw [hr] at hround
        exact hround
    · rw [if_neg hyear]
      exact fun t ht _ hle => Nat.lt_of_lt_of_le (Nat.lt_of_not_le hyear) (year_le_of_key_le hs ht hle)

theorem monthLength_eq (h : m ≠ 2) : monthLength y m = monthLength z m := by
  rw [monthLength, monthLength, if_neg h, if_neg h]

theorem exists_year_of_day_le (h : d ≤ monthLength z m) : ∃ y', y < y' ∧ y' ≤ y + 8 ∧ d ≤ monthLength y' m := by
  by_cases hm : m = 2
  · obtain ⟨y', h1, h2, hleap⟩ := exists_isLeapYear y
    refine ⟨y', h1, h2, ?_⟩
    have h29 : monthLength z m ≤ 29 := by
      rw [monthLength, if_pos hm]
      split <;> omega
    rw [monthLength, if_pos hm, hleap]
    exact Nat.le_trans h h29
  · exact ⟨y + 1, by omega, by omega, monthLength_eq hm ▸ h⟩

/-- The eight years suffice: the day rule never asks for a day of the month and of the week together. -/
theorem exists_matches_within (ht : t.Valid) (hm : Matches cron t) (y : ℕ) :
    ∃ t', t'.Valid ∧ Matches cron t' ∧ y < t'.year ∧ t'.year ≤ y + 8 := by
  have hweek : cron.dayOfWeek.values.contains (weekday t.year t.month t.day) = true →
      ∃ y' d, y < y' ∧ y' ≤ y + 8 ∧ 1 ≤ d ∧ d ≤ monthLength y' t.month ∧
        cron.dayOfWeek.values.contains (weekday y' t.month d) = true := by
    intro hw
    obtain ⟨d, h1, h7, hd⟩ := exists_weekday_eq (y + 1) t.month (weekday_lt t.year t.month t.day)
    exact ⟨y + 1, d, by omega, by omega, h1, Nat.le_trans h7 (Nat.le_trans (by decide) (le_monthLength _ _)), hd ▸ hw⟩
  have hsame : ∃ y', y < y' ∧ y' ≤ y + 8 ∧ t.day ≤ monthLength y' t.month := exists_year_of_day_le ht.day_le
  obtain ⟨y', d, h1, h2, hd1, hd2, hday⟩ : ∃ y' d, y < y' ∧ y' ≤ y + 8 ∧ 1 ≤ d ∧ d ≤ monthLength y' t.month ∧
      matchesDay cron d (weekday y' t.month d) = true := by
    have hday := hm.day
    obtain ⟨y₁, hy1, hy2, hlen⟩ := hsame
    unfold matchesDay at hday ⊢
    by_cases hdom : cron.dayOfMonth.any = true <;> by_cases hdow : cron.dayOfWeek.any = true
    · exact ⟨y₁, t.day, hy1, hy2, ht.day_pos, hlen, by simp [hdom, hdow]⟩
    · simp only [hdom, hdow, Bool.and_false, Bool.false_eq_true, if_false, if_true] at hday ⊢
      exact hweek hday
    · simp only [hdom, hdow, Bool.false_and, Bool.false_eq_true, if_false, if_true] at hday ⊢
      exact ⟨y₁, t.day, hy1, hy2, ht.day_pos, hlen, hday⟩
    · simp only [hdom, hdow, Bool.and_false, Bool.false_eq_true, if_false, Bool.or_eq_true] at hday ⊢
      rcases hday with hday | hday
      · exact ⟨y₁, t.day, hy1, hy2, ht.day_pos, hlen, .inl hday⟩
      · obtain ⟨y', d, h1, h2, h3, h4, h5⟩ := hweek hday
        exact ⟨y', d, h1, h2, h3, h4, .inr h5⟩
  exact ⟨⟨y', t.month, d, t.hour, t.minute⟩, ⟨ht.month_pos, ht.month_le, hd1, hd2, ht.hour_lt, ht.minute_lt⟩,
    ⟨hm.minute, hm.hour, hday, hm.month⟩, h1, h2⟩

theorem lt_wholeMinute_iff {i : UtcInstant} (ht : t.Valid) :
    i.number < (wholeMinute t ht).number ↔ i.minute.key < t.key := by
  rw [CivilMinute.key_lt_iff i.valid ht]
  have h1 := i.second_lt
  have h2 := i.millisecond_lt
  unfold UtcInstant.number wholeMinute
  dsimp only
  omega

theorem nextOccurrence_exact (hcron : WellFormed cron) (after : UtcInstant) : match nextOccurrence cron after with
    | some t => t.Valid ∧ Matches cron t ∧ after.minute.key < t.key ∧
        ∀ t', t'.Valid → Matches cron t' → after.minute.key < t'.key → t.key ≤ t'.key
    | none => ∀ t, t.Valid → Matches cron t → ¬ after.minute.key < t.key := by
  have hv := valid_addMinute after.valid
  have h := search_exact hcron ((addMinute after.minute).year + 8) (roundBound ((addMinute after.minute).year + 8))
    hv (Nat.le_add_left _ _)
  unfold nextOccurrence
  split
  · next t ht =>
    rw [ht] at h
    obtain ⟨hskip, hm⟩ := h
    refine ⟨hskip.valid, hm, (addMinute_le after.valid hskip.valid).mp hskip.le, fun t' ht' hm' hlt => ?_⟩
    exact hskip.least t' ht' hm' ((addMinute_le after.valid ht').mpr hlt)
  · next hnone =>
    rw [hnone] at h
    intro t ht hm _
    obtain ⟨t', ht', hm', hy1, hy2⟩ := exists_matches_within ht hm (addMinute after.minute).year
    have hlt : (addMinute after.minute).key < t'.key := (key_lt_iff_lex hv ht').mpr (.inl hy1)
    have := h t' ht' hm' (Nat.le_of_lt hlt)
    omega

theorem nextCronInstant_eq {after : String} {instant : UtcInstant}
    (hcron : parseCron expression = some cron) (hafter : parseUtcTimestamp after = some instant) :
    nextCronInstant expression after = nextOccurrence cron instant := by
  rw [nextCronInstant, hafter, hcron]
  rfl

/-- The least matching whole minute strictly later, or nothing where none matches. -/
structure IsNextOccurrence (cron : ParsedCron) (after : UtcInstant) (result : Option String) : Prop where
  least : ∀ text, result = some text → ∃ t, ∃ ht : t.Valid, text = toISOString t ∧ Matches cron t ∧
    after.number < (wholeMinute t ht).number ∧
    ∀ t', (ht' : t'.Valid) → Matches cron t' → after.number < (wholeMinute t' ht').number →
      (wholeMinute t ht).number ≤ (wholeMinute t' ht').number
  nothing : result = none → ∀ t, (ht : t.Valid) → Matches cron t → ¬ after.number < (wholeMinute t ht).number

/-- **The search is exact**, for every accepted expression and every canonical instant. -/
theorem cron_search_exact {expression after : String} {cron : ParsedCron} {instant : UtcInstant}
    (hcron : parseCron expression = some cron) (hafter : parseUtcTimestamp after = some instant) :
    IsNextOccurrence cron instant (nextCronOccurrence expression after) := by
  have h := nextOccurrence_exact (wellFormed_of_parseCron hcron) instant
  rw [nextCronOccurrence, nextCronInstant_eq hcron hafter]
  cases hnext : nextOccurrence cron instant with
  | some t =>
    rw [hnext] at h
    obtain ⟨ht, hm, hlt, hleast⟩ := h
    refine ⟨fun text htext => ?_, nofun⟩
    have e : toISOString t = text := some.inj htext
    refine ⟨t, ht, e.symm, hm, (lt_wholeMinute_iff ht).mpr hlt, fun t' ht' hm' hlt' => ?_⟩
    have hkey := hleast t' ht' hm' ((lt_wholeMinute_iff ht').mp hlt')
    rw [CivilMinute.key_le_iff ht ht'] at hkey
    unfold UtcInstant.number wholeMinute
    dsimp only
    omega
  | none =>
    rw [hnext] at h
    exact ⟨nofun, fun _ t ht hm hlt => h t ht hm ((lt_wholeMinute_iff ht).mp hlt)⟩

theorem cron_search_exact_leapDay : ∃ cron instant, parseCron "0 0 29 2 *" = some cron ∧
      parseUtcTimestamp "2096-03-01T00:00:00Z" = some instant ∧
      nextCronOccurrence "0 0 29 2 *" "2096-03-01T00:00:00Z" = some "2104-02-29T00:00:00.000Z" ∧
      IsNextOccurrence cron instant (nextCronOccurrence "0 0 29 2 *" "2096-03-01T00:00:00Z") := by
  obtain ⟨cron, hcron⟩ := Option.isSome_iff_exists.mp (by decide +kernel : (parseCron "0 0 29 2 *").isSome = true)
  obtain ⟨instant, hafter⟩ := isSome_iff_exists.mp
    (by decide +kernel : (parseUtcTimestamp "2096-03-01T00:00:00Z").isSome = true)
  have h := cron_search_exact hcron hafter
  exact ⟨cron, instant, hcron, hafter, by decide +kernel, h⟩

end AutoHarness.Schedule

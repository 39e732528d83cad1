import AutoHarness.Schedule.CronSearch

/-! The traditional day rule of cron, and the expressions whose occurrences keep it. -/

namespace AutoHarness.Schedule
open Foundation List ParsedCron

/-! ## The rule -/

def CronItem.Denotes (item : CronItem) (v : ℕ) : Prop :=
  item.start ≤ v ∧ v ≤ item.stop ∧ item.step ∣ v - item.start

instance (item : CronItem) (v : ℕ) : Decidable (item.Denotes v) :=
  inferInstanceAs (Decidable (_ ∧ _ ∧ _))

def Denotes (items : List CronItem) (v : ℕ) : Prop :=
  ∃ item ∈ items, item.Denotes v

instance (items : List CronItem) (v : ℕ) : Decidable (Denotes items v) :=
  inferInstanceAs (Decidable (∃ item ∈ items, item.Denotes v))

def Starred (items : List CronItem) : Prop :=
  ∃ item ∈ items, item.star = true

instance (items : List CronItem) : Decidable (Starred items) :=
  inferInstanceAs (Decidable (∃ item ∈ items, item.star = true))

def DayRule (items : CronItems) (dayOfMonth dayOfWeek : ℕ) : Prop :=
  if ¬ Starred items.dayOfMonth ∧ ¬ Starred items.dayOfWeek then
    Denotes items.dayOfMonth dayOfMonth ∨ Denotes items.dayOfWeek dayOfWeek
  else Denotes items.dayOfMonth dayOfMonth ∧ Denotes items.dayOfWeek dayOfWeek

instance (items : CronItems) (dayOfMonth dayOfWeek : ℕ) : Decidable (DayRule items dayOfMonth dayOfWeek) := by
  unfold DayRule
  infer_instance

def Honoured (items : CronItems) (t : CivilMinute) : Prop :=
  Denotes items.minute t.minute ∧ Denotes items.hour t.hour ∧ Denotes items.month t.month ∧
    DayRule items t.day (weekday t.year t.month t.day)

def longestMonth (m : ℕ) : ℕ := monthLength 2000 m

/-- A starred day field leaves out no day it can meet, unless the other field admits no day at all. -/
structure StarsFull (items : CronItems) : Prop where
  dayOfMonth : Starred items.dayOfMonth →
    ∀ m d, Denotes items.month m → 1 ≤ d → d ≤ longestMonth m → Denotes items.dayOfMonth d
  dayOfWeek : Starred items.dayOfWeek →
    (Starred items.dayOfMonth ∨ ∃ m d, Denotes items.month m ∧ Denotes items.dayOfMonth d ∧ d ≤ longestMonth m) →
    ∀ w < 7, Denotes items.dayOfWeek w

/-! ## Parsed sets and denotations -/

section Fields

variable {source : List Char} {min max v : ℕ} {items : List CronItem}

theorem mem_values_iff_denotes (hrange : min ≤ max) (h : parseFieldItems source min max = some items) :
    v ∈ (CronField.ofItems items).values ↔ Denotes items v := by
  rw [mem_ofItems]
  refine exists_congr fun item => and_congr_right fun hitem => ?_
  obtain ⟨hstep, _, hle, _⟩ := (parseFieldItems_spec hrange h).2 item hitem
  rw [CronItem.mem_values hstep, Nat.max_eq_right hle]
  rfl

theorem any_iff_starred : (CronField.ofItems items).any = true ↔ Starred items := by
  rw [CronField.ofItems, any_eq_true]
  rfl

end Fields

theorem monthLength_le_longestMonth (y m : ℕ) : monthLength y m ≤ longestMonth m := by
  unfold longestMonth
  by_cases hm : m = 2
  · have h2000 : isLeapYear 2000 = true := by decide
    rw [monthLength, monthLength, if_pos hm, if_pos hm, h2000]
    split <;> decide
  · rw [monthLength_eq hm]

theorem monthLength_of_leap {y : ℕ} (h : isLeapYear y = true) (m : ℕ) : monthLength y m = longestMonth m := by
  have h2000 : isLeapYear 2000 = true := by decide
  rw [longestMonth, monthLength, monthLength, h, h2000]

/-! ## Every matching minute is returned for some instant -/

theorem digitChar_spec : ∀ n < 10, (Nat.digitChar n).isDigit = true ∧ digitValue (Nat.digitChar n) = n := by
  decide

theorem length_digits (width n : ℕ) : (digits width n).length = width := by
  induction width generalizing n with
  | zero => rfl
  | succ width ih => rw [digits, length_append, ih, length_singleton]

theorem isDigit_digits (width n : ℕ) : (digits width n).all Char.isDigit = true := by
  induction width generalizing n with
  | zero => rfl
  | succ width ih =>
    rw [digits, all_append, ih, all_cons, (digitChar_spec _ (Nat.mod_lt n (by decide))).1]
    rfl

theorem decimal_digits (width n : ℕ) : decimal (digits width n) = n % 10 ^ width := by
  induction width generalizing n with
  | zero => rw [Nat.pow_zero, Nat.mod_one]; rfl
  | succ width ih =>
    have hd := (digitChar_spec _ (Nat.mod_lt n (by decide))).2
    have happ : decimal (digits (width + 1) n) = 10 * decimal (digits width (n / 10)) + n % 10 := by
      rw [decimal, digits, foldl_append, foldl_cons, foldl_nil, hd]
      rfl
    rw [happ, ih, Nat.pow_succ, Nat.mul_comm (10 ^ width) 10, Nat.mod_mul]
    omega

variable {width n : ℕ}

theorem takeDigits_digits (h : n < 10 ^ width) (rest : List Char) :
    takeDigits width (digits width n ++ rest) = some (n, rest) := by
  have htake : (digits width n ++ rest).take width = digits width n := by
    have e := length_digits width n
    rw [take_append_of_le_length (Nat.le_of_eq e.symm), take_of_length_le (Nat.le_of_eq e)]
  have hdrop : (digits width n ++ rest).drop width = rest := by
    have e := length_digits width n
    rw [drop_append_of_le_length (Nat.le_of_eq e.symm), drop_of_length_le (Nat.le_of_eq e), nil_append]
  have hlen : width ≤ (digits width n ++ rest).length := by
    rw [length_append, length_digits]
    exact Nat.le_add_right _ _
  rw [takeDigits, htake, hdrop, isDigit_digits, decimal_digits, Nat.mod_eq_of_lt h, decide_eq_true hlen]
  rfl

variable {β : Type}

theorem bind_takeDigits (h : n < 10 ^ width) (rest : List Char)
    (f : ℕ × List Char → Option β) : (takeDigits width (digits width n ++ rest) >>= f) = f (n, rest) := by
  rw [takeDigits_digits h]
  rfl

theorem bind_takeChar (c : Char) (rest : List Char) (f : List Char → Option β) :
    (takeChar c (c :: rest) >>= f) = f rest := by
  rw [takeChar, if_pos rfl]
  rfl

theorem bind_takeMillisecond (rest : List Char) (f : ℕ × List Char → Option β) :
    (takeMillisecond ('.' :: (digits 3 0 ++ rest)) >>= f) = f (0, rest) := by
  exact bind_takeDigits (by decide) rest f

variable {t : CivilMinute}

theorem parseUtcTimestamp_toISOString (ht : t.Valid) (h1 : 100 ≤ t.year) (h2 : t.year ≤ 9999) :
    parseUtcTimestamp (toISOString t) = some (wholeMinute t ht) := by
  have hyear : t.year < 10 ^ 4 := by omega
  have hmonth : t.month < 10 ^ 2 := by have := ht.month_le; omega
  have hday : t.day < 10 ^ 2 := by have := ht.day_lt; omega
  have hhour : t.hour < 10 ^ 2 := by have := ht.hour_lt; omega
  have hminute : t.minute < 10 ^ 2 := by have := ht.minute_lt; omega
  unfold parseUtcTimestamp toISOString
  rw [String.toList_ofList, if_pos h2]
  simp only [append_assoc, cons_append, nil_append]
  refine (bind_takeDigits hyear _ _).trans ((bind_takeChar '-' _ _).trans ?_)
  refine (bind_takeDigits hmonth _ _).trans ((bind_takeChar '-' _ _).trans ?_)
  refine (bind_takeDigits hday _ _).trans ((bind_takeChar 'T' _ _).trans ?_)
  refine (bind_takeDigits hhour _ _).trans ((bind_takeChar ':' _ _).trans ?_)
  refine (bind_takeDigits hminute _ _).trans ((bind_takeChar ':' _ _).trans ?_)
  refine (bind_takeDigits (by decide : 0 < 10 ^ 2) _ _).trans ((bind_takeMillisecond _ _).trans ?_)
  refine (bind_takeChar 'Z' _ _).trans ?_
  exact dif_pos ⟨h1, ht, by decide, by decide⟩

theorem exists_addMinute_eq (ht : t.Valid) (hy : 1 ≤ t.year) :
    ∃ s, s.Valid ∧ addMinute s = t ∧ t.year ≤ s.year + 1 ∧ s.year ≤ t.year := by
  obtain ⟨year, month, day, hour, minute⟩ := t
  obtain ⟨h1, h2, h3, h4, h5, h6⟩ := ht
  dsimp only at h1 h2 h3 h4 h5 h6 hy
  have h23 : ¬ 23 + 1 < 24 := by decide
  have h59 : ¬ 59 + 1 < 60 := by decide
  have b23 : 23 < 24 := by decide
  have b59 : 59 < 60 := by decide
  -- the last field that is not at its first value goes down, and those below it to their last
  obtain hm | ⟨rfl, hh⟩ | ⟨rfl, rfl, hd⟩ | ⟨rfl, rfl, rfl, hmo⟩ | ⟨rfl, rfl, rfl, rfl⟩ :
      0 < minute ∨ (minute = 0 ∧ 0 < hour) ∨ (minute = 0 ∧ hour = 0 ∧ 1 < day) ∨
        (minute = 0 ∧ hour = 0 ∧ day = 1 ∧ 1 < month) ∨ (minute = 0 ∧ hour = 0 ∧ day = 1 ∧ month = 1) := by omega
  · have e : minute - 1 + 1 = minute := by omega
    have hlt : minute - 1 < 60 := by omega
    refine ⟨⟨year, month, day, hour, minute - 1⟩, ⟨h1, h2, h3, h4, h5, hlt⟩, ?_, Nat.le_succ _, Nat.le_refl _⟩
    simp only [addMinute, e, if_pos h6]
  · have e : hour - 1 + 1 = hour := by omega
    have hlt : hour - 1 < 24 := by omega
    refine ⟨⟨year, month, day, hour - 1, 59⟩, ⟨h1, h2, h3, h4, hlt, b59⟩, ?_, Nat.le_succ _, Nat.le_refl _⟩
    simp only [addMinute, setUTCHours, h59, if_false, e, if_pos h5]
  · have e : day - 1 + 1 = day := by omega
    have hpos : 1 ≤ day - 1 := by omega
    have hle : day - 1 ≤ monthLength year month := by omega
    refine ⟨⟨year, month, day - 1, 23, 59⟩, ⟨h1, h2, hpos, hle, b23, b59⟩, ?_, Nat.le_succ _, Nat.le_refl _⟩
    simp only [addMinute, setUTCHours, midnightOf, h23, h59, if_false, e, if_pos h4]
  · have e : month - 1 + 1 = month := by omega
    have hpos : 1 ≤ month - 1 := by omega
    have hle : month - 1 ≤ 12 := by omega
    have hlen : 1 ≤ monthLength year (month - 1) := Nat.le_trans (by decide) (le_monthLength _ _)
    have hlast : ¬ monthLength year (month - 1) + 1 ≤ monthLength year (month - 1) := by omega
    refine ⟨⟨year, month - 1, monthLength year (month - 1), 23, 59⟩, ⟨hpos, hle, hlen, Nat.le_refl _, b23, b59⟩, ?_,
      Nat.le_succ _, Nat.le_refl _⟩
    simp only [addMinute, setUTCHours, midnightOf, resetToMonth, h23, h59, hlast, if_false, e, if_pos h2]
  · have e : year - 1 + 1 = year := by omega
    have hlen : monthLength (year - 1) 12 = 31 := rfl
    have hle : 31 ≤ monthLength (year - 1) 12 := Nat.le_of_eq hlen.symm
    have hlast : ¬ 31 + 1 ≤ 31 := by decide
    have hwrap : ¬ 12 + 1 ≤ 12 := by decide
    refine ⟨⟨year - 1, 12, 31, 23, 59⟩, ⟨Nat.succ_pos _, Nat.le_refl 12, Nat.succ_pos _, hle, b23, b59⟩, ?_,
      Nat.le_of_eq e.symm, Nat.sub_le _ _⟩
    simp only [addMinute, setUTCHours, midnightOf, resetToMonth, hlen, h23, h59, hlast, hwrap, if_false, e]

theorem exists_after {expression : String} {cron : ParsedCron} (hcron : parseCron expression = some cron)
    (ht : t.Valid) (hm : Matches cron t) (h1 : 2000 ≤ t.year) (h2 : t.year ≤ 2024) :
    ∃ after, nextCronInstant expression after = some t := by
  obtain ⟨s, hs, hnext, hy1, hy2⟩ := exists_addMinute_eq ht (by omega)
  have hafter := parseUtcTimestamp_toISOString hs (by omega) (by omega)
  refine ⟨toISOString s, ?_⟩
  rw [nextCronInstant_eq hcron hafter]
  have hexact := nextOccurrence_exact (wellFormed_of_parseCron hcron) (wholeMinute s hs)
  have hst : s.key < t.key := (addMinute_le hs ht).mp (Nat.le_of_eq (by rw [hnext]))
  cases hres : nextOccurrence cron (wholeMinute s hs) with
  | none =>
    rw [hres] at hexact
    exact absurd hst (hexact t ht hm)
  | some t' =>
    rw [hres] at hexact
    obtain ⟨ht', _, hlt, hleast⟩ := hexact
    have hle := hleast t ht hm hst
    have hge := (addMinute_le hs ht').mpr hlt
    rw [hnext] at hge
    rw [CivilMinute.eq_of_key_eq ht' ht (Nat.le_antisymm hle hge)]

/-! ## The expressions that keep the rule -/

section Expression

variable {expression : String} {items : CronItems} (h : parseCronItems expression = some items)

include h

theorem parseCron_of_items : parseCron expression = some (.ofItems items) := by
  rw [parseCron, h]
  rfl

variable {v : ℕ}

theorem mem_minute : v ∈ (ofItems items).minute.values ↔ Denotes items.minute v := by
  obtain ⟨_, hf⟩ := (parseCronItems_spec h).1
  exact mem_values_iff_denotes (by decide) hf

theorem mem_hour : v ∈ (ofItems items).hour.values ↔ Denotes items.hour v := by
  obtain ⟨_, hf⟩ := (parseCronItems_spec h).2.1
  exact mem_values_iff_denotes (by decide) hf

theorem mem_dayOfMonth : v ∈ (ofItems items).dayOfMonth.values ↔ Denotes items.dayOfMonth v := by
  obtain ⟨_, hf⟩ := (parseCronItems_spec h).2.2.1
  exact mem_values_iff_denotes (by decide) hf

theorem mem_month : v ∈ (ofItems items).month.values ↔ Denotes items.month v := by
  obtain ⟨_, hf⟩ := (parseCronItems_spec h).2.2.2.1
  exact mem_values_iff_denotes (by decide) hf

theorem mem_dayOfWeek : v ∈ (ofItems items).dayOfWeek.values ↔ Denotes items.dayOfWeek v := by
  obtain ⟨_, hf⟩ := (parseCronItems_spec h).2.2.2.2
  exact mem_values_iff_denotes (by decide) hf

theorem matchesDay_iff (d w : ℕ) : matchesDay (.ofItems items) d w = true ↔
    (Starred items.dayOfMonth ∧ Starred items.dayOfWeek) ∨
    (Starred items.dayOfMonth ∧ ¬ Starred items.dayOfWeek ∧ Denotes items.dayOfWeek w) ∨
    (¬ Starred items.dayOfMonth ∧ Starred items.dayOfWeek ∧ Denotes items.dayOfMonth d) ∨
    (¬ Starred items.dayOfMonth ∧ ¬ Starred items.dayOfWeek ∧
      (Denotes items.dayOfMonth d ∨ Denotes items.dayOfWeek w)) := by
  have hdom : (ofItems items).dayOfMonth.any = true ↔ Starred items.dayOfMonth := any_iff_starred
  have hdow : (ofItems items).dayOfWeek.any = true ↔ Starred items.dayOfWeek := any_iff_starred
  have hd : (ofItems items).dayOfMonth.values.contains d = true ↔ Denotes items.dayOfMonth d :=
    contains_iff_mem.trans (mem_dayOfMonth h)
  have hw : (ofItems items).dayOfWeek.values.contains w = true ↔ Denotes items.dayOfWeek w :=
    contains_iff_mem.trans (mem_dayOfWeek h)
  unfold matchesDay
  rw [← hdom, ← hdow, ← hd, ← hw]
  cases (ofItems items).dayOfMonth.any <;> cases (ofItems items).dayOfWeek.any <;> simp

theorem starsFull_honoured (hfull : StarsFull items) {t : CivilMinute} (ht : t.Valid)
    (hm : Matches (.ofItems items) t) : Honoured items t := by
  have hmonth := (mem_month h).mp hm.month
  have hlong : t.day ≤ longestMonth t.month := Nat.le_trans ht.day_le (monthLength_le_longestMonth t.year t.month)
  have hw := weekday_lt t.year t.month t.day
  refine ⟨(mem_minute h).mp hm.minute, (mem_hour h).mp hm.hour, hmonth, ?_⟩
  unfold DayRule
  rcases (matchesDay_iff h _ _).mp hm.day with ⟨h1, h2⟩ | ⟨h1, h2, hday⟩ | ⟨h1, h2, hday⟩ | ⟨h1, h2, hday⟩
  · rw [if_neg fun hn => hn.1 h1]
    exact ⟨hfull.dayOfMonth h1 _ _ hmonth ht.day_pos hlong, hfull.dayOfWeek h2 (.inl h1) _ hw⟩
  · rw [if_neg fun hn => hn.1 h1]
    exact ⟨hfull.dayOfMonth h1 _ _ hmonth ht.day_pos hlong, hday⟩
  · rw [if_neg fun hn => hn.2 h2]
    exact ⟨hday, hfull.dayOfWeek h2 (.inr ⟨_, _, hmonth, hday, hlong⟩) _ hw⟩
  · rw [if_pos ⟨h1, h2⟩]
    exact hday

theorem exists_returned {m d w : ℕ} (hmonth : Denotes items.month m) (hd1 : 1 ≤ d) (hd2 : d ≤ longestMonth m)
    (hw : w < 7) (hday : matchesDay (.ofItems items) d w = true) :
    ∃ after t, nextCronInstant expression after = some t ∧ t.day = d ∧ weekday t.year t.month t.day = w := by
  have hwf := wellFormed_ofItems h
  obtain ⟨y, hy1, hy2, hleap, hweek⟩ := exists_leapYear_weekday (m := m) (d := d) hw
  obtain ⟨hour, hhour⟩ := hwf.hour.nonempty
  obtain ⟨minute, hminute⟩ := hwf.minute.nonempty
  have hm := (mem_month h).mpr hmonth
  obtain ⟨hm1, hm2⟩ := hwf.month.within m hm
  have ht : CivilMinute.Valid ⟨y, m, d, hour, minute⟩ :=
    ⟨hm1, hm2, hd1, monthLength_of_leap hleap m ▸ hd2, Nat.lt_succ_of_le (hwf.hour.within _ hhour).2,
      Nat.lt_succ_of_le (hwf.minute.within _ hminute).2⟩
  have hmatch : Matches (.ofItems items) ⟨y, m, d, hour, minute⟩ := ⟨hminute, hhour, hweek ▸ hday, hm⟩
  obtain ⟨after, hafter⟩ := exists_after (parseCron_of_items h) ht hmatch hy1 hy2
  exact ⟨after, _, hafter, rfl, hweek⟩

theorem honoured_starsFull (hall : ∀ after t, nextCronInstant expression after = some t → Honoured items t) :
    StarsFull items := by
  have hwf := wellFormed_ofItems h
  constructor
  · intro hstar m d hmonth hd1 hd2
    obtain ⟨w, hw, hday⟩ : ∃ w < 7, matchesDay (.ofItems items) d w = true := by
      by_cases hdow : Starred items.dayOfWeek
      · exact ⟨0, by decide, (matchesDay_iff h _ _).mpr (.inl ⟨hstar, hdow⟩)⟩
      · obtain ⟨w, hw⟩ := hwf.dayOfWeek.nonempty
        exact ⟨w, Nat.lt_succ_of_le (hwf.dayOfWeek.within w hw).2,
          (matchesDay_iff h _ _).mpr (.inr (.inl ⟨hstar, hdow, (mem_dayOfWeek h).mp hw⟩))⟩
    obtain ⟨after, t, hafter, rfl, _⟩ := exists_returned h hmonth hd1 hd2 hw hday
    have hrule := (hall after t hafter).2.2.2
    rw [DayRule, if_neg fun hn => hn.1 hstar] at hrule
    exact hrule.1
  · intro hstar hsome w hw
    obtain ⟨m, d, hmonth, hd1, hd2, hday⟩ : ∃ m d, Denotes items.month m ∧ 1 ≤ d ∧ d ≤ longestMonth m ∧
        matchesDay (.ofItems items) d w = true := by
      by_cases hdom : Starred items.dayOfMonth
      · obtain ⟨m, hm⟩ := hwf.month.nonempty
        exact ⟨m, 1, (mem_month h).mp hm, Nat.le_refl 1, Nat.le_trans (by decide) (le_monthLength 2000 m),
          (matchesDay_iff h _ _).mpr (.inl ⟨hdom, hstar⟩)⟩
      · obtain ⟨m, d, hmonth, hd, hlong⟩ := hsome.resolve_left hdom
        exact ⟨m, d, hmonth, (hwf.dayOfMonth.within d ((mem_dayOfMonth h).mpr hd)).1, hlong,
          (matchesDay_iff h _ _).mpr (.inr (.inr (.inl ⟨hdom, hstar, hd⟩)))⟩
    obtain ⟨after, t, hafter, _, rfl⟩ := exists_returned h hmonth hd1 hd2 hw hday
    have hrule := (hall after t hafter).2.2.2
    rw [DayRule, if_neg fun hn => hn.2 hstar] at hrule
    exact hrule.2

/-- The occurrences are all admitted by the fields exactly when the starred day fields leave out no day they can meet.
-/
theorem day_steps_honoured_iff :
    (∀ after t, nextCronInstant expression after = some t → Honoured items t) ↔ StarsFull items := by
  refine ⟨honoured_starsFull h, fun hfull after t hafter => ?_⟩
  cases hp : parseUtcTimestamp after with
  | none =>
    rw [nextCronInstant, hp] at hafter
    cases hafter
  | some instant =>
    rw [nextCronInstant_eq (parseCron_of_items h) hp] at hafter
    have hexact := nextOccurrence_exact (wellFormed_ofItems h) instant
    rw [hafter] at hexact
    exact starsFull_honoured h hfull hexact.1 hexact.2.1

end Expression

theorem day_steps_honoured_plain : ∃ items, parseCronItems "0 0 * */2 *" = some items ∧
      ∀ after t, nextCronInstant "0 0 * */2 *" after = some t → Honoured items t := by
  refine ⟨⟨[⟨false, 0, 0, 1⟩], [⟨false, 0, 0, 1⟩], [⟨true, 1, 31, 1⟩], [⟨true, 1, 12, 2⟩], [⟨true, 0, 6, 1⟩]⟩,
    by decide +kernel, (day_steps_honoured_iff (by decide +kernel)).mpr ⟨fun _ m d _ hd hle => ?_, fun _ _ w hw => ?_⟩⟩
  · have hmonth : longestMonth m ≤ 31 := by
      unfold longestMonth monthLength
      split_ifs <;> decide
    exact ⟨_, mem_singleton_self _, hd, hle.trans hmonth, one_dvd _⟩
  · exact ⟨_, mem_singleton_self _, Nat.zero_le w, Nat.lt_succ_iff.mp hw, one_dvd _⟩

theorem day_step_ignored : ∃ items, parseCronItems "0 0 */2 * *" = some items ∧
      nextCronInstant "0 0 */2 * *" "2026-01-01T00:00:00Z" = some ⟨2026, 1, 2, 0, 0⟩ ∧
      nextCronOccurrence "0 0 */2 * *" "2026-01-01T00:00:00Z" = some "2026-01-02T00:00:00.000Z" ∧
      ¬ Honoured items ⟨2026, 1, 2, 0, 0⟩ := by
  refine ⟨⟨[⟨false, 0, 0, 1⟩], [⟨false, 0, 0, 1⟩], [⟨true, 1, 31, 2⟩], [⟨true, 1, 12, 1⟩], [⟨true, 0, 6, 1⟩]⟩,
    by decide +kernel, by decide +kernel, by decide +kernel, ?_⟩
  rintro ⟨_, _, _, hday⟩
  revert hday
  decide +kernel

end AutoHarness.Schedule

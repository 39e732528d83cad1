import Mathlib.Data.Nat.Notation
import Mathlib.Tactic.IntervalCases

/-! The proleptic Gregorian calendar, and the chronological order of whole minutes. -/

namespace AutoHarness.Foundation

def isLeapYear (y : ℕ) : Bool :=
  y % 4 == 0 && (y % 100 != 0 || y % 400 == 0)

/-- The number of days of month `m`, counted from one. -/
def monthLength (y m : ℕ) : ℕ :=
  if m = 2 then (if isLeapYear y then 29 else 28)
  else if m = 4 ∨ m = 6 ∨ m = 9 ∨ m = 11 then 30 else 31

/-- The days of the year before its month `m`. -/
def monthStart (y : ℕ) : ℕ → ℕ
  | 0 => 0
  | 1 => 0
  | m + 2 => monthStart y (m + 1) + monthLength y (m + 1)

/-- The days before year `y`, counted from year zero. -/
def yearStart (y : ℕ) : ℕ :=
  365 * y + (y + 3) / 4 + (y + 399) / 400 - (y + 99) / 100

def yearLength (y : ℕ) : ℕ :=
  if isLeapYear y then 366 else 365

def dayNumber (y m d : ℕ) : ℕ :=
  yearStart y + monthStart y m + (d - 1)

def weekday (y m d : ℕ) : ℕ :=
  (dayNumber y m d + 6) % 7

structure CivilMinute where
  year : ℕ
  month : ℕ
  day : ℕ
  hour : ℕ
  minute : ℕ
deriving DecidableEq, Repr

namespace CivilMinute

structure Valid (t : CivilMinute) : Prop where
  month_pos : 1 ≤ t.month
  month_le : t.month ≤ 12
  day_pos : 1 ≤ t.day
  day_le : t.day ≤ monthLength t.year t.month
  hour_lt : t.hour < 24
  minute_lt : t.minute < 60

def number (t : CivilMinute) : ℕ :=
  (dayNumber t.year t.month t.day * 24 + t.hour) * 60 + t.minute

/-- The fields read as the digits of one number: chronological order without the lengths of months. -/
def key (t : CivilMinute) : ℕ :=
  (((t.year * 13 + t.month) * 32 + t.day) * 24 + t.hour) * 60 + t.minute

end CivilMinute

/-! ## Lengths -/

theorem isLeapYear_iff {y : ℕ} : isLeapYear y = true ↔ y % 4 = 0 ∧ (y % 100 ≠ 0 ∨ y % 400 = 0) := by
  simp [isLeapYear]

theorem monthLength_le (y m : ℕ) : monthLength y m ≤ 31 := by
  unfold monthLength
  split_ifs <;> omega

theorem le_monthLength (y m : ℕ) : 28 ≤ monthLength y m := by
  unfold monthLength
  split_ifs <;> omega

theorem yearStart_succ (y : ℕ) : yearStart (y + 1) = yearStart y + yearLength y := by
  have h4 : (y + 1 + 3) / 4 = (y + 3) / 4 + if y % 4 = 0 then 1 else 0 := by split <;> omega
  have h100 : (y + 1 + 99) / 100 = (y + 99) / 100 + if y % 100 = 0 then 1 else 0 := by split <;> omega
  have h400 : (y + 1 + 399) / 400 = (y + 399) / 400 + if y % 400 = 0 then 1 else 0 := by split <;> omega
  have hle : (y + 99) / 100 ≤ 365 * y + (y + 3) / 4 := by omega
  have hcentury : y % 100 = 0 → y % 4 = 0 := by omega
  have hfour : y % 400 = 0 → y % 100 = 0 := by omega
  have hleap : yearLength y = 365 + (if y % 4 = 0 then 1 else 0) + (if y % 400 = 0 then 1 else 0) -
      if y % 100 = 0 then 1 else 0 := by
    unfold yearLength isLeapYear
    by_cases h1 : y % 4 = 0 <;> by_cases h2 : y % 100 = 0 <;> by_cases h3 : y % 400 = 0 <;>
      simp_all
  rw [hleap, yearStart, yearStart, h4, h100, h400]
  generalize (y + 3) / 4 = a at *
  generalize (y + 99) / 100 = b at *
  generalize (y + 399) / 400 = c at *
  clear h4 h100 h400 hleap
  split_ifs <;> omega

theorem monthStart_succ {y m : ℕ} (hm : 1 ≤ m) : monthStart y (m + 1) = monthStart y m + monthLength y m := by
  cases m with
  | zero => omega
  | succ m => rfl

theorem monthStart_thirteen (y : ℕ) : monthStart y 13 = yearLength y := by
  unfold yearLength
  cases h : isLeapYear y <;> simp [monthStart, monthLength, h]

theorem monthStart_mono {y m n : ℕ} (hm : 1 ≤ m) (h : m < n) : monthStart y m + monthLength y m ≤ monthStart y n := by
  induction n with
  | zero => omega
  | succ n ih =>
    rw [monthStart_succ (by omega)]
    by_cases hmn : m = n
    · rw [hmn]
    · have := ih (by omega)
      omega

theorem yearStart_mono {y z : ℕ} (h : y < z) : yearStart y + yearLength y ≤ yearStart z := by
  induction z with
  | zero => omega
  | succ z ih =>
    rw [yearStart_succ]
    by_cases hyz : y = z
    · rw [hyz]
    · have := ih (by omega)
      omega

/-! ## Chronological order -/

theorem radix_lt_iff {a b c d n : ℕ} (hb : b < n) (hd : d < n) : a * n + b < c * n + d ↔ a < c ∨ a = c ∧ b < d := by
  rcases Nat.lt_trichotomy a c with h | h | h
  · have := Nat.mul_le_mul_right n (Nat.succ_le_of_lt h)
    rw [Nat.succ_mul] at this
    exact ⟨fun _ => .inl h, fun _ => by omega⟩
  · subst h
    exact ⟨fun hlt => .inr ⟨rfl, by omega⟩, fun hlt => by omega⟩
  · have := Nat.mul_le_mul_right n (Nat.succ_le_of_lt h)
    rw [Nat.succ_mul] at this
    exact ⟨fun hlt => by omega, fun hlt => by omega⟩

theorem radix_eq_iff {a b c d n : ℕ} (hb : b < n) (hd : d < n) : a * n + b = c * n + d ↔ a = c ∧ b = d := by
  constructor
  · intro h
    have h1 := radix_lt_iff (a := a) (c := c) hb hd
    have h2 := radix_lt_iff (a := c) (c := a) hd hb
    omega
  · rintro ⟨rfl, rfl⟩
    rfl

namespace CivilMinute

variable {s t : CivilMinute}

def dateKey (t : CivilMinute) : ℕ :=
  (t.year * 13 + t.month) * 32 + t.day

theorem Valid.month_lt (h : t.Valid) : t.month < 13 := Nat.lt_succ_of_le h.month_le

theorem Valid.day_lt (h : t.Valid) : t.day < 32 :=
  Nat.lt_succ_of_le (Nat.le_trans h.day_le (monthLength_le t.year t.month))

variable (hs : s.Valid)
include hs

theorem dateKey_eq_iff (ht : t.Valid) :
    s.dateKey = t.dateKey ↔ (s.year = t.year ∧ s.month = t.month) ∧ s.day = t.day := by
  rw [dateKey, dateKey, radix_eq_iff hs.day_lt ht.day_lt, radix_eq_iff hs.month_lt ht.month_lt]

theorem dateKey_lt_iff (ht : t.Valid) :
    s.dateKey < t.dateKey ↔ (s.year < t.year ∨ s.year = t.year ∧ s.month < t.month) ∨
      (s.year = t.year ∧ s.month = t.month) ∧ s.day < t.day := by
  rw [dateKey, dateKey, radix_lt_iff hs.day_lt ht.day_lt, radix_lt_iff hs.month_lt ht.month_lt,
    radix_eq_iff hs.month_lt ht.month_lt]

theorem key_lt_iff_fields (ht : t.Valid) :
    s.key < t.key ↔ (s.dateKey < t.dateKey ∨ s.dateKey = t.dateKey ∧ s.hour < t.hour) ∨
      (s.dateKey = t.dateKey ∧ s.hour = t.hour) ∧ s.minute < t.minute := by
  rw [key, key, radix_lt_iff hs.minute_lt ht.minute_lt, radix_lt_iff hs.hour_lt ht.hour_lt,
    radix_eq_iff hs.hour_lt ht.hour_lt]
  rfl

theorem dayNumber_lt_of_year_lt (hy : s.year < t.year) :
    dayNumber s.year s.month s.day < dayNumber t.year t.month t.day := by
  have h := yearStart_mono hy
  have hm := monthStart_mono (y := s.year) hs.month_pos hs.month_lt
  rw [monthStart_thirteen] at hm
  have hd := hs.day_le
  have hp := hs.day_pos
  unfold dayNumber
  omega

theorem dayNumber_lt_of_month_lt (hy : s.year = t.year) (hm : s.month < t.month) :
    dayNumber s.year s.month s.day < dayNumber t.year t.month t.day := by
  have h := monthStart_mono (y := t.year) hs.month_pos hm
  have hd := hs.day_le
  have hp := hs.day_pos
  unfold dayNumber
  rw [hy] at hd ⊢
  omega

variable (ht : t.Valid)
include ht

theorem dayNumber_lt_of_dateKey_lt (h : s.dateKey < t.dateKey) :
    dayNumber s.year s.month s.day < dayNumber t.year t.month t.day := by
  rcases (dateKey_lt_iff hs ht).mp h with (hy | ⟨hy, hm⟩) | ⟨⟨hy, hm⟩, hd⟩
  · exact dayNumber_lt_of_year_lt hs hy
  · exact dayNumber_lt_of_month_lt hs hy hm
  · have hp := hs.day_pos
    unfold dayNumber
    rw [hy, hm]
    omega

theorem eq_of_key_eq (h : s.key = t.key) : s = t := by
  rw [key, key, radix_eq_iff hs.minute_lt ht.minute_lt, radix_eq_iff hs.hour_lt ht.hour_lt,
    radix_eq_iff hs.day_lt ht.day_lt, radix_eq_iff hs.month_lt ht.month_lt] at h
  obtain ⟨⟨⟨⟨hy, hm⟩, hd⟩, hh⟩, hmin⟩ := h
  cases s
  cases t
  simp only [mk.injEq]
  exact ⟨hy, hm, hd, hh, hmin⟩

theorem number_lt_of_key_lt (h : s.key < t.key) : s.number < t.number := by
  rw [number, number, radix_lt_iff hs.minute_lt ht.minute_lt, radix_lt_iff hs.hour_lt ht.hour_lt,
    radix_eq_iff hs.hour_lt ht.hour_lt]
  have hdate : s.dateKey = t.dateKey → dayNumber s.year s.month s.day = dayNumber t.year t.month t.day := by
    intro heq
    obtain ⟨⟨hy, hm⟩, hd⟩ := (dateKey_eq_iff hs ht).mp heq
    rw [hy, hm, hd]
  rcases (key_lt_iff_fields hs ht).mp h with (hd | ⟨hd, hh⟩) | ⟨⟨hd, hh⟩, hm⟩
  · exact .inl (.inl (dayNumber_lt_of_dateKey_lt hs ht hd))
  · exact .inl (.inr ⟨hdate hd, hh⟩)
  · exact .inr ⟨⟨hdate hd, hh⟩, hm⟩

theorem key_lt_iff : s.key < t.key ↔ s.number < t.number := by
  refine ⟨number_lt_of_key_lt hs ht, fun h => ?_⟩
  by_contra hk
  rcases Nat.lt_or_eq_of_le (Nat.le_of_not_lt hk) with hlt | heq
  · have := number_lt_of_key_lt ht hs hlt
    omega
  · rw [eq_of_key_eq ht hs heq] at h
    omega

theorem key_le_iff : s.key ≤ t.key ↔ s.number ≤ t.number := by
  rw [← Nat.not_lt, ← Nat.not_lt, key_lt_iff ht hs]

end CivilMinute

/-! ## Weekdays -/

theorem weekday_lt (y m d : ℕ) : weekday y m d < 7 :=
  Nat.mod_lt _ (by decide)

theorem exists_weekday_eq (y m : ℕ) {w : ℕ} (hw : w < 7) : ∃ d, 1 ≤ d ∧ d ≤ 7 ∧ weekday y m d = w := by
  obtain ⟨k, hk, hkw⟩ : ∃ k < 7, (yearStart y + monthStart y m + k + 6) % 7 = w :=
    ⟨(w + 7 * (yearStart y + monthStart y m + 6) - (yearStart y + monthStart y m + 6)) % 7,
      Nat.mod_lt _ (by decide), by omega⟩
  refine ⟨k + 1, by omega, by omega, ?_⟩
  exact hkw

theorem exists_isLeapYear (y : ℕ) : ∃ z, y < z ∧ z ≤ y + 8 ∧ isLeapYear z = true := by
  by_cases h : isLeapYear (4 * (y / 4) + 4) = true
  · exact ⟨4 * (y / 4) + 4, by omega, by omega, h⟩
  · refine ⟨4 * (y / 4) + 8, by omega, by omega, ?_⟩
    rw [isLeapYear_iff] at h ⊢
    omega

theorem exists_leapYear_weekday {m d w : ℕ} (hw : w < 7) :
    ∃ y, 2000 ≤ y ∧ y ≤ 2024 ∧ isLeapYear y = true ∧ weekday y m d = w := by
  have hlen : ∀ k < 7, isLeapYear (2000 + 4 * k) = true := by decide
  have hmonth : ∀ k < 7, monthStart (2000 + 4 * k) m = monthStart 2000 m := by
    intro k hk
    induction m with
    | zero => rfl
    | succ m ih =>
      cases m with
      | zero => rfl
      | succ m =>
        have h0 : isLeapYear 2000 = true := hlen 0 (by omega)
        rw [monthStart, monthStart, ih, monthLength, monthLength, hlen k hk, h0]
  have hyear : ∀ k < 7, yearStart (2000 + 4 * k) = yearStart 2000 + 1461 * k := by decide
  obtain ⟨k, hk, hkw⟩ : ∃ k < 7, (yearStart 2000 + 1461 * k + monthStart 2000 m + (d - 1) + 6) % 7 = w := by
    -- 1461 is 5 modulo 7, with inverse 3
    refine ⟨(3 * (w + 6 * (yearStart 2000 + monthStart 2000 m + (d - 1) + 6))) % 7, Nat.mod_lt _ (by decide), ?_⟩
    generalize hc : yearStart 2000 + monthStart 2000 m + (d - 1) + 6 = c
    omega
  refine ⟨2000 + 4 * k, by omega, by omega, hlen k hk, ?_⟩
  rw [weekday, dayNumber, hyear k hk, hmonth k hk]
  exact hkw

end AutoHarness.Foundation

import Mathlib.Data.List.Range
import AutoHarness.Foundation.Calendar

/-! Five-field cron expressions in UTC: the parser, the day rule, and the search for the next occurrence. -/

namespace AutoHarness.Schedule
open Foundation

/-! ## Expressions -/

/-- One comma item of a field: a star or a range of values, and its step. -/
structure CronItem where
  star : Bool
  start : ℕ
  stop : ℕ
  step : ℕ
deriving DecidableEq, Repr

def CronItem.values (item : CronItem) : List ℕ :=
  List.range' item.start ((item.stop - item.start) / item.step + 1) item.step

structure CronField where
  any : Bool
  values : List ℕ
deriving DecidableEq, Repr

/-- A field from its items: `any` records a star item, whatever its step. -/
def CronField.ofItems (items : List CronItem) : CronField where
  any := items.any (·.star)
  values := items.flatMap (·.values)

structure ParsedCron where
  minute : CronField
  hour : CronField
  dayOfMonth : CronField
  month : CronField
  dayOfWeek : CronField
deriving DecidableEq, Repr

structure CronItems where
  minute : List CronItem
  hour : List CronItem
  dayOfMonth : List CronItem
  month : List CronItem
  dayOfWeek : List CronItem
deriving DecidableEq, Repr

def digitValue (c : Char) : ℕ := c.toNat - '0'.toNat

def decimal (cs : List Char) : ℕ :=
  cs.foldl (fun n c => 10 * n + digitValue c) 0

def parseInteger (value : List Char) : Option ℕ :=
  if value.isEmpty || !value.all Char.isDigit then none
  else if decimal value ≤ 2 ^ 53 - 1 then some (decimal value) else none

def parseStep (stepSource : Option (List Char)) : Option ℕ :=
  match stepSource with
  | none => some 1
  | some source => parseInteger source

/-- The body of the loop of `parseField`. -/
def parseItem (min max : ℕ) (item : List Char) : Option CronItem :=
  let stepParts := item.splitOn '/'
  if stepParts.length > 2 || stepParts.any (·.isEmpty) then none
  else
    let rangeSource := stepParts.headD []
    let stepSource := stepParts[1]?
    match parseStep stepSource with
    | none => none
    | some step =>
      if step < 1 then none
      else if rangeSource = ['*'] then some ⟨true, min, max, step⟩
      else
        let range := rangeSource.splitOn '-'
        if range.length > 2 || range.any (·.isEmpty) then none
        else
          match parseInteger (range.headD []), parseInteger (range.getLastD []) with
          | some rangeStart, some rangeEnd =>
            if rangeStart < min || rangeEnd > max || rangeStart > rangeEnd then none
            else if stepSource.isSome && range.length = 1 then none
            else some ⟨false, rangeStart, rangeEnd, step⟩
          | _, _ => none

def parseFieldItems (source : List Char) (min max : ℕ) : Option (List CronItem) :=
  (source.splitOn ',').mapM (parseItem min max)

def parseField (source : List Char) (min max : ℕ) : Option CronField :=
  (parseFieldItems source min max).map .ofItems

def parseCronItems (expression : String) : Option CronItems :=
  match expression.toList.splitOn ' ' with
  | [minute, hour, dayOfMonth, month, dayOfWeek] => do
    if [minute, hour, dayOfMonth, month, dayOfWeek].any (·.isEmpty) then none
    else
      let minute ← parseFieldItems minute 0 59
      let hour ← parseFieldItems hour 0 23
      let dayOfMonth ← parseFieldItems dayOfMonth 1 31
      let month ← parseFieldItems month 1 12
      let dayOfWeek ← parseFieldItems dayOfWeek 0 6
      some ⟨minute, hour, dayOfMonth, month, dayOfWeek⟩
  | _ => none

def ParsedCron.ofItems (items : CronItems) : ParsedCron where
  minute := .ofItems items.minute
  hour := .ofItems items.hour
  dayOfMonth := .ofItems items.dayOfMonth
  month := .ofItems items.month
  dayOfWeek := .ofItems items.dayOfWeek

def parseCron (expression : String) : Option ParsedCron :=
  (parseCronItems expression).map .ofItems

/-! ## Instants -/

instance (t : CivilMinute) : Decidable t.Valid :=
  decidable_of_iff (1 ≤ t.month ∧ t.month ≤ 12 ∧ 1 ≤ t.day ∧ t.day ≤ monthLength t.year t.month ∧
      t.hour < 24 ∧ t.minute < 60)
    ⟨fun ⟨a, b, c, d, e, f⟩ => ⟨a, b, c, d, e, f⟩, fun ⟨a, b, c, d, e, f⟩ => ⟨a, b, c, d, e, f⟩⟩

structure UtcInstant where
  minute : CivilMinute
  second : ℕ
  millisecond : ℕ
  valid : minute.Valid
  second_lt : second < 60
  millisecond_lt : millisecond < 1000
deriving DecidableEq

def UtcInstant.number (i : UtcInstant) : ℕ :=
  (i.minute.number * 60 + i.second) * 1000 + i.millisecond

def wholeMinute (t : CivilMinute) (h : t.Valid) : UtcInstant :=
  ⟨t, 0, 0, h, by decide, by decide⟩

/-- The round trip through `Date.UTC`, which reads the years before 100 as years of the twentieth
century. -/
def instantOfFields (year month day hour minute second millisecond : ℕ) : Option UtcInstant :=
  if h : 100 ≤ year ∧ CivilMinute.Valid ⟨year, month, day, hour, minute⟩ ∧ second < 60 ∧ millisecond < 1000 then
    some ⟨⟨year, month, day, hour, minute⟩, second, millisecond, h.2.1, h.2.2.1, h.2.2.2⟩
  else none

/-- A number of exactly `width` digits at the front of a text, and what follows it. -/
def takeDigits (width : ℕ) (cs : List Char) : Option (ℕ × List Char) :=
  if width ≤ cs.length && (cs.take width).all Char.isDigit then some (decimal (cs.take width), cs.drop width) else none

def takeChar (c : Char) : List Char → Option (List Char)
  | [] => none
  | d :: cs => if d = c then some cs else none

def takeMillisecond (cs : List Char) : Option (ℕ × List Char) :=
  match takeChar '.' cs with
  | none => some (0, cs)
  | some rest => takeDigits 3 rest

/-- The instant of a text that `isValidUtcTimestamp` accepts. -/
def parseUtcTimestamp (value : String) : Option UtcInstant := do
  let (year, rest) ← takeDigits 4 value.toList
  let rest ← takeChar '-' rest
  let (month, rest) ← takeDigits 2 rest
  let rest ← takeChar '-' rest
  let (day, rest) ← takeDigits 2 rest
  let rest ← takeChar 'T' rest
  let (hour, rest) ← takeDigits 2 rest
  let rest ← takeChar ':' rest
  let (minute, rest) ← takeDigits 2 rest
  let rest ← takeChar ':' rest
  let (second, rest) ← takeDigits 2 rest
  let (millisecond, rest) ← takeMillisecond rest
  let rest ← takeChar 'Z' rest
  if rest.isEmpty then instantOfFields year month day hour minute second millisecond else none

def isValidUtcTimestamp (value : String) : Bool :=
  (parseUtcTimestamp value).isSome

/-- The last `width` decimal digits of a number. -/
def digits : ℕ → ℕ → List Char
  | 0, _ => []
  | width + 1, n => digits width (n / 10) ++ [Nat.digitChar (n % 10)]

/-- `Date.toISOString` of a whole minute. -/
def toISOString (t : CivilMinute) : String :=
  String.ofList
    ((if t.year ≤ 9999 then digits 4 t.year else '+' :: digits 6 t.year) ++ ['-'] ++ digits 2 t.month ++ ['-'] ++
      digits 2 t.day ++ ['T'] ++ digits 2 t.hour ++ [':'] ++ digits 2 t.minute ++ [':'] ++ digits 2 0 ++ ['.'] ++
      digits 3 0 ++ ['Z'])

/-! ## The search -/

/-- `date.setUTCFullYear(year, month - 1, 1)` and midnight, for a month at most one past the last. -/
def resetToMonth (year month : ℕ) : CivilMinute :=
  if month ≤ 12 then ⟨year, month, 1, 0, 0⟩ else ⟨year + 1, month - 12, 1, 0, 0⟩

def midnightOf (year month day : ℕ) : CivilMinute :=
  if day ≤ monthLength year month then ⟨year, month, day, 0, 0⟩ else resetToMonth year (month + 1)

/-- `setUTCHours(hour, 0, 0, 0)`, for an hour at most one past the last. -/
def setUTCHours (t : CivilMinute) (hour : ℕ) : CivilMinute :=
  if hour < 24 then { t with hour := hour, minute := 0 } else midnightOf t.year t.month (t.day + 1)

/-- `setUTCMinutes(getUTCMinutes() + 1)`. -/
def addMinute (t : CivilMinute) : CivilMinute :=
  if t.minute + 1 < 60 then { t with minute := t.minute + 1 } else setUTCHours t (t.hour + 1)

def nextValue (values : List ℕ) (value : ℕ) : Option ℕ :=
  (List.range' value (60 - value)).find? (values.contains ·)

def firstValue (values : List ℕ) : ℕ :=
  values.min?.getD 0

def matchesDay (cron : ParsedCron) (dayOfMonthValue dayOfWeekValue : ℕ) : Bool :=
  let dayOfMonth := cron.dayOfMonth.values.contains dayOfMonthValue
  let dayOfWeek := cron.dayOfWeek.values.contains dayOfWeekValue
  -- Traditional five-field cron uses OR when both day fields are constrained.
  if cron.dayOfMonth.any && cron.dayOfWeek.any then true
  else if cron.dayOfMonth.any then dayOfWeek
  else if cron.dayOfWeek.any then dayOfMonth
  else dayOfMonth || dayOfWeek

def nextMatchingDay (cron : ParsedCron) (t : CivilMinute) : Option ℕ :=
  (List.range' t.day (monthLength t.year t.month + 1 - t.day)).find? fun day =>
    matchesDay cron day (weekday t.year t.month day)

/-- What one round of the search does: go round again with a new candidate, or return it. -/
inductive Round where
  | again (candidate : CivilMinute)
  | found (candidate : CivilMinute)
deriving DecidableEq, Repr

def minuteRound (cron : ParsedCron) (t : CivilMinute) : Round :=
  match nextValue cron.minute.values t.minute with
  | none => .again (setUTCHours t (t.hour + 1))
  | some minute => .found { t with minute := minute }

def hourRound (cron : ParsedCron) (t : CivilMinute) : Round :=
  match nextValue cron.hour.values t.hour with
  | none => .again (midnightOf t.year t.month (t.day + 1))
  | some hour => minuteRound cron (if hour ≠ t.hour then setUTCHours t hour else t)

def dayRound (cron : ParsedCron) (t : CivilMinute) : Round :=
  match nextMatchingDay cron t with
  | none => .again (resetToMonth t.year (t.month + 1))
  | some day => hourRound cron (if day ≠ t.day then midnightOf t.year t.month day else t)

def monthRound (cron : ParsedCron) (t : CivilMinute) : Round :=
  match nextValue cron.month.values t.month with
  | none => .again (resetToMonth (t.year + 1) (firstValue cron.month.values))
  | some month => dayRound cron (if month ≠ t.month then resetToMonth t.year month else t)

def search (cron : ParsedCron) (finalYear : ℕ) : ℕ → CivilMinute → Option CivilMinute
  | 0, _ => none
  | rounds + 1, candidate =>
    if candidate.year ≤ finalYear then
      match monthRound cron candidate with
      | .again candidate => search cron finalYear rounds candidate
      | .found candidate => some candidate
    else none

def roundBound (finalYear : ℕ) : ℕ :=
  (finalYear + 1) * 13 * 32 * 24 * 60

def nextOccurrence (cron : ParsedCron) (after : UtcInstant) : Option CivilMinute :=
  let candidate := addMinute after.minute
  let finalYear := candidate.year + 8
  search cron finalYear (roundBound finalYear) candidate

/-- The instant `nextCronOccurrence` formats. -/
def nextCronInstant (expression after : String) : Option CivilMinute := do
  let instant ← parseUtcTimestamp after
  let cron ← parseCron expression
  nextOccurrence cron instant

def nextCronOccurrence (expression after : String) : Option String :=
  (nextCronInstant expression after).map toISOString

end AutoHarness.Schedule

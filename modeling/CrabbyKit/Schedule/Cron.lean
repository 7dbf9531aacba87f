import CrabbyKit.Session.Types

/-!
# Cron expressions

The parser and the search of `scheduling/cron.ts`. What `Intl.DateTimeFormat` knows of
time zones is a parameter: the offset of each zone's wall clock, in minutes, at each
minute since the epoch. Errors carry the text of the thrown `Error`.
-/

namespace CrabbyKit.Cron

/-- The offset function of a time zone, for the names that are time zones. -/
abbrev Zones := String → Option (Int → Int)

structure CronFields where
  minutes : List Nat
  hours : List Nat
  daysOfMonth : List Nat
  months : List Nat
  daysOfWeek : List Nat
  deriving DecidableEq, Repr

structure DateFields where
  month : Nat
  day : Nat
  dayOfWeek : Nat
  hour : Nat
  minute : Nat
  deriving DecidableEq, Repr

/-- A character of `\s`. -/
def isSpace (c : Char) : Bool :=
  c.toNat ∈ [9, 10, 11, 12, 13, 32, 160, 5760, 8232, 8233, 8239, 8287, 12288, 65279] ||
    (8192 ≤ c.toNat && c.toNat ≤ 8202)

/-- `expr.trim().split(/\s+/)`. -/
def splitSpaces (expr : List Char) : List (List Char) :=
  match (expr.splitOnP isSpace).filter (· ≠ []) with
  | [] => [[]]
  | parts => parts

/-- A digit of `\d`. -/
def isDigit (c : Char) : Bool := '0' ≤ c && c ≤ '9'

def digitsValue (digits : List Char) : Nat :=
  digits.foldl (fun n c => 10 * n + (c.toNat - '0'.toNat)) 0

/-- `Number.parseInt(text, 10)`: a sign and the digits in front; none is `NaN`. -/
def parseInt (text : List Char) : Option Int :=
  let unsigned (text : List Char) : Option Int :=
    match text.takeWhile isDigit with
    | [] => none
    | digits => some (digitsValue digits)
  match text.dropWhile isSpace with
  | '-' :: rest => (unsigned rest).map Neg.neg
  | '+' :: rest => unsigned rest
  | rest => unsigned rest

/-- The text of a number in an error message. -/
def showNumber : Option Int → String
  | none => "NaN"
  | some n => toString n

/-- A digit run followed by one of the unit letters, the whole text. -/
def matchQuantity (units : List Char) (text : List Char) : Option (Nat × Char) :=
  match text.takeWhile isDigit, text.dropWhile isDigit with
  | [], _ => none
  | digits, [unit] => if unit ∈ units then some (digitsValue digits, unit) else none
  | _, _ => none

/-- `INTERVAL_PATTERN.test(cron)`. -/
def isInterval (cron : List Char) : Bool := (matchQuantity ['m', 'h'] cron).isSome

def intervalToCron (interval : List Char) : Except String (List Char) :=
  match matchQuantity ['m', 'h'] interval with
  | none =>
    .error s!"Invalid interval: \"{String.ofList interval}\". Use format like \"30m\" or \"2h\"."
  | some (value, unit) =>
    if unit = 'm' then
      if value < 1 ∨ 59 < value then
        .error s!"Minute interval must be between 1 and 59, got {value}"
      else .ok s!"*/{value} * * * *".toList
    else if value < 1 ∨ 23 < value then
      .error s!"Hour interval must be between 1 and 23, got {value}"
    else .ok s!"0 */{value} * * *".toList

/-- The expiry that lies a duration after an instant. -/
def expiresAtFromDuration (duration : String) (start : Instant) : Except String Instant :=
  match matchQuantity ['m', 'h', 'd'] duration.toList with
  | none => .error s!"Invalid duration: \"{duration}\". Use format like \"15m\", \"3h\", or \"7d\"."
  | some (value, unit) =>
    let ms : Int :=
      if unit = 'm' then value * 60 * 1000
      else if unit = 'h' then value * 60 * 60 * 1000
      else value * 24 * 60 * 60 * 1000
    .ok (start + ms)

def dayNames : List (String × Nat) :=
  [("SUN", 0), ("MON", 1), ("TUE", 2), ("WED", 3), ("THU", 4), ("FRI", 5), ("SAT", 6)]

def monthNames : List (String × Nat) :=
  [("JAN", 1), ("FEB", 2), ("MAR", 3), ("APR", 4), ("MAY", 5), ("JUN", 6), ("JUL", 7), ("AUG", 8),
    ("SEP", 9), ("OCT", 10), ("NOV", 11), ("DEC", 12)]

/-- A letter of `[A-Z]` in either case. -/
def isLetter (c : Char) : Bool := ('A' ≤ c && c ≤ 'Z') || ('a' ≤ c && c ≤ 'z')

/-- Replace every run of three letters by the number it names. -/
def resolveNames (names : List (String × Nat)) : List Char → Except String (List Char)
  | a :: b :: c :: rest =>
    if isLetter a && isLetter b && isLetter c then
      match names.lookup (String.ofList [a.toUpper, b.toUpper, c.toUpper]) with
      | none => .error s!"Unknown name: {String.ofList [a, b, c]}"
      | some value => (resolveNames names rest).map ((toString value).toList ++ ·)
    else (resolveNames names (b :: c :: rest)).map (a :: ·)
  | rest => .ok rest

/-- The values `start`, `start + step`, ... up to `max`. -/
def stepValues (start max step : Nat) : List Nat :=
  List.range' start ((max - start) / step + 1) step

/-- The values of one item of a field. -/
def parsePart (min max : Nat) (part : List Char) : Except String (List Nat) :=
  if part = ['*'] then .ok (stepValues min max 1)
  else if '/' ∈ part then
    let pieces := part.splitOnP (· = '/')
    let rangeStr := pieces[0]?.getD []
    let stepStr := pieces[1]?.getD []
    match parseInt stepStr with
    | none => .error s!"Invalid step value: {String.ofList stepStr}"
    | some step =>
      if step ≤ 0 then .error s!"Invalid step value: {String.ofList stepStr}"
      else
        let start := if rangeStr = ['*'] then some (min : Int) else parseInt rangeStr
        match start with
        | none => .error s!"Value {showNumber start} out of range {min}-{max}"
        | some n =>
          if n < min ∨ (max : Int) < n then
            .error s!"Value {showNumber start} out of range {min}-{max}"
          else .ok (stepValues n.toNat max step.toNat)
  else if '-' ∈ part then
    let pieces := part.splitOnP (· = '-')
    match parseInt (pieces[0]?.getD []), parseInt (pieces[1]?.getD []) with
    | some start, some stop =>
      if start < min ∨ (max : Int) < stop ∨ stop < start then
        .error s!"Invalid range: {String.ofList part} (valid: {min}-{max})"
      else .ok (stepValues start.toNat stop.toNat 1)
    | _, _ => .error s!"Invalid range: {String.ofList part} (valid: {min}-{max})"
  else
    match parseInt part with
    | none => .error s!"Value {String.ofList part} out of range {min}-{max}"
    | some n =>
      if n < min ∨ (max : Int) < n then
        .error s!"Value {String.ofList part} out of range {min}-{max}"
      else .ok [n.toNat]

def fieldNames (max : Nat) : List (String × Nat) :=
  if max = 7 then dayNames else if max = 12 then monthNames else []

/-- The values of a field; on the day of week 7 is 0. -/
def parseField (field : List Char) (min max : Nat) : Except String (List Nat) := do
  let names := fieldNames max
  let resolved ← if names = [] then .ok field else resolveNames names field
  let values ← (resolved.splitOnP (· = ',')).mapM (parsePart min max)
  let values := values.flatten
  if max = 7 ∧ 7 ∈ values then return values.filter (· ≠ 7) ++ [0] else return values

def parseCron (expr : List Char) : Except String CronFields :=
  match splitSpaces expr with
  | [minute, hour, dayOfMonth, month, dayOfWeek] => do
    return {
      minutes := ← parseField minute 0 59
      hours := ← parseField hour 0 23
      daysOfMonth := ← parseField dayOfMonth 1 31
      months := ← parseField month 1 12
      daysOfWeek := ← parseField dayOfWeek 0 7 }
  | parts => .error s!"Invalid cron expression: expected 5 fields, got {parts.length}"

def resolveInterval (cron : List Char) : Except String (List Char) :=
  if isInterval cron then intervalToCron cron else .ok cron

/-- Month and day of month of a day since the epoch, in the Gregorian calendar: years are
counted from March, in cycles of 400 years. -/
def monthAndDay (day : Int) : Nat × Nat :=
  let dayOfEra := ((day + 719468) % 146097).toNat
  let yearOfEra :=
    (dayOfEra - dayOfEra / 1460 + dayOfEra / 36524 - dayOfEra / 146096) / 365
  let dayOfYear := dayOfEra - (365 * yearOfEra + yearOfEra / 4 - yearOfEra / 100)
  let marchMonth := (5 * dayOfYear + 2) / 153
  (if marchMonth < 10 then marchMonth + 3 else marchMonth - 9,
    dayOfYear - (153 * marchMonth + 2) / 5 + 1)

/-- The date fields a wall clock shows a number of minutes after its epoch. -/
def getFields (minutes : Int) : DateFields :=
  let day := minutes / 1440
  { month := (monthAndDay day).1
    day := (monthAndDay day).2
    dayOfWeek := ((day + 4) % 7).toNat
    hour := (minutes / 60 % 24).toNat
    minute := (minutes % 60).toNat }

def maxIterations : Nat := 366 * 24 * 60

/-- The search from a minute on, with the iterations left. -/
def search (fields : CronFields) (offset : Int → Int) : Nat → Int → Option Int
  | 0, _ => none
  | left + 1, d =>
    let f := getFields (d + offset d)
    if f.month ∉ fields.months then
      search fields offset left (d + ((23 - f.hour) * 60 + (60 - f.minute) : Int))
    else if f.day ∉ fields.daysOfMonth ∨ f.dayOfWeek ∉ fields.daysOfWeek then
      search fields offset left (d + ((23 - f.hour) * 60 + (60 - f.minute) : Int))
    else if f.hour ∉ fields.hours then search fields offset left (d + (60 - f.minute : Int))
    else if f.minute ∉ fields.minutes then search fields offset left (d + 1)
    else some d

/-- The offset function of an optional time zone; without one the clock is UTC. -/
def zoneOffset (zones : Zones) (timezone : Option String) : Except String (Int → Int) :=
  match timezone with
  | none => .ok fun _ => 0
  | some name =>
    if name = "" then .ok fun _ => 0
    else
      match zones name with
      | none => .error s!"Invalid time zone specified: {name}"
      | some offset => .ok offset

def minuteMillis : Int := 60000

/-- The first matching minute after an instant. -/
def computeNext (zones : Zones) (fields : CronFields) (start : Instant) (timezone : Option String) :
    Except String Instant := do
  let offset ← zoneOffset zones timezone
  match search fields offset maxIterations (start / minuteMillis + 1) with
  | none => .error "Could not find next fire time within one year"
  | some d => .ok (d * minuteMillis)

def nextFireTime (zones : Zones) (cron : String) (start : Instant) (timezone : Option String) :
    Except String Instant := do
  let resolved ← resolveInterval cron.toList
  let fields ← parseCron resolved
  computeNext zones fields start timezone

section Search

variable {fields : CronFields} {offset : Int → Int}

theorem getFields_hour (minutes : Int) : (getFields minutes).hour < 24 := by
  unfold getFields
  simp only
  omega

theorem getFields_minute (minutes : Int) : (getFields minutes).minute < 60 := by
  unfold getFields
  simp only
  omega

theorem search_ge {left : Nat} {d found : Int} (h : search fields offset left d = some found) :
    d ≤ found := by
  induction left generalizing d with
  | zero => cases h
  | succ left ih =>
    have hhour := getFields_hour (d + offset d)
    have hminute := getFields_minute (d + offset d)
    unfold search at h
    simp only at h
    by_cases hmonth : (getFields (d + offset d)).month ∉ fields.months
    · rw [if_pos hmonth] at h
      have hnext := ih h
      omega
    · rw [if_neg hmonth] at h
      by_cases hday : (getFields (d + offset d)).day ∉ fields.daysOfMonth ∨
          (getFields (d + offset d)).dayOfWeek ∉ fields.daysOfWeek
      · rw [if_pos hday] at h
        have hnext := ih h
        omega
      · rw [if_neg hday] at h
        by_cases hh : (getFields (d + offset d)).hour ∉ fields.hours
        · rw [if_pos hh] at h
          have hnext := ih h
          omega
        · rw [if_neg hh] at h
          by_cases hm : (getFields (d + offset d)).minute ∉ fields.minutes
          · rw [if_pos hm] at h
            have hnext := ih h
            omega
          · rw [if_neg hm] at h
            cases h
            exact Int.le_refl _

theorem bind_ok {α β : Type} {x : Except String α} {f : α → Except String β} {b : β}
    (h : x >>= f = .ok b) : ∃ a, x = .ok a ∧ f a = .ok b := by
  cases x with
  | error e => cases h
  | ok a => exact ⟨a, rfl, h⟩

theorem lt_mul_minuteMillis {start d : Int} (h : start / minuteMillis + 1 ≤ d) :
    start < d * minuteMillis := by
  unfold minuteMillis at h ⊢
  omega

theorem computeNext_gt {zones : Zones} {start next : Instant} {timezone : Option String}
    (h : computeNext zones fields start timezone = .ok next) : start < next := by
  unfold computeNext at h
  obtain ⟨offset, -, hnext⟩ := bind_ok h
  cases hsearch : search fields offset maxIterations (start / minuteMillis + 1) with
  | none =>
    rw [hsearch] at hnext
    cases hnext
  | some d =>
    rw [hsearch] at hnext
    cases hnext
    exact lt_mul_minuteMillis (search_ge hsearch)

theorem nextFireTime_gt {zones : Zones} {cron : String} {start next : Instant}
    {timezone : Option String} (h : nextFireTime zones cron start timezone = .ok next) :
    start < next := by
  unfold nextFireTime at h
  obtain ⟨resolved, -, hparse⟩ := bind_ok h
  obtain ⟨fields, -, hnext⟩ := bind_ok hparse
  exact computeNext_gt hnext

end Search

end CrabbyKit.Cron

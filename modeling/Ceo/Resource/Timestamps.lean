import Ceo.Lib.Matcher
import Ceo.Lib.Calendar
import Ceo.Lib.Guard
import Mathlib.Tactic.IntervalCases

/-!
# Resource timestamps

`parseResourceTimestamp` (`resource/timestamps.ts`), with the operations of
`Date` it goes through. A `Stamp` is what a timestamp says: a day of the
calendar, a time of the day and an offset, in one of the four forms.
-/

namespace Ceo.Resource.Timestamps

open Ceo.Lib Ceo.Lib.Matcher
open Ceo.Lib.Pattern (digit chr)

/-! ### dates of ECMAScript -/

def msPerDay : Int := 86400000

/-- The days from the epoch to the year. -/
def dayFromYear (y : Int) : Int :=
  365 * (y - 1970) + (y - 1969) / 4 - (y - 1901) / 100 + (y - 1601) / 400

def daysInYear (y : Int) : Int :=
  if y % 4 ≠ 0 then 365
  else if y % 100 ≠ 0 then 366
  else if y % 400 ≠ 0 then 365
  else 366

/-- The day of the year on which a month starts, January being 0. -/
def monthStart (leap : Int) (month : Int) : Int :=
  if month = 0 then 0
  else if month = 1 then 31
  else if month = 2 then 59 + leap
  else if month = 3 then 90 + leap
  else if month = 4 then 120 + leap
  else if month = 5 then 151 + leap
  else if month = 6 then 181 + leap
  else if month = 7 then 212 + leap
  else if month = 8 then 243 + leap
  else if month = 9 then 273 + leap
  else if month = 10 then 304 + leap
  else 334 + leap

/-- Months past December run into the next years, and days past a month into the next months. -/
def makeDay (year month date : Int) : Int :=
  let y := year + month / 12
  dayFromYear y + monthStart (daysInYear y - 365) (month % 12) + date - 1

def makeTime (hour min sec ms : Int) : Int := hour * 3600000 + min * 60000 + sec * 1000 + ms

def makeDate (day time : Int) : Int := day * msPerDay + time

/-- A time in milliseconds, or `NaN`. -/
abbrev TimeValue := Option Int

def timeClip (time : Int) : TimeValue :=
  if time.natAbs > 8640000000000000 then none else some time

def setUTCFullYear (t : TimeValue) (year month date : Int) : TimeValue :=
  timeClip (makeDate (makeDay year month date) (t.getD 0 % msPerDay))

def setUTCHours (t : TimeValue) (hour min sec ms : Int) : TimeValue :=
  t.bind fun time => timeClip (makeDate (time / msPerDay) (makeTime hour min sec ms))

/-! ### the parser -/

structure Details where
  value : String
  context : Option String
  deriving DecidableEq, Repr

structure CeoError where
  code : String
  message : String
  details : Details
  deriving DecidableEq, Repr

/-- The groups of `TIMESTAMP_RE`; sign, hour and minute of the offset are there together. -/
structure Groups where
  year : List Char
  month : List Char
  day : List Char
  hour : List Char
  minute : List Char
  second : List Char
  frac : Option (List Char)
  offset : Option (Char × List Char × List Char)
  deriving DecidableEq, Repr

def isSign (c : Char) : Bool := c == '+' || c == '-'

/-- `(?:\.(\d{1,3}))?` -/
def fractionRe : Matcher (Option (List Char)) :=
  Matcher.optional do
    let _ ← one (chr '.')
    let d ← one digit
    let ds ← upTo digit 2
    return d :: ds

/-- `(?:Z|([+-])(\d{2}):(\d{2}))` -/
def zoneRe : Matcher (Option (Char × List Char × List Char)) :=
  Matcher.orElse (do
    let _ ← one (chr 'Z')
    return none) (do
    let sign ← one isSign
    let hour ← times digit 2
    let _ ← one (chr ':')
    let minute ← times digit 2
    return some (sign, hour, minute))

def timestampRe : Matcher Groups := do
  let year ← times digit 4
  let _ ← one (chr '-')
  let month ← times digit 2
  let _ ← one (chr '-')
  let day ← times digit 2
  let _ ← one (chr 'T')
  let hour ← times digit 2
  let _ ← one (chr ':')
  let minute ← times digit 2
  let _ ← one (chr ':')
  let second ← times digit 2
  let frac ← fractionRe
  let offset ← zoneRe
  return ⟨year, month, day, hour, minute, second, frac, offset⟩

def isLeapYear (year : Nat) : Bool := (year % 4 == 0 && year % 100 != 0) || year % 400 == 0

def daysInMonth (year month : Nat) : Nat :=
  match month with
  | 2 => if isLeapYear year then 29 else 28
  | 4 | 6 | 9 | 11 => 30
  | _ => 31

def padStart (width : Nat) (s : String) : String :=
  String.ofList (List.replicate (width - s.length) '0') ++ s

def fail (value : String) (context : Option String) (reason : String) : CeoError :=
  let subject := match context with
    | some context => "'" ++ value ++ "' (" ++ context ++ ")"
    | none => "'" ++ value ++ "'"
  ⟨"VALIDATION_FAILED", "Invalid timestamp " ++ subject ++ ": " ++ reason ++ ".",
    ⟨value, context⟩⟩

def expectedForms : String :=
  "expected ISO-8601 with a required timezone — YYYY-MM-DDTHH:mm:ssZ, " ++
    "YYYY-MM-DDTHH:mm:ss.SSSZ, YYYY-MM-DDTHH:mm:ss±HH:mm, or YYYY-MM-DDTHH:mm:ss.SSS±HH:mm"

/-- The checks before any `Date` is made, in order. -/
def componentChecks (g : Groups) : List Guard :=
  let year := Digits.value g.year
  let month := Digits.value g.month
  let day := Digits.value g.day
  [⟨1 ≤ month && month ≤ 12, "month must be 01-12"⟩,
   ⟨1 ≤ day && day ≤ daysInMonth year month,
    "day " ++ padStart 2 (toString day) ++ " is not valid for month " ++
      padStart 2 (toString month) ++ " in year " ++ padStart 4 (toString year)⟩,
   ⟨Digits.value g.hour ≤ 23, "hour must be 00-23"⟩,
   ⟨Digits.value g.minute ≤ 59, "minute must be 00-59"⟩,
   ⟨Digits.value g.second ≤ 59, "second must be 00-59 (leap second 60 is not accepted)"⟩] ++
  match g.offset with
  | none => []
  | some (_, hour, minute) =>
    [⟨Digits.value hour ≤ 23, "offset hour must be 00-23"⟩,
     ⟨Digits.value minute ≤ 59, "offset minute must be 00-59"⟩]

/-- `.1` is 100 ms, `.12` is 120 ms, `.123` is 123 ms. -/
def fractionMs : Option (List Char) → Nat
  | none => 0
  | some frac =>
    if frac.length = 1 then Digits.value frac * 100
    else if frac.length = 2 then Digits.value frac * 10
    else Digits.value frac

def offsetMs : Option (Char × List Char × List Char) → Int
  | none => 0
  | some (_, hour, minute) => (Digits.value hour * 60 + Digits.value minute) * 60000

def epochMs (g : Groups) : TimeValue :=
  let utc := setUTCFullYear (some 0) (Digits.value g.year) (Digits.value g.month - 1)
    (Digits.value g.day)
  let utc := setUTCHours utc (Digits.value g.hour) (Digits.value g.minute) (Digits.value g.second)
    (fractionMs g.frac)
  match g.offset with
  | some ('+', _, _) => utc.map (· - offsetMs g.offset)
  | some ('-', _, _) => utc.map (· + offsetMs g.offset)
  | _ => utc

def parseResourceTimestamp (value : String) (context : Option String) :
    Except CeoError TimeValue :=
  match timestampRe.exec value with
  | none => .error (fail value context expectedForms)
  | some (text, g) =>
    if text.length ≠ value.length then .error (fail value context expectedForms)
    else
      match Guard.run (componentChecks g) with
      | .error reason => .error (fail value context reason)
      | .ok () => .ok (epochMs g)

/-! ### what a timestamp says -/

inductive Zone where
  | utc
  /-- The clock is ahead of UTC by so much, or behind it. -/
  | offset (ahead : Bool) (hours minutes : Nat) (range : hours ≤ 23 ∧ minutes ≤ 59)

structure Stamp where
  date : CivilDate
  hour : Nat
  minute : Nat
  second : Nat
  /-- The digits of the fraction of a second, none where there is none. -/
  fraction : List Char
  zone : Zone
  year_range : date.year ≤ 9999
  time_range : hour ≤ 23 ∧ minute ≤ 59 ∧ second ≤ 59
  fraction_digits : fraction.length ≤ 3 ∧ ∀ c ∈ fraction, digit c = true

def Zone.text : Zone → List Char
  | .utc => ['Z']
  | .offset ahead hours minutes _ =>
    (if ahead then '+' else '-') :: Digits.padded 2 hours ++ ':' :: Digits.padded 2 minutes

/-- How far the clock is ahead of UTC, in milliseconds. -/
def Zone.shift : Zone → Int
  | .utc => 0
  | .offset true hours minutes _ => (hours * 60 + minutes) * 60000
  | .offset false hours minutes _ => -((hours * 60 + minutes) * 60000)

namespace Stamp

/-- The four forms. -/
def text (s : Stamp) : String :=
  String.ofList (Digits.padded 4 s.date.year ++ '-' :: Digits.padded 2 s.date.month ++
    '-' :: Digits.padded 2 s.date.day ++ 'T' :: Digits.padded 2 s.hour ++
    ':' :: Digits.padded 2 s.minute ++ ':' :: Digits.padded 2 s.second ++
    (if s.fraction = [] then [] else '.' :: s.fraction) ++ s.zone.text)

/-- The clock's time, in milliseconds from 1 January 1970. -/
def clock (s : Stamp) : Int :=
  s.date.epochDay * 86400000 + s.hour * 3600000 + s.minute * 60000 + s.second * 1000 +
    Digits.value s.fraction * 10 ^ (3 - s.fraction.length)

def instant (s : Stamp) : Int := s.clock - s.zone.shift

end Stamp

/-! ### the grammar -/

/-- The digits are as many as the expression asks for. -/
structure Groups.WellFormed (g : Groups) : Prop where
  year : g.year.length = 4 ∧ ∀ c ∈ g.year, digit c = true
  month : g.month.length = 2 ∧ ∀ c ∈ g.month, digit c = true
  day : g.day.length = 2 ∧ ∀ c ∈ g.day, digit c = true
  hour : g.hour.length = 2 ∧ ∀ c ∈ g.hour, digit c = true
  minute : g.minute.length = 2 ∧ ∀ c ∈ g.minute, digit c = true
  second : g.second.length = 2 ∧ ∀ c ∈ g.second, digit c = true
  frac : ∀ ds, g.frac = some ds → 1 ≤ ds.length ∧ ds.length ≤ 3 ∧ ∀ c ∈ ds, digit c = true
  offset : ∀ sign hour minute, g.offset = some (sign, hour, minute) → isSign sign = true ∧
    (hour.length = 2 ∧ ∀ c ∈ hour, digit c = true) ∧
    (minute.length = 2 ∧ ∀ c ∈ minute, digit c = true)

def fractionText : Option (List Char) → List Char
  | none => []
  | some ds => '.' :: ds

def zoneText : Option (Char × List Char × List Char) → List Char
  | none => ['Z']
  | some (sign, hour, minute) => sign :: (hour ++ ':' :: minute)

def Groups.text (g : Groups) : List Char :=
  g.year ++ '-' :: g.month ++ '-' :: g.day ++ 'T' :: g.hour ++ ':' :: g.minute ++
    ':' :: g.second ++ fractionText g.frac ++ zoneText g.offset

section grammar

variable {cs rest : List Char}

theorem mem_fractionRe {o : Option (List Char)} : (o, rest) ∈ fractionRe cs ↔
    (∀ ds, o = some ds → 1 ≤ ds.length ∧ ds.length ≤ 3 ∧ ∀ c ∈ ds, digit c = true) ∧
      cs = fractionText o ++ rest := by
  simp only [fractionRe, mem_optional, mem_bind, mem_one, mem_upTo, mem_pure]
  constructor
  · rintro (⟨_, rfl, dot, _, ⟨hdot, rfl⟩, d, _, ⟨hd, rfl⟩, ds, _, ⟨hn, hds, rfl⟩, rfl, rfl⟩ |
      ⟨rfl, rfl⟩)
    · obtain rfl : dot = '.' := by simpa [chr] using hdot
      refine ⟨?_, rfl⟩
      rintro _ ⟨⟩
      exact ⟨Nat.succ_pos _, Nat.succ_le_succ hn, List.forall_mem_cons.2 ⟨hd, hds⟩⟩
    · exact ⟨fun _ h => (by cases h), rfl⟩
  · rintro ⟨hds, rfl⟩
    cases o with
    | none => exact .inr ⟨rfl, rfl⟩
    | some ds =>
      obtain ⟨lo, hi, hds⟩ := hds ds rfl
      cases ds with
      | nil => cases lo
      | cons d ds =>
        rw [List.forall_mem_cons] at hds
        exact .inl ⟨d :: ds, rfl, '.', _, ⟨by simp [chr], rfl⟩, d, _, ⟨hds.1, rfl⟩, ds, rest,
          ⟨Nat.le_of_succ_le_succ hi, hds.2, rfl⟩, rfl, rfl⟩

theorem mem_zoneRe {o : Option (Char × List Char × List Char)} : (o, rest) ∈ zoneRe cs ↔
    (∀ sign hour minute, o = some (sign, hour, minute) → isSign sign = true ∧
      (hour.length = 2 ∧ ∀ c ∈ hour, digit c = true) ∧
      (minute.length = 2 ∧ ∀ c ∈ minute, digit c = true)) ∧ cs = zoneText o ++ rest := by
  simp only [zoneRe, mem_orElse, mem_bind, mem_one, mem_times, mem_pure]
  constructor
  · rintro (⟨z, _, ⟨hz, rfl⟩, rfl, rfl⟩ | ⟨sign, _, ⟨hs, rfl⟩, hour, _, ⟨hh, hhd, rfl⟩, colon, _,
      ⟨hc, rfl⟩, minute, _, ⟨hm, hmd, rfl⟩, rfl, rfl⟩)
    · obtain rfl : z = 'Z' := by simpa [chr] using hz
      exact ⟨fun _ _ _ h => (by cases h), rfl⟩
    · obtain rfl : colon = ':' := by simpa [chr] using hc
      refine ⟨?_, by simp [zoneText]⟩
      rintro _ _ _ ⟨⟩
      exact ⟨hs, ⟨hh, hhd⟩, hm, hmd⟩
  · rintro ⟨ho, rfl⟩
    match o with
    | none => exact .inl ⟨'Z', _, ⟨by simp [chr], rfl⟩, rfl, rfl⟩
    | some (sign, hour, minute) =>
      obtain ⟨hs, ⟨hh, hhd⟩, hm, hmd⟩ := ho sign hour minute rfl
      exact .inr ⟨sign, _, ⟨hs, rfl⟩, hour, ':' :: minute ++ rest, ⟨hh, hhd, by simp⟩, ':', _,
        ⟨by simp [chr], rfl⟩, minute, rest, ⟨hm, hmd, rfl⟩, rfl, rfl⟩

/-- The expression matches the texts of well-formed groups. -/
theorem mem_timestampRe {g : Groups} :
    (g, []) ∈ timestampRe cs ↔ g.WellFormed ∧ cs = g.text := by
  simp only [timestampRe, mem_bind, mem_one, mem_times, mem_pure, mem_fractionRe, mem_zoneRe]
  constructor
  · rintro ⟨year, _, ⟨hy, hyd, rfl⟩, c₁, _, ⟨h₁, rfl⟩, month, _, ⟨hmo, hmod, rfl⟩, c₂, _, ⟨h₂, rfl⟩,
      day, _, ⟨hd, hdd, rfl⟩, c₃, _, ⟨h₃, rfl⟩, hour, _, ⟨hh, hhd, rfl⟩, c₄, _, ⟨h₄, rfl⟩,
      minute, _, ⟨hm, hmd, rfl⟩, c₅, _, ⟨h₅, rfl⟩, second, _, ⟨hs, hsd, rfl⟩,
      frac, _, ⟨hf, rfl⟩, offset, _, ⟨hz, rfl⟩, rfl, rfl⟩
    simp only [chr, beq_iff_eq] at h₁ h₂ h₃ h₄ h₅
    subst h₁ h₂ h₃ h₄ h₅
    exact ⟨⟨⟨hy, hyd⟩, ⟨hmo, hmod⟩, ⟨hd, hdd⟩, ⟨hh, hhd⟩, ⟨hm, hmd⟩, ⟨hs, hsd⟩, hf, hz⟩,
      by simp [Groups.text]⟩
  · rintro ⟨wf, rfl⟩
    refine ⟨g.year, _, ⟨wf.year.1, wf.year.2, ?_⟩, '-', _, ⟨by simp [chr], rfl⟩,
      g.month, _, ⟨wf.month.1, wf.month.2, rfl⟩, '-', _, ⟨by simp [chr], rfl⟩,
      g.day, _, ⟨wf.day.1, wf.day.2, rfl⟩, 'T', _, ⟨by simp [chr], rfl⟩,
      g.hour, _, ⟨wf.hour.1, wf.hour.2, rfl⟩, ':', _, ⟨by simp [chr], rfl⟩,
      g.minute, _, ⟨wf.minute.1, wf.minute.2, rfl⟩, ':', _, ⟨by simp [chr], rfl⟩,
      g.second, _, ⟨wf.second.1, wf.second.2, rfl⟩, g.frac, _, ⟨wf.frac, rfl⟩,
      g.offset, [], ⟨wf.offset, rfl⟩, rfl, rfl⟩
    simp [Groups.text]

theorem zoneText_inj {z z' : Option (Char × List Char × List Char)}
    (hz : ∀ sign hour minute, z = some (sign, hour, minute) → isSign sign = true ∧ hour.length = 2)
    (hz' : ∀ sign hour minute, z' = some (sign, hour, minute) → isSign sign = true ∧ hour.length = 2)
    (h : zoneText z = zoneText z') : z = z' := by
  match z, z' with
  | none, none => rfl
  | none, some (sign, hour, minute) =>
    obtain ⟨rfl, -⟩ := List.cons.inj h
    cases (hz' _ _ _ rfl).1
  | some (sign, hour, minute), none =>
    obtain ⟨rfl, -⟩ := List.cons.inj h
    cases (hz _ _ _ rfl).1
  | some (sign, hour, minute), some (sign', hour', minute') =>
    obtain ⟨rfl, h₁⟩ := List.cons.inj h
    obtain ⟨rfl, h₂⟩ := List.append_inj h₁ ((hz _ _ _ rfl).2.trans (hz' _ _ _ rfl).2.symm)
    obtain ⟨-, rfl⟩ := List.cons.inj h₂
    rfl

/-- No text has well-formed groups twice. -/
theorem Groups.WellFormed.unique {g g' : Groups} (wf : g.WellFormed) (wf' : g'.WellFormed)
    (h : g.text = g'.text) : g = g' := by
  obtain ⟨year, month, day, hour, minute, second, frac, offset⟩ := g
  obtain ⟨year', month', day', hour', minute', second', frac', offset'⟩ := g'
  simp only [Groups.text, List.append_assoc, List.cons_append] at h
  obtain ⟨rfl, h₁⟩ := List.append_inj h (wf.year.1.trans wf'.year.1.symm)
  obtain ⟨rfl, h₂⟩ := List.append_inj (List.cons.inj h₁).2 (wf.month.1.trans wf'.month.1.symm)
  obtain ⟨rfl, h₃⟩ := List.append_inj (List.cons.inj h₂).2 (wf.day.1.trans wf'.day.1.symm)
  obtain ⟨rfl, h₄⟩ := List.append_inj (List.cons.inj h₃).2 (wf.hour.1.trans wf'.hour.1.symm)
  obtain ⟨rfl, h₅⟩ := List.append_inj (List.cons.inj h₄).2 (wf.minute.1.trans wf'.minute.1.symm)
  obtain ⟨rfl, h₆⟩ := List.append_inj (List.cons.inj h₅).2 (wf.second.1.trans wf'.second.1.symm)
  have zone : zoneText offset = zoneText offset' → offset = offset' :=
    zoneText_inj (fun _ _ _ hz => (wf.offset _ _ _ hz).imp_right (·.1.1))
      (fun _ _ _ hz => (wf'.offset _ _ _ hz).imp_right (·.1.1))
  -- the fraction starts with a point, the zone does not
  have head {z} (hz : ∀ sign hour minute, z = some (sign, hour, minute) → isSign sign = true)
      {ds tail : List Char} : zoneText z ≠ '.' :: ds ++ tail := by
    intro hd
    match z with
    | none => cases (List.cons.inj hd).1
    | some (sign, hour, minute) =>
      obtain ⟨rfl, -⟩ := List.cons.inj hd
      cases hz _ _ _ rfl
  have length {z} (hz : ∀ sign hour minute, z = some (sign, hour, minute) →
      hour.length = 2 ∧ minute.length = 2) : (zoneText z).length = 1 ∨ (zoneText z).length = 6 := by
    match z with
    | none => exact .inl rfl
    | some (sign, hour, minute) =>
      obtain ⟨hh, hm⟩ := hz _ _ _ rfl
      exact .inr (by simp [zoneText, hh, hm])
  match frac, frac' with
  | none, none => rw [zone h₆]
  | none, some ds' => exact absurd h₆ (head fun _ _ _ hz => (wf.offset _ _ _ hz).1)
  | some ds, none => exact absurd h₆.symm (head fun _ _ _ hz => (wf'.offset _ _ _ hz).1)
  | some ds, some ds' =>
    obtain ⟨lo, hi, -⟩ := wf.frac _ rfl
    obtain ⟨lo', hi', -⟩ := wf'.frac _ rfl
    have l := length fun _ _ _ hz => (wf.offset _ _ _ hz).2.imp (·.1) (·.1)
    have l' := length fun _ _ _ hz => (wf'.offset _ _ _ hz).2.imp (·.1) (·.1)
    have h₇ : ds ++ zoneText offset = ds' ++ zoneText offset' := (List.cons.inj h₆).2
    have total := congrArg List.length h₇
    rw [List.length_append, List.length_append] at total
    obtain ⟨rfl, h₈⟩ := List.append_inj h₇ (by dsimp only at *; omega)
    rw [zone h₈]

theorem exec_timestampRe {value text : String} {g : Groups} :
    timestampRe.exec value = some (text, g) ↔
      text = value ∧ g.WellFormed ∧ value.toList = g.text := by
  rw [exec_eq_some, mem_timestampRe]
  intro a b ha hb
  rw [mem_timestampRe] at ha hb
  exact ha.1.unique hb.1 (ha.2.symm.trans hb.2)

end grammar

/-! ### the value -/

theorem isLeapYear_eq (year : Nat) : isLeapYear year = Calendar.isLeap year := by
  rw [Bool.eq_iff_iff, Calendar.isLeap_iff]
  simp only [isLeapYear, Bool.or_eq_true, Bool.and_eq_true, beq_iff_eq, bne_iff_ne]
  omega

theorem daysInMonth_eq (year month : Nat) :
    daysInMonth year month = Calendar.monthLength year month := by
  unfold daysInMonth Calendar.monthLength
  rw [isLeapYear_eq]
  split
  · rfl
  · rfl
  · rfl
  · rfl
  · rfl
  · rw [if_neg ‹_›, if_neg (by tauto)]

theorem dayFromYear_eq (year : Nat) :
    dayFromYear year = Calendar.daysToYear year - Calendar.daysToYear 1970 := by
  rw [Calendar.daysToYear_eq, Calendar.daysToYear_eq]
  unfold dayFromYear
  omega

theorem daysInYear_eq (year : Nat) : daysInYear year - 365 = if Calendar.isLeap year then 1 else 0 := by
  simp only [daysInYear, Calendar.isLeap_iff]
  split_ifs <;> omega

theorem monthStart_eq {year month : Nat} (lo : 1 ≤ month) (hi : month ≤ 12) :
    monthStart (if Calendar.isLeap year then 1 else 0) ((month : Int) - 1) =
      Calendar.daysOfMonths year (month - 1) := by
  cases leap : Calendar.isLeap year <;> interval_cases month <;>
    simp [monthStart, Calendar.daysOfMonths, Calendar.monthLength, leap]

theorem makeDay_eq (d : CivilDate) :
    makeDay d.year ((d.month : Int) - 1) d.day = d.epochDay := by
  obtain ⟨lo, hi⟩ := d.month_range
  have := d.day_range.1
  unfold makeDay CivilDate.epochDay
  simp only [show ((d.month : Int) - 1) / 12 = 0 by omega,
    show ((d.month : Int) - 1) % 12 = d.month - 1 by omega, add_zero]
  rw [daysInYear_eq, monthStart_eq lo hi, dayFromYear_eq]
  omega

/-- The groups of a timestamp. -/
def Zone.groups : Zone → Option (Char × List Char × List Char)
  | .utc => none
  | .offset ahead hours minutes _ =>
    some (if ahead then '+' else '-', Digits.padded 2 hours, Digits.padded 2 minutes)

namespace Stamp

def groups (s : Stamp) : Groups where
  year := Digits.padded 4 s.date.year
  month := Digits.padded 2 s.date.month
  day := Digits.padded 2 s.date.day
  hour := Digits.padded 2 s.hour
  minute := Digits.padded 2 s.minute
  second := Digits.padded 2 s.second
  frac := if s.fraction = [] then none else some s.fraction
  offset := s.zone.groups

theorem day_le (s : Stamp) : s.date.day ≤ 31 :=
  s.date.day_range.2.trans (Calendar.monthLength_le _ _)

theorem groups_wellFormed (s : Stamp) : s.groups.WellFormed where
  year := ⟨Digits.length_padded 4 _, Digits.digit_padded⟩
  month := ⟨Digits.length_padded 2 _, Digits.digit_padded⟩
  day := ⟨Digits.length_padded 2 _, Digits.digit_padded⟩
  hour := ⟨Digits.length_padded 2 _, Digits.digit_padded⟩
  minute := ⟨Digits.length_padded 2 _, Digits.digit_padded⟩
  second := ⟨Digits.length_padded 2 _, Digits.digit_padded⟩
  frac ds h := by
    obtain ⟨hne, rfl⟩ : ¬s.fraction = [] ∧ s.fraction = ds := by simpa [groups] using h
    exact ⟨List.length_pos_iff.2 hne, s.fraction_digits⟩
  offset sign hour minute h := by
    cases hz : s.zone with
    | utc => simp [groups, hz, Zone.groups] at h
    | offset ahead hours minutes range =>
      obtain ⟨rfl, rfl, rfl⟩ : (if ahead then '+' else '-') = sign ∧
          Digits.padded 2 hours = hour ∧ Digits.padded 2 minutes = minute := by
        simpa [groups, hz, Zone.groups] using h
      exact ⟨by cases ahead <;> rfl, ⟨Digits.length_padded 2 _, Digits.digit_padded⟩,
        Digits.length_padded 2 _, Digits.digit_padded⟩

theorem groups_text (s : Stamp) : s.text.toList = s.groups.text := by
  have fraction : (if s.fraction = [] then [] else '.' :: s.fraction) =
      fractionText s.groups.frac := by
    unfold groups
    split <;> rfl
  have zone : s.zone.text = zoneText s.groups.offset := by
    unfold groups
    cases s.zone <;> rfl
  unfold text
  rw [String.toList_ofList, fraction, zone]
  rfl

theorem componentChecks_groups (s : Stamp) : Guard.All (componentChecks s.groups) := by
  have day := s.day_le
  have ⟨hour, minute, second⟩ := s.time_range
  have offset : Guard.All (match s.groups.offset with
      | none => []
      | some (_, hour, minute) =>
        [⟨Digits.value hour ≤ 23, "offset hour must be 00-23"⟩,
         ⟨Digits.value minute ≤ 59, "offset minute must be 00-59"⟩]) := by
    unfold groups
    cases s.zone with
    | utc => exact Guard.all_nil
    | offset ahead hours minutes range =>
      obtain ⟨hh, hm⟩ := range
      simp [Zone.groups, Digits.value_padded (n := 2) (by omega : hours < 10 ^ 2),
        Digits.value_padded (n := 2) (by omega : minutes < 10 ^ 2), hh, hm]
  unfold componentChecks
  rw [Guard.all_append]
  refine ⟨?_, offset⟩
  have year := Digits.value_padded (n := 4) (by have := s.year_range; omega : s.date.year < 10 ^ 4)
  have month := Digits.value_padded (n := 2)
    (by have := s.date.month_range; omega : s.date.month < 10 ^ 2)
  have day := Digits.value_padded (n := 2) (by omega : s.date.day < 10 ^ 2)
  simp only [groups, year, month, day, daysInMonth_eq,
    Digits.value_padded (n := 2) (by omega : s.hour < 10 ^ 2),
    Digits.value_padded (n := 2) (by omega : s.minute < 10 ^ 2),
    Digits.value_padded (n := 2) (by omega : s.second < 10 ^ 2)]
  simp [s.date.month_range, s.date.day_range, hour, minute, second]

theorem fractionMs_groups (s : Stamp) :
    fractionMs s.groups.frac = Digits.value s.fraction * 10 ^ (3 - s.fraction.length) := by
  have := s.fraction_digits.1
  unfold groups
  match hf : s.fraction with
  | [] => rfl
  | [a] => rfl
  | [a, b] => rfl
  | [a, b, c] => simp [fractionMs]
  | a :: b :: c :: d :: _ =>
    simp only [hf, List.length_cons] at this
    omega

theorem value_fraction_lt (s : Stamp) :
    Digits.value s.fraction * 10 ^ (3 - s.fraction.length) < 1000 := by
  calc _ < 10 ^ s.fraction.length * 10 ^ (3 - s.fraction.length) :=
        Nat.mul_lt_mul_of_pos_right (Digits.value_lt s.fraction_digits.2) (by positivity)
    _ = 10 ^ 3 := by rw [← pow_add, Nat.add_sub_cancel' s.fraction_digits.1]

/-- Four digits of the year keep far from the ends of `Date`. -/
theorem epochDay_range (s : Stamp) : -800000 ≤ s.date.epochDay ∧ s.date.epochDay ≤ 4000000 := by
  have year := s.year_range
  have day := s.day_le
  have months := Calendar.daysOfMonths_le s.date.year (s.date.month - 1)
  have month := s.date.month_range
  have day_pos := s.date.day_range.1
  unfold CivilDate.epochDay
  rw [Calendar.daysToYear_eq, Calendar.daysToYear_eq]
  omega

theorem epochMs_groups (s : Stamp) : epochMs s.groups = some s.instant := by
  obtain ⟨lo, hi⟩ := s.epochDay_range
  have hour := s.time_range.1
  have minute := s.time_range.2.1
  have second := s.time_range.2.2
  have day := s.day_le
  have fraction := s.value_fraction_lt
  have clip {t : Int} (h₁ : -8640000000000000 ≤ t) (h₂ : t ≤ 8640000000000000) :
      timeClip t = some t := if_neg (by omega)
  have date : setUTCFullYear (some 0) (Digits.value s.groups.year)
      (Digits.value s.groups.month - 1) (Digits.value s.groups.day) =
        some (s.date.epochDay * 86400000) := by
    simp only [groups,
      Digits.value_padded (n := 4) (by have := s.year_range; omega : s.date.year < 10 ^ 4),
      Digits.value_padded (n := 2) (by have := s.date.month_range; omega : s.date.month < 10 ^ 2),
      Digits.value_padded (n := 2) (by omega : s.date.day < 10 ^ 2)]
    unfold setUTCFullYear makeDate msPerDay
    rw [makeDay_eq, Option.getD_some, Int.zero_emod, add_zero]
    exact clip (by omega) (by omega)
  have clock : setUTCHours (some (s.date.epochDay * 86400000)) (Digits.value s.groups.hour)
      (Digits.value s.groups.minute) (Digits.value s.groups.second)
      (fractionMs s.groups.frac) = some s.clock := by
    rw [fractionMs_groups]
    simp only [groups, Digits.value_padded (n := 2) (by omega : s.hour < 10 ^ 2),
      Digits.value_padded (n := 2) (by omega : s.minute < 10 ^ 2),
      Digits.value_padded (n := 2) (by omega : s.second < 10 ^ 2)]
    unfold setUTCHours makeDate makeTime msPerDay Stamp.clock
    rw [Option.bind_some, Int.mul_ediv_cancel _ (by decide), clip (by omega) (by omega)]
    congr 1
    push_cast
    omega
  unfold epochMs instant
  simp only [date, clock]
  unfold groups
  cases s.zone with
  | utc => simp [Zone.groups, Zone.shift]
  | offset ahead hours minutes range =>
    have value : offsetMs (Zone.offset ahead hours minutes range).groups =
        (hours * 60 + minutes) * 60000 := by
      obtain ⟨hh, hm⟩ := range
      simp [offsetMs, Zone.groups, Digits.value_padded (n := 2) (by omega : hours < 10 ^ 2),
        Digits.value_padded (n := 2) (by omega : minutes < 10 ^ 2)]
    cases ahead with
    | true => exact congrArg some (congrArg (s.clock - ·) value)
    | false =>
      refine congrArg some ?_
      rw [value]
      simp [Zone.shift]

end Stamp

/-- Groups that pass the checks are those of a timestamp. -/
theorem Groups.WellFormed.exists_stamp {g : Groups} (wf : g.WellFormed)
    (h : Guard.All (componentChecks g)) : ∃ s : Stamp, s.groups = g := by
  obtain ⟨year, month, day, hour, minute, second, frac, offset⟩ := g
  unfold componentChecks at h
  rw [Guard.all_append] at h
  obtain ⟨main, zone⟩ := h
  simp only [Guard.all_cons, Guard.all_nil, Bool.and_eq_true, decide_eq_true_eq, and_true,
    daysInMonth_eq] at main
  obtain ⟨hmonth, hday, hhour, hminute, hsecond⟩ := main
  have hyear : Digits.value year ≤ 9999 := by
    have := Digits.value_lt wf.year.2
    rw [wf.year.1] at this
    exact Nat.le_of_lt_succ this
  have restored {n : Nat} {ds : List Char} (h : ds.length = n ∧ ∀ c ∈ ds, digit c = true) :
      Digits.padded n (Digits.value ds) = ds := h.1 ▸ Digits.padded_value h.2
  obtain ⟨z, rfl⟩ : ∃ z : Zone, z.groups = offset := by
    rcases offset with _ | ⟨sign, hour, minute⟩
    · exact ⟨.utc, rfl⟩
    · obtain ⟨hs, hh, hm⟩ := wf.offset _ _ _ rfl
      simp only [Guard.all_cons, Guard.all_nil, decide_eq_true_eq, and_true] at zone
      refine ⟨.offset (sign == '+') _ _ zone, ?_⟩
      have hsign : (if (sign == '+') = true then '+' else '-') = sign := by
        unfold isSign at hs
        split
        · simp_all
        · simp_all
      rw [Zone.groups, hsign, restored hh, restored hm]
  refine ⟨{ date := ⟨_, _, _, hmonth, hday⟩, hour := _, minute := _, second := _
            fraction := frac.getD [], zone := z
            year_range := hyear
            time_range := ⟨hhour, hminute, hsecond⟩
            fraction_digits := ?_ }, ?_⟩
  · cases frac with
    | none => simp
    | some ds => exact (wf.frac ds rfl).2
  · have hfrac : (if frac.getD [] = [] then none else some (frac.getD [])) = frac := by
      cases frac with
      | none => rfl
      | some ds => exact if_neg (List.length_pos_iff.1 (wf.frac ds rfl).1)
    simp only [Stamp.groups, restored wf.year, restored wf.month, restored wf.day,
      restored wf.hour, restored wf.minute, restored wf.second, hfrac]

theorem parseResourceTimestamp_ok {value : String} {context : Option String} {t : TimeValue} :
    parseResourceTimestamp value context = .ok t ↔
      ∃ g : Groups, g.WellFormed ∧ value.toList = g.text ∧ Guard.All (componentChecks g) ∧
        epochMs g = t := by
  unfold parseResourceTimestamp
  constructor
  · intro h
    split at h
    · cases h
    · rename_i text g he
      obtain ⟨-, wf, ht⟩ := exec_timestampRe.1 he
      split at h
      · cases h
      · split at h
        · cases h
        · rename_i hr
          exact ⟨g, wf, ht, (Guard.run_ok_iff _).1 hr, Except.ok.inj h⟩
  · rintro ⟨g, wf, ht, hc, rfl⟩
    rw [exec_timestampRe.2 ⟨rfl, wf, ht⟩]
    simp [(Guard.run_ok_iff _).2 hc]

/-- A text is accepted exactly if it is one of the four forms of a valid time, and its value is the
instant; so the value does not depend on the offset the instant is written with. -/
theorem parseResourceTimestamp_exact (context : Option String) :
    (∀ value t, parseResourceTimestamp value context = .ok t ↔
      ∃ s : Stamp, s.text = value ∧ t = some s.instant) ∧
    ∀ s s' : Stamp, s.instant = s'.instant →
      parseResourceTimestamp s.text context = parseResourceTimestamp s'.text context := by
  have exact_ (value t) : parseResourceTimestamp value context = .ok t ↔
      ∃ s : Stamp, s.text = value ∧ t = some s.instant := by
    rw [parseResourceTimestamp_ok]
    constructor
    · rintro ⟨g, wf, ht, hc, rfl⟩
      obtain ⟨s, rfl⟩ := wf.exists_stamp hc
      exact ⟨s, String.toList_inj.1 (s.groups_text.trans ht.symm), s.epochMs_groups⟩
    · rintro ⟨s, rfl, rfl⟩
      exact ⟨s.groups, s.groups_wellFormed, s.groups_text, s.componentChecks_groups,
        s.epochMs_groups⟩
  refine ⟨exact_, fun s s' h => ?_⟩
  rw [(exact_ s.text (some s.instant)).2 ⟨s, rfl, rfl⟩,
    (exact_ s'.text (some s.instant)).2 ⟨s', rfl, by rw [h]⟩]

def leapDay (hour minute : Nat) (zone : Zone) (h : hour ≤ 23 ∧ minute ≤ 59) : Stamp where
  date := ⟨2024, 2, 29, by decide, by decide⟩
  hour := hour
  minute := minute
  second := 0
  fraction := []
  zone := zone
  year_range := by decide
  time_range := ⟨h.1, h.2, by decide⟩
  fraction_digits := by simp

theorem parseResourceTimestamp_exact_leap_day :
    parseResourceTimestamp "2024-02-29T23:30:00+01:00" none =
      parseResourceTimestamp "2024-02-29T22:30:00Z" none := by
  have paris : (leapDay 23 30 (.offset true 1 0 (by decide)) (by decide)).text =
      "2024-02-29T23:30:00+01:00" := by decide
  have london : (leapDay 22 30 .utc (by decide)).text = "2024-02-29T22:30:00Z" := by decide
  rw [← paris, ← london]
  refine (parseResourceTimestamp_exact none).2 _ _ ?_
  unfold Stamp.instant Stamp.clock
  simp only [leapDay, Zone.shift]
  omega

end Ceo.Resource.Timestamps

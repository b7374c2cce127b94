import Mathlib.Data.Rat.Floor
import TsunamiUdp.Library.Calendar
import TsunamiUdp.Library.Scanf
import TsunamiUdp.RtServer.EvnFilename

/-! `parse_evn_filename.c`: the start time in a file name. Doubles are rational numbers, and
one reading of the clock serves a whole call. -/
namespace TsunamiUdp.RtServer
open Library

/-- The clock of the host, and how far it says that the local time is behind UTC. -/
structure Clock where
  seconds : Nat
  microseconds : Nat
  isMicro : microseconds < 1000000
  timezone : Int

def Clock.now (clock : Clock) : Rat := clock.seconds + (clock.microseconds : Rat) / 1000000

def Clock.date (clock : Clock) : Date := dateOf (clock.seconds / 86400)

structure Tm where
  year : Int
  mon : Int
  mday : Int
  hour : Int
  min : Int
  sec : Int

/-- The months are normalised, and the time is taken as local time. -/
def mktime (timezone : Int) (tm : Tm) : Int :=
  let year := tm.year + 1900 + tm.mon / 12
  utc year (daysBeforeMonth (isLeap year) (tm.mon % 12).toNat + tm.mday) tm.hour tm.min tm.sec +
    timezone

def getCurrentYear (clock : Clock) : Int := clock.date.year

def interpretAsUtc (clock : Clock) (year daycount month day hour min sec : Int) : Int :=
  let (year, mon, mday) : Int × Int × Int :=
    if daycount = 0 ∧ day ≠ 0 ∧ month ≠ 0 then (year, month - 1, day)
    else if daycount ≠ 0 ∧ day = 0 ∧ month = 0 then (year, 0, 1)
    else if daycount = 0 ∧ day = 0 ∧ month = 0 then (0, clock.date.month, clock.date.day)
    else (year, 0, 0)
  let year := if year = 0 then getCurrentYear clock else year
  let ret := mktime clock.timezone ⟨year - 1900, mon, mday, hour, min, sec⟩
  let ret := if daycount ≠ 0 then ret + (daycount - 1) * (24 * 60 * 60) else ret
  ret - clock.timezone

structure TimeVars where
  yyyy : Int := 0
  mm : Int := 0
  dd : Int := 0
  hh : Int := 0
  min : Int := 0
  yday : Int := 0
  sec : Int := 0
  dsec : Rat := 0
  fsec : Rat := 0
  consumed : Nat := 0

namespace TimeVars

def setYyyy (v : Int) (s : TimeVars) : TimeVars := { s with yyyy := v }
def setMm (v : Int) (s : TimeVars) : TimeVars := { s with mm := v }
def setDd (v : Int) (s : TimeVars) : TimeVars := { s with dd := v }
def setHh (v : Int) (s : TimeVars) : TimeVars := { s with hh := v }
def setMin (v : Int) (s : TimeVars) : TimeVars := { s with min := v }
def setYday (v : Int) (s : TimeVars) : TimeVars := { s with yday := v }
def setSec (v : Int) (s : TimeVars) : TimeVars := { s with sec := v }
def setDsec (v : Rat) (s : TimeVars) : TimeVars := { s with dsec := v }
def setFsec (v : Rat) (s : TimeVars) : TimeVars := { s with fsec := v }
def setConsumed (v : Nat) (s : TimeVars) : TimeVars := { s with consumed := v }

end TimeVars

inductive TimeFormat
  | isoBasicExtended
  | yyyydddhhmmss
  | dddhhmmss
  | yearDay
  | yearDayTime
  | yyyyddd
  | dayTime
  | hhmmss
deriving DecidableEq

/-- One of the attempts: the lengths it is made for, what it scans for, and what it makes
of the variables. -/
structure TimePattern where
  format : TimeFormat
  fits : Nat → Bool
  directives : List (Directive TimeVars)
  wanted : Nat
  retval : Clock → TimeVars → Rat

def byte (c : Char) : UInt8 := UInt8.ofNat c.toNat

section Patterns
open TimeVars

/-- `%4d-%2d-%2dT%2d:%2d:%lg%n` -/
def isoBasicExtended : TimePattern where
  format := .isoBasicExtended
  fits := fun _ => true
  directives := [.int (some 4) setYyyy, .literal (byte '-'), .int (some 2) setMm, .literal (byte '-'),
    .int (some 2) setDd, .literal (byte 'T'), .int (some 2) setHh, .literal (byte ':'),
    .int (some 2) setMin, .literal (byte ':'), .real none setDsec]
  wanted := 6
  retval := fun clock s =>
    interpretAsUtc clock s.yyyy 0 s.mm s.dd s.hh s.min ⌊s.dsec⌋ + (s.dsec - ⌊s.dsec⌋)

/-- `%04d%03d%02d%02d%02d%n`; the minutes are in `mm`. -/
def yyyydddhhmmss : TimePattern where
  format := .yyyydddhhmmss
  fits := (· == 13)
  directives := [.int (some 4) setYyyy, .int (some 3) setYday, .int (some 2) setHh,
    .int (some 2) setMm, .int (some 2) setSec]
  wanted := 5
  retval := fun clock s => interpretAsUtc clock s.yyyy s.yday 0 0 s.hh s.mm s.sec

/-- `%03d%02d%02d%02d%n` -/
def dddhhmmss : TimePattern where
  format := .dddhhmmss
  fits := (· == 9)
  directives := [.int (some 3) setYday, .int (some 2) setHh, .int (some 2) setMm,
    .int (some 2) setSec]
  wanted := 4
  retval := fun clock s => interpretAsUtc clock 0 s.yday 0 0 s.hh s.mm s.sec

/-- `%4dy%dd%n` -/
def yearDay : TimePattern where
  format := .yearDay
  fits := fun _ => true
  directives := [.int (some 4) setYyyy, .literal (byte 'y'), .int none setYday, .literal (byte 'd')]
  wanted := 2
  retval := fun clock s => interpretAsUtc clock s.yyyy s.yday 0 0 0 0 0

/-- `%dy%dd%dh%dm%ds%n` -/
def yearDayTime : TimePattern where
  format := .yearDayTime
  fits := fun _ => true
  directives := [.int none setYyyy, .literal (byte 'y'), .int none setYday, .literal (byte 'd'),
    .int none setHh, .literal (byte 'h'), .int none setMm, .literal (byte 'm'), .int none setSec,
    .literal (byte 's')]
  wanted := 5
  retval := fun clock s => interpretAsUtc clock s.yyyy s.yday 0 0 s.hh s.mm s.sec

/-- `%04d%03d%n` -/
def yyyyddd : TimePattern where
  format := .yyyyddd
  fits := (· == 7)
  directives := [.int (some 4) setYyyy, .int (some 3) setYday]
  wanted := 2
  retval := fun clock s => interpretAsUtc clock s.yyyy s.yday 0 0 0 0 0

/-- `%dd%dh%dm%ds%n` -/
def dayTime : TimePattern where
  format := .dayTime
  fits := fun _ => true
  directives := [.int none setYday, .literal (byte 'd'), .int none setHh, .literal (byte 'h'),
    .int none setMm, .literal (byte 'm'), .int none setSec, .literal (byte 's')]
  wanted := 4
  retval := fun clock s => interpretAsUtc clock 0 s.yday 0 0 s.hh s.mm s.sec

/-- `%02d%02d%02f%n` -/
def hhmmss : TimePattern where
  format := .hhmmss
  fits := (6 ≤ ·)
  directives := [.int (some 2) setHh, .int (some 2) setMm, .real (some 2) setFsec]
  wanted := 3
  retval := fun clock s => interpretAsUtc clock 0 0 0 0 s.hh s.mm ⌊s.fsec⌋ + (s.fsec - ⌊s.fsec⌋)

def timePatterns : List TimePattern :=
  [isoBasicExtended, yyyydddhhmmss, dddhhmmss, yearDay, yearDayTime, yyyyddd, dayTime, hhmmss]

end Patterns

def TimePattern.attempt (p : TimePattern) (str : Text) (s : TimeVars) : Bool × TimeVars :=
  if p.fits str.length then
    let (n, s) := sscanf (p.directives ++ [.count TimeVars.setConsumed]) str s
    (n == p.wanted && s.consumed == str.length, s)
  else (false, s)

def needsOther {σ : Type} (letters : List UInt8) : Directive σ → Bool
  | .literal c => !isDigit c && !letters.contains c
  | _ => false

structure SpelledWith (letters : List UInt8) (str : Text) : Prop where
  has : ∀ c ∈ letters, c ∈ str
  only : ∀ a ∈ str, isDigit a = true ∨ a ∈ letters

/-- A text with these letters cannot be what the pattern describes: it has one that the
pattern does not take, or it lacks one that the pattern asks for. -/
def TimePattern.differs (p : TimePattern) (letters : List UInt8) : Bool :=
  (letters.any fun c => p.directives.all fun d => !d.takes c) || p.directives.any (needsOther letters)

def recognise (clock : Clock) (str : Text) : List TimePattern → TimeVars → Option (TimeFormat × Rat)
  | [], _ => none
  | p :: patterns, s =>
    match p.attempt str s with
    | (true, s) => some (p.format, p.retval clock s)
    | (false, s) => recognise clock str patterns s

/-- A `time_t` of a double. -/
def truncate (q : Rat) : Int := q.num.tdiv q.den

/-- `parse_time`: the format that is reported and `*retval`; `none` if it returns 1. -/
def parseTime (clock : Clock) (str : Text) : Option (TimeFormat × Rat) :=
  (recognise clock str timePatterns {}).map fun (format, retval) =>
    (format, if truncate retval - clock.seconds ≤ 0 then 0 else retval)

section Interpreting
variable {clock : Clock} {year day hour min sec : Int}

/-- The distance from UTC is added by `mktime` and taken off again. -/
theorem interpret_date {month mday : Nat} (hyear : year ≠ 0) (hmonth : 1 ≤ month ∧ month ≤ 12)
    (hday : 1 ≤ mday) : interpretAsUtc clock year 0 month mday hour min sec =
      utc year (daysBeforeMonth (isLeap year) (month - 1) + mday) hour min sec := by
  have hdate : (0 : Int) = 0 ∧ (mday : Int) ≠ 0 ∧ (month : Int) ≠ 0 := by omega
  have hyears : year - 1900 + 1900 + ((month : Int) - 1) / 12 = year := by omega
  have hmonths : (((month : Int) - 1) % 12).toNat = month - 1 := by omega
  rw [interpretAsUtc, if_pos hdate]
  dsimp only
  rw [if_neg hyear, if_neg (not_not_intro rfl), mktime]
  dsimp only
  rw [hyears, hmonths]
  omega

theorem mktime_newYear (timezone : Int) :
    mktime timezone ⟨year - 1900, 0, 1, hour, min, sec⟩ = utc year 1 hour min sec + timezone := by
  have hyears : year - 1900 + 1900 + 0 / 12 = year := by omega
  have hmonths : ((daysBeforeMonth (isLeap year) ((0 : Int) % 12).toNat : Nat) : Int) + 1 = 1 := rfl
  rw [mktime]
  dsimp only
  rw [hyears, hmonths]

theorem interpret_day (hday : day ≠ 0) : interpretAsUtc clock year day 0 0 hour min sec =
    utc (if year = 0 then clock.date.year else year) day hour min sec := by
  have hnodate : ¬(day = 0 ∧ (0 : Int) ≠ 0 ∧ (0 : Int) ≠ 0) := fun h => hday h.1
  have hdaycount : day ≠ 0 ∧ (0 : Int) = 0 ∧ (0 : Int) = 0 := ⟨hday, rfl, rfl⟩
  rw [interpretAsUtc, if_neg hnodate, if_pos hdaycount]
  dsimp only
  rw [mktime_newYear, if_pos hday, getCurrentYear, utc, utc]
  omega

theorem interpret_yearDay (hyear : year ≠ 0) (hday : day ≠ 0) :
    interpretAsUtc clock year day 0 0 hour min sec = utc year day hour min sec := by
  rw [interpret_day hday, if_neg hyear]

theorem interpret_thisYear (hday : day ≠ 0) :
    interpretAsUtc clock 0 day 0 0 hour min sec = utc clock.date.year day hour min sec := by
  rw [interpret_day hday, if_pos rfl]

theorem interpret_today : interpretAsUtc clock 0 0 0 0 hour min sec =
    clock.seconds / 86400 * 86400 + hour * 3600 + min * 60 + sec := by
  obtain ⟨-, hday, hmonth, -⟩ := dateOf_spec (clock.seconds / 86400)
  have hnodate : ¬((0 : Int) = 0 ∧ (0 : Int) ≠ 0 ∧ (0 : Int) ≠ 0) := fun h => h.2.1 rfl
  have hnoday : ¬((0 : Int) ≠ 0 ∧ (0 : Int) = 0 ∧ (0 : Int) = 0) := fun h => h.1 rfl
  have hnothing : (0 : Int) = 0 ∧ (0 : Int) = 0 ∧ (0 : Int) = 0 := ⟨rfl, rfl, rfl⟩
  have hyears : clock.date.year - 1900 + 1900 + (clock.date.month : Int) / 12 = clock.date.year := by
    rw [Int.ediv_eq_zero_of_lt (Int.natCast_nonneg _) (by unfold Clock.date; omega)]
    omega
  have hmonths : ((clock.date.month : Int) % 12).toNat = clock.date.month := by
    unfold Clock.date
    omega
  rw [interpretAsUtc, if_neg hnodate, if_neg hnoday, if_pos hnothing]
  dsimp only
  rw [if_pos rfl, if_neg (not_not_intro rfl), getCurrentYear, mktime]
  dsimp only
  rw [hyears, hmonths, utc]
  unfold Clock.date
  omega

end Interpreting

section Attempts
variable {clock : Clock} {str : Text} {s s' : TimeVars} {p : TimePattern}

theorem patterns_hide : ∀ p ∈ timePatterns, ∀ d ∈ p.directives, d.Hides TimeVars.consumed := by
  simp [timePatterns, isoBasicExtended, yyyydddhhmmss, dddhhmmss, yearDay, yearDayTime, yyyyddd, dayTime,
    hhmmss, Directive.Hides, TimeVars.setYyyy, TimeVars.setMm, TimeVars.setDd, TimeVars.setHh,
    TimeVars.setMin, TimeVars.setYday, TimeVars.setSec, TimeVars.setDsec, TimeVars.setFsec]

theorem attempt_miss (hp : p ∈ timePatterns) (hstr : str ≠ []) (hstale : s.consumed ≠ str.length)
    (hmiss : p.fits str.length = false ∨ ∀ s', readAll p.directives str s ≠ some ([], s')) :
    ∃ s', p.attempt str s = (false, s') ∧ s'.consumed ≠ str.length := by
  have hpos := List.length_pos_iff.mpr hstr
  rw [TimePattern.attempt]
  split
  · rename_i hfits
    have hkept : (sscanf (p.directives ++ [.count TimeVars.setConsumed]) str s).2.consumed ≠ str.length := by
      rw [sscanf]
      cases hread : readAll p.directives str s with
      | none =>
        rw [scanf_part TimeVars.consumed _ (patterns_hide p hp) hread]
        exact hstale
      | some r =>
        obtain ⟨rest, s'⟩ := r
        have hrest : 0 < rest.length := by
          apply List.length_pos_iff.mpr
          rintro rfl
          exact (hmiss.resolve_left (by rw [hfits]; decide)) s' hread
        rw [scanf_whole _ hread]
        exact fun h : str.length - rest.length = str.length => by omega
    generalize sscanf (p.directives ++ [.count TimeVars.setConsumed]) str s = r at hkept ⊢
    refine ⟨r.2, ?_, hkept⟩
    dsimp only
    rw [beq_eq_false_iff_ne.mpr hkept, Bool.and_false]
  · exact ⟨s, rfl, hstale⟩

theorem attempt_hit (hfits : p.fits str.length = true) (hwanted : conversions p.directives = p.wanted)
    (hread : readAll p.directives str s = some ([], s')) :
    p.attempt str s = (true, s'.setConsumed str.length) := by
  rw [TimePattern.attempt, if_pos hfits, sscanf, scanf_whole _ hread]
  dsimp only
  rw [hwanted, beq_self_eq_true, Bool.true_and]
  exact congrArg (fun b => (b, s'.setConsumed str.length)) (beq_self_eq_true str.length)

theorem differs_misses {letters : List UInt8} (hstr : SpelledWith letters str)
    (h : p.differs letters = true) (s s' : TimeVars) : readAll p.directives str s ≠ some ([], s') := by
  intro hread
  obtain ⟨front, hfront, htakes, hliterals⟩ := readAll_front hread
  rw [List.append_nil] at hfront
  subst hfront
  rcases (Bool.or_eq_true _ _).mp h with h | h
  · obtain ⟨c, hc, hall⟩ := List.any_eq_true.mp h
    obtain ⟨d, hd, htake⟩ := htakes c (hstr.has c hc)
    have := List.all_eq_true.mp hall d hd
    rw [htake] at this
    cases this
  · obtain ⟨d, hd, hneeds⟩ := List.any_eq_true.mp h
    cases d with
    | literal c =>
      have hmem := hliterals _ hd c (beq_self_eq_true c)
      obtain ⟨hdigit, hletter⟩ := (Bool.and_eq_true _ _).mp hneeds
      rcases hstr.only c hmem with hc | hc
      · rw [hc] at hdigit
        cases hdigit
      · rw [List.contains_iff_mem.mpr hc] at hletter
        cases hletter
    | int width set => cases hneeds
    | real width set => cases hneeds
    | count set => cases hneeds

theorem recognise_skip {letters : List UInt8} {before after : List TimePattern}
    (hbefore : ∀ p ∈ before, p ∈ timePatterns ∧ (p.fits str.length && !p.differs letters) = false)
    (hletters : SpelledWith letters str) (hstr : str ≠ []) (hstale : s.consumed ≠ str.length) :
    ∃ s', recognise clock str (before ++ after) s = recognise clock str after s' ∧
      s'.consumed ≠ str.length := by
  induction before generalizing s with
  | nil => exact ⟨s, rfl, hstale⟩
  | cons p before ih =>
    obtain ⟨hp, hpass⟩ := hbefore p List.mem_cons_self
    have hmiss : p.fits str.length = false ∨ ∀ s', readAll p.directives str s ≠ some ([], s') := by
      rcases (Bool.and_eq_false_iff).mp hpass with h | h
      · exact .inl h
      · exact .inr (differs_misses hletters (by simpa using h) s)
    obtain ⟨s', hattempt, hstale'⟩ := attempt_miss hp hstr hstale hmiss
    rw [List.cons_append, recognise, hattempt]
    exact ih (fun q hq => hbefore q (List.mem_cons_of_mem p hq)) hstale'

theorem recognise_hit {after : List TimePattern} {value : Rat} (hfits : p.fits str.length = true)
    (hwanted : conversions p.directives = p.wanted)
    (hread : readAll p.directives str s = some ([], s'))
    (hvalue : p.retval clock (s'.setConsumed str.length) = value) :
    recognise clock str (p :: after) s = some (p.format, value) := by
  rw [recognise, attempt_hit hfits hwanted hread, ← hvalue]

end Attempts

end TsunamiUdp.RtServer

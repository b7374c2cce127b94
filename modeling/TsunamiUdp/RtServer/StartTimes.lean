import Mathlib.Tactic.Ring
import TsunamiUdp.RtServer.ParseTime

/-! The documented forms of a start time, and which of them `parse_time` understands. -/
namespace TsunamiUdp.RtServer
open Library

/-- A number in decimal digits: how many digits it may have, and its range. -/
structure Numeral (lengths : Nat → Bool) (low high : Nat) where
  text : Text
  isNumber : ∀ a ∈ text, isDigit a = true
  nonempty : text ≠ []
  fits : lengths text.length = true
  range : low ≤ scanDigits text ∧ scanDigits text ≤ high

abbrev Field (n low high : Nat) := Numeral (· == n) low high

abbrev OpenField (low high : Nat) := Numeral (fun _ => true) low high

def Numeral.value {lengths : Nat → Bool} {low high : Nat} (n : Numeral lengths low high) : Nat :=
  scanDigits n.text

structure Fraction where
  text : Text
  isNumber : ∀ a ∈ text, isDigit a = true
  nonempty : text ≠ []

def Fraction.value (f : Fraction) : Rat := (scanDigits f.text : Rat) / (10 ^ f.text.length : Nat)

inductive StartTime
  /-- `yyyy-mm-ddThh:mm:ss[.frac]` -/
  | iso (year : Field 4 1 9999) (month : Field 2 1 12) (day : Field 2 1 31) (hour : Field 2 0 23)
    (minute second : Field 2 0 59) (fraction : Option Fraction)
  /-- `yyyydddhhmmss` -/
  | yyyydddhhmmss (year : Field 4 1 9999) (day : Field 3 1 366) (hour : Field 2 0 23)
    (minute second : Field 2 0 59)
  /-- `dddhhmmss` -/
  | dddhhmmss (day : Field 3 1 366) (hour : Field 2 0 23) (minute second : Field 2 0 59)
  /-- `[yyyy]y[d]d` -/
  | yearDay (year : Numeral (· ≤ 4) 1 9999) (day : OpenField 1 366)
  /-- `[yyyy]y[d]d[h]h[m]m[s]s` -/
  | yearDayTime (year : Numeral (· ≤ 4) 1 9999) (day : OpenField 1 366) (hour : OpenField 0 23)
    (minute second : OpenField 0 59)
  /-- `yyyyddd` -/
  | yyyyddd (year : Field 4 1 9999) (day : Field 3 1 366)
  /-- `[d]d[h]h[m]m[s]s` -/
  | dayTime (day : OpenField 1 366) (hour : OpenField 0 23) (minute second : OpenField 0 59)
  /-- `hhmmss` -/
  | hhmmss (hour : Field 2 0 23) (minute second : Field 2 0 59)
  /-- `hhmmss.cc` -/
  | hundredths (hour : Field 2 0 23) (minute second : Field 2 0 59) (fraction : Fraction)

namespace StartTime

def text : StartTime → Text
  | iso year month day hour minute second fraction =>
    year.text ++ byte '-' :: (month.text ++ byte '-' :: (day.text ++ byte 'T' :: (hour.text ++
      byte ':' :: (minute.text ++ byte ':' :: (second.text ++ pointed (fraction.map Fraction.text))))))
  | yyyydddhhmmss year day hour minute second =>
    year.text ++ (day.text ++ (hour.text ++ (minute.text ++ second.text)))
  | dddhhmmss day hour minute second => day.text ++ (hour.text ++ (minute.text ++ second.text))
  | yearDay year day => year.text ++ byte 'y' :: (day.text ++ [byte 'd'])
  | yearDayTime year day hour minute second =>
    year.text ++ byte 'y' :: (day.text ++ byte 'd' :: (hour.text ++ byte 'h' :: (minute.text ++
      byte 'm' :: (second.text ++ [byte 's']))))
  | yyyyddd year day => year.text ++ day.text
  | dayTime day hour minute second =>
    day.text ++ byte 'd' :: (hour.text ++ byte 'h' :: (minute.text ++ byte 'm' ::
      (second.text ++ [byte 's'])))
  | hhmmss hour minute second => hour.text ++ (minute.text ++ second.text)
  | hundredths hour minute second fraction =>
    hour.text ++ (minute.text ++ (second.text ++ pointed (some fraction.text)))

def format : StartTime → TimeFormat
  | iso .. => .isoBasicExtended
  | yyyydddhhmmss .. => .yyyydddhhmmss
  | dddhhmmss .. => .dddhhmmss
  | yearDay .. => .yearDay
  | yearDayTime .. => .yearDayTime
  | yyyyddd .. => .yyyyddd
  | dayTime .. => .dayTime
  | hhmmss .. => .hhmmss
  | hundredths .. => .hhmmss

/-- The seconds in UTC that the fields denote: a missing year is the one of the clock, a
missing date is its day. -/
def denotes (clock : Clock) : StartTime → Rat
  | iso year month day hour minute second fraction =>
    utc year.value (daysBeforeMonth (isLeap year.value) (month.value - 1) + day.value) hour.value
      minute.value second.value + ((fraction.map Fraction.value).getD 0)
  | yyyydddhhmmss year day hour minute second =>
    utc year.value day.value hour.value minute.value second.value
  | dddhhmmss day hour minute second =>
    utc clock.date.year day.value hour.value minute.value second.value
  | yearDay year day => utc year.value day.value 0 0 0
  | yearDayTime year day hour minute second =>
    utc year.value day.value hour.value minute.value second.value
  | yyyyddd year day => utc year.value day.value 0 0 0
  | dayTime day hour minute second =>
    utc clock.date.year day.value hour.value minute.value second.value
  | hhmmss hour minute second =>
    (clock.seconds / 86400 * 86400 + hour.value * 3600 + minute.value * 60 + second.value : Nat)
  | hundredths hour minute second fraction =>
    (clock.seconds / 86400 * 86400 + hour.value * 3600 + minute.value * 60 + second.value : Nat) +
      fraction.value

def HasHundredths : StartTime → Prop
  | hundredths .. => True
  | _ => False

/-- The text is taken for what it is, and a time in the future is the time that is meant. -/
def Understood (clock : Clock) (t : StartTime) : Prop :=
  ∃ retval, parseTime clock t.text = some (t.format, retval) ∧
    (clock.now < t.denotes clock → retval = t.denotes clock)

end StartTime

section Reading
variable {σ : Type} {lengths : Nat → Bool} {k low high : Nat} {s : σ} {set : Int → σ → σ}
  {format : List (Directive σ)}

theorem Numeral.readInt_eq (n : Numeral lengths low high) {width : Option Nat} {rest : Text}
    (hhigh : high < 2 ^ 31) (hends : EndsAt width n.text rest) :
    readAll (.int width set :: format) (n.text ++ rest) s = readAll format rest (set n.value s) := by
  rw [readAll, readInt_digits n.isNumber n.nonempty hends (n.range.2.trans_lt hhigh)]
  rfl

theorem Numeral.value_ne_zero (n : Numeral lengths low high) (hlow : 0 < low) : (n.value : Int) ≠ 0 := by
  have := n.range.1
  unfold Numeral.value
  omega

theorem Numeral.length_eq (n : Field k low high) : n.text.length = k := beq_iff_eq.mp n.fits

theorem Numeral.width_le (n : Numeral (· ≤ k) low high) : ∀ w ∈ some k, n.text.length ≤ w := by
  rintro w ⟨⟩
  exact of_decide_eq_true n.fits

theorem Numeral.read_field (n : Field k low high) (hhigh : high < 2 ^ 31) (rest : Text) :
    readAll (.int (some k) set :: format) (n.text ++ rest) s = readAll format rest (set n.value s) := by
  apply n.readInt_eq hhigh
  refine ⟨fun w hw => ?_, .inl (congrArg some n.length_eq.symm)⟩
  cases hw
  exact n.length_eq.le

theorem Numeral.read_fixed (n : Field k low high) (hhigh : high < 2 ^ 31) (c : UInt8) (rest : Text) :
    readAll (.int (some k) set :: .literal c :: format) (n.text ++ c :: rest) s =
      readAll format rest (set n.value s) :=
  (n.read_field hhigh (c :: rest)).trans (if_pos rfl)

theorem Numeral.read_last (n : Field k low high) (hhigh : high < 2 ^ 31) :
    readAll (.int (some k) set :: format) n.text s = readAll format [] (set n.value s) := by
  conv_lhs => rw [← List.append_nil n.text]
  exact n.read_field hhigh []

theorem Numeral.read_real {set : Rat → σ → σ} (n : Field k low high) (rest : Text) :
    readAll (.real (some k) set :: format) (n.text ++ rest) s = readAll format rest (set n.value s) := by
  have hread : readReal (some n.text.length) (n.text ++ rest) = _ := readReal_width n.isNumber n.nonempty
  have hvalue : toReal false n.text [] (false, 0) = n.value := by
    rw [toReal_pointed n.isNumber (by rintro a ⟨⟩)]
    exact add_eq_left.mpr (zero_div _)
  rw [n.length_eq, hvalue] at hread
  rw [readAll, hread]

theorem Numeral.read_fraction {set : Rat → σ → σ} (n : Field k low high) (fraction : Option Fraction) :
    readAll [.real none set] (n.text ++ pointed (fraction.map Fraction.text)) s =
      some ([], set (n.value + (fraction.map Fraction.value).getD 0) s) := by
  have hfraction : ∀ f ∈ fraction.map Fraction.text, ∀ a ∈ f, isDigit a = true := by
    intro f hf
    obtain ⟨f, -, rfl⟩ := Option.map_eq_some_iff.mp hf
    exact f.isNumber
  have hvalue : toReal false n.text ((fraction.map Fraction.text).getD []) (false, 0) =
      n.value + (fraction.map Fraction.value).getD 0 := by
    cases fraction with
    | none =>
      rw [Option.map_none, Option.getD_none, toReal_pointed n.isNumber (by rintro a ⟨⟩)]
      exact congrArg _ (zero_div _)
    | some f => exact toReal_pointed n.isNumber f.isNumber
  rw [readAll, readReal_pointed n.isNumber n.nonempty hfraction, hvalue]
  rfl

theorem Numeral.read_until (n : Numeral lengths low high) {width : Option Nat} {c : UInt8}
    (hhigh : high < 2 ^ 31) (hwidth : ∀ w ∈ width, n.text.length ≤ w) (hc : isDigit c = false)
    (rest : Text) : readAll (.int width set :: .literal c :: format) (n.text ++ c :: rest) s =
      readAll format rest (set n.value s) := by
  have hends : EndsAt width n.text (c :: rest) := by
    refine ⟨hwidth, .inr fun a ha => ?_⟩
    cases ha
    exact hc
  rw [n.readInt_eq hhigh hends, readAll, if_pos rfl]

theorem Numeral.read_open (n : Numeral lengths low high) {c : UInt8} (hhigh : high < 2 ^ 31)
    (hc : isDigit c = false) (rest : Text) :
    readAll (.int none set :: .literal c :: format) (n.text ++ c :: rest) s =
      readAll format rest (set n.value s) :=
  n.read_until hhigh (by rintro w ⟨⟩) hc rest

end Reading

section Spelling
variable {letters letters' : List UInt8} {t t' : Text}

theorem spelled_numeral {lengths : Nat → Bool} {low high : Nat} (n : Numeral lengths low high) :
    SpelledWith [] n.text := ⟨nofun, fun a ha => .inl (n.isNumber a ha)⟩

theorem spelled_letter (c : UInt8) : SpelledWith [c] [c] := ⟨fun _ => id, fun _ => .inr⟩

theorem SpelledWith.append (h : SpelledWith letters t) (h' : SpelledWith letters' t') :
    SpelledWith (letters ++ letters') (t ++ t') := by
  constructor
  · intro c hc
    rcases List.mem_append.mp hc with hc | hc
    · exact List.mem_append_left t' (h.has c hc)
    · exact List.mem_append_right t (h'.has c hc)
  · intro a ha
    rcases List.mem_append.mp ha with ha | ha
    · exact (h.only a ha).imp_right (List.mem_append_left letters')
    · exact (h'.only a ha).imp_right (List.mem_append_right letters)

theorem SpelledWith.cons (c : UInt8) (h : SpelledWith letters t) :
    SpelledWith (c :: letters) (c :: t) :=
  (spelled_letter c).append h

end Spelling

section Recognising
variable {clock : Clock} {t : Text} {letters : List UInt8} {value : Rat} {p : TimePattern}

theorem recognise_at (before after : List TimePattern) (hsplit : timePatterns = before ++ p :: after)
    (hpass : ∀ q ∈ before, (q.fits t.length && !q.differs letters) = false)
    (hletters : SpelledWith letters t) (hstr : t ≠ []) (hfits : p.fits t.length = true)
    (hwanted : conversions p.directives = p.wanted)
    (hread : ∀ s, ∃ s', readAll p.directives t s = some ([], s') ∧
      p.retval clock (s'.setConsumed t.length) = value) :
    recognise clock t timePatterns {} = some (p.format, value) := by
  have hstale : ({} : TimeVars).consumed ≠ t.length := (List.length_pos_iff.mpr hstr).ne
  have hbefore : ∀ q ∈ before, q ∈ timePatterns ∧ (q.fits t.length && !q.differs letters) = false :=
    fun q hq => ⟨by rw [hsplit]; exact List.mem_append_left _ hq, hpass q hq⟩
  obtain ⟨s, hskip, -⟩ : ∃ s', recognise clock t (before ++ p :: after) {} = _ ∧ _ :=
    recognise_skip hbefore hletters hstr hstale
  obtain ⟨s', hread, hvalue⟩ := hread s
  rw [hsplit, hskip, recognise_hit hfits hwanted hread hvalue]

theorem recognise_spelled {c : UInt8} (before after : List TimePattern)
    (hsplit : timePatterns = before ++ p :: after)
    (hdiffers : ∀ q ∈ before, q.differs (c :: letters) = true)
    (hletters : SpelledWith (c :: letters) t) (hfits : p.fits t.length = true)
    (hwanted : conversions p.directives = p.wanted)
    (hread : ∀ s, ∃ s', readAll p.directives t s = some ([], s') ∧
      p.retval clock (s'.setConsumed t.length) = value) :
    recognise clock t timePatterns {} = some (p.format, value) := by
  refine recognise_at before after hsplit (fun q hq => ?_) hletters ?_ hfits hwanted hread
  · rw [hdiffers q hq, Bool.not_true, Bool.and_false]
  · exact List.ne_nil_of_mem (hletters.has c List.mem_cons_self)

theorem recognise_counted {n : Nat} (before after : List TimePattern)
    (hsplit : timePatterns = before ++ p :: after) (hlength : t.length = n + 1)
    (hpass : ∀ q ∈ before, (q.fits (n + 1) && !q.differs []) = false)
    (hletters : SpelledWith [] t) (hfits : p.fits (n + 1) = true)
    (hwanted : conversions p.directives = p.wanted)
    (hread : ∀ s, ∃ s', readAll p.directives t s = some ([], s') ∧
      p.retval clock (s'.setConsumed t.length) = value) :
    recognise clock t timePatterns {} = some (p.format, value) := by
  rw [← hlength] at hpass hfits
  refine recognise_at before after hsplit hpass hletters ?_ hfits hwanted hread
  exact List.ne_nil_of_length_pos (by omega)

theorem recognise_yearDay (year : Numeral (· ≤ 4) 1 9999) (day : OpenField 1 366) :
    recognise clock (StartTime.yearDay year day).text timePatterns {} =
      some (.yearDay, (StartTime.yearDay year day).denotes clock) := by
  have hspelled : SpelledWith [byte 'y', byte 'd'] (StartTime.yearDay year day).text :=
    (spelled_numeral year).append (((spelled_numeral day).append (spelled_letter _)).cons _)
  refine recognise_spelled (p := yearDay) (timePatterns.take 3) (timePatterns.drop 4) rfl (by decide)
    hspelled rfl rfl fun s => ?_
  refine ⟨.setYday day.value (.setYyyy year.value s),
    (year.read_until (by decide) year.width_le rfl _).trans (day.read_open (by decide) rfl []), ?_⟩
  exact congrArg Int.cast (interpret_yearDay (year.value_ne_zero one_pos) (day.value_ne_zero one_pos))

theorem recognise_yearDayTime (year : Numeral (· ≤ 4) 1 9999) (day : OpenField 1 366)
    (hour : OpenField 0 23) (minute second : OpenField 0 59) :
    recognise clock (StartTime.yearDayTime year day hour minute second).text timePatterns {} =
      some (.yearDayTime, (StartTime.yearDayTime year day hour minute second).denotes clock) := by
  have hspelled : SpelledWith [byte 'y', byte 'd', byte 'h', byte 'm', byte 's']
      (StartTime.yearDayTime year day hour minute second).text :=
    (spelled_numeral year).append (((spelled_numeral day).append (((spelled_numeral hour).append
      (((spelled_numeral minute).append (((spelled_numeral second).append
        (spelled_letter _)).cons _)).cons _)).cons _)).cons _)
  refine recognise_spelled (p := yearDayTime) (timePatterns.take 4) (timePatterns.drop 5) rfl (by decide)
    hspelled rfl rfl fun s => ?_
  refine ⟨.setSec second.value (.setMm minute.value (.setHh hour.value
    (.setYday day.value (.setYyyy year.value s)))), ?_, ?_⟩
  · exact (year.read_open (by decide) rfl _).trans ((day.read_open (by decide) rfl _).trans
      ((hour.read_open (by decide) rfl _).trans ((minute.read_open (by decide) rfl _).trans
        (second.read_open (by decide) rfl []))))
  · exact congrArg Int.cast (interpret_yearDay (year.value_ne_zero one_pos) (day.value_ne_zero one_pos))

theorem recognise_dayTime (day : OpenField 1 366) (hour : OpenField 0 23)
    (minute second : OpenField 0 59) :
    recognise clock (StartTime.dayTime day hour minute second).text timePatterns {} =
      some (.dayTime, (StartTime.dayTime day hour minute second).denotes clock) := by
  have hspelled : SpelledWith [byte 'd', byte 'h', byte 'm', byte 's']
      (StartTime.dayTime day hour minute second).text :=
    (spelled_numeral day).append (((spelled_numeral hour).append (((spelled_numeral minute).append
      (((spelled_numeral second).append (spelled_letter _)).cons _)).cons _)).cons _)
  refine recognise_spelled (p := dayTime) (timePatterns.take 6) (timePatterns.drop 7) rfl (by decide)
    hspelled rfl rfl fun s => ?_
  refine ⟨.setSec second.value (.setMm minute.value (.setHh hour.value
    (.setYday day.value s))), ?_, ?_⟩
  · exact (day.read_open (by decide) rfl _).trans ((hour.read_open (by decide) rfl _).trans
      ((minute.read_open (by decide) rfl _).trans (second.read_open (by decide) rfl [])))
  · exact congrArg Int.cast (interpret_thisYear (day.value_ne_zero one_pos))

theorem recognise_yyyyddd (year : Field 4 1 9999) (day : Field 3 1 366) :
    recognise clock (StartTime.yyyyddd year day).text timePatterns {} =
      some (.yyyyddd, (StartTime.yyyyddd year day).denotes clock) := by
  have hspelled : SpelledWith [] (StartTime.yyyyddd year day).text :=
    (spelled_numeral year).append (spelled_numeral day)
  have hlength : (StartTime.yyyyddd year day).text.length = 7 := by
    rw [StartTime.text, List.length_append, year.length_eq, day.length_eq]
  refine recognise_counted (p := yyyyddd) (timePatterns.take 5) (timePatterns.drop 6) rfl hlength (by decide) hspelled rfl rfl
    fun s => ?_
  refine ⟨.setYday day.value (.setYyyy year.value s), ?_, ?_⟩
  · exact (year.read_field (by decide) _).trans (day.read_last (by decide))
  · exact congrArg Int.cast (interpret_yearDay (year.value_ne_zero one_pos) (day.value_ne_zero one_pos))

theorem recognise_yyyydddhhmmss (year : Field 4 1 9999) (day : Field 3 1 366) (hour : Field 2 0 23)
    (minute second : Field 2 0 59) :
    recognise clock (StartTime.yyyydddhhmmss year day hour minute second).text timePatterns {} =
      some (.yyyydddhhmmss, (StartTime.yyyydddhhmmss year day hour minute second).denotes clock) := by
  have hspelled : SpelledWith [] (StartTime.yyyydddhhmmss year day hour minute second).text :=
    (spelled_numeral year).append ((spelled_numeral day).append ((spelled_numeral hour).append
      ((spelled_numeral minute).append (spelled_numeral second))))
  have hlength : (StartTime.yyyydddhhmmss year day hour minute second).text.length = 13 := by
    rw [StartTime.text, List.length_append, List.length_append, List.length_append, List.length_append,
      year.length_eq, day.length_eq, hour.length_eq, minute.length_eq, second.length_eq]
  refine recognise_counted (p := yyyydddhhmmss) (timePatterns.take 1) (timePatterns.drop 2) rfl hlength (by decide) hspelled rfl rfl
    fun s => ?_
  refine ⟨.setSec second.value (.setMm minute.value (.setHh hour.value
    (.setYday day.value (.setYyyy year.value s)))), ?_, ?_⟩
  · exact (year.read_field (by decide) _).trans ((day.read_field (by decide) _).trans
      ((hour.read_field (by decide) _).trans ((minute.read_field (by decide) _).trans
        (second.read_last (by decide)))))
  · exact congrArg Int.cast (interpret_yearDay (year.value_ne_zero one_pos) (day.value_ne_zero one_pos))

theorem recognise_dddhhmmss (day : Field 3 1 366) (hour : Field 2 0 23) (minute second : Field 2 0 59) :
    recognise clock (StartTime.dddhhmmss day hour minute second).text timePatterns {} =
      some (.dddhhmmss, (StartTime.dddhhmmss day hour minute second).denotes clock) := by
  have hspelled : SpelledWith [] (StartTime.dddhhmmss day hour minute second).text :=
    (spelled_numeral day).append ((spelled_numeral hour).append ((spelled_numeral minute).append
      (spelled_numeral second)))
  have hlength : (StartTime.dddhhmmss day hour minute second).text.length = 9 := by
    rw [StartTime.text, List.length_append, List.length_append, List.length_append,
      day.length_eq, hour.length_eq, minute.length_eq, second.length_eq]
  refine recognise_counted (p := dddhhmmss) (timePatterns.take 2) (timePatterns.drop 3) rfl hlength (by decide) hspelled rfl rfl
    fun s => ?_
  refine ⟨.setSec second.value (.setMm minute.value (.setHh hour.value
    (.setYday day.value s))), ?_, ?_⟩
  · exact (day.read_field (by decide) _).trans ((hour.read_field (by decide) _).trans
      ((minute.read_field (by decide) _).trans (second.read_last (by decide))))
  · exact congrArg Int.cast (interpret_thisYear (day.value_ne_zero one_pos))

theorem utc_fraction (year day hour minute : Int) (second : Rat) :
    (utc year day hour minute ⌊second⌋ : Rat) + (second - ⌊second⌋) = utc year day hour minute 0 + second := by
  have hsplit : utc year day hour minute ⌊second⌋ = utc year day hour minute 0 + ⌊second⌋ := by
    unfold utc
    omega
  rw [hsplit, Int.cast_add]
  ring

theorem recognise_hhmmss (hour : Field 2 0 23) (minute second : Field 2 0 59) :
    recognise clock (StartTime.hhmmss hour minute second).text timePatterns {} =
      some (.hhmmss, (StartTime.hhmmss hour minute second).denotes clock) := by
  have hspelled : SpelledWith [] (StartTime.hhmmss hour minute second).text :=
    (spelled_numeral hour).append ((spelled_numeral minute).append (spelled_numeral second))
  have hlength : (StartTime.hhmmss hour minute second).text.length = 6 := by
    rw [StartTime.text, List.length_append, List.length_append, hour.length_eq, minute.length_eq,
      second.length_eq]
  refine recognise_counted (p := hhmmss) (timePatterns.take 7) [] rfl hlength (by decide) hspelled rfl rfl
    fun s => ?_
  have hsecond : readAll [.real (some 2) TimeVars.setFsec] second.text
      (.setMm minute.value (.setHh hour.value s)) =
        some ([], .setFsec second.value (.setMm minute.value (.setHh hour.value s))) := by
    conv_lhs => rw [← List.append_nil second.text]
    exact second.read_real []
  refine ⟨.setFsec second.value (.setMm minute.value (.setHh hour.value s)), ?_, ?_⟩
  · exact (hour.read_field (by decide) _).trans ((minute.read_field (by decide) _).trans hsecond)
  · have hnow : interpretAsUtc clock 0 0 0 0 hour.value minute.value ⌊(second.value : Rat)⌋ =
        (clock.seconds / 86400 * 86400 + hour.value * 3600 + minute.value * 60 + second.value : Nat) := by
      rw [interpret_today, Int.floor_natCast]
      omega
    have hwhole : ((⌊(second.value : Rat)⌋ : Int) : Rat) = second.value := by
      rw [Int.floor_natCast, Int.cast_natCast]
    exact (congrArg₂ (fun a b : Rat => a + (second.value - b)) (congrArg Int.cast hnow) hwhole).trans
      (by rw [sub_self, add_zero, Int.cast_natCast]; rfl)

theorem recognise_iso (year : Field 4 1 9999) (month : Field 2 1 12) (day : Field 2 1 31)
    (hour : Field 2 0 23) (minute second : Field 2 0 59) (fraction : Option Fraction) :
    recognise clock (StartTime.iso year month day hour minute second fraction).text timePatterns {} =
      some (.isoBasicExtended,
        (StartTime.iso year month day hour minute second fraction).denotes clock) := by
  have hread : readAll isoBasicExtended.directives
      (StartTime.iso year month day hour minute second fraction).text {} = some ([], _) :=
    (year.read_fixed (by decide) _ _).trans ((month.read_fixed (by decide) _ _).trans
      ((day.read_fixed (by decide) _ _).trans ((hour.read_fixed (by decide) _ _).trans
        ((minute.read_fixed (by decide) _ _).trans (second.read_fraction fraction)))))
  refine recognise_hit (p := isoBasicExtended) rfl rfl hread ?_
  have hdate : interpretAsUtc clock year.value 0 month.value day.value hour.value minute.value
      ⌊(second.value : Rat) + (fraction.map Fraction.value).getD 0⌋ = utc year.value
        (daysBeforeMonth (isLeap year.value) (month.value - 1) + day.value) hour.value minute.value _ :=
    interpret_date (year.value_ne_zero one_pos) month.range day.range.1
  have hsecond : utc year.value (daysBeforeMonth (isLeap year.value) (month.value - 1) + day.value)
      hour.value minute.value second.value = utc year.value
        (daysBeforeMonth (isLeap year.value) (month.value - 1) + day.value) hour.value minute.value 0 +
          second.value := by
    unfold utc
    omega
  refine (congrArg (fun z : Int => (z : Rat) + _) hdate).trans ((utc_fraction _ _ _ _ _).trans ?_)
  rw [StartTime.denotes, hsecond, Int.cast_add, Int.cast_natCast, add_assoc]

theorem hhmmss_mem : hhmmss ∈ timePatterns := List.mem_of_getElem? (i := 7) rfl

theorem recognise_hundredths (hour : Field 2 0 23) (minute second : Field 2 0 59) (fraction : Fraction) :
    recognise clock (StartTime.hundredths hour minute second fraction).text timePatterns {} = none := by
  have hspelled : SpelledWith [46] (StartTime.hundredths hour minute second fraction).text :=
    (spelled_numeral hour).append ((spelled_numeral minute).append ((spelled_numeral second).append
      (SpelledWith.cons 46 ⟨nofun, fun a ha => .inl (fraction.isNumber a ha)⟩)))
  have hstr : (StartTime.hundredths hour minute second fraction).text ≠ [] :=
    List.ne_nil_of_mem (hspelled.has _ List.mem_cons_self)
  have hbefore : ∀ q ∈ timePatterns.take 7, q ∈ timePatterns ∧
      (q.fits (StartTime.hundredths hour minute second fraction).text.length && !q.differs [46]) = false := by
    intro q hq
    have hdiffers : ∀ q ∈ timePatterns.take 7, q.differs [46] = true := by decide
    rw [hdiffers q hq, Bool.not_true, Bool.and_false]
    exact ⟨List.mem_of_mem_take hq, rfl⟩
  obtain ⟨s, hskip, hstale⟩ : ∃ s', recognise clock _ (timePatterns.take 7 ++ [hhmmss]) {} = _ ∧ _ :=
    recognise_skip hbefore hspelled hstr (List.length_pos_iff.mpr hstr).ne
  have hmiss : ∀ s', readAll hhmmss.directives (StartTime.hundredths hour minute second fraction).text s ≠
      some ([], s') := by
    intro s' hread
    have hleft := (hour.read_field (by decide) _).trans ((minute.read_field (by decide) _).trans
      (second.read_real (pointed (some fraction.text)))) |>.symm.trans hread
    cases hleft
  obtain ⟨s', hattempt, -⟩ := attempt_miss hhmmss_mem hstr hstale (.inr hmiss)
  exact hskip.trans (by rw [recognise, hattempt]; rfl)

theorem recognised (clock : Clock) {t : StartTime} (h : ¬t.HasHundredths) :
    recognise clock t.text timePatterns {} = some (t.format, t.denotes clock) := by
  cases t with
  | iso year month day hour minute second fraction => exact recognise_iso ..
  | yyyydddhhmmss year day hour minute second => exact recognise_yyyydddhhmmss ..
  | dddhhmmss day hour minute second => exact recognise_dddhhmmss ..
  | yearDay year day => exact recognise_yearDay ..
  | yearDayTime year day hour minute second => exact recognise_yearDayTime ..
  | yyyyddd year day => exact recognise_yyyyddd ..
  | dayTime day hour minute second => exact recognise_dayTime ..
  | hhmmss hour minute second => exact recognise_hhmmss ..
  | hundredths hour minute second fraction => exact absurd trivial h

end Recognising

section Future
variable {clock : Clock} {q : Rat}

theorem Clock.seconds_le_now (clock : Clock) : (clock.seconds : Rat) ≤ clock.now :=
  le_add_of_nonneg_right (by positivity)

/-- The fraction of a second is lost where the time is compared with the clock. -/
theorem truncate_le (hq : 0 ≤ q) (n : Nat) : truncate q - n ≤ 0 ↔ q < n + 1 := by
  have hfloor : truncate q = ⌊q⌋ := by
    rw [truncate, Int.tdiv_eq_ediv_of_nonneg (Rat.num_nonneg.mpr hq), Rat.floor_def']
  have hlt : ⌊q⌋ < (n : Int) + 1 ↔ q < n + 1 := by
    rw [Int.floor_lt, Int.cast_add, Int.cast_natCast, Int.cast_one]
  rw [hfloor, ← hlt]
  omega

theorem kept_iff : (clock.now < q → (if truncate q - clock.seconds ≤ 0 then 0 else q) = q) ↔
    ¬(clock.now < q ∧ q < clock.seconds + 1) := by
  have hnow : (0 : Rat) ≤ clock.now := (Nat.cast_nonneg _).trans clock.seconds_le_now
  constructor
  · rintro h ⟨hfuture, hsecond⟩
    have hzero := h hfuture
    rw [if_pos ((truncate_le (hnow.trans hfuture.le) _).mpr hsecond)] at hzero
    exact absurd (hnow.trans_lt hfuture) (hzero ▸ lt_irrefl _)
  · intro h hfuture
    exact if_neg fun hle => h ⟨hfuture, (truncate_le (hnow.trans hfuture.le) _).mp hle⟩

end Future

/-- Every form is understood but the one with hundredths; and a time in the future is taken
for one in the past if and only if it is within the current second. -/
theorem start_time_understood_iff (clock : Clock) (t : StartTime) :
    t.Understood clock ↔ ¬t.HasHundredths ∧
      ¬(clock.now < t.denotes clock ∧ t.denotes clock < clock.seconds + 1) := by
  by_cases h : t.HasHundredths
  · refine ⟨?_, fun hnot => absurd h hnot.1⟩
    rintro ⟨retval, hparse, -⟩
    cases t with
    | hundredths hour minute second fraction =>
      rw [parseTime, recognise_hundredths] at hparse
      cases hparse
    | _ => exact h.elim
  · rw [StartTime.Understood, parseTime, recognised clock h, ← kept_iff]
    refine ⟨?_, fun hkept => ⟨_, rfl, hkept.2⟩⟩
    rintro ⟨retval, hparse, hkept⟩
    cases hparse
    exact ⟨h, hkept⟩

/-- `124500.00` -/
def quarterToOne : StartTime :=
  .hundredths ⟨[49, 50], by decide +kernel, nofun, rfl, by decide +kernel⟩
    ⟨[52, 53], by decide +kernel, nofun, rfl, by decide +kernel⟩
    ⟨[48, 48], by decide +kernel, nofun, rfl, by decide +kernel⟩ ⟨[48, 48], by decide +kernel, nofun⟩

/-- A quarter to one is not a time if its hundredths are written. -/
theorem hundredths_rejected :
    ¬quarterToOne.Understood ⟨1170000000, 0, by decide, 0⟩ := by
  rintro ⟨retval, hparse, -⟩
  rw [quarterToOne, parseTime, recognise_hundredths] at hparse
  cases hparse

end TsunamiUdp.RtServer

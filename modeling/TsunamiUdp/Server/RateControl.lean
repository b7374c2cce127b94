import Mathlib.Data.List.Forall2
import Mathlib.Tactic.Positivity
import TsunamiUdp.Server.Accept

/-! How the delay follows the error rates the client reports: two clients side by side. -/
namespace TsunamiUdp.Server
open Library

/-- The factors are what their names say, and the threshold is below the whole scale. -/
structure Settings (param : Parameter) : Prop where
  slowerDen : 0 < param.slowerDen
  slower : param.slowerDen ≤ param.slowerNum
  fasterNum : 0 < param.fasterNum
  faster : param.fasterNum ≤ param.fasterDen
  threshold : param.errorRate < 100000

def ipdFactor (param : Parameter) (errorRate : Nat) : Rat :=
  if errorRate > param.errorRate then
    1 + (param.slowerNum / param.slowerDen - 1) *
      ((1 + errorRate - param.errorRate) / (100000 - param.errorRate))
  else param.fasterNum / param.fasterDen

def clampIpd (param : Parameter) (ipd : Rat) : Rat := max (min ipd 10000) param.ipdTime

structure Bounded (param : Parameter) (ipd : Rat) : Prop where
  least : (param.ipdTime : Rat) ≤ ipd
  most : ipd ≤ max 10000 (param.ipdTime : Rat)

structure Report where
  errorRate : Nat
  block : Nat
  send : SendResult

def Report.request (report : Report) : Retransmission :=
  ⟨requestErrorRate, report.block, report.errorRate⟩

def acceptReport (param : Parameter) (xfer : Transfer) (report : Report) : Transfer :=
  (ttpAcceptRetransmit param report.send report.request xfer).xfer

def acceptReports (param : Parameter) (xfer : Transfer) (reports : List Report) : Transfer :=
  reports.foldl (acceptReport param) xfer

section Factor
variable {param : Parameter}

theorem adjustIpd_eq (param : Parameter) (errorRate : Nat) (ipd : Rat) :
    adjustIpd param errorRate ipd = ipd * ipdFactor param errorRate := by
  unfold adjustIpd ipdFactor
  split <;> rfl

theorem acceptReport_ipd (param : Parameter) (xfer : Transfer) (report : Report) :
    (acceptReport param xfer report).ipdCurrent =
      clampIpd param (xfer.ipdCurrent * ipdFactor param report.errorRate) := by
  unfold acceptReport ttpAcceptRetransmit
  rw [if_pos (show report.request.requestType = requestErrorRate from rfl), ← adjustIpd_eq]
  rfl

theorem slower_nonneg (h : Settings param) :
    (0 : Rat) ≤ param.slowerNum / param.slowerDen - 1 := by
  have hden : (0 : Rat) < param.slowerDen := by exact_mod_cast h.slowerDen
  have hslower : (param.slowerDen : Rat) ≤ param.slowerNum := by exact_mod_cast h.slower
  have hratio : (1 : Rat) ≤ param.slowerNum / param.slowerDen := (one_le_div hden).mpr hslower
  linarith

theorem scale_pos (h : Settings param) : (0 : Rat) < 100000 - param.errorRate := by
  have hthreshold : (param.errorRate : Rat) < 100000 := by exact_mod_cast h.threshold
  linarith

theorem one_le_ipdFactor (h : Settings param) {errorRate : Nat} (hover : param.errorRate < errorRate) :
    1 ≤ ipdFactor param errorRate := by
  have hslower := slower_nonneg h
  have hscale := scale_pos h
  have hrate : (param.errorRate : Rat) ≤ errorRate := by exact_mod_cast hover.le
  have hfraction : (0 : Rat) ≤ (1 + errorRate - param.errorRate) / (100000 - param.errorRate) :=
    div_nonneg (by linarith) hscale.le
  have hproduct := mul_nonneg hslower hfraction
  unfold ipdFactor
  rw [if_pos hover]
  linarith

theorem ipdFactor_le_one (h : Settings param) {errorRate : Nat} (hunder : errorRate ≤ param.errorRate) :
    ipdFactor param errorRate ≤ 1 := by
  have hfaster : (param.fasterNum : Rat) ≤ param.fasterDen := by exact_mod_cast h.faster
  have hden : (0 : Rat) < param.fasterDen := by exact_mod_cast h.fasterNum.trans_le h.faster
  unfold ipdFactor
  rw [if_neg (by omega)]
  exact (div_le_one hden).mpr hfaster

theorem ipdFactor_nonneg (h : Settings param) (errorRate : Nat) : 0 ≤ ipdFactor param errorRate := by
  by_cases hover : param.errorRate < errorRate
  · exact zero_le_one.trans (one_le_ipdFactor h hover)
  · unfold ipdFactor
    rw [if_neg hover]
    positivity

theorem ipdFactor_mono (h : Settings param) {first second : Nat} (hle : first ≤ second) :
    ipdFactor param first ≤ ipdFactor param second := by
  by_cases hfirst : param.errorRate < first
  · have hslower := slower_nonneg h
    have hscale := scale_pos h
    have hrate : (first : Rat) ≤ second := by exact_mod_cast hle
    unfold ipdFactor
    rw [if_pos hfirst, if_pos (hfirst.trans_le hle)]
    gcongr
  · by_cases hsecond : param.errorRate < second
    · -- the first report is at most the threshold and the second above it
      exact (ipdFactor_le_one h (not_lt.mp hfirst)).trans (one_le_ipdFactor h hsecond)
    · unfold ipdFactor
      rw [if_neg hfirst, if_neg hsecond]

theorem clampIpd_mono (param : Parameter) {x y : Rat} (h : x ≤ y) :
    clampIpd param x ≤ clampIpd param y :=
  max_le_max_right _ (min_le_min_right _ h)

theorem clampIpd_of_nonpos {x : Rat} (h : x ≤ 0) : clampIpd param x = param.ipdTime := by
  have htime : (0 : Rat) ≤ param.ipdTime := Nat.cast_nonneg _
  exact max_eq_right ((min_le_left _ _).trans (h.trans htime))

theorem clampIpd_bounded (param : Parameter) (ipd : Rat) : Bounded param (clampIpd param ipd) :=
  ⟨le_max_right _ _, max_le_max_right _ (min_le_right _ _)⟩

theorem acceptReport_mono (h : Settings param) {x y : Transfer} {first second : Report}
    (hipd : x.ipdCurrent ≤ y.ipdCurrent) (hrate : first.errorRate ≤ second.errorRate) :
    (acceptReport param x first).ipdCurrent ≤ (acceptReport param y second).ipdCurrent := by
  have hfirst := ipdFactor_nonneg h first.errorRate
  rw [acceptReport_ipd, acceptReport_ipd]
  rcases le_total 0 x.ipdCurrent with hpos | hneg
  · apply clampIpd_mono
    exact mul_le_mul hipd (ipdFactor_mono h hrate) hfirst (hpos.trans hipd)
  · rw [clampIpd_of_nonpos (mul_nonpos_of_nonpos_of_nonneg hneg hfirst)]
    exact (clampIpd_bounded _ _).least

theorem acceptReports_mono (h : Settings param) {x y : Transfer} {first second : List Report}
    (hipd : x.ipdCurrent ≤ y.ipdCurrent)
    (hrates : List.Forall₂ (fun a b => a.errorRate ≤ b.errorRate) first second) :
    (acceptReports param x first).ipdCurrent ≤ (acceptReports param y second).ipdCurrent := by
  induction hrates generalizing x y with
  | nil => exact hipd
  | cons hrate hrates ih => exact ih (acceptReport_mono h hipd hrate)

theorem acceptReports_bounded (param : Parameter) (x : Transfer) {reports : List Report}
    (hsome : reports ≠ []) : Bounded param (acceptReports param x reports).ipdCurrent := by
  obtain ⟨before, last, rfl⟩ := (List.eq_nil_or_concat reports).resolve_left hsome
  rw [List.concat_eq_append, acceptReports, List.foldl_append, List.foldl_cons, List.foldl_nil,
    acceptReport_ipd]
  exact clampIpd_bounded _ _

end Factor

/-- Reports that are never higher never leave a longer delay, and every report leaves one
in range. -/
theorem ipd_follows_reports {param : Parameter} (h : Settings param) (x y : Transfer)
    {first second : List Report} (hstart : x.ipdCurrent = y.ipdCurrent)
    (hrates : List.Forall₂ (fun a b => a.errorRate ≤ b.errorRate) first second) (k : Nat)
    (h1 : 1 ≤ k) (hk : k ≤ first.length) :
    let s := acceptReports param x (first.take k)
    let t := acceptReports param y (second.take k)
    s.ipdCurrent ≤ t.ipdCurrent ∧ Bounded param s.ipdCurrent ∧ Bounded param t.ipdCurrent := by
  have hsome : ∀ reports : List Report, k ≤ reports.length → reports.take k ≠ [] := by
    intro reports hle hnil
    have hlen := congrArg List.length hnil
    rw [List.length_take_of_le hle, List.length_nil] at hlen
    omega
  exact ⟨acceptReports_mono h hstart.le (List.forall₂_take k hrates),
    acceptReports_bounded param x (hsome first hk),
    acceptReports_bounded param y (hsome second (hrates.length_eq ▸ hk))⟩

/-- A report at the threshold, and one above it; the delay starts at 60 microseconds. -/
theorem ipd_follows_reports_sample :
    let s := acceptReports ⟨1024, 3, 7500, 20, 25, 24, 5, 6, 15⟩ ⟨0, 60, ⟨0, ⟨[], 0⟩, []⟩⟩
      [⟨7500, 0, .ok⟩]
    let t := acceptReports ⟨1024, 3, 7500, 20, 25, 24, 5, 6, 15⟩ ⟨0, 60, ⟨0, ⟨[], 0⟩, []⟩⟩
      [⟨7501, 0, .ok⟩]
    s.ipdCurrent ≤ t.ipdCurrent ∧ Bounded ⟨1024, 3, 7500, 20, 25, 24, 5, 6, 15⟩ s.ipdCurrent ∧
      Bounded ⟨1024, 3, 7500, 20, 25, 24, 5, 6, 15⟩ t.ipdCurrent :=
  ipd_follows_reports ⟨by decide, by decide, by decide, by decide, by decide⟩ _ _ rfl
    (.cons (by decide) .nil) 1 (by decide) (by decide)

end TsunamiUdp.Server

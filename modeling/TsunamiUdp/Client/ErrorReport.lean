import Mathlib.Tactic.Linarith
import TsunamiUdp.Library.Runs
import TsunamiUdp.Client.Transfer

/-! The error rate that the client reports: how it is filtered, and what the filling of
the ring has to do with it. -/
namespace TsunamiUdp.Client
open Library

/-- The counters of the statistics and of the ring as a call of `ttp_update_stats` finds
them, and how its writing ends. -/
structure Counts where
  totalBlocks : Nat
  thisBlocks : Nat
  thisRetransmits : Nat
  totalRetransmits : Nat
  countData : Int
  write : WriteResult

def Counts.into (counts : Counts) (xfer : Transfer) : Transfer :=
  { xfer with stats := { xfer.stats with
    totalBlocks := counts.totalBlocks
    thisBlocks := counts.thisBlocks
    thisRetransmits := counts.thisRetransmits
    totalRetransmits := counts.totalRetransmits } }

def updateStats (param : Parameter) (xfer : Transfer) (counts : Counts) : Option Transfer :=
  (ttpUpdateStats param counts.write counts.countData (counts.into xfer)).map Written.xfer

/-- The ring holds as many blocks as it can, and the total has not run past 32 bits since
the last call. -/
structure Counts.Sound (counts : Counts) : Prop where
  empty : 0 ≤ counts.countData
  full : counts.countData ≤ Ring.maxBlocksQueued
  forward : counts.thisBlocks ≤ counts.totalBlocks
  some : wrap32 (counts.totalRetransmits + counts.totalBlocks) ≠ 0

/-- Within the scale of a threshold, 100000 being everything. -/
structure InScale (errorRate : Rat) : Prop where
  nonneg : 0 ≤ errorRate
  below : errorRate < 100000

/-- The one rate is larger than the other, and both are numbers. -/
def Exceeds (larger smaller : Option Rat) : Prop :=
  ∃ rate rate', smaller = some rate ∧ larger = some rate' ∧ rate < rate'

def Counts.divisor (counts : Counts) : Rat :=
  1 + counts.thisRetransmits + counts.totalBlocks - counts.thisBlocks

def rawError (counts : Counts) : Rat :=
  500 * 100 * (counts.thisRetransmits / counts.divisor +
    (counts.countData / Ring.maxBlocksQueued : Int))

section Filter
variable {param : Parameter} {xfer t : Transfer} {counts : Counts}

theorem updateStats_some (h : updateStats param xfer counts = some t) :
    t.stats.errorRate = xfer.stats.errorRate.bind fun old =>
      if counts.divisor = 0 then none
      else some (param.history / 100 * old + (1 - param.history / 100) * rawError counts) := by
  obtain ⟨updated, hupdated, rfl⟩ := Option.map_eq_some_iff.mp h
  obtain ⟨fraction, -, rfl⟩ := Option.map_eq_some_iff.mp hupdated
  have hfraction : (counts.into xfer).stats.retransmitsFraction =
      if counts.divisor = 0 then none else some (counts.thisRetransmits / counts.divisor) := rfl
  have hrate : ∀ old : Rat,
      param.history / 100 * old + (1 - param.history / 100) * 500 * 100 *
          (counts.thisRetransmits / counts.divisor + (counts.countData / Ring.maxBlocksQueued : Int)) =
        param.history / 100 * old + (1 - param.history / 100) * rawError counts := fun old => by
    rw [rawError]
    ring
  have hold : (counts.into xfer).stats.errorRate = xfer.stats.errorRate := rfl
  simp only [apply_ite Written.xfer, apply_ite Transfer.stats, apply_ite Statistics.errorRate, ite_self,
    hfraction, hold]
  congr 1
  funext old
  split
  · rfl
  · exact congrArg some (hrate old)

variable (param xfer counts) in
theorem updateStats_isSome (h : wrap32 (counts.totalRetransmits + counts.totalBlocks) ≠ 0) :
    ∃ t, updateStats param xfer counts = some t := by
  have hreturns : ttpUpdateStats param counts.write counts.countData (counts.into xfer) ≠ none :=
    fun hnone => h (ttpUpdateStats_eq_none_iff.mp hnone)
  obtain ⟨updated, hupdated⟩ := Option.ne_none_iff_exists'.mp hreturns
  exact ⟨updated.xfer, congrArg (Option.map Written.xfer) hupdated⟩

theorem ringfill_eq {countData : Int} (h0 : 0 ≤ countData) (hmax : countData ≤ Ring.maxBlocksQueued) :
    countData / Ring.maxBlocksQueued = if countData = Ring.maxBlocksQueued then 1 else 0 := by
  unfold Ring.maxBlocksQueued at hmax ⊢
  split <;> omega

theorem Counts.Sound.divisor_pos (h : counts.Sound) :
    0 < counts.divisor ∧ (counts.thisRetransmits : Rat) < counts.divisor := by
  have hforward : (counts.thisBlocks : Rat) ≤ counts.totalBlocks := by exact_mod_cast h.forward
  have hretransmits : (0 : Rat) ≤ counts.thisRetransmits := Nat.cast_nonneg _
  unfold divisor
  constructor <;> linarith

theorem rawError_inScale (h : counts.Sound) : InScale (rawError counts) := by
  have hretransmits : (0 : Rat) ≤ counts.thisRetransmits := Nat.cast_nonneg _
  obtain ⟨hall, hless⟩ := h.divisor_pos
  have hfraction := div_nonneg hretransmits hall.le
  have hfraction' := (div_lt_one hall).mpr hless
  unfold rawError
  rw [ringfill_eq h.empty h.full]
  split
  · constructor <;> push_cast <;> linarith
  · constructor <;> push_cast <;> linarith

theorem filter_inScale {history : Nat} {old raw : Rat} (hhistory : history ≤ 99) (hold : InScale old)
    (hraw : InScale raw) : InScale (history / 100 * old + (1 - history / 100) * raw) := by
  have hpercent : (history : Rat) ≤ 99 := by exact_mod_cast hhistory
  have hback : (0 : Rat) ≤ history / 100 := by positivity
  have hforward : (0 : Rat) < 1 - history / 100 := by linarith
  constructor
  · exact add_nonneg (mul_nonneg hback hold.nonneg) (mul_nonneg hforward.le hraw.nonneg)
  · have hold' := mul_le_mul_of_nonneg_left hold.below.le hback
    have hraw' := mul_lt_mul_of_pos_left hraw.below hforward
    linarith

def Scaled (errorRate : Option Rat) : Prop := ∃ rate, errorRate = some rate ∧ InScale rate

theorem updateStats_scaled (hhistory : param.history ≤ 99) (hscale : Scaled xfer.stats.errorRate)
    (hcounts : counts.Sound) (h : updateStats param xfer counts = some t) :
    Scaled t.stats.errorRate := by
  obtain ⟨old, hold, hin⟩ := hscale
  rw [updateStats_some h, hold, Option.bind_some, if_neg hcounts.divisor_pos.1.ne']
  exact ⟨_, rfl, filter_inScale hhistory hin (rawError_inScale hcounts)⟩

theorem updates_scaled (hhistory : param.history ≤ 99) {updates : List Counts}
    (hcounts : ∀ counts ∈ updates, counts.Sound) (hscale : Scaled xfer.stats.errorRate) :
    ∃ t, run (updateStats param) xfer updates = some t ∧ Scaled t.stats.errorRate := by
  induction updates generalizing xfer with
  | nil => exact ⟨xfer, rfl, hscale⟩
  | cons counts updates ih =>
    have hsound := hcounts counts List.mem_cons_self
    obtain ⟨mid, hmid⟩ := updateStats_isSome param xfer counts hsound.some
    obtain ⟨t, ht, hin⟩ := ih (fun c hc => hcounts c (List.mem_cons_of_mem _ hc))
      (updateStats_scaled hhistory hscale hsound hmid)
    refine ⟨t, ?_, hin⟩
    rw [run_cons, hmid]
    exact ht

variable (counts) in
theorem exceeds_iff (hhistory : param.history ≤ 99) {fewer more : Int} (h0 : 0 ≤ fewer)
    (hlt : fewer < more) (hmax : more ≤ Ring.maxBlocksQueued) {s t : Transfer}
    (hs : updateStats param xfer { counts with countData := fewer } = some s)
    (ht : updateStats param xfer { counts with countData := more } = some t) :
    Exceeds t.stats.errorRate s.stats.errorRate ↔
      more = Ring.maxBlocksQueued ∧ counts.divisor ≠ 0 ∧ xfer.stats.errorRate ≠ none := by
  have hpercent : (param.history : Rat) ≤ 99 := by exact_mod_cast hhistory
  have hforward : (0 : Rat) < 1 - param.history / 100 := by linarith
  have hfewer := ringfill_eq h0 (hlt.le.trans hmax)
  rw [if_neg (by omega)] at hfewer
  rw [updateStats_some hs, updateStats_some ht]
  change Exceeds (Option.bind _ fun old => if counts.divisor = 0 then none else _)
    (Option.bind _ fun old => if counts.divisor = 0 then none else _) ↔ _
  cases hold : xfer.stats.errorRate with
  | none =>
    refine iff_of_false ?_ fun h => h.2.2 rfl
    rintro ⟨rate, -, hnone, -⟩
    cases hnone
  | some old =>
    simp only [Option.bind_some]
    split
    · rename_i hzero
      refine iff_of_false ?_ fun h => h.2.1 hzero
      rintro ⟨rate, -, hnone, -⟩
      cases hnone
    · rename_i hnonzero
      have hmore : (∃ rate rate', some (param.history / 100 * old + (1 - param.history / 100) *
            rawError { counts with countData := fewer }) = some rate ∧
          some (param.history / 100 * old + (1 - param.history / 100) *
            rawError { counts with countData := more }) = some rate' ∧ rate < rate') ↔
          rawError { counts with countData := fewer } < rawError { counts with countData := more } := by
        simp [add_lt_add_iff_left, mul_lt_mul_iff_right₀ hforward]
      refine hmore.trans ?_
      have hraw : rawError { counts with countData := fewer } <
          rawError { counts with countData := more } ↔ more = Ring.maxBlocksQueued := by
        unfold rawError Counts.divisor
        dsimp only
        rw [hfewer, ringfill_eq (h0.trans hlt.le) hmax]
        split
        · rename_i hfull
          exact ⟨fun _ => hfull, fun _ => by push_cast; linarith⟩
        · rename_i hroom
          exact ⟨fun h => absurd h (lt_irrefl _), fun h => absurd h hroom⟩
      rw [hraw]
      exact ⟨fun h => ⟨h, hnonzero, Option.some_ne_none old⟩, fun h => h.1⟩

end Filter

/-- In calls with sound counters the filter stays in scale. Of two fillings of the ring the
larger one shows in the error rate if and only if it is a full ring and no call divides by 0. -/
theorem error_report_iff (param : Parameter) (hhistory : param.history ≤ 99) (xfer : Transfer)
    (hscale : Scaled xfer.stats.errorRate) (updates : List Counts)
    (hcounts : ∀ counts ∈ updates, counts.Sound) :
    (∃ t, run (updateStats param) xfer updates = some t ∧ Scaled t.stats.errorRate) ∧
      ∀ (y s t : Transfer) (counts : Counts) (fewer more : Int),
        0 ≤ fewer → fewer < more → more ≤ Ring.maxBlocksQueued →
        updateStats param y { counts with countData := fewer } = some s →
        updateStats param y { counts with countData := more } = some t →
        (Exceeds t.stats.errorRate s.stats.errorRate ↔
          more = Ring.maxBlocksQueued ∧ counts.divisor ≠ 0 ∧ y.stats.errorRate ≠ none) :=
  ⟨updates_scaled hhistory hcounts hscale, fun _ _ _ counts _ _ h0 hlt hmax hs ht =>
    exceeds_iff counts hhistory h0 hlt hmax hs ht⟩

/-- Two calls, the second one with a full ring. -/
theorem error_report_iff_sample :
    (∃ t, run (updateStats ⟨1024, true, 0, 25⟩) (.start 1 1 0)
        [⟨50, 0, 3, 3, 7, .ok⟩, ⟨100, 50, 0, 3, 4096, .ok⟩] = some t ∧ Scaled t.stats.errorRate) ∧
      ∀ s t, updateStats ⟨1024, true, 0, 25⟩ (.start 1 1 0) ⟨50, 0, 3, 3, 4095, .ok⟩ = some s →
        updateStats ⟨1024, true, 0, 25⟩ (.start 1 1 0) ⟨50, 0, 3, 3, 4096, .ok⟩ = some t →
        Exceeds t.stats.errorRate s.stats.errorRate := by
  obtain ⟨hrun, hstrict⟩ := error_report_iff ⟨1024, true, 0, 25⟩ (by decide) (.start 1 1 0)
    ⟨0, rfl, ⟨le_rfl, by norm_num⟩⟩ [⟨50, 0, 3, 3, 7, .ok⟩, ⟨100, 50, 0, 3, 4096, .ok⟩] (by
      intro counts hmem
      rcases List.mem_pair.mp hmem with rfl | rfl
      · exact ⟨by decide, by decide, by decide, by decide⟩
      · exact ⟨by decide, by decide, by decide, by decide⟩)
  exact ⟨hrun, fun s t hs ht => (hstrict (.start 1 1 0) s t ⟨50, 0, 3, 3, 0, .ok⟩ 4095 4096
    (by decide) (by decide) (by decide) hs ht).mpr ⟨rfl, by norm_num [Counts.divisor],
      Option.some_ne_none 0⟩⟩

/-- A ring with room for one more block is reported like an empty one. -/
theorem crowded_ring_unreported :
    ∃ s t, updateStats ⟨1024, true, 0, 25⟩ (.start 1 1 0) ⟨50, 0, 3, 3, 0, .ok⟩ = some s ∧
      updateStats ⟨1024, true, 0, 25⟩ (.start 1 1 0) ⟨50, 0, 3, 3, 4095, .ok⟩ = some t ∧
      ¬Exceeds t.stats.errorRate s.stats.errorRate := by
  obtain ⟨s, hs⟩ := updateStats_isSome ⟨1024, true, 0, 25⟩ (.start 1 1 0) ⟨50, 0, 3, 3, 0, .ok⟩ (by decide)
  obtain ⟨t, ht⟩ := updateStats_isSome ⟨1024, true, 0, 25⟩ (.start 1 1 0) ⟨50, 0, 3, 3, 4095, .ok⟩
    (by decide)
  refine ⟨s, t, hs, ht, fun hlt => ?_⟩
  have hfull := (exceeds_iff ⟨50, 0, 3, 3, 0, .ok⟩ (by decide) le_rfl (by decide) (by decide) hs ht).mp hlt
  exact absurd hfull.1 (by decide)

end TsunamiUdp.Client

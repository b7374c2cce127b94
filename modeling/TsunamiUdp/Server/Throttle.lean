import Mathlib.Algebra.Order.Archimedean.Basic
import TsunamiUdp.Server.Heartbeat
import TsunamiUdp.Server.RateControl

/-! The delay over a run of the transmit loop: it is what the reports make of it, those of the client
and those that the monitor makes in its place. A silent client is slowed down by a power of one
factor, and a client without losses comes back to the rate it has asked for. -/
namespace TsunamiUdp.Server
open Library

def Turn.rates (turn : Turn) : List Nat :=
  (turn.acted.toList.filter (·.requestType = requestErrorRate)).map (·.errorRate) ++
    if turn.reported then [100000] else []

def ratesOf (order : ByteOrder) (param : Parameter) : Loop → List Input → List Nat
  | _, [] => []
  | s, input :: inputs =>
    (handlerTurn order param input s.handler).rates ++
      match Loop.step order param s input with
      | some t => ratesOf order param t inputs
      | none => []

def applyRate (param : Parameter) (ipd : Rat) (rate : Nat) : Rat :=
  clampIpd param (ipd * ipdFactor param rate)

def applyRates (param : Parameter) (ipd : Rat) (rates : List Nat) : Rat :=
  rates.foldl (applyRate param) ipd

@[simp] theorem applyRates_append (param : Parameter) (ipd : Rat) (rates more : List Nat) :
    applyRates param ipd (rates ++ more) = applyRates param (applyRates param ipd rates) more :=
  List.foldl_append

def Due (s : Loop) (input : Input) : Prop :=
  500000 ≤ usecSince input.checkTime s.handler.lasthblostreport

instance (s : Loop) (input : Input) : Decidable (Due s input) :=
  inferInstanceAs (Decidable (_ ≤ _))

section Closed
variable {param : Parameter}

theorem clampIpd_scaled {x f : Rat}
    (h : (param.ipdTime : Rat) ≤ x ∧ 1 ≤ f ∨ x ≤ max 10000 (param.ipdTime : Rat) ∧ 0 ≤ f ∧ f ≤ 1) :
    clampIpd param (clampIpd param x * f) = clampIpd param (x * f) := by
  have htime : (0 : Rat) ≤ param.ipdTime := Nat.cast_nonneg _
  unfold clampIpd
  rcases lt_or_ge (10000 : Rat) param.ipdTime with hslow | hfast
  · -- there is only one delay in range
    rw [max_eq_right ((min_le_right _ _).trans hslow.le), max_eq_right ((min_le_right _ _).trans hslow.le)]
  · rcases h with ⟨hx, hf⟩ | ⟨hx, hf, hf1⟩
    · rcases le_total x 10000 with hle | hge
      · rw [min_eq_left hle, max_eq_left hx]
      · have hup : (10000 : Rat) ≤ 10000 * f := by linarith
        have hupx : (10000 : Rat) ≤ x * f := by nlinarith
        rw [min_eq_right hge, max_eq_left hfast, min_eq_right hup, min_eq_right hupx]
    · rw [max_eq_left hfast] at hx
      rw [min_eq_left hx]
      rcases le_total (param.ipdTime : Rat) x with hge | hle
      · rw [max_eq_left hge]
      · have hdown : (param.ipdTime : Rat) * f ≤ param.ipdTime := by nlinarith
        have hdownx : x * f ≤ param.ipdTime := by nlinarith
        rw [max_eq_right hle, max_eq_right ((min_le_left _ _).trans hdown),
          max_eq_right ((min_le_left _ _).trans hdownx)]

theorem applyRates_pow {x f : Rat} {rates : List Nat} (hfactor : ∀ rate ∈ rates, ipdFactor param rate = f)
    (h : (param.ipdTime : Rat) ≤ x ∧ 1 ≤ f ∨ x ≤ max 10000 (param.ipdTime : Rat) ∧ 0 ≤ x ∧ 0 ≤ f ∧ f ≤ 1)
    (hsome : rates ≠ []) : applyRates param x rates = clampIpd param (x * f ^ rates.length) := by
  induction rates using List.reverseRecOn with
  | nil => exact absurd rfl hsome
  | append_singleton rates rate ih =>
    have hlast : ipdFactor param rate = f := hfactor rate (by simp)
    rw [applyRates_append, List.length_append, List.length_singleton, pow_succ, ← mul_assoc]
    change applyRate param _ rate = _
    rw [applyRate, hlast]
    by_cases hnil : rates = []
    · subst hnil
      simp [applyRates]
    · rw [ih (fun rate hrate => hfactor rate (List.mem_append_left _ hrate)) hnil]
      apply clampIpd_scaled
      rcases h with ⟨hx, hf⟩ | ⟨hx, hpos, hf, hf1⟩
      · left
        have htime : (0 : Rat) ≤ param.ipdTime := Nat.cast_nonneg _
        have hpow : (1 : Rat) ≤ f ^ rates.length := one_le_pow₀ hf
        exact ⟨hx.trans (le_mul_of_one_le_right (htime.trans hx) hpow), hf⟩
      · right
        have hpow : f ^ rates.length ≤ 1 := pow_le_one₀ hf hf1
        exact ⟨(mul_le_of_le_one_right hpos hpow).trans hx, hf, hf1⟩

end Closed

theorem accept_ipd (param : Parameter) (send : SendResult) (r : Retransmission) (xfer : Transfer) :
    (ttpAcceptRetransmit param send r xfer).xfer.ipdCurrent =
      if r.requestType = requestErrorRate then applyRate param xfer.ipdCurrent r.errorRate
      else xfer.ipdCurrent := by
  unfold ttpAcceptRetransmit
  split
  · rw [applyRate, ← adjustIpd_eq]
    rfl
  · split
    · split <;> rfl
    · split <;> rfl

inductive Rated (param : Parameter) (input : Input) (s : Loop) (turn : Turn) : Prop
  | asked (r : Retransmission) (cause : input.read ≠ .nothing) (acted : turn.acted = some r)
      (reported : turn.reported = false)
      (ipd : turn.handler.xfer.ipdCurrent =
        if r.requestType = requestErrorRate then applyRate param s.handler.xfer.ipdCurrent r.errorRate
        else s.handler.xfer.ipdCurrent)
  | left (cause : input.read ≠ .nothing) (acted : turn.acted = none) (reported : turn.reported = false)
      (ipd : turn.handler.xfer.ipdCurrent = s.handler.xfer.ipdCurrent)
  | unsent (acted : turn.acted = none) (reported : turn.reported = false) (unsent : input.send ≠ .ok)
      (counter : turn.handler.deadconnectionCounter = s.handler.deadconnectionCounter)
      (ipd : turn.handler.xfer.ipdCurrent = s.handler.xfer.ipdCurrent)
  | counted (acted : turn.acted = none) (reported : turn.reported = false) (sent : input.send = .ok)
      (low : s.handler.deadconnectionCounter ≤ 2048)
      (counter : turn.handler.deadconnectionCounter = s.handler.deadconnectionCounter + 1)
      (ipd : turn.handler.xfer.ipdCurrent = s.handler.xfer.ipdCurrent)
  | early (acted : turn.acted = none) (reported : turn.reported = false) (sent : input.send = .ok)
      (high : 2048 < s.handler.deadconnectionCounter) (early : ¬Due s input)
      (counter : turn.handler.deadconnectionCounter = 0)
      (ipd : turn.handler.xfer.ipdCurrent = s.handler.xfer.ipdCurrent)
  | slowed (acted : turn.acted = none) (reported : turn.reported = true) (sent : input.send = .ok)
      (high : 2048 < s.handler.deadconnectionCounter)
      (counter : turn.handler.deadconnectionCounter = 0)
      (ipd : turn.handler.xfer.ipdCurrent = applyRate param s.handler.xfer.ipdCurrent 100000)

section Passes
variable {order : ByteOrder} {param : Parameter} {input : Input} {s t : Loop} {inputs : List Input}

theorem rated_complete {h1 : Handler} (hdata : input.read ≠ .nothing) (hxfer : h1.xfer = s.handler.xfer) :
    Rated param input s
      (finish order param input (handleRequest order param input.now input.send h1)) := by
  unfold handleRequest
  dsimp only
  split
  · rename_i hstop
    rw [finish, if_pos rfl]
    refine .asked _ hdata rfl rfl ?_
    rw [hstop, if_neg (by decide), hxfer]
  · rw [finish, if_neg (by simp), if_neg (by simp), heartbeat_counts (Nat.zero_le _)]
    refine .asked _ hdata rfl rfl ?_
    rw [← hxfer]
    exact accept_ipd param input.send _ _

theorem reportLost_ipd {turn : Turn} (hmem : turn.handler.retransmission.length = sizeofRetransmission) :
    (reportLost order param input turn).handler.xfer.ipdCurrent =
      applyRate param turn.handler.xfer.ipdCurrent 100000 := by
  rw [reportLost_handler]
  dsimp only
  rw [decode_fakeReport hmem, accept_ipd, if_pos rfl]

theorem reportLost_reported (turn : Turn) : (reportLost order param input turn).reported = true := by
  unfold reportLost sleep
  dsimp only
  split <;> rfl

theorem rated_sent {h1 : Handler} (hsend : input.send = .ok)
    (hmem : h1.retransmission.length = sizeofRetransmission)
    (hcounter : h1.deadconnectionCounter = s.handler.deadconnectionCounter)
    (hreport : h1.lasthblostreport = s.handler.lasthblostreport) (hxfer : h1.xfer = s.handler.xfer) :
    Rated param input s (heartbeat order param input (transmitBlock param input.send h1)) := by
  have hipd : h1.xfer.ipdCurrent = s.handler.xfer.ipdCurrent := by rw [hxfer]
  by_cases hlow : s.handler.deadconnectionCounter ≤ 2048
  · rw [heartbeat_counts (by rw [← hcounter] at hlow; exact hlow)]
    refine .counted rfl rfl hsend hlow ?_ hipd
    change wrap32 (h1.deadconnectionCounter + 1) = _
    rw [hcounter, wrap32_of_lt (by omega)]
  · have hhigh : 2048 < s.handler.deadconnectionCounter := by omega
    unfold heartbeat
    dsimp only
    rw [if_pos (by rw [← hcounter] at hhigh; exact hhigh)]
    split
    · rename_i hearly
      refine .early rfl rfl hsend hhigh ?_ rfl hipd
      unfold Due
      rw [← hreport]
      exact not_le.mpr hearly
    · refine .slowed ?_ (reportLost_reported _) hsend hhigh ?_ ?_
      · exact (reportLost_spec order param input _).2.1
      · rw [reportLost_handler]
      · rw [reportLost_ipd (by exact hmem)]
        exact congrArg (applyRate param · 100000) hipd

variable (order param) in
theorem handlerTurn_rated (hready : Ready s.handler) (hread : Readable input.read s.handler) :
    Rated param input s (handlerTurn order param input s.handler) := by
  have hroom := readable_le hread hready.room
  unfold handlerTurn
  cases hr : readRequest input.read (pace input.now s.handler) with
  | none =>
    dsimp only
    rw [hr]
    refine .left (fun hnothing => ?_) rfl rfl rfl
    rw [hnothing] at hr
    cases hr
  | some h1 =>
    have hmem := readRequest_memory (h := pace input.now s.handler) ⟨hready.memory, hready.room⟩ hread hr
    dsimp only
    rw [hr]
    obtain ⟨again, rfl⟩ := readRequest_some hr
    dsimp only [pace] at hmem ⊢
    by_cases hfull : s.handler.retransmitlen + input.read.bytes.length = sizeofRetransmission
    · rw [if_pos hfull]
      refine rated_complete (fun hnothing => ?_) rfl
      have hshort := hready.room
      rw [hnothing] at hfull
      exact hshort.ne hfull
    · rw [if_neg hfull, if_pos (by omega)]
      by_cases hsend : input.send = .ok
      · rw [hsend, finish_sent, ← hsend]
        exact rated_sent hsend hmem rfl rfl rfl
      · rw [finish, if_neg (by simp [transmitBlock]), if_pos (by simp [transmitBlock, hsend])]
        exact .unsent rfl rfl hsend rfl rfl

theorem rates_none {turn : Turn} (hacted : turn.acted = none) (hreported : turn.reported = false) :
    turn.rates = [] := by
  simp [Turn.rates, hacted, hreported]

theorem rates_reported {turn : Turn} (hacted : turn.acted = none) (hreported : turn.reported = true) :
    turn.rates = [100000] := by
  simp [Turn.rates, hacted, hreported]

theorem Rated.ipd {turn : Turn} (h : Rated param input s turn) :
    turn.handler.xfer.ipdCurrent = applyRates param s.handler.xfer.ipdCurrent turn.rates := by
  cases h with
  | asked r _ acted reported ipd =>
    rw [ipd]
    by_cases hrate : r.requestType = requestErrorRate
    · simp [Turn.rates, acted, reported, hrate, applyRates]
    · simp [Turn.rates, acted, reported, hrate, applyRates]
  | left _ acted reported ipd => rw [rates_none acted reported, ipd]; rfl
  | unsent acted reported _ _ ipd => rw [rates_none acted reported, ipd]; rfl
  | counted acted reported _ _ _ ipd => rw [rates_none acted reported, ipd]; rfl
  | early acted reported _ _ _ _ ipd => rw [rates_none acted reported, ipd]; rfl
  | slowed acted reported _ _ _ ipd => rw [rates_reported acted reported, ipd]; rfl

theorem ratesOf_cons (hs : Loop.step order param s input = some t) (inputs : List Input) :
    ratesOf order param s (input :: inputs) =
      (handlerTurn order param input s.handler).rates ++ ratesOf order param t inputs := by
  rw [ratesOf, hs]

theorem ipd_run (hready : s.flow = .next → Ready s.handler)
    (hrun : run (Loop.step order param) s inputs = some t) :
    t.handler.xfer.ipdCurrent =
      applyRates param s.handler.xfer.ipdCurrent (ratesOf order param s inputs) := by
  induction inputs generalizing s with
  | nil =>
    cases hrun
    rfl
  | cons input inputs ih =>
    obtain ⟨s', hs, hrest⟩ := run_cons_some hrun
    rw [ratesOf_cons hs, applyRates_append, ih (ready_step hready hs) hrest]
    obtain ⟨hflow, hread, rfl⟩ := step_some hs
    rw [← (handlerTurn_rated order param (hready hflow) hread).ipd]

end Passes

/-- In a silent run the monitor makes one report for every 2050 datagrams, or fewer. -/
structure Slowed (order : ByteOrder) (param : Parameter) (s : Loop) (inputs : List Input) (t : Loop)
    (k : Nat) : Prop where
  rates : ratesOf order param s inputs = List.replicate k 100000
  most : 2050 * k + t.handler.deadconnectionCounter ≤
    s.handler.deadconnectionCounter + delivered inputs
  due : Along (Loop.step order param) Due s inputs →
    2050 * k + t.handler.deadconnectionCounter = s.handler.deadconnectionCounter + delivered inputs
  counter : t.handler.deadconnectionCounter ≤ 2049

section Silence
variable {order : ByteOrder} {param : Parameter} {input : Input} {s s' t : Loop} {inputs : List Input}
  {k m : Nat}

@[simp] theorem delivered_singleton (input : Input) :
    delivered [input] = if input.send = .ok then 1 else 0 := by
  simp [delivered, List.countP_singleton]

theorem slowed_nil (hcounter : s.handler.deadconnectionCounter ≤ 2049) :
    Slowed order param s [] s 0 :=
  ⟨rfl, by simp [delivered], fun _ => by simp [delivered], hcounter⟩

theorem slowed_step (hready : Ready s.handler) (hcounter : s.handler.deadconnectionCounter ≤ 2049)
    (hnothing : input.read = .nothing) (hs : Loop.step order param s input = some t) :
    ∃ k, Slowed order param s [input] t k := by
  have hone := delivered_singleton input
  have hrates : ratesOf order param s [input] = (handlerTurn order param input s.handler).rates := by
    rw [ratesOf_cons hs, ratesOf, List.append_nil]
  obtain ⟨hflow, hread, rfl⟩ := step_some hs
  cases handlerTurn_rated order param hready hread with
  | asked _ cause => exact absurd hnothing cause
  | left cause => exact absurd hnothing cause
  | unsent acted reported unsent counter =>
    rw [if_neg unsent] at hone
    exact ⟨0, by rw [hrates, rates_none acted reported]; rfl, by dsimp only; omega,
      fun _ => by dsimp only; omega, by dsimp only; omega⟩
  | counted acted reported sent low counter =>
    rw [if_pos sent] at hone
    exact ⟨0, by rw [hrates, rates_none acted reported]; rfl, by dsimp only; omega,
      fun _ => by dsimp only; omega, by dsimp only; omega⟩
  | early acted reported sent high early counter =>
    exact ⟨0, by rw [hrates, rates_none acted reported]; rfl, by dsimp only; omega,
      fun hdue => absurd hdue.1 early, by dsimp only; omega⟩
  | slowed acted reported sent high counter =>
    rw [if_pos sent] at hone
    exact ⟨1, by rw [hrates, rates_reported acted reported]; rfl, by dsimp only; omega,
      fun _ => by dsimp only; omega, by dsimp only; omega⟩

theorem Slowed.cons (h : Slowed order param s [input] s' k) (h' : Slowed order param s' inputs t m)
    (hs : Loop.step order param s input = some s') :
    Slowed order param s (input :: inputs) t (k + m) := by
  have hcount := delivered_cons input inputs
  have hone := delivered_singleton input
  have hfirst := h.most
  have hrest := h'.most
  refine ⟨?_, by omega, fun hdue => ?_, h'.counter⟩
  · have hrates := h.rates
    rw [ratesOf_cons hs, ratesOf, List.append_nil] at hrates
    rw [ratesOf_cons hs, hrates, h'.rates, List.replicate_append_replicate]
  · have hthen := h.due ⟨hdue.1, fun _ _ => trivial⟩
    have hlast := h'.due (hdue.2 s' hs)
    omega

theorem slowed_run (hready : s.flow = .next → Ready s.handler)
    (hcounter : s.handler.deadconnectionCounter ≤ 2049)
    (hnothing : ∀ input ∈ inputs, input.read = .nothing)
    (hrun : run (Loop.step order param) s inputs = some t) :
    ∃ k, Slowed order param s inputs t k := by
  induction inputs generalizing s with
  | nil =>
    cases hrun
    exact ⟨0, slowed_nil hcounter⟩
  | cons input inputs ih =>
    obtain ⟨s', hs, hrest⟩ := run_cons_some hrun
    obtain ⟨k, hk⟩ := slowed_step (hready (step_some hs).1) hcounter
      (hnothing input List.mem_cons_self) hs
    obtain ⟨m, hm⟩ := ih (ready_step hready hs) hk.counter
      (fun i hi => hnothing i (List.mem_cons_of_mem input hi)) hrest
    exact ⟨k + m, hk.cons hm hs⟩

end Silence

theorem Slowed.reports {order : ByteOrder} {param : Parameter} {s t : Loop} {inputs : List Input} {k : Nat}
    (h : Slowed order param s inputs t k) (hdue : Along (Loop.step order param) Due s inputs) :
    k = (s.handler.deadconnectionCounter + delivered inputs) / 2050 := by
  have hsum := h.due hdue
  have hcounter := h.counter
  omega

structure Running (param : Parameter) (s : Loop) : Prop where
  ready : s.flow = .next → Ready s.handler
  counter : s.handler.deadconnectionCounter ≤ 2049
  least : (param.ipdTime : Rat) ≤ s.handler.xfer.ipdCurrent

section Running
variable {order : ByteOrder} {param : Parameter} {input : Input} {s t : Loop}

theorem least_applyRates {ipd : Rat} (h : (param.ipdTime : Rat) ≤ ipd) (rates : List Nat) :
    (param.ipdTime : Rat) ≤ applyRates param ipd rates := by
  induction rates using List.reverseRecOn with
  | nil => exact h
  | append_singleton rates rate =>
    rw [applyRates_append]
    exact (clampIpd_bounded param _).least

theorem Running.step (h : Running param s) (hs : Loop.step order param s input = some t)
    (hflow : t.flow = .next) : Running param t := by
  refine ⟨ready_step h.ready hs, counter_step h.ready h.counter hs hflow, ?_⟩
  obtain ⟨hnext, hread, rfl⟩ := step_some hs
  rw [(handlerTurn_rated order param (h.ready hnext) hread).ipd]
  exact least_applyRates h.least _

theorem running_run {inputs : List Input} (h : Running param s)
    (hrun : run (Loop.step order param) s inputs = some t) (hflow : t.flow = .next) :
    Running param t := by
  refine run_invariant (P := fun s => s.flow = .next → Running param s)
    (fun s input t h hs hflow => (h (step_some hs).1).step hs hflow) (fun _ => h) hrun hflow

end Running

def patientParameter : Parameter := ⟨1, 3, 7500, 20, 25, 24, 5, 6, 15⟩

def quietPass : Input := ⟨0, .nothing, .ok, 1000000, 1000000, 1000000⟩

def patientLoop : Loop :=
  .start (.start ⟨0, 60, ⟨0, ⟨[7, 8, 9], 0⟩, []⟩⟩ (List.replicate 12 0) 0 false)

def fasterFactor (param : Parameter) : Rat := param.fasterNum / param.fasterDen

section Restoring
variable {param : Parameter}

theorem fasterFactor_pos (h : Settings param) : 0 < fasterFactor param := by
  have hnum : (0 : Rat) < param.fasterNum := by exact_mod_cast h.fasterNum
  have hden : (0 : Rat) < param.fasterDen := by exact_mod_cast h.fasterNum.trans_le h.faster
  exact div_pos hnum hden

theorem fasterFactor_lt_one (hfaster : param.fasterNum < param.fasterDen) : fasterFactor param < 1 := by
  have hden : (0 : Rat) < param.fasterDen := by exact_mod_cast (Nat.zero_le _).trans_lt hfaster
  exact (div_lt_one hden).mpr (by exact_mod_cast hfaster)

theorem ipdFactor_under {rate : Nat} (h : rate ≤ param.errorRate) :
    ipdFactor param rate = fasterFactor param := by
  unfold ipdFactor fasterFactor
  exact if_neg (by omega)

/-- From some power of the factor on every delay in range is brought down to the negotiated one. -/
theorem enough_reports (h : Settings param) (hfaster : param.fasterNum < param.fasterDen)
    (htime : 0 < param.ipdTime) :
    ∃ enough, ∀ n ≥ enough, ∀ ipd : Rat, ipd ≤ max 10000 (param.ipdTime : Rat) →
      clampIpd param (ipd * fasterFactor param ^ n) = param.ipdTime := by
  have hpos := fasterFactor_pos h
  have hlt := fasterFactor_lt_one hfaster
  have hleast : (0 : Rat) < param.ipdTime := by exact_mod_cast htime
  have hmost : (0 : Rat) < max 10000 (param.ipdTime : Rat) := lt_max_of_lt_right hleast
  obtain ⟨enough, hpow⟩ := exists_pow_lt_of_lt_one (div_pos hleast hmost) hlt
  refine ⟨enough, fun n hn ipd hipd => ?_⟩
  have hdown : fasterFactor param ^ n ≤ fasterFactor param ^ enough :=
    pow_le_pow_of_le_one hpos.le hlt.le hn
  have hsmall : ipd * fasterFactor param ^ n ≤ param.ipdTime := by
    calc ipd * fasterFactor param ^ n
        ≤ max 10000 (param.ipdTime : Rat) * fasterFactor param ^ n :=
          mul_le_mul_of_nonneg_right hipd (pow_pos hpos n).le
      _ ≤ max 10000 (param.ipdTime : Rat) * (param.ipdTime / max 10000 (param.ipdTime : Rat)) :=
          mul_le_mul_of_nonneg_left (hdown.trans hpow.le) hmost.le
      _ = param.ipdTime := mul_div_cancel₀ _ hmost.ne'
  exact max_eq_right ((min_le_left _ _).trans hsmall)

end Restoring

/-- With a speedup that is one, there is a number of reports after which a client that reports no
more losses than it has accepted is sent the file at the rate it has asked for, whatever the delay has
risen to; up to there the delay falls by one factor with each report. -/
theorem clean_reports_restore (param : Parameter) (hsettings : Settings param)
    (hfaster : param.fasterNum < param.fasterDen) (htime : 0 < param.ipdTime) :
    ∃ enough, ∀ (order : ByteOrder) (xfer : Transfer) (memory : List UInt8) (start : Int) (again : Bool)
      (before inputs : List Input) (s t : Loop),
      (param.ipdTime : Rat) ≤ xfer.ipdCurrent → memory.length = sizeofRetransmission →
      run (Loop.step order param) (.start (.start xfer memory start again)) before = some s →
      s.flow = .next → s.handler.xfer.ipdCurrent ≤ max 10000 (param.ipdTime : Rat) →
      run (Loop.step order param) s inputs = some t →
      (∀ rate ∈ ratesOf order param s inputs, rate ≤ param.errorRate) →
      let n := (ratesOf order param s inputs).length
      (n ≠ 0 → t.handler.xfer.ipdCurrent =
        clampIpd param (s.handler.xfer.ipdCurrent * fasterFactor param ^ n)) ∧
      (enough ≤ n → t.handler.xfer.ipdCurrent = param.ipdTime) := by
  obtain ⟨enough, henough⟩ := enough_reports hsettings hfaster htime
  have hpos := fasterFactor_pos hsettings
  have hlt := fasterFactor_lt_one hfaster
  refine ⟨enough + 1, ?_⟩
  intro order xfer memory start again before inputs s t hleast hmemory hbefore hflow hipd hrun hclean n
  have hrunning : Running param s :=
    running_run ⟨fun _ => ready_start hmemory start again, Nat.zero_le _, hleast⟩ hbefore hflow
  have hclosed : n ≠ 0 → t.handler.xfer.ipdCurrent =
      clampIpd param (s.handler.xfer.ipdCurrent * fasterFactor param ^ n) := by
    intro hsome
    have hfirst : (0 : Rat) ≤ s.handler.xfer.ipdCurrent := (Nat.cast_nonneg _).trans hrunning.least
    rw [ipd_run hrunning.ready hrun]
    apply applyRates_pow (fun rate hrate => ipdFactor_under (hclean rate hrate))
    · exact .inr ⟨hipd, hfirst, hpos.le, hlt.le⟩
    · exact fun hnil => hsome (List.length_eq_zero_iff.mpr hnil)
  refine ⟨hclosed, fun hmany => ?_⟩
  rw [hclosed (by omega)]
  exact henough n (by omega) _ hipd

theorem patient_client_restored :
    ∃ enough, ∀ inputs t, run (Loop.step .little patientParameter) patientLoop inputs = some t →
      (∀ rate ∈ ratesOf .little patientParameter patientLoop inputs, rate ≤ 7500) →
      enough ≤ (ratesOf .little patientParameter patientLoop inputs).length →
      t.handler.xfer.ipdCurrent = 20 := by
  obtain ⟨enough, h⟩ := clean_reports_restore patientParameter
    ⟨by decide, by decide, by decide, by decide, by decide⟩ (by decide) (by decide)
  refine ⟨enough, fun inputs t hrun hclean hmany => ?_⟩
  have hleast : (patientParameter.ipdTime : Rat) ≤ 60 := by norm_num [patientParameter]
  have hmost : (60 : Rat) ≤ max 10000 (patientParameter.ipdTime : Rat) :=
    le_max_of_le_left (by norm_num)
  exact (h .little ⟨0, 60, ⟨0, ⟨[7, 8, 9], 0⟩, []⟩⟩ (List.replicate 12 0) 0 false [] inputs patientLoop t
    hleast rfl rfl rfl hmost hrun hclean).2 hmany

end TsunamiUdp.Server

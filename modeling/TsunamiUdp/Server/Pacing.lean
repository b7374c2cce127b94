import TsunamiUdp.Server.Handler

/-! The transmit loop by the clock: how early a datagram can be handed to `sendto`. -/
namespace TsunamiUdp.Server
open Library

/-- What the calls of one pass return, and when `sendto` is called or, in a pass that
sends nothing, some time before the waits. -/
structure Moment where
  input : Input
  handed : Int

/-- The loop, the earliest time of its next pass, and the times at which the datagrams
that were sent had been handed to `sendto`. -/
structure Timed where
  loop : Loop
  clock : Int
  handed : List Int

def Timed.start (param : Parameter) (xfer : Transfer) (memory : List UInt8) (start : Int)
    (again : Bool) : Timed where
  loop := .start (.start { xfer with ipdCurrent := wrap32 (param.ipdTime * 3) } memory start again)
  clock := start
  handed := []

/-- The clock does not go back, and a wait is not cut short. -/
def Timed.step (order : ByteOrder) (param : Parameter) (s : Timed) (moment : Moment) : Option Timed :=
  if s.clock ≤ moment.input.now ∧ moment.input.now ≤ moment.handed then
    (Loop.step order param s.loop moment.input).map fun loop =>
      let turn := handlerTurn order param moment.input s.loop.handler
      ⟨loop, moment.handed + turn.slept.sum, s.handed ++ turn.sent.map fun _ => moment.handed⟩
  else none

section Delay

theorem le_towardZero {k : Int} {q : Rat} (h : (k : Rat) ≤ q) : k ≤ towardZero q := by
  have hden : (0 : Int) < q.den := Int.natCast_pos.mpr q.den_pos
  have hmul : k * q.den ≤ q.num := by
    have hle := (Rat.le_iff _ _).mp h
    simpa using hle
  calc k = (k * q.den).tdiv q.den := (Int.mul_tdiv_cancel k hden.ne').symm
    _ ≤ q.num.tdiv q.den := Int.tdiv_le_tdiv hden hmul

theorem towardZero_le {k : Int} {q : Rat} (h : q ≤ (k : Rat)) : towardZero q ≤ k := by
  have hden : (0 : Int) < q.den := Int.natCast_pos.mpr q.den_pos
  have hmul : q.num ≤ k * q.den := by
    have hle := (Rat.le_iff _ _).mp h
    simpa using hle
  calc q.num.tdiv q.den ≤ (k * q.den).tdiv q.den := Int.tdiv_le_tdiv hden hmul
    _ = k := Int.mul_tdiv_cancel k hden.ne'

def longest (param : Parameter) : Nat := max (3 * param.ipdTime) 10000

structure InRange (param : Parameter) (ipd : Rat) : Prop where
  least : (param.ipdTime : Rat) ≤ ipd
  most : ipd ≤ (longest param : Nat)

theorem acceptRetransmit_inRange {param : Parameter} {send : SendResult} {r : Retransmission}
    {xfer : Transfer} (h : InRange param xfer.ipdCurrent) :
    InRange param (ttpAcceptRetransmit param send r xfer).xfer.ipdCurrent := by
  unfold ttpAcceptRetransmit
  split
  · refine ⟨le_max_right _ _, max_le ?_ ?_⟩
    · have hlong : (10000 : Nat) ≤ longest param := le_max_right _ _
      exact (min_le_right _ _).trans (by exact_mod_cast hlong)
    · have hlong : 3 * param.ipdTime ≤ longest param := le_max_left _ _
      exact_mod_cast (by omega : param.ipdTime ≤ longest param)
  · split
    · split <;> exact h
    · split <;> exact h

/-- What is still to be waited grows by the delay less the time that has passed. -/
theorem pace_debt {param : Parameter} {h : Handler} {due : Int} (now : Int)
    (hipd : InRange param h.xfer.ipdCurrent) (hdue : due ≤ h.ipdTime) :
    due + param.ipdTime - (now - h.prevpacketT) ≤ (pace now h).ipdTime := by
  have hdiff : param.ipdTime - (now - h.prevpacketT)
      ≤ towardZero (h.xfer.ipdCurrent + (h.prevpacketT - now : Int)) := by
    have hleast := hipd.least
    apply le_towardZero
    push_cast
    linarith
  unfold pace
  dsimp only
  split
  · omega
  · rename_i hrest
    obtain ⟨hdiff0, hipd0⟩ := not_or.mp hrest
    omega

theorem pace_owed {param : Parameter} {h : Handler} {now owed : Int}
    (hipd : InRange param h.xfer.ipdCurrent) (hnow : h.prevpacketT ≤ now) (howed : h.ipdTime ≤ owed) :
    (pace now h).ipdTime ≤ owed + longest param := by
  have hdiff : towardZero (h.xfer.ipdCurrent + (h.prevpacketT - now : Int)) ≤ longest param := by
    have hmost := hipd.most
    have hback : ((h.prevpacketT - now : Int) : Rat) ≤ 0 := by exact_mod_cast (by omega)
    apply towardZero_le
    push_cast at hback ⊢
    linarith
  unfold pace
  dsimp only
  split <;> omega

end Delay

structure SameDelay (param : Parameter) (h h' : Handler) : Prop where
  prevpacketT : h'.prevpacketT = h.prevpacketT
  ipdTime : h'.ipdTime = h.ipdTime
  ipdTimeMax : h'.ipdTimeMax = h.ipdTimeMax
  ipd : InRange param h.xfer.ipdCurrent → InRange param h'.xfer.ipdCurrent

inductive Waited (count : Nat) (turn : Turn) : Prop
  | slept (wait : turn.handler.ipdTime ≤ turn.slept.sum) (forward : 0 ≤ turn.slept.sum)
  | unsent (sent : turn.sent = []) (slept : turn.slept = [])
      (counter : turn.handler.deadconnectionCounter = count ∨ turn.handler.deadconnectionCounter = 0)
  | counted (full : 2048 < count) (slept : turn.slept = [])
      (counter : turn.handler.deadconnectionCounter = 0)

section Turns
variable {order : ByteOrder} {param : Parameter} {input : Input}

theorem SameDelay.refl (param : Parameter) (h : Handler) : SameDelay param h h :=
  ⟨rfl, rfl, rfl, id⟩

theorem SameDelay.trans {h h' h'' : Handler} (first : SameDelay param h h')
    (second : SameDelay param h' h'') : SameDelay param h h'' :=
  ⟨second.prevpacketT.trans first.prevpacketT, second.ipdTime.trans first.ipdTime,
    second.ipdTimeMax.trans first.ipdTimeMax, fun h => second.ipd (first.ipd h)⟩

variable (order param input) in
theorem sameDelay_reportLost (turn : Turn) :
    SameDelay param turn.handler (reportLost order param input turn).handler := by
  rw [reportLost_handler]
  generalize fakeReport turn.handler.retransmission = memory
  exact ⟨rfl, rfl, rfl, fun h => acceptRetransmit_inRange h⟩

variable (order param input) in
theorem sameDelay_finish (turn : Turn) :
    SameDelay param turn.handler (finish order param input turn).handler := by
  refine finish_keeps (p := fun after => SameDelay param turn.handler after.handler)
    (fun count slept => ⟨rfl, rfl, rfl, id⟩) ?_
  obtain ⟨h1, h2, h3, h4⟩ := sameDelay_reportLost order param input
    { turn with handler := { turn.handler with deadconnectionCounter := 0 } }
  exact ⟨h1, h2, h3, h4⟩

variable (param) in
theorem sameDelay_readRequest {read : Read} {h h' : Handler} (hread : readRequest read h = some h') :
    SameDelay param h h' ∧ h'.deadconnectionCounter = h.deadconnectionCounter := by
  obtain ⟨again, rfl⟩ := readRequest_some hread
  exact ⟨⟨rfl, rfl, rfl, id⟩, rfl⟩

theorem sleep_waited {count : Nat} {turn : Turn} (hmax : 0 ≤ turn.handler.ipdTimeMax) :
    Waited count (sleep param turn) := by
  have hsum : (sleep param turn).slept.sum =
      (if turn.original = some param.blockCount then 10 * turn.handler.ipdTimeMax else 0) +
        (if turn.handler.ipdTime > 0 then turn.handler.ipdTime else 0) := by
    unfold sleep
    dsimp only
    rw [List.sum_append]
    congr 1 <;> split <;> simp
  refine .slept ?_ ?_ <;> rw [hsum]
  · show turn.handler.ipdTime ≤ _
    split <;> split <;> omega
  · split <;> split <;> omega

theorem reportLost_waited {count : Nat} {turn : Turn} (hfull : 2048 < count)
    (hcounter : turn.handler.deadconnectionCounter = 0) (hslept : turn.slept = [])
    (hmax : 0 ≤ turn.handler.ipdTimeMax) : Waited count (reportLost order param input turn) := by
  unfold reportLost
  dsimp only
  split
  · exact .counted hfull hslept hcounter
  · exact sleep_waited hmax

theorem finish_waited {count : Nat} {turn : Turn}
    (hcounter : turn.handler.deadconnectionCounter = count ∨ turn.handler.deadconnectionCounter = 0)
    (hslept : turn.slept = []) (hstop : turn.flow = .stop → turn.sent = [])
    (hmax : 0 ≤ turn.handler.ipdTimeMax) : Waited count (finish order param input turn) := by
  unfold finish
  split
  · rename_i hflow
    exact .unsent (hstop hflow) hslept hcounter
  · split
    · rename_i hfailed
      exact .unsent (by rw [Turn.sent, hfailed.2]; rfl) hslept hcounter
    · unfold heartbeat
      dsimp only
      split
      · rename_i hfull
        have hcount : 2048 < count := by omega
        split
        · exact .counted hcount hslept rfl
        · exact reportLost_waited hcount rfl hslept hmax
      · exact sleep_waited hmax

theorem sent_length (turn : Turn) : turn.sent.length ≤ 1 := by
  unfold Turn.sent
  split
  · cases turn.datagram <;> simp
  · exact Nat.zero_le 1

variable (order param input) in
theorem handlerTurn_delay (h : Handler) :
    SameDelay param (pace input.now h) (handlerTurn order param input h).handler := by
  unfold handlerTurn
  dsimp only
  split
  · exact .refl param _
  · rename_i h1 hread
    refine (sameDelay_readRequest param hread).1.trans (SameDelay.trans ?_ (sameDelay_finish order param input _))
    split
    · unfold handleRequest
      dsimp only
      split
      · exact ⟨rfl, rfl, rfl, id⟩
      · exact ⟨rfl, rfl, rfl, fun h => acceptRetransmit_inRange h⟩
    · split <;> exact ⟨rfl, rfl, rfl, id⟩

theorem pace_max (now : Int) {h : Handler} (hmax : 0 ≤ h.ipdTimeMax) :
    0 ≤ (pace now h).ipdTimeMax := by
  show 0 ≤ if (pace now h).ipdTime > h.ipdTimeMax then (pace now h).ipdTime else h.ipdTimeMax
  split <;> omega

variable (order param input) in
theorem handlerTurn_waited {h : Handler} (hmax : 0 ≤ h.ipdTimeMax) :
    Waited h.deadconnectionCounter (handlerTurn order param input h) := by
  have hpaced := pace_max input.now hmax
  unfold handlerTurn
  dsimp only
  split
  · exact .unsent rfl rfl (.inl rfl)
  · rename_i h1 hread
    obtain ⟨hsame, hcounter⟩ := sameDelay_readRequest param hread
    rw [← hsame.ipdTimeMax] at hpaced
    split
    · unfold handleRequest
      dsimp only
      split
      · exact finish_waited (.inr rfl) rfl (fun _ => rfl) hpaced
      · exact finish_waited (.inr rfl) rfl (fun hstop => by cases hstop) hpaced
    · split
      · exact finish_waited (.inl hcounter) rfl (fun hstop => by cases hstop) hpaced
      · exact finish_waited (.inl hcounter) rfl (fun hstop => by cases hstop) hpaced

end Turns

/-- After `passes` passes the variable of the wait makes up for the time that is missing;
with `waited` of them the clock has caught up, and one datagram may be ahead of it. -/
structure Paced (param : Parameter) (start : Int) (passes waited : Nat) (s : Timed) : Prop where
  ipd : InRange param s.loop.handler.xfer.ipdCurrent
  max : 0 ≤ s.loop.handler.ipdTimeMax
  owed : s.loop.handler.ipdTime ≤ passes * longest param
  due : passes * param.ipdTime - (s.loop.handler.prevpacketT - start) ≤ s.loop.handler.ipdTime
  forward : s.loop.handler.prevpacketT ≤ s.clock
  caughtUp : start + waited * param.ipdTime ≤ s.clock
  every : s.handed.length ≤ passes
  ahead : s.handed.length ≤ waited ∨
    s.handed.length ≤ waited + 1 ∧ s.loop.handler.deadconnectionCounter = 0
  handed : ∀ (m : Nat) (time : Int), s.handed[m]? = some time →
    start + (m - 1) * param.ipdTime ≤ time

section Runs
variable {order : ByteOrder} {param : Parameter} {start : Int} {passes waited : Nat} {s s' : Timed}
  {moment : Moment}

theorem Timed.step_some (hs : Timed.step order param s moment = some s') :
    s.clock ≤ moment.input.now ∧ moment.input.now ≤ moment.handed ∧
      s'.loop.handler = (handlerTurn order param moment.input s.loop.handler).handler ∧
      s'.clock = moment.handed + (handlerTurn order param moment.input s.loop.handler).slept.sum ∧
      s'.handed = s.handed ++
        (handlerTurn order param moment.input s.loop.handler).sent.map fun _ => moment.handed := by
  unfold Timed.step at hs
  split at hs
  · rename_i htime
    obtain ⟨loop, hloop, rfl⟩ := Option.map_eq_some_iff.mp hs
    obtain ⟨-, -, rfl⟩ := Server.step_some hloop
    exact ⟨htime.1, htime.2, rfl, rfl, rfl⟩
  · cases hs

theorem paced_start (hnarrow : 3 * param.ipdTime < 4294967296) (xfer : Transfer)
    (memory : List UInt8) (again : Bool) :
    Paced param start 0 0 (.start param xfer memory start again) where
  ipd := by
    show InRange param (wrap32 (param.ipdTime * 3) : Nat)
    rw [wrap32, Nat.mod_eq_of_lt (by omega)]
    have hlong : 3 * param.ipdTime ≤ longest param := le_max_left _ _
    constructor
    · exact_mod_cast (by omega : param.ipdTime ≤ param.ipdTime * 3)
    · exact_mod_cast (by omega : param.ipdTime * 3 ≤ longest param)
  max := Int.le_refl 0
  owed := by simp [Timed.start, Loop.start, Handler.start]
  due := by simp [Timed.start, Loop.start, Handler.start]
  forward := Int.le_refl start
  caughtUp := by simp [Timed.start]
  every := Nat.le_refl 0
  ahead := .inl (Nat.le_refl 0)
  handed := by
    intro m time hm
    cases hm

theorem Paced.next_handed (h : Paced param start passes waited s) {time : Int}
    (htime : s.clock ≤ time) : start + (s.handed.length - 1) * param.ipdTime ≤ time := by
  have hlen : s.handed.length ≤ waited + 1 := by
    rcases h.ahead with hle | ⟨hle, -⟩ <;> omega
  have hmul : ((s.handed.length : Int) - 1) * param.ipdTime ≤ waited * param.ipdTime :=
    Int.mul_le_mul_of_nonneg_right (by omega) (Int.natCast_nonneg _)
  have := h.caughtUp
  omega

theorem Paced.all_handed (h : Paced param start passes waited s) {time : Int}
    (htime : s.clock ≤ time) (turn : Turn) (m : Nat) (t : Int)
    (hm : (s.handed ++ turn.sent.map fun _ => time)[m]? = some t) :
    start + (m - 1) * param.ipdTime ≤ t := by
  rcases Nat.lt_or_ge m s.handed.length with hold | hnew
  · rw [List.getElem?_append_left hold] at hm
    exact h.handed m t hm
  · rw [List.getElem?_append_right hnew, List.getElem?_map] at hm
    obtain ⟨datagram, hsent, rfl⟩ := Option.map_eq_some_iff.mp hm
    have hone := sent_length turn
    have hless := (List.getElem?_eq_some_iff.mp hsent).1
    have hm : m = s.handed.length := by omega
    rw [hm]
    exact h.next_handed htime

theorem paced_step (h : Paced param start passes waited s)
    (hs : Timed.step order param s moment = some s') :
    ∃ waited', Paced param start (passes + 1) waited' s' := by
  obtain ⟨hclock, hnow, hhandler, hclock', hhanded'⟩ := Timed.step_some hs
  have hdelay := handlerTurn_delay order param moment.input s.loop.handler
  have hwaited := handlerTurn_waited order param moment.input h.max
  have hall := h.all_handed (hclock.trans hnow)
    (handlerTurn order param moment.input s.loop.handler)
  have hone := sent_length (handlerTurn order param moment.input s.loop.handler)
  have hmul : ∀ k : Int, ((passes + 1 : Nat) : Int) * k = passes * k + k := by
    intro k
    push_cast
    ring
  have hdue : ((passes + 1 : Nat) : Int) * param.ipdTime - (moment.input.now - start) ≤
      (handlerTurn order param moment.input s.loop.handler).handler.ipdTime := by
    have hpace := pace_debt moment.input.now h.ipd h.due
    rw [hdelay.ipdTime, hmul]
    omega
  have howed : (handlerTurn order param moment.input s.loop.handler).handler.ipdTime ≤
      ((passes + 1 : Nat) : Int) * longest param := by
    have hpace := pace_owed h.ipd (h.forward.trans hclock) h.owed
    rw [hdelay.ipdTime, hmul]
    exact hpace
  generalize handlerTurn order param moment.input s.loop.handler = turn at *
  have hlen : s'.handed.length = s.handed.length + turn.sent.length := by
    rw [hhanded', List.length_append, List.length_map]
  have hnext : ∀ waited' : Nat, start + waited' * param.ipdTime ≤ s'.clock → 0 ≤ turn.slept.sum →
      (s'.handed.length ≤ waited' ∨
        s'.handed.length ≤ waited' + 1 ∧ s'.loop.handler.deadconnectionCounter = 0) →
      ∃ waited', Paced param start (passes + 1) waited' s' := by
    intro waited' hcaught hforward hahead
    have hprev : turn.handler.prevpacketT = moment.input.now := hdelay.prevpacketT
    refine ⟨waited', ?_, ?_, ?_, ?_, ?_, hcaught, ?_, hahead, ?_⟩
    · rw [hhandler]
      exact hdelay.ipd h.ipd
    · rw [hhandler, hdelay.ipdTimeMax]
      exact pace_max _ h.max
    · rw [hhandler]
      exact howed
    · rw [hhandler, hprev]
      exact hdue
    · rw [hhandler, hprev]
      omega
    · have := h.every
      omega
    · rw [hhanded']
      exact hall
  have hcaught := h.caughtUp
  have hevery := h.every
  cases hwaited with
  | slept wait forward =>
    exact hnext (passes + 1) (by omega) forward (.inl (by omega))
  | unsent sent slept counter =>
    rw [slept] at hclock'
    rw [sent] at hlen
    simp only [List.sum_nil, List.length_nil, Nat.add_zero] at hclock' hlen
    refine hnext waited (by omega) (by simp [slept]) ?_
    rw [hlen, hhandler]
    rcases h.ahead with hle | ⟨hle, hzero⟩
    · exact .inl hle
    · exact .inr ⟨hle, counter.elim (fun hc => hc.trans hzero) id⟩
  | counted full slept counter =>
    rw [slept, List.sum_nil] at hclock'
    refine hnext waited (by omega) (by simp [slept]) ?_
    rw [hhandler]
    rcases h.ahead with hle | ⟨hle, hzero⟩
    · exact .inr ⟨by omega, counter⟩
    · omega

theorem paced_run {as : List Moment} {t : Timed} (h : Paced param start passes waited s)
    (hrun : run (Timed.step order param) s as = some t) :
    ∃ waited', Paced param start (passes + as.length) waited' t := by
  induction as generalizing s passes waited with
  | nil =>
    cases hrun
    exact ⟨waited, h⟩
  | cons moment as ih =>
    obtain ⟨s', hs, hrun⟩ := run_cons_some hrun
    obtain ⟨waited', h'⟩ := paced_step h hs
    have hlen : passes + (moment :: as).length = passes + 1 + as.length := by
      rw [List.length_cons]
      omega
    rw [hlen]
    exact ih h' hrun

end Runs

section Rate
variable (order : ByteOrder) (param : Parameter) (xfer : Transfer) (memory : List UInt8)
  (start : Int) (again : Bool)

/-- The variable of the wait does not leave its 64 bits as long as the passes and the time
are not counted in more. -/
theorem ipdTime_fits (hnarrow : 3 * param.ipdTime < 4294967296) (as : List Moment) (t : Timed)
    (hrun : run (Timed.step order param) (.start param xfer memory start again) as = some t)
    (hpasses : as.length * longest param < 2 ^ 63)
    (htime : t.loop.handler.prevpacketT - start ≤ 2 ^ 63) :
    -2 ^ 63 ≤ t.loop.handler.ipdTime ∧ t.loop.handler.ipdTime < 2 ^ 63 := by
  obtain ⟨waited, hpaced⟩ := paced_run (paced_start hnarrow xfer memory again) hrun
  have hdue := hpaced.due
  have howed := hpaced.owed
  have hmul : (0 : Int) ≤ (as.length : Int) * param.ipdTime :=
    mul_nonneg (Int.natCast_nonneg _) (Int.natCast_nonneg _)
  rw [Nat.zero_add] at hdue howed
  have hcast : ((as.length : Int) * (longest param : Nat)) < 2 ^ 63 := by exact_mod_cast hpasses
  omega

/-- When the `m`-th of the datagrams that are sent is handed to `sendto`, the time for
all but two of them has passed. -/
theorem paced_handed (hnarrow : 3 * param.ipdTime < 4294967296) (as : List Moment) (t : Timed)
    (hrun : run (Timed.step order param) (.start param xfer memory start again) as = some t)
    (m : Nat) (time : Int) (hm : t.handed[m - 1]? = some time) (hpos : 1 ≤ m) :
    ((m : Int) - 2) * param.ipdTime ≤ time - start := by
  obtain ⟨waited, hpaced⟩ := paced_run (paced_start hnarrow xfer memory again) hrun
  have hhanded := hpaced.handed (m - 1) time hm
  have hsub : ((m - 1 : Nat) : Int) - 1 = m - 2 := by omega
  rw [hsub] at hhanded
  omega

end Rate

def eightMicroseconds : Parameter := { threeBlocks with ipdTime := 8 }

def pacedStart : Timed :=
  .start eightMicroseconds ⟨0, 0, ⟨0, ⟨[7, 8, 9], 0⟩, []⟩⟩ (List.replicate 12 0) 100 false

def pacedMoments : List Moment :=
  [⟨⟨100, .nothing, .ok, 0, 0, 0⟩, 101⟩, ⟨⟨125, .nothing, .failed true, 0, 0, 0⟩, 125⟩,
    ⟨⟨125, .nothing, .ok, 0, 0, 0⟩, 126⟩, ⟨⟨643, .nothing, .ok, 0, 0, 0⟩, 643⟩]

theorem paced_handed_sample :
    ∃ t, run (Timed.step .little eightMicroseconds) pacedStart pacedMoments = some t ∧
      t.handed = [101, 126, 643] ∧ ((3 : Nat) - 2 : Int) * eightMicroseconds.ipdTime ≤ 643 - 100 := by
  have hrun : (run (Timed.step .little eightMicroseconds) pacedStart pacedMoments).map Timed.handed =
      some [101, 126, 643] := by
    decide +kernel
  obtain ⟨t, hrun, hhanded⟩ := Option.map_eq_some_iff.mp hrun
  refine ⟨t, hrun, hhanded, ?_⟩
  exact paced_handed .little eightMicroseconds _ _ 100 false (by decide) _ t hrun 3 643
    (by rw [hhanded]; rfl) (by decide)

end TsunamiUdp.Server

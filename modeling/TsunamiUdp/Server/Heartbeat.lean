import Mathlib.Data.List.Induction
import TsunamiUdp.Server.Handler

/-! The heartbeat of the client: a transfer is given up only after a long silence, and after
a long silence it is given up as soon as enough datagrams have gone out. -/
namespace TsunamiUdp.Server
open Library

inductive Monitored (param : Parameter) (input : Input) (h : Handler) (turn : Turn) : Prop
  | left (flow : turn.flow = .stop ∨ turn.flow = .exit) (cause : input.read ≠ .nothing)
  | heard (cause : input.read ≠ .nothing) (flow : turn.flow = .next)
      (counter : turn.handler.deadconnectionCounter = 1)
      (feedback : turn.handler.lastfeedback = input.now)
  | unsent (silent : turn.acted = none) (unsent : input.send ≠ .ok) (flow : turn.flow = .next)
      (counter : turn.handler.deadconnectionCounter = h.deadconnectionCounter)
      (report : turn.handler.lasthblostreport = h.lasthblostreport)
      (feedback : turn.handler.lastfeedback = h.lastfeedback)
  | counted (silent : turn.acted = none) (sent : input.send = .ok) (flow : turn.flow = .next)
      (low : h.deadconnectionCounter ≤ 2048)
      (counter : turn.handler.deadconnectionCounter = h.deadconnectionCounter + 1)
      (report : turn.handler.lasthblostreport = h.lasthblostreport)
      (feedback : turn.handler.lastfeedback = h.lastfeedback)
  | waits (silent : turn.acted = none) (sent : input.send = .ok) (flow : turn.flow = .next)
      (high : 2048 < h.deadconnectionCounter)
      (early : usecSince input.checkTime h.lasthblostreport < 500000 ∨
        ¬usecSince input.deltaTime h.lastfeedback > param.hbTimeout * 1000000)
      (counter : turn.handler.deadconnectionCounter = 0)
      (feedback : turn.handler.lastfeedback = h.lastfeedback)
  | expired (silent : turn.acted = none) (sent : input.send = .ok) (flow : turn.flow = .timeout)
      (high : 2048 < h.deadconnectionCounter)
      (late : usecSince input.deltaTime h.lastfeedback > param.hbTimeout * 1000000)
      (feedback : turn.handler.lastfeedback = h.lastfeedback)

section Passes
variable {order : ByteOrder} {param : Parameter} {input : Input}

theorem monitored_complete {h h1 : Handler} (hdata : input.read ≠ .nothing) :
    Monitored param input h
      (finish order param input (handleRequest order param input.now input.send h1)) := by
  unfold handleRequest
  dsimp only
  split
  · rw [finish, if_pos rfl]
    exact .left (.inl rfl) hdata
  · rw [finish, if_neg (by simp), if_neg (by simp), heartbeat_counts (Nat.zero_le _)]
    exact .heard hdata rfl rfl rfl

theorem monitored_sent {h h1 : Handler} (hsend : input.send = .ok)
    (hcounter : h1.deadconnectionCounter = h.deadconnectionCounter)
    (hreport : h1.lasthblostreport = h.lasthblostreport)
    (hfeedback : h1.lastfeedback = h.lastfeedback) :
    Monitored param input h (heartbeat order param input (transmitBlock param input.send h1)) := by
  by_cases hlow : h.deadconnectionCounter ≤ 2048
  · rw [heartbeat_counts (by rw [← hcounter] at hlow; exact hlow)]
    refine .counted rfl hsend rfl hlow ?_ hreport hfeedback
    change wrap32 (h1.deadconnectionCounter + 1) = _
    rw [hcounter, wrap32_of_lt (by omega)]
  · have hhigh : 2048 < h.deadconnectionCounter := by omega
    unfold heartbeat
    dsimp only
    rw [if_pos (by rw [← hcounter] at hhigh; exact hhigh)]
    split
    · rename_i hearly
      refine .waits rfl hsend rfl hhigh (.inl ?_) rfl hfeedback
      rw [← hreport]
      exact hearly
    · by_cases hlate : usecSince input.deltaTime h1.lastfeedback > param.hbTimeout * 1000000
      · refine .expired ?_ hsend ?_ hhigh (hfeedback ▸ hlate) ?_
        · exact (reportLost_spec order param input _).2.1
        · unfold reportLost
          dsimp only
          rw [if_pos (by exact hlate), if_pos (by exact hlate)]
        · rw [reportLost_handler]
          exact hfeedback
      · refine .waits ?_ hsend ?_ hhigh (.inr (hfeedback ▸ hlate)) ?_ ?_
        · exact (reportLost_spec order param input _).2.1
        · exact (reportLost_spec order param input _).1 hlate
        · rw [reportLost_handler]
        · rw [reportLost_handler]
          exact hfeedback

variable (order param) in
theorem handlerTurn_monitored {h : Handler} (hready : Ready h) (hread : Readable input.read h) :
    Monitored param input h (handlerTurn order param input h) := by
  have hroom := readable_le hread hready.room
  have hdata : ∀ bytes : List UInt8, input.read = .data bytes → input.read ≠ .nothing := by
    intro bytes heq hnothing
    rw [heq] at hnothing
    cases hnothing
  unfold handlerTurn
  cases hr : readRequest input.read (pace input.now h) with
  | none =>
    dsimp only
    rw [hr]
    refine .left (.inr rfl) fun hnothing => ?_
    rw [hnothing] at hr
    cases hr
  | some h1 =>
    dsimp only
    rw [hr]
    obtain ⟨again, rfl⟩ := readRequest_some hr
    dsimp only [pace]
    by_cases hfull : h.retransmitlen + input.read.bytes.length = sizeofRetransmission
    · rw [if_pos hfull]
      refine monitored_complete fun hnothing => ?_
      have hshort := hready.room
      rw [hnothing] at hfull
      exact hshort.ne hfull
    · rw [if_neg hfull, if_pos (by omega)]
      by_cases hsend : input.send = .ok
      · rw [hsend, finish_sent, ← hsend]
        exact monitored_sent hsend rfl rfl rfl
      · rw [finish, if_neg (by simp [transmitBlock]), if_pos (by simp [transmitBlock, hsend])]
        exact .unsent rfl hsend rfl rfl rfl rfl

end Passes

/-- When the client was last heard of: at the last of these passes, or at the start. -/
def heardAt (start : Int) (before : List Input) : Int :=
  (before.getLast?.map Input.now).getD start

def delivered (inputs : List Input) : Nat := inputs.countP fun input => input.send = .ok

section Runs
variable {order : ByteOrder} {param : Parameter} {s₀ s t : Loop} {start : Int}
  {before silent inputs : List Input}

structure SilentSince (order : ByteOrder) (param : Parameter) (s₀ : Loop) (start : Int)
    (before silent : List Input) (s : Loop) : Prop where
  nothing : ∃ mid, run (Loop.step order param) s₀ before = some mid ∧ mid.acted = s.acted
  feedback : s.handler.lastfeedback = heardAt start before
  counter : s.handler.deadconnectionCounter ≤ delivered silent + 1

theorem delivered_snoc (silent : List Input) (input : Input) :
    delivered (silent ++ [input]) = delivered silent + if input.send = .ok then 1 else 0 := by
  simp [delivered, List.countP_append, List.countP_singleton]

theorem SilentSince.more (h : SilentSince order param s₀ start before silent s) {input : Input}
    (hacted : t.acted = s.acted) (hfeedback : t.handler.lastfeedback = s.handler.lastfeedback)
    (hcounter : t.handler.deadconnectionCounter ≤ delivered (silent ++ [input]) + 1) :
    SilentSince order param s₀ start before (silent ++ [input]) t := by
  obtain ⟨mid, hmid, hsame⟩ := h.nothing
  exact ⟨⟨mid, hmid, hsame.trans hacted.symm⟩, hfeedback.trans h.feedback, hcounter⟩

theorem run_snoc {input : Input} (hrun : run (Loop.step order param) s₀ (inputs ++ [input]) = some t) :
    ∃ s, run (Loop.step order param) s₀ inputs = some s ∧
      Loop.step order param s input = some t := by
  rw [run_append] at hrun
  obtain ⟨s, hs, hlast⟩ := Option.bind_eq_some_iff.mp hrun
  obtain ⟨u, hu, hend⟩ := run_cons_some hlast
  exact ⟨s, hs, hu.trans hend⟩

theorem ready_run (hready : s₀.flow = .next → Ready s₀.handler)
    (hrun : run (Loop.step order param) s₀ inputs = some s) : s.flow = .next → Ready s.handler :=
  run_invariant (P := fun s => s.flow = .next → Ready s.handler)
    (fun _ _ _ h hs => ready_step h hs) hready hrun

theorem silent_since (hready : s₀.flow = .next → Ready s₀.handler)
    (hcounter : s₀.handler.deadconnectionCounter = 0) (hfeedback : s₀.handler.lastfeedback = start)
    (hrun : run (Loop.step order param) s₀ inputs = some s) (hflow : s.flow = .next) :
    ∃ before silent, inputs = before ++ silent ∧
      SilentSince order param s₀ start before silent s := by
  induction inputs using List.reverseRecOn generalizing s with
  | nil =>
    cases hrun
    exact ⟨[], [], rfl, ⟨s₀, rfl, rfl⟩, hfeedback, by rw [hcounter]; exact Nat.zero_le _⟩
  | append_singleton inputs input ih =>
    obtain ⟨s₁, hrun₁, hs⟩ := run_snoc hrun
    obtain ⟨hflow₁, hread, rfl⟩ := step_some hs
    obtain ⟨before, silent, rfl, hsince⟩ := ih hrun₁ hflow₁
    have hsnoc := delivered_snoc silent input
    have hcount := hsince.counter
    have hkept : (handlerTurn order param input s₁.handler).acted = none →
        s₁.acted ++ (handlerTurn order param input s₁.handler).acted.toList = s₁.acted := by
      intro hnone
      rw [hnone, Option.toList_none, List.append_nil]
    cases handlerTurn_monitored order param (ready_run hready hrun₁ hflow₁) hread with
    | left flow => rcases flow with flow | flow <;> rw [flow] at hflow <;> cases hflow
    | expired _ _ flow => rw [flow] at hflow; cases hflow
    | heard _ _ counter feedback =>
      refine ⟨before ++ silent ++ [input], [], (List.append_nil _).symm, ⟨_, hrun, rfl⟩, ?_, ?_⟩
      · rw [feedback, heardAt, List.getLast?_concat]
        rfl
      · rw [counter]
        exact Nat.le_add_left 1 _
    | unsent acted _ _ counter _ feedback =>
      refine ⟨before, silent ++ [input], List.append_assoc _ _ _,
        hsince.more (hkept acted) feedback ?_⟩
      rw [counter]
      omega
    | counted acted sent _ _ counter _ feedback =>
      refine ⟨before, silent ++ [input], List.append_assoc _ _ _,
        hsince.more (hkept acted) feedback ?_⟩
      rw [counter, hsnoc, if_pos sent]
      omega
    | waits acted _ _ _ _ counter feedback =>
      refine ⟨before, silent ++ [input], List.append_assoc _ _ _,
        hsince.more (hkept acted) feedback ?_⟩
      rw [counter]
      exact Nat.zero_le _

theorem usecSince_le {now old : Int} (h : old ≤ now) : usecSince now old ≤ now - old := by
  unfold usecSince
  omega

end Runs

structure Overdue (param : Parameter) (h : Handler) (input : Input) : Prop where
  nothing : input.read = .nothing
  check : 500000 ≤ usecSince input.checkTime h.lasthblostreport
  late : usecSince input.deltaTime h.lastfeedback > param.hbTimeout * 1000000

/-- The transfer is given up in one of these passes. -/
def Dropped (order : ByteOrder) (param : Parameter) (s : Loop) (inputs : List Input) : Prop :=
  ∃ front t, front <+: inputs ∧ run (Loop.step order param) s front = some t ∧ t.flow = .timeout

section Silence
variable {order : ByteOrder} {param : Parameter} {s t : Loop} {input : Input} {inputs : List Input}

@[simp] theorem delivered_cons (input : Input) (inputs : List Input) :
    delivered (input :: inputs) = delivered inputs + if input.send = .ok then 1 else 0 := by
  simp [delivered, List.countP_cons]

theorem not_dropped_nil (hflow : s.flow = .next) : ¬Dropped order param s [] := by
  rintro ⟨front, t, hfront, hrun, htimeout⟩
  rw [List.prefix_nil] at hfront
  subst hfront
  cases hrun
  rw [hflow] at htimeout
  cases htimeout

theorem dropped_cons (hflow : s.flow = .next) (hs : Loop.step order param s input = some t) :
    Dropped order param s (input :: inputs) ↔ Dropped order param t inputs := by
  constructor
  · rintro ⟨front, u, hfront, hrun, htimeout⟩
    cases front with
    | nil =>
      cases hrun
      rw [hflow] at htimeout
      cases htimeout
    | cons first front =>
      obtain ⟨rfl, hbehind⟩ := List.cons_prefix_cons.mp hfront
      rw [run_cons, hs] at hrun
      exact ⟨front, u, hbehind, hrun, htimeout⟩
  · rintro ⟨front, u, hfront, hrun, htimeout⟩
    refine ⟨input :: front, u, List.cons_prefix_cons.mpr ⟨rfl, hfront⟩, ?_, htimeout⟩
    rw [run_cons, hs]
    exact hrun

theorem counter_step (hready : s.flow = .next → Ready s.handler)
    (h : s.handler.deadconnectionCounter ≤ 2049) (hs : Loop.step order param s input = some t)
    (hflow : t.flow = .next) : t.handler.deadconnectionCounter ≤ 2049 := by
  obtain ⟨hnext, hread, rfl⟩ := step_some hs
  cases handlerTurn_monitored order param (hready hnext) hread with
  | left flow => rcases flow with flow | flow <;> rw [flow] at hflow <;> cases hflow
  | expired _ _ flow => rw [flow] at hflow; cases hflow
  | heard _ _ counter => rw [counter]; decide
  | unsent _ _ _ counter => rw [counter]; exact h
  | counted _ _ _ low counter => rw [counter]; omega
  | waits _ _ _ _ _ counter => rw [counter]; decide

theorem dropped_iff (hflow : s.flow = .next) (hready : Ready s.handler)
    (hcounter : s.handler.deadconnectionCounter ≤ 2049)
    (hoverdue : ∀ input ∈ inputs, Overdue param s.handler input) :
    Dropped order param s inputs ↔ 2050 ≤ s.handler.deadconnectionCounter + delivered inputs := by
  induction inputs generalizing s with
  | nil =>
    refine iff_of_false (not_dropped_nil hflow) ?_
    rw [delivered, List.countP_nil]
    omega
  | cons input inputs ih =>
    obtain ⟨hnothing, hcheck, hlate⟩ := hoverdue input List.mem_cons_self
    have hread : Readable input.read s.handler := by rw [hnothing]; trivial
    have hs := step_eq order param hflow hread
    have hturn := handlerTurn_monitored order param hready hread
    have hnext := handlerTurn_ready order param hready hread
    -- the passes behind this one find the client just as late
    have hrest : (handlerTurn order param input s.handler).handler.lasthblostreport =
        s.handler.lasthblostreport →
      (handlerTurn order param input s.handler).handler.lastfeedback = s.handler.lastfeedback →
      ∀ i ∈ inputs, Overdue param (handlerTurn order param input s.handler).handler i := by
      intro hreport hfeedback i hi
      obtain ⟨h1, h2, h3⟩ := hoverdue i (List.mem_cons_of_mem _ hi)
      exact ⟨h1, hreport ▸ h2, hfeedback ▸ h3⟩
    have hcount := delivered_cons input inputs
    rw [dropped_cons hflow hs]
    cases hturn with
    | left _ cause => exact absurd hnothing cause
    | heard cause => exact absurd hnothing cause
    | unsent _ unsent flow counter report feedback =>
      rw [if_neg unsent] at hcount
      rw [hcount, ih flow (hnext flow) (counter.le.trans hcounter) (hrest report feedback), counter]
      rfl
    | counted _ sent flow low counter report feedback =>
      rw [if_pos sent] at hcount
      rw [hcount, ih flow (hnext flow) (by rw [counter]; omega) (hrest report feedback), counter]
      omega
    | waits _ _ _ _ early =>
      rcases early with early | early
      · exact absurd early (by omega)
      · exact absurd hlate early
    | expired _ sent flow high =>
      rw [if_pos sent] at hcount
      refine iff_of_true ⟨[], _, List.nil_prefix, rfl, flow⟩ ?_
      omega

end Silence

/-- Whatever came before: once the client is overdue, the transfer is given up if and only if
enough datagrams still go out. As long as `sendto` fails the monitor is not reached at all. -/
theorem silent_dropped_iff (order : ByteOrder) (param : Parameter) (xfer : Transfer)
    (memory : List UInt8) (hmemory : memory.length = sizeofRetransmission) (start : Int)
    (again : Bool) (before : List Input) (s : Loop)
    (hrun : run (Loop.step order param) (.start (.start xfer memory start again)) before = some s)
    (hflow : s.flow = .next) (inputs : List Input)
    (hoverdue : ∀ input ∈ inputs, Overdue param s.handler input) :
    Dropped order param s inputs ↔
      2050 ≤ s.handler.deadconnectionCounter + delivered inputs := by
  obtain ⟨hready, hcounter⟩ := run_invariant
    (P := fun s => s.flow = .next → Ready s.handler ∧ s.handler.deadconnectionCounter ≤ 2049)
    (fun _ _ _ h hs hnext =>
      have hbefore := h (step_some hs).1
      ⟨ready_step (fun _ => hbefore.1) hs hnext, counter_step (fun _ => hbefore.1) hbefore.2 hs hnext⟩)
    (fun _ => ⟨ready_start hmemory start again, Nat.zero_le _⟩) hrun hflow
  exact dropped_iff hflow hready hcounter hoverdue

def latePass : Input := ⟨0, .nothing, .ok, 16000000, 16000000, 16000000⟩

def freshLoop : Loop :=
  .start (.start ⟨0, 0, ⟨0, ⟨[7, 8, 9], 0⟩, []⟩⟩ (List.replicate 12 0) 0 false)

theorem latePass_overdue : ∀ input ∈ List.replicate 2050 latePass,
    Overdue threeBlocks freshLoop.handler input := by
  intro input hmem
  rw [List.eq_of_mem_replicate hmem]
  exact ⟨rfl, by decide, by decide⟩

@[simp] theorem delivered_latePass (n : Nat) : delivered (List.replicate n latePass) = n := by
  rw [delivered, List.countP_replicate, if_pos (by decide)]

theorem silent_client_dropped :
    Dropped .little threeBlocks freshLoop (List.replicate 2050 latePass) :=
  (silent_dropped_iff .little threeBlocks ⟨0, 0, ⟨0, ⟨[7, 8, 9], 0⟩, []⟩⟩ (List.replicate 12 0) rfl 0
    false [] freshLoop rfl rfl (List.replicate 2050 latePass) latePass_overdue).mpr
    (by rw [delivered_latePass]; exact Nat.le_add_left _ _)

/-- A transfer that is given up was silent for more than `hb_timeout` seconds, and no fewer
than 2049 datagrams went out in that time. -/
theorem dropped_after_silence (order : ByteOrder) (param : Parameter) (xfer : Transfer)
    (memory : List UInt8) (hmemory : memory.length = sizeofRetransmission) (start : Int)
    (again : Bool) (inputs : List Input) (t : Loop)
    (hrun : run (Loop.step order param) (.start (.start xfer memory start again)) inputs = some t)
    (hdropped : t.flow = .timeout) :
    ∃ before silent last mid, inputs = before ++ silent ++ [last] ∧
      run (Loop.step order param) (.start (.start xfer memory start again)) before = some mid ∧
      mid.acted = t.acted ∧ 2049 ≤ delivered (silent ++ [last]) ∧
      (heardAt start before ≤ last.deltaTime →
        param.hbTimeout * 1000000 < last.deltaTime - heardAt start before) := by
  induction inputs using List.reverseRecOn with
  | nil =>
    cases hrun
    cases hdropped
  | append_singleton inputs last =>
    have hready : (Loop.start (.start xfer memory start again)).flow = .next →
        Ready (Loop.start (.start xfer memory start again)).handler :=
      fun _ => ready_start hmemory start again
    obtain ⟨s, hs, hlast⟩ := run_snoc hrun
    obtain ⟨hflow, hread, rfl⟩ := step_some hlast
    obtain ⟨before, silent, rfl, ⟨mid, hmid, hacted⟩, hfeedback, hcounter⟩ :=
      silent_since hready rfl rfl hs hflow
    cases handlerTurn_monitored order param (ready_run hready hs hflow) hread with
    | expired acted sent flow high late =>
      refine ⟨before, silent, last, mid, rfl, hmid, ?_, ?_, fun hheard => ?_⟩
      · dsimp only
        rw [acted, Option.toList_none, List.append_nil, hacted]
      · rw [delivered_snoc, if_pos sent]
        omega
      · rw [hfeedback] at late
        exact lt_of_lt_of_le late (usecSince_le hheard)
    | left flow => rcases flow with flow | flow <;> rw [flow] at hdropped <;> cases hdropped
    | heard _ flow => rw [flow] at hdropped; cases hdropped
    | unsent _ _ flow => rw [flow] at hdropped; cases hdropped
    | counted _ _ flow => rw [flow] at hdropped; cases hdropped
    | waits _ _ flow => rw [flow] at hdropped; cases hdropped

theorem silent_passes_dropped :
    ∃ before silent last, before ++ silent ++ [last] <+: List.replicate 2050 latePass ∧
      2049 ≤ delivered (silent ++ [last]) := by
  have hdropped : Dropped .little threeBlocks freshLoop (List.replicate 2050 latePass) :=
    (dropped_iff rfl (ready_start rfl 0 false) (Nat.zero_le _) latePass_overdue).mpr
      (by rw [delivered_latePass]; exact Nat.le_add_left _ _)
  obtain ⟨front, t, hfront, hrun, htimeout⟩ := hdropped
  obtain ⟨before, silent, last, -, rfl, -, -, hmany, -⟩ := dropped_after_silence .little threeBlocks
    ⟨0, 0, ⟨0, ⟨[7, 8, 9], 0⟩, []⟩⟩ (List.replicate 12 0) rfl 0 false front t hrun htimeout
  exact ⟨before, silent, last, hfront, hmany⟩

end TsunamiUdp.Server

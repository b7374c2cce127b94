import Mathlib.Data.List.Forall2
import TsunamiUdp.Library.Runs
import TsunamiUdp.Server.Handler

/-! How the transmit loop puts the requests together again from the pieces it reads. -/
namespace TsunamiUdp.Server
open Library

variable {order : ByteOrder} {param : Parameter}

def memoryAfterRead (input : Input) (h : Handler) : List UInt8 :=
  buffered input h ++ h.retransmission.drop (buffered input h).length

def ReportsLost (input : Input) (h : Handler) : Prop :=
  h.deadconnectionCounter > 2048 ∧ input.send = .ok ∧
    ¬usecSince input.checkTime h.lasthblostreport < 500000

/-- If the pass ends with such a report while a request is incomplete, the report leaves
behind the very bytes that were there. -/
def Undisturbed (order : ByteOrder) (s : Loop) (input : Input) : Prop :=
  (buffered input s.handler).length < sizeofRetransmission → ReportsLost input s.handler →
    (convertInPlace order (fakeReport (memoryAfterRead input s.handler))).take
      (buffered input s.handler).length = buffered input s.handler

instance (input : Input) (h : Handler) : Decidable (ReportsLost input h) := by
  unfold ReportsLost
  infer_instance

instance (order : ByteOrder) (s : Loop) (input : Input) : Decidable (Undisturbed order s input) := by
  unfold Undisturbed
  infer_instance

theorem finish_memory_eq (input : Input) (h : Handler) :
    (finish order param input (transmitBlock param input.send h)).handler.retransmission =
      if ReportsLost input h then convertInPlace order (fakeReport h.retransmission)
      else h.retransmission := by
  unfold finish heartbeat reportLost sleep transmitBlock
  dsimp only
  rw [if_neg (by decide)]
  by_cases hreport : ReportsLost input h
  · rw [if_pos hreport]
    obtain ⟨hcount, hsend, htime⟩ := hreport
    rw [if_neg (by simp [hsend]), if_pos hcount, if_neg htime]
    split <;> rfl
  · rw [if_neg hreport]
    split
    · rfl
    · rename_i hdelivered
      split
      · rename_i hcount
        split
        · rfl
        · rename_i htime
          have hsend : input.send = .ok := by simpa using hdelivered
          exact absurd ⟨hcount, hsend, htime⟩ hreport
      · rfl

variable (order param) in
theorem handlerTurn_incomplete {h : Handler} {input : Input} (hready : Ready h)
    (hread : Readable input.read h) (hless : (buffered input h).length < sizeofRetransmission)
    (hflow : (handlerTurn order param input h).flow ≠ .exit) :
    ∃ again, handlerTurn order param input h = finish order param input (transmitBlock param input.send
      { pace input.now h with
        retransmission := memoryAfterRead input h
        retransmitlen := (buffered input h).length
        again := again }) := by
  have hmem := hready.memory
  have hroom := readable_le hread hready.room
  have hbuf := buffered_length input (h := h) (by omega)
  unfold handlerTurn at hflow ⊢
  cases hr : readRequest input.read (pace input.now h) with
  | none =>
    dsimp only at hflow
    rw [hr] at hflow
    exact absurd rfl hflow
  | some h1 =>
    dsimp only
    rw [hr]
    obtain ⟨again, rfl⟩ := readRequest_some hr
    refine ⟨again, ?_⟩
    dsimp only
    rw [if_neg (by dsimp only [pace]; omega), if_pos (by dsimp only [pace]; omega),
      memoryAfterRead, hbuf]
    rfl

variable (order param) in
theorem turn_memory {h : Handler} {input : Input} (hready : Ready h) (hread : Readable input.read h)
    (hless : (buffered input h).length < sizeofRetransmission)
    (hflow : (handlerTurn order param input h).flow ≠ .exit) :
    (handlerTurn order param input h).handler.retransmission =
      if ReportsLost input h then convertInPlace order (fakeReport (memoryAfterRead input h))
      else memoryAfterRead input h := by
  obtain ⟨again, hturn⟩ := handlerTurn_incomplete order param hready hread hless hflow
  rw [hturn, finish_memory_eq]
  rfl

def TimesOut (param : Parameter) (input : Input) (h : Handler) : Prop :=
  (buffered input h).length < sizeofRetransmission ∧ ReportsLost input h ∧
    usecSince input.deltaTime h.lastfeedback > param.hbTimeout * 1000000

instance (param : Parameter) (input : Input) (h : Handler) : Decidable (TimesOut param input h) := by
  unfold TimesOut
  infer_instance

theorem finish_timeout {input : Input} {h : Handler}
    (hflow : (finish order param input (transmitBlock param input.send h)).flow = .timeout) :
    ReportsLost input h ∧ usecSince input.deltaTime h.lastfeedback > param.hbTimeout * 1000000 := by
  unfold finish heartbeat reportLost sleep transmitBlock at hflow
  dsimp only at hflow
  rw [if_neg (by decide)] at hflow
  split at hflow
  · cases hflow
  · rename_i hdelivered
    have hsend : input.send = .ok := by simpa using hdelivered
    split at hflow
    · rename_i hcount
      split at hflow
      · cases hflow
      · rename_i htime
        refine ⟨⟨hcount, hsend, htime⟩, ?_⟩
        by_contra hlate
        simp only [if_neg hlate, reduceCtorEq] at hflow
    · cases hflow

theorem timesOut_of_flow {h : Handler} {input : Input} (hready : Ready h)
    (hread : Readable input.read h) (hflow : (handlerTurn order param input h).flow = .timeout) :
    TimesOut param input h := by
  cases handlerTurn_pass order param hready hread with
  | exited flow => cases flow.symm.trans hflow
  | stopped _ _ flow => cases flow.symm.trans hflow
  | requested _ _ flow => cases flow.symm.trans hflow
  | transmitted incomplete =>
    obtain ⟨again, hturn⟩ := handlerTurn_incomplete order param hready hread incomplete
      fun hexit => by cases hexit.symm.trans hflow
    rw [hturn] at hflow
    obtain ⟨hlost, hlate⟩ := finish_timeout hflow
    exact ⟨incomplete, hlost, hlate⟩

variable (order param) in
theorem turn_keeps_buffer {s : Loop} {input : Input} (hready : Ready s.handler)
    (hread : Readable input.read s.handler)
    (hless : (buffered input s.handler).length < sizeofRetransmission)
    (hflow : (handlerTurn order param input s.handler).flow ≠ .exit)
    (hund : Undisturbed order s input) :
    (handlerTurn order param input s.handler).handler.retransmission.take
      (buffered input s.handler).length = buffered input s.handler := by
  rw [turn_memory order param hready hread hless hflow]
  by_cases hreport : ReportsLost input s.handler
  · rw [if_pos hreport]
    exact hund hless hreport
  · rw [if_neg hreport, memoryAfterRead]
    exact List.take_left' rfl

structure Display (shown : List UInt8 → List UInt8 → Prop) : Prop where
  nil : shown [] []
  append : ∀ {part memory : List UInt8} (bytes : List UInt8), shown part memory →
    shown (part ++ bytes) (memory ++ bytes)
  length : ∀ {part memory : List UInt8}, shown part memory → memory.length = part.length

/-- How far the stream of requests has been cut up: the requests acted on, as they were
shown, and the bytes of the next one. -/
structure Cut (shown : List UInt8 → List UInt8 → Prop) (requests : List (List UInt8)) (s : Loop) :
    Prop where
  ready : s.flow = .next → Ready s.handler
  done : ∃ done rest part, requests = done ++ rest ∧ s.bytes = done.flatten ++ part ∧
    part.length < sizeofRetransmission ∧
    List.Forall₂ (fun r request => ∃ memory, shown request memory ∧ r = .decode memory) s.acted done ∧
    (s.flow = .next → shown part (s.handler.retransmission.take s.handler.retransmitlen))

section Cuts
variable {shown : List UInt8 → List UInt8 → Prop} {requests : List (List UInt8)} {s s' : Loop}
  {input : Input}

theorem cut_start {h : Handler} (hshown : Display shown) (hready : Ready h)
    (hempty : h.retransmitlen = 0) : Cut shown [] (.start h) := by
  refine ⟨fun _ => hready, [], [], [], rfl, rfl, by decide, .nil, fun _ => ?_⟩
  simp only [Loop.start, hempty, List.take_zero]
  exact hshown.nil

theorem Cut.more (h : Cut shown requests s) (more : List (List UInt8)) :
    Cut shown (requests ++ more) s := by
  obtain ⟨hready, done, rest, part, hsplit, hrest⟩ := h
  exact ⟨hready, done, rest ++ more, part, by rw [hsplit, List.append_assoc], hrest⟩

theorem next_cut {done rest : List (List UInt8)} {part memory : List UInt8} (hshown : Display shown)
    (hwidth : ∀ r ∈ requests, r.length = sizeofRetransmission) (hsplit : requests = done ++ rest)
    (hstream : done.flatten ++ part <+: requests.flatten) (hpart : shown part memory)
    (hfull : memory.length = sizeofRetransmission) : ∃ rest', rest = part :: rest' := by
  rw [hsplit] at hstream
  refine next_record (by decide) (fun r hr => ?_) ((hshown.length hpart).symm.trans hfull) hstream
  exact hwidth r (by rw [hsplit]; exact List.mem_append_right _ hr)

theorem cut_step (hshown : Display shown) (hwidth : ∀ r ∈ requests, r.length = sizeofRetransmission)
    (h : Cut shown requests s) (hs : Loop.step order param s input = some s')
    (hstream : s'.bytes <+: requests.flatten)
    (hkeep : ∀ done rest part, requests = done ++ rest → done.flatten ++ part <+: requests.flatten →
      shown part (buffered input s.handler) →
      (buffered input s.handler).length < sizeofRetransmission → s'.flow = .next →
      shown part (s'.handler.retransmission.take (buffered input s.handler).length)) :
    Cut shown requests s' := by
  have hready' := ready_step h.ready hs
  obtain ⟨hflow, hread, rfl⟩ := step_some hs
  have hready := h.ready hflow
  obtain ⟨done, rest, part, hsplit, hbytes, hless, hacted, hpart⟩ := h.done
  have hpart : shown (part ++ input.read.bytes) (buffered input s.handler) :=
    hshown.append _ (hpart hflow)
  have hall : s.bytes ++ input.read.bytes = done.flatten ++ (part ++ input.read.bytes) := by
    rw [hbytes, List.append_assoc]
  have hprefix : done.flatten ++ (part ++ input.read.bytes) <+: requests.flatten := by
    rw [← hall]
    exact hstream
  refine ⟨hready', ?_⟩
  cases handlerTurn_pass order param hready hread with
  | exited flow acted _ _ bytes =>
    refine ⟨done, rest, part, hsplit, ?_, hless, ?_, fun hnext => ?_⟩
    · rw [bytes, List.append_nil]
      exact hbytes
    · rw [acted]
      simpa using hacted
    · rw [flow] at hnext
      cases hnext
  | stopped complete _ flow acted =>
    obtain ⟨rest', hrest⟩ := next_cut hshown hwidth hsplit hprefix hpart complete
    refine ⟨done ++ [part ++ input.read.bytes], rest', [], ?_, ?_, by decide, ?_, fun hnext => ?_⟩
    · rw [hsplit, hrest, List.append_assoc]
      rfl
    · rw [hall]
      simp
    · rw [acted]
      exact List.rel_append hacted (.cons ⟨_, hpart, rfl⟩ .nil)
    · rw [flow] at hnext
      cases hnext
  | requested complete _ _ acted _ _ _ empty =>
    obtain ⟨rest', hrest⟩ := next_cut hshown hwidth hsplit hprefix hpart complete
    refine ⟨done ++ [part ++ input.read.bytes], rest', [], ?_, ?_, by decide, ?_, fun _ => ?_⟩
    · rw [hsplit, hrest, List.append_assoc]
      rfl
    · rw [hall]
      simp
    · rw [acted]
      exact List.rel_append hacted (.cons ⟨_, hpart, rfl⟩ .nil)
    · rw [empty, List.take_zero]
      exact hshown.nil
  | transmitted incomplete _ acted _ _ _ _ len =>
    have hlen := hshown.length hpart
    refine ⟨done, rest, part ++ input.read.bytes, hsplit, hall, by omega, ?_, fun hnext => ?_⟩
    · rw [acted]
      simpa using hacted
    · rw [len]
      exact hkeep done rest _ hsplit hprefix hpart incomplete hnext

theorem Cut.acted (h : Cut shown requests s)
    (hwidth : ∀ r ∈ requests, r.length = sizeofRetransmission) :
    List.Forall₂ (fun r request => ∃ memory, shown request memory ∧ r = .decode memory) s.acted
      (requests.take (s.bytes.length / sizeofRetransmission)) := by
  obtain ⟨done, rest, part, hsplit, hbytes, hless, hacted, -⟩ := h.done
  have hlen : done.flatten.length = sizeofRetransmission * done.length :=
    flatten_length fun r hr => hwidth r (by rw [hsplit]; exact List.mem_append_left _ hr)
  have hcount : s.bytes.length / sizeofRetransmission = done.length := by
    rw [hbytes, List.length_append, hlen]
    unfold sizeofRetransmission at *
    omega
  rw [hcount, hsplit, List.take_left' rfl]
  exact hacted

theorem stream_before {P : Loop → Prop} {stream : List UInt8} (h : s.bytes <+: stream → P s)
    (hs : Loop.step order param s input = some s') (hstream : s'.bytes <+: stream) : P s := by
  obtain ⟨-, -, rfl⟩ := step_some hs
  exact h ((List.prefix_append _ _).trans hstream)

end Cuts

theorem display_eq : Display fun part memory => memory = part where
  nil := rfl
  append _ h := by rw [h]
  length h := by rw [h]

/-- In every run whose reports of lost heartbeats disturb no request that is being
received, the requests acted on are the client's, decoded, each once and in order. -/
theorem requests_framed (order : ByteOrder) (param : Parameter) (h : Handler)
    (requests : List (List UInt8)) (inputs : List Input) (t : Loop) (hready : Ready h)
    (hempty : h.retransmitlen = 0) (hwidth : ∀ r ∈ requests, r.length = sizeofRetransmission)
    (hrun : run (Loop.step order param) (.start h) inputs = some t)
    (hstream : t.bytes <+: requests.flatten)
    (hund : Along (Loop.step order param) (Undisturbed order) (.start h) inputs) :
    t.acted = (requests.take (t.bytes.length / sizeofRetransmission)).map .decode := by
  have hcut := run_invariant_along
    (P := fun s => s.bytes <+: requests.flatten → Cut (fun part memory => memory = part) requests s)
    (fun s input s' h hok hs hst => by
      have hbefore := stream_before h hs hst
      refine cut_step display_eq hwidth hbefore hs hst ?_
      intro _ _ part _ _ hpart hless hnext
      obtain ⟨hflow, hread, rfl⟩ := step_some hs
      rw [← hpart]
      exact turn_keeps_buffer order param (hbefore.ready hflow) hread hless
        (fun hexit => by cases hexit.symm.trans hnext) hok)
    (fun _ => (cut_start display_eq hready hempty).more requests) hund hrun hstream
  have hacted := hcut.acted hwidth
  rw [← List.forall₂_eq_eq_eq, List.forall₂_map_right_iff]
  refine hacted.imp ?_
  rintro r request ⟨memory, rfl, hr⟩
  exact hr

/-- A request that arrives in two pieces, with an empty read in between. -/
theorem requests_framed_sample :
    ∃ t, run (Loop.step .little threeBlocks)
        (.start (.start ⟨0, 0, ⟨0, ⟨[7, 8, 9], 0⟩, []⟩⟩ (List.replicate 12 0) 0 false))
        [⟨0, .data [0, 0], .ok, 0, 0, 0⟩, .idle,
          ⟨0, .data [0, 0, 0, 0, 0, 1, 0, 0, 0, 0], .ok, 0, 0, 0⟩] = some t ∧
      t.acted = [⟨requestRetransmit, 1, 0⟩] := by
  have hrun : ∃ t, run (Loop.step .little threeBlocks)
      (.start (.start ⟨0, 0, ⟨0, ⟨[7, 8, 9], 0⟩, []⟩⟩ (List.replicate 12 0) 0 false))
      [⟨0, .data [0, 0], .ok, 0, 0, 0⟩, .idle,
        ⟨0, .data [0, 0, 0, 0, 0, 1, 0, 0, 0, 0], .ok, 0, 0, 0⟩] = some t ∧
      t.bytes = [0, 0, 0, 0, 0, 0, 0, 1, 0, 0, 0, 0] := ⟨_, rfl, rfl⟩
  obtain ⟨t, ht, hbytes⟩ := hrun
  have hacted := requests_framed .little threeBlocks _ [[0, 0, 0, 0, 0, 0, 0, 1, 0, 0, 0, 0]] _ t
    (ready_start rfl 0 false) rfl (by decide) ht (by rw [hbytes]; decide) (by decide)
  rw [hbytes] at hacted
  exact ⟨t, ht, hacted⟩

structure Waits (h : Handler) (count : Nat) (s : Loop) : Prop where
  flow : s.flow = .next
  memory : s.handler.retransmission = h.retransmission
  len : s.handler.retransmitlen = h.retransmitlen
  lastblostreport : s.handler.lasthblostreport = h.lasthblostreport
  lastfeedback : s.handler.lastfeedback = h.lastfeedback
  counter : s.handler.deadconnectionCounter = count

theorem waits_step {h : Handler} {count : Nat} {s : Loop} (hready : Ready h) (hw : Waits h count s)
    (hcount : count ≤ 2048) :
    ∃ t, Loop.step order param s .idle = some t ∧ Waits h (count + 1) t ∧
      t.bytes = s.bytes ∧ t.acted = s.acted := by
  have hready' : Ready s.handler := ⟨hw.memory ▸ hready.memory, hw.len ▸ hready.room⟩
  have hquiet : s.handler.deadconnectionCounter ≤ 2048 := hw.counter ▸ hcount
  have hturn := ((handlerTurn_nothing order param .idle hready' rfl).trans (finish_sent _)).trans
    (heartbeat_counts hquiet)
  refine ⟨_, if_pos ⟨hw.flow, trivial⟩, ?_, List.append_nil _, ?_⟩
  · rw [hturn]
    refine ⟨rfl, hw.memory, hw.len, hw.lastblostreport, hw.lastfeedback, ?_⟩
    refine Eq.trans (wrap32_of_lt ?_) (congrArg (· + 1) hw.counter)
    exact Nat.lt_of_le_of_lt (Nat.succ_le_succ hquiet) (by decide)
  · rw [hturn]
    exact List.append_nil _

variable (order param) in
theorem waits_run {h : Handler} (hready : Ready h) (n : Nat) {count : Nat} {s : Loop}
    (hw : Waits h count s) (hcount : count + n ≤ 2049) :
    ∃ t, run (Loop.step order param) s (List.replicate n .idle) = some t ∧ Waits h (count + n) t ∧
      t.bytes = s.bytes ∧ t.acted = s.acted := by
  induction n generalizing count s with
  | zero => exact ⟨s, rfl, hw, rfl, rfl⟩
  | succ n ih =>
    obtain ⟨mid, hmid, hwmid, hbytes, hacted⟩ := waits_step hready hw (by omega)
    obtain ⟨t, ht, hwt, hbytes', hacted'⟩ := ih hwmid (by omega)
    refine ⟨t, ?_, ?_, hbytes'.trans hbytes, hacted'.trans hacted⟩
    · rw [List.replicate_succ, run_cons, hmid]
      exact ht
    · rw [Nat.add_right_comm] at hwt
      exact hwt

variable (order param) in
theorem report_step {s : Loop} (input : Input) (hready : Ready s.handler) (hflow : s.flow = .next)
    (hread : input.read = .nothing) (hreport : ReportsLost input s.handler)
    (hlate : ¬usecSince input.deltaTime s.handler.lastfeedback > param.hbTimeout * 1000000) :
    ∃ t, Loop.step order param s input = some t ∧ t.flow = .next ∧
      t.handler.retransmission = convertInPlace order (fakeReport s.handler.retransmission) ∧
      t.handler.retransmitlen = s.handler.retransmitlen ∧
      t.bytes = s.bytes ∧ t.acted = s.acted := by
  obtain ⟨hcount, hsend, htime⟩ := hreport
  have hturn : handlerTurn order param input s.handler = reportLost order param input
      { transmitBlock param .ok { pace input.now s.handler with again := true } with
        handler := { (transmitBlock param .ok { pace input.now s.handler with again := true }).handler
          with deadconnectionCounter := 0 } } := by
    rw [handlerTurn_nothing order param input hready hread, hsend, finish_sent]
    exact heartbeat_reports hcount htime
  obtain ⟨hnext, hacted, hmemory, hlen⟩ := reportLost_spec order param input
    { transmitBlock param .ok { pace input.now s.handler with again := true } with
      handler := { (transmitBlock param .ok { pace input.now s.handler with again := true }).handler
        with deadconnectionCounter := 0 } }
  refine ⟨_, if_pos ⟨hflow, by rw [hread]; trivial⟩, ?_, ?_, ?_, ?_, ?_⟩
  · rw [hturn]
    exact hnext hlate
  · rw [hturn]
    exact hmemory
  · rw [hturn]
    exact hlen
  · rw [hread]
    exact List.append_nil _
  · rw [hturn, hacted]
    exact List.append_nil _

/-- Two bytes of a request for block 1 arrive, then the monitor reports a lost heartbeat,
then the other ten bytes arrive: the loop acts on an error report for block 1. -/
theorem request_rewritten_by_monitor :
    ∃ t, run (Loop.step .little threeBlocks)
        (.start (.start ⟨0, 0, ⟨0, ⟨[7, 8, 9], 0⟩, []⟩⟩ (List.replicate 12 0) 0 false))
        ([⟨0, .data [0, 0], .ok, 0, 0, 0⟩] ++ List.replicate 2048 .idle ++
          [⟨0, .nothing, .ok, 1000000, 0, 0⟩] ++
          [⟨0, .data [0, 0, 0, 0, 0, 1, 0, 0, 0, 0], .ok, 0, 0, 0⟩]) = some t ∧
      t.bytes = Retransmission.encode ⟨requestRetransmit, 1, 0⟩ ∧
      t.acted = [⟨requestErrorRate, 1, 0⟩] := by
  have hfirst : ∃ s, run (Loop.step .little threeBlocks)
      (.start (.start ⟨0, 0, ⟨0, ⟨[7, 8, 9], 0⟩, []⟩⟩ (List.replicate 12 0) 0 false))
      [⟨0, .data [0, 0], .ok, 0, 0, 0⟩] = some s ∧ s.flow = .next ∧
      s.handler.retransmission = List.replicate 12 0 ∧ s.handler.retransmitlen = 2 ∧
      s.handler.lasthblostreport = 0 ∧ s.handler.lastfeedback = 0 ∧
      s.handler.deadconnectionCounter = 1 ∧ s.bytes = [0, 0] ∧ s.acted = [] :=
    ⟨_, rfl, rfl, rfl, rfl, rfl, rfl, rfl, rfl, rfl⟩
  obtain ⟨s, hs, hflow, hmemory, hlen, hreport, hfeedback, hcounter, hbytes, hacted⟩ := hfirst
  have hready : Ready s.handler := ⟨by rw [hmemory]; rfl, by rw [hlen]; decide⟩
  obtain ⟨u, hu, hw, hbytes', hacted'⟩ := waits_run .little threeBlocks hready 2048
    ⟨hflow, rfl, rfl, rfl, rfl, hcounter⟩ (by decide)
  have hreadyu : Ready u.handler := ⟨hw.memory ▸ hready.memory, hw.len ▸ hready.room⟩
  obtain ⟨v, hv, hflowv, hmemoryv, hlenv, hbytesv, hactedv⟩ := report_step .little threeBlocks
    ⟨0, .nothing, .ok, 1000000, 0, 0⟩ hreadyu hw.flow rfl
    ⟨by rw [hw.counter]; decide, rfl, by rw [hw.lastblostreport, hreport]; decide⟩
    (by rw [hw.lastfeedback, hfeedback]; decide)
  rw [hw.memory, hmemory] at hmemoryv
  rw [hw.len, hlen] at hlenv
  have hreadyv : Ready v.handler := ⟨by rw [hmemoryv]; rfl, by rw [hlenv]; decide⟩
  let last : Input := ⟨0, .data [0, 0, 0, 0, 0, 1, 0, 0, 0, 0], .ok, 0, 0, 0⟩
  have hreadable : Readable last.read v.handler := ⟨by decide, by rw [hlenv]; decide⟩
  have hbuf : buffered last v.handler = [0, 3, 0, 0, 0, 0, 0, 1, 0, 0, 0, 0] := by
    rw [buffered, hmemoryv, hlenv]
    rfl
  have hlast := handlerTurn_acted .little threeBlocks hreadyv hreadable (by rw [hbuf]; rfl)
  rw [hbuf] at hlast
  refine ⟨_, run_append_of (run_append_of (run_append_of hs hu) (by rw [run_cons, hv]; rfl))
    (by rw [run_cons]; exact congrArg (Option.bind · _) (if_pos ⟨hflowv, hreadable⟩)), ?_, ?_⟩
  · change v.bytes ++ [0, 0, 0, 0, 0, 1, 0, 0, 0, 0] = _
    rw [hbytesv, hbytes', hbytes]
    decide
  · change v.acted ++ (handlerTurn .little threeBlocks last v.handler).acted.toList = _
    rw [hactedv, hacted', hacted, hlast]
    decide

/-- The bytes of a request that is being received, as the structure shows them: as they
came, or behind the type the monitor has put there. -/
def Shown (part memory : List UInt8) : Prop :=
  memory = part ∨ (memory.length = part.length ∧ memory.take 2 = toBytes 2 requestErrorRate)

theorem Shown.append {part memory : List UInt8} (h : Shown part memory) (bytes : List UInt8) :
    Shown (part ++ bytes) (memory ++ bytes) := by
  rcases h with rfl | ⟨hlen, htype⟩
  · exact Or.inl rfl
  · right
    have htwo : 2 ≤ memory.length := by
      have hlength := congrArg List.length htype
      rw [List.length_take, toBytes_length] at hlength
      omega
    rw [List.take_append_of_le_length htwo]
    exact ⟨by simp [hlen], htype⟩

theorem reported_type (order : ByteOrder) (memory : List UInt8) :
    ∃ tail, convertInPlace order (fakeReport memory) = toBytes 2 requestErrorRate ++ tail := by
  refine ⟨(((memory.drop 2).take 2 ++ toBytes 4 0 ++ toBytes 4 100000).take 2) ++
    order.bytes (Retransmission.decode (fakeReport memory)).block ++
    order.bytes (Retransmission.decode (fakeReport memory)).errorRate, ?_⟩
  have hfront : (fakeReport memory).take 4 = toBytes 2 requestErrorRate ++
      ((memory.drop 2).take 2 ++ toBytes 4 0 ++ toBytes 4 100000).take 2 := by
    rw [fakeReport, List.append_assoc, List.append_assoc, List.take_append]
    simp
  rw [convertInPlace, hfront]
  simp only [List.append_assoc]

theorem Shown.report {part memory : List UInt8} (h : Shown part memory)
    (hzero : part.take 1 = [] ∨ part.take 1 = [0]) (order : ByteOrder) (behind : List UInt8)
    (hlen : (memory ++ behind).length = sizeofRetransmission) :
    Shown part ((convertInPlace order (fakeReport (memory ++ behind))).take memory.length) := by
  have hpart : memory.length = part.length := by
    rcases h with rfl | ⟨hsame, -⟩
    · rfl
    · exact hsame
  have hwhole : (convertInPlace order (fakeReport (memory ++ behind))).length =
      sizeofRetransmission := convertInPlace_length (fakeReport_length hlen)
  obtain ⟨tail, htail⟩ := reported_type order (memory ++ behind)
  rw [List.length_append] at hlen
  rw [htail] at hwhole ⊢
  by_cases htwo : 2 ≤ memory.length
  · right
    refine ⟨?_, ?_⟩
    · rw [List.length_take, hwhole]
      omega
    · rw [List.take_take, Nat.min_eq_left htwo]
      exact List.take_left' rfl
  · left
    by_cases hone : memory.length = 1
    · have hall : part.take 1 = part := List.take_of_length_le (by omega)
      rw [hall] at hzero
      rcases hzero with rfl | rfl
      · rw [hone] at hpart
        cases hpart
      · rw [hone]
        rfl
    · have hnone : memory.length = 0 := by omega
      rw [hnone] at hpart
      rw [hnone, List.eq_nil_of_length_eq_zero hpart.symm]
      rfl

theorem Shown.decode {part memory : List UInt8} (h : Shown part memory) :
    Retransmission.decode memory = .decode part ∨
      (Retransmission.decode memory).requestType = requestErrorRate := by
  rcases h with rfl | ⟨-, htype⟩
  · exact Or.inl rfl
  · right
    change ofBytes (memory.take 2) = requestErrorRate
    rw [htype]
    decide

theorem part_head {requests done rest : List (List UInt8)} {part : List UInt8}
    (hsplit : requests = done ++ rest) (hzero : ∀ r ∈ requests, r.take 1 = [0])
    (hstream : done.flatten ++ part <+: requests.flatten) : part.take 1 = [] ∨ part.take 1 = [0] := by
  rw [hsplit, List.flatten_append, List.prefix_append_right_inj] at hstream
  cases part with
  | nil => exact Or.inl rfl
  | cons b part =>
    right
    cases rest with
    | nil =>
      cases hstream.length_le
    | cons r rest =>
      have hr := hzero r (by rw [hsplit]; exact List.mem_append_right _ List.mem_cons_self)
      cases r with
      | nil => cases hr
      | cons c r =>
        obtain ⟨tail, htail⟩ := hstream
        rw [← (List.cons.inj htail).1] at hr
        exact hr

theorem display_shown : Display Shown where
  nil := Or.inl rfl
  append bytes h := h.append bytes
  length h := by
    rcases h with rfl | ⟨hlen, -⟩
    · rfl
    · exact hlen

theorem shown_step {requests : List (List UInt8)} {s s' : Loop} {input : Input}
    (hwidth : ∀ r ∈ requests, r.length = sizeofRetransmission)
    (hzero : ∀ r ∈ requests, r.take 1 = [0]) (h : Cut Shown requests s)
    (hs : Loop.step order param s input = some s') (hstream : s'.bytes <+: requests.flatten) :
    Cut Shown requests s' := by
  refine cut_step display_shown hwidth h hs hstream ?_
  intro done rest part hsplit hprefix hpart hless hnext
  obtain ⟨hflow, hread, rfl⟩ := step_some hs
  have hready := h.ready hflow
  rw [turn_memory order param hready hread hless fun hexit => by cases hexit.symm.trans hnext]
  split
  · apply hpart.report (part_head hsplit hzero hprefix) order
    rw [List.length_append, List.length_drop, hready.memory]
    omega
  · rw [memoryAfterRead, List.take_left' rfl]
    exact hpart

theorem Cut.decode {requests : List (List UInt8)} {s : Loop} {input : Input}
    (h : Cut Shown requests s) (hwidth : ∀ r ∈ requests, r.length = sizeofRetransmission)
    (hflow : s.flow = .next) (hstream : s.bytes ++ input.read.bytes <+: requests.flatten)
    (hcomplete : (buffered input s.handler).length = sizeofRetransmission) :
    (Retransmission.decode (buffered input s.handler)).requestType = requestErrorRate ∨
      ∃ request ∈ requests, Retransmission.decode (buffered input s.handler) = .decode request := by
  obtain ⟨done, rest, part, hsplit, hbytes, -, -, hpart⟩ := h.done
  have hpart : Shown (part ++ input.read.bytes) (buffered input s.handler) := (hpart hflow).append _
  rw [hbytes, List.append_assoc] at hstream
  obtain ⟨rest', hrest⟩ := next_cut display_shown hwidth hsplit hstream hpart hcomplete
  rcases hpart.decode with hsame | hreport
  · refine Or.inr ⟨part ++ input.read.bytes, ?_, hsame⟩
    rw [hsplit, hrest]
    exact List.mem_append_right _ List.mem_cons_self
  · exact Or.inl hreport

/-- Whatever the monitor does, the requests acted on are the client's in their order,
but for some that have become error reports. -/
theorem requests_cut (order : ByteOrder) (param : Parameter) (h : Handler)
    (requests : List (List UInt8)) (inputs : List Input) (t : Loop) (hready : Ready h)
    (hempty : h.retransmitlen = 0) (hwidth : ∀ r ∈ requests, r.length = sizeofRetransmission)
    (hzero : ∀ r ∈ requests, r.take 1 = [0])
    (hrun : run (Loop.step order param) (.start h) inputs = some t)
    (hstream : t.bytes <+: requests.flatten) :
    List.Forall₂ (fun r request => r = .decode request ∨ r.requestType = requestErrorRate) t.acted
      (requests.take (t.bytes.length / sizeofRetransmission)) := by
  have hcut := run_invariant (P := fun s => s.bytes <+: requests.flatten → Cut Shown requests s)
    (fun _ _ _ h hs hst => shown_step hwidth hzero (stream_before h hs hst) hs hst)
    (fun _ => (cut_start display_shown hready hempty).more requests) hrun hstream
  refine (hcut.acted hwidth).imp ?_
  rintro r request ⟨memory, hshown, rfl⟩
  exact hshown.decode

end TsunamiUdp.Server

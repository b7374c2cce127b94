import TsunamiUdp.Library.Runs
import TsunamiUdp.Server.Handler

/-! What the transmit loop sends after a restart request. -/
namespace TsunamiUdp.Server
open Library

variable {order : ByteOrder} {param : Parameter}

/-- From block `b` on everything is sent, in order, and then the last block again and
again. -/
structure Resent (param : Parameter) (b : Nat) (originals : List Nat) : Prop where
  inOrder : originals =
    (List.range originals.length).map fun k : Nat => min (b + k) param.blockCount
  complete : param.blockCount - b < originals.length →
    ∀ m, b ≤ m → m ≤ param.blockCount → m ∈ originals

def NoRestart (order : ByteOrder) (param : Parameter) (s : Loop) (input : Input) : Prop :=
  ∀ r, (handlerTurn order param input s.handler).acted = some r →
    r.requestType = requestRestart → r.block = 0 ∨ r.block > param.blockCount

structure AtLast (param : Parameter) (s : Loop) : Prop where
  ready : s.flow = .next → Ready s.handler
  block : s.handler.xfer.block = param.blockCount
  originals : ∀ b ∈ s.originals, b = param.blockCount

theorem nextBlock_last {xfer : Transfer} (hblock : xfer.block = param.blockCount)
    (hcount : param.blockCount < 4294967295) : nextBlock param xfer = param.blockCount := by
  rw [nextBlock, hblock, wrap32_of_lt (by omega)]
  omega

theorem ttpAcceptRetransmit_block {send : SendResult} {r : Retransmission} {xfer : Transfer}
    (h : r.requestType = requestRestart → r.block = 0 ∨ r.block > param.blockCount) :
    (ttpAcceptRetransmit param send r xfer).xfer.block = xfer.block := by
  unfold ttpAcceptRetransmit
  split
  · rfl
  · split
    · rename_i htype
      rw [if_pos (h htype)]
    · split <;> rfl

theorem atLast_step {s s' : Loop} {input : Input} (hcount : param.blockCount < 4294967295)
    (h : AtLast param s) (hquiet : NoRestart order param s input)
    (hs : Loop.step order param s input = some s') : AtLast param s' := by
  have hready' := ready_step h.ready hs
  obtain ⟨hflow, hread, rfl⟩ := step_some hs
  cases handlerTurn_pass order param (h.ready hflow) hread with
  | exited _ _ original _ _ xfer =>
    refine ⟨hready', by rw [xfer]; exact h.block, ?_⟩
    rw [original]
    simpa using h.originals
  | stopped _ _ _ _ original _ xfer =>
    refine ⟨hready', by rw [xfer]; exact h.block, ?_⟩
    rw [original]
    simpa using h.originals
  | requested _ _ _ acted original xfer =>
    refine ⟨hready', ?_, ?_⟩
    · dsimp only
      rw [xfer, ttpAcceptRetransmit_block (hquiet _ acted)]
      exact h.block
    · rw [original]
      simpa using h.originals
  | transmitted _ _ _ original block =>
    have hnext := nextBlock_last h.block hcount
    refine ⟨hready', block.trans hnext, fun b hb => ?_⟩
    dsimp only at hb
    rw [original, hnext] at hb
    rcases List.mem_append.mp hb with hb | hb
    · exact h.originals b hb
    · exact List.mem_singleton.mp hb

theorem AtLast.resent {s : Loop} (h : AtLast param s) :
    Resent param param.blockCount s.originals := by
  refine ⟨?_, fun hlong m hle hge => ?_⟩
  · apply List.ext_getElem
    · simp
    · intro k hk hk'
      rw [h.originals _ (List.getElem_mem hk)]
      simp
  · obtain ⟨b, hb⟩ := List.exists_mem_of_length_pos (show 0 < s.originals.length by omega)
    have hlast := h.originals b hb
    rw [show m = b by omega]
    exact hb

theorem restarted {h : Handler} {input : Input} {r : Retransmission} (hready : Ready h)
    (hread : Readable input.read h) (hacted : (handlerTurn order param input h).acted = some r)
    (hrestart : r.requestType = requestRestart) (h1 : 1 ≤ r.block)
    (hle : r.block ≤ param.blockCount) :
    (handlerTurn order param input h).handler.xfer.block = r.block ∧
      Ready (handlerTurn order param input h).handler := by
  have hnext := handlerTurn_ready order param hready hread
  cases handlerTurn_pass order param hready hread with
  | exited _ acted => rw [hacted] at acted; cases acted
  | stopped _ stop _ acted =>
    rw [hacted] at acted
    cases acted
    rw [hrestart] at stop
    cases stop
  | requested _ _ flow acted _ xfer =>
    rw [hacted] at acted
    cases acted
    refine ⟨?_, hnext flow⟩
    rw [xfer, ttpAcceptRetransmit, if_neg (by rw [hrestart]; decide), if_pos hrestart,
      if_neg (by omega)]
  | transmitted _ _ acted => rw [hacted] at acted; cases acted

variable (order param) in
theorem step_idle {h : Handler} (hready : Ready h) :
    ∃ t, Loop.step order param (.start h) .idle = some t ∧
      t.originals = [nextBlock param h.xfer] ∧
      NoRestart order param (.start h) .idle := by
  have hturn := handlerTurn_nothing order param .idle hready rfl
  obtain ⟨hacted, horiginal, -⟩ := sameTurn_finish order param .idle
    (transmitBlock param .ok { pace 0 h with again := true }) hready.memory
  refine ⟨_, if_pos ⟨rfl, trivial⟩, ?_, fun r hr => ?_⟩
  · change [] ++ (handlerTurn order param .idle h).original.toList = _
    rw [hturn]
    exact congrArg Option.toList horiginal
  · have hnone : (handlerTurn order param .idle h).acted = none := by
      rw [hturn]
      exact hacted
    cases hnone.symm.trans hr

/-- Everything from the requested block on is sent again, in every run without another
restart, exactly if the requested block is the last one, and its number is not the
largest of 32 bits. -/
theorem restart_resends_iff (order : ByteOrder) (param : Parameter) (h : Handler) (input : Input)
    (r : Retransmission) (hcount : param.blockCount < 4294967296) (hready : Ready h)
    (hread : Readable input.read h)
    (hacted : (handlerTurn order param input h).acted = some r)
    (hrestart : r.requestType = requestRestart) (h1 : 1 ≤ r.block)
    (hle : r.block ≤ param.blockCount) :
    (∀ inputs t,
      run (Loop.step order param) (.start (handlerTurn order param input h).handler) inputs = some t →
      Along (Loop.step order param) (NoRestart order param)
        (.start (handlerTurn order param input h).handler) inputs →
      Resent param r.block t.originals) ↔
    r.block = param.blockCount ∧ param.blockCount < 4294967295 := by
  obtain ⟨hblock, hready'⟩ := restarted hready hread hacted hrestart h1 hle
  constructor
  · intro hall
    obtain ⟨t, ht, horiginals, hnone⟩ := step_idle order param hready'
    have hresent := hall [.idle] t (by rw [run_cons, ht]; rfl) ⟨hnone, fun _ _ => trivial⟩
    have hfirst := hresent.inOrder
    rw [horiginals, nextBlock, hblock] at hfirst
    simp only [List.length_singleton, List.range_one, List.map_cons, List.map_nil, List.cons.injEq,
      Nat.add_zero, and_true] at hfirst
    unfold wrap32 at hfirst
    omega
  · rintro ⟨hlast, hwide⟩ inputs t hrun hquiet
    rw [hlast]
    apply AtLast.resent
    exact run_invariant_along (P := AtLast param) (fun _ _ _ hs hq hst => atLast_step hwide hs hq hst)
      ⟨fun _ => hready', hblock.trans hlast, fun b hb => by cases hb⟩ hquiet hrun

/-- After a restart at the last of three blocks. -/
theorem restart_resends_iff_sample :
    let h : Handler := .start ⟨0, 0, ⟨0, ⟨[7, 8, 9], 0⟩, []⟩⟩ (List.replicate 12 0) 0 false
    let input : Input := ⟨0, .data (Retransmission.encode ⟨requestRestart, 3, 0⟩), .ok, 0, 0, 0⟩
    ∀ inputs t,
      run (Loop.step .little threeBlocks) (.start (handlerTurn .little threeBlocks input h).handler)
        inputs = some t →
      Along (Loop.step .little threeBlocks) (NoRestart .little threeBlocks)
        (.start (handlerTurn .little threeBlocks input h).handler) inputs →
      Resent threeBlocks 3 t.originals := by
  intro h input
  exact (restart_resends_iff .little threeBlocks h input ⟨requestRestart, 3, 0⟩ (by decide)
    (ready_start rfl 0 false) (by decide) (by decide) rfl (by decide) (by decide)).mpr
      ⟨rfl, by decide⟩

/-- The whole file is sent, then the client asks for a restart at block 1: the server
goes on with block 2. -/
theorem restart_skips_requested_block :
    ∃ t, run (Loop.step .little threeBlocks)
        (.start (.start ⟨0, 0, ⟨0, ⟨[7, 8, 9], 0⟩, []⟩⟩ (List.replicate 12 0) 0 false))
        [.idle, .idle, .idle,
          ⟨0, .data (Retransmission.encode ⟨requestRestart, 1, 0⟩), .ok, 0, 0, 0⟩,
          .idle, .idle, .idle] = some t ∧
      t.acted = [⟨requestRestart, 1, 0⟩] ∧ t.originals = [1, 2, 3] ++ [2, 3, 3] ∧
      ¬Resent threeBlocks 1 [2, 3, 3] := by
  refine ⟨_, rfl, by decide, by decide, fun h => ?_⟩
  have horder := h.inOrder
  revert horder
  decide

end TsunamiUdp.Server

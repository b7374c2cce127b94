import TsunamiUdp.Library.Runs
import TsunamiUdp.Client.Receive

/-! No missing block is forgotten in lossless mode: below the head, what has not
been received is in the retransmission table, and the gapless section is gapless. -/
namespace TsunamiUdp.Client
open Library

variable {param : Parameter} {env : Env} {xfer xfer' : Transfer} {head : Nat}

/-- Unless the table has overflowed, every block below the head is received or queued. -/
def Remembered (xfer : Transfer) (head : Nat) : Prop :=
  xfer.rexmit.capHit = false → ∀ b, 1 ≤ b → b < head → gotBlock xfer b = false →
    b ∈ xfer.rexmit.entries

structure Tracked (xfer : Transfer) (head : Nat) : Prop where
  counted : xfer.blockCount < 4294967296
  sized : xfer.rexmit.Sized
  gapless_le : xfer.gaplessToBlock ≤ xfer.blockCount
  gapless : ∀ b, 1 ≤ b → b ≤ xfer.gaplessToBlock → gotBlock xfer b = true
  remembered : Remembered xfer head

theorem Remembered.of_le {head' : Nat} (h : Remembered xfer head) (hle : head' ≤ head) :
    Remembered xfer head' :=
  fun hcap b h1 hb hmiss => h hcap b h1 (by omega) hmiss

theorem Remembered.mono (h : Remembered xfer head)
    (hcap : xfer'.rexmit.capHit = false → xfer.rexmit.capHit = false)
    (hmiss : ∀ b, gotBlock xfer' b = false → gotBlock xfer b = false)
    (hkeep : ∀ b ∈ xfer.rexmit.entries, 1 ≤ b → gotBlock xfer' b = false →
      b ∈ xfer'.rexmit.entries) : Remembered xfer' head := by
  intro hc b h1 hb hm
  exact hkeep b (h (hcap hc) b h1 hb (hmiss b hm)) h1 hm

theorem Tracked.start {fileSize blockCount onWireEstimate : Nat} (hn : blockCount < 4294967296) :
    Tracked (Transfer.start fileSize blockCount onWireEstimate) 1 where
  counted := hn
  sized := ⟨Nat.zero_le _, Nat.succ_pos _⟩
  gapless_le := Nat.zero_le _
  gapless := fun b h1 hb => absurd hb (by dsimp only [Transfer.start]; omega)
  remembered := fun _ b h1 hb _ => absurd hb (by omega)

theorem Tracked.markReceived (h : Tracked xfer head) (block : Nat) :
    Tracked (markReceived xfer block) head := by
  refine ⟨h.counted, h.sized, h.gapless_le, fun b h1 hb => ?_, ?_⟩
  · rw [gotBlock_markReceived, h.gapless b h1 hb, Bool.true_or]
  · refine h.remembered.mono id (fun b hb => ?_) (fun b hb _ _ => hb)
    rw [gotBlock_markReceived, Bool.or_eq_false_iff] at hb
    exact hb.1

theorem ttpRequestRetransmit_remembers {alloc : Nat → Bool} {block : Nat}
    (h : ttpRequestRetransmit alloc xfer block = some xfer') (hsized : xfer.rexmit.Sized) :
    xfer'.rexmit.Sized ∧ (∀ head, Remembered xfer head → Remembered xfer' head) ∧
      (xfer'.rexmit.capHit = false → gotBlock xfer' block = false →
        block ∈ xfer'.rexmit.entries) := by
  unfold ttpRequestRetransmit at h
  split at h
  · rename_i hgot
    cases h
    refine ⟨hsized, fun _ hrem => hrem, fun _ hmiss => ?_⟩
    rw [hgot] at hmiss
    cases hmiss
  · split at h
    · rename_i r hmake
      obtain ⟨hent, hcap, hsized'⟩ := makeRoom_ok hmake hsized
      cases h
      have hall : (r.append block).entries = xfer.rexmit.entries ++ [block] := by
        rw [entries_append, hent]
      refine ⟨hsized' block, fun head hrem => ?_, fun _ _ => ?_⟩
      · refine hrem.mono (fun hc => hcap ▸ hc) (fun _ hb => hb) (fun b hb _ _ => ?_)
        rw [hall]
        exact List.mem_append_left _ hb
      · rw [hall]
        exact List.mem_append_right _ (List.mem_singleton_self block)
    · cases h
      refine ⟨⟨hsized.room, hsized.size_pos⟩, fun _ _ hcap => ?_, fun hcap _ => ?_⟩
      · cases hcap
      · cases hcap
    · cases h

theorem Tracked.request {alloc : Nat → Bool} {block : Nat} (h : Tracked xfer head)
    (hreq : ttpRequestRetransmit alloc xfer block = some xfer') : Tracked xfer' head := by
  obtain ⟨hsized, hkeep, -⟩ := ttpRequestRetransmit_remembers hreq h.sized
  have hrem := hkeep head h.remembered
  obtain ⟨r, rfl⟩ := ttpRequestRetransmit_frame hreq
  exact ⟨h.counted, hsized, h.gapless_le, h.gapless, hrem⟩

theorem Tracked.request_next {alloc : Nat → Bool} {block : Nat} (h : Tracked xfer block)
    (hreq : ttpRequestRetransmit alloc xfer block = some xfer') : Tracked xfer' (block + 1) := by
  obtain ⟨-, -, hself⟩ := ttpRequestRetransmit_remembers hreq h.sized
  obtain ⟨hcounted, hsized, hle, hgapless, hrem⟩ := h.request hreq
  refine ⟨hcounted, hsized, hle, hgapless, fun hcap b h1 hb hmiss => ?_⟩
  by_cases hbb : b = block
  · subst hbb
    exact hself hcap hmiss
  · exact hrem hcap b h1 (by omega) hmiss

theorem Tracked.requestRange {alloc : Nat → Bool} {n block : Nat} (h : Tracked xfer head)
    (hreq : requestRange alloc n block xfer = some xfer') : Tracked xfer' head := by
  induction n generalizing block xfer with
  | zero =>
    cases hreq
    exact h
  | succ n ih =>
    obtain ⟨mid, hmid, hrest⟩ := Option.bind_eq_some_iff.mp hreq
    exact ih (h.request hmid) hrest

theorem Tracked.requestRange_next {alloc : Nat → Bool} {n block : Nat} (h : Tracked xfer block)
    (hreq : Client.requestRange alloc n block xfer = some xfer') : Tracked xfer' (block + n) := by
  induction n generalizing block xfer with
  | zero =>
    cases hreq
    exact h
  | succ n ih =>
    obtain ⟨mid, hmid, hrest⟩ := Option.bind_eq_some_iff.mp hreq
    have hlast := ih (h.request_next hmid) hrest
    rwa [Nat.add_right_comm] at hlast

theorem mem_outstanding {b : Nat} :
    b ∈ outstanding xfer ↔ b ∈ xfer.rexmit.entries ∧ b ≠ 0 ∧ gotBlock xfer b = false := by
  simp [outstanding]

theorem Tracked.repeat (h : Tracked xfer xfer.nextBlock) (write : WriteResult) :
    let repeated := (ttpRepeatRetransmit write xfer).xfer
    Tracked repeated repeated.nextBlock := by
  intro repeated
  by_cases hfew : (outstanding xfer).length < maxRetransmissionBuffer
  · obtain ⟨hent, -, table, stats, heq⟩ := ttpRepeatRetransmit_few write hfew
    have hrem : Remembered repeated xfer.nextBlock := by
      dsimp only [repeated]
      rw [heq] at hent ⊢
      refine h.remembered.mono id (fun _ hb => hb) (fun b hb h1 hmiss => ?_)
      rw [hent, mem_outstanding]
      exact ⟨hb, by omega, hmiss⟩
    dsimp only [repeated] at hrem ⊢
    rw [heq] at hrem ⊢
    exact ⟨h.counted, ⟨(outstanding_length_le xfer).trans h.sized.room, h.sized.size_pos⟩,
      h.gapless_le, h.gapless, hrem⟩
  · have hmany : maxRetransmissionBuffer ≤ (outstanding xfer).length := by omega
    by_cases hw : write = .fwriteFails
    · subst hw
      obtain ⟨hent, -, -, table, stats, heq⟩ := ttpRepeatRetransmit_lost hmany
      have hrem : Remembered repeated xfer.nextBlock := by
        dsimp only [repeated]
        rw [heq] at hent ⊢
        refine h.remembered.mono id (fun _ hb => hb) (fun b hb h1 hmiss => ?_)
        exact hent b (mem_outstanding.mpr ⟨hb, by omega, hmiss⟩)
      dsimp only [repeated] at hrem ⊢
      rw [heq] at hrem ⊢
      exact ⟨h.counted, ⟨h.sized.room, h.sized.size_pos⟩, h.gapless_le, h.gapless, hrem⟩
    · obtain ⟨-, rexmit, stats, last, clear, hidx, hsize, -, heq⟩ :=
        ttpRepeatRetransmit_many write hmany hw
      dsimp only [repeated]
      rw [heq]
      refine ⟨h.counted, ⟨?_, ?_⟩, h.gapless_le, h.gapless, fun _ b h1 hb hmiss => ?_⟩
      · dsimp only
        omega
      · dsimp only
        rw [hsize]
        exact h.sized.size_pos
      · -- the head is now just behind the gapless section
        dsimp only at hb
        have hb' : b ≤ xfer.gaplessToBlock := by
          have hwrap : wrap32 (xfer.gaplessToBlock + 1) ≤ xfer.gaplessToBlock + 1 := Nat.mod_le _ _
          omega
        have hgot : gotBlock xfer b = true := h.gapless b h1 hb'
        rw [show gotBlock xfer b = false from hmiss] at hgot
        cases hgot

theorem Tracked.queueMissing {block : Nat} (h : Tracked xfer xfer.nextBlock)
    (hlossless : param.lossless = true) (hq : queueMissing param env xfer block = some xfer') :
    Tracked xfer' xfer'.nextBlock ∧ Tracked xfer' block := by
  unfold Client.queueMissing at hq
  split at hq
  · rename_i hahead
    have hblock := h.requestRange_next hq
    rw [Nat.add_sub_cancel' (by omega)] at hblock
    have hhead := h.requestRange hq
    obtain ⟨r, rfl⟩ := requestRange_frame hq
    exact ⟨hhead, hblock⟩
  · cases hq
    exact ⟨h, h.counted, h.sized, h.gapless_le, h.gapless, h.remembered.of_le (by omega)⟩

theorem advanceGapless_spec (xfer : Transfer) (fuel gapless : Nat)
    (hcounted : xfer.blockCount < 4294967296) (hle : gapless ≤ xfer.blockCount)
    (hall : ∀ b, 1 ≤ b → b ≤ gapless → gotBlock xfer b = true) :
    let reached := advanceGapless xfer fuel gapless
    reached ≤ xfer.blockCount ∧ ∀ b, 1 ≤ b → b ≤ reached → gotBlock xfer b = true := by
  induction fuel generalizing gapless with
  | zero => exact ⟨hle, hall⟩
  | succ fuel ih =>
    unfold advanceGapless
    split
    · rename_i hnext
      obtain ⟨hgot, hlt⟩ := hnext
      rw [wrap32_of_lt (by omega)] at hgot
      refine ih (gapless + 1) (by omega) fun b h1 hb => ?_
      by_cases hlast : b = gapless + 1
      · rw [hlast]
        exact hgot
      · exact hall b h1 (by omega)
    · exact ⟨hle, hall⟩

theorem Tracked.closeGap (h : Tracked xfer head) : Tracked (closeGap xfer) head := by
  obtain ⟨hle, hall⟩ := advanceGapless_spec xfer (xfer.blockCount - xfer.gaplessToBlock)
    xfer.gaplessToBlock h.counted h.gapless_le h.gapless
  exact ⟨h.counted, h.sized, hle, hall, h.remembered⟩

theorem Tracked.moveHead {block : Nat} (h : Tracked xfer xfer.nextBlock)
    (hblock : Tracked xfer block) (hgot : gotBlock xfer block = true) (type : Nat) :
    Tracked (moveHead block type xfer) (moveHead block type xfer).nextBlock := by
  unfold Client.moveHead
  split
  · refine ⟨h.counted, h.sized, h.gapless_le, h.gapless, fun hcap b h1 hb hmiss => ?_⟩
    dsimp only at hb
    have hwrap : wrap32 (block + 1) ≤ block + 1 := Nat.mod_le _ _
    by_cases hbb : b = block
    · subst hbb
      rw [show gotBlock xfer b = false from hmiss] at hgot
      cases hgot
    · exact hblock.remembered hcap b h1 (by omega) hmiss
  · exact h

theorem Tracked.clearRestart (h : Tracked xfer xfer.nextBlock) :
    Tracked (clearRestart xfer) (clearRestart xfer).nextBlock := by
  unfold Client.clearRestart
  split
  · exact ⟨h.counted, h.sized, h.gapless_le, h.gapless, h.remembered⟩
  · exact h

theorem Tracked.atTerminate {c : Controlled} (h : Tracked xfer xfer.nextBlock)
    (hc : atTerminate param env xfer = some c) : Tracked c.xfer c.xfer.nextBlock := by
  rcases atTerminate_cases hc with ⟨-, rfl⟩ | ⟨-, -, mid, hmid, rfl⟩
  · exact h
  · have hhead := h.requestRange hmid
    obtain ⟨r, rfl⟩ := requestRange_frame hmid
    exact Tracked.repeat hhead env.terminateWrite

theorem Tracked.control {block type : Nat} {c : Controlled} (h : Tracked xfer xfer.nextBlock)
    (hlossless : param.lossless = true) (hgot : gotBlock xfer block = true)
    (hc : control param env xfer block type = some c) : Tracked c.xfer c.xfer.nextBlock := by
  rcases control_cases hc with ⟨-, rfl⟩ | ⟨-, mid, hmid, hc⟩
  · exact h
  · obtain ⟨hhead, hblock⟩ := h.queueMissing hlossless hmid
    have hgot' : gotBlock mid block = true := by
      rw [(sameBlocks_queueMissing hmid).gotBlock]
      exact hgot
    have hgap : Tracked (Client.closeGap mid) (Client.closeGap mid).nextBlock := hhead.closeGap
    have hmoved := (hgap.moveHead hblock.closeGap hgot' type).clearRestart
    rcases hc with ⟨-, hend⟩ | ⟨-, rfl⟩
    · exact hmoved.atTerminate hend
    · exact hmoved

theorem Tracked.sendStats {sent : List Retransmission} (h : Tracked xfer xfer.nextBlock)
    (hs : sendStats param env xfer = some (xfer', sent)) : Tracked xfer' xfer'.nextBlock := by
  rcases sendStats_cases hs with ⟨rfl, -⟩ | ⟨-, -, -, ⟨stats, rfl⟩, -⟩
  · exact h
  · have hrep := h.repeat env.periodicWrite
    exact ⟨hrep.counted, hrep.sized, hrep.gapless_le, hrep.gapless, hrep.remembered⟩

theorem Tracked.afterRing {block type : Nat} {c : Controlled} (h : Tracked xfer xfer.nextBlock)
    (hlossless : param.lossless = true) (hgot : gotBlock xfer block = true)
    (hc : afterRing param env xfer block type = some c) : Tracked c.xfer c.xfer.nextBlock := by
  obtain ⟨mid, hmid, ⟨-, rfl⟩ | ⟨-, after, sent, hstats, rfl⟩⟩ := afterRing_cases hc
  · exact h.control hlossless hgot hmid
  · exact (h.control hlossless hgot hmid).sendStats hstats

theorem Tracked.countArrival (h : Tracked xfer xfer.nextBlock) (type : Nat) :
    Tracked (countArrival type xfer) (countArrival type xfer).nextBlock :=
  ⟨h.counted, h.sized, h.gapless_le, h.gapless, h.remembered⟩

theorem Tracked.arrive {net net' : Net} {sent : List Retransmission}
    (h : Tracked net.xfer net.xfer.nextBlock) (ha : arrive param env net = some (net', sent)) :
    Tracked net'.xfer net'.xfer.nextBlock := by
  obtain ⟨-, ⟨hxfer, -⟩ | ⟨-, hxfer, -⟩⟩ := arrive_cases ha
  · rw [hxfer]
    exact h.countArrival _
  · rw [hxfer]
    exact (h.repeat env.errorWrite).countArrival _

theorem Tracked.receiveTurn {net : Net} {turn : Turn} (h : Tracked net.xfer net.xfer.nextBlock)
    (hlossless : param.lossless = true) (ht : receiveTurn param env net = some turn) :
    Tracked turn.net.xfer turn.net.xfer.nextBlock := by
  obtain ⟨⟨mid, sent⟩, hmid, ht⟩ := Option.bind_eq_some_iff.mp ht
  have harrive := h.arrive hmid
  dsimp only at ht
  split at ht
  · obtain ⟨c, hc, rfl⟩ := Option.map_eq_some_iff.mp ht
    by_cases hnew : gotBlock mid.xfer (blockNumber mid.localDatagram) = false
    · rw [if_pos hnew] at hc
      refine Tracked.afterRing (harrive.markReceived _) hlossless ?_ hc
      rw [gotBlock_markReceived, decide_eq_true rfl, Bool.or_true]
    · rw [if_neg hnew] at hc
      exact harrive.afterRing hlossless (by simpa using hnew) hc
  · obtain ⟨⟨y, more⟩, hy, rfl⟩ := Option.map_eq_some_iff.mp ht
    exact harrive.sendStats hy

theorem tracked_step {s s' : Loop} (hlossless : param.lossless = true)
    (h : Tracked s.net.xfer s.net.xfer.nextBlock) (hs : Loop.step param s env = some s') :
    Tracked s'.net.xfer s'.net.xfer.nextBlock := by
  unfold Loop.step at hs
  split at hs
  · cases hs
  · obtain ⟨turn, ht, rfl⟩ := Option.map_eq_some_iff.mp hs
    exact h.receiveTurn hlossless ht

/-- In every state a lossless transfer can reach, the gapless section has been received,
and every missing block below the head is in the retransmission table. -/
theorem no_block_forgotten (param : Parameter) (fileSize blockCount onWireEstimate : Nat)
    (envs : List Env) (s : Loop) (hlossless : param.lossless = true)
    (hn : blockCount < 4294967296)
    (hrun : run (Loop.step param)
      (Loop.start param (Transfer.start fileSize blockCount onWireEstimate)) envs = some s)
    (hcap : s.net.xfer.rexmit.capHit = false) :
    (s.net.xfer.gaplessToBlock ≤ s.net.xfer.blockCount ∧
      ∀ b, 1 ≤ b → b ≤ s.net.xfer.gaplessToBlock → s.net.xfer.received b = true) ∧
    ∀ b, 1 ≤ b → b < s.net.xfer.nextBlock → gotBlock s.net.xfer b = false →
      b ∈ s.net.xfer.rexmit.entries := by
  have htracked : Tracked s.net.xfer s.net.xfer.nextBlock :=
    run_invariant (P := fun s => Tracked s.net.xfer s.net.xfer.nextBlock)
      (fun _ _ _ h hs => tracked_step hlossless h hs) (Tracked.start hn) hrun
  refine ⟨⟨htracked.gapless_le, fun b h1 hb => ?_⟩, htracked.remembered hcap⟩
  rw [← gotBlock_of_le (hb.trans htracked.gapless_le)]
  exact htracked.gapless b h1 hb

/-- Blocks 1 and 3 of 3 arrive: block 2 is in the table. -/
theorem no_block_forgotten_sample :
    ∃ s, run (Loop.step ⟨1, true, 0, 25⟩) (Loop.start ⟨1, true, 0, 25⟩ (Transfer.start 3 3 0))
        [.calm (.datagram [0, 0, 0, 1, 0, 79, 7]), .calm (.datagram [0, 0, 0, 3, 0, 79, 7])]
          = some s ∧
      s.net.xfer.gaplessToBlock = 1 ∧ s.net.xfer.received 1 = true ∧
      s.net.xfer.nextBlock = 4 ∧ 2 ∈ s.net.xfer.rexmit.entries := by
  have hsome : (run (Loop.step ⟨1, true, 0, 25⟩) (Loop.start ⟨1, true, 0, 25⟩ (Transfer.start 3 3 0))
    [.calm (.datagram [0, 0, 0, 1, 0, 79, 7]), .calm (.datagram [0, 0, 0, 3, 0, 79, 7])]).isSome
      = true := rfl
  have hrun := (Option.some_get hsome).symm
  refine ⟨_, hrun, rfl, ?_, rfl, ?_⟩
  · exact (no_block_forgotten _ 3 3 0 _ _ rfl (by decide) hrun rfl).1.2 1 le_rfl le_rfl
  · exact (no_block_forgotten _ 3 3 0 _ _ rfl (by decide) hrun rfl).2 2
      (by decide) (show 2 < 4 by decide) rfl

end TsunamiUdp.Client

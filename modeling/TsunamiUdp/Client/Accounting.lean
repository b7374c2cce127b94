import Mathlib.Order.Interval.Finset.Nat
import TsunamiUdp.Library.Runs
import TsunamiUdp.Client.Receive

/-! What the receive loop keeps of its accounts: the bitmap, the count of missing
blocks, and the absence of block 0 in the ring. -/
namespace TsunamiUdp.Client
open Library

variable {param : Parameter} {env : Env}

def missing (xfer : Transfer) : Finset Nat :=
  (Finset.Icc 1 xfer.blockCount).filter fun b => xfer.received b = false

theorem mem_missing {xfer : Transfer} {b : Nat} :
    b ∈ missing xfer ↔ (1 ≤ b ∧ b ≤ xfer.blockCount) ∧ xfer.received b = false := by
  simp [missing]

theorem SameBlocks.missing {x y : Transfer} (h : SameBlocks x y) :
    missing y = missing x := by
  unfold Client.missing
  rw [h.blockCount, h.received]

theorem received_markReceived_of_ne {xfer : Transfer} {block b : Nat} (h : b ≠ block) :
    (markReceived xfer block).received b = xfer.received b :=
  Function.update_of_ne h _ _

theorem missing_markReceived (xfer : Transfer) (block : Nat) :
    missing (markReceived xfer block) = (missing xfer).erase block := by
  ext b
  rw [Finset.mem_erase, mem_missing, mem_missing]
  by_cases hb : b = block
  · subst hb
    simp [markReceived]
  · rw [received_markReceived_of_ne hb]
    simp [markReceived, hb]

structure Accounting (s : Loop) : Prop where
  blocksLeft : s.net.xfer.blocksLeft = (missing s.net.xfer).card
  arrived : ∀ b, s.net.xfer.received b = true →
    (1 ≤ b ∧ b ≤ s.net.xfer.blockCount) ∧ b ∈ s.arrived
  noStop : ∀ datagram ∈ s.put, blockNumber datagram ≠ 0

/-- The turn stores no block, or one whose full-length datagram has arrived. -/
def Sound (param : Parameter) (s : Loop) (env : Env) : Prop :=
  let block := blockNumber (buffer param s.net.localDatagram env.recv)
  env.ringFull = true ∨ gotBlock s.net.xfer block = true ∨
    (block ≠ 0 ∧ block ∈ s.arrived ++ (fullLength param env.recv).toList)

theorem Accounting.start (param : Parameter) (fileSize blockCount onWireEstimate : Nat) :
    Accounting (Loop.start param (Transfer.start fileSize blockCount onWireEstimate)) where
  blocksLeft := by simp [Loop.start, Net.start, Transfer.start, missing]
  arrived := fun b hb => by cases hb
  noStop := fun d hd => by cases hd

theorem Accounting.skip {s s' : Loop} (h : Accounting s)
    (hsame : SameBlocks s.net.xfer s'.net.xfer) (harrived : s.arrived ⊆ s'.arrived)
    (hput : s'.put = s.put) : Accounting s' := by
  refine ⟨?_, fun b hb => ?_, ?_⟩
  · rw [hsame.blocksLeft, hsame.missing]
    exact h.blocksLeft
  · rw [hsame.received] at hb
    rw [hsame.blockCount]
    exact ⟨(h.arrived b hb).1, harrived (h.arrived b hb).2⟩
  · rw [hput]
    exact h.noStop

theorem blocksLeft_markReceived {xfer : Transfer} {block : Nat}
    (hleft : xfer.blocksLeft = (missing xfer).card) (hmem : block ∈ missing xfer) :
    (markReceived xfer block).blocksLeft = (missing (markReceived xfer block)).card := by
  have hpos : 0 < (missing xfer).card := Finset.card_pos.mpr ⟨block, hmem⟩
  rw [missing_markReceived, Finset.card_erase_of_mem hmem, ← hleft]
  exact if_pos (by omega)

theorem Accounting.put_iff {s s' : Loop} {datagram : List UInt8} (h : Accounting s)
    (hnew : gotBlock s.net.xfer (blockNumber datagram) = false)
    (hsame : SameBlocks (markReceived s.net.xfer (blockNumber datagram)) s'.net.xfer)
    (harrived : s.arrived ⊆ s'.arrived) (hput : s'.put = s.put ++ [datagram]) :
    Accounting s' ↔ blockNumber datagram ≠ 0 ∧ blockNumber datagram ∈ s'.arrived := by
  have hle := le_of_not_gotBlock hnew
  constructor
  · intro h'
    refine ⟨h'.noStop datagram (by simp [hput]), (h'.arrived _ ?_).2⟩
    rw [hsame.received]
    exact Function.update_self _ _ _
  · rintro ⟨hnz, hmem⟩
    refine ⟨?_, fun b hb => ?_, fun d hd => ?_⟩
    · rw [hsame.blocksLeft, hsame.missing]
      rw [gotBlock_of_le hle] at hnew
      exact blocksLeft_markReceived h.blocksLeft (mem_missing.mpr ⟨⟨by omega, hle⟩, hnew⟩)
    · rw [hsame.blockCount]
      by_cases hbb : b = blockNumber datagram
      · subst hbb
        exact ⟨⟨by omega, hle⟩, hmem⟩
      · rw [hsame.received, received_markReceived_of_ne hbb] at hb
        exact ⟨(h.arrived b hb).1, harrived (h.arrived b hb).2⟩
    · rw [hput] at hd
      rcases List.mem_append.mp hd with hd | hd
      · exact h.noStop d hd
      · rw [List.mem_singleton.mp hd]
        exact hnz

theorem accounting_step_iff {s s' : Loop} (h : Accounting s) (hs : Loop.step param s env = some s') :
    Accounting s' ↔ Sound param s env := by
  unfold Loop.step at hs
  split at hs
  · cases hs
  · obtain ⟨turn, ht, rfl⟩ := Option.map_eq_some_iff.mp hs
    obtain ⟨-, hskip | hput⟩ := receiveTurn_cases ht
    · obtain ⟨hnone, hsame, hwhy⟩ := hskip
      have hsound : Sound param s env := hwhy.imp id Or.inl
      refine iff_of_true (h.skip hsame (List.subset_append_left _ _) ?_) hsound
      simp [hnone]
    · obtain ⟨hsome, hfull, hnew, hsame⟩ := hput
      rw [h.put_iff hnew hsame (List.subset_append_left _ _) (by simp [hsome])]
      simp only [Sound, hfull, hnew, Bool.false_eq_true, false_or]

/-- The accounts are right after every turn of a run exactly if every turn is sound. -/
theorem accounting_iff_sound (param : Parameter) (fileSize blockCount onWireEstimate : Nat)
    (envs : List Env) (t : Loop)
    (hrun : run (Loop.step param)
      (Loop.start param (Transfer.start fileSize blockCount onWireEstimate)) envs = some t) :
    Always (Loop.step param) Accounting
        (Loop.start param (Transfer.start fileSize blockCount onWireEstimate)) envs ↔
      Along (Loop.step param) (Sound param)
        (Loop.start param (Transfer.start fileSize blockCount onWireEstimate)) envs :=
  always_iff_along (J := fun _ => True) (fun _ _ _ h _ hs => accounting_step_iff h hs)
    (fun _ _ _ _ _ _ _ => trivial) (Accounting.start _ _ _ _) trivial hrun

/-- Block 1 of a file of two blocks arrives. -/
theorem accounting_iff_sound_sample :
    Always (Loop.step ⟨1, true, 0, 25⟩) Accounting
      (Loop.start ⟨1, true, 0, 25⟩ (Transfer.start 2 2 0))
      [.calm (.datagram [0, 0, 0, 1, 0, 79, 7])] := by
  have hsome : (run (Loop.step ⟨1, true, 0, 25⟩) (Loop.start ⟨1, true, 0, 25⟩ (Transfer.start 2 2 0))
    [.calm (.datagram [0, 0, 0, 1, 0, 79, 7])]).isSome = true := rfl
  refine (accounting_iff_sound _ 2 2 0 _ _ (Option.some_get hsome).symm).mpr
    ⟨?_, fun _ _ => trivial⟩
  right
  right
  decide

/-- An error of the socket before the first datagram stores block 0 of a zeroed buffer:
the count of missing blocks is off, and the ring holds the disk thread's stop marker. -/
theorem accounting_broken_by_error :
    ∃ s, run (Loop.step ⟨1, true, 0, 25⟩) (Loop.start ⟨1, true, 0, 25⟩ (Transfer.start 2 2 0))
        [.calm .error] = some s ∧
      s.net.xfer.blocksLeft = 1 ∧ (missing s.net.xfer).card = 2 ∧ s.net.xfer.received 0 = true ∧
      s.put = [List.replicate 7 0] ∧ ¬ Accounting s := by
  have hsome : (run (Loop.step ⟨1, true, 0, 25⟩) (Loop.start ⟨1, true, 0, 25⟩ (Transfer.start 2 2 0))
    [.calm .error]).isSome = true := rfl
  refine ⟨_, (Option.some_get hsome).symm, rfl, rfl, rfl, rfl, fun h => ?_⟩
  exact h.noStop (List.replicate 7 0) (List.mem_singleton_self _) rfl

end TsunamiUdp.Client

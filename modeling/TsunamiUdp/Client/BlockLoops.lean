import TsunamiUdp.Client.Receive
import TsunamiUdp.Library.Loops

/-! The loops over block numbers in `command_get`, with counters of 32 bits. -/
namespace TsunamiUdp.Client
open Library

section Loops
variable (alloc : Nat → Bool)

/-- `for (block = first; block < last; ++block)` with a request for each block. -/
def fillGoesOn (last : Nat) (s : Nat × Transfer) : Bool := decide (s.1 < last)

def fillBody (s : Nat × Transfer) : Option (Nat × Transfer) :=
  (ttpRequestRetransmit alloc s.2 s.1).map fun xfer => (wrap32 (s.1 + 1), xfer)

def gaplessGoesOn (xfer : Transfer) (gapless : Nat) : Bool :=
  gotBlock xfer (wrap32 (gapless + 1)) && decide (gapless < xfer.blockCount)

def gaplessBody (gapless : Nat) : Option Nat := some (wrap32 (gapless + 1))

def lostGoesOn (xfer : Transfer) (s : Nat × Nat) : Bool := decide (s.1 ≤ xfer.blockCount)

def lostBody (xfer : Transfer) (s : Nat × Nat) : Option (Nat × Nat) :=
  some (wrap32 (s.1 + 1), if gotBlock xfer s.1 then s.2 else wrap32 (s.2 + 1))

end Loops

def clearBits (xfer : Transfer) (last : Nat) : Nat :=
  (List.range last).countP fun k : Nat => !xfer.received (k + 1)

/-- The loops of `command_get` end: those that fill gaps up to this block, without and with
a loss window, the one that advances the gapless section, the one behind the last block, and
the one that counts the lost blocks. -/
structure BlockLoopsEnd (alloc : Nat → Bool) (window : Rat) (xfer : Transfer) (thisBlock : Nat) :
    Prop where
  lossless : LoopEnds (fillGoesOn thisBlock) (fillBody alloc) (xfer.nextBlock, xfer)
  lossy : LoopEnds (fillGoesOn thisBlock) (fillBody alloc) (earliestBlock window xfer thisBlock, xfer)
  gapless : LoopEnds (gaplessGoesOn xfer) gaplessBody xfer.gaplessToBlock
  terminate : LoopEnds (fillGoesOn xfer.blockCount) (fillBody alloc)
    (wrap32 (xfer.gaplessToBlock + 1), xfer)
  lost : ∃ fuel block, loop (lostGoesOn xfer) (lostBody xfer) fuel (1, 0) =
    some (some (block, clearBits xfer xfer.blockCount))

section Ends
variable {alloc : Nat → Bool} {xfer : Transfer}

theorem fill_pass {last : Nat} (hlast : last < 4294967296) {s s' : Nat × Transfer}
    (hgo : fillGoesOn last s = true) (hs : fillBody alloc s = some s') :
    s'.1 = s.1 + 1 ∧ s.1 < last ∧ ttpRequestRetransmit alloc s.2 s.1 = some s'.2 := by
  have hlt : s.1 < last := of_decide_eq_true hgo
  obtain ⟨xfer, hrequest, rfl⟩ := Option.map_eq_some_iff.mp hs
  exact ⟨wrap32_of_lt (by omega), hlt, hrequest⟩

theorem fill_ends {last : Nat} (hlast : last < 4294967296) (s : Nat × Transfer) :
    LoopEnds (fillGoesOn last) (fillBody alloc) s := by
  refine loop_ends (J := fun _ => True) (fun s => last - s.1) ?_ trivial
  intro s s' _ hgo hs
  obtain ⟨hnext, hlt, -⟩ := fill_pass hlast hgo hs
  exact ⟨trivial, by omega⟩

/-- The loop does what is said of it elsewhere, without a counter that may wrap. -/
theorem fill_requestRange {first last fuel : Nat} (hlast : last < 4294967296) {t : Nat × Transfer}
    (h : loop (fillGoesOn last) (fillBody alloc) fuel (first, xfer) = some (some t)) :
    requestRange alloc (last - first) first xfer = some t.2 := by
  have hpost := loop_invariant (J := fun s : Nat × Transfer =>
    requestRange alloc (last - s.1) s.1 s.2 = requestRange alloc (last - first) first xfer) ?_ rfl h
  · obtain ⟨hsame, hstop⟩ := hpost
    have hle : last ≤ t.1 := Nat.le_of_not_lt (of_decide_eq_false hstop)
    rw [← hsame, Nat.sub_eq_zero_of_le hle]
    rfl
  · intro s s' hs hgo hbody
    obtain ⟨hnext, hlt, hrequest⟩ := fill_pass hlast hgo hbody
    obtain ⟨n, hn⟩ : ∃ n, last - s.1 = n + 1 := ⟨last - s.1 - 1, by omega⟩
    rw [hn, requestRange, hrequest, Option.bind_some, ← hnext] at hs
    rwa [show last - s'.1 = n by omega]

theorem gapless_ends (hcount : xfer.blockCount < 4294967296) (gapless : Nat) :
    LoopEnds (gaplessGoesOn xfer) gaplessBody gapless := by
  refine loop_ends (J := fun _ => True) (fun gapless => xfer.blockCount - gapless) ?_ trivial
  rintro gapless _ - hgo ⟨⟩
  have hlt : gapless < xfer.blockCount := of_decide_eq_true (Bool.and_eq_true_iff.mp hgo).2
  have hwrap : wrap32 (gapless + 1) = gapless + 1 := wrap32_of_lt (by omega)
  exact ⟨trivial, by omega⟩

theorem clearBits_succ (xfer : Transfer) (last : Nat) :
    clearBits xfer (last + 1) = clearBits xfer last + if xfer.received (last + 1) then 0 else 1 := by
  unfold clearBits
  rw [List.range_succ, List.countP_append, List.countP_singleton]
  cases xfer.received (last + 1) <;> rfl

theorem clearBits_le (xfer : Transfer) (last : Nat) : clearBits xfer last ≤ last := by
  have hle := List.countP_le_length (p := fun k : Nat => !xfer.received (k + 1)) (l := List.range last)
  rwa [List.length_range] at hle

structure Counted (xfer : Transfer) (s : Nat × Nat) : Prop where
  block : 1 ≤ s.1 ∧ s.1 ≤ xfer.blockCount + 1
  lost : s.2 = clearBits xfer (s.1 - 1)

theorem lost_pass (hcount : xfer.blockCount < 4294967295) {s s' : Nat × Nat} (h : Counted xfer s)
    (hgo : lostGoesOn xfer s = true) (hs : lostBody xfer s = some s') :
    Counted xfer s' ∧ s'.1 = s.1 + 1 := by
  have hle : s.1 ≤ xfer.blockCount := of_decide_eq_true hgo
  have hwrap : wrap32 (s.1 + 1) = s.1 + 1 := wrap32_of_lt (by omega)
  have hfew := clearBits_le xfer (s.1 - 1)
  obtain ⟨k, hk⟩ : ∃ k, s.1 = k + 1 := ⟨s.1 - 1, by have := h.block.1; omega⟩
  have hlost := h.lost
  have hsucc := clearBits_succ xfer k
  rw [hk, Nat.add_sub_cancel] at hlost hfew
  cases hs
  refine ⟨⟨?_, ?_⟩, hwrap⟩
  · dsimp only
    rw [hwrap]
    omega
  · dsimp only
    rw [hwrap, hk, Nat.add_sub_cancel, gotBlock_of_le (hk ▸ hle), hsucc]
    cases xfer.received (k + 1) with
    | true => exact hlost
    | false =>
      rw [if_neg Bool.false_ne_true, if_neg Bool.false_ne_true, hlost]
      exact wrap32_of_lt (by omega)

theorem lost_ends (hcount : xfer.blockCount < 4294967295) :
    ∃ fuel block, loop (lostGoesOn xfer) (lostBody xfer) fuel (1, 0) =
      some (some (block, clearBits xfer xfer.blockCount)) := by
  have hstart : Counted xfer (1, 0) := ⟨⟨le_rfl, Nat.le_add_left _ _⟩, rfl⟩
  have hpass : ∀ s s', Counted xfer s → lostGoesOn xfer s = true → lostBody xfer s = some s' →
      Counted xfer s' ∧ xfer.blockCount + 1 - s'.1 < xfer.blockCount + 1 - s.1 := by
    intro s s' h hgo hs
    obtain ⟨hcounted, hnext⟩ := lost_pass hcount h hgo hs
    have hle : s.1 ≤ xfer.blockCount := of_decide_eq_true hgo
    exact ⟨hcounted, by omega⟩
  obtain ⟨fuel, r, hr⟩ := loop_ends (fun s : Nat × Nat => xfer.blockCount + 1 - s.1) hpass hstart
  obtain ⟨t, rfl⟩ := loop_total hr
  obtain ⟨hcounted, hstop⟩ := loop_invariant (fun s s' h hgo hs => (hpass s s' h hgo hs).1) hstart hr
  have hbehind : xfer.blockCount < t.1 := Nat.lt_of_not_le (of_decide_eq_false hstop)
  have hall : t.1 - 1 = xfer.blockCount := by
    have := hcounted.block.2
    omega
  exact ⟨fuel, t.1, by rw [hr, ← hall, ← hcounted.lost]⟩

theorem lost_endless (hcount : xfer.blockCount = 4294967295) (fuel : Nat) :
    loop (lostGoesOn xfer) (lostBody xfer) fuel (1, 0) = none := by
  refine loop_endless (J := fun s => s.1 < 4294967296) ?_ (by decide) fuel
  intro s hs
  exact ⟨decide_eq_true (by omega), _, rfl, wrap32_lt _⟩

end Ends

/-- All loops end, with the right count, if and only if the count of blocks is not the
largest number of 32 bits. -/
theorem block_loops_end_iff (alloc : Nat → Bool) (window : Rat) (xfer : Transfer) (thisBlock : Nat)
    (hcount : xfer.blockCount < 4294967296) (hthis : thisBlock < 4294967296) :
    BlockLoopsEnd alloc window xfer thisBlock ↔ xfer.blockCount ≠ 4294967295 := by
  constructor
  · rintro h hmax
    obtain ⟨fuel, block, hlost⟩ := h.lost
    rw [lost_endless hmax] at hlost
    cases hlost
  · intro hless
    exact ⟨fill_ends hthis _, fill_ends hthis _, gapless_ends hcount _, fill_ends hcount _,
      lost_ends (by omega)⟩

theorem block_loops_end_iff_sample :
    BlockLoopsEnd (fun _ => true) 10 (.start 5000 5 0) 3 :=
  (block_loops_end_iff (fun _ => true) 10 (.start 5000 5 0) 3 (by decide) (by decide)).mpr (by decide)

/-- With 4294967295 blocks the lost ones are counted forever. -/
theorem lost_count_endless :
    (∀ fuel, loop (lostGoesOn (.start 0 4294967295 0)) (lostBody (.start 0 4294967295 0)) fuel (1, 0) =
      none) ∧ ¬BlockLoopsEnd (fun _ => true) 10 (.start 0 4294967295 0) 3 := by
  refine ⟨lost_endless rfl, fun h => ?_⟩
  obtain ⟨fuel, block, hlost⟩ := h.lost
  rw [lost_endless rfl] at hlost
  cases hlost

end TsunamiUdp.Client

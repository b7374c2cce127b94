import TsunamiUdp.Client.ReceivedMap

/-! The client for realtime recordings, whose `got_block` has no check of the range. -/
namespace TsunamiUdp.RtClient
open Library
open TsunamiUdp.Client (receivedBytes)

structure Account where
  received : List UInt8
  blocksLeft : Nat

namespace Account

def start (blockCount : Nat) : Account := ⟨receivedBytes blockCount, blockCount⟩

def accept (s : Account) (block : Nat) : Option Account :=
  (readBit s.received block).bind fun got =>
    if got then some s
    else (writeBit s.received block).map fun received =>
      ⟨received, if s.blocksLeft > 0 then s.blocksLeft - 1 else s.blocksLeft⟩

def unmarked (blockCount : Nat) (s : Account) : Finset Nat :=
  (Finset.Icc 1 blockCount).filter fun b => bits s.received b = false

structure Counts (blockCount : Nat) (arrived : List Nat) (s : Account) : Prop where
  length : s.received.length = blockCount / 8 + 2
  marked : ∀ b, bits s.received b = decide (b ∈ arrived)
  left : s.blocksLeft = blockCount - arrived.toFinset.card

section Steps
variable {blockCount block : Nat} {arrived : List Nat} {s : Account}

theorem Counts.start (blockCount : Nat) : Counts blockCount [] (start blockCount) where
  length := List.length_replicate
  marked := by simp [Account.start, receivedBytes, bits_replicate]
  left := rfl

theorem Counts.accept (h : Counts blockCount arrived s) (hin : block / 8 < blockCount / 8 + 2) :
    ∃ t, s.accept block = some t ∧ Counts blockCount (arrived ++ [block]) t := by
  have hlength := h.length
  have hread := readBit_of_lt (show block / 8 < s.received.length by omega)
  rw [h.marked] at hread
  unfold Account.accept
  rw [hread, Option.bind_some]
  by_cases hold : block ∈ arrived
  · rw [if_pos (by simpa using hold)]
    refine ⟨s, rfl, h.length, fun b => ?_, ?_⟩
    · rw [h.marked]
      by_cases hb : b = block <;> simp [hb, hold]
    · have hsame : (arrived ++ [block]).toFinset = arrived.toFinset := by
        ext b
        by_cases hb : b = block <;> simp [hb, hold]
      rw [h.left, hsame]
  · rw [if_neg (by simpa using hold)]
    obtain ⟨received, hwrite, hsize, hbits⟩ :=
      writeBit_of_lt (show block / 8 < s.received.length by omega)
    refine ⟨_, congrArg (Option.map _) hwrite, hsize.trans h.length, fun b => ?_, ?_⟩
    · dsimp only
      rw [hbits]
      by_cases hb : b = block
      · simp [hb]
      · rw [Function.update_of_ne hb, h.marked]
        simp [hb]
    · have hcard : (arrived ++ [block]).toFinset.card = arrived.toFinset.card + 1 := by
        rw [List.toFinset_append, Finset.union_comm]
        rw [List.toFinset_cons, List.toFinset_nil, insert_empty_eq, ← Finset.insert_eq]
        exact Finset.card_insert_of_notMem (by rwa [List.mem_toFinset])
      dsimp only
      rw [h.left, hcard]
      split <;> omega

theorem Counts.outside (h : Counts blockCount arrived s) (hout : blockCount / 8 + 2 ≤ block / 8) :
    s.accept block = none := by
  have hnone : s.received[block / 8]? = none := List.getElem?_eq_none (by rw [h.length]; exact hout)
  rw [Account.accept, readBit, readCell, hnone]
  rfl

theorem Counts.run {numbers : List Nat} (h : Counts blockCount arrived s)
    (hin : ∀ b ∈ numbers, b / 8 < blockCount / 8 + 2) :
    ∃ t, Library.run Account.accept s numbers = some t ∧ Counts blockCount (arrived ++ numbers) t := by
  induction numbers generalizing arrived s with
  | nil => exact ⟨s, rfl, by rwa [List.append_nil]⟩
  | cons block numbers ih =>
    rw [List.forall_mem_cons] at hin
    obtain ⟨t, ht, hcounts⟩ := h.accept hin.1
    obtain ⟨u, hu, hcounts⟩ := ih hcounts hin.2
    rw [List.append_assoc, List.singleton_append] at hcounts
    exact ⟨u, by rw [run_cons, ht, Option.bind_some, hu], hcounts⟩

theorem Counts.of_run {numbers : List Nat} {t : Account} (h : Counts blockCount arrived s)
    (hrun : Library.run Account.accept s numbers = some t) :
    ∀ b ∈ numbers, b / 8 < blockCount / 8 + 2 := by
  induction numbers generalizing arrived s with
  | nil => exact fun b hb => by cases hb
  | cons block numbers ih =>
    obtain ⟨u, hu, hrun⟩ := run_cons_some hrun
    have hin : block / 8 < blockCount / 8 + 2 := by
      by_contra hout
      rw [h.outside (by omega)] at hu
      cases hu
    obtain ⟨u', hu', hcounts⟩ := h.accept hin
    cases hu.symm.trans hu'
    exact List.forall_mem_cons.mpr ⟨hin, ih hcounts hrun⟩

theorem Counts.unmarked_card (h : Counts blockCount arrived s) :
    (s.unmarked blockCount).card =
      blockCount - (Finset.Icc 1 blockCount ∩ arrived.toFinset).card := by
  have hsplit : s.unmarked blockCount = Finset.Icc 1 blockCount \ arrived.toFinset := by
    ext b
    simp [unmarked, h.marked]
  rw [hsplit, Finset.card_sdiff, Nat.card_Icc, Finset.inter_comm]
  rfl

end Steps

end Account

/-- Without the check of the range the bytes are not left, and the count of missing blocks
is the number of clear bits, if and only if no number lies behind the bytes and every number is
one of a block, unless all blocks have come. -/
theorem unchecked_count_right_iff (blockCount : Nat) (numbers : List Nat) :
    (∃ s, run Account.accept (.start blockCount) numbers = some s ∧
        s.blocksLeft = (s.unmarked blockCount).card) ↔
      (∀ b ∈ numbers, b / 8 < blockCount / 8 + 2) ∧
        ((∀ b ∈ numbers, 1 ≤ b ∧ b ≤ blockCount) ∨ ∀ b, 1 ≤ b → b ≤ blockCount → b ∈ numbers) := by
  have hstart := Account.Counts.start blockCount
  have hright : ∀ s, Account.Counts blockCount numbers s →
      (s.blocksLeft = (s.unmarked blockCount).card ↔
        (∀ b ∈ numbers, 1 ≤ b ∧ b ≤ blockCount) ∨
          ∀ b, 1 ≤ b → b ≤ blockCount → b ∈ numbers) := by
    intro s hs
    have hsub : (Finset.Icc 1 blockCount ∩ numbers.toFinset) ⊆ numbers.toFinset :=
      Finset.inter_subset_right
    have hall : (Finset.Icc 1 blockCount ∩ numbers.toFinset) ⊆ Finset.Icc 1 blockCount :=
      Finset.inter_subset_left
    have hle := Finset.card_le_card hsub
    have hmost := Finset.card_le_card hall
    rw [Nat.card_Icc, Nat.add_sub_cancel] at hmost
    rw [hs.left, hs.unmarked_card]
    constructor
    · intro heq
      rcases Nat.lt_or_ge (Finset.Icc 1 blockCount ∩ numbers.toFinset).card blockCount with hlt | hge
      · left
        intro b hb
        have hsame := Finset.eq_of_subset_of_card_le hsub (by omega)
        have hmem : b ∈ Finset.Icc 1 blockCount ∩ numbers.toFinset := by
          rw [hsame]
          exact List.mem_toFinset.mpr hb
        exact Finset.mem_Icc.mp (Finset.mem_inter.mp hmem).1
      · right
        intro b h1 hb
        have hsame := Finset.eq_of_subset_of_card_le hall (by rw [Nat.card_Icc]; omega)
        have hmem : b ∈ Finset.Icc 1 blockCount ∩ numbers.toFinset := by
          rw [hsame]
          exact Finset.mem_Icc.mpr ⟨h1, hb⟩
        exact List.mem_toFinset.mp (Finset.mem_inter.mp hmem).2
    · rintro (hreal | hcomplete)
      · have hsame : Finset.Icc 1 blockCount ∩ numbers.toFinset = numbers.toFinset := by
          apply Finset.inter_eq_right.mpr
          intro b hb
          exact Finset.mem_Icc.mpr (hreal b (List.mem_toFinset.mp hb))
        rw [hsame]
      · have hsame : Finset.Icc 1 blockCount ∩ numbers.toFinset = Finset.Icc 1 blockCount := by
          apply Finset.inter_eq_left.mpr
          intro b hb
          obtain ⟨h1, hle⟩ := Finset.mem_Icc.mp hb
          exact List.mem_toFinset.mpr (hcomplete b h1 hle)
        rw [hsame, Nat.card_Icc] at hle ⊢
        omega
  constructor
  · intro ⟨s, hrun, heq⟩
    have hin := hstart.of_run hrun
    obtain ⟨t, ht, hcounts⟩ := hstart.run hin
    cases hrun.symm.trans ht
    exact ⟨hin, (hright s hcounts).mp heq⟩
  · intro ⟨hin, hwhy⟩
    obtain ⟨s, hrun, hcounts⟩ := hstart.run hin
    exact ⟨s, hrun, (hright s hcounts).mpr hwhy⟩

end TsunamiUdp.RtClient

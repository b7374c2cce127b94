import TsunamiUdp.Library.Circular

/-! The disk ring buffer of the client (`ring.c`). Each operation is the critical
section it runs under the ring's mutex; an address is the index of its slot. -/
namespace TsunamiUdp.Client.Ring
open Library

def maxBlocksQueued : Int := 4096

structure RingBuffer (α : Type) where
  datagrams : Int → α
  baseData : Int
  countData : Int
  countReserved : Int
  dataReady : Bool
  spaceReady : Bool

/-- How a critical section ends: it returns, it waits on its condition variable
(which releases the mutex), or `error` ends the process. -/
inductive Section (β : Type)
  | done (result : β)
  | wait
  | fatal

variable {α : Type}

/-- `ring_create`; the slots come from `malloc` and hold anything. -/
def ringCreate (datagrams : Int → α) : RingBuffer α where
  datagrams := datagrams
  baseData := 0
  countData := 0
  countReserved := 0
  dataReady := false
  spaceReady := true

def ringFull (ring : RingBuffer α) : Bool := !ring.spaceReady

def ringCancel (ring : RingBuffer α) : Section (RingBuffer α) :=
  if ring.countReserved - 1 < 0 then .fatal
  else .done { ring with countReserved := ring.countReserved - 1, spaceReady := true }

def ringConfirm (ring : RingBuffer α) : Section (RingBuffer α) :=
  if ring.countReserved - 1 < 0 then .fatal
  else .done { ring with
    countData := ring.countData + 1
    countReserved := ring.countReserved - 1
    dataReady := true }

def ringPeek (ring : RingBuffer α) : Section Int :=
  if ring.dataReady = false then .wait else .done ring.baseData

def ringPop (ring : RingBuffer α) : Section (RingBuffer α) :=
  if ring.dataReady = false then .wait
  else .done { ring with
    baseData := (ring.baseData + 1) % maxBlocksQueued
    countData := ring.countData - 1
    dataReady := if ring.countData - 1 = 0 then false else ring.dataReady
    spaceReady := true }

/-- The slot `ring_reserve` picks before it waits for space. -/
def ringReserveNext (ring : RingBuffer α) : Int :=
  (ring.baseData + ring.countData + ring.countReserved) % maxBlocksQueued

/-- The rest of `ring_reserve`, run again after every wakeup with the slot picked
at the start. -/
def ringReserveTake (ring : RingBuffer α) (next : Int) : Section (RingBuffer α) :=
  if ring.spaceReady = false then .wait
  else if ring.countReserved + 1 > 1 then .fatal
  else .done { ring with
    countReserved := ring.countReserved + 1
    spaceReady := if (next + 1) % maxBlocksQueued = ring.baseData then false else ring.spaceReady }

def RingBuffer.store (ring : RingBuffer α) (address : Int) (d : α) : RingBuffer α :=
  { ring with datagrams := Function.update ring.datagrams address d }

/-- The confirmed datagrams that have not been popped, oldest first. -/
def RingBuffer.queued (ring : RingBuffer α) : List α :=
  window maxBlocksQueued ring.datagrams ring.baseData ring.countData.toNat

theorem ringPeek_done {ring : RingBuffer α} {address : Int} (h : ringPeek ring = .done address) :
    ring.dataReady = true ∧ address = ring.baseData := by
  unfold ringPeek at h
  split at h
  · cases h
  · rename_i hready
    cases h
    exact ⟨by simpa using hready, rfl⟩

/-- The counters and flags agree with each other; the flags are what the waits test. -/
structure Consistent (ring : RingBuffer α) : Prop where
  base_nonneg : 0 ≤ ring.baseData
  base_lt : ring.baseData < maxBlocksQueued
  data_nonneg : 0 ≤ ring.countData
  reserved_range : ring.countReserved = 0 ∨ ring.countReserved = 1
  bound : ring.countData + ring.countReserved ≤ maxBlocksQueued
  data_ready : ring.dataReady = false ↔ ring.countData = 0
  space_ready : ring.spaceReady = false ↔ ring.countData + ring.countReserved = maxBlocksQueued

theorem consistent_create (datagrams : Int → α) : Consistent (ringCreate datagrams) := by
  constructor <;> simp [ringCreate, maxBlocksQueued]

namespace Consistent
variable {ring ring' : RingBuffer α}

theorem queued_length (h : Consistent ring) : (ring.queued.length : Int) = ring.countData := by
  have := h.data_nonneg
  simp only [RingBuffer.queued, window_length]
  omega

theorem queued_le (h : Consistent ring) : ring.queued.length ≤ 4096 := by
  have := h.queued_length
  have := h.bound
  have := h.reserved_range
  simp only [maxBlocksQueued] at *
  omega

theorem reserveNext_eq (free : ring.countReserved = 0) :
    ringReserveNext ring = slot maxBlocksQueued ring.baseData ring.countData := by
  simp only [ringReserveNext, free, Int.add_zero, slot]

theorem reserveTake (h : Consistent ring) (free : ring.countReserved = 0)
    {next : Int} (hnext : next = slot maxBlocksQueued ring.baseData ring.countData) :
    (ringReserveTake ring next = .wait ∧ ring.spaceReady = false) ∨
    ∃ ring', ringReserveTake ring next = .done ring' ∧ Consistent ring' ∧
      ring'.countReserved = 1 ∧ ring'.countData = ring.countData ∧
      ring'.baseData = ring.baseData ∧ ring'.datagrams = ring.datagrams := by
  unfold ringReserveTake
  cases hspace : ring.spaceReady with
  | false => exact Or.inl ⟨if_pos rfl, rfl⟩
  | true =>
    right
    have hroom : ring.countData < maxBlocksQueued := by
      have hne : ¬ring.spaceReady = false := by simp [hspace]
      rw [h.space_ready, free] at hne
      have := h.bound
      omega
    have hturn : (next + 1) % maxBlocksQueued = ring.baseData ↔
        ring.countData + 1 = maxBlocksQueued := by
      have hslot : (next + 1) % maxBlocksQueued =
          slot maxBlocksQueued ring.baseData (ring.countData + 1) := by
        rw [hnext, ← slot_slot, slot]
        rfl
      rw [hslot]
      exact slot_eq_base_iff h.base_nonneg h.base_lt (by have := h.data_nonneg; omega) (by omega)
    rw [if_neg (by decide), if_neg (by omega)]
    refine ⟨_, rfl, ?_, by simp [free], rfl, rfl, rfl⟩
    refine ⟨h.base_nonneg, h.base_lt, h.data_nonneg, by simp [free], ?_, h.data_ready, ?_⟩
    · simp only [free]
      omega
    · simp only [free, hturn]
      split
      · rename_i heq
        simpa using heq
      · rename_i hne
        simpa using hne

theorem confirm (h : Consistent ring) (held : ring.countReserved = 1) :
    ∃ ring', ringConfirm ring = .done ring' ∧ Consistent ring' ∧ ring'.countReserved = 0 ∧
      ring'.countData = ring.countData + 1 ∧ ring'.baseData = ring.baseData ∧
      ring'.datagrams = ring.datagrams ∧ ring'.dataReady = true ∧
      ring'.spaceReady = ring.spaceReady := by
  have hdata := h.data_nonneg
  have hbound := h.bound
  unfold ringConfirm
  rw [if_neg (by omega)]
  refine ⟨_, rfl, ⟨h.base_nonneg, h.base_lt, ?_, ?_, ?_, ?_, ?_⟩, by simp [held], rfl, rfl, rfl, rfl, rfl⟩
  · dsimp only; omega
  · dsimp only; omega
  · dsimp only; omega
  · simp only [Bool.true_eq_false, false_iff]; omega
  · dsimp only
    rw [h.space_ready]
    omega

theorem cancel (h : Consistent ring) (held : ring.countReserved = 1) :
    ∃ ring', ringCancel ring = .done ring' ∧ Consistent ring' ∧ ring'.countReserved = 0 ∧
      ring'.countData = ring.countData ∧ ring'.baseData = ring.baseData ∧
      ring'.datagrams = ring.datagrams ∧ ring'.spaceReady = true ∧
      ring'.dataReady = ring.dataReady := by
  have hbound := h.bound
  unfold ringCancel
  rw [if_neg (by omega)]
  refine ⟨_, rfl, ⟨h.base_nonneg, h.base_lt, h.data_nonneg, ?_, ?_, h.data_ready, ?_⟩,
    by simp [held], rfl, rfl, rfl, rfl, rfl⟩
  · dsimp only; omega
  · dsimp only; omega
  · simp only [Bool.true_eq_false, false_iff]; omega

theorem pop (h : Consistent ring) (data : 0 < ring.countData) :
    ∃ ring', ringPop ring = .done ring' ∧ Consistent ring' ∧
      ring'.countReserved = ring.countReserved ∧ ring'.countData = ring.countData - 1 ∧
      ring'.baseData = slot maxBlocksQueued ring.baseData 1 ∧
      ring'.datagrams = ring.datagrams ∧ ring'.spaceReady = true := by
  have hready : ring.dataReady = true := by
    have := h.data_ready
    cases hr : ring.dataReady with
    | true => rfl
    | false => rw [hr] at this; simp at this; omega
  have hbound := h.bound
  have hcap : 0 < maxBlocksQueued := by decide
  unfold ringPop
  rw [if_neg (by simp [hready])]
  refine ⟨_, rfl, ⟨slot_nonneg hcap _ 1, slot_lt hcap _ 1, ?_, h.reserved_range, ?_, ?_, ?_⟩,
    rfl, rfl, rfl, rfl, rfl⟩
  · dsimp only; omega
  · dsimp only; omega
  · simp [hready]
  · simp only [Bool.true_eq_false, false_iff]; omega

end Consistent

end TsunamiUdp.Client.Ring

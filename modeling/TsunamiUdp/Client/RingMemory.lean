import TsunamiUdp.Client.RingThreads
import TsunamiUdp.Library.Bytes
import TsunamiUdp.Library.Spans

/-! The ring as it lies in memory: one block for all slots, copied into and read out of by both
threads. -/
namespace TsunamiUdp.Client.Ring
open Library

/-- `threads` without what is in the slots, which is in `memory`. -/
structure RingMemory where
  datagramSize : Nat
  memory : List UInt8
  counters : RingBuffer Unit
  producer : Producer (List UInt8)
  consumer : Consumer (List UInt8)
  fatal : Bool
  confirmed : List (List UInt8)
  consumed : List (List UInt8)

/-- `copy` is the `memcpy` into the reserved slot, `stop` the zero that is stored there when the
transfer is over. -/
inductive MemoryAction
  | copy (datagram : List UInt8)
  | stop
  | call (action : Action (List UInt8))

namespace RingMemory

/-- The address that the ring hands out for a slot, counted from `datagrams`; the product is an
`int`. -/
def offset (size : Nat) (index : Int) : Option Nat :=
  if 0 ≤ index ∧ index * size < 2147483648 then some (index.toNat * size) else none

def slots (s : RingMemory) : Int → List UInt8 := fun index =>
  if 0 ≤ index then piece s.datagramSize s.memory index.toNat else []

def threads (s : RingMemory) : Threads (List UInt8) where
  ring := ⟨s.slots, s.counters.baseData, s.counters.countData, s.counters.countReserved,
    s.counters.dataReady, s.counters.spaceReady⟩
  producer := s.producer
  consumer := s.consumer
  fatal := s.fatal
  confirmed := s.confirmed
  consumed := s.consumed

def withThreads (s : RingMemory) (t : Threads (List UInt8)) : RingMemory where
  datagramSize := s.datagramSize
  memory := s.memory
  counters := ⟨fun _ => (), t.ring.baseData, t.ring.countData, t.ring.countReserved,
    t.ring.dataReady, t.ring.spaceReady⟩
  producer := t.producer
  consumer := t.consumer
  fatal := t.fatal
  confirmed := t.confirmed
  consumed := t.consumed

/-- `malloc` returns a block of the size that it is asked for. -/
abbrev Malloc : Type := (size : Nat) → { memory : List UInt8 // memory.length = size }

/-- `ring_create`; the number of bytes that it asks for is an `int` too. -/
def create (blockSize : Nat) (malloc : Malloc) : Option RingMemory :=
  if (6 + blockSize) * 4096 < 2147483648 then some
    { datagramSize := 6 + blockSize
      memory := (malloc ((6 + blockSize) * 4096)).val
      counters := ringCreate fun _ => ()
      producer := .idle
      consumer := .idle
      fatal := false
      confirmed := []
      consumed := [] }
  else none

def store (s : RingMemory) (data : List UInt8) : Option RingMemory :=
  s.producer.address.bind fun index =>
    (offset s.datagramSize index).bind fun address =>
      (writeSpan s.memory address data).map fun memory =>
        { s with
          memory := memory
          producer := .written index (piece s.datagramSize memory index.toNat) }

def load (s : RingMemory) : Option RingMemory :=
  match s.consumer with
  | .peeked index | .read index _ =>
    (offset s.datagramSize index).bind fun address =>
      (readSpan s.memory address s.datagramSize).map fun datagram =>
        { s with consumer := .read index datagram }
  | _ => none

def step (s : RingMemory) (action : MemoryAction) : Option RingMemory :=
  if s.fatal then none
  else match action with
    | .copy datagram => s.store datagram
    | .stop => s.store (toBytes 4 0)
    | .call .read => s.load
    | .call (.write _) => none
    | .call action => (s.threads.step action).map s.withThreads

def abstracted (s : RingMemory) : MemoryAction → Action (List UInt8)
  | .copy datagram => .write datagram
  | .stop => .write (toBytes 4 0 ++ ((s.producer.address.elim [] s.slots).drop 4))
  | .call action => action

def Proper (s : RingMemory) : MemoryAction → Prop
  | .copy datagram => datagram.length = s.datagramSize
  | .stop => True
  | .call (.write _) => False
  | .call _ => True

structure Laid (s : RingMemory) : Prop where
  size : 6 ≤ s.datagramSize
  narrow : s.datagramSize * 4096 < 2147483648
  memory : s.memory.length = s.datagramSize * 4096
  ring : Threads.Inv s.threads

section Steps
variable {s t : RingMemory} {action : MemoryAction}

theorem laid_create {blockSize : Nat} {malloc : Malloc} (h : create blockSize malloc = some s) :
    Laid s := by
  obtain ⟨hnarrow, heq⟩ := Option.ite_none_right_eq_some.mp h
  cases heq
  exact ⟨Nat.le_add_right 6 blockSize, hnarrow, (malloc _).property, Threads.inv_start _⟩

theorem offset_of_lt (h : Laid s) {index : Int} (h0 : 0 ≤ index) (hlt : index < maxBlocksQueued) :
    offset s.datagramSize index = some (index.toNat * s.datagramSize) ∧
      (index.toNat + 1) * s.datagramSize ≤ s.memory.length := by
  have hmax : maxBlocksQueued = 4096 := rfl
  have hnarrow := h.narrow
  obtain ⟨i, rfl⟩ := Int.eq_ofNat_of_zero_le h0
  have hle : (i + 1) * s.datagramSize ≤ 4096 * s.datagramSize :=
    Nat.mul_le_mul_right _ (by omega)
  have hbytes : (i : Int) * s.datagramSize = ((i * s.datagramSize : Nat) : Int) := (Nat.cast_mul _ _).symm
  rw [Nat.succ_mul] at hle
  have hint : (i : Int) * s.datagramSize < 2147483648 := by
    rw [hbytes]
    omega
  refine ⟨if_pos ⟨h0, hint⟩, ?_⟩
  rw [h.memory, Int.toNat_natCast, Nat.succ_mul]
  omega

theorem producer_range (h : Laid s) {index : Int} (ha : s.producer.address = some index) :
    0 ≤ index ∧ index < maxBlocksQueued := by
  obtain ⟨-, hslot⟩ := Threads.producer_apart h.ring ha
  rw [hslot]
  exact ⟨slot_nonneg (by decide) _ _, slot_lt (by decide) _ _⟩

theorem consumer_range (h : Laid s) {index : Int} (ha : s.consumer.address = some index) :
    0 ≤ index ∧ index < maxBlocksQueued := by
  obtain ⟨-, hbase⟩ := Threads.consumer_address h.ring ha
  rw [hbase]
  exact ⟨h.ring.consistent.base_nonneg, h.ring.consistent.base_lt⟩

theorem slots_writeSpan {data memory : List UInt8} {index : Int} (h0 : 0 ≤ index)
    (hlen : data.length ≤ s.datagramSize)
    (hw : writeSpan s.memory (index.toNat * s.datagramSize) data = some memory)
    (producer : Producer (List UInt8)) :
    slots { s with memory := memory, producer := producer } =
      Function.update s.slots index (data ++ (s.slots index).drop data.length) := by
  funext j
  by_cases hj : j = index
  · subst hj
    unfold slots
    rw [Function.update_self, if_pos h0, if_pos h0, piece_writeSpan hw hlen]
  · rw [Function.update_of_ne hj]
    unfold slots
    split
    · exact piece_writeSpan_other hw hlen fun heq => hj (by omega)
    · rfl

theorem store_threads (h : Laid s) {data : List UInt8} (hlen : data.length ≤ s.datagramSize) :
    (s.store data).map threads =
      s.threads.write (data ++ ((s.producer.address.elim [] s.slots).drop data.length)) := by
  have hmain : ∀ index, s.producer.address = some index →
      (s.store data).map threads = some { s.threads with
        ring := s.threads.ring.store index (data ++ (s.slots index).drop data.length)
        producer := .written index (data ++ (s.slots index).drop data.length) } := by
    intro index ha
    obtain ⟨h0, hlt⟩ := producer_range h ha
    obtain ⟨haddress, hinside⟩ := offset_of_lt h h0 hlt
    rw [Nat.succ_mul] at hinside
    have hroom : (writeSpan s.memory (index.toNat * s.datagramSize) data).isSome :=
      writeSpan_isSome.mpr (by omega)
    obtain ⟨memory, hw⟩ := Option.isSome_iff_exists.mp hroom
    have hslot : piece s.datagramSize memory index.toNat = data ++ (s.slots index).drop data.length := by
      rw [piece_writeSpan hw hlen, slots, if_pos h0]
    have hslots := slots_writeSpan h0 hlen hw (.written index (piece s.datagramSize memory index.toNat))
    rw [store, ha, Option.bind_some, haddress, Option.bind_some, hw, Option.map_some, Option.map_some]
    rw [hslot] at hslots ⊢
    simp only [threads, hslots, RingBuffer.store]
  cases hp : s.producer with
  | idle => simp [store, Threads.write, threads, hp, Producer.address]
  | waiting next signalled => simp [store, Threads.write, threads, hp, Producer.address]
  | reserved index =>
    rw [hmain index (by rw [hp]; rfl), Threads.write, show s.threads.producer = .reserved index from hp]
    rfl
  | written index d =>
    rw [hmain index (by rw [hp]; rfl), Threads.write, show s.threads.producer = .written index d from hp]
    rfl

theorem load_threads (h : Laid s) : s.load.map threads = s.threads.read := by
  have hmain : ∀ index, s.consumer.address = some index →
      (offset s.datagramSize index).bind (fun address => readSpan s.memory address s.datagramSize) =
        some (s.slots index) := by
    intro index ha
    obtain ⟨h0, hlt⟩ := consumer_range h ha
    obtain ⟨haddress, hinside⟩ := offset_of_lt h h0 hlt
    rw [haddress, Option.bind_some, readSpan_piece hinside, slots, if_pos h0]
  unfold load Threads.read
  rw [show s.threads.consumer = s.consumer from rfl]
  cases hc : s.consumer with
  | peeked index =>
    have hread := hmain index (by rw [hc]; rfl)
    obtain ⟨address, haddress, hspan⟩ := Option.bind_eq_some_iff.mp hread
    dsimp only
    rw [haddress, Option.bind_some, hspan]
    rfl
  | read index d =>
    have hread := hmain index (by rw [hc]; rfl)
    obtain ⟨address, haddress, hspan⟩ := Option.bind_eq_some_iff.mp hread
    dsimp only
    rw [haddress, Option.bind_some, hspan]
    rfl
  | _ => rfl

@[simp] theorem reserveTake_datagrams (u : Threads (List UInt8)) (next : Int) :
    (u.reserveTake next).ring.datagrams = u.ring.datagrams := by
  unfold Threads.reserveTake ringReserveTake
  split
  · rename_i heq
    split at heq
    · cases heq
    · split at heq <;> cases heq
      rfl
  · rfl
  · rfl

@[simp] theorem peekTake_datagrams (u : Threads (List UInt8)) :
    u.peekTake.ring.datagrams = u.ring.datagrams := by
  unfold Threads.peekTake
  split <;> rfl

@[simp] theorem popTake_datagrams (u : Threads (List UInt8)) (address : Int) (d : List UInt8) :
    (u.popTake address d).ring.datagrams = u.ring.datagrams := by
  unfold Threads.popTake ringPop
  split
  · rename_i heq
    split at heq <;> cases heq
    rfl
  · rfl

theorem confirm_datagrams {u v : Threads (List UInt8)} (hs : u.confirm = some v) :
    v.ring.datagrams = u.ring.datagrams := by
  unfold Threads.confirm ringConfirm at hs
  split at hs
  · split at hs
    · rename_i heq
      split at heq <;> cases heq
      cases hs
      rfl
    · cases hs
      rfl
  · cases hs

theorem cancel_datagrams {u v : Threads (List UInt8)} (hs : u.cancel = some v) :
    v.ring.datagrams = u.ring.datagrams := by
  unfold Threads.cancel ringCancel at hs
  split at hs
  · split at hs
    · rename_i heq
      split at heq <;> cases heq
      cases hs
      rfl
    · cases hs
      rfl
  · split at hs
    · rename_i heq
      split at heq <;> cases heq
      cases hs
      rfl
    · cases hs
      rfl
  · cases hs

theorem datagrams_kept {u v : Threads (List UInt8)} {call : Action (List UInt8)}
    (hcall : ∀ d, call ≠ .write d) (hs : u.step call = some v) :
    v.ring.datagrams = u.ring.datagrams := by
  obtain ⟨-, hs⟩ := Option.ite_none_left_eq_some.mp hs
  cases call with
  | full =>
    dsimp only [Threads.full] at hs
    split at hs <;> cases hs
    rfl
  | reserve =>
    dsimp only [Threads.reserve] at hs
    split at hs <;> cases hs
    exact reserveTake_datagrams u _
  | producerWakes =>
    dsimp only [Threads.producerWakes] at hs
    split at hs <;> cases hs
    exact reserveTake_datagrams u _
  | write d => exact absurd rfl (hcall d)
  | confirm => exact confirm_datagrams hs
  | cancel => exact cancel_datagrams hs
  | peek =>
    dsimp only [Threads.peek] at hs
    split at hs <;> cases hs
    exact peekTake_datagrams u
  | consumerWakes =>
    dsimp only [Threads.consumerWakes] at hs
    split at hs <;> cases hs
    · exact peekTake_datagrams u
    · exact popTake_datagrams u _ _
  | read =>
    dsimp only [Threads.read] at hs
    split at hs <;> cases hs <;> rfl
  | pop =>
    dsimp only [Threads.pop] at hs
    split at hs <;> cases hs
    exact popTake_datagrams u _ _

theorem call_threads {call : Action (List UInt8)} (hcall : ∀ d, call ≠ .write d) :
    ((s.threads.step call).map s.withThreads).map threads = s.threads.step call := by
  rw [Option.map_map]
  cases hs : s.threads.step call with
  | none => rfl
  | some v =>
    have hslots : s.slots = v.ring.datagrams := (datagrams_kept hcall hs).symm
    change some (s.withThreads v).threads = some v
    unfold withThreads threads
    change some (⟨⟨s.slots, _, _, _, _, _⟩, _, _, _, _, _⟩ : Threads (List UInt8)) = _
    rw [hslots]

theorem whole_slot (h : Laid s) {n : Nat} (hn : s.datagramSize ≤ n) :
    (s.producer.address.elim [] s.slots).drop n = [] := by
  cases ha : s.producer.address with
  | none => exact List.drop_nil
  | some index =>
    obtain ⟨h0, hlt⟩ := producer_range h ha
    change (s.slots index).drop n = []
    rw [slots, if_pos h0]
    exact List.drop_eq_nil_of_le (by rw [piece_length (offset_of_lt h h0 hlt).2]; exact hn)

/-- An action does in the memory what it does to the ring whose slots are values; in particular
its accesses stay inside. -/
theorem step_threads (h : Laid s) (hproper : Proper s action) :
    (s.step action).map threads = s.threads.step (abstracted s action) := by
  have hsize := h.size
  unfold step
  by_cases hfatal : s.fatal
  · rw [if_pos hfatal]
    exact (if_pos hfatal).symm
  · rw [if_neg hfatal]
    cases action with
    | copy datagram =>
      have hwhole : datagram ++ (s.producer.address.elim [] s.slots).drop datagram.length = datagram := by
        rw [whole_slot h hproper.ge, List.append_nil]
      have hwrite : s.threads.step (.write datagram) = s.threads.write datagram := if_neg hfatal
      dsimp only [abstracted]
      rw [store_threads h hproper.le, hwhole, hwrite]
    | stop =>
      have hwrite : ∀ d, s.threads.step (.write d) = s.threads.write d := fun d => if_neg hfatal
      exact (store_threads h (by simp; omega)).trans (hwrite _).symm
    | call call =>
      have hcalls := fun hcall : ∀ d, call ≠ .write d => call_threads (s := s) hcall
      cases call with
      | read => exact (load_threads h).trans (if_neg hfatal : s.threads.step .read = _).symm
      | write d => exact hproper.elim
      | _ => exact hcalls (by simp)

theorem store_frame {data : List UInt8} (hs : s.store data = some t) :
    t.datagramSize = s.datagramSize ∧ t.memory.length = s.memory.length := by
  obtain ⟨index, -, hs⟩ := Option.bind_eq_some_iff.mp hs
  obtain ⟨address, -, hs⟩ := Option.bind_eq_some_iff.mp hs
  obtain ⟨memory, hw, rfl⟩ := Option.map_eq_some_iff.mp hs
  exact ⟨rfl, writeSpan_length hw⟩

theorem load_frame (hs : s.load = some t) :
    t.datagramSize = s.datagramSize ∧ t.memory = s.memory := by
  unfold load at hs
  split at hs
  · obtain ⟨address, -, hs⟩ := Option.bind_eq_some_iff.mp hs
    obtain ⟨datagram, -, rfl⟩ := Option.map_eq_some_iff.mp hs
    exact ⟨rfl, rfl⟩
  · obtain ⟨address, -, hs⟩ := Option.bind_eq_some_iff.mp hs
    obtain ⟨datagram, -, rfl⟩ := Option.map_eq_some_iff.mp hs
    exact ⟨rfl, rfl⟩
  · cases hs

theorem step_frame (hs : s.step action = some t) :
    t.datagramSize = s.datagramSize ∧ t.memory.length = s.memory.length := by
  obtain ⟨-, hs⟩ := Option.ite_none_left_eq_some.mp hs
  cases action with
  | copy datagram => exact store_frame hs
  | stop => exact store_frame hs
  | call call =>
    cases call with
    | read => exact ⟨(load_frame hs).1, congrArg List.length (load_frame hs).2⟩
    | write d => cases hs
    | _ =>
      obtain ⟨u, -, rfl⟩ := Option.map_eq_some_iff.mp hs
      exact ⟨rfl, rfl⟩

theorem laid_step (h : Laid s) (hproper : Proper s action) (hs : s.step action = some t) : Laid t := by
  have hthreads := step_threads h hproper
  rw [hs] at hthreads
  obtain ⟨hsize, hmemory⟩ := step_frame hs
  refine ⟨hsize ▸ h.size, hsize ▸ h.narrow, ?_, Threads.inv_step _ h.ring hthreads.symm⟩
  rw [hmemory, hsize, h.memory]

theorem proper_of_copies (hcopies : ∀ d, action = .copy d → d.length = s.datagramSize)
    (hs : s.step action = some t) : Proper s action := by
  cases action with
  | copy d => exact hcopies d rfl
  | stop => trivial
  | call call =>
    cases call with
    | write d => exact nomatch (Option.ite_none_left_eq_some.mp hs).2
    | _ => trivial

theorem run_threads {actions : List MemoryAction} (h : Laid s)
    (hcopies : ∀ d, .copy d ∈ actions → d.length = s.datagramSize)
    (hrun : run step s actions = some t) :
    Laid t ∧ t.datagramSize = s.datagramSize ∧
      ∃ calls, run Threads.step s.threads calls = some t.threads := by
  induction actions generalizing s with
  | nil =>
    cases hrun
    exact ⟨h, rfl, [], rfl⟩
  | cons action actions ih =>
    obtain ⟨u, hs, hrest⟩ := run_cons_some hrun
    have hproper := proper_of_copies (fun d heq => hcopies d (heq ▸ List.mem_cons_self)) hs
    have hsize := (step_frame hs).1
    have hthreads := step_threads h hproper
    rw [hs] at hthreads
    obtain ⟨hlaid, hsame, calls, hcalls⟩ := ih (laid_step h hproper hs)
      (fun d hd => (hcopies d (List.mem_cons_of_mem _ hd)).trans hsize.symm) hrest
    refine ⟨hlaid, hsame.trans hsize, abstracted s action :: calls, ?_⟩
    rw [run_cons, ← hthreads]
    exact hcalls

end Steps

/-- The two threads share one block of memory. Every run on it is a run of the ring whose slots
are values; no access that the ring allows is outside of the block, and what the network thread
writes never overlaps what the disk thread reads. -/
theorem ring_in_memory (blockSize : Nat) (malloc : Malloc) (s t : RingMemory)
    (actions : List MemoryAction) (hcreate : create blockSize malloc = some s)
    (hcopies : ∀ d, .copy d ∈ actions → d.length = 6 + blockSize)
    (hrun : run step s actions = some t) :
    (∃ calls, run Threads.step s.threads calls = some t.threads) ∧
      (∀ action, Proper t action → (t.step action).map threads = t.threads.step (abstracted t action)) ∧
      (∀ i j, t.producer.address = some i → t.consumer.address = some j →
        (i.toNat + 1) * (6 + blockSize) ≤ t.memory.length ∧
        (j.toNat + 1) * (6 + blockSize) ≤ t.memory.length ∧
        ((i.toNat + 1) * (6 + blockSize) ≤ j.toNat * (6 + blockSize) ∨
          (j.toNat + 1) * (6 + blockSize) ≤ i.toNat * (6 + blockSize))) ∧
      t.confirmed = t.consumed ++ window maxBlocksQueued t.slots t.counters.baseData
        t.counters.countData.toNat := by
  have hsize : s.datagramSize = 6 + blockSize := by
    obtain ⟨-, heq⟩ := Option.ite_none_right_eq_some.mp hcreate
    cases heq
    rfl
  obtain ⟨hlaid, hsame, hcalls⟩ := run_threads (laid_create hcreate)
    (fun d hd => (hcopies d hd).trans hsize.symm) hrun
  refine ⟨hcalls, fun action => step_threads hlaid, fun i j hi hj => ?_, hlaid.ring.history⟩
  obtain ⟨hi0, hilt⟩ := producer_range hlaid hi
  obtain ⟨hj0, hjlt⟩ := consumer_range hlaid hj
  have hne : i ≠ j := by
    rintro rfl
    exact Threads.producer_not_consumer hlaid.ring hi hj
  rw [← hsize, ← hsame]
  exact ⟨(offset_of_lt hlaid hi0 hilt).2, (offset_of_lt hlaid hj0 hjlt).2,
    pieces_apart fun heq => hne (by omega)⟩

def zeroed : Malloc := fun size => ⟨List.replicate size 0, List.length_replicate⟩

def oneBlock : List MemoryAction :=
  [.call .reserve, .copy [0, 0, 0, 1, 0, 88, 7], .call .confirm, .call .peek, .call .reserve,
    .call .read, .stop, .call .confirm, .call .pop]

def oneBlockEnd : Option RingMemory := (create 1 zeroed).bind fun s => run step s oneBlock

theorem one_block_in_memory : ∃ t, oneBlockEnd = some t ∧ t.consumed = [[0, 0, 0, 1, 0, 88, 7]] ∧
    t.confirmed = t.consumed ++ window maxBlocksQueued t.slots t.counters.baseData
      t.counters.countData.toNat := by
  have hsome : oneBlockEnd.isSome := by decide +kernel
  have hconsumed : oneBlockEnd.map RingMemory.consumed = some [[0, 0, 0, 1, 0, 88, 7]] := by
    decide +kernel
  obtain ⟨t, ht⟩ := Option.isSome_iff_exists.mp hsome
  rw [ht] at hconsumed
  obtain ⟨s, hs, hrun⟩ := Option.bind_eq_some_iff.mp ht
  have hcopies : ∀ d, .copy d ∈ oneBlock → d.length = 6 + 1 := by
    intro d hd
    simp only [oneBlock, List.mem_cons, MemoryAction.copy.injEq, reduceCtorEq, false_or, or_false,
      List.not_mem_nil] at hd
    rw [hd]
    rfl
  exact ⟨t, ht, Option.some.inj hconsumed, (ring_in_memory 1 zeroed s t oneBlock hs hcopies hrun).2.2.2⟩

end RingMemory

end TsunamiUdp.Client.Ring

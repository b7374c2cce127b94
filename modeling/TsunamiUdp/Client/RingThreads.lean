import TsunamiUdp.Client.Ring

/-! The network thread and the disk thread on one ring. A step is one critical
section, one access to a slot the thread was handed, or a wakeup; a waiting thread
may wake up at any time, signalled or not. -/
namespace TsunamiUdp.Client.Ring
open Library

/-- The producer's side: `next` is the slot it picked before it had to wait. -/
inductive Producer (α : Type)
  | idle
  | waiting (next : Int) (signalled : Bool)
  | reserved (address : Int)
  | written (address : Int) (d : α)

/-- The consumer's side: `d` is what it read at the address `ring_peek` returned. -/
inductive Consumer (α : Type)
  | idle
  | peekWaiting (signalled : Bool)
  | peeked (address : Int)
  | read (address : Int) (d : α)
  | popWaiting (address : Int) (d : α) (signalled : Bool)

/-- The lists record what was written into confirmed slots and what was read from
popped ones; `fatal` is set when `error` has ended the process. -/
structure Threads (α : Type) where
  ring : RingBuffer α
  producer : Producer α
  consumer : Consumer α
  fatal : Bool
  confirmed : List α
  consumed : List α

inductive Action (α : Type)
  | full
  | reserve
  | producerWakes
  | write (d : α)
  | confirm
  | cancel
  | peek
  | consumerWakes
  | read
  | pop

variable {α : Type}

def Action.consumes : Action α → Bool
  | .peek | .consumerWakes | .read | .pop => true
  | _ => false

def Producer.signal : Producer α → Producer α
  | .waiting next _ => .waiting next true
  | p => p

def Consumer.signal : Consumer α → Consumer α
  | .peekWaiting _ => .peekWaiting true
  | .popWaiting address d _ => .popWaiting address d true
  | c => c

def Producer.address : Producer α → Option Int
  | .reserved a | .written a _ => some a
  | _ => none

def Consumer.address : Consumer α → Option Int
  | .peeked a | .read a _ | .popWaiting a _ _ => some a
  | _ => none

namespace Threads

def start (datagrams : Int → α) : Threads α where
  ring := ringCreate datagrams
  producer := .idle
  consumer := .idle
  fatal := false
  confirmed := []
  consumed := []

def reserveTake (s : Threads α) (next : Int) : Threads α :=
  match ringReserveTake s.ring next with
  | .done ring => { s with ring := ring, producer := .reserved next }
  | .wait => { s with producer := .waiting next false }
  | .fatal => { s with fatal := true }

def full (s : Threads α) : Option (Threads α) :=
  match s.producer with
  | .idle => some s
  | _ => none

def reserve (s : Threads α) : Option (Threads α) :=
  match s.producer with
  | .idle => some (s.reserveTake (ringReserveNext s.ring))
  | _ => none

def producerWakes (s : Threads α) : Option (Threads α) :=
  match s.producer with
  | .waiting next _ => some (s.reserveTake next)
  | _ => none

def write (s : Threads α) (d : α) : Option (Threads α) :=
  match s.producer with
  | .reserved a | .written a _ =>
    some { s with ring := s.ring.store a d, producer := .written a d }
  | _ => none

def confirm (s : Threads α) : Option (Threads α) :=
  match s.producer with
  | .written _ d =>
    match ringConfirm s.ring with
    | .done ring => some { s with
        ring := ring
        producer := .idle
        consumer := s.consumer.signal
        confirmed := s.confirmed ++ [d] }
    | _ => some { s with fatal := true }
  | _ => none

def cancel (s : Threads α) : Option (Threads α) :=
  match s.producer with
  | .reserved _ | .written _ _ =>
    match ringCancel s.ring with
    | .done ring => some { s with ring := ring, producer := .idle }
    | _ => some { s with fatal := true }
  | _ => none

def peekTake (s : Threads α) : Threads α :=
  match ringPeek s.ring with
  | .done address => { s with consumer := .peeked address }
  | _ => { s with consumer := .peekWaiting false }

def popTake (s : Threads α) (address : Int) (d : α) : Threads α :=
  match ringPop s.ring with
  | .done ring => { s with
      ring := ring
      consumer := .idle
      producer := s.producer.signal
      consumed := s.consumed ++ [d] }
  | _ => { s with consumer := .popWaiting address d false }

def peek (s : Threads α) : Option (Threads α) :=
  match s.consumer with
  | .idle => some s.peekTake
  | _ => none

def read (s : Threads α) : Option (Threads α) :=
  match s.consumer with
  | .peeked a | .read a _ => some { s with consumer := .read a (s.ring.datagrams a) }
  | _ => none

def pop (s : Threads α) : Option (Threads α) :=
  match s.consumer with
  | .read a d => some (s.popTake a d)
  | _ => none

def consumerWakes (s : Threads α) : Option (Threads α) :=
  match s.consumer with
  | .peekWaiting _ => some s.peekTake
  | .popWaiting a d _ => some (s.popTake a d)
  | _ => none

def step (s : Threads α) (action : Action α) : Option (Threads α) :=
  if s.fatal then none
  else match action with
    | .full => s.full
    | .reserve => s.reserve
    | .producerWakes => s.producerWakes
    | .write d => s.write d
    | .confirm => s.confirm
    | .cancel => s.cancel
    | .peek => s.peek
    | .consumerWakes => s.consumerWakes
    | .read => s.read
    | .pop => s.pop

/-- A confirmation enqueues what the producer wrote, a pop dequeues what the
consumer read; everything else is invisible. -/
def visible (s : Threads α) : Action α → Option (QueueOp α)
  | .confirm => match s.producer with
      | .written _ d => some (.enqueue d)
      | _ => none
  | .pop => match s.consumer with
      | .read _ d => some (.dequeue d)
      | _ => none
  | _ => none

/-- Where the producer's slot lies: behind the data, and chosen once, before a wait. -/
def ProducerInv (ring : RingBuffer α) : Producer α → Prop
  | .idle => ring.countReserved = 0
  | .waiting next signalled => ring.countReserved = 0 ∧
      next = slot maxBlocksQueued ring.baseData ring.countData ∧
      (signalled = false → ring.spaceReady = false)
  | .reserved a => ring.countReserved = 1 ∧
      a = slot maxBlocksQueued ring.baseData ring.countData
  | .written a d => ring.countReserved = 1 ∧
      a = slot maxBlocksQueued ring.baseData ring.countData ∧ ring.datagrams a = d

/-- The consumer's slot is the oldest one and holds data until the pop. -/
def ConsumerInv (ring : RingBuffer α) : Consumer α → Prop
  | .idle => True
  | .peekWaiting signalled => signalled = false → ring.dataReady = false
  | .peeked a => 0 < ring.countData ∧ a = ring.baseData
  | .read a d => 0 < ring.countData ∧ a = ring.baseData ∧ ring.datagrams a = d
  | .popWaiting _ _ _ => False

structure Inv (s : Threads α) : Prop where
  consistent : Consistent s.ring
  producer : ProducerInv s.ring s.producer
  consumer : ConsumerInv s.ring s.consumer
  history : s.confirmed = s.consumed ++ s.ring.queued
  alive : s.fatal = false

theorem inv_start (datagrams : Int → α) : Inv (start datagrams) := by
  refine ⟨consistent_create datagrams, rfl, trivial, ?_, rfl⟩
  simp [start, RingBuffer.queued, ringCreate]

section Steps
variable {s s' : Threads α}

theorem consumerInv_of_same {ring ring' : RingBuffer α} {c : Consumer α}
    (h : ConsumerInv ring c) (hdata : ring'.countData = ring.countData)
    (hbase : ring'.baseData = ring.baseData) (hmem : ring'.datagrams = ring.datagrams)
    (hready : ring'.dataReady = ring.dataReady) : ConsumerInv ring' c := by
  cases c <;> simp only [ConsumerInv, hdata, hbase, hmem, hready] at h ⊢ <;> exact h

theorem ringReserveTake_dataReady {ring ring' : RingBuffer α} {next : Int}
    (h : ringReserveTake ring next = .done ring') : ring'.dataReady = ring.dataReady := by
  unfold ringReserveTake at h
  split at h
  · cases h
  · split at h <;> cases h
    rfl

theorem inv_reserveTake (h : Inv s) (free : s.ring.countReserved = 0) {next : Int}
    (hnext : next = slot maxBlocksQueued s.ring.baseData s.ring.countData) :
    Inv (s.reserveTake next) := by
  rcases h.consistent.reserveTake free hnext with ⟨hwait, hspace⟩ | ⟨ring', hdone, hc, hres, hd, hb, hm⟩
  · simp only [reserveTake, hwait]
    exact ⟨h.consistent, ⟨free, hnext, fun _ => hspace⟩, h.consumer, h.history, h.alive⟩
  · simp only [reserveTake, hdone]
    refine ⟨hc, ⟨hres, ?_⟩, ?_, ?_, h.alive⟩
    · rw [hd, hb]; exact hnext
    · exact consumerInv_of_same h.consumer hd hb hm (ringReserveTake_dataReady hdone)
    · simp only [RingBuffer.queued, hd, hb, hm]
      exact h.history

theorem inv_reserve (h : Inv s) (hs : s.reserve = some s') : Inv s' := by
  unfold reserve at hs
  have hp := h.producer
  split at hs
  · rename_i heq
    rw [heq] at hp
    cases hs
    exact inv_reserveTake h hp (Consistent.reserveNext_eq hp)
  · cases hs

theorem inv_producerWakes (h : Inv s) (hs : s.producerWakes = some s') : Inv s' := by
  unfold producerWakes at hs
  have hp := h.producer
  split at hs
  · rename_i heq
    rw [heq] at hp
    cases hs
    exact inv_reserveTake h hp.1 hp.2.1
  · cases hs

theorem producer_apart (h : Inv s) {a : Int} (ha : s.producer.address = some a) :
    s.ring.countReserved = 1 ∧ a = slot maxBlocksQueued s.ring.baseData s.ring.countData := by
  have hp := h.producer
  unfold Producer.address at ha
  split at ha <;> cases ha
  · rename_i heq
    rw [heq] at hp
    exact hp
  · rename_i heq
    rw [heq] at hp
    exact ⟨hp.1, hp.2.1⟩

theorem inv_store (h : Inv s) {a : Int} (ha : s.producer.address = some a) (d : α) :
    Inv { s with ring := s.ring.store a d, producer := .written a d } := by
  obtain ⟨hres, haddr⟩ := producer_apart h ha
  have hdata := h.consistent.data_nonneg
  have hbound := h.consistent.bound
  refine ⟨?_, ⟨hres, haddr, ?_⟩, ?_, ?_, h.alive⟩
  · obtain ⟨h1, h2, h3, h4, h5, h6, h7⟩ := h.consistent
    exact ⟨h1, h2, h3, h4, h5, h6, h7⟩
  · simp [RingBuffer.store]
  · have hne : 0 < s.ring.countData → s.ring.baseData ≠ a := by
      intro hpos heq
      have h0 := slot_zero h.consistent.base_nonneg h.consistent.base_lt
      have := slot_inj le_rfl (by decide) hdata (by omega) (h0.trans (heq.trans haddr))
      omega
    have hc := h.consumer
    cases hcs : s.consumer with
    | idle => trivial
    | peekWaiting signalled => rw [hcs] at hc; exact hc
    | peeked b => rw [hcs] at hc; exact hc
    | read b e =>
      rw [hcs] at hc
      obtain ⟨hpos, hb, he⟩ := hc
      refine ⟨hpos, hb, ?_⟩
      simp only [RingBuffer.store]
      rw [Function.update_of_ne (by rw [hb]; exact hne hpos)]
      exact he
    | popWaiting b e signalled => rw [hcs] at hc; exact hc
  · have hkeep : window maxBlocksQueued (Function.update s.ring.datagrams a d) s.ring.baseData
        s.ring.countData.toNat = s.ring.queued := by
      rw [haddr]
      exact window_update s.ring.datagrams d (by omega) (by omega)
    simp only [RingBuffer.queued, RingBuffer.store, hkeep]
    exact h.history

theorem inv_write (h : Inv s) {d : α} (hs : s.write d = some s') : Inv s' := by
  unfold write at hs
  split at hs
  · rename_i a heq
    cases hs
    exact inv_store h (by rw [heq]; rfl) d
  · rename_i a e heq
    cases hs
    exact inv_store h (by rw [heq]; rfl) d
  · cases hs

theorem inv_confirm (h : Inv s) (hs : s.confirm = some s') : Inv s' := by
  unfold confirm at hs
  have hp := h.producer
  split at hs
  · rename_i a d heq
    rw [heq] at hp
    obtain ⟨hres, haddr, hmem⟩ := hp
    obtain ⟨ring', hdone, hc, hres', hd, hb, hm, hready, -⟩ := h.consistent.confirm hres
    rw [hdone] at hs
    cases hs
    have hdata := h.consistent.data_nonneg
    refine ⟨hc, hres', ?_, ?_, h.alive⟩
    · have hcons := h.consumer
      cases hcs : s.consumer with
      | idle => trivial
      | peekWaiting signalled => intro hfalse; cases hfalse
      | peeked b =>
        rw [hcs] at hcons
        exact ⟨by dsimp only; omega, by rw [hb]; exact hcons.2⟩
      | read b e =>
        rw [hcs] at hcons
        exact ⟨by dsimp only; omega, by rw [hb]; exact hcons.2.1, by rw [hm]; exact hcons.2.2⟩
      | popWaiting b e signalled => rw [hcs] at hcons; exact hcons
    · have hnat : (s.ring.countData + 1).toNat = s.ring.countData.toNat + 1 := by omega
      have hcast : ((s.ring.countData.toNat : Nat) : Int) = s.ring.countData := by omega
      simp only [RingBuffer.queued, hd, hb, hm, hnat, window_succ, hcast]
      rw [← haddr, hmem, ← List.append_assoc, h.history]
      rfl
  · cases hs

theorem inv_cancel (h : Inv s) (hs : s.cancel = some s') : Inv s' := by
  have key : ∀ a, s.producer.address = some a →
      ∃ ring', ringCancel s.ring = .done ring' ∧ Inv { s with ring := ring', producer := .idle } := by
    intro a ha
    obtain ⟨hres, -⟩ := producer_apart h ha
    obtain ⟨ring', hdone, hc, hres', hd, hb, hm, -, hready⟩ := h.consistent.cancel hres
    refine ⟨ring', hdone, hc, hres', consumerInv_of_same h.consumer hd hb hm hready, ?_, h.alive⟩
    simp only [RingBuffer.queued, hd, hb, hm]
    exact h.history
  unfold cancel at hs
  split at hs
  · rename_i a heq
    obtain ⟨ring', hdone, hinv⟩ := key a (by rw [heq]; rfl)
    rw [hdone] at hs
    cases hs
    exact hinv
  · rename_i a d heq
    obtain ⟨ring', hdone, hinv⟩ := key a (by rw [heq]; rfl)
    rw [hdone] at hs
    cases hs
    exact hinv
  · cases hs

theorem inv_peekTake (h : Inv s) : Inv s.peekTake := by
  unfold peekTake
  split
  · rename_i address hdone
    obtain ⟨hready, haddr⟩ := ringPeek_done hdone
    have hpos : 0 < s.ring.countData := by
      have hne : ¬s.ring.countData = 0 := by
        rw [← h.consistent.data_ready, hready]
        decide
      have := h.consistent.data_nonneg
      omega
    exact ⟨h.consistent, h.producer, ⟨hpos, haddr⟩, h.history, h.alive⟩
  · rename_i hwait
    refine ⟨h.consistent, h.producer, ?_, h.history, h.alive⟩
    intro _
    by_contra hready
    exact hwait s.ring.baseData (if_neg hready)

theorem inv_peek (h : Inv s) (hs : s.peek = some s') : Inv s' := by
  unfold peek at hs
  split at hs <;> cases hs
  exact inv_peekTake h

theorem inv_read (h : Inv s) (hs : s.read = some s') : Inv s' := by
  unfold read at hs
  have hc := h.consumer
  split at hs
  · rename_i a heq
    rw [heq] at hc
    cases hs
    exact ⟨h.consistent, h.producer, ⟨hc.1, hc.2, rfl⟩, h.history, h.alive⟩
  · rename_i a d heq
    rw [heq] at hc
    cases hs
    exact ⟨h.consistent, h.producer, ⟨hc.1, hc.2.1, rfl⟩, h.history, h.alive⟩
  · cases hs

theorem queued_cons (h : Inv s) (hpos : 0 < s.ring.countData) :
    s.ring.queued = s.ring.datagrams s.ring.baseData ::
      window maxBlocksQueued s.ring.datagrams (slot maxBlocksQueued s.ring.baseData 1)
        (s.ring.countData - 1).toNat := by
  have hnat : s.ring.countData.toNat = (s.ring.countData - 1).toNat + 1 := by omega
  rw [RingBuffer.queued, hnat, window_cons,
    slot_zero h.consistent.base_nonneg h.consistent.base_lt]

theorem inv_pop (h : Inv s) (hs : s.pop = some s') : Inv s' := by
  unfold pop at hs
  have hcons := h.consumer
  split at hs
  · rename_i a d heq
    rw [heq] at hcons
    obtain ⟨hpos, haddr, hmem⟩ := hcons
    obtain ⟨ring', hdone, hc, hres, hd, hb, hm, hspace⟩ := h.consistent.pop hpos
    cases hs
    simp only [popTake, hdone]
    refine ⟨hc, ?_, trivial, ?_, h.alive⟩
    · have hp := h.producer
      -- popping moves base and length together, so the slot behind the data stays put
      have hslot : slot maxBlocksQueued ring'.baseData ring'.countData =
          slot maxBlocksQueued s.ring.baseData s.ring.countData := by
        rw [hb, hd, slot_slot]
        congr 1
        omega
      cases hps : s.producer with
      | idle => rw [hps] at hp; exact hres.trans hp
      | waiting next signalled =>
        rw [hps] at hp
        exact ⟨hres.trans hp.1, hp.2.1.trans hslot.symm, fun hfalse => by cases hfalse⟩
      | reserved b => rw [hps] at hp; exact ⟨hres.trans hp.1, hp.2.trans hslot.symm⟩
      | written b e =>
        rw [hps] at hp
        exact ⟨hres.trans hp.1, hp.2.1.trans hslot.symm, by rw [hm]; exact hp.2.2⟩
    · have hq : s.ring.queued = d :: ring'.queued := by
        rw [queued_cons h hpos, ← hmem, haddr, RingBuffer.queued, hm, hb, hd]
      rw [h.history, hq, List.append_assoc]
      rfl
  · cases hs

theorem inv_consumerWakes (h : Inv s) (hs : s.consumerWakes = some s') : Inv s' := by
  unfold consumerWakes at hs
  have hc := h.consumer
  split at hs
  · cases hs
    exact inv_peekTake h
  · rename_i heq
    rw [heq] at hc
    exact hc.elim
  · cases hs

end Steps

theorem inv_step {s s' : Threads α} (action : Action α) (h : Inv s)
    (hs : s.step action = some s') : Inv s' := by
  unfold step at hs
  rw [if_neg (by simp [h.alive])] at hs
  cases action with
  | full =>
    dsimp only [full] at hs
    split at hs <;> cases hs
    exact h
  | reserve => exact inv_reserve h hs
  | producerWakes => exact inv_producerWakes h hs
  | write d => exact inv_write h hs
  | confirm => exact inv_confirm h hs
  | cancel => exact inv_cancel h hs
  | peek => exact inv_peek h hs
  | consumerWakes => exact inv_consumerWakes h hs
  | read => exact inv_read h hs
  | pop => exact inv_pop h hs

theorem run_inv {datagrams : Int → α} {actions : List (Action α)} {s : Threads α}
    (h : run step (start datagrams) actions = some s) : Inv s :=
  run_invariant (fun _ action _ hi hs => inv_step action hi hs) (inv_start datagrams) h

section Refinement
variable {s s' : Threads α}

theorem confirm_visible (h : Inv s) (hs : s.step .confirm = some s') :
    ∃ a d, s.producer = .written a d ∧ s'.confirmed = s.confirmed ++ [d] ∧
      s'.consumed = s.consumed ∧ s'.producer = .idle := by
  unfold step at hs
  rw [if_neg (by simp [h.alive])] at hs
  dsimp only [confirm] at hs
  have hp := h.producer
  split at hs
  · rename_i a d heq
    rw [heq] at hp
    obtain ⟨ring', hdone, -⟩ := h.consistent.confirm hp.1
    rw [hdone] at hs
    cases hs
    exact ⟨a, d, heq, rfl, rfl, rfl⟩
  · cases hs

theorem pop_visible (h : Inv s) (hs : s.step .pop = some s') :
    ∃ a d, s.consumer = .read a d ∧ s'.consumed = s.consumed ++ [d] ∧
      s'.confirmed = s.confirmed ∧ s'.consumer = .idle := by
  unfold step at hs
  rw [if_neg (by simp [h.alive])] at hs
  dsimp only [pop] at hs
  have hc := h.consumer
  split at hs
  · rename_i a d heq
    rw [heq] at hc
    obtain ⟨ring', hdone, -⟩ := h.consistent.pop hc.1
    cases hs
    refine ⟨a, d, heq, ?_⟩
    simp only [popTake, hdone, and_self]
  · cases hs

theorem reserveTake_logs (s : Threads α) (next : Int) :
    (s.reserveTake next).confirmed = s.confirmed ∧ (s.reserveTake next).consumed = s.consumed := by
  unfold reserveTake
  split <;> exact ⟨rfl, rfl⟩

@[simp] theorem reserveTake_consumer (s : Threads α) (next : Int) :
    (s.reserveTake next).consumer = s.consumer := by
  unfold reserveTake
  split <;> rfl

@[simp] theorem peekTake_producer (s : Threads α) : s.peekTake.producer = s.producer := by
  unfold peekTake
  split <;> rfl

theorem popTake_producer (s : Threads α) (address : Int) (d : α) :
    (s.popTake address d).producer = s.producer ∨
      (s.popTake address d).producer = s.producer.signal := by
  unfold popTake
  split
  · exact Or.inr rfl
  · exact Or.inl rfl

theorem peekTake_logs (s : Threads α) :
    s.peekTake.confirmed = s.confirmed ∧ s.peekTake.consumed = s.consumed := by
  unfold peekTake
  split <;> exact ⟨rfl, rfl⟩

theorem silent_logs {action : Action α} (h : Inv s) (hs : s.step action = some s')
    (hc : action ≠ .confirm) (hp : action ≠ .pop) :
    s'.confirmed = s.confirmed ∧ s'.consumed = s.consumed := by
  unfold step at hs
  rw [if_neg (by simp [h.alive])] at hs
  cases action with
  | full =>
    dsimp only [full] at hs
    split at hs <;> cases hs
    exact ⟨rfl, rfl⟩
  | reserve =>
    dsimp only [reserve] at hs
    split at hs <;> cases hs
    exact reserveTake_logs s _
  | producerWakes =>
    dsimp only [producerWakes] at hs
    split at hs <;> cases hs
    exact reserveTake_logs s _
  | write d =>
    dsimp only [write] at hs
    split at hs <;> cases hs <;> exact ⟨rfl, rfl⟩
  | confirm => exact absurd rfl hc
  | cancel =>
    dsimp only [cancel] at hs
    split at hs
    · split at hs <;> cases hs <;> exact ⟨rfl, rfl⟩
    · split at hs <;> cases hs <;> exact ⟨rfl, rfl⟩
    · cases hs
  | peek =>
    dsimp only [peek] at hs
    split at hs <;> cases hs
    exact peekTake_logs s
  | consumerWakes =>
    have hcons := h.consumer
    dsimp only [consumerWakes] at hs
    split at hs
    · cases hs
      exact peekTake_logs s
    · rename_i heq
      rw [heq] at hcons
      exact hcons.elim
    · cases hs
  | read =>
    dsimp only [read] at hs
    split at hs <;> cases hs <;> exact ⟨rfl, rfl⟩
  | pop => exact absurd rfl hp

theorem confirmed_kept {action : Action α} (h : Inv s) (hs : s.step action = some s')
    (hc : action ≠ .confirm) : s'.confirmed = s.confirmed := by
  by_cases hp : action = .pop
  · subst hp
    obtain ⟨_, _, _, _, hconf, _⟩ := pop_visible h hs
    exact hconf
  · exact (silent_logs h hs hc hp).1

theorem queued_of_logs (h : Inv s) (h' : Inv s') (hconf : s'.confirmed = s.confirmed)
    (hcons : s'.consumed = s.consumed) : s'.ring.queued = s.ring.queued := by
  have heq := h'.history
  rw [hconf, hcons, h.history] at heq
  exact (List.append_cancel_left heq).symm

theorem step_silent {action : Action α} (h : Inv s) (hs : s.step action = some s')
    (hv : s.visible action = none) : s'.ring.queued = s.ring.queued := by
  have h' := inv_step action h hs
  by_cases hc : action = .confirm
  · subst hc
    obtain ⟨a, d, heq, -⟩ := confirm_visible h hs
    simp [visible, heq] at hv
  by_cases hp : action = .pop
  · subst hp
    obtain ⟨a, d, heq, -⟩ := pop_visible h hs
    simp [visible, heq] at hv
  obtain ⟨hconf, hcons⟩ := silent_logs h hs hc hp
  exact queued_of_logs h h' hconf hcons

theorem step_visible {action : Action α} {op : QueueOp α} (h : Inv s)
    (hs : s.step action = some s') (hv : s.visible action = some op) :
    QueueStep 4096 s.ring.queued op s'.ring.queued := by
  have h' := inv_step action h hs
  have hist := h.history
  have hist' := h'.history
  cases action with
  | confirm =>
    obtain ⟨a, d, heq, hconf, hcons, -⟩ := confirm_visible h hs
    simp only [visible, heq, Option.some.injEq] at hv
    subst hv
    rw [hconf, hcons, hist, List.append_assoc] at hist'
    have hq := List.append_cancel_left hist'
    have hlen := h'.consistent.queued_le
    rw [← hq] at hlen ⊢
    exact .enqueue _ _ (by simp at hlen; omega)
  | pop =>
    obtain ⟨a, d, heq, hcons, hconf, -⟩ := pop_visible h hs
    simp only [visible, heq, Option.some.injEq] at hv
    subst hv
    rw [hconf, hcons, hist, List.append_assoc] at hist'
    have hq : s.ring.queued = d :: s'.ring.queued := List.append_cancel_left hist'
    rw [hq]
    exact .dequeue _ _
  | _ => simp [visible] at hv

end Refinement

section Sides
variable {s s' : Threads α} {action : Action α}

theorem consumer_kept (hs : s.step action = some s') (hside : action.consumes = false) :
    s'.consumer = s.consumer ∨ s'.consumer = s.consumer.signal := by
  unfold step at hs
  split at hs
  · cases hs
  · cases action with
    | full =>
      dsimp only [full] at hs
      split at hs <;> cases hs
      exact Or.inl rfl
    | reserve =>
      dsimp only [reserve] at hs
      split at hs <;> cases hs
      exact Or.inl (reserveTake_consumer s _)
    | producerWakes =>
      dsimp only [producerWakes] at hs
      split at hs <;> cases hs
      exact Or.inl (reserveTake_consumer s _)
    | write d =>
      dsimp only [write] at hs
      split at hs <;> cases hs <;> exact Or.inl rfl
    | confirm =>
      dsimp only [confirm] at hs
      split at hs
      · split at hs <;> cases hs
        · exact Or.inr rfl
        · exact Or.inl rfl
      · cases hs
    | cancel =>
      dsimp only [cancel] at hs
      split at hs
      · split at hs <;> cases hs <;> exact Or.inl rfl
      · split at hs <;> cases hs <;> exact Or.inl rfl
      · cases hs
    | _ => cases hside

theorem producer_kept (hs : s.step action = some s') (hside : action.consumes = true) :
    s'.producer = s.producer ∨ s'.producer = s.producer.signal := by
  unfold step at hs
  split at hs
  · cases hs
  · cases action with
    | peek =>
      dsimp only [peek] at hs
      split at hs <;> cases hs
      exact Or.inl (peekTake_producer s)
    | consumerWakes =>
      dsimp only [consumerWakes] at hs
      split at hs <;> cases hs
      · exact Or.inl (peekTake_producer s)
      · exact popTake_producer s _ _
    | read =>
      dsimp only [read] at hs
      split at hs <;> cases hs <;> exact Or.inl rfl
    | pop =>
      dsimp only [pop] at hs
      split at hs <;> cases hs
      exact popTake_producer s _ _
    | _ => cases hside

theorem read_kept {a : Int} {d : α} (hs : s.step action = some s') (hside : action.consumes = false)
    (hread : s.consumer = .read a d) : s'.consumer = .read a d := by
  rcases consumer_kept hs hside with heq | heq <;> simp only [heq, hread, Consumer.signal]

theorem idle_kept (hs : s.step action = some s') (hside : action.consumes = true)
    (hidle : s.producer = .idle) : s'.producer = .idle := by
  rcases producer_kept hs hside with heq | heq <;> simp only [heq, hidle, Producer.signal]

theorem written_kept {a : Int} {d : α} (hs : s.step action = some s')
    (hside : action.consumes = true) (hwritten : s'.producer = .written a d) :
    s.producer = .written a d := by
  rcases producer_kept hs hside with heq | heq
  · rw [← heq, hwritten]
  · rw [heq] at hwritten
    cases hp : s.producer with
    | written b e =>
      rw [hp] at hwritten
      exact hwritten
    | _ =>
      rw [hp] at hwritten
      cases hwritten

theorem reserveTake_not_written {next a : Int} {d : α}
    (hfree : ∀ a d, s.producer ≠ .written a d) : (s.reserveTake next).producer ≠ .written a d := by
  unfold reserveTake
  split
  · exact fun h => by cases h
  · exact fun h => by cases h
  · exact hfree a d

theorem reserve_not_written {a : Int} {d : α} (hs : s.step .reserve = some s') :
    s'.producer ≠ .written a d := by
  unfold step at hs
  split at hs
  · cases hs
  · dsimp only [reserve] at hs
    split at hs <;> cases hs
    rename_i hidle
    exact reserveTake_not_written fun _ _ h => by rw [hidle] at h; cases h

theorem producerWakes_not_written {a : Int} {d : α} (hs : s.step .producerWakes = some s') :
    s'.producer ≠ .written a d := by
  unfold step at hs
  split at hs
  · cases hs
  · dsimp only [producerWakes] at hs
    split at hs <;> cases hs
    rename_i hwaiting
    exact reserveTake_not_written fun _ _ h => by rw [hwaiting] at h; cases h

theorem write_written {a : Int} {d e : α} (hs : s.step (.write e) = some s')
    (hw : s'.producer = .written a d) : d = e := by
  unfold step at hs
  split at hs
  · cases hs
  · dsimp only [write] at hs
    split at hs <;> cases hs <;> cases hw <;> rfl

theorem producerWakes_busy (hs : s.step .producerWakes = some s') : s.producer ≠ .idle := by
  unfold step at hs
  split at hs
  · cases hs
  · dsimp only [producerWakes] at hs
    split at hs <;> cases hs
    rename_i hwaiting
    exact fun h => by rw [hwaiting] at h; cases h

theorem consumerWakes_not_read {a : Int} {d : α} (hs : s.step .consumerWakes = some s') :
    s.consumer ≠ .read a d := by
  unfold step at hs
  split at hs
  · cases hs
  · intro hread
    dsimp only [consumerWakes] at hs
    rw [hread] at hs
    cases hs

theorem read_head (h : Inv s) {a : Int} {d : α} (hread : s.consumer = .read a d) :
    ∃ rest, s.ring.queued = d :: rest := by
  have hc := h.consumer
  rw [hread] at hc
  obtain ⟨hpos, rfl, hmem⟩ := hc
  exact ⟨_, hmem ▸ queued_cons h hpos⟩

theorem consumer_address (h : Inv s) {a : Int} (ha : s.consumer.address = some a) :
    0 < s.ring.countData ∧ a = s.ring.baseData := by
  have hc := h.consumer
  cases hcs : s.consumer with
  | idle => simp [hcs, Consumer.address] at ha
  | peekWaiting signalled => simp [hcs, Consumer.address] at ha
  | peeked b =>
    simp only [hcs, Consumer.address, Option.some.injEq] at ha
    rw [hcs] at hc
    exact ⟨hc.1, ha ▸ hc.2⟩
  | read b d =>
    simp only [hcs, Consumer.address, Option.some.injEq] at ha
    rw [hcs] at hc
    exact ⟨hc.1, ha ▸ hc.2.1⟩
  | popWaiting b d signalled =>
    rw [hcs] at hc
    exact hc.elim

theorem consumer_head (h : Inv s) {a : Int} (ha : s.consumer.address = some a) :
    s.ring.queued.head? = some (s.ring.datagrams a) := by
  obtain ⟨hpos, rfl⟩ := consumer_address h ha
  rw [queued_cons h hpos]
  rfl

theorem producer_slot_free (h : Inv s) {a : Int} (ha : s.producer.address = some a) {k : Int}
    (hk : 0 ≤ k) (hlt : k < s.ring.countData) : a ≠ slot maxBlocksQueued s.ring.baseData k := by
  obtain ⟨hres, hslot⟩ := producer_apart h ha
  have hbound := h.consistent.bound
  intro heq
  have hsame := slot_inj (by omega) (by omega) hk (by omega) (hslot.symm.trans heq)
  omega

theorem producer_not_consumer (h : Inv s) {a : Int} (ha : s.producer.address = some a) :
    s.consumer.address ≠ some a := by
  intro hsame
  obtain ⟨hpos, hbase⟩ := consumer_address h hsame
  have h0 := slot_zero h.consistent.base_nonneg h.consistent.base_lt
  exact producer_slot_free h ha le_rfl hpos (hbase.trans h0.symm)

end Sides

/-- Every interleaving of the two threads is a run of the bounded queue on what the
producer wrote and the consumer read; the consumer's slot shows the head of the
queue throughout, and the producer's slot is neither that one nor a queued one. -/
theorem ring_refines_queue {datagrams : Int → α} {actions : List (Action α)} {s : Threads α}
    (h : run step (start datagrams) actions = some s) :
    let ops := labels step visible (start datagrams) actions
    Trace (QueueStep 4096) [] ops s.ring.queued ∧
    enqueued ops = dequeued ops ++ s.ring.queued ∧
    (∀ a, s.consumer.address = some a → s.ring.queued.head? = some (s.ring.datagrams a)) ∧
    (∀ a d, s.consumer = .read a d → s.ring.queued.head? = some d) ∧
    ∀ a, s.producer.address = some a → s.consumer.address ≠ some a ∧
      ∀ k : Int, 0 ≤ k → k < s.ring.countData → a ≠ slot maxBlocksQueued s.ring.baseData k := by
  intro ops
  have hinv := run_inv h
  have htrace : Trace (QueueStep 4096) [] ops s.ring.queued :=
    run_simulates visible (fun t : Threads α => t.ring.queued)
      (fun _ action _ hi hs => inv_step action hi hs)
      (fun _ _ _ hi hs hv => step_silent hi hs hv)
      (fun _ _ _ _ hi hs hv => step_visible hi hs hv) (inv_start datagrams) h
  refine ⟨htrace, by simpa using queue_conservation htrace, fun a ha => consumer_head hinv ha, ?_, ?_⟩
  · intro a d hread
    obtain ⟨rest, hqueued⟩ := read_head hinv hread
    rw [hqueued]
    rfl
  · intro a ha
    exact ⟨producer_not_consumer hinv ha, fun k hk hlt => producer_slot_free hinv ha hk hlt⟩

def sampleActions : List (Action Nat) :=
  [.reserve, .write 7, .confirm, .peek, .reserve, .write 8, .read, .confirm, .pop, .reserve]

theorem ring_refines_queue_sample :
    let s := (run step (start fun _ => 0) sampleActions).get (by decide)
    let ops := labels step visible (start fun _ => 0) sampleActions
    Trace (QueueStep 4096) [] ops s.ring.queued ∧
    enqueued ops = dequeued ops ++ s.ring.queued ∧
    (∀ a, s.consumer.address = some a → s.ring.queued.head? = some (s.ring.datagrams a)) ∧
    (∀ a d, s.consumer = .read a d → s.ring.queued.head? = some d) ∧
    ∀ a, s.producer.address = some a → s.consumer.address ≠ some a ∧
      ∀ k : Int, 0 ≤ k → k < s.ring.countData → a ≠ slot maxBlocksQueued s.ring.baseData k :=
  ring_refines_queue (Option.some_get _).symm

end Threads

end TsunamiUdp.Client.Ring

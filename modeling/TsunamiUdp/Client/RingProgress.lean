import TsunamiUdp.Client.RingThreads

/-! What a thread gets done on the ring when it does not have to wait. -/
namespace TsunamiUdp.Client.Ring
open Library

namespace Threads
variable {α : Type} {s : Threads α}

structure Stored (s : Threads α) (d : α) (t : Threads α) : Prop where
  inv : Inv t
  producer : t.producer = .idle
  consumer : t.consumer = s.consumer.signal
  confirmed : t.confirmed = s.confirmed ++ [d]
  consumed : t.consumed = s.consumed
  countData : t.ring.countData = s.ring.countData + 1

theorem Inv.running (h : Inv s) : ¬ s.fatal = true := by
  rw [h.alive]
  decide

theorem reserve_done (h : Inv s) (hidle : s.producer = .idle)
    (hroom : s.ring.countData < maxBlocksQueued) :
    ∃ ring a, s.step .reserve = some { s with ring := ring, producer := .reserved a } ∧
      ring.countData = s.ring.countData := by
  have hfree : s.ring.countReserved = 0 := by
    have hp := h.producer
    rw [hidle] at hp
    exact hp
  rcases h.consistent.reserveTake hfree (Consistent.reserveNext_eq hfree) with
    ⟨-, hspace⟩ | ⟨ring, hdone, -, -, hdata, -⟩
  · rw [h.consistent.space_ready, hfree] at hspace
    omega
  · refine ⟨ring, ringReserveNext s.ring, ?_, hdata⟩
    rw [step, if_neg h.running]
    dsimp only [reserve]
    rw [hidle]
    simp only [reserveTake, hdone]

theorem confirm_done (h : Inv s) {a : Int} {d : α} (hwritten : s.producer = .written a d) :
    ∃ ring, s.step .confirm = some { s with
        ring := ring
        producer := .idle
        consumer := s.consumer.signal
        confirmed := s.confirmed ++ [d] } ∧ ring.countData = s.ring.countData + 1 := by
  have hheld : s.ring.countReserved = 1 := (producer_apart h (by rw [hwritten]; rfl)).1
  obtain ⟨ring, hdone, -, -, hdata, -⟩ := h.consistent.confirm hheld
  refine ⟨ring, ?_, hdata⟩
  rw [step, if_neg h.running]
  dsimp only [confirm]
  rw [hwritten]
  simp only [hdone]

theorem insert_done (h : Inv s) (hidle : s.producer = .idle)
    (hroom : s.ring.countData < maxBlocksQueued) :
    ∃ held a, s.step .reserve = some held ∧ held.producer = .reserved a ∧
      ∀ d, ∃ written t, held.step (.write d) = some written ∧ written.step .confirm = some t ∧
        Stored s d t := by
  obtain ⟨ring, a, hreserve, hdata⟩ := reserve_done h hidle hroom
  refine ⟨_, a, hreserve, rfl, fun d => ?_⟩
  have hheld := inv_step _ h hreserve
  have hwrite : step { s with ring := ring, producer := .reserved a } (.write d) =
      some { s with ring := ring.store a d, producer := .written a d } := by
    rw [step]
    exact if_neg h.running
  obtain ⟨after, hconfirm, hafter⟩ := confirm_done (inv_step _ hheld hwrite) rfl
  exact ⟨_, _, hwrite, hconfirm, inv_step _ (inv_step _ hheld hwrite) hconfirm, rfl, rfl, rfl, rfl,
    hafter.trans (congrArg (· + 1) hdata)⟩

theorem Stored.queued {t : Threads α} {d : α} (h : Inv s) (hs : Stored s d t) :
    t.ring.queued = s.ring.queued ++ [d] := by
  have hist := hs.inv.history
  rw [hs.confirmed, hs.consumed, h.history, List.append_assoc] at hist
  exact (List.append_cancel_left hist).symm

theorem peekTake_done (h : Inv s) (hdata : 0 < s.ring.countData) :
    s.peekTake = { s with consumer := .peeked s.ring.baseData } := by
  have hready : ¬ s.ring.dataReady = false := by
    rw [h.consistent.data_ready]
    omega
  simp only [peekTake, ringPeek, if_neg hready]

theorem peek_done (h : Inv s) (hdata : 0 < s.ring.countData) :
    (s.consumer = .idle → s.step .peek = some { s with consumer := .peeked s.ring.baseData }) ∧
      ∀ signalled, s.consumer = .peekWaiting signalled →
        s.step .consumerWakes = some { s with consumer := .peeked s.ring.baseData } := by
  constructor
  · intro hidle
    rw [step, if_neg h.running]
    dsimp only [peek]
    rw [hidle, peekTake_done h hdata]
  · intro signalled hwaits
    rw [step, if_neg h.running]
    dsimp only [consumerWakes]
    rw [hwaits]
    exact congrArg some (peekTake_done h hdata)

theorem read_done (h : Inv s) {a : Int} (hpeeked : s.consumer = .peeked a) :
    s.step .read = some { s with consumer := .read a (s.ring.datagrams a) } := by
  rw [step, if_neg h.running]
  dsimp only [read]
  rw [hpeeked]

theorem wake_done (h : Inv s) {next : Int} {signalled : Bool} (hwaits : s.producer = .waiting next signalled)
    (hroom : s.ring.countData < maxBlocksQueued) :
    ∃ ring, s.step .producerWakes = some { s with ring := ring, producer := .reserved next } := by
  have hp := h.producer
  rw [hwaits] at hp
  obtain ⟨hfree, hnext, -⟩ := hp
  rcases h.consistent.reserveTake hfree hnext with ⟨-, hspace⟩ | ⟨ring, hdone, -⟩
  · rw [h.consistent.space_ready, hfree] at hspace
    omega
  · refine ⟨ring, ?_⟩
    rw [step, if_neg h.running]
    dsimp only [producerWakes]
    rw [hwaits]
    simp only [reserveTake, hdone]

theorem write_done (h : Inv s) {a : Int} (hheld : s.producer = .reserved a) (d : α) :
    s.step (.write d) = some { s with ring := s.ring.store a d, producer := .written a d } := by
  rw [step, if_neg h.running]
  dsimp only [write]
  rw [hheld]

structure Popped (s : Threads α) (d : α) (t : Threads α) : Prop where
  inv : Inv t
  producer : t.producer = s.producer.signal
  consumer : t.consumer = .idle
  confirmed : t.confirmed = s.confirmed
  consumed : t.consumed = s.consumed ++ [d]
  countData : t.ring.countData = s.ring.countData - 1

theorem pop_done (h : Inv s) {a : Int} {d : α} (hread : s.consumer = .read a d) :
    ∃ t, s.step .pop = some t ∧ Popped s d t := by
  have hc := h.consumer
  rw [hread] at hc
  obtain ⟨ring, hdone, -, -, hdata, -⟩ := h.consistent.pop hc.1
  have hpop : s.step .pop = some { s with
      ring := ring
      consumer := .idle
      producer := s.producer.signal
      consumed := s.consumed ++ [d] } := by
    rw [step, if_neg h.running]
    dsimp only [pop]
    rw [hread]
    simp only [popTake, hdone]
  exact ⟨_, hpop, inv_step _ h hpop, rfl, rfl, rfl, rfl, hdata⟩

end Threads

end TsunamiUdp.Client.Ring

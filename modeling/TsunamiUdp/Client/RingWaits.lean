import TsunamiUdp.Client.RingProgress

/-! Who waits on the ring, for any use of it by one producer and one consumer. -/
namespace TsunamiUdp.Client.Ring
open Library

namespace Threads
variable {α : Type}

/-- A step of the threads, `ring_full` from anywhere, and a slot that is handed on as it
is: confirmed without having been written, or popped without having been read. -/
inductive Move (α : Type)
  | step (action : Action α)
  | full
  | confirmUnwritten
  | popUnread

def confirmUnwritten (s : Threads α) : Option (Threads α) :=
  match s.producer with
  | .reserved a => { s with producer := .written a (s.ring.datagrams a) }.step .confirm
  | _ => none

def popUnread (s : Threads α) : Option (Threads α) :=
  match s.consumer with
  | .peeked a => { s with consumer := .read a (s.ring.datagrams a) }.step .pop
  | _ => none

def move (s : Threads α) : Move α → Option (Threads α)
  | .step action => s.step action
  | .full => if s.fatal then none else some s
  | .confirmUnwritten => s.confirmUnwritten
  | .popUnread => s.popUnread

def Move.keepsSpace : Move α → Bool
  | .step action => action.consumes
  | .full | .popUnread => true
  | .confirmUnwritten => false

end Threads

def Producer.waits {α : Type} : Producer α → Option Bool
  | .waiting _ signalled => some signalled
  | _ => none

def Consumer.waits {α : Type} : Consumer α → Option Bool
  | .peekWaiting signalled | .popWaiting _ _ signalled => some signalled
  | _ => none

def Blocked (waits : Option Bool) (flag : Bool) : Prop :=
  waits = some false ∨ waits.isSome = true ∧ flag = false

namespace Threads
variable {α : Type} {s s' : Threads α}

structure Sound (s : Threads α) : Prop where
  ring : Consistent s.ring
  alive : s.fatal = false
  producer : s.producer.waits = some false → s.ring.spaceReady = false
  consumer : s.consumer.waits = some false → s.ring.dataReady = false
  goesOn : ¬(Blocked s.producer.waits s.ring.spaceReady ∧ Blocked s.consumer.waits s.ring.dataReady)

theorem inv_move (m : Move α) (h : Inv s) (hs : s.move m = some s') : Inv s' := by
  cases m with
  | step action => exact inv_step action h hs
  | full =>
    dsimp only [move] at hs
    split at hs <;> cases hs
    exact h
  | confirmUnwritten =>
    dsimp only [move, confirmUnwritten] at hs
    split at hs
    · rename_i a heq
      have hp := h.producer
      rw [heq] at hp
      have hinv : Inv { s with producer := .written a (s.ring.datagrams a) } :=
        ⟨h.consistent, ⟨hp.1, hp.2, rfl⟩, h.consumer, h.history, h.alive⟩
      exact inv_step .confirm hinv hs
    · cases hs
  | popUnread =>
    dsimp only [move, popUnread] at hs
    split at hs
    · rename_i a heq
      have hc := h.consumer
      rw [heq] at hc
      have hinv : Inv { s with consumer := .read a (s.ring.datagrams a) } :=
        ⟨h.consistent, h.producer, ⟨hc.1, hc.2, rfl⟩, h.history, h.alive⟩
      exact inv_step .pop hinv hs
    · cases hs

theorem Inv.producer_waits (h : Inv s) (hwaits : s.producer.waits = some false) :
    s.ring.spaceReady = false := by
  have hp := h.producer
  cases hcase : s.producer with
  | waiting next signalled =>
    rw [hcase] at hp hwaits
    cases hwaits
    exact hp.2.2 rfl
  | _ =>
    rw [hcase] at hwaits
    cases hwaits

theorem Inv.consumer_waits (h : Inv s) (hwaits : s.consumer.waits = some false) :
    s.ring.dataReady = false := by
  have hc := h.consumer
  cases hcase : s.consumer with
  | peekWaiting signalled =>
    rw [hcase] at hc hwaits
    cases hwaits
    exact hc rfl
  | popWaiting a d signalled =>
    rw [hcase] at hc
    exact hc.elim
  | _ =>
    rw [hcase] at hwaits
    cases hwaits

theorem flag_of_blocked {waits : Option Bool} {flag : Bool} (h : Blocked waits flag)
    (hwaits : waits = some false → flag = false) : flag = false := by
  rcases h with hunsignalled | ⟨-, hflag⟩
  · exact hwaits hunsignalled
  · exact hflag

theorem flags_of_consistent {ring : RingBuffer α} (h : Consistent ring)
    (hspace : ring.spaceReady = false) : ¬ring.dataReady = false := by
  intro hdata
  rw [h.space_ready] at hspace
  rw [h.data_ready] at hdata
  have hreserved := h.reserved_range
  simp only [maxBlocksQueued] at hspace
  omega

theorem Inv.sound (h : Inv s) : Sound s where
  ring := h.consistent
  alive := h.alive
  producer := h.producer_waits
  consumer := h.consumer_waits
  goesOn := by
    intro ⟨hproducer, hconsumer⟩
    have hspace := flag_of_blocked hproducer h.producer_waits
    exact flags_of_consistent h.consistent hspace (flag_of_blocked hconsumer h.consumer_waits)

theorem popTake_spaceReady (a : Int) (d : α) (hspace : s.ring.spaceReady = true) :
    (s.popTake a d).ring.spaceReady = true := by
  unfold popTake ringPop
  split
  · rename_i heq
    split at heq <;> cases heq
    rfl
  · exact hspace

@[simp] theorem peekTake_ring (s : Threads α) : s.peekTake.ring = s.ring := by
  unfold peekTake
  split <;> rfl

theorem consumes_spaceReady {action : Action α} (hs : s.step action = some s')
    (hside : action.consumes = true) (hspace : s.ring.spaceReady = true) :
    s'.ring.spaceReady = true := by
  unfold step at hs
  split at hs
  · cases hs
  · cases action with
    | peek =>
      dsimp only [peek] at hs
      split at hs <;> cases hs
      rwa [peekTake_ring]
    | consumerWakes =>
      dsimp only [consumerWakes] at hs
      split at hs <;> cases hs
      · rwa [peekTake_ring]
      · exact popTake_spaceReady _ _ hspace
    | read =>
      dsimp only [read] at hs
      split at hs <;> cases hs <;> exact hspace
    | pop =>
      dsimp only [pop] at hs
      split at hs <;> cases hs
      exact popTake_spaceReady _ _ hspace
    | _ => cases hside

/-- What `ring_full` has told the producer stays true until it reserves. -/
theorem space_kept {m : Move α} (hs : s.move m = some s') (hside : m.keepsSpace = true)
    (hspace : s.producer = .idle ∧ s.ring.spaceReady = true) :
    s'.producer = .idle ∧ s'.ring.spaceReady = true := by
  cases m with
  | step action =>
    exact ⟨idle_kept hs hside hspace.1, consumes_spaceReady hs hside hspace.2⟩
  | full =>
    dsimp only [move] at hs
    split at hs <;> cases hs
    exact hspace
  | confirmUnwritten => cases hside
  | popUnread =>
    dsimp only [move, popUnread] at hs
    split at hs
    · exact ⟨idle_kept hs rfl hspace.1, consumes_spaceReady hs rfl hspace.2⟩
    · cases hs

theorem reserve_reserves (h : Inv s) (hidle : s.producer = .idle) (hspace : s.ring.spaceReady = true) :
    ∃ t a, s.move (.step .reserve) = some t ∧ t.producer = .reserved a := by
  have hfree : s.ring.countReserved = 0 := by
    have hp := h.producer
    rw [hidle] at hp
    exact hp
  have hnot : ¬s.ring.spaceReady = false := by simp [hspace]
  rw [h.consistent.space_ready, hfree] at hnot
  have hbound := h.consistent.bound
  obtain ⟨ring, a, hs, -⟩ := reserve_done h hidle (by omega)
  exact ⟨_, a, hs, rfl⟩

/-- In every reachable state the counters and flags agree, no thread has ended the process,
and one of the two goes on. Whatever the consumer does after `ring_full` has returned 0,
the producer gets its slot at once. -/
theorem ring_goes_on {datagrams : Int → α} {moves : List (Move α)}
    (h : run move (start datagrams) moves = some s) :
    Sound s ∧ (s.producer = .idle → ringFull s.ring = false →
      ∀ later t, run move s later = some t → (∀ m ∈ later, m.keepsSpace = true) →
        ∃ t' a, t.move (.step .reserve) = some t' ∧ t'.producer = .reserved a) := by
  have hinv : Inv s := run_invariant (fun _ m _ hi hs => inv_move m hi hs) (inv_start datagrams) h
  refine ⟨hinv.sound, ?_⟩
  intro hidle hfull later t hrun hside
  have hspace : s.ring.spaceReady = true := by simpa [ringFull] using hfull
  clear h hfull
  induction later generalizing s with
  | nil =>
    cases hrun
    exact reserve_reserves hinv hidle hspace
  | cons m later ih =>
    obtain ⟨u, hs, hrest⟩ := run_cons_some hrun
    obtain ⟨hidle, hspace⟩ := space_kept hs (hside m List.mem_cons_self) ⟨hidle, hspace⟩
    exact ih (inv_move m hinv hs) hidle hrest (fun m' hm => hside m' (List.mem_cons_of_mem m hm)) hspace

/-- A slot confirmed as it is, the consumer ahead of it, and one more reservation. -/
theorem ring_goes_on_sample :
    let moves : List (Move Nat) := [.step .peek, .step .reserve, .confirmUnwritten, .full,
      .step .consumerWakes, .popUnread, .step .peek]
    let s := (run move (start fun _ => 0) moves).get (by decide)
    Sound s ∧ (s.producer = .idle → ringFull s.ring = false →
      ∀ later t, run move s later = some t → (∀ m ∈ later, m.keepsSpace = true) →
        ∃ t' a, t.move (.step .reserve) = some t' ∧ t'.producer = .reserved a) :=
  ring_goes_on (Option.some_get _).symm

end Threads

end TsunamiUdp.Client.Ring

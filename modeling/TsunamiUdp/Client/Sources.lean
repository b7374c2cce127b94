import TsunamiUdp.Client.Get

/-! Where the blocks come from that the client marks as received and writes: from the
datagrams that went into its buffer. -/
namespace TsunamiUdp.Client.Get
open Library TsunamiUdp.Client.Ring

def marks (s : Get) : GetAction → Option (List UInt8)
  | .confirm =>
    match s.phase with
    | .storing _ => some s.net.localDatagram
    | _ => none
  | _ => none

def writes (s : Get) : GetAction → Option (List UInt8)
  | .accept _ =>
    match s.threads.consumer with
    | .read _ datagram => if blockNumber datagram = 0 then none else some datagram
    | _ => none
  | _ => none

/-- What is on its way through the ring, and what has been through it, is good. -/
structure Sourced (good : List UInt8 → Prop) (s : Get) : Prop where
  ring : Threads.Inv s.threads
  incoming : ∀ env, s.phase = .storing env → good s.net.localDatagram
  written : ∀ a d, s.threads.producer = .written a d → blockNumber d = 0 ∨ good d
  confirmed : ∀ d ∈ s.threads.confirmed, blockNumber d = 0 ∨ good d

section Sources
variable {good : List UInt8 → Prop} {param : Parameter} {s s' : Get}

theorem Sourced.start (good : List UInt8 → Prop) (param : Parameter) (xfer : Transfer)
    (datagrams : Int → List UInt8) : Sourced good (.start param xfer datagrams) where
  ring := Threads.inv_start datagrams
  incoming := fun env h => by cases h
  written := fun a d h => by cases h
  confirmed := fun d h => by cases h

theorem Sourced.mono {good' : List UInt8 → Prop} (h : Sourced good s)
    (hgood : ∀ d, good d → good' d) : Sourced good' s :=
  ⟨h.ring, fun env he => hgood _ (h.incoming env he), fun a d hw => (h.written a d hw).imp_right (hgood d),
    fun d hd => (h.confirmed d hd).imp_right (hgood d)⟩

theorem Sourced.keep (h : Sourced good s) (hthreads : s'.threads = s.threads)
    (hincoming : ∀ env, s'.phase = .storing env → good s'.net.localDatagram) : Sourced good s' := by
  refine ⟨?_, hincoming, ?_, ?_⟩ <;> rw [hthreads]
  · exact h.ring
  · exact h.written
  · exact h.confirmed

theorem Sourced.call (h : Sourced good s) (hcall : RingCall s s')
    (hwritten : ∀ a d, s'.threads.producer = .written a d → blockNumber d = 0 ∨ good d) :
    Sourced good s' := by
  obtain ⟨action, hconfirm, hs⟩ := hcall.threads
  refine ⟨Threads.inv_step action h.ring hs, fun env he => ?_, hwritten, ?_⟩
  · rw [hcall.phase] at he
    rw [hcall.net]
    exact h.incoming env he
  · rw [Threads.confirmed_kept h.ring hs hconfirm]
    exact h.confirmed

theorem Sourced.consume {action : Action (List UInt8)} {threads : Threads (List UInt8)}
    (h : Sourced good s) (hside : action.consumes = true)
    (hs : s.threads.step action = some threads) : Sourced good (s.afterRingCall threads) :=
  h.call (ringCall_afterRingCall hside hs) fun a d hw => h.written a d (Threads.written_kept hs hside hw)

theorem Sourced.turn {env : Env} (h : Sourced good s)
    (hgood : good (buffer param s.net.localDatagram env.recv)) (hs : s.turn param env = some s') :
    Sourced good s' := by
  obtain ⟨-, hthreads, -, -, hbuffer⟩ := turn_frame hs
  refine h.keep hthreads fun e he => ?_
  rw [hbuffer e he]
  exact hgood

theorem Sourced.offers (h : Sourced good s) {d : List UInt8} (hd : s.offered = some d) :
    blockNumber d = 0 ∨ good d := by
  unfold offered at hd
  split at hd
  · rename_i env hphase
    cases hd
    exact .inr (h.incoming env hphase)
  · obtain ⟨a, -, rfl⟩ := Option.map_eq_some_iff.mp hd
    exact .inl (blockNumber_zero _)
  · cases hd

theorem Sourced.store (h : Sourced good s) (hs : s.store = some s') : Sourced good s' := by
  obtain ⟨e, he, hs⟩ := Option.bind_eq_some_iff.mp hs
  obtain ⟨threads, ht, rfl⟩ := Option.map_eq_some_iff.mp hs
  refine h.call (ringCall_withThreads (by simp) ht) fun a d hw => ?_
  rw [Threads.write_written ht hw]
  exact h.offers he

theorem Sourced.confirm (h : Sourced good s) (hs : s.confirm param = some s') : Sourced good s' := by
  obtain ⟨threads, ht, hs⟩ := confirm_cases hs
  obtain ⟨a, d, hwritten, hconf, -, hidle⟩ := Threads.confirm_visible h.ring ht
  have hring := Threads.inv_step _ h.ring ht
  have hall : ∀ e ∈ threads.confirmed, blockNumber e = 0 ∨ good e := by
    rw [hconf]
    intro e he
    rcases List.mem_append.mp he with he | he
    · exact h.confirmed e he
    · rw [List.mem_singleton.mp he]
      exact h.written a d hwritten
  have hdone : ∀ s'' : Get, s''.threads = threads → (∀ env, s''.phase ≠ .storing env) →
      Sourced good s'' := by
    intro s'' hthreads hphase
    refine ⟨?_, fun env he => absurd he (hphase env), ?_, ?_⟩ <;> rw [hthreads]
    · exact hring
    · intro b e hw
      rw [hidle] at hw
      cases hw
    · exact hall
  rcases hs with ⟨env, -, rfl⟩ | ⟨-, rfl⟩
  · obtain ⟨hthreads, -, -, hphase⟩ := settle_frame
      { s with
        net := { s.net with xfer := markReceived s.net.xfer (blockNumber s.net.localDatagram) }
        threads := threads } _ _
    exact hdone _ hthreads hphase
  · exact hdone _ rfl fun env he => by cases he

theorem Sourced.step {action : GetAction} (h : Sourced good s)
    (hgood : ∀ env, action = .turn env → good (buffer param s.net.localDatagram env.recv))
    (hs : s.step param action = some s') : Sourced good s' := by
  replace hs := (step_act hs).2
  cases action with
  | turn env => exact h.turn (hgood env rfl) hs
  | reserve =>
    obtain ⟨-, threads, ht, rfl⟩ := call_cases hs
    exact h.call (ringCall_withThreads (by simp) ht) fun a d hw =>
      absurd hw (Threads.reserve_not_written ht)
  | producerWakes =>
    obtain ⟨threads, ht, rfl⟩ := Option.map_eq_some_iff.mp hs
    exact h.call (ringCall_withThreads (by simp) ht) fun a d hw =>
      absurd hw (Threads.producerWakes_not_written ht)
  | store => exact h.store hs
  | confirm => exact h.confirm hs
  | requestStop write =>
    obtain ⟨-, ⟨-, rfl⟩ | ⟨-, rfl⟩⟩ := requestStop_cases hs <;>
      exact h.keep rfl fun env he => by cases he
  | join =>
    obtain ⟨-, -, rfl⟩ := join_cases hs
    exact h.keep rfl fun env he => by cases he
  | accept result =>
    obtain ⟨slot, d, -, -, ⟨-, rfl⟩ | ⟨-, rfl⟩⟩ := accept_cases hs <;> exact h.keep rfl h.incoming
  | _ =>
    obtain ⟨result, hlooks⟩ | ⟨ring, threads, hside, ht, rfl⟩ := disk_cases rfl hs
    · cases hlooks
    · exact h.consume hside ht

theorem Sourced.marked (h : Sourced good s) {action : GetAction} {d : List UInt8}
    (hd : s.marks action = some d) : good d := by
  cases action <;> first | cases hd | skip
  dsimp only [marks] at hd
  split at hd
  · rename_i env hphase
    cases hd
    exact h.incoming env hphase
  · cases hd

theorem Sourced.written_good (h : Sourced good s) {action : GetAction} {d : List UInt8}
    (hd : s.writes action = some d) : good d := by
  cases action <;> first | cases hd | skip
  dsimp only [writes] at hd
  split at hd
  · rename_i a e hread
    split at hd
    · cases hd
    · rename_i hnz
      cases hd
      obtain ⟨rest, hqueue⟩ := Threads.read_head h.ring hread
      have hmem : d ∈ s.threads.confirmed := by
        rw [h.ring.history, hqueue]
        simp
      exact (h.confirmed d hmem).resolve_left hnz
  · cases hd

end Sources

end TsunamiUdp.Client.Get

import TsunamiUdp.Session.Overflow
import TsunamiUdp.Session.Recovering

/-! No state of a lossless transfer is a dead end, unless the block numbers go round. -/
namespace TsunamiUdp
open Library Client Client.Ring

/-- The receive loop has ended, with every block of the file received. -/
structure Delivered (a : Agreement) (s : System) : Prop where
  ended : s.client.phase.over = true
  all : ∀ b, 1 ≤ b → b ≤ a.server.blockCount → s.client.net.xfer.received b = true

/-- The transfer can still go on to its end without anything breaking. -/
def Recovers (a : Agreement) (s : System) : Prop := ∃ t, Goes a s t ∧ Delivered a t

/-- None of the datagrams sent so far will arrive any more. -/
def System.lose (s : System) : System := { s with server := { s.server with sent := [] } }

variable {a : Agreement} {s t : System}

theorem Alive.lose (h : Alive a s) : Alive a s.lose where
  session :=
    { serving :=
        { cut := ⟨h.session.serving.cut.ready, h.session.serving.cut.done⟩
          block := h.session.serving.block
          builder := h.session.serving.builder
          sent := fun d hd => by cases hd }
      receiving := h.session.receiving
      sensible := h.session.sensible }
  booked := h.booked
  provided := h.provided
  asked := h.asked
  heard := h.heard
  stream := h.stream
  writes := h.writes

theorem Alive.delivered (h : Alive a s) (hover : s.client.phase.over = true) : Delivered a s := by
  have hnetwork := h.session.receiving.inv.network
  have hcomplete : s.client.Complete := by
    unfold Get.NetworkInv at hnetwork
    cases hphase : s.client.phase with
    | finished =>
      rw [hphase] at hnetwork
      exact hnetwork
    | stopping =>
      rw [hphase] at hnetwork
      exact hnetwork.1
    | joining =>
      rw [hphase] at hnetwork
      exact hnetwork.1
    | returned =>
      rw [hphase] at hnetwork
      exact hnetwork.1
    | _ =>
      rw [hphase] at hover
      cases hover
  exact ⟨hover, fun b h1 hle => (hcomplete b h1 (h.session.receiving.blockCount.symm ▸ hle)).1⟩

/-- As long as nothing breaks, whatever was lost, the transfer recovers. -/
theorem Alive.can_end (hwide : a.server.blockCount < 4294967295) (h : Alive a s) : Recovers a s := by
  obtain ⟨t, hgoes, hover⟩ := h.recovers hwide
  exact ⟨t, hgoes, (alive_goes hwide h hgoes).delivered hover⟩

structure Stuck (s : Get) : Prop where
  ring : Threads.Inv s.threads
  exited : s.disk = .exited
  reading : ∃ slot d, s.threads.consumer = .read slot d
  consumed : s.threads.consumed = []
  received : ∃ numbers : List Nat, numbers.length ≤ s.threads.confirmed.length ∧
    ∀ b, s.net.xfer.received b = true → b ∈ numbers

namespace Stuck
variable {param : Client.Parameter} {g g' : Get}

theorem insert (h : Stuck g) {action : Action (List UInt8)} {threads : Threads (List UInt8)}
    (hside : action.consumes = false) (hconfirm : action ≠ .confirm)
    (hs : g.threads.step action = some threads) : Stuck (g.withThreads threads) := by
  have hpop : action ≠ .pop := fun heq => by rw [heq] at hside; cases hside
  obtain ⟨hconfirmed, hconsumed⟩ := Threads.silent_logs h.ring hs hconfirm hpop
  obtain ⟨slot, d, hread⟩ := h.reading
  refine ⟨Threads.inv_step _ h.ring hs, h.exited, ⟨slot, d, Threads.read_kept hs hside hread⟩,
    hconsumed.trans h.consumed, ?_⟩
  dsimp only [Get.withThreads]
  rw [hconfirmed]
  exact h.received

theorem confirm (h : Stuck g) (hs : g.confirm param = some g') : Stuck g' := by
  obtain ⟨slot, d, hread⟩ := h.reading
  obtain ⟨numbers, hlen, hnumbers⟩ := h.received
  have hdisk := (Get.confirm_disk hs).trans h.exited
  obtain ⟨threads, ht, hs⟩ := Get.confirm_cases hs
  obtain ⟨slot', e, -, hconfirmed, hconsumed, -⟩ := Threads.confirm_visible h.ring ht
  have hmore : numbers.length + 1 ≤ threads.confirmed.length := by
    rw [hconfirmed, List.length_append, List.length_singleton]
    omega
  have hring := Threads.inv_step _ h.ring ht
  have hnone : threads.consumed = [] := hconsumed.trans h.consumed
  rcases hs with ⟨env, -, rfl⟩ | ⟨-, rfl⟩
  · refine ⟨?_, hdisk, ?_, ?_, blockNumber g.net.localDatagram :: numbers, ?_, fun b hb => ?_⟩
    · rw [(Get.settle_frame _ _ _).1]
      exact hring
    · rw [(Get.settle_frame _ _ _).1]
      exact ⟨slot, d, Threads.read_kept ht rfl hread⟩
    · rw [(Get.settle_frame _ _ _).1]
      exact hnone
    · rw [(Get.settle_frame _ _ _).1]
      simpa using hmore
    · rw [(Get.sameBlocks_settle fun c hc => sameBlocks_afterRing hc).received] at hb
      by_cases hnew : b = blockNumber g.net.localDatagram
      · rw [hnew]
        exact List.mem_cons_self
      · rw [received_markReceived_of_ne hnew] at hb
        exact List.mem_cons_of_mem _ (hnumbers b hb)
  · exact ⟨hring, hdisk, ⟨slot, d, Threads.read_kept ht rfl hread⟩, hnone, numbers,
      (Nat.le_succ _).trans hmore, hnumbers⟩

theorem step (h : Stuck g) {action : GetAction} (hs : g.step param action = some g') : Stuck g' := by
  have hexited : Get.Exited g := ⟨h.exited, h.reading⟩
  have hnet := hexited.of_network hs
  replace hs := (Get.step_act hs).2
  rcases Get.network_cases hnet hs with
    ⟨ring, threads, hside, hring, ht, rfl⟩ | ⟨env, rfl⟩ | rfl | ⟨write, rfl⟩ | rfl
  · exact h.insert hside hring ht
  · refine ⟨?_, (Get.turn_disk hs).trans h.exited, ?_, ?_, ?_⟩
    all_goals rw [(Get.turn_frame hs).2.1]
    · exact h.ring
    · exact h.reading
    · exact h.consumed
    · rw [(Get.sameBlocks_turn hs).received]
      exact h.received
  · exact h.confirm hs
  · obtain ⟨-, ⟨-, rfl⟩ | ⟨-, rfl⟩⟩ := Get.requestStop_cases hs <;>
      exact ⟨h.ring, h.exited, h.reading, h.consumed, h.received⟩
  · obtain ⟨-, -, rfl⟩ := Get.join_cases hs
    exact ⟨h.ring, h.exited, h.reading, h.consumed, h.received⟩

theorem short (h : Stuck g) {n : Nat} (hn : 4096 < n) :
    ∃ b, (1 ≤ b ∧ b ≤ n) ∧ g.net.xfer.received b = false := by
  obtain ⟨numbers, hlen, hnumbers⟩ := h.received
  by_contra hnone
  have hall : Finset.Icc 1 n ⊆ numbers.toFinset := by
    intro b hb
    rw [List.mem_toFinset]
    apply hnumbers
    by_contra hnot
    exact hnone ⟨b, Finset.mem_Icc.mp hb, by simpa using hnot⟩
  have hcard := (Finset.card_le_card hall).trans (List.toFinset_card_le _)
  have hroom := h.ring.consistent.queued_le
  have hhistory := h.ring.history
  rw [h.consumed, List.nil_append] at hhistory
  rw [hhistory] at hlen
  rw [Nat.card_Icc] at hcard
  omega

end Stuck

theorem Stuck.not_recovers (hmany : 4096 < a.server.blockCount) (h : Stuck s.client) :
    ¬Recovers a s := by
  rintro ⟨t, hgoes, hdelivered⟩
  have hstuck : Stuck t.client := keeps_client (fun _ _ _ hg hs => hg.step hs) hgoes h
  obtain ⟨b, ⟨h1, hle⟩, hmissing⟩ := hstuck.short hmany
  rw [hdelivered.all b h1 hle] at hmissing
  cases hmissing

/-- A client that has divided by zero is a dead end too. -/
theorem killed_not_recovers (h : s.client.phase = .killed) : ¬Recovers a s := by
  rintro ⟨t, hgoes, hdelivered⟩
  have hkilled : t.client.phase = .killed := keeps_client (P := fun g => g.phase = .killed)
    (fun g action g' hg hs => absurd (Get.step_act hs).1 (by rw [Get.alive, hg]; decide)) hgoes h
  have hover := hdelivered.ended
  rw [hkilled] at hover
  cases hover

theorem reaches_counted {now : Int} (h : Paced now s.server) (hfirst : s.server.handler.xfer.block = 0)
    (k : Nat) (hk : k ≤ a.server.blockCount) :
    ∃ server, Goes a s { s with server := server } ∧ Paced now server ∧ server.handler.xfer.block = k := by
  have hnarrow := a.narrow
  induction k with
  | zero => exact ⟨s.server, .refl _ _ s, h, hfirst⟩
  | succ k ih =>
    obtain ⟨mid, hgoes, hpaced, hblock⟩ := ih (by omega)
    obtain ⟨server, d, hpaced', hblock', -, -, hgoes'⟩ := reaches_sent (a := a)
      (s := { s with server := mid }) hpaced
    refine ⟨server, hgoes.trans hgoes', hpaced', hblock'.trans ?_⟩
    unfold Server.nextBlock
    rw [hblock, wrap32_of_lt (by omega)]
    omega

/-- The server has gone on to block 0, and the disk thread has taken it for the end. -/
theorem reaches_stuck (hwide : a.server.blockCount = 4294967295) {now : Int}
    (h : Streamed a now 0 s) (hconsumed : s.client.threads.consumed = []) :
    ∃ t, Goes a s t ∧ Stuck t.client := by
  obtain ⟨server, hgoes, hpaced, hblock⟩ := reaches_counted (a := a) h.paced h.block
    a.server.blockCount le_rfl
  obtain ⟨server', d, -, -, hnamed, hsent, hgoes'⟩ := reaches_sent (a := a)
    (s := { s with server := server }) hpaced
  have hnext : Server.nextBlock a.server server.handler.xfer = 0 := by
    unfold Server.nextBlock
    rw [hblock, hwide]
    rfl
  rw [hnext, if_neg (by omega)] at hnamed
  obtain ⟨d', u, hnamed', htook, hgoes''⟩ := reaches_took (a := a) (s := { s with server := server' })
    (by rw [hsent]; simp) hnamed (by decide) (by decide) h.phase h.inv h.producer
    (by rw [h.empty]; decide) (h.flowing.fresh (Nat.zero_le _) (by omega))
    (afterRing_original h.flowing.restart (Nat.zero_le _))
  have hqueue : u.client.threads.ring.queued = [d'] := by
    rw [htook.stored.queued h.inv, h.queued]
    rfl
  obtain ⟨slot, hlooks, hgoes'''⟩ := reaches_exited (a := a) (alive_of_receiving htook.phase) htook.stored.inv
    (htook.disk.trans h.disk) hqueue (hnamed'.number_eq (by decide))
  refine ⟨_, hgoes.trans (hgoes'.trans (hgoes''.trans hgoes''')), hlooks, rfl, ⟨slot, d', rfl⟩,
    htook.stored.consumed.trans hconsumed, [0], ?_, fun b hb => ?_⟩
  · dsimp only
    rw [htook.stored.confirmed, List.length_append]
    exact Nat.le_add_left _ _
  · dsimp only at hb
    rw [htook.xfer] at hb
    change Function.update s.client.net.xfer.received 0 true b = true at hb
    by_cases hzero : b = 0
    · rw [hzero]
      exact List.mem_singleton_self 0
    · rw [Function.update_of_ne hzero, h.flowing.received] at hb
      omega

/-- Whatever has been lost, reordered or asked for again, the receive loop can still be
brought to its end with every block received, also if nothing that was sent arrives any
more: for all files but those of 2^32 - 1 blocks. -/
theorem no_dead_end (a : Agreement) (ipd : Rat) (datagram memory : List UInt8) (now : Int)
    (again : Bool) (onWireEstimate : Nat) (slots : Int → List UInt8)
    (hmemory : memory.length = sizeofRetransmission) :
    (∀ actions t, Along (System.step a) (Healthy a)
        (.start a ipd datagram memory now again onWireEstimate slots) actions →
      run (System.step a) (.start a ipd datagram memory now again onWireEstimate slots) actions = some t →
        Recovers a t ∧ Recovers a t.lose) ↔
      a.server.blockCount < 4294967295 := by
  constructor
  · intro hall
    by_contra hnarrow
    have hwide : a.server.blockCount = 4294967295 := by
      have := a.narrow
      omega
    obtain ⟨t, ⟨actions, hhealthy, hrun⟩, hstuck⟩ := reaches_stuck hwide
      (streamed_start a ipd datagram now again onWireEstimate slots hmemory) rfl
    exact hstuck.not_recovers (by omega) (hall actions t hhealthy hrun).1
  · intro hwide actions t hhealthy hrun
    have halive : Alive a t := run_invariant_along (fun _ _ _ h hok hs => alive_step hwide h hok hs)
      (alive_start ipd hmemory) hhealthy hrun
    exact ⟨halive.can_end hwide, halive.lose.can_end hwide⟩

/-- The only block is sent, and lost. -/
theorem no_dead_end_sample :
    ∃ t, run (System.step oneByteFile)
        (.start oneByteFile 0 [] (List.replicate 12 0) 0 false 0 fun _ => []) [.server .idle] = some t ∧
      t.server.sent.length = 1 ∧ Recovers oneByteFile t.lose := by
  have hrun : ∃ t, run (System.step oneByteFile)
      (.start oneByteFile 0 [] (List.replicate 12 0) 0 false 0 fun _ => []) [.server .idle] = some t ∧
      t.server.sent.length = 1 := ⟨_, rfl, rfl⟩
  obtain ⟨t, ht, hsent⟩ := hrun
  exact ⟨t, ht, hsent, ((no_dead_end oneByteFile 0 [] (List.replicate 12 0) 0 false 0 (fun _ => [])
    rfl).mpr (by decide) [.server .idle] t ⟨⟨by decide, by decide, by decide⟩, fun _ _ => trivial⟩ ht).2⟩

/-- The server sends all blocks and goes on to block 0, which arrives first: the transfer
of the largest file does not recover. -/
theorem dead_end :
    ∃ actions t, Along (System.step widestFile) (Healthy widestFile)
        (.start widestFile 0 [] (List.replicate 12 0) 0 false 0 fun _ => []) actions ∧
      run (System.step widestFile) (.start widestFile 0 [] (List.replicate 12 0) 0 false 0 fun _ => [])
        actions = some t ∧ ¬Recovers widestFile t := by
  have hmemory : (List.replicate 12 (0 : UInt8)).length = sizeofRetransmission := rfl
  obtain ⟨t, ⟨actions, hhealthy, hrun⟩, hstuck⟩ := reaches_stuck (a := widestFile) rfl
    (streamed_start widestFile 0 [] 0 false 0 (fun _ => []) hmemory) rfl
  exact ⟨actions, t, hhealthy, hrun, hstuck.not_recovers (by decide)⟩

end TsunamiUdp

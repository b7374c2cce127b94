import TsunamiUdp.Client.Asking
import TsunamiUdp.Session.CatchingUp
import TsunamiUdp.Session.Draining

/-! From wherever a transfer stands, the blocks that are missing can be brought in one
after the other. -/
namespace TsunamiUdp
open Library Client Client.Ring

/-- The client waits, and the server has nothing left to do but to go on with the blocks. -/
structure AtRest (a : Agreement) (s : System) : Prop where
  alive : Alive a s
  quiet : Quiet s.client
  caughtUp : CaughtUp s

def Advances (a : Agreement) (s : System) : Prop :=
  ∃ t, Goes a s t ∧ (t.client.phase.over = true ∨
    (AtRest a t ∧ (missing t.client.net.xfer).card < (missing s.client.net.xfer).card))

variable {a : Agreement} {s t : System}

theorem goes_missing (h : Goes a s t) : missing t.client.net.xfer ⊆ missing s.client.net.xfer :=
  keeps_client (P := fun g => missing g.net.xfer ⊆ missing s.client.net.xfer)
    (fun _ _ _ hg hs => (Get.missing_step hs).trans hg) h (Finset.Subset.refl _)

theorem goes_sent (h : Goes a s t) : s.server.sent ⊆ t.server.sent := by
  refine h.keeps (P := fun u => s.server.sent ⊆ u.server.sent) ?_ (List.Subset.refl _)
  intro u action v hu _ hs
  cases action with
  | server input =>
    obtain ⟨server, hserver, -, rfl⟩ := server_step hs
    obtain ⟨-, -, rfl⟩ := Server.step_some hserver
    exact List.Subset.trans hu (List.subset_append_left _ _)
  | client action =>
    obtain ⟨client, -, -, rfl⟩ := client_step hs
    exact hu

theorem Quiet.inLoop {g : Get} (h : Quiet g) : g.phase.inLoop = true := by
  rw [h.phase]
  rfl

theorem AtRest.no_stop (h : AtRest a s) : ∀ r ∈ s.client.sent, r.requestType ≠ requestStop :=
  h.alive.asked h.quiet.inLoop

theorem AtRest.flow (h : AtRest a s) : s.server.flow = .next := h.alive.heard h.no_stop

theorem AtRest.blocksLeft (h : AtRest a s) :
    s.client.net.xfer.blocksLeft = (missing s.client.net.xfer).card := by
  have hnetwork := h.alive.session.receiving.inv.network
  unfold Get.NetworkInv at hnetwork
  rw [h.quiet.phase] at hnetwork
  exact hnetwork.blocksLeft

theorem Alive.idle (h : Alive a s) (hquiet : Quiet s.client) :
    s.client.threads.producer = .idle := by
  apply h.session.receiving.inv.idle
  unfold Get.inserting
  rw [hquiet.phase]

theorem Quiet.served (hwide : a.server.blockCount < 4294967295) (h : Alive a s)
    (hquiet : Quiet s.client) :
    ∃ server, Goes a s { s with server := server } ∧ AtRest a { s with server := server } := by
  obtain ⟨server, hgoes, hcaught⟩ := reaches_caughtUp hwide h (h.asked hquiet.inLoop)
  exact ⟨server, hgoes, alive_goes hwide h hgoes, hquiet, hcaught⟩

theorem reaches_rest (hwide : a.server.blockCount < 4294967295) (h : Alive a s)
    (hloop : s.client.phase.inLoop = true) :
    ∃ t, Goes a s t ∧ (t.client.phase.over = true ∨ AtRest a t) := by
  obtain ⟨t, hgoes, -, hquiet | hover⟩ := reaches_quiet hwide h hloop
  · obtain ⟨server, hgoes', hrest⟩ := hquiet.served hwide (alive_goes hwide h hgoes)
    exact ⟨_, hgoes.trans hgoes', Or.inr hrest⟩
  · exact ⟨t, hgoes, Or.inl hover⟩

theorem Advances.after {u : System} (h : Advances a u) (hgoes : Goes a s u) : Advances a s := by
  obtain ⟨t, hgoes', hend⟩ := h
  refine ⟨t, hgoes.trans hgoes', hend.imp_right fun hrest => ⟨hrest.1, ?_⟩⟩
  exact hrest.2.trans_le (Finset.card_le_card (goes_missing hgoes))

theorem Alive.number (h : Alive a s) {b : Nat} (hb : b ∈ missing s.client.net.xfer) :
    1 ≤ b ∧ b ≤ a.server.blockCount := by
  obtain ⟨⟨h1, hle⟩, -⟩ := mem_missing.mp hb
  exact ⟨h1, h.session.receiving.blockCount ▸ hle⟩

theorem AtRest.take (hwide : a.server.blockCount < 4294967295) (h : AtRest a s) {b type : Nat}
    {d : List UInt8} (hd : d ∈ s.server.sent) (hnamed : Named b type d) (ht : type < 65536)
    (hb : b ∈ missing s.client.net.xfer) : Advances a s := by
  have hnumber : b < 4294967296 := (h.alive.number hb).2.trans_lt a.narrow
  have hroom : s.client.threads.ring.countData < maxBlocksQueued := by
    rw [h.quiet.empty]
    decide
  obtain ⟨c, hc⟩ := afterRing_provided a.lossless (calm_provides (.datagram d))
    (afterRingKill_calm a.client _ (markReceived (countArrival type s.client.net.xfer) b) b type)
  obtain ⟨d', t, -, htook, hgoes⟩ := reaches_took (a := a) hd hnamed hnumber ht h.quiet.phase
    h.alive.session.receiving.inv.ring (h.alive.idle h.quiet) hroom (not_got_of_missing hb) hc
  have halive := alive_goes hwide h.alive hgoes
  have hfewer : (missing t.client.net.xfer).card < (missing s.client.net.xfer).card := by
    rw [htook.xfer, (sameBlocks_afterRing hc).missing, missing_markReceived]
    exact Finset.card_erase_lt_of_mem hb
  cases hfinished : c.finished with
  | true =>
    refine ⟨t, hgoes, Or.inl ?_⟩
    rw [htook.phase, hfinished]
    rfl
  | false =>
    obtain ⟨u, hgoes', hend⟩ := reaches_rest hwide halive (by rw [htook.phase, hfinished]; rfl)
    refine ⟨u, hgoes.trans hgoes', hend.imp_right fun hrest => ⟨hrest, ?_⟩⟩
    exact (Finset.card_le_card (goes_missing hgoes')).trans_lt hfewer

theorem AtRest.send (hwide : a.server.blockCount < 4294967295) (h : AtRest a s) {b : Nat}
    (hle : b ≤ a.server.blockCount)
    (hb : s.server.handler.xfer.block < b ∨ b = a.server.blockCount) :
    ∃ server d, Goes a s { s with server := server } ∧ AtRest a { s with server := server } ∧
      d ∈ server.sent ∧
      Named b (if b = a.server.blockCount then tsBlockTerminate else tsBlockOriginal) d := by
  obtain ⟨server, d, hgoes, hbytes, hd, hnamed⟩ := reaches_block hwide h.alive h.flow hle hb
  exact ⟨server, d, hgoes, ⟨alive_goes hwide h.alive hgoes, h.quiet, hbytes.trans h.caughtUp⟩, hd, hnamed⟩

theorem afterRing_calm {param : Client.Parameter} {recv : Recv} {xfer : Client.Transfer}
    {block type : Nat} {c : Controlled}
    (hc : Client.control param (.calm recv) xfer block type = some c) :
    afterRing param (.calm recv) xfer block type = some c := by
  unfold afterRing
  rw [hc, Option.bind_some, sendStats_calm]
  cases hfinished : c.finished with
  | true => rfl
  | false =>
    obtain ⟨finished, xfer', sent⟩ := c
    cases hfinished
    simp

theorem turn_last (param : Client.Parameter) {g : Get} {block : Nat} {d : List UInt8} {c : Controlled}
    (hnamed : Named block tsBlockTerminate d) (hb : block < 4294967296) (hphase : g.phase = .receiving)
    (hfull : ringFull g.threads.ring = false) (hgot : gotBlock g.net.xfer block = true)
    (hc : Client.control param (.calm (.datagram d)) (countArrival tsBlockTerminate g.net.xfer) block
      tsBlockTerminate = some c) :
    ∃ d', g.act param (.turn (.calm (.datagram d))) = some { g with
      net := ⟨c.xfer, d'⟩
      phase := if c.finished then .finished else .receiving
      sent := g.sent ++ c.sent } := by
  have henters : enters false (countArrival tsBlockTerminate g.net.xfer) block tsBlockTerminate =
      true := by simp [enters]
  obtain ⟨d', -, hturn⟩ := turn_enters param hnamed hb (by decide) hphase hfull henters
  rw [if_neg (by rw [hgot]; decide), afterRing_calm hc] at hturn
  exact ⟨d', hturn⟩

structure Answered (s : System) (c : Controlled) (t : System) : Prop where
  server : t.server = s.server
  xfer : t.client.net.xfer = c.xfer
  phase : t.client.phase = if c.finished then .finished else .receiving
  threads : t.client.threads = s.client.threads
  disk : t.client.disk = s.client.disk
  sent : t.client.sent = s.client.sent ++ c.sent

theorem AtRest.answer (hwide : a.server.blockCount < 4294967295) (h : AtRest a s)
    (hlast : gotBlock s.client.net.xfer a.server.blockCount = true) :
    ∃ server d, AtRest a { s with server := server } ∧
      ∀ c, Client.control a.client (.calm (.datagram d))
          (countArrival tsBlockTerminate s.client.net.xfer) a.server.blockCount tsBlockTerminate = some c →
        ∃ t, Goes a s t ∧ Answered { s with server := server } c t := by
  obtain ⟨server, d, hgoes, hrest, hd, hnamed⟩ := h.send hwide le_rfl (Or.inr rfl)
  rw [if_pos rfl] at hnamed
  refine ⟨server, d, hrest, fun c hc => ?_⟩
  have hfull := ringFull_of_room h.alive.session.receiving.inv.ring (h.alive.idle h.quiet)
    (by rw [h.quiet.empty]; decide)
  obtain ⟨d', hturn⟩ := turn_last a.client hnamed a.narrow h.quiet.phase hfull hlast hc
  exact ⟨_, hgoes.trans (reaches_client (s := { s with server := server }) _
    (alive_of_receiving h.quiet.phase) hturn ⟨hd, rfl, rfl, rfl⟩
    ⟨fun _ => rfl, turnKills_calm a.client _ _⟩), rfl, rfl, rfl, rfl, rfl, rfl⟩

theorem got_of_not_missing (hwide : a.server.blockCount < 4294967295) (h : Alive a s)
    (hlast : a.server.blockCount ∉ missing s.client.net.xfer) :
    gotBlock s.client.net.xfer a.server.blockCount = true := by
  obtain ⟨h1, hle⟩ := nextBlock_range hwide h.session.serving.block
  have hcount := h.session.receiving.blockCount
  rw [gotBlock_of_le (by rw [hcount])]
  by_contra hnot
  exact hlast (mem_missing.mpr ⟨by omega, by simpa using hnot⟩)

theorem AtRest.ends (hwide : a.server.blockCount < 4294967295) (h : AtRest a s)
    (hnone : missing s.client.net.xfer = ∅) : ∃ t, Goes a s t ∧ t.client.phase.over = true := by
  have hlast := got_of_not_missing hwide h.alive (by rw [hnone]; exact Finset.notMem_empty _)
  have hleft : s.client.net.xfer.blocksLeft = 0 := by
    rw [h.blocksLeft, hnone]
    rfl
  obtain ⟨server, d, -, hanswer⟩ := h.answer hwide hlast
  obtain ⟨c, hc, hfinished⟩ := control_over_of_done a.lossless (calm_provides (.datagram d))
    (show (countArrival tsBlockTerminate s.client.net.xfer).blocksLeft = 0 from hleft)
    a.server.blockCount
  obtain ⟨t, hgoes, hanswered⟩ := hanswer c hc
  refine ⟨t, hgoes, ?_⟩
  rw [hanswered.phase, hfinished]
  rfl

/-- The client has asked again for what is missing, and the server has not yet read it. -/
structure AskedAgain (s : System) (full : Client.Transfer) (t : System) : Prop where
  quiet : Quiet t.client
  bytes : t.server.bytes = (records s.client.sent).flatten
  sent : t.client.sent = s.client.sent ++ (ttpRepeatRetransmit .ok full).sent
  xfer : t.client.net.xfer = (ttpRepeatRetransmit .ok full).xfer
  same : missing t.client.net.xfer = missing s.client.net.xfer

theorem AtRest.asks (hwide : a.server.blockCount < 4294967295) (h : AtRest a s)
    (hlast : a.server.blockCount ∉ missing s.client.net.xfer) {b : Nat}
    (hb : b ∈ missing s.client.net.xfer) :
    ∃ full t, AsksRest s.client.net.xfer full ∧ Goes a s t ∧ AskedAgain s full t := by
  have hcount := h.alive.session.receiving.blockCount
  have hleft : s.client.net.xfer.blocksLeft ≠ 0 := by
    rw [h.blocksLeft]
    exact (Finset.card_pos.mpr ⟨b, hb⟩).ne'
  obtain ⟨server, d, hrest, hanswer⟩ := h.answer hwide (got_of_not_missing hwide h.alive hlast)
  have hbooked : Booked (countArrival tsBlockTerminate s.client.net.xfer) :=
    ⟨h.alive.booked.tracked.countArrival tsBlockTerminate, h.alive.booked.grown⟩
  obtain ⟨full, hasks, hcontrol⟩ := control_terminate a.lossless
    (calm_provides (.datagram d)) hbooked hleft hb
  have hnumber : (countArrival tsBlockTerminate s.client.net.xfer).blockCount =
    a.server.blockCount := hcount
  rw [hnumber] at hcontrol
  obtain ⟨t, hgoes, hanswered⟩ := hanswer _ hcontrol
  refine ⟨full, t, ⟨⟨hasks.same.fileSize, hasks.same.blockCount, hasks.same.received,
    hasks.same.blocksLeft⟩, hasks.gapless, hasks.table⟩, hgoes, ⟨hanswered.phase, ?_, ?_⟩, ?_,
    hanswered.sent, hanswered.xfer, ?_⟩
  · rw [hanswered.threads]
    exact h.quiet.empty
  · rw [hanswered.disk]
    exact h.quiet.disk
  · rw [hanswered.server]
    exact hrest.caughtUp
  · rw [hanswered.xfer]
    exact (sameBlocks_repeat .ok full).missing.trans hasks.same.missing

theorem AskedAgain.few (hwide : a.server.blockCount < 4294967295) {full : Client.Transfer}
    (hasks : AsksRest s.client.net.xfer full) (hgoes : Goes a s t) (halive : Alive a t)
    (h : AskedAgain s full t) (hfew : (outstanding full).length < maxRetransmissionBuffer)
    (hsome : outstanding full ≠ []) : Advances a s := by
  obtain ⟨b, rest, hfirst⟩ := List.exists_cons_of_ne_nil hsome
  have hsent := ((ttpRepeatRetransmit_few .ok hfew).2.1 rfl).2
  rw [hfirst, List.map_cons] at hsent
  have hb : b ∈ missing t.client.net.xfer := by
    rw [h.same, ← hasks.same.missing]
    apply mem_missing_of_outstanding
    rw [hfirst]
    exact List.mem_cons_self
  obtain ⟨server, hgoes', -, hserved⟩ := reaches_served halive (halive.asked h.quiet.inLoop)
    (h.sent.trans (congrArg _ hsent)) h.bytes
  obtain ⟨d, hd, hnamed⟩ := hserved.retransmitted
  obtain ⟨last, hgoes'', hrest⟩ := Quiet.served (s := { t with server := server }) hwide
    (alive_goes hwide halive hgoes') h.quiet
  exact (hrest.take hwide (goes_sent hgoes'' hd) hnamed (by decide) hb).after
    (hgoes.trans (hgoes'.trans hgoes''))

theorem AskedAgain.none {full : Client.Transfer} (halive : Alive a t) (h : AskedAgain s full t)
    (hnone : outstanding full = []) :
    AtRest a t ∧ t.client.net.xfer.rexmit.entries = [] := by
  have hfew : (outstanding full).length < maxRetransmissionBuffer := by
    rw [hnone]
    decide
  obtain ⟨hentries, hwritten, -⟩ := ttpRepeatRetransmit_few .ok hfew
  refine ⟨⟨halive, h.quiet, ?_⟩, ?_⟩
  · have hsent := (hwritten rfl).2
    rw [hnone, List.map_nil] at hsent
    rw [CaughtUp, h.bytes, h.sent, hsent, List.append_nil]
  · rw [h.xfer, hentries, hnone]

theorem AskedAgain.many (hwide : a.server.blockCount < 4294967295) {full : Client.Transfer}
    (hasks : AsksRest s.client.net.xfer full) (halive : Alive a t) (h : AskedAgain s full t)
    (hmany : maxRetransmissionBuffer ≤ (outstanding full).length) {b : Nat}
    (hb : b ∈ missing s.client.net.xfer) :
    ∃ server, Goes a t { t with server := server } ∧ AtRest a { t with server := server } ∧
      t.client.net.xfer.rexmit.entries = [] ∧
      server.handler.xfer.block = full.gaplessToBlock + 1 := by
  obtain ⟨hwritten, rexmit, stats, last, clear, hindex, -, -, heq⟩ :=
    ttpRepeatRetransmit_many .ok hmany (by decide)
  have hsent := (hwritten rfl).2
  have hcount : full.blockCount = a.server.blockCount := by
    have htcount := halive.session.receiving.blockCount
    rw [h.xfer, heq] at htcount
    exact htcount
  have hlt := hasks.gapless b hb
  have hle : b ≤ full.blockCount := by
    rw [hasks.same.blockCount]
    exact (mem_missing.mp hb).1.2
  have hblock : min full.blockCount (wrap32 (full.gaplessToBlock + 1)) = full.gaplessToBlock + 1 := by
    rw [wrap32_of_lt (by omega)]
    omega
  rw [hblock] at hsent
  obtain ⟨server, hgoes, hbytes, hserved⟩ := reaches_served halive (halive.asked h.quiet.inLoop)
    (h.sent.trans (congrArg _ hsent)) h.bytes
  refine ⟨server, hgoes, ⟨alive_goes hwide halive hgoes, h.quiet, ?_⟩, ?_,
    hserved.restarted (Nat.succ_pos _) (by omega)⟩
  · rw [CaughtUp, hbytes, h.sent, hsent]
  · rw [h.xfer, heq]
    simp [Retransmit.entries, hindex]

/-- The client asks for what is missing: a block is brought in, or the table is empty from
now on. From an empty table a block is brought in. -/
theorem AtRest.round (hwide : a.server.blockCount < 4294967295) (h : AtRest a s)
    (hlast : a.server.blockCount ∉ missing s.client.net.xfer) {b : Nat}
    (hb : b ∈ missing s.client.net.xfer) :
    (s.client.net.xfer.rexmit.entries = [] → Advances a s) ∧
      (Advances a s ∨ ∃ t, Goes a s t ∧ AtRest a t ∧ t.client.net.xfer.rexmit.entries = [] ∧
        missing t.client.net.xfer = missing s.client.net.xfer) := by
  obtain ⟨full, t, hasks, hgoes, hagain⟩ := h.asks hwide hlast hb
  have halive := alive_goes hwide h.alive hgoes
  by_cases hfew : (outstanding full).length < maxRetransmissionBuffer
  · by_cases hsome : outstanding full = []
    · obtain ⟨hrest, hempty⟩ := hagain.none halive hsome
      refine ⟨fun hfresh => absurd hsome ?_, Or.inr ⟨t, hgoes, hrest, hempty, hagain.same⟩⟩
      have hcount := h.alive.session.receiving.blockCount
      exact hasks.asks hfresh (by rw [hcount]; exact got_of_not_missing hwide h.alive hlast) hb
    · have hadvances := hagain.few hwide hasks hgoes halive hfew hsome
      exact ⟨fun _ => hadvances, Or.inl hadvances⟩
  · have hmany := Nat.le_of_not_lt hfew
    obtain ⟨server, hgoes', hrest, hempty, hblock⟩ := hagain.many hwide hasks halive hmany hb
    refine ⟨fun hfresh => ?_, Or.inr ⟨_, hgoes.trans hgoes', hrest, hempty, hagain.same⟩⟩
    obtain ⟨c, hc, hahead⟩ := hasks.ahead hfresh hmany
    have hmissing : c ∈ missing t.client.net.xfer := hagain.same ▸ hc
    obtain ⟨last, d, hgoes'', hrest', hd, hnamed⟩ := hrest.send hwide (halive.number hmissing).2
      (Or.inl (by dsimp only; omega))
    refine (hrest'.take hwide hd hnamed ?_ hmissing).after (hgoes.trans (hgoes'.trans hgoes''))
    split <;> decide

theorem AtRest.advances (hwide : a.server.blockCount < 4294967295) (h : AtRest a s) {b : Nat}
    (hb : b ∈ missing s.client.net.xfer) : Advances a s := by
  by_cases hlast : a.server.blockCount ∈ missing s.client.net.xfer
  · obtain ⟨server, d, hgoes, hrest, hd, hnamed⟩ := h.send hwide le_rfl (Or.inr rfl)
    rw [if_pos rfl] at hnamed
    exact (hrest.take hwide hd hnamed (by decide) hlast).after hgoes
  · rcases (h.round hwide hlast hb).2 with hadvances | ⟨t, hgoes, hrest, hempty, hsame⟩
    · exact hadvances
    · rw [← hsame] at hlast hb
      exact ((hrest.round hwide hlast hb).1 hempty).after hgoes

theorem AtRest.recovers (hwide : a.server.blockCount < 4294967295) (h : AtRest a s) :
    ∃ t, Goes a s t ∧ t.client.phase.over = true := by
  refine reachesAlong_of_rank (P := AtRest a) (fun u => (missing u.client.net.xfer).card)
    (fun u hrest => ?_) h
  rcases Finset.eq_empty_or_nonempty (missing u.client.net.xfer) with hnone | ⟨b, hb⟩
  · obtain ⟨t, hgoes, hover⟩ := hrest.ends hwide hnone
    exact ⟨t, hgoes, Or.inl hover⟩
  · exact hrest.advances hwide hb

theorem Alive.recovers (hwide : a.server.blockCount < 4294967295) (h : Alive a s) :
    ∃ t, Goes a s t ∧ t.client.phase.over = true := by
  have hprovided := h.provided
  have hrests : s.client.phase.inLoop = true → ∃ t, Goes a s t ∧ t.client.phase.over = true := by
    intro hloop
    obtain ⟨t, hgoes, hover | hrest⟩ := reaches_rest hwide h hloop
    · exact ⟨t, hgoes, hover⟩
    · obtain ⟨u, hgoes', hover⟩ := hrest.recovers hwide
      exact ⟨u, hgoes.trans hgoes', hover⟩
  cases hphase : s.client.phase with
  | receiving => exact hrests (by rw [hphase]; rfl)
  | storing env => exact hrests (by rw [hphase]; rfl)
  | aborted | killed =>
    unfold Get.Provided at hprovided
    rw [hphase] at hprovided
    exact hprovided.elim
  | _ => exact ⟨s, .refl _ _ s, by rw [hphase]; rfl⟩

end TsunamiUdp

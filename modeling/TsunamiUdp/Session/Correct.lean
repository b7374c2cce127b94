import TsunamiUdp.Session.Receiving

/-! What a lossless transfer leaves behind: the server's file, each block written once. -/
namespace TsunamiUdp
open Library Client Client.Ring

variable {a : Agreement}

structure Session (a : Agreement) (s : System) : Prop where
  serving : Serving a s.client.sent s.server
  receiving : Receiving a s.client
  sensible : ∀ r ∈ s.client.sent, Sensible a.server.blockCount r

theorem session_start (ipd : Rat) {datagram memory : List UInt8} {now : Int} {again : Bool}
    {onWireEstimate : Nat} {slots : Int → List UInt8}
    (hmemory : memory.length = sizeofRetransmission) :
    Session a (.start a ipd datagram memory now again onWireEstimate slots) where
  serving :=
    { cut := Server.cut_start Server.display_shown ⟨hmemory, (by decide : (0 : Nat) < sizeofRetransmission)⟩ rfl
      block := Nat.zero_le _
      builder := ⟨rfl, Nat.zero_le _, by simp [System.start, Server.Loop.start, Server.Handler.start]⟩
      sent := fun d hd => by cases hd }
  receiving := .start slots onWireEstimate
  sensible := fun r hr => by cases hr

theorem session_step (hwide : a.server.blockCount < 4294967295) {s t : System}
    {action : SystemAction} (h : Session a s) (hs : s.step a action = some t) : Session a t := by
  cases action with
  | server input =>
    obtain ⟨server, hserver, hprefix, rfl⟩ := server_step hs
    exact ⟨h.serving.step hwide h.sensible hserver hprefix, h.receiving, h.sensible⟩
  | client action =>
    obtain ⟨client, hclient, hreliable, rfl⟩ := client_step hs
    have hcount := h.receiving.blockCount
    obtain ⟨more, hsent, hmore⟩ : ∃ more, client.sent = s.client.sent ++ more ∧
        ∀ r ∈ more, Sensible a.server.blockCount r := by
      rcases Get.asks_step (hcount ▸ a.narrow) hclient with ⟨more, hsent, hmore⟩ | ⟨-, hsent⟩
      · rw [hcount] at hmore
        exact ⟨more, hsent, fun r hr => (hmore r hr).toSensible⟩
      · refine ⟨[ttpRequestStop], hsent, fun r hr => ?_⟩
        rw [List.mem_singleton.mp hr]
        exact sensible_stop _
    refine ⟨?_, h.receiving.step h.serving.sent hreliable hclient, fun r hr => ?_⟩
    · dsimp only
      rw [hsent]
      exact h.serving.more more
    · dsimp only at hr
      rw [hsent] at hr
      exact (List.mem_append.mp hr).elim (h.sensible r) (hmore r)

theorem session_run (hwide : a.server.blockCount < 4294967295) {s t : System}
    {actions : List SystemAction} (h : Session a s)
    (hrun : run (System.step a) s actions = some t) : Session a t :=
  run_invariant (fun _ _ _ h hs => session_step hwide h hs) h hrun

theorem accepted_first {s : Get} (h : s.Inv) (hphase : s.phase = .returned) :
    s.accepted <+: s.stored := by
  have hnetwork := h.network
  have hdisk := h.disk
  unfold Get.NetworkInv at hnetwork
  rw [hphase] at hnetwork
  unfold Get.DiskInv at hdisk
  rw [hnetwork.2.2] at hdisk
  rw [Get.stored, h.ring.history, List.map_append, hdisk.1]
  exact List.prefix_append _ _

theorem nothing_lost {s : Get} (h : s.Inv) (hphase : s.phase = .returned) :
    totalLost s.net.xfer = 0 := by
  have hnetwork := h.network
  unfold Get.NetworkInv at hnetwork
  rw [hphase] at hnetwork
  unfold totalLost
  rw [List.length_eq_zero_iff, List.filter_eq_nil_iff]
  intro k hk
  have hlt : k < s.net.xfer.blockCount := List.mem_range.mp hk
  rw [gotBlock_of_le hlt, (hnetwork.1 (k + 1) (by omega) hlt).1]
  decide

/-- The file is there, every block of it was written once, and none is counted as lost. -/
structure Transferred (a : Agreement) (s : Get) : Prop where
  file : s.file = a.contents
  once : ∀ b, 1 ≤ b → b ≤ a.server.blockCount → s.accepted.count b = 1
  lost : totalLost s.net.xfer = 0

theorem Receiving.transferred {s : Get} (h : Receiving a s) (hreturned : s.phase = .returned) :
    Transferred a s := by
  have hall : ∀ b, 1 ≤ b → b ≤ a.server.blockCount → b ∈ s.accepted := fun b h1 hle =>
    h.inv.returned hreturned h1 (h.blockCount ▸ hle)
  have honce : s.accepted.Nodup := h.once.sublist (accepted_first h.inv hreturned).sublist
  exact ⟨h.file.complete hall, fun b h1 hle => List.count_eq_one_of_mem honce (hall b h1 hle),
    nothing_lost h.inv hreturned⟩

end TsunamiUdp

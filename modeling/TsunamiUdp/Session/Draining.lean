import TsunamiUdp.Session.Moves

/-! However the threads of the client stand in its receive loop, they can get everything
that was received onto the disk, and come back to wait for the next datagram. -/
namespace TsunamiUdp
open Library Client Client.Ring

/-- The network thread waits for a datagram, and the ring is empty. -/
structure Quiet (s : Get) : Prop where
  phase : s.phase = .receiving
  empty : s.threads.ring.countData = 0
  disk : s.disk = .looping

structure Drains (s t : System) : Prop where
  server : t.server = s.server
  net : t.client.net = s.client.net
  phase : t.client.phase = s.client.phase

variable {a : Agreement} {s t u : System}

theorem Drains.trans (h : Drains s t) (h' : Drains t u) : Drains s u :=
  ⟨h'.server.trans h.server, h'.net.trans h.net, h'.phase.trans h.phase⟩

theorem Alive.no_stop (h : Alive a s) (hloop : s.client.phase.inLoop = true) :
    0 ∉ s.client.stored ∧ s.client.disk ≠ .exited := by
  have hnone : 0 ∉ s.client.stored := by
    intro hstop
    rcases h.session.receiving.stop hstop with hphase | hphase
    · rw [hphase] at hloop
      cases hloop
    · rw [hphase] at hloop
      cases hloop
  exact ⟨hnone, fun hexited => hnone (h.writes hexited)⟩

theorem number_of_queued {d : List UInt8} {rest : List (List UInt8)}
    (hinv : Threads.Inv s.client.threads) (hqueue : s.client.threads.ring.queued = d :: rest) :
    blockNumber d ∈ s.client.stored := by
  rw [Get.stored, hinv.history, hqueue]
  simp

theorem reaches_back {slot : Int} {d : List UInt8} (halive : s.client.alive = true)
    (hinv : Threads.Inv s.client.threads)
    (haccepted : s.client.disk = .accepted) (hread : s.client.threads.consumer = .read slot d) :
    ∃ t, Goes a s t ∧ Drains s t ∧ t.client.disk = .looping ∧
      t.client.threads.ring.countData = s.client.threads.ring.countData - 1 := by
  obtain ⟨threads, hpop, hpopped⟩ := Threads.pop_done hinv hread
  refine ⟨⟨s.server, s.client.afterRingCall threads⟩, ?_, ⟨rfl, rfl, rfl⟩, ?_, hpopped.countData⟩
  · apply reaches_client .pop halive _ trivial trivial
    dsimp only [Get.act, Get.pop]
    rw [if_pos haccepted, hpop]
    rfl
  · dsimp only [Get.afterRingCall]
    rw [hpopped.consumer]

theorem reaches_popped (h : Alive a s) (hloop : s.client.phase.inLoop = true)
    (hdata : 0 < s.client.threads.ring.countData) :
    ∃ t, Goes a s t ∧ Drains s t ∧
      t.client.threads.ring.countData = s.client.threads.ring.countData - 1 := by
  have hinv := h.session.receiving.inv
  obtain ⟨hnone, hrunning⟩ := h.no_stop hloop
  have hplace := hinv.disk
  unfold Get.DiskInv at hplace
  cases hdisk : s.client.disk with
  | looping =>
    have hqueue := Threads.queued_cons hinv.ring hdata
    have hnz : blockNumber (s.client.threads.ring.datagrams s.client.threads.ring.baseData) ≠ 0 :=
      fun hzero => hnone (hzero ▸ number_of_queued hinv.ring hqueue)
    obtain ⟨t, hwrote, hgoes⟩ := reaches_wrote (a := a) h.provided.alive hinv.ring hdisk hqueue hnz
    exact ⟨t, hgoes, ⟨hwrote.server, hwrote.net, hwrote.phase⟩, hwrote.popped.countData⟩
  | accepted =>
    rw [hdisk] at hplace
    obtain ⟨slot, d, hread, -⟩ := hplace
    obtain ⟨t, hgoes, hdrains, -, hcount⟩ := reaches_back (a := a) h.provided.alive hinv.ring hdisk hread
    exact ⟨t, hgoes, hdrains, hcount⟩
  | exited => exact absurd hdisk hrunning

theorem disk_of_empty (h : Alive a s) (hloop : s.client.phase.inLoop = true)
    (hempty : s.client.threads.ring.countData = 0) : s.client.disk = .looping := by
  have hplace := h.session.receiving.inv.disk
  have hconsumer := h.session.receiving.inv.ring.consumer
  unfold Get.DiskInv at hplace
  cases hdisk : s.client.disk with
  | looping => rfl
  | accepted =>
    rw [hdisk] at hplace
    obtain ⟨slot, d, hread, -⟩ := hplace
    rw [hread] at hconsumer
    have hdata := hconsumer.1
    omega
  | exited => exact absurd hdisk (h.no_stop hloop).2

theorem reaches_drained (hwide : a.server.blockCount < 4294967295) (h : Alive a s)
    (hloop : s.client.phase.inLoop = true) :
    ∃ t, Goes a s t ∧ Drains s t ∧ t.client.threads.ring.countData = 0 := by
  refine reachesAlong_of_rank (P := fun u => Alive a u ∧ Drains s u)
    (fun u => u.client.threads.ring.countData.toNat) (fun u ⟨halive, hdrains⟩ => ?_) ⟨h, rfl, rfl, rfl⟩
  have hnonneg := halive.session.receiving.inv.ring.consistent.data_nonneg
  by_cases hdata : 0 < u.client.threads.ring.countData
  · have hphase : u.client.phase.inLoop = true := by rw [hdrains.phase, hloop]
    obtain ⟨t, hgoes, hdrains', hcount⟩ := reaches_popped halive hphase hdata
    exact ⟨t, hgoes, Or.inr ⟨⟨alive_goes hwide halive hgoes, hdrains.trans hdrains'⟩, by omega⟩⟩
  · exact ⟨u, .refl _ _ u, Or.inl ⟨hdrains, by omega⟩⟩

theorem reaches_held (hinv : Threads.Inv s.client.threads) (hinserting : s.client.inserting = true)
    (hroom : s.client.threads.ring.countData < maxBlocksQueued)
    (hstart : ∀ slot d, s.client.threads.producer ≠ .written slot d) :
    ∃ threads slot, threads.producer = .reserved slot ∧ Threads.Inv threads ∧
      Goes a s { s with client := s.client.withThreads threads } := by
  cases hcase : s.client.threads.producer with
  | idle =>
    obtain ⟨ring, slot, hreserve, -⟩ := Threads.reserve_done hinv hcase hroom
    refine ⟨_, slot, rfl, Threads.inv_step _ hinv hreserve, ?_⟩
    apply reaches_client .reserve (alive_of_inserting hinserting) _ trivial trivial
    dsimp only [Get.act, Get.reserve]
    rw [if_pos hinserting, hreserve]
    rfl
  | waiting next signalled =>
    obtain ⟨ring, hwake⟩ := Threads.wake_done hinv hcase hroom
    refine ⟨_, next, rfl, Threads.inv_step _ hinv hwake, ?_⟩
    apply reaches_client .producerWakes (alive_of_inserting hinserting) _ trivial trivial
    dsimp only [Get.act, Get.producerWakes]
    rw [hwake]
    rfl
  | reserved slot => exact ⟨s.client.threads, slot, hcase, hinv, .refl _ _ s⟩
  | written slot d => exact absurd hcase (hstart slot d)

theorem reaches_written {env : Env} (hinv : Threads.Inv s.client.threads)
    (hphase : s.client.phase = .storing env)
    (hroom : s.client.threads.ring.countData < maxBlocksQueued) :
    ∃ threads slot d, threads.producer = .written slot d ∧ Threads.Inv threads ∧
      Goes a s { s with client := s.client.withThreads threads } := by
  have hinserting : s.client.inserting = true := by
    unfold Get.inserting
    rw [hphase]
  by_cases hstart : ∀ slot d, s.client.threads.producer ≠ .written slot d
  · obtain ⟨held, slot, hheld, hinv', hgoes⟩ := reaches_held (a := a) hinv hinserting hroom hstart
    have hwrite := Threads.write_done hinv' hheld s.client.net.localDatagram
    refine ⟨_, slot, s.client.net.localDatagram, rfl, Threads.inv_step _ hinv' hwrite, hgoes.trans ?_⟩
    have halive : (s.client.withThreads held).alive = true := alive_of_inserting hinserting
    apply reaches_client (s := ⟨s.server, s.client.withThreads held⟩) .store halive _ trivial trivial
    have hoffered : (s.client.withThreads held).offered = some s.client.net.localDatagram := by
      unfold Get.offered Get.withThreads
      dsimp only
      rw [hphase]
    dsimp only [Get.act, Get.store]
    rw [hoffered, Option.bind_some]
    change (held.step _).map _ = _
    rw [hwrite]
    rfl
  · simp only [ne_eq, not_forall, not_not] at hstart
    obtain ⟨slot, d, hwritten⟩ := hstart
    exact ⟨s.client.threads, slot, d, hwritten, hinv, .refl _ _ s⟩

theorem reaches_settled {env : Env} (h : Alive a s) (hphase : s.client.phase = .storing env)
    (hroom : s.client.threads.ring.countData < maxBlocksQueued) :
    ∃ t, Goes a s t ∧ t.server = s.server ∧
      (t.client.phase = .receiving ∨ t.client.phase.over = true) := by
  obtain ⟨threads, slot, d, hwritten, hinv, hgoes⟩ := reaches_written (a := a)
    h.session.receiving.inv.ring hphase hroom
  obtain ⟨ring, hconfirm, -⟩ := Threads.confirm_done hinv hwritten
  have hprovides := h.provided
  unfold Get.Provided at hprovides
  rw [hphase] at hprovides
  obtain ⟨c, hc⟩ := afterRing_provided a.lossless hprovides.1 hprovides.2
  have hsettled : ∃ client, (s.client.withThreads threads).act a.client .confirm = some client ∧
      client.phase = if c.finished then .finished else .receiving := by
    dsimp only [Get.act, Get.confirm, Get.withThreads]
    rw [hconfirm, Option.bind_some, hphase]
    dsimp only
    rw [hc]
    exact ⟨_, rfl, rfl⟩
  obtain ⟨client, hstep, hclient⟩ := hsettled
  refine ⟨⟨s.server, client⟩, hgoes.trans (reaches_client (s := ⟨s.server, _⟩) _ h.provided.alive hstep
    trivial trivial), rfl, ?_⟩
  dsimp only
  rw [hclient]
  cases c.finished with
  | true => exact Or.inr rfl
  | false => exact Or.inl rfl

theorem reaches_quiet (hwide : a.server.blockCount < 4294967295) (h : Alive a s)
    (hloop : s.client.phase.inLoop = true) :
    ∃ t, Goes a s t ∧ t.server = s.server ∧ (Quiet t.client ∨ t.client.phase.over = true) := by
  have hrests : ∀ {s : System}, Alive a s → s.client.phase = .receiving →
      ∃ t, Goes a s t ∧ t.server = s.server ∧ Quiet t.client := by
    intro s h hphase
    have hloop : s.client.phase.inLoop = true := by rw [hphase]; rfl
    obtain ⟨t, hgoes, hdrains, hempty⟩ := reaches_drained hwide h hloop
    have hsame := hdrains.phase.trans hphase
    exact ⟨t, hgoes, hdrains.server, hsame, hempty,
      disk_of_empty (alive_goes hwide h hgoes) (by rw [hsame]; rfl) hempty⟩
  cases hphase : s.client.phase with
  | receiving =>
    obtain ⟨t, hgoes, hserver, hquiet⟩ := hrests h hphase
    exact ⟨t, hgoes, hserver, Or.inl hquiet⟩
  | storing env =>
    obtain ⟨mid, hgoes, hdrains, hempty⟩ := reaches_drained hwide h hloop
    have hmid := alive_goes hwide h hgoes
    obtain ⟨t, hgoes', hserver, hend⟩ := reaches_settled hmid (hdrains.phase.trans hphase)
      (by rw [hempty]; decide)
    rcases hend with hreceiving | hover
    · obtain ⟨u, hgoes'', hserver', hquiet⟩ := hrests (alive_goes hwide hmid hgoes') hreceiving
      exact ⟨u, hgoes.trans (hgoes'.trans hgoes''), hserver'.trans (hserver.trans hdrains.server),
        Or.inl hquiet⟩
    · exact ⟨t, hgoes.trans hgoes', hserver.trans hdrains.server, Or.inr hover⟩
  | _ =>
    rw [hphase] at hloop
    cases hloop

end TsunamiUdp

import TsunamiUdp.Client.Success
import TsunamiUdp.Session.Serving

/-! The client's side of a transfer: what the ring holds and what is on the disk, while
every datagram that arrives carries the block it names. -/
namespace TsunamiUdp
open Library Client Client.Ring

variable {a : Agreement}

structure Written (a : Agreement) (accepted : List Nat) (file : List UInt8) : Prop where
  blocks : ∀ b ∈ accepted, ∀ k, blockStart a.server.blockSize b ≤ k →
    k < blockStart a.server.blockSize b + a.server.blockSize → k < a.contents.length →
    file[k]? = a.contents[k]?
  length : file.length ≤ a.contents.length

theorem written_iff_assembled {accepted : List Nat} {file : List UInt8} :
    Written a accepted file ↔ Assembled a.server.blockSize a.contents accepted file :=
  ⟨fun h => ⟨h.blocks, h.length⟩, fun h => ⟨h.inPlace, h.length⟩⟩

theorem Written.complete {accepted : List Nat} {file : List UInt8} (h : Written a accepted file)
    (hall : ∀ b, 1 ≤ b → b ≤ a.server.blockCount → b ∈ accepted) : file = a.contents :=
  (written_iff_assembled.mp h).complete a.size_pos fun b h1 hle => hall b h1 (a.count ▸ hle)

theorem Written.write {accepted : List Nat} {file : List UInt8} {block : Nat}
    (h : Written a accepted file) (h1 : 1 ≤ block) (hle : block ≤ a.server.blockCount) :
    Written a (accepted ++ [block]) (writeAt 0 file (blockStart a.server.blockSize block)
      (blockAt a.server.blockSize a.contents block)) :=
  written_iff_assembled.mpr ((written_iff_assembled.mp h).write 0 a.size_pos h1 (a.count ▸ hle))

theorem Carries.buffer {d old : List UInt8} (h : Carries a d) :
    Carries a (buffer a.client old (.datagram d)) := by
  obtain ⟨block, type, rest, h1, hle, rfl⟩ := h
  unfold Client.buffer
  dsimp only
  rw [a.sameSize, List.take_append, List.take_of_length_le (by simp), List.append_assoc]
  exact ⟨block, type, _, h1, hle, rfl⟩

theorem Carries.accept {d file : List UInt8} {xfer : Client.Transfer} {result : DiskResult}
    (h : Carries a d) (hsize : xfer.fileSize = a.contents.length)
    (hcount : xfer.blockCount = a.server.blockCount)
    (hok : (acceptBlock a.client xfer result (blockNumber d) (d.drop 6) file).ok = true) :
    (acceptBlock a.client xfer result (blockNumber d) (d.drop 6) file).file =
      writeAt 0 file (blockStart a.server.blockSize (blockNumber d))
        (blockAt a.server.blockSize a.contents (blockNumber d)) := by
  obtain ⟨h1, hle⟩ := h.number
  have hnarrow := a.narrow
  obtain ⟨block, type, rest, hb1, hble, rfl⟩ := h
  have hnumber : blockNumber (datagramHeader block type ++
      blockAt a.server.blockSize a.contents block ++ rest) = block := by
    rw [List.append_assoc, blockNumber_header (by omega)]
  rw [hnumber] at hok ⊢
  have hpayload : (datagramHeader block type ++ blockAt a.server.blockSize a.contents block ++
      rest).drop 6 = blockAt a.server.blockSize a.contents block ++ rest := by
    rw [List.append_assoc, List.drop_left' (datagramHeader_length block type)]
  rw [hpayload, ← a.sameSize] at hok ⊢
  exact acceptBlock_placed (a.sameSize ▸ a.size_pos) hsize
    (by rw [hcount, a.sameSize, a.count]) hb1 (hcount ▸ hble) (by omega) hok

/-- Nothing but blocks of the file, each once, and the final stop block went into the
ring; what was taken out of it is on the disk. -/
structure Receiving (a : Agreement) (s : Get) : Prop where
  inv : s.Inv
  fileSize : s.net.xfer.fileSize = a.contents.length
  blockCount : s.net.xfer.blockCount = a.server.blockCount
  once : s.stored.Nodup
  carried : ∀ d ∈ s.threads.confirmed, blockNumber d = 0 ∨ Carries a d
  stop : 0 ∈ s.stored → s.phase = .joining ∨ s.phase = .returned
  incoming : ∀ env, s.phase = .storing env → Carries a s.net.localDatagram
  file : Written a s.accepted s.file

theorem Receiving.start (slots : Int → List UInt8) (onWireEstimate : Nat) :
    Receiving a (.start a.client
      (.start a.contents.length a.server.blockCount onWireEstimate) slots) where
  inv := Get.inv_start _ _ _ _ _
  fileSize := rfl
  blockCount := rfl
  once := List.nodup_nil
  carried := fun d hd => by cases hd
  stop := fun h => by cases h
  incoming := fun env h => by cases h
  file := ⟨(fun b hb => by cases hb), Nat.zero_le _⟩

theorem Receiving.keep {s s' : Get} (h : Receiving a s) (hinv : s'.Inv) (hsame : s.SameFile s')
    (hconfirmed : s'.threads.confirmed = s.threads.confirmed) (hfile : s'.file = s.file)
    (haccepted : s'.accepted = s.accepted)
    (hstop : s.phase = .joining ∨ s.phase = .returned → s'.phase = .joining ∨ s'.phase = .returned)
    (hincoming : ∀ env, s'.phase = .storing env → Carries a s'.net.localDatagram) :
    Receiving a s' := by
  have hstored : s'.stored = s.stored := by rw [Get.stored, Get.stored, hconfirmed]
  refine ⟨hinv, hsame.fileSize.trans h.fileSize, hsame.blockCount.trans h.blockCount, ?_, ?_, ?_,
    hincoming, ?_⟩
  · rw [hstored]
    exact h.once
  · rw [hconfirmed]
    exact h.carried
  · rw [hstored]
    exact fun hz => hstop (h.stop hz)
  · rw [hfile, haccepted]
    exact h.file

theorem Receiving.turn {s s' : Get} {env : Env} (h : Receiving a s) (hinv : s'.Inv)
    (hcarries : Carries a (Client.buffer a.client s.net.localDatagram env.recv))
    (hs : s.turn a.client env = some s') : Receiving a s' := by
  obtain ⟨hphase, hthreads, hfile, haccepted, hstoring⟩ := Get.turn_frame hs
  refine h.keep hinv (Get.sameFile_turn hs) (by rw [hthreads]) hfile haccepted (fun hstop => ?_)
    fun e he => ?_
  · rw [hphase] at hstop
    rcases hstop with hstop | hstop <;> cases hstop
  · rw [hstoring e he]
    exact hcarries

theorem Receiving.confirm {s s' : Get} (h : Receiving a s) (hinv : s'.Inv)
    (hs : s.confirm a.client = some s') : Receiving a s' := by
  obtain ⟨d, hconf, hfile, haccepted, hstoring, hwhy⟩ := Get.confirm_frame h.inv hs
  obtain ⟨hsize, hcount⟩ := Get.sameFile_confirm hs
  have hstored : s'.stored = s.stored ++ [blockNumber d] := by
    rw [Get.stored, Get.stored, hconf, List.map_append]
    rfl
  have hnew : blockNumber d ∉ s.stored := by
    rcases hwhy with ⟨-, -, -, hnew⟩ | ⟨hphase, hzero, -⟩
    · exact hnew
    · rw [hzero]
      intro hmem
      rcases h.stop hmem with hstop | hstop
      · rw [hphase] at hstop
        cases hstop
      · rw [hphase] at hstop
        cases hstop
  refine ⟨hinv, hsize.trans h.fileSize, hcount.trans h.blockCount, ?_, fun e he => ?_, fun hz => ?_,
    fun env he => absurd he (hstoring env), ?_⟩
  · rw [hstored]
    exact h.once.append (List.nodup_singleton _) (List.disjoint_singleton.mpr hnew)
  · rw [hconf] at he
    rcases List.mem_append.mp he with he | he
    · exact h.carried e he
    · obtain rfl := List.mem_singleton.mp he
      rcases hwhy with ⟨env, hphase, rfl, -⟩ | ⟨-, hzero, -⟩
      · exact Or.inr (h.incoming env hphase)
      · exact Or.inl hzero
  · rcases hwhy with ⟨env, hphase, rfl, -⟩ | ⟨-, -, hphase⟩
    · rw [hstored] at hz
      rcases List.mem_append.mp hz with hz | hz
      · rcases h.stop hz with hstop | hstop
        · rw [hphase] at hstop
          cases hstop
        · rw [hphase] at hstop
          cases hstop
      · have hpos := (h.incoming env hphase).number.1
        rw [← List.mem_singleton.mp hz] at hpos
        cases hpos
    · exact Or.inl hphase
  · rw [hfile, haccepted]
    exact h.file

theorem Receiving.requestStop {s s' : Get} {write : WriteResult} (h : Receiving a s)
    (hinv : s'.Inv) (hs : s.requestStop write = some s') : Receiving a s' := by
  obtain ⟨hphase, hs⟩ := Get.requestStop_cases hs
  have hnot : ¬ (s.phase = .joining ∨ s.phase = .returned) := by
    rw [hphase]
    rintro (h | h) <;> cases h
  rcases hs with ⟨-, rfl⟩ | ⟨-, rfl⟩
  · exact h.keep hinv ⟨rfl, rfl⟩ rfl rfl rfl (fun hstop => absurd hstop hnot) fun env he => by cases he
  · exact h.keep hinv ⟨rfl, rfl⟩ rfl rfl rfl (fun hstop => absurd hstop hnot) fun env he => by cases he

theorem Receiving.join {s s' : Get} (h : Receiving a s) (hinv : s'.Inv)
    (hs : s.join = some s') : Receiving a s' := by
  obtain ⟨-, -, rfl⟩ := Get.join_cases hs
  exact h.keep hinv ⟨rfl, rfl⟩ rfl rfl rfl (fun _ => Or.inr rfl) fun env he => by cases he

theorem Receiving.accept {s s' : Get} {result : DiskResult} (h : Receiving a s) (hinv : s'.Inv)
    (hok : ∀ slot d, s.threads.consumer = .read slot d → blockNumber d ≠ 0 →
      (acceptBlock a.client s.net.xfer result (blockNumber d) (d.drop 6) s.file).ok = true)
    (hs : s.accept a.client result = some s') : Receiving a s' := by
  obtain ⟨slot, d, hread, -, ⟨-, rfl⟩ | ⟨hnz, rfl⟩⟩ := Get.accept_cases hs
  · exact h.keep hinv ⟨rfl, rfl⟩ rfl rfl rfl id h.incoming
  · have hok := hok slot d hread hnz
    obtain ⟨rest, hqueue⟩ := Threads.read_head h.inv.ring hread
    have hmem : d ∈ s.threads.confirmed := by
      rw [h.inv.ring.history, hqueue]
      simp
    have hcarries : Carries a d := (h.carried d hmem).resolve_left hnz
    obtain ⟨h1, hle⟩ := hcarries.number
    have hfile := hcarries.accept h.fileSize h.blockCount hok
    refine ⟨hinv, h.fileSize, h.blockCount, h.once, h.carried, h.stop, h.incoming, ?_⟩
    dsimp only
    rw [if_pos hok, hfile]
    exact h.file.write h1 hle

theorem delivers_carries {sent : List (List UInt8)} {old : List UInt8} {recv : Recv}
    (hsent : ∀ d ∈ sent, Carries a d) (h : Delivers sent recv) :
    Carries a (Client.buffer a.client old recv) := by
  cases recv with
  | datagram d => exact (hsent d h).buffer
  | error => exact h.elim

theorem safe_of_reliable {sent : List (List UInt8)} {client : Get} {action : GetAction}
    (hsent : ∀ recv, Delivers sent recv →
      Carries a (Client.buffer a.client client.net.localDatagram recv))
    (h : Reliable a sent client action) : client.Safe a.client action := by
  cases action with
  | turn env =>
    intro hzero
    have hpos := (hsent env.recv h.1).number.1
    omega
  | accept result =>
    unfold Get.Safe Get.FailsEarly
    dsimp only
    split
    · rename_i slot d hread
      intro hnz hfails
      rw [h.accepts hread hnz] at hfails
      cases hfails
    · trivial
  | _ => trivial

theorem Receiving.step {s : System} {client : Get} {action : GetAction}
    (hsent : ∀ d ∈ s.server.sent, Carries a d) (h : Receiving a s.client)
    (hreliable : Reliable a s.server.sent s.client action)
    (hs : s.client.step a.client action = some client) : Receiving a client := by
  have hinv := Get.inv_step a.lossless h.inv
    (safe_of_reliable (fun _ => delivers_carries hsent) hreliable) hs
  have hact := (Get.step_act hs).2
  rcases Get.step_cases hs with hcall | ⟨env, rfl⟩ | rfl | ⟨write, rfl⟩ | rfl | ⟨result, rfl⟩
  · obtain ⟨ring, hring, ht⟩ := hcall.threads
    refine h.keep hinv (Get.sameFile_step hs) (Threads.confirmed_kept h.inv.ring ht hring) hcall.file
      hcall.accepted (fun hstop => ?_) fun env he => ?_
    · rw [hcall.phase]
      exact hstop
    · rw [hcall.phase] at he
      rw [hcall.net]
      exact h.incoming env he
  · exact h.turn hinv (delivers_carries hsent hreliable.1) hact
  · exact h.confirm hinv hact
  · exact h.requestStop hinv hact
  · exact h.join hinv hact
  · exact h.accept hinv (fun slot d hread => hreliable.accepts hread) hact

end TsunamiUdp

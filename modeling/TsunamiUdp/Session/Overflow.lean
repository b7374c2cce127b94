import TsunamiUdp.Session.Moves

/-! The largest number of blocks there is: the server counts on from the last one to
block 0, which the client takes for its own stop block. -/
namespace TsunamiUdp
open Library Client Client.Ring

section Network
variable {param : Client.Parameter} {recv : Recv} {xfer : Client.Transfer} {block : Nat}

theorem afterRing_original (hrestart : xfer.restartPending = false) (hle : block ≤ xfer.nextBlock) :
    afterRing param (.calm recv) xfer block tsBlockOriginal =
      some ⟨false, { closeGap xfer with nextBlock := wrap32 (block + 1) }, []⟩ := by
  have hclear : clearRestart { closeGap xfer with nextBlock := wrap32 (block + 1) } =
      { closeGap xfer with nextBlock := wrap32 (block + 1) } :=
    if_neg fun h => by
      have hset : xfer.restartPending = true := h.1
      rw [hrestart] at hset
      cases hset
  have hcontrol : Client.control param (.calm recv) xfer block tsBlockOriginal =
      some ⟨false, { closeGap xfer with nextBlock := wrap32 (block + 1) }, []⟩ := by
    unfold Client.control
    rw [onWire, hrestart, Bool.false_and, Bool.false_and, if_neg Bool.false_ne_true, queueMissing,
      if_neg (by omega), Option.bind_some, moveHead, if_pos rfl, hclear]
    exact if_neg (by decide)
  unfold afterRing
  rw [hcontrol, Option.bind_some, if_neg Bool.false_ne_true, sendStats_calm]
  rfl

theorem requestRange_received {alloc : Nat → Bool} {n first : Nat}
    (h : ∀ b, first ≤ b → b < first + n → gotBlock xfer b = true) :
    requestRange alloc n first xfer = some xfer := by
  induction n generalizing first with
  | zero => rfl
  | succ n ih =>
    rw [requestRange, ttpRequestRetransmit, if_pos (h first le_rfl (by omega)), Option.bind_some]
    exact ih fun b hb hlt => h b (by omega) (by omega)

theorem afterRing_last (hlossless : param.lossless = true) (hrestart : xfer.restartPending = false)
    (hleft : xfer.blocksLeft = 0)
    (hgot : ∀ b, xfer.nextBlock ≤ b → b < block → gotBlock xfer b = true) :
    afterRing param (.calm recv) xfer block tsBlockTerminate = some ⟨true, closeGap xfer, []⟩ := by
  have hqueue : queueMissing param (.calm recv) xfer block = some xfer := by
    unfold queueMissing
    split
    · rename_i hahead
      exact requestRange_received fun b hb hlt => hgot b hb (by omega)
    · rfl
  have hclear : clearRestart (closeGap xfer) = closeGap xfer :=
    if_neg fun h => by
      have hset : xfer.restartPending = true := h.1
      rw [hrestart] at hset
      cases hset
  have hmove : moveHead block tsBlockTerminate (closeGap xfer) = closeGap xfer := if_neg (by decide)
  have hend : atTerminate param (.calm recv) (closeGap xfer) = some ⟨true, closeGap xfer, []⟩ :=
    if_pos (Or.inl hleft)
  unfold afterRing Client.control
  rw [onWire, hrestart, Bool.false_and, Bool.false_and, if_neg Bool.false_ne_true, hqueue,
    Option.bind_some, hmove, hclear, if_pos rfl, hend]
  rfl

end Network

variable {a : Agreement}

theorem reaches_returned {s : System} (hphase : s.client.phase = .finished) (hinv : Threads.Inv s.client.threads)
    (hidle : s.client.threads.producer = .idle)
    (hroom : s.client.threads.ring.countData < maxBlocksQueued) (hexited : s.client.disk = .exited) :
    ∃ threads sent, Goes a s { s with client := { s.client with
      phase := .returned
      threads := threads
      sent := sent } } := by
  have hstop : s.client.act a.client (.requestStop .ok) = some { s.client with
      phase := .stopping
      sent := s.client.sent ++ [ttpRequestStop] } := by
    dsimp only [Get.act, Get.requestStop]
    rw [hphase]
    rfl
  obtain ⟨offered, held, written, threads, -, -, hconfirm, hreach⟩ :=
    reaches_confirm (a := a) (s := { s with client := { s.client with
      phase := .stopping
      sent := s.client.sent ++ [ttpRequestStop] } }) hinv hidle hroom rfl
  refine ⟨threads, s.client.sent ++ [ttpRequestStop], ?_⟩
  have hjoining : Get.act a.client (Get.withThreads { s.client with
      phase := .stopping
      sent := s.client.sent ++ [ttpRequestStop] } written) .confirm = some { s.client with
        phase := .joining
        threads := threads
        sent := s.client.sent ++ [ttpRequestStop] } := by
    dsimp only [Get.act, Get.confirm, Get.withThreads]
    rw [hconfirm, Option.bind_some]
  have hreturned : Get.act a.client { s.client with
      phase := .joining
      threads := threads
      sent := s.client.sent ++ [ttpRequestStop] } .join = some { s.client with
        phase := .returned
        threads := threads
        sent := s.client.sent ++ [ttpRequestStop] } := by
    dsimp only [Get.act, Get.join]
    rw [if_pos hexited]
  have halive : s.client.alive = true := by rw [Get.alive, hphase]
  refine ReachesAlong.trans (reaches_client _ halive hstop rfl trivial) (hreach.trans ?_)
  refine ReachesAlong.trans (reaches_client _ rfl hjoining trivial trivial) ?_
  exact reaches_client (s := ⟨s.server, _⟩) _ rfl hreturned trivial trivial

structure Paced (now : Int) (loop : Server.Loop) : Prop where
  flow : loop.flow = .next
  bytes : loop.bytes = []
  ready : Server.Ready loop.handler
  report : loop.handler.lasthblostreport = now

theorem reaches_sent {now : Int} {s : System} (h : Paced now s.server) :
    ∃ server d, Paced now server ∧
      server.handler.xfer.block = Server.nextBlock a.server s.server.handler.xfer ∧
      Named (Server.nextBlock a.server s.server.handler.xfer)
        (if Server.nextBlock a.server s.server.handler.xfer = a.server.blockCount then
          tsBlockTerminate else tsBlockOriginal) d ∧
      server.sent = s.server.sent ++ [d] ∧
      Goes a s { s with server := server } := by
  obtain ⟨server, hnext, hgoes⟩ := reaches_next (a := a) h.flow h.ready (by
    rw [h.bytes]
    exact List.nil_prefix)
  obtain ⟨d, hsent, hnamed⟩ := hnext.sent
  exact ⟨server, d, ⟨hnext.flow, hnext.bytes.trans h.bytes, hnext.ready, hnext.report.trans h.report⟩,
    hnext.block, hnamed, hsent, hgoes⟩

structure Flowing (n k : Nat) (xfer : Client.Transfer) : Prop where
  blockCount : xfer.blockCount = n
  nextBlock : xfer.nextBlock = k + 1
  restart : xfer.restartPending = false
  received : ∀ b, xfer.received b = true ↔ 1 ≤ b ∧ b ≤ k
  blocksLeft : xfer.blocksLeft = n - k

theorem Flowing.fresh {n k b : Nat} {xfer : Client.Transfer} (h : Flowing n k xfer)
    (hle : b ≤ n) (hnew : ¬(1 ≤ b ∧ b ≤ k)) : gotBlock xfer b = false := by
  rw [gotBlock_of_le (h.blockCount.symm ▸ hle), ← Bool.not_eq_true, h.received]
  exact hnew

theorem Flowing.next {n k type : Nat} {xfer : Client.Transfer} (h : Flowing n k xfer)
    (hk : k + 1 < n) (hn : n < 4294967296) :
    Flowing n (k + 1) { closeGap (markReceived (countArrival type xfer) (k + 1)) with
      nextBlock := wrap32 (k + 1 + 1) } := by
  have hleft : xfer.blocksLeft > 0 := by
    rw [h.blocksLeft]
    omega
  refine ⟨h.blockCount, wrap32_of_lt (by omega), h.restart, fun b => ?_, ?_⟩
  · change Function.update xfer.received (k + 1) true b = true ↔ _
    by_cases hb : b = k + 1
    · rw [hb, Function.update_self]
      simp
    · rw [Function.update_of_ne hb, h.received]
      omega
  · change (if xfer.blocksLeft > 0 then xfer.blocksLeft - 1 else xfer.blocksLeft) = n - (k + 1)
    rw [if_pos hleft, h.blocksLeft]
    omega

/-- So far nothing was lost, and the disk has kept up. -/
structure Streamed (a : Agreement) (now : Int) (k : Nat) (s : System) : Prop where
  paced : Paced now s.server
  block : s.server.handler.xfer.block = k
  phase : s.client.phase = .receiving
  inv : Threads.Inv s.client.threads
  producer : s.client.threads.producer = .idle
  consumer : s.client.threads.consumer = .idle
  empty : s.client.threads.ring.countData = 0
  disk : s.client.disk = .looping
  accepted : ∀ b ∈ s.client.accepted, b ≤ k
  file : s.client.file.length ≤ a.server.blockSize * k
  flowing : Flowing a.server.blockCount k s.client.net.xfer

theorem Streamed.queued {now : Int} {k : Nat} {s : System} (h : Streamed a now k s) :
    s.client.threads.ring.queued = [] := by
  have hlen := h.inv.consistent.queued_length
  rw [h.empty] at hlen
  exact List.eq_nil_of_length_eq_zero (by exact_mod_cast hlen)

theorem Streamed.next {now : Int} {k : Nat} {s : System} (h : Streamed a now k s)
    (hk : k + 1 < a.server.blockCount) :
    ∃ t, Goes a s t ∧ Streamed a now (k + 1) t := by
  have hnarrow := a.narrow
  obtain ⟨server, d, hpaced, hblock, hnamed, hsent, hreach⟩ := reaches_sent (a := a) h.paced
  have hnext : Server.nextBlock a.server s.server.handler.xfer = k + 1 := by
    unfold Server.nextBlock
    rw [h.block, wrap32_of_lt (by omega)]
    omega
  rw [hnext] at hblock hnamed
  rw [if_neg (by omega)] at hnamed
  have hd : d ∈ server.sent := by
    rw [hsent]
    simp
  obtain ⟨d', u, hnamed', htook, hreach'⟩ := reaches_took (a := a)
    (s := { s with server := server }) hd hnamed (by omega) (by decide) h.phase h.inv h.producer
    (by rw [h.empty]; decide) (h.flowing.fresh (by omega) (by omega))
    (afterRing_original h.flowing.restart (Nat.le_of_eq h.flowing.nextBlock.symm))
  have hnumber : blockNumber d' = k + 1 := hnamed'.number_eq (by omega)
  have hqueue : u.client.threads.ring.queued = [d'] := by
    rw [htook.stored.queued h.inv, h.queued]
    rfl
  obtain ⟨t, hwrote, hreach''⟩ := reaches_wrote (a := a) (alive_of_receiving htook.phase)
    htook.stored.inv (htook.disk.trans h.disk) hqueue (by rw [hnumber]; exact Nat.succ_ne_zero k)
  refine ⟨t, hreach.trans (hreach'.trans hreach''), ?_⟩
  have hserver : t.server = server := hwrote.server.trans htook.server
  constructor
  · rw [hserver]
    exact hpaced
  · rw [hserver]
    exact hblock
  · rw [hwrote.phase, htook.phase]
    rfl
  · exact hwrote.popped.inv
  · rw [hwrote.popped.producer, htook.stored.producer]
    rfl
  · exact hwrote.popped.consumer
  · rw [hwrote.popped.countData, htook.stored.countData, h.empty]
    rfl
  · rw [hwrote.disk, htook.disk, h.disk]
  · intro b hb
    rw [hwrote.accepted, htook.accepted] at hb
    rcases List.mem_append.mp hb with hb | hb
    · exact Nat.le_succ_of_le (h.accepted b hb)
    · rw [List.mem_singleton.mp hb, hnumber]
  · have hlen := hwrote.file
    have hold := h.file
    rw [htook.file, hnumber] at hlen
    have hmono : a.server.blockSize * k ≤ a.server.blockSize * (k + 1) :=
      Nat.mul_le_mul_left _ (Nat.le_succ k)
    dsimp only at hlen
    omega
  · rw [hwrote.net, htook.xfer]
    exact h.flowing.next hk hnarrow

theorem streamed_start (a : Agreement) (ipd : Rat) (datagram : List UInt8) {memory : List UInt8}
    (now : Int) (again : Bool) (onWireEstimate : Nat) (slots : Int → List UInt8)
    (hmemory : memory.length = sizeofRetransmission) :
    Streamed a now 0 (.start a ipd datagram memory now again onWireEstimate slots) where
  paced := ⟨rfl, rfl, ⟨hmemory, (by decide : (0 : Nat) < sizeofRetransmission)⟩, rfl⟩
  block := rfl
  phase := rfl
  inv := Threads.inv_start slots
  producer := rfl
  consumer := rfl
  empty := rfl
  disk := rfl
  accepted := fun b hb => by cases hb
  file := Nat.zero_le _
  flowing := ⟨rfl, rfl, rfl, fun b => ⟨(fun h => by cases h), fun h => by omega⟩, rfl⟩

theorem reaches_streamed {now : Int} {s : System} (h : Streamed a now 0 s) (k : Nat)
    (hk : k < a.server.blockCount) :
    ∃ t, Goes a s t ∧ Streamed a now k t := by
  induction k with
  | zero => exact ⟨s, .refl _ _ _, h⟩
  | succ k ih =>
    obtain ⟨mid, hmid, hstreamed⟩ := ih (by omega)
    obtain ⟨t, ht, hnext⟩ := hstreamed.next hk
    exact ⟨t, hmid.trans ht, hnext⟩

theorem Flowing.miscounted {n k : Nat} {xfer : Client.Transfer} (h : Flowing n k xfer)
    (hk : k + 1 = n) :
    let counted : Client.Transfer := { closeGap (markReceived (countArrival tsBlockOriginal xfer) 0) with
      nextBlock := wrap32 (0 + 1) }
    gotBlock counted n = false ∧
      (markReceived (countArrival tsBlockTerminate counted) n).blocksLeft = 0 ∧
      ∀ b, 1 ≤ b → b < n →
        gotBlock (markReceived (countArrival tsBlockTerminate counted) n) b = true := by
  intro counted
  have hreceived : ∀ b, 1 ≤ b → b ≤ n → gotBlock counted b = xfer.received b := by
    intro b h1 hle
    have hcount : counted.blockCount = n := h.blockCount
    rw [gotBlock_of_le (hcount.symm ▸ hle)]
    exact Function.update_of_ne (by omega : b ≠ 0) true xfer.received
  have hleft : counted.blocksLeft = 0 := by
    change (if xfer.blocksLeft > 0 then xfer.blocksLeft - 1 else xfer.blocksLeft) = 0
    rw [h.blocksLeft]
    split <;> omega
  refine ⟨?_, ?_, fun b h1 hlt => ?_⟩
  · rw [hreceived n (by omega) le_rfl, ← Bool.not_eq_true, h.received]
    omega
  · change (if counted.blocksLeft > 0 then counted.blocksLeft - 1 else counted.blocksLeft) = 0
    rw [hleft]
    rfl
  · rw [gotBlock_markReceived]
    change (gotBlock counted b || _) = true
    rw [hreceived b h1 (by omega), (h.received b).mpr (by omega), Bool.true_or]

/-- The server goes on to block 0 while the last block is on its way. The client takes it
for a block, and its disk thread takes it for the end. -/
theorem reaches_overflow (hwide : a.server.blockCount = 4294967295) {now : Int} {k : Nat}
    {s : System} (h : Streamed a now k s) (hk : k + 1 = a.server.blockCount) :
    ∃ t, Goes a s t ∧ t.client.phase = .returned ∧
      t.client.accepted = s.client.accepted ∧ t.client.file = s.client.file := by
  obtain ⟨server₁, last, hpaced₁, hblock₁, hlast, hsent₁, hreach₁⟩ := reaches_sent (a := a) h.paced
  have hnext₁ : Server.nextBlock a.server s.server.handler.xfer = a.server.blockCount := by
    unfold Server.nextBlock
    rw [h.block, wrap32_of_lt (by omega), hk, Nat.min_self]
  rw [hnext₁] at hblock₁ hlast
  rw [if_pos rfl] at hlast
  obtain ⟨server₂, first, -, -, hfirst, hsent₂, hreach₂⟩ :=
    reaches_sent (a := a) (s := ⟨server₁, s.client⟩) hpaced₁
  have hnext₂ : Server.nextBlock a.server server₁.handler.xfer = 0 := by
    unfold Server.nextBlock
    rw [hblock₁, hwide]
    rfl
  rw [hnext₂, if_neg (by omega)] at hfirst
  obtain ⟨hnew, hleft, hgot⟩ := h.flowing.miscounted hk
  obtain ⟨d₀, u, hnamed₀, htook₀, hreach₃⟩ := reaches_took (a := a) (s := ⟨server₂, s.client⟩)
    (by rw [hsent₂]; simp) hfirst (by decide) (by decide) h.phase h.inv h.producer
    (by rw [h.empty]; decide) (h.flowing.fresh (Nat.zero_le _) (by omega))
    (afterRing_original h.flowing.restart (Nat.zero_le _))
  have hcount₀ : u.client.threads.ring.countData = 1 := by
    rw [htook₀.stored.countData, h.empty]
    rfl
  have hqueue : u.client.threads.ring.queued = [d₀] := by
    rw [htook₀.stored.queued h.inv, h.queued]
    rfl
  obtain ⟨slot, hlooks, hreach₄⟩ := reaches_exited (a := a) (alive_of_receiving htook₀.phase)
    htook₀.stored.inv
    (htook₀.disk.trans h.disk) hqueue
    (hnamed₀.number_eq (by decide))
  let stopped : Get := { u.client with
    threads := { u.client.threads with consumer := .read slot d₀ }
    disk := .exited }
  have hxfer : stopped.net.xfer = _ := htook₀.xfer
  obtain ⟨d₁, v, -, htook₁, hreach₅⟩ := reaches_took (a := a) (s := ⟨u.server, stopped⟩)
    (by rw [htook₀.server, hsent₂, hsent₁]; simp) hlast a.narrow (by decide) htook₀.phase hlooks
    htook₀.stored.producer (lt_of_eq_of_lt hcount₀ (by decide)) (by rw [hxfer]; exact hnew)
    (afterRing_last a.lossless (by rw [hxfer]; exact h.flowing.restart) (by rw [hxfer]; exact hleft)
      fun b hb hlt => by rw [hxfer] at hb ⊢; exact hgot b hb hlt)
  have hcount₁ : v.client.threads.ring.countData = 2 := by
    rw [htook₁.stored.countData]
    exact congrArg (· + 1) hcount₀
  obtain ⟨threads, sent, hreach₆⟩ := reaches_returned (a := a) htook₁.phase htook₁.stored.inv
    htook₁.stored.producer (lt_of_eq_of_lt hcount₁ (by decide)) htook₁.disk
  exact ⟨_, hreach₁.trans (hreach₂.trans (hreach₃.trans (hreach₄.trans (hreach₅.trans hreach₆)))),
    rfl, htook₁.accepted.trans htook₀.accepted, htook₁.file.trans htook₀.file⟩

/-- Whatever the network does and however the threads interleave, `command_get` returns
only when the file has been transferred, unless the file has 2^32 - 1 blocks. -/
theorem lossless_get_correct (a : Agreement) (ipd : Rat) (datagram memory : List UInt8) (now : Int)
    (again : Bool) (onWireEstimate : Nat) (slots : Int → List UInt8)
    (hmemory : memory.length = sizeofRetransmission) :
    (∀ actions t, run (System.step a)
        (.start a ipd datagram memory now again onWireEstimate slots) actions = some t →
      t.client.phase = .returned → Transferred a t.client) ↔
    a.server.blockCount < 4294967295 := by
  constructor
  · intro hall
    by_contra hnarrow
    have hwide : a.server.blockCount = 4294967295 := by
      have := a.narrow
      omega
    obtain ⟨s, ⟨before, -, hbefore⟩, hstreamed⟩ := reaches_streamed
      (streamed_start a ipd datagram now again onWireEstimate slots hmemory) 4294967294 (by omega)
    obtain ⟨t, ⟨rest, -, hrest⟩, hreturned, haccepted, -⟩ := reaches_overflow hwide hstreamed (by omega)
    have htransferred := hall _ t (run_append_of hbefore hrest) hreturned
    have hlast := htransferred.once 4294967295 (by omega) (by omega)
    have hmem : 4294967295 ∈ s.client.accepted := by
      rw [← haccepted]
      exact List.count_pos_iff.mp (by omega)
    have hle := hstreamed.accepted _ hmem
    omega
  · intro hwide actions t hrun hreturned
    exact (session_run hwide (session_start ipd hmemory) hrun).receiving.transferred hreturned

def oneByteFile : Agreement where
  order := .little
  server := ⟨1, 1, 0, 0, 1, 1, 1, 1, 15⟩
  client := ⟨1, true, 0, 25⟩
  contents := [7]
  sameSize := rfl
  size_pos := by decide
  size_le := by decide
  nonempty := by decide
  count := rfl
  narrow := by decide
  lossless := rfl

def oneByteRun : List SystemAction :=
  let last : List GetAction := [.pop, .peek, .read, .accept (.wrote 1), .join]
  .server .idle :: (oneBlockRun (.wrote 1) ++ last).map .client

theorem lossless_get_correct_sample :
    ∃ t, run (System.step oneByteFile)
        (.start oneByteFile 0 [] (List.replicate 12 0) 0 false 0 fun _ => List.replicate 7 0)
        oneByteRun = some t ∧ Transferred oneByteFile t.client := by
  have hrun : ∃ t, run (System.step oneByteFile)
      (.start oneByteFile 0 [] (List.replicate 12 0) 0 false 0 fun _ => List.replicate 7 0)
      oneByteRun = some t ∧ t.client.phase = .returned := ⟨_, rfl, rfl⟩
  obtain ⟨t, ht, hreturned⟩ := hrun
  exact ⟨t, ht, (lossless_get_correct oneByteFile 0 [] (List.replicate 12 0) 0 false 0
    (fun _ => List.replicate 7 0) rfl).mpr (by decide) oneByteRun t ht hreturned⟩

/-- A file of as many blocks of one byte as there can be. -/
def widestFile : Agreement where
  order := .little
  server := ⟨1, 4294967295, 0, 0, 1, 1, 1, 1, 15⟩
  client := ⟨1, true, 0, 25⟩
  contents := List.replicate 4294967295 7
  sameSize := rfl
  size_pos := by decide
  size_le := by decide
  nonempty := by rw [List.length_replicate]; decide
  count := by rw [List.length_replicate]; rfl
  narrow := by decide
  lossless := rfl

/-- Its last block is never written, and the file is one byte short. -/
theorem last_block_not_written :
    ∃ actions t, run (System.step widestFile)
        (.start widestFile 0 [] (List.replicate 12 0) 0 false 0 fun _ => []) actions = some t ∧
      t.client.phase = .returned ∧ t.client.accepted.count 4294967295 = 0 ∧
      t.client.file ≠ widestFile.contents := by
  have hmemory : (List.replicate 12 (0 : UInt8)).length = sizeofRetransmission := rfl
  obtain ⟨s, ⟨before, -, hbefore⟩, hstreamed⟩ := reaches_streamed
    (streamed_start widestFile 0 [] 0 false 0 (fun _ => []) hmemory) 4294967294 (by decide)
  obtain ⟨t, ⟨rest, -, hrest⟩, hreturned, haccepted, hfile⟩ := reaches_overflow rfl hstreamed rfl
  refine ⟨_, t, run_append_of hbefore hrest, hreturned, ?_, fun heq => ?_⟩
  · rw [haccepted, List.count_eq_zero]
    intro hmem
    have hle := hstreamed.accepted _ hmem
    omega
  · have hlen := hstreamed.file
    rw [← hfile, heq] at hlen
    have hcontents : widestFile.contents.length = 4294967295 := List.length_replicate
    have hsize : widestFile.server.blockSize = 1 := rfl
    rw [hcontents, hsize] at hlen
    omega

end TsunamiUdp

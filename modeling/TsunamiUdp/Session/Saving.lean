import TsunamiUdp.Library.Patches
import TsunamiUdp.Session.Correct

/-! A transfer in any mode: with retransmissions, with those of a window of time, or without
any. The client's own parameters say which; what the file holds does not depend on them. -/
namespace TsunamiUdp
open Library Client Client.Ring

/-- The transfer has just been opened by a client with these parameters. -/
def System.startIn (a : Agreement) (param : Client.Parameter) (ipd : Rat)
    (datagram memory : List UInt8) (now : Int) (again : Bool) (onWireEstimate : Nat)
    (slots : Int → List UInt8) : System where
  server := (System.start a ipd datagram memory now again onWireEstimate slots).server
  client := .start param (.start a.contents.length a.server.blockCount onWireEstimate) slots

def System.stepIn (a : Agreement) (param : Client.Parameter) (s : System) :
    SystemAction → Option System
  | .server input => s.step a (.server input)
  | .client action =>
    if Reliable a s.server.sent s.client action then
      (s.client.step param action).map fun client => { s with client := client }
    else none

namespace Client.Get

def stops (s : Get) : List Nat :=
  match s.phase with
  | .joining | .returned => [0]
  | _ => []

def Outgoing (a : Agreement) (s : Get) : Prop :=
  match s.phase with
  | .storing _ => Carries a s.net.localDatagram ∧
      gotBlock s.net.xfer (blockNumber s.net.localDatagram) = false ∧
      ∀ slot d, s.threads.producer = .written slot d → d = s.net.localDatagram
  | .stopping => ∀ slot d, s.threads.producer = .written slot d → blockNumber d = 0
  | .returned => s.disk = .exited
  | _ => True

def WritesAll (s : Get) : Prop :=
  match s.disk with
  | .looping => s.accepted = s.threads.consumed.map blockNumber
  | .accepted => ∃ slot d, s.threads.consumer = .read slot d ∧
      s.accepted = s.threads.consumed.map blockNumber ++ [blockNumber d]
  | .exited => s.accepted = s.threads.consumed.map blockNumber ∧
      ∃ slot d, s.threads.consumer = .read slot d ∧ blockNumber d = 0

section Frames
variable {a : Agreement} {s s' : Get}

theorem WritesAll.keep (h : WritesAll s) (hdisk : s'.disk = s.disk)
    (haccepted : s'.accepted = s.accepted) (hconsumed : s'.threads.consumed = s.threads.consumed)
    (hread : ∀ slot d, s.threads.consumer = .read slot d → s'.threads.consumer = .read slot d) :
    WritesAll s' := by
  unfold WritesAll at h ⊢
  rw [hdisk, haccepted, hconsumed]
  split at h
  · exact h
  · obtain ⟨slot, d, hc, heq⟩ := h
    exact ⟨slot, d, hread slot d hc, heq⟩
  · obtain ⟨heq, slot, d, hc, hzero⟩ := h
    exact ⟨heq, slot, d, hread slot d hc, hzero⟩

theorem Outgoing.keep (h : Outgoing a s) (hnet : s'.net = s.net) (hphase : s'.phase = s.phase)
    (hwritten : ∀ slot d, s'.threads.producer = .written slot d →
      s.threads.producer = .written slot d)
    (hexited : s.disk = .exited → s'.disk = .exited) : Outgoing a s' := by
  unfold Outgoing at h ⊢
  rw [hphase, hnet]
  split at h
  · exact ⟨h.1, h.2.1, fun slot d hw => h.2.2 slot d (hwritten slot d hw)⟩
  · exact fun slot d hw => h slot d (hwritten slot d hw)
  · exact hexited h
  · trivial

end Frames

end Client.Get

open Client.Get

variable {a : Agreement}

/-- These blocks went into the ring, each once, and nothing else but the stop block at the end;
what was taken out of it is in the file, and nothing else is. -/
structure Saving (a : Agreement) (blocks : List Nat) (s : Get) : Prop where
  ring : Threads.Inv s.threads
  idle : s.inserting = false → s.threads.producer = .idle
  fileSize : s.net.xfer.fileSize = a.contents.length
  blockCount : s.net.xfer.blockCount = a.server.blockCount
  stored : s.stored = blocks ++ s.stops
  once : blocks.Nodup
  real : ∀ b ∈ blocks, 1 ≤ b ∧ b ≤ a.server.blockCount
  received : ∀ b, s.net.xfer.received b = true ↔ b ∈ blocks
  carried : ∀ d ∈ s.threads.confirmed, blockNumber d = 0 ∨ Carries a d
  outgoing : s.Outgoing a
  disk : s.WritesAll
  file : s.file = patched 0 a.server.blockSize a.contents s.accepted
  nonzero : 0 ∉ s.accepted

namespace Saving
variable {param : Client.Parameter} {blocks : List Nat} {s s' : Get}

theorem start (param : Client.Parameter) (onWireEstimate : Nat) (slots : Int → List UInt8) :
    Saving a [] (.start param
      (.start a.contents.length a.server.blockCount onWireEstimate) slots) where
  ring := Threads.inv_start slots
  idle := fun _ => rfl
  fileSize := rfl
  blockCount := rfl
  stored := rfl
  once := List.nodup_nil
  real := fun b hb => by cases hb
  received := fun b => by simp [Get.start, Net.start, Client.Transfer.start]
  carried := fun d hd => by cases hd
  outgoing := trivial
  disk := rfl
  file := rfl
  nonzero := fun hz => by cases hz

theorem diskCall {action : Action (List UInt8)} {threads : Threads (List UInt8)}
    (h : Saving a blocks s) (hs : s.threads.step action = some threads)
    (hside : action.consumes = true) (hdisk : (s.afterRingCall threads).WritesAll)
    (hexited : s.disk ≠ .exited) : Saving a blocks (s.afterRingCall threads) := by
  have hconf : threads.confirmed = s.threads.confirmed :=
    Threads.confirmed_kept h.ring hs fun heq => by rw [heq] at hside; cases hside
  have hstored : (s.afterRingCall threads).stored = s.stored := congrArg (List.map blockNumber) hconf
  refine ⟨Threads.inv_step action h.ring hs, fun hi => Threads.idle_kept hs hside (h.idle hi),
    h.fileSize, h.blockCount, hstored.trans h.stored, h.once, h.real, h.received, ?_, ?_, hdisk,
    h.file, h.nonzero⟩
  · change ∀ d ∈ threads.confirmed, _
    rw [hconf]
    exact h.carried
  · exact h.outgoing.keep rfl rfl (fun _ _ hw => Threads.written_kept hs hside hw)
      fun he => absurd he hexited

theorem writesAll_looping {action : Action (List UInt8)} {threads : Threads (List UInt8)}
    (h : Saving a blocks s) (hs : s.threads.step action = some threads) (hdisk : s.disk = .looping)
    (hconfirm : action ≠ .confirm) (hpop : action ≠ .pop) : (s.afterRingCall threads).WritesAll := by
  have hloop := h.disk
  have hstill : (s.afterRingCall threads).disk = .looping := by
    unfold afterRingCall
    dsimp only
    split
    · rfl
    · exact hdisk
  unfold WritesAll at hloop ⊢
  rw [hdisk] at hloop
  rw [hstill]
  change s.accepted = threads.consumed.map blockNumber
  rw [(Threads.silent_logs h.ring hs hconfirm hpop).2]
  exact hloop

theorem looping {action : Action (List UInt8)} {threads : Threads (List UInt8)}
    (h : Saving a blocks s) (hs : s.threads.step action = some threads)
    (hside : action.consumes = true) (hdisk : s.disk = .looping) (hconfirm : action ≠ .confirm)
    (hpop : action ≠ .pop) : Saving a blocks (s.afterRingCall threads) :=
  h.diskCall hs hside (h.writesAll_looping hs hdisk hconfirm hpop) (by rw [hdisk]; decide)

theorem consumerWakes (h : Saving a blocks s) (hs : s.consumerWakes = some s') :
    Saving a blocks s' := by
  obtain ⟨threads, ht, rfl⟩ := Option.map_eq_some_iff.mp hs
  have hdisk : s.disk = .looping := by
    have hplace := h.disk
    unfold WritesAll at hplace
    split at hplace
    · assumption
    · obtain ⟨slot, d, hread, -⟩ := hplace
      exact absurd hread (Threads.consumerWakes_not_read ht)
    · obtain ⟨-, slot, d, hread, -⟩ := hplace
      exact absurd hread (Threads.consumerWakes_not_read ht)
  exact h.looping ht rfl hdisk (by simp) (by simp)

theorem pop (h : Saving a blocks s) (hs : s.pop = some s') : Saving a blocks s' := by
  obtain ⟨hdisk, threads, ht, rfl⟩ := call_cases hs
  refine h.diskCall ht rfl ?_ (by rw [hdisk]; decide)
  have hplace := h.disk
  unfold WritesAll at hplace ⊢
  rw [hdisk] at hplace
  obtain ⟨slot, d, hread, haccepted⟩ := hplace
  obtain ⟨_, _, hread', hcons, -, hidle⟩ := Threads.pop_visible h.ring ht
  rw [hread] at hread'
  cases hread'
  have hback : (s.afterRingCall threads).disk = .looping := by
    unfold afterRingCall
    dsimp only
    rw [hidle]
  rw [hback]
  change s.accepted = threads.consumed.map blockNumber
  rw [hcons, haccepted, List.map_append]
  rfl

theorem accept {result : DiskResult} (h : Saving a blocks s)
    (hok : ∀ slot d, s.threads.consumer = .read slot d → blockNumber d ≠ 0 →
      (acceptBlock param s.net.xfer result (blockNumber d) (d.drop 6) s.file).ok = true)
    (hsize : param.blockSize = a.server.blockSize)
    (hs : s.accept param result = some s') : Saving a blocks s' := by
  obtain ⟨slot, d, hread, hdisk, hs⟩ := accept_cases hs
  have hplace := h.disk
  unfold WritesAll at hplace
  rw [hdisk] at hplace
  have hexited : ∀ {p : Prop}, s.disk = .exited → p := fun he => by rw [hdisk] at he; cases he
  rcases hs with ⟨hzero, rfl⟩ | ⟨hnz, rfl⟩
  · exact ⟨h.ring, h.idle, h.fileSize, h.blockCount, h.stored, h.once, h.real, h.received, h.carried,
      h.outgoing.keep rfl rfl (fun _ _ hw => hw) hexited, ⟨hplace, slot, d, hread, hzero⟩, h.file, h.nonzero⟩
  · have hok := hok slot d hread hnz
    obtain ⟨rest, hqueue⟩ := Threads.read_head h.ring hread
    have hmem : d ∈ s.threads.confirmed := by
      rw [h.ring.history, hqueue]
      simp
    obtain ⟨block, type, more, h1, hle, rfl⟩ := (h.carried d hmem).resolve_left hnz
    have hnarrow := a.narrow
    have hnumber : blockNumber (datagramHeader block type ++
        blockAt a.server.blockSize a.contents block ++ more) = block := by
      rw [List.append_assoc, blockNumber_header (by omega)]
    have hpayload : (datagramHeader block type ++ blockAt a.server.blockSize a.contents block ++
        more).drop 6 = blockAt a.server.blockSize a.contents block ++ more := by
      rw [List.append_assoc, List.drop_left' (datagramHeader_length block type)]
    rw [hnumber, hpayload] at hok ⊢
    rw [if_pos hok, if_pos hok] at *
    have hfile := acceptBlock_placed (hsize ▸ a.size_pos) h.fileSize
      (by rw [h.blockCount, hsize, a.count]) h1 (h.blockCount ▸ hle) (by omega)
      (by rw [hsize]; exact hok)
    rw [hsize] at hfile
    refine ⟨h.ring, h.idle, h.fileSize, h.blockCount, h.stored, h.once, h.real, h.received, h.carried,
      h.outgoing.keep rfl rfl (fun _ _ hw => hw) hexited, ⟨slot, _, hread, ?_⟩, ?_, ?_⟩
    · rw [hnumber, hplace]
    · dsimp only
      rw [hfile, h.file]
      exact patched_write a.size_pos h1 (a.count ▸ hle)
    · dsimp only
      rw [List.mem_append, List.mem_singleton]
      rintro (hz | hz)
      · exact h.nonzero hz
      · omega

theorem insertCall {action : Action (List UInt8)} {threads : Threads (List UInt8)}
    (h : Saving a blocks s) (hs : s.threads.step action = some threads)
    (hside : action.consumes = false) (hconfirm : action ≠ .confirm) (hinserting : s.inserting = true)
    (hwritten : ∀ slot d, threads.producer = .written slot d → s.offered = some d) :
    Saving a blocks (s.withThreads threads) := by
  have hpop : action ≠ .pop := fun heq => by rw [heq] at hside; cases hside
  obtain ⟨hconf, hcons⟩ := Threads.silent_logs h.ring hs hconfirm hpop
  have hstored : (s.withThreads threads).stored = s.stored := congrArg (List.map blockNumber) hconf
  refine ⟨Threads.inv_step action h.ring hs, fun hi => ?_, h.fileSize, h.blockCount,
    hstored.trans h.stored, h.once, h.real, h.received, ?_, ?_,
    h.disk.keep rfl rfl hcons fun _ _ hr => Threads.read_kept hs hside hr, h.file, h.nonzero⟩
  · rw [show (s.withThreads threads).inserting = s.inserting from rfl, hinserting] at hi
    cases hi
  · change ∀ d ∈ threads.confirmed, _
    rw [hconf]
    exact h.carried
  · have hout := h.outgoing
    unfold inserting at hinserting
    unfold Outgoing at hout ⊢
    unfold offered at hwritten
    dsimp only [withThreads]
    split at hinserting
    · rename_i env hphase
      rw [hphase] at hout hwritten ⊢
      exact ⟨hout.1, hout.2.1, fun slot d hw => (Option.some.inj (hwritten slot d hw)).symm⟩
    · rename_i hphase
      rw [hphase] at hwritten ⊢
      intro slot d hw
      obtain ⟨b, -, rfl⟩ := Option.map_eq_some_iff.mp (hwritten slot d hw)
      exact blockNumber_zero _
    · cases hinserting

theorem reserve (h : Saving a blocks s) (hs : s.reserve = some s') : Saving a blocks s' := by
  obtain ⟨hinserting, threads, ht, rfl⟩ := call_cases hs
  refine h.insertCall ht rfl (by simp) hinserting fun slot d hw => ?_
  exact absurd hw (Threads.reserve_not_written ht)

theorem producerWakes (h : Saving a blocks s) (hs : s.producerWakes = some s') :
    Saving a blocks s' := by
  obtain ⟨threads, ht, rfl⟩ := Option.map_eq_some_iff.mp hs
  have hinserting : s.inserting = true := by
    by_contra hnot
    exact Threads.producerWakes_busy ht (h.idle (by simpa using hnot))
  refine h.insertCall ht rfl (by simp) hinserting fun slot d hw => ?_
  exact absurd hw (Threads.producerWakes_not_written ht)

theorem store (h : Saving a blocks s) (hs : s.store = some s') : Saving a blocks s' := by
  obtain ⟨e, he, hs⟩ := Option.bind_eq_some_iff.mp hs
  obtain ⟨threads, ht, rfl⟩ := Option.map_eq_some_iff.mp hs
  have hinserting : s.inserting = true := by
    unfold offered at he
    unfold inserting
    split at he
    · rfl
    · rfl
    · cases he
  refine h.insertCall ht rfl (by simp) hinserting fun slot d hw => ?_
  rw [Threads.write_written ht hw]
  exact he

theorem settle {kill : Bool} {rest : Option Controlled}
    (h : Saving a blocks { s with phase := .receiving })
    (hidle : s.threads.producer = .idle)
    (hrest : ∀ c, rest = some c → SameBlocks s.net.xfer c.xfer) :
    Saving a blocks (s.settle kill rest) := by
  have hstored : s.stored = blocks := h.stored.trans (List.append_nil _)
  cases rest with
  | none =>
    cases kill
    all_goals
      refine ⟨h.ring, fun _ => hidle, h.fileSize, h.blockCount, ?_, h.once, h.real, h.received,
        h.carried, trivial, h.disk.keep rfl rfl rfl fun _ _ hr => hr, h.file, h.nonzero⟩
      exact hstored.trans (List.append_nil _).symm
  | some c =>
    have hsame := hrest c rfl
    have hgoes : (s.settle kill (some c)).phase = .finished ∨
        (s.settle kill (some c)).phase = .receiving := by
      cases hc : c.finished with
      | true => exact .inl (by simp [Get.settle, hc])
      | false => exact .inr (by simp [Get.settle, hc])
    have hstops : (s.settle kill (some c)).stops = [] := by
      unfold stops
      rcases hgoes with hgoes | hgoes <;> rw [hgoes]
    refine ⟨h.ring, fun _ => hidle, hsame.fileSize.trans h.fileSize,
      hsame.blockCount.trans h.blockCount, ?_, h.once, h.real, fun b => ?_, h.carried, ?_,
      h.disk.keep rfl rfl rfl fun _ _ hr => hr, h.file, h.nonzero⟩
    · rw [hstops, List.append_nil]
      exact hstored
    · rw [← h.received]
      exact iff_of_eq (congrArg (fun f : Nat → Bool => f b = true) hsame.received)
    · unfold Outgoing
      rcases hgoes with hgoes | hgoes <;> rw [hgoes] <;> trivial

theorem turn {env : Env} (h : Saving a blocks s)
    (hcarries : Carries a (Client.buffer param s.net.localDatagram env.recv))
    (hs : s.turn param env = some s') : Saving a blocks s' := by
  obtain ⟨hphase, -, hs⟩ := turn_cases hs
  have hidle : s.threads.producer = .idle := h.idle (by rw [inserting, hphase])
  have hstops : s.stops = [] := by rw [stops, hphase]
  have hstored := h.stored
  rw [hstops] at hstored
  obtain ⟨-, rfl⟩ | ⟨net, sent, harrive, hs⟩ := hs
  · exact ⟨h.ring, fun _ => hidle, h.fileSize, h.blockCount, hstored, h.once, h.real, h.received,
      h.carried, trivial, h.disk.keep rfl rfl rfl fun _ _ hr => hr, h.file, h.nonzero⟩
  · obtain ⟨hsame, hbuf⟩ := arrive_spec harrive
    have hreceived : ∀ b, net.xfer.received b = true ↔ b ∈ blocks := by
      intro b
      rw [hsame.received]
      exact h.received b
    have harrived :
        Saving a blocks { s with net := net, sent := s.sent ++ sent, phase := .receiving } :=
      ⟨h.ring, fun _ => hidle, hsame.fileSize.trans h.fileSize, hsame.blockCount.trans h.blockCount,
        hstored, h.once, h.real, hreceived, h.carried, trivial,
        h.disk.keep rfl rfl rfl fun _ _ hr => hr, h.file, h.nonzero⟩
    rcases hs with ⟨-, hnew, rfl⟩ | ⟨-, -, rfl⟩ | ⟨-, rfl⟩
    · refine ⟨h.ring, (fun hi => by cases hi), hsame.fileSize.trans h.fileSize,
        hsame.blockCount.trans h.blockCount, hstored, h.once, h.real, hreceived, h.carried,
        ⟨?_, hnew, fun slot d hw => ?_⟩, h.disk.keep rfl rfl rfl fun _ _ hr => hr, h.file, h.nonzero⟩
      · dsimp only
        rw [hbuf]
        exact hcarries
      · dsimp only at hw
        rw [hidle] at hw
        cases hw
    · exact settle harrived hidle fun c hc => sameBlocks_afterRing hc
    · exact settle harrived hidle fun c hc => (sameBlocks_stats hc).1

theorem confirm (h : Saving a blocks s) (hs : s.confirm param = some s') :
    ∃ blocks', Saving a blocks' s' := by
  obtain ⟨threads, ht, hs⟩ := confirm_cases hs
  obtain ⟨slot, d, hwritten, hconf, hcons, hidle⟩ := Threads.confirm_visible h.ring ht
  have hring := Threads.inv_step _ h.ring ht
  have hread : ∀ slot d, s.threads.consumer = .read slot d → threads.consumer = .read slot d :=
    fun _ _ hr => Threads.read_kept ht rfl hr
  have hstored : threads.confirmed.map blockNumber = s.stored ++ [blockNumber d] := by
    rw [hconf, List.map_append]
    rfl
  have hold := h.stored
  have hout := h.outgoing
  unfold Outgoing at hout
  rcases hs with ⟨env, hphase, rfl⟩ | ⟨hphase, rfl⟩
  · rw [hphase] at hout
    obtain ⟨hcarries, hnew, hlocal⟩ := hout
    obtain rfl := hlocal slot d hwritten
    have hstops : s.stops = [] := by rw [stops, hphase]
    rw [hstops, List.append_nil] at hold
    rw [hold] at hstored
    have hfresh : blockNumber s.net.localDatagram ∉ blocks := by
      rw [← h.received, ← gotBlock_of_le (le_of_not_gotBlock hnew), hnew]
      exact Bool.false_ne_true
    refine ⟨blocks ++ [blockNumber s.net.localDatagram], settle ⟨hring, fun _ => hidle, h.fileSize,
      h.blockCount, hstored.trans (List.append_nil _).symm,
      h.once.append (List.nodup_singleton _) (List.disjoint_singleton.mpr hfresh),
      fun b hb => ?_, fun b => ?_, fun e he => ?_, trivial, h.disk.keep rfl rfl hcons hread, h.file, h.nonzero⟩
      hidle fun c hc => sameBlocks_afterRing hc⟩
    · rcases List.mem_append.mp hb with hb | hb
      · exact h.real b hb
      · rw [List.mem_singleton.mp hb]
        exact hcarries.number
    · dsimp only
      rw [List.mem_append, List.mem_singleton, ← h.received]
      by_cases hb : b = blockNumber s.net.localDatagram
      · simp [hb, markReceived]
      · simp [hb, received_markReceived_of_ne hb]
    · dsimp only at he
      rw [hconf] at he
      rcases List.mem_append.mp he with he | he
      · exact h.carried e he
      · rw [List.mem_singleton.mp he]
        exact .inr hcarries
  · rw [hphase] at hout
    have hzero := hout slot d hwritten
    refine ⟨blocks, hring, fun _ => hidle, h.fileSize, h.blockCount, ?_, h.once, h.real, h.received,
      fun e he => ?_, trivial, h.disk.keep rfl rfl hcons hread, h.file, h.nonzero⟩
    · rw [stops, hphase, List.append_nil] at hold
      change threads.confirmed.map blockNumber = blocks ++ [0]
      rw [hstored, hold, hzero]
    · dsimp only at he
      rw [hconf] at he
      rcases List.mem_append.mp he with he | he
      · exact h.carried e he
      · rw [List.mem_singleton.mp he]
        exact .inl hzero

theorem requestStop {write : WriteResult} (h : Saving a blocks s)
    (hs : s.requestStop write = some s') : Saving a blocks s' := by
  obtain ⟨hphase, hs⟩ := requestStop_cases hs
  have hidle : s.threads.producer = .idle := h.idle (by rw [inserting, hphase])
  have hstored : s.stored = blocks ++ [] := by
    rw [h.stored, stops, hphase]
  rcases hs with ⟨-, rfl⟩ | ⟨-, rfl⟩
  · refine ⟨h.ring, (fun hi => by cases hi), h.fileSize, h.blockCount, hstored, h.once, h.real,
      h.received, h.carried, fun slot d hw => ?_, h.disk.keep rfl rfl rfl fun _ _ hr => hr, h.file, h.nonzero⟩
    dsimp only at hw
    rw [hidle] at hw
    cases hw
  · exact ⟨h.ring, fun _ => hidle, h.fileSize, h.blockCount, hstored, h.once, h.real, h.received,
      h.carried, trivial, h.disk.keep rfl rfl rfl fun _ _ hr => hr, h.file, h.nonzero⟩

theorem join (h : Saving a blocks s) (hs : s.join = some s') : Saving a blocks s' := by
  obtain ⟨hphase, hexited, rfl⟩ := join_cases hs
  have hidle : s.threads.producer = .idle := h.idle (by rw [inserting, hphase])
  have hstored : s.stored = blocks ++ [0] := by
    rw [h.stored, stops, hphase]
  exact ⟨h.ring, fun _ => hidle, h.fileSize, h.blockCount, hstored, h.once, h.real, h.received,
    h.carried, hexited, h.disk.keep rfl rfl rfl fun _ _ hr => hr, h.file, h.nonzero⟩

theorem step {action : GetAction} (h : Saving a blocks s)
    (hcarries : ∀ env, action = .turn env →
      Carries a (Client.buffer param s.net.localDatagram env.recv))
    (hok : ∀ result, action = .accept result → ∀ slot d, s.threads.consumer = .read slot d →
      blockNumber d ≠ 0 →
        (acceptBlock param s.net.xfer result (blockNumber d) (d.drop 6) s.file).ok = true)
    (hsize : param.blockSize = a.server.blockSize) (hs : s.step param action = some s') :
    ∃ blocks', Saving a blocks' s' := by
  replace hs := (step_act hs).2
  cases action with
  | turn env => exact ⟨blocks, h.turn (hcarries env rfl) hs⟩
  | reserve => exact ⟨blocks, h.reserve hs⟩
  | producerWakes => exact ⟨blocks, h.producerWakes hs⟩
  | store => exact ⟨blocks, h.store hs⟩
  | confirm => exact h.confirm hs
  | requestStop write => exact ⟨blocks, h.requestStop hs⟩
  | join => exact ⟨blocks, h.join hs⟩
  | peek =>
    obtain ⟨hdisk, threads, ht, rfl⟩ := call_cases hs
    exact ⟨blocks, h.looping ht rfl hdisk (by simp) (by simp)⟩
  | consumerWakes => exact ⟨blocks, h.consumerWakes hs⟩
  | read =>
    obtain ⟨hdisk, threads, ht, rfl⟩ := call_cases hs
    exact ⟨blocks, h.looping ht rfl hdisk (by simp) (by simp)⟩
  | accept result => exact ⟨blocks, h.accept (hok result rfl) hsize hs⟩
  | pop => exact ⟨blocks, h.pop hs⟩

theorem accepted_prefix (h : Saving a blocks s) : s.accepted <+: s.stored := by
  have hplace := h.disk
  unfold WritesAll at hplace
  rw [Get.stored, h.ring.history, List.map_append]
  split at hplace
  · rw [hplace]
    exact List.prefix_append _ _
  · obtain ⟨slot, d, hread, heq⟩ := hplace
    obtain ⟨rest, hqueue⟩ := Threads.read_head h.ring hread
    rw [heq, hqueue, List.map_cons, List.prefix_append_right_inj]
    exact ⟨rest.map blockNumber, rfl⟩
  · rw [hplace.1]
    exact List.prefix_append _ _

theorem accepted_blocks (h : Saving a blocks s) : s.accepted <+: blocks := by
  have hprefix := h.accepted_prefix
  have hstored := h.stored
  unfold stops at hstored
  split at hstored
  · rw [hstored, List.prefix_concat_iff] at hprefix
    refine hprefix.resolve_left fun heq => h.nonzero ?_
    rw [heq]
    simp
  · rw [hstored, List.prefix_concat_iff] at hprefix
    refine hprefix.resolve_left fun heq => h.nonzero ?_
    rw [heq]
    simp
  · rw [hstored, List.append_nil] at hprefix
    exact hprefix

theorem accepted_returned (h : Saving a blocks s) (hphase : s.phase = .returned) :
    s.accepted = blocks := by
  have hexited := h.outgoing
  unfold Outgoing at hexited
  rw [hphase] at hexited
  have hplace := h.disk
  unfold WritesAll at hplace
  rw [hexited] at hplace
  obtain ⟨haccepted, slot, d, hread, hzero⟩ := hplace
  obtain ⟨rest, hqueue⟩ := Threads.read_head h.ring hread
  have hstored := h.stored
  rw [stops, hphase, Get.stored, h.ring.history, hqueue, List.map_append, ← haccepted, List.map_cons,
    hzero] at hstored
  obtain ⟨more, hmore⟩ := h.accepted_blocks
  rw [← hmore, List.append_assoc, List.append_cancel_left_eq] at hstored
  -- a block between what was written and the stop block would have to be the stop block
  cases more with
  | nil => rw [← hmore, List.append_nil]
  | cons b more =>
    injection hstored with hb
    have hreal := h.real b (by rw [← hmore]; simp)
    omega

end Saving

structure Modal (a : Agreement) (s : System) : Prop where
  serving : Serving a s.client.sent s.server
  saving : ∃ blocks, Saving a blocks s.client
  sensible : ∀ r ∈ s.client.sent, Sensible a.server.blockCount r

section Runs
variable {param : Client.Parameter} {s t : System}

theorem modal_start (ipd : Rat) {datagram memory : List UInt8} {now : Int} {again : Bool}
    {onWireEstimate : Nat} {slots : Int → List UInt8} (hmemory : memory.length = sizeofRetransmission) :
    Modal a (.startIn a param ipd datagram memory now again onWireEstimate slots) where
  serving := by
    have hstart : Session a (.start a ipd datagram memory now again onWireEstimate slots) :=
      session_start ipd hmemory
    exact hstart.serving
  saving := ⟨[], .start param onWireEstimate slots⟩
  sensible := fun r hr => by cases hr

theorem acceptBlock_congr {p q : Client.Parameter} (h : p.blockSize = q.blockSize) :
    acceptBlock p = acceptBlock q := by
  funext xfer result block data file
  unfold acceptBlock writeSize
  rw [h]

theorem buffer_congr {p q : Client.Parameter} (h : p.blockSize = q.blockSize) :
    Client.buffer p = Client.buffer q := by
  funext old recv
  unfold Client.buffer
  rw [h]

theorem clientIn_step {action : GetAction} (hs : s.stepIn a param (.client action) = some t) :
    ∃ client, s.client.step param action = some client ∧
      Reliable a s.server.sent s.client action ∧ t = { s with client := client } := by
  change (if Reliable a s.server.sent s.client action then _ else _) = _ at hs
  obtain ⟨hreliable, hs⟩ := Option.ite_none_right_eq_some.mp hs
  obtain ⟨client, hclient, rfl⟩ := Option.map_eq_some_iff.mp hs
  exact ⟨client, hclient, hreliable, rfl⟩

theorem modal_step (hsize : param.blockSize = a.server.blockSize)
    (hwide : a.server.blockCount < 4294967295) {action : SystemAction} (h : Modal a s)
    (hs : s.stepIn a param action = some t) : Modal a t := by
  have hsame : param.blockSize = a.client.blockSize := hsize.trans a.sameSize.symm
  cases action with
  | server input =>
    obtain ⟨server, hserver, hprefix, rfl⟩ := server_step hs
    exact ⟨h.serving.step hwide h.sensible hserver hprefix, h.saving, h.sensible⟩
  | client action =>
    obtain ⟨client, hclient, hreliable, rfl⟩ := clientIn_step hs
    obtain ⟨blocks, hsaving⟩ := h.saving
    have hcount := hsaving.blockCount
    obtain ⟨more, hsent, hmore⟩ : ∃ more, client.sent = s.client.sent ++ more ∧
        ∀ r ∈ more, Sensible a.server.blockCount r := by
      rcases asks_step (hcount ▸ a.narrow) hclient with ⟨more, hsent, hmore⟩ | ⟨-, hsent⟩
      · rw [hcount] at hmore
        exact ⟨more, hsent, fun r hr => (hmore r hr).toSensible⟩
      · refine ⟨[ttpRequestStop], hsent, fun r hr => ?_⟩
        rw [List.mem_singleton.mp hr]
        exact sensible_stop _
    refine ⟨?_, hsaving.step (fun env he => ?_) (fun result he slot d hread hnz => ?_) hsize hclient,
      fun r hr => ?_⟩
    · dsimp only
      rw [hsent]
      exact h.serving.more more
    · subst he
      rw [buffer_congr hsame]
      exact delivers_carries h.serving.sent hreliable.1
    · subst he
      rw [acceptBlock_congr hsame]
      exact hreliable.accepts hread hnz
    · dsimp only at hr
      rw [hsent] at hr
      exact (List.mem_append.mp hr).elim (h.sensible r) (hmore r)

theorem modal_run (hsize : param.blockSize = a.server.blockSize)
    (hwide : a.server.blockCount < 4294967295) {actions : List SystemAction} (h : Modal a s)
    (hrun : run (System.stepIn a param) s actions = some t) : Modal a t :=
  run_invariant (fun _ _ _ h hs => modal_step hsize hwide h hs) h hrun

end Runs

theorem received_and_lost {xfer : Client.Transfer} {blocks : List Nat} (honce : blocks.Nodup)
    (hreal : ∀ b ∈ blocks, 1 ≤ b ∧ b ≤ xfer.blockCount)
    (hreceived : ∀ b, xfer.received b = true ↔ b ∈ blocks) :
    blocks.length + totalLost xfer = xfer.blockCount := by
  have hgot : ∀ k, k < xfer.blockCount → (gotBlock xfer (k + 1) = true ↔ k + 1 ∈ blocks) := by
    intro k hk
    rw [gotBlock_of_le hk, hreceived]
  have hperm : blocks.Perm
      (((List.range xfer.blockCount).filter fun k => gotBlock xfer (k + 1)).map (· + 1)) := by
    rw [List.perm_ext_iff_of_nodup honce
      ((List.nodup_range.filter _).map (add_left_injective 1))]
    intro b
    simp only [List.mem_map, List.mem_filter, List.mem_range]
    constructor
    · intro hb
      obtain ⟨h1, hle⟩ := hreal b hb
      obtain ⟨k, rfl⟩ : ∃ k, b = k + 1 := ⟨b - 1, by omega⟩
      exact ⟨k, ⟨by omega, (hgot k (by omega)).mpr hb⟩, rfl⟩
    · rintro ⟨k, ⟨hk, hk'⟩, rfl⟩
      exact (hgot k hk).mp hk'
  have hsplit := List.length_eq_length_filter_add (l := List.range xfer.blockCount)
    fun k => gotBlock xfer (k + 1)
  rw [List.length_range] at hsplit
  rw [hperm.length_eq, List.length_map, totalLost]
  refine Eq.trans ?_ hsplit.symm
  simp

/-- The file holds the blocks that were received, in their places, and nothing else. No block is
written twice, and when `command_get` returns, each block is either there or counted as lost. -/
theorem saved_in_any_mode (a : Agreement) (param : Client.Parameter)
    (hsize : param.blockSize = a.server.blockSize) (hwide : a.server.blockCount < 4294967295)
    (ipd : Rat) (datagram memory : List UInt8) (hmemory : memory.length = sizeofRetransmission)
    (now : Int) (again : Bool) (onWireEstimate : Nat) (slots : Int → List UInt8)
    (actions : List SystemAction) (s : System)
    (hrun : run (System.stepIn a param)
      (.startIn a param ipd datagram memory now again onWireEstimate slots) actions = some s) :
    s.client.file = patched 0 a.server.blockSize a.contents s.client.accepted ∧
      s.client.accepted.Nodup ∧
      (∀ b ∈ s.client.accepted, 1 ≤ b ∧ b ≤ a.server.blockCount ∧
        s.client.net.xfer.received b = true) ∧
      (s.client.phase = .returned →
        (∀ b, s.client.net.xfer.received b = true → b ∈ s.client.accepted) ∧
        s.client.accepted.length + totalLost s.client.net.xfer = a.server.blockCount) := by
  obtain ⟨-, ⟨blocks, h⟩, -⟩ := modal_run hsize hwide (modal_start ipd hmemory) hrun
  have hfirst := h.accepted_blocks
  refine ⟨h.file, h.once.sublist hfirst.sublist, fun b hb => ?_, fun hphase => ?_⟩
  · obtain ⟨h1, hle⟩ := h.real b (hfirst.subset hb)
    exact ⟨h1, hle, (h.received b).mpr (hfirst.subset hb)⟩
  · rw [h.accepted_returned hphase, ← h.blockCount]
    refine ⟨fun b => (h.received b).mp, received_and_lost h.once ?_ h.received⟩
    rw [h.blockCount]
    exact h.real

def twoByteFile : Agreement where
  order := .little
  server := ⟨1, 2, 0, 0, 1, 1, 1, 1, 15⟩
  client := ⟨1, true, 0, 50⟩
  contents := [7, 8]
  sameSize := rfl
  size_pos := by decide
  size_le := by decide
  nonempty := by decide
  count := rfl
  narrow := by decide
  lossless := rfl

def lossyClient : Client.Parameter := ⟨1, false, 0, 50⟩

def lossyRun : List SystemAction :=
  let arrives : GetAction := .turn (.calm (.datagram (datagramHeader 2 tsBlockTerminate ++ [8])))
  let put : List GetAction := [.reserve, .store, .confirm, .peek, .read, .accept (.wrote 1)]
  let stop : List GetAction := [.pop, .requestStop .ok]
  let last : List GetAction := [.join]
  [.server .idle, .server .idle] ++ ([arrives] ++ put ++ stop ++ put ++ last).map .client

def lossyEnd : Option System :=
  run (System.stepIn twoByteFile lossyClient)
    (.startIn twoByteFile lossyClient 0 [] (List.replicate 12 0) 0 false 0 fun _ => List.replicate 7 0)
    lossyRun

theorem first_block_lost :
    ∃ s, lossyEnd = some s ∧ s.client.accepted = [2] ∧ s.client.file = [0, 8] ∧
      totalLost s.client.net.xfer = 1 := by
  have hsome : lossyEnd.isSome := by decide +kernel
  have hphase : lossyEnd.map (fun s => s.client.phase) = some .returned := by rfl
  have haccepted : lossyEnd.map (fun s => s.client.accepted) = some [2] := by decide +kernel
  obtain ⟨s, hs⟩ := Option.isSome_iff_exists.mp hsome
  rw [hs] at hphase haccepted
  have haccepted : s.client.accepted = [2] := Option.some.inj haccepted
  obtain ⟨hfile, -, -, hend⟩ := saved_in_any_mode twoByteFile lossyClient rfl (by decide) 0 []
    (List.replicate 12 0) rfl 0 false 0 (fun _ => List.replicate 7 0) lossyRun s hs
  have hlost := (hend (Option.some.inj hphase)).2
  rw [haccepted] at hfile hlost
  refine ⟨s, hs, haccepted, hfile.trans (by decide), ?_⟩
  have hcount : twoByteFile.server.blockCount = 2 := rfl
  rw [hcount, List.length_singleton] at hlost
  omega

end TsunamiUdp

import TsunamiUdp.Client.Reached
import TsunamiUdp.RtServer.Serving
import TsunamiUdp.Session.Saving

/-! A recording: the transmit loop of the realtime server with its local copy, the two threads of a
lossless client, the control connection, and a network in which every datagram may arrive at any
time, any number of times, or never. -/
namespace TsunamiUdp
open Library
open Client (Get GetAction)

/-- What both sides have agreed on, where the file is what comes out of the VSIB. -/
structure RecordingAgreement extends Agreement where
  param : RtServer.LoopParameter
  vsib : Nat → UInt8
  rates : server = param.rates
  recorded : contents = RtServer.recording param.toParameter vsib
  fileout : param.fileout = true
  several : server.blockCount ≠ 1
  wide : server.blockCount < 4294967295

structure RecordingSystem where
  server : RtServer.Loop
  client : Get

inductive RecordingAction
  | server (input : RtServer.Input)
  | client (action : GetAction)

namespace RecordingSystem

/-- The transfer is open; `lastWritten` is what an earlier one left in the static variable. -/
def start (a : RecordingAgreement) (lastWritten : Nat) (ipd : Rat) (datagram memory : List UInt8)
    (now : Int) (again : Bool) (onWireEstimate : Nat) (slots : Int → List UInt8) : RecordingSystem where
  server := .start (.start (.start lastWritten datagram) ipd memory now again)
  client := .start a.client (.start a.contents.length a.server.blockCount onWireEstimate) slots

/-- The server can read what the client has written, in the same order. -/
def step (a : RecordingAgreement) (s : RecordingSystem) : RecordingAction → Option RecordingSystem
  | .server input =>
    (s.server.step a.order a.param a.vsib input).bind fun server =>
      if server.bytes <+: (records s.client.sent).flatten then some { s with server := server }
      else none
  | .client action =>
    if Reliable a.toAgreement s.server.sent s.client action then
      (s.client.step a.client action).map fun client => { s with client := client }
    else none

def localCopy (s : RecordingSystem) : List UInt8 := s.server.handler.server.builder.file

def newest (s : RecordingSystem) : Nat := s.server.handler.server.sent

section Steps
variable {a : RecordingAgreement} {s t : RecordingSystem}

theorem server_cases {input : RtServer.Input} (hs : s.step a (.server input) = some t) :
    ∃ server, s.server.step a.order a.param a.vsib input = some server ∧
      server.bytes <+: (records s.client.sent).flatten ∧ t = { s with server := server } := by
  obtain ⟨server, hserver, hs⟩ := Option.bind_eq_some_iff.mp hs
  obtain ⟨hread, hs⟩ := Option.ite_none_right_eq_some.mp hs
  exact ⟨server, hserver, hread, (Option.some.inj hs).symm⟩

theorem client_cases {action : GetAction} (hs : s.step a (.client action) = some t) :
    ∃ client, s.client.step a.client action = some client ∧
      Reliable a.toAgreement s.server.sent s.client action ∧ t = { s with client := client } := by
  change (if Reliable a.toAgreement s.server.sent s.client action then _ else _) = _ at hs
  obtain ⟨hreliable, hs⟩ := Option.ite_none_right_eq_some.mp hs
  obtain ⟨client, hclient, rfl⟩ := Option.map_eq_some_iff.mp hs
  exact ⟨client, hclient, hreliable, rfl⟩

end Steps

end RecordingSystem

namespace RecordingAgreement

variable (a : RecordingAgreement)

theorem blockSize_eq : a.param.blockSize = a.server.blockSize := by
  rw [a.rates]
  rfl

theorem blockCount_eq : a.param.blockCount = a.server.blockCount := by
  rw [a.rates]
  rfl

theorem fileSize_eq : a.contents.length = a.param.fileSize := by
  rw [a.recorded, RtServer.recording_length]

theorem blocks_eq : blocksOf a.param.fileSize a.param.blockSize = a.server.blockCount := by
  rw [a.count, a.fileSize_eq, a.blockSize_eq]

theorem recordable : RtServer.Recordable a.param.toParameter where
  several := a.blocks_eq ▸ a.several
  fits := a.blocks_eq ▸ a.wide

theorem blockCount_pos : 0 < a.server.blockCount := by
  by_contra hnone
  have hsize : a.contents.length ≤ a.server.blockSize * a.server.blockCount := by
    rw [a.count]
    exact size_le_blocks a.size_pos
  have hzero : a.server.blockCount = 0 := by omega
  have hnonempty := a.nonempty
  rw [hzero] at hsize
  omega

end RecordingAgreement

section Datagrams
variable {a : RecordingAgreement} {top : Nat} {d old : List UInt8} {sent : List (List UInt8)}
  {recv : Client.Recv}

theorem carries_of_genuine (h : RtServer.Genuine a.param.toParameter a.vsib top d) :
    Carries a.toAgreement d := by
  obtain ⟨block, type, rest, h1, -, hle, -, -, rfl⟩ := h
  refine ⟨block, type, rest, h1, a.blockCount_eq ▸ hle, ?_⟩
  rw [← a.blockSize_eq, a.recorded]

theorem numbered_of_genuine (h : RtServer.Genuine a.param.toParameter a.vsib top d) :
    Client.Numbered top a.server.blockCount d := by
  obtain ⟨block, type, rest, h1, htop, hle, htype, hlast, rfl⟩ := h
  have hwide := a.wide
  have hcount := a.blockCount_eq
  rw [List.append_assoc]
  refine ⟨?_, ?_⟩
  · rw [blockNumber_header (by omega)]
    exact htop
  · rw [blockType_header htype]
    intro hend
    have := hlast hend
    omega

theorem genuine_buffer (h : RtServer.Genuine a.param.toParameter a.vsib top d) :
    RtServer.Genuine a.param.toParameter a.vsib top (Client.buffer a.client old (.datagram d)) := by
  obtain ⟨block, type, rest, h1, htop, hle, htype, hlast, rfl⟩ := h
  unfold Client.buffer
  dsimp only
  rw [a.sameSize, ← a.blockSize_eq, List.take_append, List.take_of_length_le (by simp), List.append_assoc]
  exact ⟨block, type, _, h1, htop, hle, htype, hlast, rfl⟩

theorem genuine_arrives (hsent : ∀ d ∈ sent, RtServer.Genuine a.param.toParameter a.vsib top d)
    (h : Delivers sent recv) :
    RtServer.Genuine a.param.toParameter a.vsib top (Client.buffer a.client old recv) := by
  cases recv with
  | datagram d => exact genuine_buffer (hsent d h)
  | error => exact h.elim

end Datagrams

/-- No retransmission of block 1 was asked for. -/
def FirstArrives (s : RecordingSystem) : Prop :=
  ∀ r ∈ s.client.sent, r.requestType = requestRetransmit → r.block ≠ 1

structure Copies (a : RecordingAgreement) (s : RecordingSystem) : Prop where
  serving : RtServer.Serving a.param a.vsib s.client.sent s.server
  told : s.client.Told s.newest
  saving : ∃ blocks, Saving a.toAgreement blocks s.client
  complete : s.client.Inv
  sensible : ∀ r ∈ s.client.sent, Client.Sensible a.server.blockCount r

section Runs
variable {a : RecordingAgreement} {s t : RecordingSystem}

theorem copies_start (lastWritten : Nat) (ipd : Rat) (datagram : List UInt8) {memory : List UInt8}
    (hmemory : memory.length = sizeofRetransmission) (now : Int) (again : Bool) (onWireEstimate : Nat)
    (slots : Int → List UInt8) :
    Copies a (.start a lastWritten ipd datagram memory now again onWireEstimate slots) where
  serving := RtServer.serving_start a.param a.vsib lastWritten datagram hmemory ipd now again
  told := Get.told_start a.client _ a.contents.length onWireEstimate a.narrow slots
  saving := ⟨[], .start a.client onWireEstimate slots⟩
  complete := Get.inv_start a.client a.contents.length a.server.blockCount onWireEstimate slots
  sensible := fun r hr => by cases hr

theorem Copies.server {input : RtServer.Input} (h : Copies a s) (hfirst : FirstArrives s)
    (hs : s.step a (.server input) = some t) : Copies a t := by
  obtain ⟨server, hserver, hread, rfl⟩ := RecordingSystem.server_cases hs
  have hcount := a.blockCount_eq
  have hpos := a.blockCount_pos
  obtain ⟨hserving, hgrows⟩ := h.serving.step a.recordable (by omega) a.fileout
    (fun r hr => (h.sensible r hr).fits) (fun r hr => ⟨h.told.sent r hr, hfirst r hr⟩) hserver hread
  exact ⟨hserving, h.told.mono hgrows, h.saving, h.complete, h.sensible⟩

theorem Copies.client {action : GetAction} (h : Copies a s) (hs : s.step a (.client action) = some t) :
    Copies a t := by
  obtain ⟨client, hclient, hreliable, rfl⟩ := RecordingSystem.client_cases hs
  obtain ⟨blocks, hsaving⟩ := h.saving
  have hcount := hsaving.blockCount
  obtain ⟨more, hsent, hmore⟩ : ∃ more, client.sent = s.client.sent ++ more ∧
      ∀ r ∈ more, Client.Sensible a.server.blockCount r := by
    rcases Get.asks_step (hcount ▸ a.narrow) hclient with ⟨more, hsent, hmore⟩ | ⟨-, hsent⟩
    · rw [hcount] at hmore
      exact ⟨more, hsent, fun r hr => (hmore r hr).toSensible⟩
    · refine ⟨[Client.ttpRequestStop], hsent, fun r hr => ?_⟩
      rw [List.mem_singleton.mp hr]
      exact Client.sensible_stop _
  have hgenuine : ∀ env, action = .turn env → RtServer.Genuine a.param.toParameter a.vsib s.newest
      (Client.buffer a.client s.client.net.localDatagram env.recv) := by
    rintro env rfl
    exact genuine_arrives h.serving.sent hreliable.1
  refine ⟨?_, ?_, ?_, ?_, ?_⟩
  · dsimp only
    rw [hsent]
    exact h.serving.more more
  · refine h.told.step a.lossless (fun env he => ?_) hclient
    rw [hcount]
    exact numbered_of_genuine (hgenuine env he)
  · refine hsaving.step (fun env he => carries_of_genuine (hgenuine env he)) ?_ a.sameSize hclient
    rintro result rfl slot d hread hnz
    exact hreliable.accepts hread hnz
  · refine Get.inv_step a.lossless h.complete (safe_of_reliable (fun recv hrecv => ?_) hreliable) hclient
    exact carries_of_genuine (genuine_arrives h.serving.sent hrecv)
  · intro r hr
    dsimp only at hr
    rw [hsent] at hr
    exact (List.mem_append.mp hr).elim (h.sensible r) (hmore r)

/-- The requests of the whole run are known at its end. -/
theorem copies_step {action : RecordingAction}
    (h : s.client.net.xfer.blockCount = a.server.blockCount ∧ (FirstArrives s → Copies a s))
    (hs : s.step a action = some t) :
    t.client.net.xfer.blockCount = a.server.blockCount ∧ (FirstArrives t → Copies a t) := by
  obtain ⟨hcount, hcopies⟩ := h
  cases action with
  | server input =>
    refine ⟨?_, fun hfirst => ?_⟩
    · obtain ⟨server, -, -, rfl⟩ := RecordingSystem.server_cases hs
      exact hcount
    · have hbefore : FirstArrives s := by
        obtain ⟨server, -, -, rfl⟩ := RecordingSystem.server_cases hs
        exact hfirst
      exact (hcopies hbefore).server hbefore hs
  | client action =>
    obtain ⟨client, hclient, -, ht⟩ := RecordingSystem.client_cases hs
    obtain ⟨more, hsent⟩ := Get.sent_step (hcount ▸ a.narrow) hclient
    refine ⟨?_, fun hfirst => (hcopies fun r hr => hfirst r ?_).client hs⟩
    · rw [ht]
      exact (Get.sameFile_step hclient).blockCount.trans hcount
    · rw [ht]
      dsimp only
      rw [hsent]
      exact List.mem_append_left _ hr

theorem copies_run {actions : List RecordingAction} (h : Copies a s) (hfirst : FirstArrives t)
    (hrun : run (RecordingSystem.step a) s actions = some t) : Copies a t := by
  obtain ⟨blocks, hsaving⟩ := h.saving
  exact (run_invariant (fun _ _ _ h hs => copies_step h hs) ⟨hsaving.blockCount, fun _ => h⟩ hrun).2 hfirst

theorem Copies.behind (h : Copies a s) {b : Nat} (hb : b ∈ s.client.accepted) :
    1 ≤ b ∧ b ≤ s.newest := by
  obtain ⟨blocks, hsaving⟩ := h.saving
  have hmem := hsaving.accepted_blocks.subset hb
  exact ⟨(hsaving.real b hmem).1, h.told.reached.received b ((hsaving.received b).mpr hmem)⟩

theorem Copies.localCopy_eq (h : Copies a s) :
    s.localCopy = a.contents.take (a.server.blockSize * s.newest) := by
  have hfaithful := h.serving.outlives.recorded.faithful
  rw [RtServer.Faithful, flatMap_blockAt] at hfaithful
  rw [RecordingSystem.localCopy, hfaithful, a.recorded, a.blockSize_eq, RecordingSystem.newest]

theorem Copies.whole (h : Copies a s) (hall : a.server.blockCount ≤ s.newest) :
    s.localCopy = a.contents := by
  have hcover : a.contents.length ≤ a.server.blockSize * a.server.blockCount := by
    rw [a.count]
    exact size_le_blocks a.size_pos
  rw [h.localCopy_eq, List.take_of_length_le]
  exact hcover.trans (Nat.mul_le_mul_left _ hall)

theorem Copies.returned (h : Copies a s) (hphase : s.client.phase = .returned) :
    (∀ b, 1 ≤ b → b ≤ a.server.blockCount → b ∈ s.client.accepted) ∧ s.client.file = a.contents := by
  obtain ⟨blocks, hsaving⟩ := h.saving
  have hall : ∀ b, 1 ≤ b → b ≤ a.server.blockCount → b ∈ s.client.accepted := fun b h1 hle =>
    h.complete.returned hphase h1 (hsaving.blockCount ▸ hle)
  refine ⟨hall, ?_⟩
  rw [hsaving.file]
  exact patched_all a.size_pos fun b h1 hle => hall b h1 (a.count ▸ hle)

end Runs

/-- As long as block 1 is not asked for again, the local copy is a front of the recording and the
client's file has nothing that the local copy has not. When the client returns, or the server has given
it up, the local copy is the whole recording; in the first case so is the client's file. -/
theorem copies_agree (a : RecordingAgreement) (lastWritten : Nat) (ipd : Rat)
    (datagram memory : List UInt8) (hmemory : memory.length = sizeofRetransmission) (now : Int)
    (again : Bool) (onWireEstimate : Nat) (slots : Int → List UInt8) (actions : List RecordingAction)
    (s : RecordingSystem)
    (hrun : run (RecordingSystem.step a)
      (.start a lastWritten ipd datagram memory now again onWireEstimate slots) actions = some s)
    (hfirst : FirstArrives s) :
    s.localCopy = a.contents.take (a.server.blockSize * s.newest) ∧
      s.client.file = patched 0 a.server.blockSize a.contents s.client.accepted ∧
      (∀ b ∈ s.client.accepted, 1 ≤ b ∧ b ≤ s.newest) ∧
      s.server.flow ≠ .exit ∧
      (s.server.flow = .timeout → s.localCopy = a.contents) ∧
      (s.client.phase = .returned → s.client.file = a.contents ∧ s.localCopy = a.contents) := by
  have h : Copies a s :=
    copies_run (copies_start lastWritten ipd datagram hmemory now again onWireEstimate slots) hfirst hrun
  have hpos := a.blockCount_pos
  refine ⟨h.localCopy_eq, ?_, fun b hb => h.behind hb, h.serving.outlives.goesOn, ?_, ?_⟩
  · obtain ⟨blocks, hsaving⟩ := h.saving
    exact hsaving.file
  · intro htimeout
    have hall := h.serving.outlives.finished htimeout
    have hcount := a.blockCount_eq
    apply h.whole
    exact (hcount.symm.trans hall.symm).le
  · intro hphase
    obtain ⟨hall, hfile⟩ := h.returned hphase
    exact ⟨hfile, h.whole (h.behind (hall _ hpos le_rfl)).2⟩

def sevenBytes : RecordingAgreement where
  order := .big
  server := ⟨4, 2, 0, 10, 3, 2, 1, 2, 15⟩
  client := ⟨4, true, 0, 40⟩
  contents := [10, 11, 12, 13, 14, 15, 16]
  sameSize := rfl
  size_pos := by decide
  size_le := by decide
  nonempty := by decide
  count := rfl
  narrow := by decide
  lossless := rfl
  param := ⟨⟨4, 7, true, by decide, by decide⟩, 0, 10, 3, 2, 1, 2, 15⟩
  vsib := fun k => UInt8.ofNat (k + 10)
  rates := rfl
  recorded := by decide
  fileout := rfl
  several := by decide
  wide := by decide

def sevenBytesRun : List RecordingAction :=
  let pass : Server.Read → RecordingAction := fun read => .server ⟨5, read, .ok, 5, 5, 5⟩
  let arrives : List UInt8 → GetAction := fun d => .turn (.calm (.datagram d))
  let put : Nat → List GetAction := fun n => [.reserve, .store, .confirm, .peek, .read, .accept (.wrote n)]
  let client : List GetAction :=
    arrives (datagramHeader 1 tsBlockOriginal ++ [10, 11, 12, 13]) :: put 4 ++
      .pop :: arrives (datagramHeader 2 tsBlockTerminate ++ [14, 15, 16, 17]) :: put 3 ++
        .pop :: .requestStop .ok :: put 3 ++ [.join]
  [pass .nothing, pass .failed] ++ client.map .client

def sevenBytesEnd : Option RecordingSystem :=
  run (RecordingSystem.step sevenBytes)
    (.start sevenBytes 9 0 [] (List.replicate 12 0) 0 false 0 fun _ => List.replicate 10 0) sevenBytesRun

theorem seven_bytes_agree :
    ∃ s, sevenBytesEnd = some s ∧ s.client.file = sevenBytes.contents ∧ s.localCopy = sevenBytes.contents := by
  have hsome : sevenBytesEnd.isSome := by decide +kernel
  have hphase : sevenBytesEnd.map (fun s => s.client.phase) = some .returned := by rfl
  have hfirst : sevenBytesEnd.map (fun s => s.client.sent.map (·.requestType)) = some [requestStop] := by
    decide +kernel
  obtain ⟨s, hs⟩ := Option.isSome_iff_exists.mp hsome
  rw [hs] at hphase hfirst
  have hfirst : s.client.sent.map (·.requestType) = [requestStop] := Option.some.inj hfirst
  obtain ⟨-, -, -, -, -, hend⟩ := copies_agree sevenBytes 9 0 [] (List.replicate 12 0) rfl 0 false 0
    (fun _ => List.replicate 10 0) sevenBytesRun s hs (fun r hr hasked => by
      have hstop := List.mem_map_of_mem (f := (·.requestType)) hr
      rw [hfirst, List.mem_singleton, hasked] at hstop
      cases hstop)
  exact ⟨s, hs, hend (Option.some.inj hphase)⟩

end TsunamiUdp

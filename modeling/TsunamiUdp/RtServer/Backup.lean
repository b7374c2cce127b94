import TsunamiUdp.Library.Runs
import TsunamiUdp.RtServer.Datagram

/-! The local backup copy of the realtime server over a whole transfer. -/
namespace TsunamiUdp.RtServer
open Library

/-- `sent` is the highest block built as an original so far. -/
structure Server where
  builder : Builder
  block : Nat
  sent : Nat

inductive Action
  | transmit
  | request (r : Retransmission)

/-- The start of a transfer: the VSIB and the local file are opened anew, the static
variables are what earlier transfers left. -/
def Server.start (lastWritten : Nat) (datagram : List UInt8) : Server :=
  ⟨⟨0, lastWritten, 0, [], datagram⟩, 0, 0⟩

def nextBlock (param : Parameter) (s : Server) : Nat :=
  min (wrap32 (s.block + 1)) param.blockCount

def transmit (param : Parameter) (vsib : Nat → UInt8) (s : Server) : Server :=
  let block := nextBlock param s
  let type := if block = param.blockCount then tsBlockTerminate else tsBlockOriginal
  ⟨buildDatagram param vsib block type s.builder, block, max s.sent block⟩

def ttpAcceptRetransmit (param : Parameter) (vsib : Nat → UInt8) (r : Retransmission) (s : Server) :
    Server :=
  if r.requestType = requestErrorRate then s
  else if r.requestType = requestRestart then
    if r.block = 0 ∨ r.block > param.blockCount then s else { s with block := r.block }
  else if r.requestType = requestRetransmit then
    { s with builder := buildDatagram param vsib r.block tsBlockRetransmission s.builder }
  else s

def AlreadySent (s : Server) (r : Retransmission) : Prop :=
  r.requestType = requestRetransmit ∨ r.requestType = requestRestart →
    1 ≤ r.block ∧ r.block ≤ s.sent

instance (s : Server) (r : Retransmission) : Decidable (AlreadySent s r) := by
  unfold AlreadySent
  infer_instance

def Server.step (param : Parameter) (vsib : Nat → UInt8) (s : Server) : Action → Option Server
  | .transmit => some (transmit param vsib s)
  | .request r =>
    if r.requestType = requestStop then none
    else if AlreadySent s r then some (ttpAcceptRetransmit param vsib r s)
    else none

/-- The local file is the blocks sent so far, in order, without gaps or repetitions. -/
def Faithful (param : Parameter) (vsib : Nat → UInt8) (s : Server) : Prop :=
  s.builder.file =
    (List.range s.sent).flatMap fun k : Nat => blockAt param.blockSize (recording param vsib) (k + 1)

/-- Block 1 is not built a second time, and the last block is cut only if the number
of blocks fits in 32 bits. -/
def Sound (param : Parameter) (s : Server) : Action → Prop
  | .transmit =>
    (nextBlock param s = 1 → s.sent = 0) ∧
      (s.sent < nextBlock param s → nextBlock param s = param.blockCount → CountFits param)
  | .request r => r.requestType = requestRetransmit → r.block ≠ 1

instance (param : Parameter) (s : Server) (action : Action) : Decidable (Sound param s action) := by
  unfold Sound CountFits
  cases action <;> infer_instance

structure Steady (param : Parameter) (s : Server) : Prop where
  block_le : s.block ≤ s.sent
  sent_le : s.sent ≤ param.blockCount
  lastBlock : s.builder.lastBlock = 0
  opened : s.sent = 0 → param.blockCount ≠ 0 → s.builder.vsibPosition = 0
  written : 1 ≤ s.sent → s.builder.lastWrittenVsibBlock = s.sent

theorem blockCount_narrow (param : Parameter) : param.blockCount < 4294967296 :=
  Nat.mod_lt _ (by decide)

section Steps
variable {param : Parameter} {vsib : Nat → UInt8} {s : Server} {block type : Nat}

theorem nextBlock_le (h : Steady param s) :
    nextBlock param s ≤ s.sent + 1 ∧ nextBlock param s ≤ param.blockCount := by
  have hwrap : wrap32 (s.block + 1) ≤ s.block + 1 := Nat.mod_le _ _
  have := h.block_le
  unfold nextBlock
  omega

theorem build_old (h : Steady param s) (h1 : block ≠ 1) (hle : block ≤ s.sent) :
    (buildDatagram param vsib block type s.builder).file = s.builder.file ∧
      (buildDatagram param vsib block type s.builder).lastWrittenVsibBlock =
        s.builder.lastWrittenVsibBlock := by
  have hnarrow := blockCount_narrow param
  have hsent := h.sent_le
  apply buildDatagram_skips h1
  rintro ⟨-, hnz, hnext⟩
  rw [h.written (by omega)] at hnext
  unfold wrap32 at hnext
  omega

/-- Building block 1 once more makes the copy longer than it should be. -/
theorem build_one_again (hout : param.fileout = true) (h : Faithful param vsib s) :
    (buildDatagram param vsib 1 type s.builder).file ≠
      (List.range s.sent).flatMap fun k : Nat =>
        blockAt param.blockSize (recording param vsib) (k + 1) := by
  intro heq
  rw [(buildDatagram_stores (stores_one hout)).1, ← h] at heq
  have hlen := congrArg List.length heq
  have hpos := payload_written_pos param vsib 1 s.builder
  rw [List.length_append] at hlen
  omega

theorem build_new (hout : param.fileout = true) (h : Steady param s)
    (hle : s.sent + 1 ≤ param.blockCount) :
    (buildDatagram param vsib (s.sent + 1) type s.builder).file = s.builder.file ++
        (readVsibBlock vsib (blockStart param.blockSize (s.sent + 1)) param.blockSize).take
          (writeSize param (s.sent + 1)) ∧
      (buildDatagram param vsib (s.sent + 1) type s.builder).lastWrittenVsibBlock = s.sent + 1 := by
  have hnarrow := blockCount_narrow param
  by_cases hfirst : s.sent = 0
  · rw [hfirst]
    have hpos := h.opened hfirst (by omega)
    rw [← payload_one hpos]
    exact buildDatagram_stores (stores_one hout)
  · rw [← payload_later s.builder (by omega) (by omega) h.lastBlock]
    apply buildDatagram_stores
    rw [resetStatics, if_neg (by omega)]
    refine ⟨hout, by omega, ?_⟩
    rw [h.written (by omega), wrap32_of_lt (by omega)]

theorem build_new_iff (hout : param.fileout = true) (h : Steady param s)
    (hf : Faithful param vsib s) (hle : s.sent + 1 ≤ param.blockCount) :
    (buildDatagram param vsib (s.sent + 1) type s.builder).file =
        ((List.range (s.sent + 1)).flatMap fun k : Nat =>
          blockAt param.blockSize (recording param vsib) (k + 1)) ↔
      (s.sent + 1 = param.blockCount → CountFits param) := by
  rw [(build_new hout h hle).1, List.range_succ, List.flatMap_append, ← hf,
    List.append_cancel_left_eq, List.flatMap_singleton]
  exact written_eq_blockAt_iff (by omega) hle

theorem transmit_iff (hout : param.fileout = true) (h : Steady param s)
    (hf : Faithful param vsib s) :
    Faithful param vsib (transmit param vsib s) ↔ Sound param s .transmit := by
  obtain ⟨hle, hcount⟩ := nextBlock_le h
  unfold Faithful Sound
  dsimp only [transmit]
  by_cases hone : nextBlock param s = 1
  · by_cases hfirst : s.sent = 0
    · have hnew : nextBlock param s = s.sent + 1 := by omega
      rw [hnew] at hcount ⊢
      rw [Nat.max_eq_right (by omega), build_new_iff hout h hf hcount]
      simp [hfirst]
    · rw [Nat.max_eq_left (by omega), hone]
      exact iff_of_false (build_one_again hout hf) fun hs => hfirst (hs.1 rfl)
  · by_cases hold : nextBlock param s ≤ s.sent
    · rw [Nat.max_eq_left hold, (build_old h hone hold).1]
      exact iff_of_true hf ⟨fun hone' => absurd hone' hone, fun hlt => by omega⟩
    · have hnew : nextBlock param s = s.sent + 1 := by omega
      rw [hnew] at hcount ⊢
      rw [Nat.max_eq_right (by omega), build_new_iff hout h hf hcount]
      constructor
      · exact fun hfits => ⟨fun _ => by omega, fun _ => hfits⟩
      · exact fun hs => hs.2 (by omega)

theorem Steady.transmit (hout : param.fileout = true) (h : Steady param s)
    (hs : Sound param s .transmit) : Steady param (transmit param vsib s) := by
  obtain ⟨hle, hcount⟩ := nextBlock_le h
  have hsent := h.sent_le
  unfold RtServer.transmit
  refine ⟨le_max_right _ _, max_le hsent hcount, buildDatagram_lastBlock h.lastBlock, ?_, ?_⟩
  · intro hzero hne
    have hblock := h.block_le
    dsimp only at hzero
    unfold nextBlock wrap32 at hzero
    omega
  · intro hpos
    dsimp only at hpos ⊢
    by_cases hnew : nextBlock param s = s.sent + 1
    · rw [hnew] at hcount ⊢
      rw [(build_new hout h hcount).2, Nat.max_eq_right (by omega)]
    · have hold : nextBlock param s ≤ s.sent := by omega
      rw [Nat.max_eq_left hold] at hpos ⊢
      rw [(build_old h (fun hone => by have := hs.1 hone; omega) hold).2]
      exact h.written hpos

theorem request_iff (hout : param.fileout = true) (h : Steady param s)
    (hf : Faithful param vsib s) {r : Retransmission} (hsent : AlreadySent s r) :
    Faithful param vsib (ttpAcceptRetransmit param vsib r s) ↔ Sound param s (.request r) := by
  unfold ttpAcceptRetransmit Sound
  split
  · rename_i hrate
    exact iff_of_true hf fun htype => by rw [hrate] at htype; cases htype
  · split
    · rename_i hrestart
      have hok : r.requestType = requestRetransmit → r.block ≠ 1 := fun htype => by
        rw [hrestart] at htype
        cases htype
      split <;> exact iff_of_true hf hok
    · split
      · rename_i htype
        have hle := (hsent (Or.inl htype)).2
        by_cases hone : r.block = 1
        · rw [hone]
          exact iff_of_false (build_one_again hout hf) fun hne => hne htype hone
        · unfold Faithful
          dsimp only
          rw [(build_old h hone hle).1]
          exact iff_of_true hf fun _ => hone
      · rename_i hother
        exact iff_of_true hf fun htype => absurd htype hother

theorem Steady.request (h : Steady param s) {r : Retransmission} (hsent : AlreadySent s r)
    (hs : Sound param s (.request r)) : Steady param (ttpAcceptRetransmit param vsib r s) := by
  unfold ttpAcceptRetransmit
  split
  · exact h
  · split
    · rename_i hrestart
      split
      · exact h
      · exact ⟨(hsent (Or.inr hrestart)).2, h.sent_le, h.lastBlock, h.opened, h.written⟩
    · split
      · rename_i htype
        obtain ⟨h1, hle⟩ := hsent (Or.inl htype)
        refine ⟨h.block_le, h.sent_le, buildDatagram_lastBlock h.lastBlock, fun hzero => ?_,
          fun hpos => ?_⟩
        · dsimp only at hzero
          omega
        · dsimp only
          rw [(build_old h (hs htype) hle).2]
          exact h.written hpos
      · exact h

end Steps

theorem step_request {param : Parameter} {vsib : Nat → UInt8} {s s' : Server} {r : Retransmission}
    (hs : Server.step param vsib s (.request r) = some s') :
    AlreadySent s r ∧ ttpAcceptRetransmit param vsib r s = s' := by
  unfold Server.step at hs
  dsimp only at hs
  split at hs
  · cases hs
  · split at hs
    · rename_i hsent
      exact ⟨hsent, Option.some.inj hs⟩
    · cases hs

theorem steady_start (param : Parameter) (lastWritten : Nat) (datagram : List UInt8) :
    Steady param (.start lastWritten datagram) where
  block_le := le_rfl
  sent_le := Nat.zero_le _
  lastBlock := rfl
  opened := fun _ _ => rfl
  written := fun h => absurd h (Nat.not_succ_le_zero 0)

/-- The local copy is faithful all through a transfer if and only if all its steps are
sound. -/
theorem backup_faithful_iff (param : Parameter) (vsib : Nat → UInt8) (lastWritten : Nat)
    (datagram : List UInt8) (actions : List Action) (t : Server) (hout : param.fileout = true)
    (hrun : run (Server.step param vsib) (.start lastWritten datagram) actions = some t) :
    Always (Server.step param vsib) (Faithful param vsib) (.start lastWritten datagram) actions ↔
      Along (Server.step param vsib) (Sound param) (.start lastWritten datagram) actions := by
  refine always_iff_along (P := Faithful param vsib) (J := Steady param) ?_ ?_ rfl
    (steady_start _ _ _) hrun
  · intro s action s' hf hsteady hs
    cases action with
    | transmit =>
      cases hs
      exact transmit_iff hout hsteady hf
    | request r =>
      obtain ⟨hsent, rfl⟩ := step_request hs
      exact request_iff hout hsteady hf hsent
  · intro s action s' hf hsteady hok hs
    cases action with
    | transmit =>
      cases hs
      exact hsteady.transmit hout hok
    | request r =>
      obtain ⟨hsent, rfl⟩ := step_request hs
      exact hsteady.request hsent hok

/-- Three blocks of two bytes, the last one cut, with block 2 sent again. -/
theorem backup_faithful_iff_sample :
    Always (Server.step ⟨2, 5, true, by decide, by decide⟩ fun k => UInt8.ofNat (k + 10))
      (Faithful ⟨2, 5, true, by decide, by decide⟩ fun k => UInt8.ofNat (k + 10)) (.start 7 [])
      [.transmit, .transmit, .request ⟨requestRetransmit, 2, 0⟩, .transmit, .transmit] :=
  (backup_faithful_iff _ _ 7 [] _ _ rfl rfl).mpr (by decide)

/-- A retransmission of block 1 appends one more block to the complete copy. -/
theorem backup_broken_by_first_block :
    ∃ s, run (Server.step ⟨1, 3, true, by decide, by decide⟩ fun k => UInt8.ofNat (k + 10))
        (.start 0 []) [.transmit, .transmit, .transmit, .request ⟨requestRetransmit, 1, 0⟩] = some s ∧
      s.sent = 3 ∧ s.builder.file = [10, 11, 12, 13] ∧
      ¬Faithful ⟨1, 3, true, by decide, by decide⟩ (fun k => UInt8.ofNat (k + 10)) s := by
  refine ⟨_, rfl, rfl, by decide, ?_⟩
  unfold Faithful
  decide

end TsunamiUdp.RtServer

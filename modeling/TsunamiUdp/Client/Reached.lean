import TsunamiUdp.Client.Lasting

/-! The lossless client knows of no block behind the newest one that was sent: it asks for none of
them, whatever was lost. -/
namespace TsunamiUdp.Client
open Library

def AsksUpTo (top : Nat) (r : Retransmission) : Prop :=
  r.requestType = requestRetransmit ∨ r.requestType = requestRestart → 1 ≤ r.block ∧ r.block ≤ top

/-- What is marked or queued is not behind block `top`. -/
structure Reached (top : Nat) (xfer : Transfer) : Prop where
  entries : ∀ b ∈ xfer.rexmit.entries, b ≤ top
  received : ∀ b, xfer.received b = true → b ≤ top

structure Numbered (top blockCount : Nat) (datagram : List UInt8) : Prop where
  number : blockNumber datagram ≤ top
  last : blockType datagram = tsBlockTerminate → blockCount ≤ top

theorem AsksUpTo.mono {top top' : Nat} {r : Retransmission} (h : AsksUpTo top r) (hle : top ≤ top') :
    AsksUpTo top' r :=
  fun htype => ⟨(h htype).1, (h htype).2.trans hle⟩

theorem Reached.mono {top top' : Nat} {xfer : Transfer} (h : Reached top xfer) (hle : top ≤ top') :
    Reached top' xfer :=
  ⟨fun b hb => (h.entries b hb).trans hle, fun b hb => (h.received b hb).trans hle⟩

theorem Numbered.mono {top top' blockCount : Nat} {d : List UInt8} (h : Numbered top blockCount d)
    (hle : top ≤ top') : Numbered top' blockCount d :=
  ⟨h.number.trans hle, fun hlast => (h.last hlast).trans hle⟩

section Table
variable {top : Nat} {xfer xfer' : Transfer}

theorem reached_start (top fileSize blockCount onWireEstimate : Nat) :
    Reached top (Transfer.start fileSize blockCount onWireEstimate) :=
  ⟨(fun b hb => by cases hb), (fun b hb => by cases hb)⟩

theorem compacted_entries {m k : Nat} (hm : m ≤ xfer.rexmit.indexMax)
    (hk : k ∈ (List.range m).map
      (compacted ((outstanding xfer).take maxRetransmissionBuffer) xfer.rexmit.table)) :
    k ∈ xfer.rexmit.entries := by
  obtain ⟨i, hi, rfl⟩ := List.mem_map.mp hk
  have hlt := List.mem_range.mp hi
  unfold compacted
  split
  · exact (mem_outstanding.mp (List.mem_of_mem_take (List.getElem_mem _))).1
  · exact List.mem_map.mpr ⟨i, List.mem_range.mpr (by omega), rfl⟩

theorem kept_length_le (xfer : Transfer) :
    ((outstanding xfer).take maxRetransmissionBuffer).length ≤ xfer.rexmit.indexMax :=
  (List.length_take_le' _ _).trans (outstanding_length_le xfer)

theorem repeat_entries (write : WriteResult) (xfer : Transfer) :
    ∀ b ∈ (ttpRepeatRetransmit write xfer).xfer.rexmit.entries, b ∈ xfer.rexmit.entries := by
  intro b hb
  unfold ttpRepeatRetransmit at hb
  simp only [purge_entries] at hb
  split at hb
  · cases write with
    | ok => exact compacted_entries (Nat.zero_le _) hb
    | fwriteFails => exact compacted_entries le_rfl hb
    | fflushFails => exact compacted_entries (Nat.zero_le _) hb
  · split at hb <;> exact compacted_entries (kept_length_le xfer) hb

theorem Reached.repeat (h : Reached top xfer) (write : WriteResult) :
    Reached top (ttpRepeatRetransmit write xfer).xfer := by
  refine ⟨fun b hb => h.entries b (repeat_entries write xfer b hb), ?_⟩
  rw [(sameBlocks_repeat write xfer).received]
  exact h.received

theorem Reached.request {alloc : Nat → Bool} {block : Nat} (h : Reached top xfer)
    (hsized : xfer.rexmit.Sized) (hle : block ≤ top)
    (hreq : ttpRequestRetransmit alloc xfer block = some xfer') : Reached top xfer' := by
  unfold ttpRequestRetransmit at hreq
  split at hreq
  · cases hreq
    exact h
  · split at hreq
    · rename_i rexmit hmake
      cases hreq
      refine ⟨fun b hb => ?_, h.received⟩
      rw [entries_append, (makeRoom_ok hmake hsized).1] at hb
      rcases List.mem_append.mp hb with hb | hb
      · exact h.entries b hb
      · exact List.mem_singleton.mp hb ▸ hle
    · cases hreq
      exact ⟨h.entries, h.received⟩
    · cases hreq

theorem Reached.requestRange {alloc : Nat → Bool} {n block : Nat} (h : Reached top xfer)
    (hsized : xfer.rexmit.Sized) (hle : n = 0 ∨ block + n ≤ top + 1)
    (hreq : requestRange alloc n block xfer = some xfer') : Reached top xfer' := by
  induction n generalizing block xfer with
  | zero =>
    cases hreq
    exact h
  | succ n ih =>
    obtain ⟨mid, hmid, hrest⟩ := Option.bind_eq_some_iff.mp hreq
    exact ih (h.request hsized (by omega) hmid) (ttpRequestRetransmit_remembers hmid hsized).1 (by omega)
      hrest

end Table

section Turn
variable {param : Parameter} {env : Env} {top head : Nat} {xfer xfer' : Transfer}

/-- A restart goes back behind the gapless section, in front of a block that was asked for. -/
theorem repeat_asks (h : Reached top xfer) (htracked : Tracked xfer head) (write : WriteResult) :
    ∀ r ∈ (ttpRepeatRetransmit write xfer).sent, AsksUpTo top r := by
  intro r hr _
  unfold ttpRepeatRetransmit at hr
  simp only [purge_entries] at hr
  split at hr
  · rename_i hmany
    cases write with
    | ok =>
      obtain ⟨b, hb⟩ := List.exists_mem_of_length_pos ((by decide : 0 < maxRetransmissionBuffer).trans_le hmany)
      obtain ⟨hentry, hpos, hmiss⟩ := mem_outstanding.mp (List.mem_of_mem_take hb)
      have hle := h.entries b hentry
      have hcount := le_of_not_gotBlock hmiss
      have hnarrow := htracked.counted
      have hbehind : xfer.gaplessToBlock < b := by
        by_contra hinside
        have hgot := htracked.gapless b (by omega) (by omega)
        rw [hmiss] at hgot
        cases hgot
      obtain rfl := List.mem_singleton.mp hr
      dsimp only
      rw [wrap32_of_lt (by omega)]
      omega
    | fwriteFails => cases hr
    | fflushFails => cases hr
  · split at hr
    · obtain ⟨b, hb, rfl⟩ := List.mem_map.mp hr
      obtain ⟨hentry, hpos, -⟩ := mem_outstanding.mp (List.mem_of_mem_take hb)
      exact ⟨Nat.pos_of_ne_zero hpos, h.entries b hentry⟩
    · cases hr

theorem stats_asks {write : WriteResult} {countData : Int} {updated : Written}
    (h : ttpUpdateStats param write countData xfer = some updated) :
    ∀ r ∈ updated.sent, AsksUpTo top r := by
  intro r hr
  rcases (ttpUpdateStats_some h).2 with hnone | ⟨rate, hone⟩
  · rw [hnone] at hr
    cases hr
  · rw [hone] at hr
    obtain rfl := List.mem_singleton.mp hr
    rintro (htype | htype) <;> cases htype

theorem Reached.stats {stats : Statistics} (h : Reached top xfer) :
    Reached top { xfer with stats := stats } :=
  ⟨h.entries, h.received⟩

theorem Reached.sendStats {sent : List Retransmission} (h : Reached top xfer) (htracked : Tracked xfer head)
    (hs : sendStats param env xfer = some (xfer', sent)) :
    Reached top xfer' ∧ ∀ r ∈ sent, AsksUpTo top r := by
  rcases sendStats_cases hs with ⟨rfl, rfl⟩ | ⟨-, updated, hupdated, ⟨stats, rfl⟩, rfl⟩
  · exact ⟨h, fun r hr => by cases hr⟩
  · refine ⟨(h.repeat env.periodicWrite).stats, fun r hr => ?_⟩
    rcases List.mem_append.mp hr with hr | hr
    · exact repeat_asks h htracked _ r hr
    · exact stats_asks hupdated r hr

theorem Reached.countArrival (h : Reached top xfer) (type : Nat) :
    Reached top (countArrival type xfer) :=
  ⟨h.entries, h.received⟩

theorem Reached.arrive {net net' : Net} {sent : List Retransmission} (h : Reached top net.xfer)
    (htracked : Tracked net.xfer head) (ha : arrive param env net = some (net', sent)) :
    Reached top net'.xfer ∧ ∀ r ∈ sent, AsksUpTo top r := by
  obtain ⟨-, ⟨hxfer, rfl⟩ | ⟨-, hxfer, rfl⟩⟩ := arrive_cases ha
  · rw [hxfer]
    exact ⟨h.countArrival _, fun r hr => by cases hr⟩
  · rw [hxfer]
    exact ⟨(h.repeat env.errorWrite).countArrival _, repeat_asks h htracked _⟩

theorem Reached.mark {block : Nat} (h : Reached top xfer) (hle : block ≤ top) :
    Reached top (markReceived xfer block) := by
  refine ⟨h.entries, fun b hb => ?_⟩
  by_cases hsame : b = block
  · exact hsame ▸ hle
  · apply h.received b
    dsimp only [markReceived] at hb
    rw [Function.update_of_ne hsame] at hb
    exact hb

theorem Reached.moved (h : Reached top xfer) (block type : Nat) :
    Reached top (clearRestart (moveHead block type (closeGap xfer))) := by
  have hsame := sameBlocks_moved block type xfer
  refine ⟨?_, fun b hb => h.received b (hsame.received ▸ hb)⟩
  have hrexmit : (clearRestart (moveHead block type (closeGap xfer))).rexmit = xfer.rexmit :=
    headed_rexmit block type xfer
  rw [hrexmit]
  exact h.entries

theorem Reached.queueMissing {block : Nat} (h : Reached top xfer) (htracked : Tracked xfer head)
    (hlossless : param.lossless = true) (hle : block ≤ top)
    (hq : queueMissing param env xfer block = some xfer') : Reached top xfer' := by
  unfold Client.queueMissing at hq
  rw [if_pos hlossless] at hq
  split at hq
  · exact h.requestRange htracked.sized (by omega) hq
  · cases hq
    exact h

theorem Reached.atTerminate {c : Controlled} (h : Reached top xfer) (htracked : Tracked xfer head)
    (hlast : xfer.blockCount ≤ top) (hc : atTerminate param env xfer = some c) :
    Reached top c.xfer ∧ ∀ r ∈ c.sent, AsksUpTo top r := by
  rcases atTerminate_cases hc with ⟨-, rfl⟩ | ⟨-, -, mid, hmid, rfl⟩
  · exact ⟨h, fun r hr => by cases hr⟩
  · have hmidReached := h.requestRange htracked.sized (by omega) hmid
    exact ⟨hmidReached.repeat _, repeat_asks hmidReached (htracked.requestRange hmid) _⟩

theorem Reached.control {block type : Nat} {c : Controlled} (h : Reached top xfer)
    (htracked : Tracked xfer xfer.nextBlock) (hlossless : param.lossless = true)
    (hgot : gotBlock xfer block = true) (hle : block ≤ top)
    (hlast : type = tsBlockTerminate → xfer.blockCount ≤ top)
    (hc : control param env xfer block type = some c) :
    Reached top c.xfer ∧ ∀ r ∈ c.sent, AsksUpTo top r := by
  rcases control_cases hc with ⟨-, rfl⟩ | ⟨-, mid, hmid, hc⟩
  · exact ⟨h, fun r hr => by cases hr⟩
  · have hsame := sameBlocks_queueMissing hmid
    have hmoved := (h.queueMissing htracked hlossless hle hmid).moved block type
    rcases hc with ⟨htype, hend⟩ | ⟨-, rfl⟩
    · obtain ⟨hhead, hblock⟩ := htracked.queueMissing hlossless hmid
      have hgap : Tracked (closeGap mid) (closeGap mid).nextBlock := hhead.closeGap
      have hgot' : gotBlock mid block = true := (hsame.gotBlock block).trans hgot
      refine hmoved.atTerminate (hgap.moveHead hblock.closeGap hgot' type).clearRestart ?_ hend
      rw [(sameBlocks_moved block type mid).blockCount, hsame.blockCount]
      exact hlast htype
    · exact ⟨hmoved, fun r hr => by cases hr⟩

theorem Reached.afterRing {block type : Nat} {c : Controlled} (h : Reached top xfer)
    (htracked : Tracked xfer xfer.nextBlock) (hlossless : param.lossless = true)
    (hgot : gotBlock xfer block = true) (hle : block ≤ top)
    (hlast : type = tsBlockTerminate → xfer.blockCount ≤ top)
    (hc : afterRing param env xfer block type = some c) :
    Reached top c.xfer ∧ ∀ r ∈ c.sent, AsksUpTo top r := by
  obtain ⟨mid, hmid, ⟨-, rfl⟩ | ⟨-, after, sent, hstats, rfl⟩⟩ := afterRing_cases hc
  · exact h.control htracked hlossless hgot hle hlast hmid
  · obtain ⟨hreached, hasked⟩ := h.control htracked hlossless hgot hle hlast hmid
    obtain ⟨hafter, hmore⟩ := hreached.sendStats (htracked.control hlossless hgot hmid) hstats
    refine ⟨hafter, fun r hr => ?_⟩
    rcases List.mem_append.mp hr with hr | hr
    · exact hasked r hr
    · exact hmore r hr

end Turn

namespace Get
variable {param : Parameter} {top : Nat} {s s' : Get}

/-- All that the client knows of and has asked for was sent; `storing`, it holds such a block. -/
structure Told (top : Nat) (s : Get) : Prop where
  reached : Reached top s.net.xfer
  tracked : Tracked s.net.xfer s.net.xfer.nextBlock
  offered : ∀ env, s.phase = .storing env →
    Numbered top s.net.xfer.blockCount s.net.localDatagram
  sent : ∀ r ∈ s.sent, AsksUpTo top r

theorem told_start (param : Parameter) (top fileSize onWireEstimate : Nat) {blockCount : Nat}
    (hn : blockCount < 4294967296) (slots : Int → List UInt8) :
    Told top (start param (.start fileSize blockCount onWireEstimate) slots) where
  reached := reached_start top fileSize blockCount onWireEstimate
  tracked := Tracked.start hn
  offered := fun env he => by cases he
  sent := fun r hr => by cases hr

theorem Told.mono {top' : Nat} (h : Told top s) (hle : top ≤ top') : Told top' s :=
  ⟨h.reached.mono hle, h.tracked, fun env he => (h.offered env he).mono hle,
    fun r hr => (h.sent r hr).mono hle⟩

theorem sent_append {sent more : List Retransmission} (h : ∀ r ∈ sent, AsksUpTo top r)
    (hmore : ∀ r ∈ more, AsksUpTo top r) : ∀ r ∈ sent ++ more, AsksUpTo top r :=
  fun r hr => (List.mem_append.mp hr).elim (h r) (hmore r)

theorem told_settle {kill : Bool} {rest : Option Controlled} (hreached : Reached top s.net.xfer)
    (htracked : Tracked s.net.xfer s.net.xfer.nextBlock) (hsent : ∀ r ∈ s.sent, AsksUpTo top r)
    (hrest : ∀ c, rest = some c → (Reached top c.xfer ∧ ∀ r ∈ c.sent, AsksUpTo top r) ∧
      Tracked c.xfer c.xfer.nextBlock) : Told top (s.settle kill rest) := by
  cases rest with
  | none => exact ⟨hreached, htracked, (fun env he => by cases kill <;> cases he), hsent⟩
  | some c =>
    obtain ⟨⟨hc, hmore⟩, hctracked⟩ := hrest c rfl
    refine ⟨hc, hctracked, fun env he => ?_, sent_append hsent hmore⟩
    dsimp only [settle] at he
    split at he <;> cases he

theorem Told.turn {env : Env} (h : Told top s) (hlossless : param.lossless = true)
    (hnumbered : Numbered top s.net.xfer.blockCount (buffer param s.net.localDatagram env.recv))
    (hs : s.turn param env = some s') : Told top s' := by
  obtain ⟨-, -, ⟨-, rfl⟩ | ⟨net, sent, harrive, hs⟩⟩ := turn_cases hs
  · exact ⟨h.reached, h.tracked, (fun env he => by cases he), h.sent⟩
  · obtain ⟨hreached, hasked⟩ := h.reached.arrive h.tracked harrive
    have htracked := h.tracked.arrive harrive
    have hsent := sent_append h.sent hasked
    obtain ⟨hsame, hbuffer⟩ := arrive_spec harrive
    have hnumbered : Numbered top net.xfer.blockCount net.localDatagram := by
      rw [hbuffer, hsame.blockCount]
      exact hnumbered
    rcases hs with ⟨-, -, rfl⟩ | ⟨-, hold, rfl⟩ | ⟨-, rfl⟩
    · exact ⟨hreached, htracked, fun env he => hnumbered, hsent⟩
    · refine told_settle hreached htracked hsent fun c hc => ⟨?_, htracked.afterRing hlossless hold hc⟩
      exact hreached.afterRing htracked hlossless hold hnumbered.number hnumbered.last hc
    · refine told_settle hreached htracked hsent fun c hc => ?_
      obtain ⟨⟨xfer, more⟩, hstats, rfl⟩ := Option.map_eq_some_iff.mp hc
      exact ⟨hreached.sendStats htracked hstats, htracked.sendStats hstats⟩

theorem Told.confirm (h : Told top s) (hlossless : param.lossless = true)
    (hs : s.confirm param = some s') : Told top s' := by
  obtain ⟨threads, -, ⟨env, hphase, rfl⟩ | ⟨-, rfl⟩⟩ := confirm_cases hs
  · have hnumbered := h.offered env hphase
    have hreached := h.reached.mark hnumbered.number
    have htracked := h.tracked.markReceived (blockNumber s.net.localDatagram)
    have hgot : gotBlock (markReceived s.net.xfer (blockNumber s.net.localDatagram))
        (blockNumber s.net.localDatagram) = true := by
      rw [gotBlock_markReceived, decide_eq_true rfl, Bool.or_true]
    refine told_settle hreached htracked h.sent fun c hc => ⟨?_, htracked.afterRing hlossless hgot hc⟩
    exact hreached.afterRing htracked hlossless hgot hnumbered.number hnumbered.last hc
  · exact ⟨h.reached, h.tracked, (fun env he => by cases he), h.sent⟩

theorem Told.step {action : GetAction} (h : Told top s) (hlossless : param.lossless = true)
    (hnumbered : ∀ env, action = .turn env →
      Numbered top s.net.xfer.blockCount (buffer param s.net.localDatagram env.recv))
    (hs : s.step param action = some s') : Told top s' := by
  have hact := (step_act hs).2
  rcases step_cases hs with hcall | ⟨env, rfl⟩ | rfl | ⟨write, rfl⟩ | rfl | ⟨result, rfl⟩
  · refine ⟨?_, ?_, ?_, ?_⟩
    · rw [hcall.net]
      exact h.reached
    · rw [hcall.net]
      exact h.tracked
    · rw [hcall.net, hcall.phase]
      exact h.offered
    · rw [hcall.sent]
      exact h.sent
  · exact h.turn hlossless (hnumbered env rfl) hact
  · exact h.confirm hlossless hact
  · obtain ⟨-, ⟨-, rfl⟩ | ⟨-, rfl⟩⟩ := requestStop_cases hact
    · refine ⟨h.reached, h.tracked, (fun env he => by cases he), sent_append h.sent fun r hr => ?_⟩
      obtain rfl := List.mem_singleton.mp hr
      rintro (htype | htype) <;> cases htype
    · exact ⟨h.reached, h.tracked, (fun env he => by cases he), h.sent⟩
  · obtain ⟨-, -, rfl⟩ := join_cases hact
    exact ⟨h.reached, h.tracked, (fun env he => by cases he), h.sent⟩
  · obtain ⟨slot, d, -, -, ⟨-, rfl⟩ | ⟨-, rfl⟩⟩ := accept_cases hact
    · exact ⟨h.reached, h.tracked, h.offered, h.sent⟩
    · exact ⟨h.reached, h.tracked, h.offered, h.sent⟩

end Get

end TsunamiUdp.Client

import TsunamiUdp.Server.EndOfFile
import TsunamiUdp.Server.FastPath
import TsunamiUdp.Server.Framing

/-! What the file server puts on the wire: the block a datagram names, its type, and
where the bytes behind the header come from. -/
namespace TsunamiUdp.Server
open Library

/-- What calls `build_datagram` in a pass: a request for a block, or the transmit loop. -/
inductive Caller
  | request (block : Nat)
  | loop

def caller (input : Input) (h : Handler) : Option Caller :=
  match readRequest input.read h with
  | none => none
  | some _ =>
    if (buffered input h).length = sizeofRetransmission then
      let r := Retransmission.decode (buffered input h)
      if r.requestType = requestRetransmit then some (.request r.block) else none
    else some .loop

namespace Caller

def block (param : Parameter) (xfer : Transfer) : Caller → Nat
  | .request block => block
  | .loop => nextBlock param xfer

def type (param : Parameter) (xfer : Transfer) : Caller → Nat
  | .request _ => tsBlockRetransmission
  | .loop => if nextBlock param xfer = param.blockCount then tsBlockTerminate else tsBlockOriginal

def original (param : Parameter) (xfer : Transfer) : Caller → Option Nat
  | .request _ => none
  | .loop => some (nextBlock param xfer)

def build (param : Parameter) (xfer : Transfer) (c : Caller) : Builder :=
  buildDatagram param.blockSize (c.block param xfer) (c.type param xfer) xfer.builder

/-- The requested block exists; the loop has a block to send, and its counter does not
wrap. -/
def InRange (param : Parameter) (xfer : Transfer) : Caller → Prop
  | .request block => 1 ≤ block ∧ block ≤ param.blockCount
  | .loop => param.blockCount ≠ 0 ∧ xfer.block ≠ 4294967295

end Caller

/-- The datagram names a block of the file, says whether the loop sent it as the last
one, and begins with the bytes of the block. -/
structure Genuine (param : Parameter) (contents : List UInt8) (original : Option Nat)
    (d : List UInt8) : Prop where
  first : 1 ≤ blockNumber d
  last : blockNumber d ≤ param.blockCount
  type : blockType d = tsBlockTerminate ↔ original = some param.blockCount
  payload : blockAt param.blockSize contents (blockNumber d) <+: d.drop 6

/-- No byte behind the header is left from an earlier block. -/
def Whole (param : Parameter) (contents : List UInt8) (_ : Option Nat) (d : List UInt8) : Prop :=
  d.drop 6 = blockAt param.blockSize contents (blockNumber d)

def Emits (order : ByteOrder) (param : Parameter) (P : Option Nat → List UInt8 → Prop) (s : Loop)
    (input : Input) : Prop :=
  ∀ d ∈ (handlerTurn order param input s.handler).sent,
    P (handlerTurn order param input s.handler).original d

def BlocksExist (param : Parameter) (s : Loop) (input : Input) : Prop :=
  ∀ c, caller input s.handler = some c → c.InRange param s.handler.xfer

def Untouched (s : Loop) : Prop :=
  s.originals = [] ∧ ∀ r ∈ s.acted, r.requestType ≠ requestRetransmit

/-- The first block built in the transfer is block 1, or not the one behind the last
block of the transfer before. -/
def Fresh (param : Parameter) (s : Loop) (input : Input) : Prop :=
  Untouched s → ∀ c, caller input s.handler = some c → c.block param s.handler.xfer = 1 ∨
    c.block param s.handler.xfer ≠ wrap32 (s.handler.xfer.builder.lastBlock + 1)

def Full (param : Parameter) (contents : List UInt8) (s : Loop) (input : Input) : Prop :=
  input.send = .ok → ∀ c, caller input s.handler = some c →
    param.blockSize * c.block param s.handler.xfer ≤ contents.length

structure Opened (param : Parameter) (h : Handler) : Prop where
  ready : Ready h
  block : h.xfer.block = 0
  size_pos : 0 < param.blockSize
  offsets : h.xfer.builder.file.contents.length < 9223372036854775808
  count : param.blockCount = wrap32 (blocksOf h.xfer.builder.file.contents.length param.blockSize)
  position : h.xfer.builder.file.position = 0
  lastBlock : h.xfer.builder.lastBlock < 4294967296
  room : 6 + param.blockSize ≤ h.xfer.builder.datagram.length

section Passes
variable {order : ByteOrder} {param : Parameter} {input : Input} {h : Handler}

theorem readRequest_pace (read : Read) (now : Int) (h : Handler) :
    readRequest read (pace now h) = none ↔ readRequest read h = none := by
  cases read with
  | data bytes => exact iff_of_false (by simp [readRequest]) (by simp [readRequest])
  | nothing => exact iff_of_false (by simp [readRequest]) (by simp [readRequest])
  | closed => rw [readRequest_closed, readRequest_closed]; rfl
  | failed => exact Iff.rfl

structure Emission (param : Parameter) (input : Input) (h : Handler) (turn : Turn) (c : Caller) :
    Prop where
  sent : turn.sent = if input.send = .ok then [outgoing param (c.build param h.xfer)] else []
  builder : turn.handler.xfer.builder = c.build param h.xfer
  original : turn.original = c.original param h.xfer

structure Silent (h : Handler) (turn : Turn) : Prop where
  sent : turn.sent = []
  builder : turn.handler.xfer.builder = h.xfer.builder
  original : turn.original = none
  acted : ∀ r, turn.acted = some r → r.requestType ≠ requestRetransmit

theorem silent_of_none {turn : Turn} (hdatagram : turn.datagram = none)
    (hbuilder : turn.handler.xfer.builder = h.xfer.builder) (horiginal : turn.original = none)
    (hacted : ∀ r, turn.acted = some r → r.requestType ≠ requestRetransmit) : Silent h turn := by
  refine ⟨?_, hbuilder, horiginal, hacted⟩
  rw [Turn.sent, hdatagram]
  exact ite_self _

variable (param) in
theorem ttpAcceptRetransmit_other (send : SendResult) {r : Retransmission} (xfer : Transfer)
    (h : r.requestType ≠ requestRetransmit) :
    (ttpAcceptRetransmit param send r xfer).datagram = none ∧
      (ttpAcceptRetransmit param send r xfer).xfer.builder = xfer.builder := by
  unfold ttpAcceptRetransmit
  split
  · exact ⟨rfl, rfl⟩
  · split
    · split <;> exact ⟨rfl, rfl⟩
    · exact ⟨rfl, rfl⟩

theorem ttpAcceptRetransmit_retransmit {send : SendResult} {r : Retransmission} {xfer : Transfer}
    (h : r.requestType = requestRetransmit) :
    ttpAcceptRetransmit param send r xfer =
      ⟨send = .ok, { xfer with builder := (Caller.request r.block).build param xfer },
        some (outgoing param ((Caller.request r.block).build param xfer))⟩ := by
  unfold ttpAcceptRetransmit
  rw [if_neg (by rw [h]; decide), if_neg (by rw [h]; decide), if_pos h]
  rfl

variable (order param) in
theorem handlerTurn_sent (hready : Ready h) (hread : Readable input.read h) {d : List UInt8}
    (hd : (handlerTurn order param input h).datagram = some d) :
    (handlerTurn order param input h).sent = if input.send = .ok then [d] else [] := by
  have hdelivered : (handlerTurn order param input h).delivered = decide (input.send = .ok) := by
    cases handlerTurn_pass order param hready hread with
    | exited _ _ _ datagram => cases hd.symm.trans datagram
    | stopped _ _ _ _ _ datagram => cases hd.symm.trans datagram
    | requested complete request =>
      obtain ⟨again, hturn⟩ := handlerTurn_complete order param hready complete
      have hmem : (convertInPlace order (buffered input h)).length = sizeofRetransmission :=
        convertInPlace_length complete
      rw [hturn]
      unfold handleRequest
      dsimp only
      rw [if_neg request]
      exact (sameTurn_finish order param input _ hmem).delivered
    | transmitted incomplete flow =>
      obtain ⟨again, hturn⟩ := handlerTurn_incomplete order param hready hread incomplete
        fun hexit => by rcases flow with hflow | hflow <;> cases hexit.symm.trans hflow
      rw [hturn]
      refine (sameTurn_finish order param input _ ?_).delivered
      have hmem := hready.memory
      simp only [transmitBlock, memoryAfterRead, List.length_append, List.length_drop]
      omega
  rw [Turn.sent, hdelivered, hd]
  simp only [decide_eq_true_eq, Option.toList_some]

theorem caller_of_exit (hexit : (handlerTurn order param input h).flow = .exit) :
    caller input h = none := by
  rw [handlerTurn_exit_iff, readRequest_pace] at hexit
  rw [caller, hexit]

theorem caller_of_goes (hgoes : (handlerTurn order param input h).flow ≠ .exit) :
    caller input h =
      if (buffered input h).length = sizeofRetransmission then
        let r := Retransmission.decode (buffered input h)
        if r.requestType = requestRetransmit then some (.request r.block) else none
      else some .loop := by
  rw [ne_eq, handlerTurn_exit_iff, readRequest_pace] at hgoes
  obtain ⟨h1, hr⟩ := Option.ne_none_iff_exists'.mp hgoes
  rw [caller, hr]

variable (order param) in
theorem handlerTurn_emission (hready : Ready h) (hread : Readable input.read h) :
    (caller input h = none ∧ Silent h (handlerTurn order param input h)) ∨
      ∃ c, caller input h = some c ∧
        Emission param input h (handlerTurn order param input h) c := by
  cases handlerTurn_pass order param hready hread with
  | exited flow acted original datagram _ xfer =>
    refine Or.inl ⟨caller_of_exit flow, silent_of_none datagram (by rw [xfer]) original fun r hr => ?_⟩
    cases acted.symm.trans hr
  | stopped complete stop flow acted original datagram xfer =>
    have hother : (Retransmission.decode (buffered input h)).requestType ≠ requestRetransmit := by
      rw [stop]
      decide
    refine Or.inl ⟨?_, silent_of_none datagram (by rw [xfer]) original fun r hr => ?_⟩
    · have hgoes : (handlerTurn order param input h).flow ≠ .exit := by
        rw [flow]
        decide
      rw [caller_of_goes hgoes, if_pos complete]
      exact if_neg hother
    · cases acted.symm.trans hr
      exact hother
  | requested complete request flow acted original xfer datagram empty =>
    have hgoes : (handlerTurn order param input h).flow ≠ .exit := by
      rw [flow]
      decide
    have hcaller := caller_of_goes hgoes
    rw [if_pos complete] at hcaller
    by_cases htype : (Retransmission.decode (buffered input h)).requestType = requestRetransmit
    · rw [ttpAcceptRetransmit_retransmit htype] at xfer datagram
      refine Or.inr ⟨_, hcaller.trans (if_pos htype), handlerTurn_sent order param hready hread datagram,
        by rw [xfer], original⟩
    · obtain ⟨hnone, hsame⟩ := ttpAcceptRetransmit_other param input.send h.xfer htype
      refine Or.inl ⟨hcaller.trans (if_neg htype), silent_of_none (datagram.trans hnone)
        (by rw [xfer, hsame]) original fun r hr => ?_⟩
      cases acted.symm.trans hr
      exact htype
  | transmitted incomplete flow acted original block builder datagram len =>
    refine Or.inr ⟨.loop, ?_, handlerTurn_sent order param hready hread datagram, builder, original⟩
    have hgoes : (handlerTurn order param input h).flow ≠ .exit := by
      rcases flow with hflow | hflow <;> rw [hflow] <;> decide
    rw [caller_of_goes hgoes, if_neg (by omega)]

theorem caller_block_lt {c : Caller} (hc : caller input h = some c)
    (hcount : param.blockCount < 4294967296) : c.block param h.xfer < 4294967296 := by
  unfold caller at hc
  split at hc
  · cases hc
  · split at hc
    · dsimp only at hc
      split at hc <;> cases hc
      exact (ofBytes_lt _).trans_le
        (Nat.pow_le_pow_right (by decide) (List.length_take_le 4 _))
    · cases hc
      exact (Nat.min_le_right _ _).trans_lt hcount

theorem Caller.inRange_iff {xfer : Transfer} (hblock : xfer.block ≤ param.blockCount)
    (hcount : param.blockCount < 4294967296) (c : Caller) :
    c.InRange param xfer ↔ 1 ≤ c.block param xfer ∧ c.block param xfer ≤ param.blockCount := by
  cases c with
  | request block => exact Iff.rfl
  | loop =>
    simp only [Caller.InRange, Caller.block, nextBlock, wrap32]
    omega

theorem Caller.type_lt {xfer : Transfer} (c : Caller) : c.type param xfer < 65536 := by
  cases c with
  | request block => exact (by decide : tsBlockRetransmission < 65536)
  | loop =>
    dsimp only [Caller.type]
    split <;> decide

theorem Caller.type_iff {xfer : Transfer} (c : Caller) :
    c.type param xfer = tsBlockTerminate ↔ c.original param xfer = some param.blockCount := by
  cases c with
  | request block => exact iff_of_false (by dsimp only [Caller.type]; decide) (by simp [Caller.original])
  | loop =>
    simp only [Caller.type, Caller.original, Option.some.injEq]
    split
    · rename_i hlast
      exact iff_of_true rfl hlast
    · rename_i hlast
      exact iff_of_false (by decide) hlast

theorem build_number {c : Caller} {xfer : Transfer} (hc : c.block param xfer < 4294967296) :
    blockNumber (outgoing param (c.build param xfer)) = c.block param xfer := by
  obtain ⟨rest, heq⟩ := outgoing_buildDatagram param (c.block param xfer) (c.type param xfer) xfer.builder
  rw [Caller.build, heq, blockNumber_header hc]

end Passes

structure Emitting (param : Parameter) (contents : List UInt8) (s : Loop) : Prop where
  ready : s.flow = .next → Ready s.handler
  block : s.handler.xfer.block ≤ param.blockCount
  contents : s.handler.xfer.builder.file.contents = contents
  room : 6 + param.blockSize ≤ s.handler.xfer.builder.datagram.length
  aligned : ∃ first, Aligned ⟨s.handler.xfer.builder, param.blockSize, 0⟩ param.blockCount
    s.handler.xfer.builder.lastBlock first ∧ (first = true → Untouched s)

theorem emitting_start {param : Parameter} {h : Handler} (hopened : Opened param h) :
    Emitting param h.xfer.builder.file.contents (.start h) where
  ready := fun _ => hopened.ready
  block := by
    change h.xfer.block ≤ param.blockCount
    rw [hopened.block]
    exact Nat.zero_le _
  contents := rfl
  room := hopened.room
  aligned := ⟨true, ⟨hopened.size_pos, hopened.offsets, hopened.count, rfl, hopened.lastBlock,
    fun _ => hopened.position, fun hf => by cases hf⟩, fun _ => ⟨rfl, fun r hr => by cases hr⟩⟩

section Steps
variable {order : ByteOrder} {param : Parameter} {contents : List UInt8} {s s' : Loop} {input : Input}

theorem Emitting.narrow (h : Emitting param contents s) : param.blockCount < 4294967296 := by
  obtain ⟨first, haligned, -⟩ := h.aligned
  rw [haligned.count]
  exact wrap32_lt _

theorem Emitting.build (h : Emitting param contents s) (hfresh : Fresh param s input) {c : Caller}
    (hc : caller input s.handler = some c) (hrange : c.InRange param s.handler.xfer) :
    (c.build param s.handler.xfer).datagram = blockDatagram param.blockSize contents
        (c.block param s.handler.xfer) (c.type param s.handler.xfer)
        s.handler.xfer.builder.datagram ∧
      Aligned ⟨c.build param s.handler.xfer, param.blockSize, 0⟩ param.blockCount
        (c.block param s.handler.xfer) false := by
  obtain ⟨h1, hle⟩ := (Caller.inRange_iff h.block h.narrow c).mp hrange
  obtain ⟨first, haligned, huntouched⟩ := h.aligned
  rw [← h.contents]
  refine haligned.build (c.type param s.handler.xfer) h1 hle ?_
  rintro ⟨hfirst, hnext, h2⟩
  have hnarrow := h.narrow
  rcases hfresh (huntouched hfirst) c hc with hone | hother
  · omega
  · exact hother (hnext.trans (wrap32_of_lt (by omega)).symm)

variable (order param) in
theorem block_step (hready : Ready s.handler) (hread : Readable input.read s.handler)
    (hblock : s.handler.xfer.block ≤ param.blockCount) :
    (handlerTurn order param input s.handler).handler.xfer.block ≤ param.blockCount := by
  cases handlerTurn_pass order param hready hread with
  | exited _ _ _ _ _ xfer => rw [xfer]; exact hblock
  | stopped _ _ _ _ _ _ xfer => rw [xfer]; exact hblock
  | transmitted _ _ _ _ block => rw [block]; exact Nat.min_le_right _ _
  | requested _ _ _ _ _ xfer =>
    rw [xfer]
    unfold ttpAcceptRetransmit
    split
    · exact hblock
    · split
      · split
        · exact hblock
        · dsimp only
          omega
      · split <;> exact hblock

theorem Emitting.step (h : Emitting param contents s) (hrange : BlocksExist param s input)
    (hfresh : Fresh param s input) (hs : Loop.step order param s input = some s') :
    Emitting param contents s' := by
  have hready' := ready_step h.ready hs
  obtain ⟨hflow, hread, rfl⟩ := step_some hs
  have hready := h.ready hflow
  have hblock := block_step order param hready hread h.block
  rcases handlerTurn_emission order param hready hread with ⟨-, hsilent⟩ | ⟨c, hc, hemission⟩
  · obtain ⟨first, haligned, huntouched⟩ := h.aligned
    refine ⟨hready', hblock, ?_, ?_, first, ?_, fun hfirst => ?_⟩
    · dsimp only
      rw [hsilent.builder]
      exact h.contents
    · dsimp only
      rw [hsilent.builder]
      exact h.room
    · dsimp only
      rw [hsilent.builder]
      exact haligned
    · obtain ⟨horiginals, hacted⟩ := huntouched hfirst
      refine ⟨?_, fun r hr => ?_⟩
      · dsimp only
        rw [horiginals, hsilent.original]
        rfl
      · rcases List.mem_append.mp hr with hr | hr
        · exact hacted r hr
        · exact hsilent.acted r (Option.mem_toList.mp hr)
  · obtain ⟨-, haligned⟩ := h.build hfresh hc (hrange c hc)
    refine ⟨hready', hblock, ?_, ?_, false, ?_, fun hfirst => by cases hfirst⟩
    · dsimp only
      rw [hemission.builder]
      exact (buildDatagram_contents _ _ _ _).trans h.contents
    · dsimp only
      rw [hemission.builder]
      exact buildDatagram_room h.room
    · dsimp only
      rw [hemission.builder]
      exact haligned

theorem Emitting.genuine_iff (h : Emitting param contents s) (hfresh : Fresh param s input) {c : Caller}
    (hc : caller input s.handler = some c) :
    Genuine param contents (c.original param s.handler.xfer)
      (outgoing param (c.build param s.handler.xfer)) ↔ c.InRange param s.handler.xfer := by
  have hnumber := build_number (caller_block_lt hc h.narrow)
  constructor
  · intro hgenuine
    rw [Caller.inRange_iff h.block h.narrow, ← hnumber]
    exact ⟨hgenuine.first, hgenuine.last⟩
  · intro hrange
    obtain ⟨h1, hle⟩ := (Caller.inRange_iff h.block h.narrow c).mp hrange
    have hdatagram := (h.build hfresh hc hrange).1
    refine ⟨by rw [hnumber]; exact h1, by rw [hnumber]; exact hle, ?_, ?_⟩
    · rw [outgoing, hdatagram, blockDatagram_take, blockType_header c.type_lt]
      exact c.type_iff
    · rw [hnumber, outgoing, hdatagram, blockDatagram_take, List.drop_append_of_le_length (by simp),
        List.drop_eq_nil_of_le (by simp), List.nil_append]
      exact List.prefix_append _ _

theorem Emitting.whole_iff (h : Emitting param contents s) (hfresh : Fresh param s input) {c : Caller}
    (hc : caller input s.handler = some c) (hrange : c.InRange param s.handler.xfer) :
    Whole param contents (c.original param s.handler.xfer)
      (outgoing param (c.build param s.handler.xfer)) ↔
      param.blockSize * c.block param s.handler.xfer ≤ contents.length := by
  obtain ⟨h1, hle⟩ := (Caller.inRange_iff h.block h.narrow c).mp hrange
  have hdatagram := (h.build hfresh hc hrange).1
  have hlen := blockAt_length param.blockSize contents (c.block param s.handler.xfer)
  have hroom := h.room
  have hend := blockStart_add param.blockSize h1
  obtain ⟨first, haligned, -⟩ := h.aligned
  have hpos : 0 < param.blockSize := haligned.size_pos
  rw [Whole, build_number (caller_block_lt hc h.narrow), outgoing, hdatagram, blockDatagram_take,
    List.drop_append_of_le_length (by simp), List.drop_eq_nil_of_le (by simp), List.nil_append,
    List.append_right_eq_self, ← List.length_eq_zero_iff, List.length_take, List.length_drop]
  omega

theorem emits_of_silent {P : Option Nat → List UInt8 → Prop}
    (h : Silent s.handler (handlerTurn order param input s.handler)) :
    Emits order param P s input := by
  intro d hd
  rw [h.sent] at hd
  cases hd

theorem emits_iff {P : Option Nat → List UInt8 → Prop} {c : Caller}
    (h : Emission param input s.handler (handlerTurn order param input s.handler) c) :
    Emits order param P s input ↔ (input.send = .ok →
      P (c.original param s.handler.xfer) (outgoing param (c.build param s.handler.xfer))) := by
  rw [Emits, h.sent, h.original]
  split
  · rename_i hsend
    simp [hsend]
  · rename_i hsend
    simp [hsend]

theorem Emitting.emits_genuine_iff (h : Emitting param contents s) (hfresh : Fresh param s input)
    (hs : Loop.step order param s input = some s') :
    Emits order param (Genuine param contents) s input ↔ (input.send = .ok → BlocksExist param s input) := by
  obtain ⟨hflow, hread, -⟩ := step_some hs
  rcases handlerTurn_emission order param (h.ready hflow) hread with
    ⟨hnone, hsilent⟩ | ⟨c, hc, hemission⟩
  · refine iff_of_true (emits_of_silent hsilent) fun _ c hc => ?_
    cases hnone.symm.trans hc
  · rw [emits_iff hemission, h.genuine_iff hfresh hc]
    refine imp_congr_right fun _ => ⟨fun hrange c' hc' => ?_, fun hrange => hrange c hc⟩
    cases hc.symm.trans hc'
    exact hrange

theorem Emitting.emits_whole_iff (h : Emitting param contents s) (hfresh : Fresh param s input)
    (hrange : BlocksExist param s input) (hs : Loop.step order param s input = some s') :
    Emits order param (Whole param contents) s input ↔ Full param contents s input := by
  obtain ⟨hflow, hread, -⟩ := step_some hs
  rcases handlerTurn_emission order param (h.ready hflow) hread with
    ⟨hnone, hsilent⟩ | ⟨c, hc, hemission⟩
  · refine iff_of_true (emits_of_silent hsilent) fun _ c hc => ?_
    cases hnone.symm.trans hc
  · rw [emits_iff hemission, h.whole_iff hfresh hc (hrange c hc)]
    refine imp_congr_right fun _ => ⟨fun hfull c' hc' => ?_, fun hfull => hfull c hc⟩
    cases hc.symm.trans hc'
    exact hfull

end Steps

/-- In a transfer whose requests for blocks and whose transmit loop stay in the file, and
that does not begin one block behind the last one, every datagram sent is genuine, and
whole unless it is the short block at the end. If no `sendto` fails, only such a transfer
sends nothing but genuine datagrams. -/
theorem emitted_genuine_iff (order : ByteOrder) (param : Parameter) (h : Handler)
    (inputs : List Input) (t : Loop) (hopened : Opened param h)
    (hrun : run (Loop.step order param) (.start h) inputs = some t)
    (hfresh : Along (Loop.step order param) (Fresh param) (.start h) inputs) :
    (Along (Loop.step order param) (BlocksExist param) (.start h) inputs →
      Along (Loop.step order param) (Emits order param (Genuine param h.xfer.builder.file.contents))
          (.start h) inputs ∧
        (Along (Loop.step order param) (Emits order param (Whole param h.xfer.builder.file.contents))
            (.start h) inputs ↔
          Along (Loop.step order param) (Full param h.xfer.builder.file.contents) (.start h) inputs)) ∧
    (Along (Loop.step order param) (fun _ input => input.send = .ok) (.start h) inputs →
      (Along (Loop.step order param) (Emits order param (Genuine param h.xfer.builder.file.contents))
          (.start h) inputs ↔
        Along (Loop.step order param) (BlocksExist param) (.start h) inputs)) := by
  have hstart := emitting_start hopened
  refine ⟨fun hrange => ?_, fun hsends => ?_⟩
  · have hgiven := hfresh.and hrange
    constructor
    · have hall : Along (Loop.step order param)
          (Emits order param (Genuine param h.xfer.builder.file.contents)) (.start h) inputs ↔
          Along (Loop.step order param) (fun _ _ => True) (.start h) inputs :=
        along_iff (J := Emitting param h.xfer.builder.file.contents)
          (fun s input s' hJ hgiven hs =>
            iff_of_true ((hJ.emits_genuine_iff hgiven.1 hs).mpr fun _ => hgiven.2) trivial)
          (fun s input s' hJ hgiven _ hs => hJ.step hgiven.2 hgiven.1 hs) hstart hgiven hrun
      exact hall.mpr (.of_mem fun _ _ _ => trivial)
    · exact along_iff (J := Emitting param h.xfer.builder.file.contents)
        (fun s input s' hJ hgiven hs => hJ.emits_whole_iff hgiven.1 hgiven.2 hs)
        (fun s input s' hJ hgiven _ hs => hJ.step hgiven.2 hgiven.1 hs) hstart hgiven hrun
  · have hgiven := hfresh.and hsends
    have hexact : ∀ (s : Loop) (input : Input) (s' : Loop),
        Emitting param h.xfer.builder.file.contents s → Fresh param s input ∧ input.send = .ok →
        Loop.step order param s input = some s' →
        (Emits order param (Genuine param h.xfer.builder.file.contents) s input ↔
          BlocksExist param s input) := by
      intro s input s' hJ hgiven hs
      rw [hJ.emits_genuine_iff hgiven.1 hs]
      exact forall_prop_of_true hgiven.2
    exact along_iff (J := Emitting param h.xfer.builder.file.contents) hexact
      (fun s input s' hJ hgiven hgood hs =>
        hJ.step ((hexact s input s' hJ hgiven hs).mp hgood) hgiven.1 hs) hstart hgiven hrun

instance (param : Parameter) (xfer : Transfer) (c : Caller) : Decidable (c.InRange param xfer) := by
  cases c <;> (unfold Caller.InRange; infer_instance)

instance (param : Parameter) (s : Loop) (input : Input) : Decidable (BlocksExist param s input) :=
  inferInstanceAs (Decidable (∀ c ∈ caller input s.handler, c.InRange param s.handler.xfer))

instance (s : Loop) : Decidable (Untouched s) := by
  unfold Untouched
  infer_instance

instance (param : Parameter) (s : Loop) (input : Input) : Decidable (Fresh param s input) :=
  inferInstanceAs (Decidable (Untouched s → ∀ c ∈ caller input s.handler,
    c.block param s.handler.xfer = 1 ∨
      c.block param s.handler.xfer ≠ wrap32 (s.handler.xfer.builder.lastBlock + 1)))

theorem opened_unread : Opened threeBlocks (unread false) :=
  ⟨⟨rfl, by decide⟩, rfl, by decide, by decide, rfl, rfl, by decide, by decide⟩

def askFor (block : Nat) : Input :=
  { Input.idle with read := .data (Retransmission.encode ⟨requestRetransmit, block, 0⟩) }

/-- A block is sent again while the file goes out. -/
theorem emitted_genuine_iff_sample :
    ∃ t, run (Loop.step .little threeBlocks) (.start (unread false)) [.idle, askFor 2, .idle] = some t ∧
      Along (Loop.step .little threeBlocks) (Emits .little threeBlocks
        (Genuine threeBlocks [65, 66, 67])) (.start (unread false)) [.idle, askFor 2, .idle] := by
  have hsome : (run (Loop.step .little threeBlocks) (.start (unread false))
      [.idle, askFor 2, .idle]).isSome = true := by decide +kernel
  obtain ⟨t, ht⟩ := Option.isSome_iff_exists.mp hsome
  exact ⟨t, ht, ((emitted_genuine_iff .little threeBlocks (unread false) _ t opened_unread ht
    (by decide +kernel)).1 (by decide +kernel)).1⟩

/-- The client asks for the block behind the last one: what goes out has its number, and
the byte of block 1. -/
theorem missing_block_sent :
    (run (Loop.step .little threeBlocks) (.start (unread false)) [.idle, askFor 4]).map
        (fun s => s.sent) = some [[0, 0, 0, 1, 0, 79, 65], [0, 0, 0, 4, 0, 82, 65]] ∧
      ¬Along (Loop.step .little threeBlocks) (Emits .little threeBlocks
        (Genuine threeBlocks [65, 66, 67])) (.start (unread false)) [.idle, askFor 4] := by
  have hsome : (run (Loop.step .little threeBlocks) (.start (unread false))
      [.idle, askFor 4]).isSome = true := by decide +kernel
  refine ⟨by decide +kernel, fun halong => ?_⟩
  have hfirst : Loop.step .little threeBlocks (.start (unread false)) .idle =
      some ((Loop.step .little threeBlocks (.start (unread false)) .idle).get (by decide +kernel)) :=
    (Option.some_get _).symm
  have hlast := ((halong.2 _ hfirst).1 [0, 0, 0, 4, 0, 82, 65] (by decide +kernel)).last
  revert hlast
  decide

end TsunamiUdp.Server

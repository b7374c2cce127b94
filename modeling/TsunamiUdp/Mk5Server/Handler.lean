import TsunamiUdp.Server.Handler

/-! One pass of the transmit loop of the Mark5 server, and the disk behind it (`mk5api.c`). -/
namespace TsunamiUdp.Mk5Server
open Library
open TsunamiUdp.Server (Parameter Read SendResult Flow afterSend towardZero)

/-- The disk address in the read descriptor of an `MK5FILE`. -/
structure ReadDesc where
  addrHi : Nat
  addrLo : Nat

def mk5Fseek (offset : Nat) : ReadDesc := ⟨offset >>> 32, offset &&& 4294967295⟩

def ReadDesc.address (rdesc : ReadDesc) : Nat := rdesc.addrHi <<< 32 ||| rdesc.addrLo

def mk5Fopen64 : ReadDesc := ⟨0, 0⟩

/-- What a call of `XLRRead` comes to: whether it is a success, what lies in the buffer then, the
descriptor, and whether `errno` is `EAGAIN`. -/
structure XlrResult where
  success : Bool
  buffer : List UInt8
  rdesc : ReadDesc
  again : Bool

/-- `XLRRead` of the disks' library, for so many bytes. -/
abbrev XlrRead : Type := ReadDesc → Nat → XlrResult

structure Builder where
  lastBlock : Nat
  rdesc : ReadDesc
  datagram : List UInt8

/-- There is no seek for the block behind the last one. -/
def Builder.seek (param : Parameter) (blockIndex : Nat) (builder : Builder) : ReadDesc :=
  if blockIndex ≠ wrap32 (builder.lastBlock + 1) then
    mk5Fseek (param.blockSize * wrap32 (blockIndex + 4294967295))
  else builder.rdesc

/-- `mk5_fread` reports a read that has failed as complete. -/
def buildDatagram (param : Parameter) (xlrRead : XlrRead) (blockIndex blockType : Nat)
    (builder : Builder) : Builder :=
  let result := xlrRead (builder.seek param blockIndex) param.blockSize
  ⟨blockIndex, result.rdesc, datagramHeader blockIndex blockType ++ result.buffer ++
    builder.datagram.drop (6 + result.buffer.length)⟩

/-- What the calls of one pass return: `elapsed` are the microseconds since the head of the loop. -/
structure Input where
  read : Read
  xlrRead : XlrRead
  send : SendResult
  elapsed : Nat

/-- The local variables of the loop. `sofar` is not 0 while the rest of a broken message is read;
`again` says that `errno` is `EAGAIN`. -/
structure Handler where
  block : Nat
  ipdCurrent : Rat
  builder : Builder
  retransmission : List UInt8
  sofar : Nat
  again : Bool

structure Built where
  block : Nat
  type : Nat
  address : Nat
  read : Bool
  datagram : List UInt8
deriving DecidableEq

structure Turn where
  flow : Flow
  handler : Handler
  acted : Option Retransmission
  built : Option Built
  delivered : Bool
  slept : List Int

/-- A failed read sets `errno` to `EIO`. -/
def build (param : Parameter) (xlrRead : XlrRead) (block type : Nat) (h : Handler) :
    Handler × Built :=
  let rdesc := h.builder.seek param block
  let result := xlrRead rdesc param.blockSize
  let builder := buildDatagram param xlrRead block type h.builder
  ({ h with builder := builder, again := result.success && result.again },
    ⟨block, type, rdesc.address, result.success, builder.datagram.take (6 + param.blockSize)⟩)

/-- The speedup is cut down to a whole number. -/
def adjustIpd (param : Parameter) (errorRate : Nat) (ipd : Rat) : Rat :=
  if errorRate > param.errorRate then TsunamiUdp.Server.adjustIpd param errorRate ipd
  else towardZero (ipd * param.fasterNum / param.fasterDen)

def ttpAcceptRetransmit (param : Parameter) (xlrRead : XlrRead) (r : Retransmission) (h : Handler) :
    Handler × Option Built :=
  if r.requestType = requestErrorRate then
    ({ h with
      ipdCurrent := max (min (adjustIpd param r.errorRate h.ipdCurrent) 10000) param.ipdTime }, none)
  else if r.requestType = requestRestart then
    if r.block = 0 ∨ r.block > param.blockCount then (h, none) else ({ h with block := r.block }, none)
  else if r.requestType = requestRetransmit then
    let (h, built) := build param xlrRead r.block tsBlockRetransmission h
    (h, some built)
  else (h, none)

def delay (input : Input) (turn : Turn) : Turn :=
  let ipd := turn.handler.ipdCurrent
  { turn with slept := turn.slept ++
    [if (input.elapsed + 50 : Rat) < ipd then towardZero (ipd - input.elapsed - 50) else 0] }

def handleRequest (param : Parameter) (input : Input) (h : Handler) : Turn :=
  let r := Retransmission.decode h.retransmission
  if r.requestType = requestStop then ⟨.stop, h, some r, none, false, []⟩
  else
    let (h, built) := ttpAcceptRetransmit param input.xlrRead r h
    let h := { h with again := if built.isSome then afterSend input.send h.again else h.again }
    delay input ⟨.next, h, some r, built, built.isSome && input.send = .ok, [75]⟩

def transmitBlock (param : Parameter) (input : Input) (h : Handler) : Turn :=
  let block := min (wrap32 (h.block + 1)) param.blockCount
  let type := if block = param.blockCount then tsBlockTerminate else tsBlockOriginal
  let (h, built) := build param input.xlrRead block type { h with block := block }
  let h := { h with again := afterSend input.send h.again }
  if input.send = .ok then delay input ⟨.next, h, none, some built, true, []⟩
  else ⟨.next, h, none, some built, false, []⟩

def readInto (bytes : List UInt8) (h : Handler) : Handler :=
  { h with retransmission := bytes ++ h.retransmission.drop bytes.length }

/-- The loop that clears out a broken message: it ends when twelve bytes of it have been read, and
goes round for ever behind the end of the connection. -/
def clearOut (read : Read) (h : Handler) : Turn :=
  match read with
  | .data bytes =>
    let sofar := h.sofar + bytes.length
    ⟨.next, { readInto bytes h with
      sofar := if sofar < sizeofRetransmission then sofar else 0 }, none, none, false, []⟩
  | .nothing => ⟨.next, { h with again := true }, none, none, false, []⟩
  | .closed => ⟨.next, h, none, none, false, []⟩
  | .failed => ⟨.exit, { h with again := false }, none, none, false, []⟩

def handlerTurn (param : Parameter) (input : Input) (h : Handler) : Turn :=
  if h.sofar ≠ 0 then clearOut input.read h
  else
    match input.read with
    | .data bytes =>
      if bytes.length = sizeofRetransmission then handleRequest param input (readInto bytes h)
      else ⟨.next, { readInto bytes h with sofar := bytes.length }, none, none, false, []⟩
    | .nothing => transmitBlock param input { h with again := true }
    | .closed =>
      if h.again then transmitBlock param input h else ⟨.exit, h, none, none, false, []⟩
    | .failed => ⟨.exit, { h with again := false }, none, none, false, []⟩

/-- `read` returns at least one byte and no more than it is asked for. -/
def Readable (read : Read) (h : Handler) : Prop :=
  match read with
  | .data bytes => 1 ≤ bytes.length ∧ h.sofar + bytes.length ≤ sizeofRetransmission
  | _ => True

instance (read : Read) (h : Handler) : Decidable (Readable read h) :=
  match read with
  | .data _ => inferInstanceAs (Decidable (_ ∧ _))
  | .nothing => .isTrue trivial
  | .closed => .isTrue trivial
  | .failed => .isTrue trivial

def piece : Read → List (List UInt8)
  | .data bytes => [bytes]
  | _ => []

structure Loop where
  handler : Handler
  flow : Flow
  reads : List (List UInt8)
  acted : List Retransmission
  built : List Built

/-- The file has just been opened; the rest of the builder is left from the transfer before. -/
def Loop.start (ipd : Rat) (builder : Builder) (retransmission : List UInt8) (again : Bool) :
    Loop where
  handler := ⟨0, ipd, { builder with rdesc := mk5Fopen64 }, retransmission, 0, again⟩
  flow := .next
  reads := []
  acted := []
  built := []

def Loop.step (param : Parameter) (s : Loop) (input : Input) : Option Loop :=
  if s.flow = .next ∧ Readable input.read s.handler then
    let turn := handlerTurn param input s.handler
    some ⟨turn.handler, turn.flow, s.reads ++ piece input.read, s.acted ++ turn.acted.toList,
      s.built ++ turn.built.toList⟩
  else none

end TsunamiUdp.Mk5Server

import TsunamiUdp.Control.Client
import TsunamiUdp.Server.Framing

/-! The server's end of the control connection: `ttp_open_transfer`, `ttp_open_port` and
the transmit loop, in the outer loop of `client_handler`. -/
namespace TsunamiUdp.Control
open Library

/-- The files that are listed, with their sizes, and whether a program is asked for the
list of `get *` instead. -/
structure Config where
  order : Server.ByteOrder
  files : List (List UInt8 × Nat)
  few : files.length < 65536
  hook : Bool

def Field.width : Field → Nat
  | .blockSize | .targetRate | .errorRate => 4
  | .slowerNum | .slowerDen | .fasterNum | .fasterDen | .port => 2
  | .gotSize | .gotList => 8
  | .ack => 1
  | .request => sizeofRetransmission
  | .line => maxFilenameLength

def parameterFields : List Field :=
  [.blockSize, .targetRate, .errorRate, .slowerNum, .slowerDen, .fasterNum, .fasterDen]

/-- What the server reads next; `listedName` is the file name behind the list of `get *`. -/
inductive Place
  | filename
  | dirAck
  | gotSize (names : List (List UInt8))
  | gotList
  | listedName
  | parameters (left : List Field)
  | port
  | transmit (loop : Server.Loop)
  | ended

/-- The server's process. The memory of the request structure and `errno` outlive a
transfer, and so does what `build_datagram` keeps. -/
structure ServerSide where
  place : Place
  param : Server.Parameter
  targetRate : Nat
  xfer : Server.Transfer
  memory : List UInt8
  again : Bool

/-- `listing` is what the program lists, `file` the file that `fopen` finds; `socket` says
whether the socket can be created. -/
inductive ServerAction
  | readFilename (listing : List (List UInt8)) (file : Option (List UInt8))
  | readAck
  | readGotSize (file : Option (List UInt8))
  | readGotList
  | readListedName (file : Option (List UInt8))
  | readParameter (epoch : Nat)
  | readPort (socket : Bool) (now : Int)
  | pass (input : Server.Input)

structure Served where
  side : ServerSide
  read : List Item
  up : List UInt8
  reply : List UInt8

def strings (texts : List (List UInt8)) : List UInt8 := texts.flatMap (· ++ [0])

def dirReply (config : Config) : List UInt8 :=
  strings (decimal config.files.length ::
    config.files.flatMap fun (name, size) => [name, (decimal size).take 19])

/-- `snprintf` into an array of ten zeros. -/
def padded (n : Nat) : List UInt8 :=
  (decimal n).take 9 ++ List.replicate (10 - ((decimal n).take 9).length) 0

def sizesReply (names : List (List UInt8)) : List UInt8 :=
  padded ((strings names).length % 65536) ++ padded names.length

def ServerSide.at (s : ServerSide) (place : Place) : ServerSide := { s with place := place }

def openFile (file : Option (List UInt8)) (s : ServerSide) : ServerSide × List UInt8 :=
  match file with
  | none => (s.at .filename, [8])
  | some contents =>
    ({ s with
      place := .parameters parameterFields
      xfer := { s.xfer with
        block := 0
        builder := { s.xfer.builder with file := ⟨contents, 0⟩ } } }, [0])

def listed (config : Config) (listing : List (List UInt8)) : List (List UInt8) :=
  if config.hook then listing else config.files.map Prod.fst

/-- The buffer for the program's list takes 32768 characters. -/
def readFilename (config : Config) (listing : List (List UInt8)) (file : Option (List UInt8))
    (s : ServerSide) (up : List UInt8) : Option Served :=
  if listing.length ≤ 32768 then
    (readLine maxFilenameLength up).map fun (line, up) =>
      if lineText line = tsDirlistHackCmd then
        ⟨s.at .dirAck, [(.line, line)], up, dirReply config⟩
      else if lineText line = allFiles then
        ⟨s.at (.gotSize (listed config listing)), [(.line, line)], up,
          sizesReply (listed config listing)⟩
      else ⟨(openFile file s).1, [(.line, line)], up, (openFile file s).2⟩
  else none

def readField (field : Field) (up : List UInt8) (next : List UInt8 → ServerSide × List UInt8) :
    Option Served :=
  (readBytes field.width up).map fun (bytes, up) =>
    ⟨(next bytes).1, [(field, bytes)], up, (next bytes).2⟩

/-- After the list the server goes on with a file name. A program that lists nothing is
not waited for: the next thing is to open a file called `*`. -/
def readGotSize (config : Config) (names : List (List UInt8)) (file : Option (List UInt8))
    (s : ServerSide) (up : List UInt8) : Option Served :=
  readField .gotSize up fun _ =>
    if config.hook ∧ names = [] then openFile file s else (s.at .gotList, strings names)

def storeParameter (field : Field) (value : Nat) (s : ServerSide) : ServerSide :=
  match field with
  | .blockSize => { s with param := { s.param with blockSize := value } }
  | .targetRate => { s with targetRate := value }
  | .errorRate => { s with param := { s.param with errorRate := value } }
  | .slowerNum => { s with param := { s.param with slowerNum := value } }
  | .slowerDen => { s with param := { s.param with slowerDen := value } }
  | .fasterNum => { s with param := { s.param with fasterNum := value } }
  | .fasterDen => { s with param := { s.param with fasterDen := value } }
  | _ => s

def infoReply (fileSize blockSize blockCount epoch : Nat) : List UInt8 :=
  toBytes 8 fileSize ++ toBytes 4 blockSize ++ toBytes 4 blockCount ++ toBytes 4 epoch

/-- The end of `ttp_open_transfer`. A division by zero ends the process, the second one
after the reply. -/
def describeFile (epoch : Nat) (s : ServerSide) : ServerSide × List UInt8 :=
  if s.param.blockSize = 0 then (s.at .ended, [])
  else
    let fileSize := s.xfer.builder.file.contents.length
    let blockCount := wrap32 (blocksOf fileSize s.param.blockSize)
    let ipdTime := wrap32 (8000000 * s.param.blockSize / s.targetRate)
    let reply := infoReply fileSize s.param.blockSize blockCount epoch
    if s.targetRate = 0 then (s.at .ended, reply)
    else ({ s with
      place := .port
      param := { s.param with blockCount := blockCount, ipdTime := ipdTime }
      xfer := { s.xfer with ipdCurrent := wrap32 (ipdTime * 3) } }, reply)

def readParameter (field : Field) (left : List Field) (epoch : Nat) (s : ServerSide)
    (up : List UInt8) : Option Served :=
  readField field up fun bytes =>
    let s := storeParameter field (ofBytes bytes) s
    if left = [] then describeFile epoch s else (s.at (.parameters left), [])

def readPort (socket : Bool) (now : Int) (s : ServerSide) (up : List UInt8) : Option Served :=
  readField .port up fun _ =>
    if socket then (s.at (.transmit (.start (.start s.xfer s.memory now s.again))), [])
    else (s.at .filename, [])

def afterPass (loop : Server.Loop) (s : ServerSide) : ServerSide :=
  match loop.flow with
  | .next => s.at (.transmit loop)
  | .exit => s.at .ended
  | _ => { s with
    place := .filename
    xfer := loop.handler.xfer
    memory := loop.handler.retransmission
    again := loop.handler.again }

def requestRead (loop : Server.Loop) (input : Server.Input) : List Item :=
  if (Server.buffered input loop.handler).length = sizeofRetransmission then
    [(.request, Server.buffered input loop.handler)]
  else []

def pass (config : Config) (loop : Server.Loop) (input : Server.Input) (s : ServerSide)
    (up : List UInt8) : Option Served :=
  if input.read.bytes <+: up then
    (Server.Loop.step config.order s.param loop input).map fun after =>
      ⟨afterPass after s, requestRead loop input, up.drop input.read.bytes.length, []⟩
  else none

def ServerSide.step (config : Config) (s : ServerSide) (up : List UInt8) :
    ServerAction → Option Served
  | .readFilename listing file =>
    match s.place with
    | .filename => readFilename config listing file s up
    | _ => none
  | .readAck =>
    match s.place with
    | .dirAck => readField .ack up fun _ => (s.at .filename, [])
    | _ => none
  | .readGotSize file =>
    match s.place with
    | .gotSize names => readGotSize config names file s up
    | _ => none
  | .readGotList =>
    match s.place with
    | .gotList => readField .gotList up fun _ => (s.at .listedName, [])
    | _ => none
  | .readListedName file =>
    match s.place with
    | .listedName => (readLine maxFilenameLength up).map fun (line, up) =>
        ⟨(openFile file s).1, [(.line, line)], up, (openFile file s).2⟩
    | _ => none
  | .readParameter epoch =>
    match s.place with
    | .parameters (field :: left) => readParameter field left epoch s up
    | _ => none
  | .readPort socket now =>
    match s.place with
    | .port => readPort socket now s up
    | _ => none
  | .pass input =>
    match s.place with
    | .transmit loop => pass config loop input s up
    | _ => none

end TsunamiUdp.Control

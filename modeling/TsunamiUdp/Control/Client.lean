import TsunamiUdp.Library.Text
import TsunamiUdp.Client.Requests

/-! The client's end of the control connection: the commands `dir`, `get *` and `get`
with `ttp_open_transfer` and `ttp_open_port` (`client/command.c`, `client/protocol.c`). -/
namespace TsunamiUdp.Control
open Library

inductive Field
  | line
  | ack
  | gotSize
  | gotList
  | blockSize
  | targetRate
  | errorRate
  | slowerNum
  | slowerDen
  | fasterNum
  | fasterDen
  | port
  | request
deriving DecidableEq

abbrev Item := Field × List UInt8

def bytesOf (items : List Item) : List UInt8 := (items.map Prod.snd).flatten

def endsLine (b : UInt8) : Bool := b == 0 || b == 10

def readLine (room : Nat) (bytes : List UInt8) : Option (List UInt8 × List UInt8) :=
  takeLine endsLine room bytes

/-- The last byte of a line is overwritten by the end of the string. -/
def lineText (line : List UInt8) : List UInt8 := line.dropLast

def readBytes (count : Nat) (bytes : List UInt8) : Option (List UInt8 × List UInt8) :=
  if count ≤ bytes.length then some (bytes.take count, bytes.drop count) else none

def maxFilenameLength : Nat := 1024

/-- `!#DIR??` -/
def tsDirlistHackCmd : List UInt8 := [33, 35, 68, 73, 82, 63, 63]

/-- `*` -/
def allFiles : List UInt8 := [42]

def lineItem (name : List UInt8) : Item := (.line, name ++ [10])
def ackItem : Item := (.ack, [0])

/-- `got size` and `got list` -/
def gotSizeItem : Item := (.gotSize, [103, 111, 116, 32, 115, 105, 122, 101])
def gotListItem : Item := (.gotList, [103, 111, 116, 32, 108, 105, 115, 116])

structure Proposal where
  blockSize : Nat
  targetRate : Nat
  errorRate : Nat
  slowerNum : Nat
  slowerDen : Nat
  fasterNum : Nat
  fasterDen : Nat
  narrow : blockSize < 4294967296

def Proposal.items (p : Proposal) : List Item :=
  [(.blockSize, toBytes 4 p.blockSize), (.targetRate, toBytes 4 p.targetRate),
    (.errorRate, toBytes 4 p.errorRate), (.slowerNum, toBytes 2 p.slowerNum),
    (.slowerDen, toBytes 2 p.slowerDen), (.fasterNum, toBytes 2 p.fasterNum),
    (.fasterDen, toBytes 2 p.fasterDen)]

/-- A request of the receive loop; it does not ask the server to stop. -/
abbrev LoopRequest := { r : Retransmission // r.Fits ∧ r.requestType ≠ requestStop }

def requestItem (r : LoopRequest) : Item := (.request, r.val.encode)
def stopItem : Item := (.request, Client.ttpRequestStop.encode)

/-- Where the client is: at its prompt, or before its next read or local step. `rest` are
the files of `get *` that are still to be requested after this one. -/
inductive ClientPlace
  | prompt
  | dirCount
  | dirLines (left : Nat)
  | starSizes
  | starFails
  | starNames (left : Nat) (names : List (List UInt8))
  | requested (rest : List (List UInt8))
  | described (blockSize : Nat) (rest : List (List UInt8))
  | opening (rest : List (List UInt8))
  | binding (rest : List (List UInt8))
  | receiving (rest : List (List UInt8))
deriving DecidableEq

/-- `openFile` and `openPort` say whether the local file and the socket can be opened;
`abort` is the exit of that name from the receive loop. -/
inductive ClientAction
  | dir
  | getAll
  | get (name : List UInt8)
  | read
  | readResult (proposal : Proposal)
  | openFile (ok : Bool)
  | openPort (port : Option Nat)
  | request (r : LoopRequest)
  | abort
  | stop

structure Moved where
  place : ClientPlace
  wrote : List Item
  down : List UInt8

def nextFile (rest : List (List UInt8)) (wrote : List Item) (down : List UInt8) : Moved :=
  match rest with
  | [] => ⟨.prompt, wrote, down⟩
  | name :: rest => ⟨.requested rest, wrote ++ [lineItem name], down⟩

/-- The reply to `dir` begins with a count, or with an 8 from a server that knows no such
request. -/
def readCount (down : List UInt8) : Option Moved :=
  match down with
  | [] => none
  | result :: rest =>
    if result = 8 then some ⟨.prompt, [], rest⟩
    else (readLine 2046 rest).map fun (line, rest) =>
      let numFiles := scanNumber 65536 (result :: lineText line ++ [0])
      if numFiles = 0 then ⟨.prompt, [ackItem], rest⟩ else ⟨.dirLines (2 * numFiles), [], rest⟩

def readEntry (left : Nat) (down : List UInt8) : Option Moved :=
  (readLine 2047 down).map fun (_, rest) =>
    if left ≤ 1 then ⟨.prompt, [ackItem], rest⟩ else ⟨.dirLines (left - 1), [], rest⟩

def readSizes (down : List UInt8) : Option Moved :=
  (readBytes 20 down).map fun (bytes, rest) =>
    let total := scanNumber 4294967296 (bytes.drop 10)
    if total = 0 then ⟨.starFails, [gotSizeItem], rest⟩
    else ⟨.starNames total [], [gotSizeItem], rest⟩

def readName (left : Nat) (names : List (List UInt8)) (down : List UInt8) : Option Moved :=
  (readLine 1024 down).map fun (line, rest) =>
    if left ≤ 1 then nextFile (names ++ [lineText line]) [gotListItem] rest
    else ⟨.starNames (left - 1) (names ++ [lineText line]), [], rest⟩

def readInfo (blockSize : Nat) (rest : List (List UInt8)) (down : List UInt8) : Option Moved :=
  (readBytes 20 down).map fun (bytes, down) =>
    if ofBytes ((bytes.drop 8).take 4) = blockSize then ⟨.opening rest, [], down⟩
    else ⟨.prompt, [], down⟩

def readResult (proposal : Proposal) (rest : List (List UInt8)) (down : List UInt8) :
    Option Moved :=
  match down with
  | [] => none
  | result :: down =>
    if result = 0 then some ⟨.described proposal.blockSize rest, proposal.items, down⟩
    else some ⟨.prompt, [], down⟩

def ClientPlace.step (place : ClientPlace) (down : List UInt8) : ClientAction → Option Moved
  | .dir =>
    match place with
    | .prompt => some ⟨.dirCount, [lineItem tsDirlistHackCmd], down⟩
    | _ => none
  | .getAll =>
    match place with
    | .prompt => some ⟨.starSizes, [lineItem allFiles], down⟩
    | _ => none
  | .get name =>
    match place with
    | .prompt => if name = allFiles then none else some ⟨.requested [], [lineItem name], down⟩
    | _ => none
  | .read =>
    match place with
    | .dirCount => readCount down
    | .dirLines left => readEntry left down
    | .starSizes => readSizes down
    | .starFails => (readBytes 1 down).map fun (_, rest) => ⟨.prompt, [], rest⟩
    | .starNames left names => readName left names down
    | .described blockSize rest => readInfo blockSize rest down
    | _ => none
  | .readResult proposal =>
    match place with
    | .requested rest => readResult proposal rest down
    | _ => none
  | .openFile ok =>
    match place with
    | .opening rest => some ⟨if ok then .binding rest else .prompt, [], down⟩
    | _ => none
  | .openPort port =>
    match place with
    | .binding rest => some <| match port with
      | some p => ⟨.receiving rest, [(.port, toBytes 2 p)], down⟩
      | none => ⟨.prompt, [], down⟩
    | _ => none
  | .request r =>
    match place with
    | .receiving rest => some ⟨.receiving rest, [requestItem r], down⟩
    | _ => none
  | .abort =>
    match place with
    | .receiving _ => some ⟨.prompt, [], down⟩
    | _ => none
  | .stop =>
    match place with
    | .receiving rest => some (nextFile rest [stopItem] down)
    | _ => none

theorem get_writes {param : Client.Parameter} {s s' : Client.Get} {action : Client.GetAction}
    (hn : s.net.xfer.blockCount < 4294967296) (hs : s.step param action = some s') :
    (∃ requests : List LoopRequest, s'.sent = s.sent ++ requests.map Subtype.val) ∨
      ((∃ write, action = .requestStop write) ∧ s'.sent = s.sent ++ [Client.ttpRequestStop]) := by
  rcases Client.Get.asks_step hn hs with ⟨more, hsent, hmore⟩ | hstop
  · have hall : ∀ r ∈ more, r.Fits ∧ r.requestType ≠ requestStop := fun r hr =>
      ⟨(hmore r hr).fits, (hmore r hr).goesOn⟩
    exact Or.inl ⟨more.attachWith _ hall, by rw [hsent, List.attachWith_map_subtype_val]⟩
  · exact Or.inr hstop

end TsunamiUdp.Control

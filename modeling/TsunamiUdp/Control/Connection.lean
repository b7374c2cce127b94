import TsunamiUdp.Control.Server

/-! Both ends of the control connection, and the steps after which they still agree on
what comes next. -/
namespace TsunamiUdp.Control
open Library

/-- Both sides, the bytes on the way in both directions, the fields the client has
written, and those the server has read. -/
structure Connection where
  client : ClientPlace
  server : ServerSide
  up : List UInt8
  down : List UInt8
  wrote : List Item
  read : List Item

def Connection.start (server : ServerSide) : Connection where
  client := .prompt
  server := server.at .filename
  up := []
  down := []
  wrote := []
  read := []

inductive Action
  | client (action : ClientAction)
  | server (action : ServerAction)

def Connection.step (config : Config) (s : Connection) : Action → Option Connection
  | .client action => (s.client.step s.down action).map fun moved =>
      { s with
        client := moved.place
        up := s.up ++ bytesOf moved.wrote
        down := moved.down
        wrote := s.wrote ++ moved.wrote }
  | .server action => (s.server.step config s.up action).map fun served =>
      { s with
        server := served.side
        up := served.up
        down := s.down ++ served.reply
        read := s.read ++ served.read }

section Conditions

/-- A name that fits into the buffer for a line and does not end it. -/
structure OneLine (room : Nat) (name : List UInt8) : Prop where
  unbroken : ∀ b ∈ name, endsLine b = false
  fits : name.length < room

structure Plain (name : List UInt8) : Prop extends OneLine maxFilenameLength name where
  notDir : name ≠ tsDirlistHackCmd
  notAll : name ≠ allFiles

/-- The first name of a list may be anything: the server does not look at it again. -/
structure Listable (names : List (List UInt8)) : Prop where
  lines : ∀ name ∈ names, OneLine maxFilenameLength name
  plain : ∀ name ∈ names.tail, Plain name

/-- The local file and the socket can be opened, and only the request to stop leaves the
receive loop. -/
def ClientAction.Safe : ClientAction → Prop
  | .get name => Plain name
  | .openFile ok => ok = true
  | .openPort port => port.isSome = true
  | .abort => False
  | _ => True

def nextLine (up : List UInt8) : Option (List UInt8) :=
  (readLine maxFilenameLength up).map fun (line, _) => lineText line

/-- A list that is asked for can be sent, the socket can be created, nothing happens to
a request while it is being received, and there is no timeout. -/
def ServerAction.Safe (config : Config) (s : ServerSide) (up : List UInt8) : ServerAction → Prop
  | .readFilename listing _ =>
    (nextLine up = some tsDirlistHackCmd → ∀ file ∈ config.files, OneLine 2047 file.1) ∧
      (nextLine up = some allFiles → Listable (listed config listing))
  | .readGotSize file =>
    match s.place with
    | .gotSize [] => config.hook = true → file = none
    | _ => True
  | .readPort socket _ => socket = true
  | .pass input =>
    match s.place with
    | .transmit loop =>
      Server.Undisturbed config.order loop input ∧ ¬Server.TimesOut s.param input loop.handler
    | _ => True
  | _ => True

def Safe (config : Config) (s : Connection) : Action → Prop
  | .client action => action.Safe
  | .server action => action.Safe config s.server s.up

theorem oneLine_iff {room : Nat} {name : List UInt8} :
    OneLine room name ↔ name.any endsLine = false ∧ name.length < room := by
  rw [List.any_eq_false]
  constructor
  · intro h
    exact ⟨fun b hb => ne_true_of_eq_false (h.unbroken b hb), h.fits⟩
  · intro h
    exact ⟨fun b hb => eq_false_of_ne_true (h.1 b hb), h.2⟩

instance (room : Nat) (name : List UInt8) : Decidable (OneLine room name) :=
  decidable_of_iff' _ oneLine_iff

instance (name : List UInt8) : Decidable (Plain name) :=
  decidable_of_iff (OneLine maxFilenameLength name ∧ name ≠ tsDirlistHackCmd ∧ name ≠ allFiles)
    ⟨fun h => ⟨h.1, h.2.1, h.2.2⟩, fun h => ⟨h.1, h.2, h.3⟩⟩

instance (names : List (List UInt8)) : Decidable (Listable names) :=
  decidable_of_iff ((∀ name ∈ names, OneLine maxFilenameLength name) ∧
    ∀ name ∈ names.tail, Plain name) ⟨fun h => ⟨h.1, h.2⟩, fun h => ⟨h.1, h.2⟩⟩

instance (action : ClientAction) : Decidable action.Safe := by
  unfold ClientAction.Safe
  cases action <;> infer_instance

instance (config : Config) (s : ServerSide) (up : List UInt8) (action : ServerAction) :
    Decidable (action.Safe config s up) := by
  unfold ServerAction.Safe
  cases action with
  | readGotSize file =>
    dsimp only
    split <;> infer_instance
  | pass input =>
    dsimp only
    split <;> infer_instance
  | _ => infer_instance

instance (config : Config) (s : Connection) (action : Action) : Decidable (Safe config s action) := by
  cases action <;> (unfold Safe; infer_instance)

end Conditions

section Streams

@[simp] theorem bytesOf_cons (item : Item) (items : List Item) :
    bytesOf (item :: items) = item.2 ++ bytesOf items := rfl

@[simp] theorem bytesOf_append (items more : List Item) :
    bytesOf (items ++ more) = bytesOf items ++ bytesOf more := by
  simp [bytesOf]

@[simp] theorem strings_cons (text : List UInt8) (texts : List (List UInt8)) :
    strings (text :: texts) = text ++ 0 :: strings texts := by
  simp [strings]

@[simp] theorem lineText_concat (name : List UInt8) (last : UInt8) : lineText (name ++ [last]) = name :=
  List.dropLast_concat

theorem OneLine.read {room : Nat} {name : List UInt8} (h : OneLine room name) {last : UInt8}
    (hlast : endsLine last = true) (rest : List UInt8) :
    readLine room (name ++ last :: rest) = some (name ++ [last], rest) :=
  takeLine_line h.unbroken hlast h.fits

theorem readBytes_append {count : Nat} {bytes : List UInt8} (h : bytes.length = count)
    (rest : List UInt8) : readBytes count (bytes ++ rest) = some (bytes, rest) := by
  subst h
  rw [readBytes, if_pos (by simp), List.take_left' rfl, List.drop_left' rfl]

theorem readBytes_all {count : Nat} {bytes : List UInt8} (h : bytes.length = count) :
    readBytes count bytes = some (bytes, []) := by
  have hread := readBytes_append h []
  rwa [List.append_nil] at hread

theorem isDigit_unbroken {b : UInt8} (h : isDigit b = true) : endsLine b = false := by
  have hrange : 48 ≤ b.toNat ∧ b.toNat ≤ 57 := of_decide_eq_true h
  rw [endsLine, Bool.or_eq_false_iff]
  constructor <;> rw [beq_eq_false_iff_ne] <;> rintro rfl <;> exact absurd hrange.1 (by decide)

theorem decimal_oneLine {n k room : Nat} (hk : 0 < k) (hn : n < 10 ^ k) (hroom : k < room) :
    OneLine room (decimal n) :=
  ⟨fun b hb => isDigit_unbroken (decimal_digits n b hb),
    (decimal_length hk hn).trans_lt hroom⟩

theorem decimal_take_oneLine (n : Nat) : OneLine 2047 ((decimal n).take 19) :=
  ⟨fun b hb => isDigit_unbroken (decimal_digits n b (List.mem_of_mem_take hb)),
    (List.length_take_le 19 _).trans_lt (by decide)⟩

@[simp] theorem padded_length (n : Nat) : (padded n).length = 10 := by
  have hle := List.length_take_le 9 (decimal n)
  simp only [padded, List.length_append, List.length_replicate]
  omega

theorem scanNumber_padded {n modulus : Nat} (hn : n < modulus) (hten : n < 10 ^ 9) :
    scanNumber modulus (padded n) = n := by
  have hlen := decimal_length (by decide) hten
  obtain ⟨k, hk⟩ : ∃ k, 10 - (decimal n).length = k + 1 := ⟨9 - (decimal n).length, by omega⟩
  rw [padded, List.take_of_length_le hlen, hk, List.replicate_succ]
  exact scanNumber_decimal _ hn (by decide)

end Streams

end TsunamiUdp.Control

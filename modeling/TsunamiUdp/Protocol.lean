import TsunamiUdp.Library.Bytes

/-! What both programs share (`tsunami.h`, `common.c`): block types, requests, and
the layout of datagrams and of `retransmission_t`. -/
namespace TsunamiUdp
open Library

/-- `u_int32_t` arithmetic. -/
def wrap32 (n : Nat) : Nat := n % 4294967296

theorem wrap32_lt (n : Nat) : wrap32 n < 4294967296 := Nat.mod_lt _ (by decide)

@[simp] theorem wrap32_of_lt {n : Nat} (h : n < 4294967296) : wrap32 n = n := Nat.mod_eq_of_lt h

/-! The block types are the characters `O`, `X` and `R`. -/
def tsBlockOriginal : Nat := 79
def tsBlockTerminate : Nat := 88
def tsBlockRetransmission : Nat := 82

def requestRetransmit : Nat := 0
def requestRestart : Nat := 1
def requestStop : Nat := 2
def requestErrorRate : Nat := 3

/-- `retransmission_t`, its fields in host order. -/
structure Retransmission where
  requestType : Nat
  block : Nat
  errorRate : Nat
deriving DecidableEq, Repr

/-- `sizeof(retransmission_t)`: two bytes of padding follow the type. -/
def sizeofRetransmission : Nat := 12

def Retransmission.encode (r : Retransmission) : List UInt8 :=
  toBytes 2 r.requestType ++ [0, 0] ++ toBytes 4 r.block ++ toBytes 4 r.errorRate

def Retransmission.decode (bytes : List UInt8) : Retransmission where
  requestType := ofBytes (bytes.take 2)
  block := ofBytes ((bytes.drop 4).take 4)
  errorRate := ofBytes ((bytes.drop 8).take 4)

structure Retransmission.Fits (r : Retransmission) : Prop where
  requestType : r.requestType < 65536
  block : r.block < 4294967296
  errorRate : r.errorRate < 4294967296

@[simp] theorem Retransmission.encode_length (r : Retransmission) :
    r.encode.length = sizeofRetransmission := by
  simp [encode, sizeofRetransmission]

/-- Whatever the padding holds, the three fields are read back. -/
theorem Retransmission.decode_fields {r : Retransmission} (h : r.Fits) {pad : List UInt8}
    (hpad : pad.length = 2) :
    decode (toBytes 2 r.requestType ++ pad ++ toBytes 4 r.block ++ toBytes 4 r.errorRate) = r := by
  have htype : ofBytes (toBytes 2 r.requestType) = r.requestType := ofBytes_toBytes h.requestType
  have hblock : ofBytes (toBytes 4 r.block) = r.block := ofBytes_toBytes h.block
  have hrate : ofBytes (toBytes 4 r.errorRate) = r.errorRate := ofBytes_toBytes h.errorRate
  have skip : ∀ k, 2 ≤ k → (toBytes 2 r.requestType).drop k = [] := fun k hk =>
    List.drop_eq_nil_of_le (by simpa using hk)
  have skipPad : ∀ k, 2 ≤ k → pad.drop k = [] := fun k hk =>
    List.drop_eq_nil_of_le (by omega)
  have whole : (toBytes 4 r.errorRate).take 4 = toBytes 4 r.errorRate :=
    List.take_of_length_le (by simp)
  cases r
  simp only [decode, mk.injEq] at *
  refine ⟨?_, ?_, ?_⟩
  · simpa [List.take_append, hpad] using htype
  · simpa [List.take_append, List.drop_append, skip, skipPad, hpad] using hblock
  · simpa [List.take_append, List.drop_append, skip, skipPad, whole, hpad] using hrate

theorem Retransmission.decode_encode {r : Retransmission} (h : r.Fits) : decode r.encode = r :=
  decode_fields h rfl

def datagramHeader (block type : Nat) : List UInt8 := toBytes 4 block ++ toBytes 2 type

@[simp] theorem datagramHeader_length (block type : Nat) :
    (datagramHeader block type).length = 6 := by
  simp [datagramHeader]

/-- `ntohl` of the first four bytes of a datagram. -/
def blockNumber (datagram : List UInt8) : Nat := ofBytes (datagram.take 4)

/-- `ntohs` of the two bytes behind the block number. -/
def blockType (datagram : List UInt8) : Nat := ofBytes ((datagram.drop 4).take 2)

theorem blockNumber_lt (datagram : List UInt8) : blockNumber datagram < 4294967296 :=
  (ofBytes_lt _).trans_le
    (Nat.pow_le_pow_right (by decide) (List.length_take_le 4 datagram))

theorem blockNumber_header {block type : Nat} (h : block < 4294967296) (payload : List UInt8) :
    blockNumber (datagramHeader block type ++ payload) = block := by
  have : ofBytes (toBytes 4 block) = block := ofBytes_toBytes h
  simpa [blockNumber, datagramHeader, List.take_append] using this

@[simp] theorem blockNumber_zero (bytes : List UInt8) : blockNumber (toBytes 4 0 ++ bytes) = 0 := by
  have : ofBytes (toBytes 4 0) = 0 := by decide
  simpa [blockNumber, List.take_append] using this

theorem blockType_header {block type : Nat} (h : type < 65536) (payload : List UInt8) :
    blockType (datagramHeader block type ++ payload) = type := by
  have : ofBytes (toBytes 2 type) = type := ofBytes_toBytes h
  simpa [blockType, datagramHeader, List.take_append, List.drop_append] using this

end TsunamiUdp

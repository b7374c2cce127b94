import TsunamiUdp.Control.Parameters
import TsunamiUdp.Library.Streams

/-! The parameters of a transfer on their way between machines: what lies in the memory of
either one, and how the bytes come over the connection. -/
namespace TsunamiUdp.Control
open Library

/-- A machine, and whether its `time_t` has 8 bytes. -/
structure Host where
  order : Server.ByteOrder
  wide : Bool
deriving DecidableEq

namespace Host

def timeSize (host : Host) : Nat := if host.wide then 8 else 4

def store (host : Host) (width n : Nat) : List UInt8 :=
  match host.order with
  | .little => (toBytes width n).reverse
  | .big => toBytes width n

def load (host : Host) (bytes : List UInt8) : Nat :=
  match host.order with
  | .little => ofBytes bytes.reverse
  | .big => ofBytes bytes

/-! The variable that has the bytes of the number in network order. -/
def htonl (host : Host) (n : Nat) : Nat := host.load (toBytes 4 n)
def htons (host : Host) (n : Nat) : Nat := host.load (toBytes 2 n)
def ntohl (host : Host) (n : Nat) : Nat := ofBytes (host.store 4 n)
def ntohs (host : Host) (n : Nat) : Nat := ofBytes (host.store 2 n)

def htonll (host : Host) (value : Nat) : Nat :=
  if 5 ≠ host.htons 5 then
    host.htonl (value &&& 4294967295) <<< 32 ||| host.htonl (value >>> 32)
  else value

def ntohll (host : Host) (value : Nat) : Nat := host.htonll value

section Order
variable (host : Host)

@[simp] theorem store_length (width n : Nat) : (host.store width n).length = width := by
  unfold store
  cases host.order <;> simp

theorem store_load {bytes : List UInt8} {width : Nat} (h : bytes.length = width) :
    host.store width (host.load bytes) = bytes := by
  subst h
  unfold store load
  cases host.order with
  | little =>
    show (toBytes bytes.length (ofBytes bytes.reverse)).reverse = bytes
    rw [← List.length_reverse, toBytes_ofBytes, List.reverse_reverse]
  | big => exact toBytes_ofBytes bytes

@[simp] theorem store_htonl (n : Nat) : host.store 4 (host.htonl n) = toBytes 4 n :=
  host.store_load (toBytes_length 4 n)

@[simp] theorem store_htons (n : Nat) : host.store 2 (host.htons n) = toBytes 2 n :=
  host.store_load (toBytes_length 2 n)

theorem ntohl_load {bytes : List UInt8} (h : bytes.length = 4) :
    host.ntohl (host.load bytes) = ofBytes bytes := by
  rw [ntohl, host.store_load h]

theorem ntohs_load {bytes : List UInt8} (h : bytes.length = 2) :
    host.ntohs (host.load bytes) = ofBytes bytes := by
  rw [ntohs, host.store_load h]

theorem htonl_eq_ntohl (n : Nat) : host.htonl n = host.ntohl n := by
  unfold htonl ntohl load store
  cases host.order <;> rfl

theorem htonl_lt (n : Nat) : host.htonl n < 4294967296 := by
  have hlt := ofBytes_lt (host.store 4 n)
  rw [store_length] at hlt
  exact (host.htonl_eq_ntohl n).trans_lt hlt

theorem htonll_eq {value : Nat} (hvalue : value < 18446744073709551616) :
    host.htonll value = host.load (toBytes 8 value) := by
  have hmask : value &&& 4294967295 = value % 256 ^ 4 := Nat.and_two_pow_sub_one_eq_mod value 32
  have hshift : value >>> 32 = value / 256 ^ 4 := Nat.shiftRight_eq_div_pow value 32
  have hlow : toBytes 4 (value % 256 ^ 4) = toBytes 4 value := by
    rw [← toBytes_add_mul 4 _ (value / 256 ^ 4), Nat.mod_add_div']
  have hsplit : toBytes 8 value = toBytes 4 (value / 256 ^ 4) ++ toBytes 4 value :=
    toBytes_append 4 4 value
  unfold htonll htons load
  cases horder : host.order with
  | little =>
    have hload : ∀ n, host.htonl n = ofBytes (toBytes 4 n).reverse := by
      intro n
      unfold htonl load
      rw [horder]
    have hlt := host.htonl_lt (value >>> 32)
    dsimp only
    rw [if_pos (by decide), ← Nat.shiftLeft_add_eq_or_of_lt hlt, hmask, hshift, hload, hload, hlow,
      hsplit, List.reverse_append, ofBytes_append, List.length_reverse, toBytes_length,
      Nat.shiftLeft_eq]
    rfl
  | big =>
    dsimp only
    rw [if_neg (by decide), ofBytes_toBytes hvalue]

@[simp] theorem store_htonll {value : Nat} (hvalue : value < 18446744073709551616) :
    host.store 8 (host.htonll value) = toBytes 8 value := by
  rw [host.htonll_eq hvalue, host.store_load (toBytes_length 8 value)]

theorem load_lt (bytes : List UInt8) : host.load bytes < 256 ^ bytes.length := by
  unfold load
  cases host.order with
  | little =>
    dsimp only
    rw [← List.length_reverse]
    exact ofBytes_lt bytes.reverse
  | big => exact ofBytes_lt bytes

theorem ntohll_load {bytes : List UInt8} (h : bytes.length = 8) :
    host.ntohll (host.load bytes) = ofBytes bytes := by
  have hlt := host.load_lt bytes
  rw [h] at hlt
  have hwide : host.load bytes < 18446744073709551616 := hlt
  rw [ntohll, host.htonll_eq hwide]
  unfold load
  cases host.order with
  | little =>
    dsimp only
    rw [← h, ← List.length_reverse, toBytes_ofBytes, List.reverse_reverse]
  | big =>
    dsimp only
    rw [← h, toBytes_ofBytes]

end Order

/-- The first four bytes of a `time_t` are those of a 32-bit number. -/
def KeepsTime (host : Host) : Prop := host.order = .little ∨ host.wide = false

instance (host : Host) : Decidable host.KeepsTime := by
  unfold KeepsTime
  infer_instance

end Host

/-- A program that reads from the connection; `none` if the fuel does not suffice. -/
def Input (α : Type) : Type := Nat → Stream UInt8 → Option (α × Stream UInt8)

instance : Monad Input where
  pure a := fun _ s => some (a, s)
  bind p q := fun fuel s => (p fuel s).bind fun r => q r.1 fuel r.2

def fullRead (count : Nat) : Input (List UInt8) := fun fuel s => s.readAll fuel count []

structure Announced where
  fileSize : UInt64
  blockCount : UInt32
  epoch : UInt32
deriving DecidableEq

structure Network where
  up : List UInt8 → Stream UInt8
  down : List UInt8 → Stream UInt8
  up_whole : ∀ bytes, (up bytes).toList = bytes
  down_whole : ∀ bytes, (down bytes).toList = bytes

def submit (host : Host) (param : Received) : List UInt8 :=
  host.store 4 (host.htonl param.blockSize.toNat) ++
  (host.store 4 (host.htonl param.targetRate.toNat) ++
  (host.store 4 (host.htonl param.errorRate.toNat) ++
  (host.store 2 (host.htons param.slowerNum.toNat) ++
  (host.store 2 (host.htons param.slowerDen.toNat) ++
  (host.store 2 (host.htons param.fasterNum.toNat) ++
  host.store 2 (host.htons param.fasterDen.toNat))))))

def receive (host : Host) : Input Received := do
  let blockSize ← fullRead 4
  let targetRate ← fullRead 4
  let errorRate ← fullRead 4
  let slowerNum ← fullRead 2
  let slowerDen ← fullRead 2
  let fasterNum ← fullRead 2
  let fasterDen ← fullRead 2
  pure {
    blockSize := UInt32.ofNat (host.ntohl (host.load blockSize))
    targetRate := UInt32.ofNat (host.ntohl (host.load targetRate))
    errorRate := UInt32.ofNat (host.ntohl (host.load errorRate))
    slowerNum := UInt16.ofNat (host.ntohs (host.load slowerNum))
    slowerDen := UInt16.ofNat (host.ntohs (host.load slowerDen))
    fasterNum := UInt16.ofNat (host.ntohs (host.load fasterNum))
    fasterDen := UInt16.ofNat (host.ntohs (host.load fasterDen)) }

/-- The server replies; of the epoch, a `time_t`, four bytes are written. -/
def announce (host : Host) (blockSize : UInt32) (a : Announced) : List UInt8 :=
  host.store 8 (host.htonll a.fileSize.toNat) ++
  (host.store 4 (host.htonl blockSize.toNat) ++
  (host.store 4 (host.htonl a.blockCount.toNat) ++
  (host.store host.timeSize (host.htonl a.epoch.toNat)).take 4))

/-- The four bytes are read into a `time_t` that was 0. -/
def readEpoch (host : Host) (bytes : List UInt8) : UInt32 :=
  let epoch := host.load (bytes ++ List.replicate (host.timeSize - 4) 0)
  UInt32.ofNat (host.ntohl (epoch % 4294967296))

def accept (host : Host) (blockSize : UInt32) : Input (Option Announced) := do
  let fileSize ← fullRead 8
  let temp ← fullRead 4
  if host.htonl (host.load temp) ≠ blockSize.toNat then pure none
  else do
    let blockCount ← fullRead 4
    let epoch ← fullRead 4
    pure (some {
      fileSize := UInt64.ofNat (host.ntohll (host.load fileSize))
      blockCount := UInt32.ofNat (host.ntohl (host.load blockCount))
      epoch := readEpoch host epoch })

/-- The parameters the server has then, and the fields of the client's transfer; `found` is what
the server finds out about the file with what it has read. -/
def openTransfer (client server : Host) (network : Network) (param : Received)
    (found : Received → Announced) (fuel : Nat) : Option (Received × Announced) :=
  (receive server fuel (network.up (submit client param))).bind fun r =>
    -- the length of the file is divided by the size of the blocks before the reply
    if r.1.blockSize = 0 then none
    else (accept client param.blockSize fuel
      (network.down (announce server r.1.blockSize (found r.1)))).bind fun t =>
        -- and the delay is worked out from the rate behind it
        if r.1.targetRate = 0 then none else t.1.map fun transfer => (r.1, transfer)

section Reading

def Yields {α : Type} (p : Input α) (bytes : List UInt8) (a : α) : Prop :=
  ∀ fuel s rest, 8 < fuel → s.toList = bytes ++ rest →
    ∃ s', p fuel s = some (a, s') ∧ s'.toList = rest

theorem yields_pure {α : Type} (a : α) : Yields (pure a) [] a :=
  fun _ s _ _ h => ⟨s, rfl, h⟩

theorem yields_fullRead {bytes : List UInt8} (h : bytes.length ≤ 8) :
    Yields (fullRead bytes.length) bytes bytes := by
  intro fuel s rest hfuel hs
  have hlen : bytes.length ≤ s.toList.length := by
    rw [hs, List.length_append]
    omega
  obtain ⟨s', hread, hrest, -⟩ := s.readAll_enough bytes.length
    (show bytes.length < fuel by omega) (.inl hlen)
  rw [hs, List.take_left' rfl] at hread
  rw [hs, List.drop_left' rfl] at hrest
  exact ⟨s', hread, hrest⟩

theorem Yields.bind {α β : Type} {p : Input α} {q : α → Input β} {bytes more : List UInt8} {a : α} {b : β}
    (hp : Yields p bytes a) (hq : Yields (q a) more b) : Yields (p >>= q) (bytes ++ more) b := by
  intro fuel s rest hfuel hs
  obtain ⟨s', hfirst, hs'⟩ := hp fuel s (more ++ rest) hfuel (by rw [hs, List.append_assoc])
  obtain ⟨s'', hsecond, hs''⟩ := hq fuel s' rest hfuel hs'
  refine ⟨s'', ?_, hs''⟩
  show (p fuel s).bind _ = _
  rw [hfirst]
  exact hsecond

theorem Yields.field {β : Type} {q : List UInt8 → Input β} {bytes more : List UInt8} {count : Nat} {b : β}
    (hlen : bytes.length = count) (h : count ≤ 8) (hq : Yields (q bytes) more b) :
    Yields (fullRead count >>= q) (bytes ++ more) b := by
  subst hlen
  exact (yields_fullRead h).bind hq

theorem Yields.last {β : Type} {q : List UInt8 → Input β} {bytes : List UInt8} {count : Nat} {b : β}
    (hlen : bytes.length = count) (h : count ≤ 8) (hq : Yields (q bytes) [] b) :
    Yields (fullRead count >>= q) bytes b := by
  have hfield := Yields.field hlen h hq
  rwa [List.append_nil] at hfield

end Reading

section Fields
variable (client server : Host)

theorem sent_long (n : UInt32) :
    UInt32.ofNat (server.ntohl (server.load (client.store 4 (client.htonl n.toNat)))) = n := by
  rw [client.store_htonl, server.ntohl_load (toBytes_length 4 _), ofBytes_toBytes n.toNat_lt,
    UInt32.ofNat_toNat]

theorem sent_short (n : UInt16) :
    UInt16.ofNat (server.ntohs (server.load (client.store 2 (client.htons n.toNat)))) = n := by
  rw [client.store_htons, server.ntohs_load (toBytes_length 2 _), ofBytes_toBytes n.toNat_lt,
    UInt16.ofNat_toNat]

theorem sent_wide (n : UInt64) :
    UInt64.ofNat (server.ntohll (server.load (client.store 8 (client.htonll n.toNat)))) = n := by
  rw [client.store_htonll n.toNat_lt, server.ntohll_load (toBytes_length 8 _),
    ofBytes_toBytes n.toNat_lt, UInt64.ofNat_toNat]

theorem receive_submit (param : Received) : Yields (receive server) (submit client param) param := by
  have hresult : Yields (receive server) (submit client param) {
      blockSize := UInt32.ofNat (server.ntohl (server.load (client.store 4 (client.htonl param.blockSize.toNat))))
      targetRate := UInt32.ofNat (server.ntohl (server.load (client.store 4 (client.htonl param.targetRate.toNat))))
      errorRate := UInt32.ofNat (server.ntohl (server.load (client.store 4 (client.htonl param.errorRate.toNat))))
      slowerNum := UInt16.ofNat (server.ntohs (server.load (client.store 2 (client.htons param.slowerNum.toNat))))
      slowerDen := UInt16.ofNat (server.ntohs (server.load (client.store 2 (client.htons param.slowerDen.toNat))))
      fasterNum := UInt16.ofNat (server.ntohs (server.load (client.store 2 (client.htons param.fasterNum.toNat))))
      fasterDen := UInt16.ofNat (server.ntohs (server.load (client.store 2 (client.htons param.fasterDen.toNat)))) } := by
    have h4 : ∀ n, (client.store 4 n).length = 4 := client.store_length 4
    have h2 : ∀ n, (client.store 2 n).length = 2 := client.store_length 2
    exact .field (h4 _) (by decide) <| .field (h4 _) (by decide) <| .field (h4 _) (by decide) <|
      .field (h2 _) (by decide) <| .field (h2 _) (by decide) <| .field (h2 _) (by decide) <|
      .last (h2 _) (by decide) (yields_pure _)
  simpa only [sent_long, sent_short] using hresult

theorem epoch_bytes {n : Nat} (hn : n < 4294967296) :
    (server.store server.timeSize n).take 4 =
      if server.KeepsTime then server.store 4 n else toBytes 4 0 := by
  have hsplit : toBytes 8 n = toBytes 4 (n / 256 ^ 4) ++ toBytes 4 n := toBytes_append 4 4 n
  have hhigh : n / 256 ^ 4 = 0 := Nat.div_eq_of_lt hn
  obtain ⟨order, wide⟩ := server
  cases wide with
  | false =>
    have hkeeps : Host.KeepsTime ⟨order, false⟩ := .inr rfl
    rw [if_pos hkeeps]
    exact List.take_of_length_le (Host.store_length _ 4 n).le
  | true =>
    cases order with
    | little =>
      have hkeeps : Host.KeepsTime ⟨.little, true⟩ := .inl rfl
      rw [if_pos hkeeps]
      show (toBytes 8 n).reverse.take 4 = (toBytes 4 n).reverse
      rw [hsplit, List.reverse_append, List.take_left' (by simp)]
    | big =>
      rw [if_neg (by decide)]
      show (toBytes 8 n).take 4 = toBytes 4 0
      rw [hsplit, hhigh, List.take_left' (by simp)]

/-- A machine that keeps the time sends the reply that the transfer is opened with. -/
theorem announce_eq_infoReply (h : server.KeepsTime) (blockSize : UInt32) (a : Announced) :
    announce server blockSize a =
      infoReply a.fileSize.toNat blockSize.toNat a.blockCount.toNat a.epoch.toNat := by
  have hepoch := epoch_bytes server (server.htonl_lt a.epoch.toNat)
  rw [if_pos h, server.store_htonl] at hepoch
  unfold announce infoReply
  rw [server.store_htonll a.fileSize.toNat_lt, hepoch, server.store_htonl, server.store_htonl]
  simp only [List.append_assoc]

/-- The high half of a `time_t` is not converted. -/
theorem readEpoch_eq {bytes : List UInt8} (h : bytes.length = 4) :
    readEpoch client bytes =
      if client.KeepsTime then UInt32.ofNat (ofBytes bytes) else 0 := by
  have hlt := client.load_lt bytes
  rw [h] at hlt
  have hlow : client.load bytes % 4294967296 = client.load bytes := Nat.mod_eq_of_lt hlt
  obtain ⟨order, wide⟩ := client
  cases wide with
  | false =>
    have hkeeps : Host.KeepsTime ⟨order, false⟩ := .inr rfl
    rw [if_pos hkeeps]
    show UInt32.ofNat (Host.ntohl _ (Host.load _ (bytes ++ []) % 4294967296)) = _
    rw [List.append_nil, hlow, Host.ntohl_load _ h]
  | true =>
    cases order with
    | little =>
      have hkeeps : Host.KeepsTime ⟨.little, true⟩ := .inl rfl
      have hload : Host.load ⟨.little, true⟩ (bytes ++ [0, 0, 0, 0]) =
          Host.load ⟨.little, true⟩ bytes := by
        show ofBytes (bytes ++ [0, 0, 0, 0]).reverse = ofBytes bytes.reverse
        rw [List.reverse_append, ofBytes_append]
        exact (congrArg (· + ofBytes bytes.reverse) (Nat.zero_mul _)).trans (Nat.zero_add _)
      rw [if_pos hkeeps]
      show UInt32.ofNat (Host.ntohl _ (Host.load _ (bytes ++ [0, 0, 0, 0]) % 4294967296)) = _
      rw [hload, hlow, Host.ntohl_load _ h]
    | big =>
      have hload : Host.load ⟨.big, true⟩ (bytes ++ [0, 0, 0, 0]) = ofBytes bytes * 4294967296 := by
        have hzeros : ofBytes [(0 : UInt8), 0, 0, 0] = 0 := by decide
        show ofBytes (bytes ++ [0, 0, 0, 0]) = _
        rw [ofBytes_append, hzeros, Nat.add_zero]
        norm_num
      rw [if_neg (by decide)]
      show UInt32.ofNat (Host.ntohl _ (Host.load _ (bytes ++ [0, 0, 0, 0]) % 4294967296)) = 0
      rw [hload, Nat.mul_mod_left]
      decide

theorem sent_epoch (epoch : UInt32) :
    readEpoch client ((server.store server.timeSize (server.htonl epoch.toNat)).take 4) =
      if server.KeepsTime ∧ client.KeepsTime then epoch else 0 := by
  have hsent := epoch_bytes server (server.htonl_lt epoch.toNat)
  rw [server.store_htonl] at hsent
  rw [hsent]
  by_cases hserver : server.KeepsTime
  · rw [if_pos hserver, readEpoch_eq client (toBytes_length 4 _), ofBytes_toBytes epoch.toNat_lt,
      UInt32.ofNat_toNat]
    simp only [hserver, true_and]
  · have hzero : UInt32.ofNat (ofBytes (toBytes 4 0)) = 0 := by decide
    rw [if_neg hserver, readEpoch_eq client (toBytes_length 4 _), hzero, ite_self,
      if_neg fun h => hserver h.1]

theorem accept_describe (blockSize : UInt32) (a : Announced) :
    Yields (accept client blockSize) (announce server blockSize a) (some { a with
      epoch := if server.KeepsTime ∧ client.KeepsTime then a.epoch else 0 }) := by
  have hlen : ((server.store server.timeSize (server.htonl a.epoch.toNat)).take 4).length = 4 := by
    rw [List.length_take, server.store_length]
    unfold Host.timeSize
    split <;> rfl
  have hsame : client.htonl (client.load (server.store 4 (server.htonl blockSize.toNat))) =
      blockSize.toNat := by
    rw [client.htonl_eq_ntohl, server.store_htonl, client.ntohl_load (toBytes_length 4 _),
      ofBytes_toBytes blockSize.toNat_lt]
  have hresult : Yields (accept client blockSize) (announce server blockSize a) (some {
      fileSize := UInt64.ofNat (client.ntohll (client.load (server.store 8 (server.htonll a.fileSize.toNat))))
      blockCount := UInt32.ofNat (client.ntohl (client.load (server.store 4 (server.htonl a.blockCount.toNat))))
      epoch := readEpoch client
        ((server.store server.timeSize (server.htonl a.epoch.toNat)).take 4) }) := by
    refine .field (server.store_length 8 _) (by decide) (.field (server.store_length 4 _) (by decide) ?_)
    rw [if_neg (not_not.mpr hsame)]
    exact .field (server.store_length 4 _) (by decide) (.last hlen (by decide) (yields_pure _))
  rw [sent_wide, sent_long, sent_epoch] at hresult
  exact hresult

theorem openTransfer_eq (network : Network) {param : Received} (hsize : param.blockSize ≠ 0)
    (hrate : param.targetRate ≠ 0) (found : Received → Announced) {fuel : Nat} (hfuel : 8 < fuel) :
    openTransfer client server network param found fuel = some (param, { found param with
      epoch := if server.KeepsTime ∧ client.KeepsTime then (found param).epoch else 0 }) := by
  obtain ⟨s, hup, -⟩ := receive_submit client server param fuel (network.up (submit client param)) []
    hfuel (by rw [network.up_whole, List.append_nil])
  obtain ⟨s', hdown, -⟩ := accept_describe client server param.blockSize (found param) fuel
    (network.down (announce server param.blockSize (found param))) [] hfuel
    (by rw [network.down_whole, List.append_nil])
  unfold openTransfer
  rw [hup, Option.bind_some, if_neg hsize, hdown, Option.bind_some, if_neg hrate]
  rfl

theorem openTransfer_ended (network : Network) {param : Received}
    (h : param.blockSize = 0 ∨ param.targetRate = 0) (found : Received → Announced) {fuel : Nat}
    (hfuel : 8 < fuel) : openTransfer client server network param found fuel = none := by
  obtain ⟨s, hup, -⟩ := receive_submit client server param fuel (network.up (submit client param)) []
    hfuel (by rw [network.up_whole, List.append_nil])
  unfold openTransfer
  rw [hup, Option.bind_some]
  by_cases hsize : param.blockSize = 0
  · exact if_pos hsize
  · rw [if_neg hsize]
    exact Option.bind_eq_none_iff.mpr fun _ _ => if_pos (h.resolve_left hsize)

/-- The exchange comes to its end in just the processes that get as far as the port. -/
theorem openTransfer_isSome_iff (network : Network) (param : Received)
    (found : Received → Announced) (epoch : Nat) (s : ServerSide) {fuel : Nat} (hfuel : 8 < fuel) :
    (openTransfer client server network param found fuel).isSome ↔
      (describeFile epoch (storeAll param.items s)).1.place = .port := by
  have h32 : ∀ n : UInt32, n.toNat = 0 ↔ n = 0 := fun n =>
    (UInt32.toNat_inj : n.toNat = (0 : UInt32).toNat ↔ _)
  have hport := describeFile_port_iff epoch (storeAll param.items s)
  rw [storeAll_received] at hport ⊢
  rw [hport]
  dsimp only
  rw [ne_eq, ne_eq, h32, h32]
  constructor
  · intro hsome
    refine not_or.mp fun hzero => ?_
    rw [openTransfer_ended client server network hzero found hfuel] at hsome
    cases hsome
  · rintro ⟨hsize, hrate⟩
    rw [openTransfer_eq client server network hsize hrate found hfuel]
    rfl

end Fields

/-- Everything arrives as it was sent, in whatever pieces, if and only if the server divides by no
zero on the way, and the epoch is 0 or neither machine is big-endian with a `time_t` of 8 bytes. -/
theorem handshake_decodes_iff (client server : Host) (network : Network) (param : Received)
    (found : Received → Announced) :
    (∃ enough, ∀ fuel ≥ enough,
        openTransfer client server network param found fuel = some (param, found param)) ↔
      param.blockSize ≠ 0 ∧ param.targetRate ≠ 0 ∧
        ((found param).epoch = 0 ∨ server.KeepsTime ∧ client.KeepsTime) := by
  constructor
  · rintro ⟨enough, h⟩
    have hboth := h (enough + 9) (Nat.le_add_right _ _)
    have hdivides : ¬(param.blockSize = 0 ∨ param.targetRate = 0) := by
      intro hzero
      rw [openTransfer_ended client server network hzero found (by omega)] at hboth
      cases hboth
    obtain ⟨hsize, hrate⟩ := not_or.mp hdivides
    rw [openTransfer_eq client server network hsize hrate found (by omega)] at hboth
    have hepoch := congrArg (fun r : Received × Announced => r.2.epoch) (Option.some.inj hboth)
    dsimp only at hepoch
    refine ⟨hsize, hrate, ?_⟩
    by_cases hkeeps : server.KeepsTime ∧ client.KeepsTime
    · exact .inr hkeeps
    · rw [if_neg hkeeps] at hepoch
      exact .inl hepoch.symm
  · rintro ⟨hsize, hrate, h⟩
    refine ⟨9, fun fuel hfuel => ?_⟩
    rw [openTransfer_eq client server network hsize hrate found (by omega)]
    have hepoch : (if server.KeepsTime ∧ client.KeepsTime then (found param).epoch else 0) =
        (found param).epoch := by
      rcases h with hzero | hkeeps
      · rw [hzero, ite_self]
      · exact if_pos hkeeps
    rw [hepoch]

def bytewise : List UInt8 → Stream UInt8 := fun bytes => ⟨bytes.map fun b => ⟨b, []⟩, .closed⟩

@[simp] theorem toList_bytewise (bytes : List UInt8) : (bytewise bytes).toList = bytes := by
  unfold bytewise Stream.toList
  induction bytes with
  | nil => rfl
  | cons b bytes ih => exact congrArg (b :: ·) ih

def slowNetwork : Network := ⟨bytewise, bytewise, toList_bytewise, toList_bytewise⟩

/-- A big-endian server with a `time_t` of 8 bytes: the client gets the epoch 0. -/
theorem epoch_lost :
    openTransfer ⟨.little, true⟩ ⟨.big, true⟩ slowNetwork (blocksOfSize 1024)
        (fun _ => ⟨3, 1, 1164098700⟩) 9 = some (blocksOfSize 1024, ⟨3, 1, 0⟩) ∧
      ¬∃ enough, ∀ fuel ≥ enough, openTransfer ⟨.little, true⟩ ⟨.big, true⟩ slowNetwork
        (blocksOfSize 1024) (fun _ => ⟨3, 1, 1164098700⟩) fuel =
          some (blocksOfSize 1024, ⟨3, 1, 1164098700⟩) := by
  have hlost : ∀ fuel, 8 < fuel → openTransfer ⟨.little, true⟩ ⟨.big, true⟩ slowNetwork
      (blocksOfSize 1024) (fun _ => ⟨3, 1, 1164098700⟩) fuel =
        some (blocksOfSize 1024, ⟨3, 1, 0⟩) := by
    intro fuel hfuel
    rw [openTransfer_eq _ _ _ (by decide) (by decide) _ hfuel, if_neg (by decide)]
  refine ⟨hlost 9 (by decide), ?_⟩
  rintro ⟨enough, h⟩
  have hboth := (hlost (enough + 9) (by omega)).symm.trans (h (enough + 9) (Nat.le_add_right _ _))
  have hepoch := congrArg (fun r : Received × Announced => r.2.epoch) (Option.some.inj hboth)
  exact absurd hepoch (by decide)

end TsunamiUdp.Control

import TsunamiUdp.Library.Bitmaps
import TsunamiUdp.Client.Accounting
import TsunamiUdp.Server.Handler

/-! The bytes that hold the bitmap of received blocks, and the file it is dumped to. -/
namespace TsunamiUdp.Client
open Library

/-- `got_block` as it looks into the bytes; `none` if it reads behind them. -/
def gotBlockBits (blockCount : Nat) (received : List UInt8) (blocknr : Nat) : Option Bool :=
  if blocknr > blockCount then some true else readBit received blocknr

def receivedBytes (blockCount : Nat) : List UInt8 := List.replicate (blockCount / 8 + 2) 0

structure Mapped where
  loop : Loop
  received : List UInt8

namespace Mapped

def start (param : Parameter) (fileSize blockCount onWireEstimate : Nat) : Mapped where
  loop := Loop.start param (Transfer.start fileSize blockCount onWireEstimate)
  received := receivedBytes blockCount

def view (s : Mapped) : Loop :=
  { s.loop with net := { s.loop.net with xfer := { s.loop.net.xfer with received := bits s.received } } }

def mark : List UInt8 → List (List UInt8) → Option (List UInt8)
  | received, [] => some received
  | received, datagram :: more =>
    (writeBit received (blockNumber datagram)).bind fun received => mark received more

def step (param : Parameter) (s : Mapped) (env : Env) : Option Mapped :=
  (Loop.step param s.view env).bind fun loop =>
    (mark s.received (loop.put.drop s.loop.put.length)).map fun received => ⟨loop, received⟩

structure Sized (blockCount : Nat) (s : Mapped) : Prop where
  count : s.loop.net.xfer.blockCount = blockCount
  length : s.received.length = blockCount / 8 + 2
  inside : ∀ b, bits s.received b = true → b ≤ blockCount

section Steps
variable {param : Parameter} {blockCount : Nat} {s : Mapped} {env : Env}

theorem view_of_received {loop : Loop} {received : List UInt8}
    (h : loop.net.xfer.received = bits received) : (Mapped.mk loop received).view = loop := by
  unfold view
  dsimp only
  rw [← h]

theorem Sized.start (param : Parameter) (fileSize blockCount onWireEstimate : Nat) :
    Sized blockCount (start param fileSize blockCount onWireEstimate) where
  count := rfl
  length := List.length_replicate
  inside := by
    intro b hb
    simp [Mapped.start, receivedBytes, bits_replicate] at hb

theorem Sized.gotBlock (h : Sized blockCount s) (b : Nat) :
    gotBlockBits blockCount s.received b = some (gotBlock s.view.net.xfer b) := by
  have hlength := h.length
  have hcount : s.view.net.xfer.blockCount = blockCount := h.count
  unfold gotBlockBits
  split
  · rename_i hgt
    rw [gotBlock_of_gt (by omega)]
  · rename_i hle
    rw [gotBlock_of_le (by omega), readBit_of_lt (by omega)]
    rfl

theorem Sized.step (h : Sized blockCount s) :
    (s.step param env).map view = Loop.step param s.view env ∧
      ∀ t, s.step param env = some t → Sized blockCount t := by
  unfold Mapped.step
  cases hs : Loop.step param s.view env with
  | none => exact ⟨rfl, fun t ht => by cases ht⟩
  | some loop =>
    rw [Option.bind_some]
    unfold Loop.step at hs
    split at hs
    · cases hs
    · obtain ⟨turn, hturn, rfl⟩ := Option.map_eq_some_iff.mp hs
      dsimp only
      have hput : s.view.put = s.loop.put := rfl
      obtain ⟨-, ⟨hnone, hsame, -⟩ | ⟨hsome, -, hnew, hsame⟩⟩ := receiveTurn_cases hturn
      · rw [hnone, hput, List.drop_left, Option.toList_none, mark, Option.map_some, Option.map_some]
        refine ⟨congrArg some (view_of_received hsame.received), fun t ht => ?_⟩
        cases ht
        exact ⟨hsame.blockCount.trans h.count, h.length, h.inside⟩
      · generalize hd : buffer param s.view.net.localDatagram env.recv = datagram at *
        have hle : blockNumber datagram ≤ blockCount :=
          (le_of_not_gotBlock hnew).trans_eq h.count
        have hlength := h.length
        obtain ⟨received, hwrite, hsize, hbits⟩ := @writeBit_of_lt s.received (blockNumber datagram)
          (by omega)
        rw [hsome, hput, List.drop_left, Option.toList_some, mark, hwrite, Option.bind_some, mark,
          Option.map_some, Option.map_some]
        have hreceived : turn.net.xfer.received = bits received := by
          rw [hsame.received, hbits]
          rfl
        refine ⟨congrArg some (view_of_received hreceived), fun t ht => ?_⟩
        cases ht
        refine ⟨hsame.blockCount.trans h.count, hsize.trans h.length, fun b hb => ?_⟩
        dsimp only at hb
        rw [hbits] at hb
        by_cases hbb : b = blockNumber datagram
        · exact hbb.trans_le hle
        · rw [Function.update_of_ne hbb] at hb
          exact h.inside b hb

theorem Sized.run {envs : List Env} (h : Sized blockCount s) :
    (Library.run (Mapped.step param) s envs).map view = Library.run (Loop.step param) s.view envs ∧
      ∀ t, Library.run (Mapped.step param) s envs = some t → Sized blockCount t := by
  induction envs generalizing s with
  | nil => exact ⟨rfl, fun t ht => by cases ht; exact h⟩
  | cons env envs ih =>
    obtain ⟨hview, hsized⟩ := @Sized.step param blockCount s env h
    simp only [run_cons]
    cases hs : s.step param env with
    | none =>
      rw [hs, Option.map_none] at hview
      rw [← hview]
      exact ⟨rfl, fun t ht => by cases ht⟩
    | some t =>
      rw [hs, Option.map_some] at hview
      rw [← hview, Option.bind_some, Option.bind_some]
      exact ih (hsized t hs)

end Steps

@[simp] theorem view_start (param : Parameter) (fileSize blockCount onWireEstimate : Nat) :
    (start param fileSize blockCount onWireEstimate).view =
      Loop.start param (Transfer.start fileSize blockCount onWireEstimate) := by
  apply view_of_received
  rw [receivedBytes, bits_replicate]
  rfl

end Mapped

/-- The loop behaves in every run as if the bitmap were a set of numbers, and none of the
looks at a block leaves the bytes that were allocated for it. -/
theorem bitmap_refined (param : Parameter) (fileSize blockCount onWireEstimate : Nat)
    (envs : List Env) :
    (run (Mapped.step param) (.start param fileSize blockCount onWireEstimate) envs).map Mapped.view =
        run (Loop.step param) (Loop.start param (Transfer.start fileSize blockCount onWireEstimate))
          envs ∧
      ∀ s, run (Mapped.step param) (.start param fileSize blockCount onWireEstimate) envs = some s →
        s.received.length = blockCount / 8 + 2 ∧
        ∀ b, gotBlockBits blockCount s.received b = some (gotBlock s.view.net.xfer b) := by
  obtain ⟨hview, hsized⟩ := @Mapped.Sized.run param blockCount _ envs
    (.start param fileSize blockCount onWireEstimate)
  rw [Mapped.view_start] at hview
  refine ⟨hview, fun s hs => ⟨(hsized s hs).length, ?_⟩⟩
  apply (hsized s hs).gotBlock

/-- `dump_blockmap`: the bytes of the file, if it does not read behind the bitmap. -/
def dumpBlockmap (order : Server.ByteOrder) (blockCount : Nat) (received : List UInt8) :
    Option (List UInt8) :=
  (readCells received (blockCount / 8 + 1)).map fun map => order.bytes blockCount ++ map

def dumpedCount (order : Server.ByteOrder) (bytes : List UInt8) : Nat :=
  match order with
  | .little => ofBytes bytes.reverse
  | .big => ofBytes bytes

/-- What a dump says: the number of blocks, and those of them that have been received. -/
def readBlockmap (order : Server.ByteOrder) (dump : List UInt8) : Nat × List Nat :=
  let count := dumpedCount order (dump.take 4)
  (count, (List.range' 1 count).filter (bits (dump.drop 4)))

theorem dumpedCount_bytes (order : Server.ByteOrder) {n : Nat} (h : n < 4294967296) :
    dumpedCount order (order.bytes n) = n := by
  have hback : ofBytes (toBytes 4 n) = n := ofBytes_toBytes h
  cases order with
  | little =>
    show ofBytes (toBytes 4 n).reverse.reverse = n
    rw [List.reverse_reverse, hback]
  | big => exact hback

/-- At any time of any run the dump is one byte for each eight numbers and says which blocks
have been received; nothing is marked behind the last block. -/
theorem blockmap_reads_back (order : Server.ByteOrder) {param : Parameter}
    {fileSize blockCount onWireEstimate : Nat} (hnarrow : blockCount < 4294967296)
    {envs : List Env} {s : Mapped}
    (hrun : run (Mapped.step param) (.start param fileSize blockCount onWireEstimate) envs = some s) :
    ∃ dump, dumpBlockmap order blockCount s.received = some dump ∧
      dump.length = 4 + (blockCount / 8 + 1) ∧
      readBlockmap order dump =
        (blockCount, (List.range' 1 blockCount).filter (gotBlock s.view.net.xfer)) ∧
      ∀ b, blockCount < b → bits (dump.drop 4) b = false := by
  have hsized := (Mapped.Sized.run (.start param fileSize blockCount onWireEstimate)).2 s hrun
  have hlength := hsized.length
  have hfour : (order.bytes blockCount).length = 4 := order.bytes_length blockCount
  have hcount : s.view.net.xfer.blockCount = blockCount := hsized.count
  refine ⟨_, congrArg (Option.map _) (readCells_of_le (by omega)), ?_, ?_, fun b hb => ?_⟩
  · rw [List.length_append, List.length_take, hfour, hlength]
    omega
  · simp only [readBlockmap, List.take_left' hfour, List.drop_left' hfour,
      dumpedCount_bytes order hnarrow]
    congr 1
    apply List.filter_congr
    intro b hb
    have hle : b ≤ blockCount := by
      have := List.mem_range'_1.mp hb
      omega
    rw [bits_take (by omega), gotBlock_of_le (by omega)]
    rfl
  · rw [List.drop_left' hfour]
    by_contra hset
    rw [Bool.not_eq_false] at hset
    have hinside : b / 8 < blockCount / 8 + 1 := by
      by_contra hout
      rw [bits, contents_of_ge (by rw [List.length_take]; omega)] at hset
      simp at hset
    rw [bits_take hinside] at hset
    have := hsized.inside b hset
    omega

def ninth : Option Mapped :=
  run (Mapped.step ⟨1, true, 0, 25⟩) (.start ⟨1, true, 0, 25⟩ 9 9 0)
    [.calm (.datagram [0, 0, 0, 9, 0, 79, 7])]

theorem ninth_blockmap : ∃ s dump, ninth = some s ∧ dumpBlockmap .little 9 s.received = some dump ∧
    dump.length = 6 ∧ readBlockmap .little dump = (9, [9]) := by
  have hsome : ninth.isSome = true := by decide +kernel
  have hnine : ninth.map (fun s => (List.range' 1 9).filter (gotBlock s.view.net.xfer)) =
      some [9] := by decide +kernel
  obtain ⟨s, hs⟩ := Option.isSome_iff_exists.mp hsome
  obtain ⟨dump, hdump, hlength, hread, -⟩ := blockmap_reads_back .little (by decide) hs
  rw [hs] at hnine
  exact ⟨s, dump, hs, hdump, hlength, hread.trans (congrArg (Prod.mk 9) (Option.some.inj hnine))⟩

end TsunamiUdp.Client

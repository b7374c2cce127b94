import TsunamiUdp.Library.Md5
import TsunamiUdp.Protocol

/-! `common/md5.c`: the `md5_digest` of little-endian machines, and the one that big-endian
machines put together from `md5_init`, `md5_append` and `md5_finish`. -/
namespace TsunamiUdp.Common
open Library Library.Md5

def rotate (x : Word) (bits : Nat) : Word := x <<< bits ||| x >>> (32 - bits)

def T : List Word :=
  [0xd76aa478, 0xe8c7b756, 0x242070db, 0xc1bdceee,
   0xf57c0faf, 0x4787c62a, 0xa8304613, 0xfd469501,
   0x698098d8, 0x8b44f7af, 0xffff5bb1, 0x895cd7be,
   0x6b901122, 0xfd987193, 0xa679438e, 0x49b40821,
   0xf61e2562, 0xc040b340, 0x265e5a51, 0xe9b6c7aa,
   0xd62f105d, 0x02441453, 0xd8a1e681, 0xe7d3fbc8,
   0x21e1cde6, 0xc33707d6, 0xf4d50d87, 0x455a14ed,
   0xa9e3e905, 0xfcefa3f8, 0x676f02d9, 0x8d2a4c8a,
   0xfffa3942, 0x8771f681, 0x6d9d6122, 0xfde5380c,
   0xa4beea44, 0x4bdecfa9, 0xf6bb4b60, 0xbebfbc70,
   0x289b7ec6, 0xeaa127fa, 0xd4ef3085, 0x04881d05,
   0xd9d4d039, 0xe6db99e5, 0x1fa27cf8, 0xc4ac5665,
   0xf4292244, 0x432aff97, 0xab9423a7, 0xfc93a039,
   0x655b59c3, 0x8f0ccc92, 0xffeff47d, 0x85845dd1,
   0x6fa87e4f, 0xfe2ce6e0, 0xa3014314, 0x4e0811a1,
   0xf7537e82, 0xbd3af235, 0x2ad7d2bb, 0xeb86d391]

def padding : List UInt8 := 0x80 :: List.replicate 63 0

def md5Table : List (Nat × Nat) :=
  [(0, 7), (1, 12), (2, 17), (3, 22), (4, 7), (5, 12), (6, 17), (7, 22),
   (8, 7), (9, 12), (10, 17), (11, 22), (12, 7), (13, 12), (14, 17), (15, 22),
   (1, 5), (6, 9), (11, 14), (0, 20), (5, 5), (10, 9), (15, 14), (4, 20),
   (9, 5), (14, 9), (3, 14), (8, 20), (13, 5), (2, 9), (7, 14), (12, 20),
   (5, 4), (8, 11), (11, 16), (14, 23), (1, 4), (4, 11), (7, 16), (10, 23),
   (13, 4), (0, 11), (3, 16), (6, 23), (9, 4), (12, 11), (15, 16), (2, 23),
   (0, 6), (7, 10), (14, 15), (5, 21), (12, 6), (3, 10), (10, 15), (1, 21),
   (8, 6), (15, 10), (6, 15), (13, 21), (4, 6), (11, 10), (2, 15), (9, 21)]

def md5F (x y z : Word) : Word := (x &&& y) ||| (~~~x &&& z)
def md5G (x y z : Word) : Word := (x &&& z) ||| (y &&& ~~~z)
def md5H (x y z : Word) : Word := x ^^^ y ^^^ z
def md5I (x y z : Word) : Word := y ^^^ (x ||| ~~~z)

def md5Dispatch : Nat → Word → Word → Word → Word
  | 0 => md5F
  | 1 => md5G
  | 2 => md5H
  | _ => md5I

/-- `u_int32_t state[4]`. -/
abbrev State := Vector Word 4

def put (state : State) (k : Fin 4) (w : Word) : State := state.set k w k.isLt

def addWords (state state' : State) : State := Vector.ofFn fun k => state.get k + state'.get k

def initialState : State := #v[0x67452301, 0xefcdab89, 0x98badcfe, 0x10325476]

def stateBytes (state : State) : List UInt8 :=
  wordBytes (state.get 0) ++ wordBytes (state.get 1) ++ wordBytes (state.get 2) ++
    wordBytes (state.get 3)

def blocks (size : Nat) : Nat := if size % 64 > 56 then size / 64 + 1 else size / 64

def fillX (buffer : List UInt8) (i : Nat) : List UInt8 :=
  let size := buffer.length
  let whole := (buffer.drop (64 * i)).take 64
  let part := (buffer.drop (64 * i)).take (size % 64) ++ padding.take (64 - size % 64)
  if i + 1 < blocks size then whole
  else if i + 1 = blocks size then if 64 * (i + 1) > size then part else whole
  else (if 64 * i > size then List.replicate 64 0 else part).take 56 ++
    wordBytes (BitVec.ofNat 32 (size * 8)) ++ wordBytes 0

/-- The index `(4 - j % 4 + k) % 4`. -/
def register (j k : Nat) : Fin 4 := Fin.ofNat 4 (4 - j % 4 + k)

/-- The body of the inner loop, on `X` as it lies in a little-endian memory. -/
def computeStep (X : List UInt8) (state : State) (j : Nat) : State :=
  let func := md5Dispatch (j / 16) (state.get (register j 1)) (state.get (register j 2))
    (state.get (register j 3))
  let sum := state.get (register j 0) + func + word X (md5Table.getD j (0, 0)).1 + T.getD j 0
  put state (register j 0) (state.get (register j 1) + rotate sum (md5Table.getD j (0, 0)).2)

def computeBlock (state : State) (X : List UInt8) : State :=
  addWords ((List.range 64).foldl (computeStep X) state) state

def md5Digest (buffer : List UInt8) : List UInt8 :=
  stateBytes ((List.range (blocks buffer.length + 1)).foldl
    (fun state i => computeBlock state (fillX buffer i)) initialState)

/-! The other implementation, with its own names. -/

structure Md5State where
  count0 : Word
  count1 : Word
  abcd : State
  buf : List UInt8

def tMask : Word := ~~~0

/-- The macros `T1` to `T64`. -/
def macroT : List Word :=
  [tMask ^^^ 0x28955b87, tMask ^^^ 0x173848a9, 0x242070db, tMask ^^^ 0x3e423111,
   tMask ^^^ 0x0a83f050, 0x4787c62a, tMask ^^^ 0x57cfb9ec, tMask ^^^ 0x02b96afe,
   0x698098d8, tMask ^^^ 0x74bb0850, tMask ^^^ 0x0000a44e, tMask ^^^ 0x76a32841,
   0x6b901122, tMask ^^^ 0x02678e6c, tMask ^^^ 0x5986bc71, 0x49b40821,
   tMask ^^^ 0x09e1da9d, tMask ^^^ 0x3fbf4cbf, 0x265e5a51, tMask ^^^ 0x16493855,
   tMask ^^^ 0x29d0efa2, 0x02441453, tMask ^^^ 0x275e197e, tMask ^^^ 0x182c0437,
   0x21e1cde6, tMask ^^^ 0x3cc8f829, tMask ^^^ 0x0b2af278, 0x455a14ed,
   tMask ^^^ 0x561c16fa, tMask ^^^ 0x03105c07, 0x676f02d9, tMask ^^^ 0x72d5b375,
   tMask ^^^ 0x0005c6bd, tMask ^^^ 0x788e097e, 0x6d9d6122, tMask ^^^ 0x021ac7f3,
   tMask ^^^ 0x5b4115bb, 0x4bdecfa9, tMask ^^^ 0x0944b49f, tMask ^^^ 0x4140438f,
   0x289b7ec6, tMask ^^^ 0x155ed805, tMask ^^^ 0x2b10cf7a, 0x04881d05,
   tMask ^^^ 0x262b2fc6, tMask ^^^ 0x1924661a, 0x1fa27cf8, tMask ^^^ 0x3b53a99a,
   tMask ^^^ 0x0bd6ddbb, 0x432aff97, tMask ^^^ 0x546bdc58, tMask ^^^ 0x036c5fc6,
   0x655b59c3, tMask ^^^ 0x70f3336d, tMask ^^^ 0x00100b82, tMask ^^^ 0x7a7ba22e,
   0x6fa87e4f, tMask ^^^ 0x01d3191f, tMask ^^^ 0x5cfebceb, 0x4e0811a1,
   tMask ^^^ 0x08ac817d, tMask ^^^ 0x42c50dca, 0x2ad7d2bb, tMask ^^^ 0x14792c6e]

structure Set where
  a : Fin 4
  b : Fin 4
  c : Fin 4
  d : Fin 4
  k : Nat
  s : Nat
  i : Nat
deriving DecidableEq

section Rounds

/-! The local variables of `md5_process`. -/
private def a : Fin 4 := 0
private def b : Fin 4 := 1
private def c : Fin 4 := 2
private def d : Fin 4 := 3

def round1 : List Set :=
  [⟨a, b, c, d, 0, 7, 1⟩, ⟨d, a, b, c, 1, 12, 2⟩, ⟨c, d, a, b, 2, 17, 3⟩, ⟨b, c, d, a, 3, 22, 4⟩,
   ⟨a, b, c, d, 4, 7, 5⟩, ⟨d, a, b, c, 5, 12, 6⟩, ⟨c, d, a, b, 6, 17, 7⟩, ⟨b, c, d, a, 7, 22, 8⟩,
   ⟨a, b, c, d, 8, 7, 9⟩, ⟨d, a, b, c, 9, 12, 10⟩, ⟨c, d, a, b, 10, 17, 11⟩, ⟨b, c, d, a, 11, 22, 12⟩,
   ⟨a, b, c, d, 12, 7, 13⟩, ⟨d, a, b, c, 13, 12, 14⟩, ⟨c, d, a, b, 14, 17, 15⟩, ⟨b, c, d, a, 15, 22, 16⟩]

def round2 : List Set :=
  [⟨a, b, c, d, 1, 5, 17⟩, ⟨d, a, b, c, 6, 9, 18⟩, ⟨c, d, a, b, 11, 14, 19⟩, ⟨b, c, d, a, 0, 20, 20⟩,
   ⟨a, b, c, d, 5, 5, 21⟩, ⟨d, a, b, c, 10, 9, 22⟩, ⟨c, d, a, b, 15, 14, 23⟩, ⟨b, c, d, a, 4, 20, 24⟩,
   ⟨a, b, c, d, 9, 5, 25⟩, ⟨d, a, b, c, 14, 9, 26⟩, ⟨c, d, a, b, 3, 14, 27⟩, ⟨b, c, d, a, 8, 20, 28⟩,
   ⟨a, b, c, d, 13, 5, 29⟩, ⟨d, a, b, c, 2, 9, 30⟩, ⟨c, d, a, b, 7, 14, 31⟩, ⟨b, c, d, a, 12, 20, 32⟩]

def round3 : List Set :=
  [⟨a, b, c, d, 5, 4, 33⟩, ⟨d, a, b, c, 8, 11, 34⟩, ⟨c, d, a, b, 11, 16, 35⟩, ⟨b, c, d, a, 14, 23, 36⟩,
   ⟨a, b, c, d, 1, 4, 37⟩, ⟨d, a, b, c, 4, 11, 38⟩, ⟨c, d, a, b, 7, 16, 39⟩, ⟨b, c, d, a, 10, 23, 40⟩,
   ⟨a, b, c, d, 13, 4, 41⟩, ⟨d, a, b, c, 0, 11, 42⟩, ⟨c, d, a, b, 3, 16, 43⟩, ⟨b, c, d, a, 6, 23, 44⟩,
   ⟨a, b, c, d, 9, 4, 45⟩, ⟨d, a, b, c, 12, 11, 46⟩, ⟨c, d, a, b, 15, 16, 47⟩, ⟨b, c, d, a, 2, 23, 48⟩]

def round4 : List Set :=
  [⟨a, b, c, d, 0, 6, 49⟩, ⟨d, a, b, c, 7, 10, 50⟩, ⟨c, d, a, b, 14, 15, 51⟩, ⟨b, c, d, a, 5, 21, 52⟩,
   ⟨a, b, c, d, 12, 6, 53⟩, ⟨d, a, b, c, 3, 10, 54⟩, ⟨c, d, a, b, 10, 15, 55⟩, ⟨b, c, d, a, 1, 21, 56⟩,
   ⟨a, b, c, d, 8, 6, 57⟩, ⟨d, a, b, c, 15, 10, 58⟩, ⟨c, d, a, b, 6, 15, 59⟩, ⟨b, c, d, a, 13, 21, 60⟩,
   ⟨a, b, c, d, 4, 6, 61⟩, ⟨d, a, b, c, 11, 10, 62⟩, ⟨c, d, a, b, 2, 15, 63⟩, ⟨b, c, d, a, 9, 21, 64⟩]

end Rounds

def Set.run (f : Word → Word → Word → Word) (X : List UInt8) (regs : State) (op : Set) : State :=
  let t := regs.get op.a + f (regs.get op.b) (regs.get op.c) (regs.get op.d) + word X op.k +
    macroT.getD (op.i - 1) 0
  put regs op.a (rotate t op.s + regs.get op.b)

def md5Process (abcd : State) (data : List UInt8) : State :=
  let regs := round1.foldl (Set.run md5F data) abcd
  let regs := round2.foldl (Set.run md5G data) regs
  let regs := round3.foldl (Set.run md5H data) regs
  let regs := round4.foldl (Set.run md5I data) regs
  addWords abcd regs

/-- The buffer holds what it held before. -/
def md5Init (buf : List UInt8) : Md5State where
  count0 := 0
  count1 := 0
  abcd := #v[0x67452301, tMask ^^^ 0x10325476, tMask ^^^ 0x67452301, 0x10325476]
  buf := buf

def processBlocks (p : List UInt8) (pms : Md5State) : Md5State :=
  let rest := p.drop (64 * (p.length / 64))
  { pms with
    abcd := (List.range (p.length / 64)).foldl
      (fun abcd i => md5Process abcd ((p.drop (64 * i)).take 64)) pms.abcd
    buf := rest ++ pms.buf.drop rest.length }

def md5Append (data : List UInt8) (pms : Md5State) : Md5State :=
  let nbytes := data.length
  let offset := (pms.count0 >>> 3 &&& 63).toNat
  let nbits := BitVec.ofNat 32 (nbytes <<< 3)
  if nbytes = 0 then pms
  else
    let count1 := pms.count1 + BitVec.ofNat 32 (nbytes >>> 29)
    let count0 := pms.count0 + nbits
    let pms := { pms with
      count0 := count0
      count1 := if count0 < nbits then count1 + 1 else count1 }
    if offset = 0 then processBlocks data pms
    else
      let copy := if offset + nbytes > 64 then 64 - offset else nbytes
      let buf := pms.buf.take offset ++ data.take copy ++ pms.buf.drop (offset + copy)
      let pms := { pms with buf := buf }
      if offset + copy < 64 then pms
      else processBlocks (data.drop copy) { pms with abcd := md5Process pms.abcd buf }

def md5Finish (pms : Md5State) : List UInt8 :=
  let data := wordBytes pms.count0 ++ wordBytes pms.count1
  let pms := md5Append (padding.take (((55#32 - pms.count0 >>> 3) &&& 63).toNat + 1)) pms
  stateBytes (md5Append data pms).abcd

/-- `md5_digest` on a big-endian machine; `buf` is what `ms` held in its buffer before. -/
def md5DigestBig (buf buffer : List UInt8) : List UInt8 := md5Finish (md5Append buffer (md5Init buf))

/-- The table `T`, as far as it goes. -/
def table (j : Nat) : Word := T.getD j 0

section Rounds

theorem rotate_eq (x : Word) {bits : Nat} (h : bits < 32) : rotate x bits = x.rotateLeft bits := by
  rw [BitVec.rotateLeft_def, Nat.mod_eq_of_lt h, rotate]

theorem shift_lt (j : Nat) : shift j < 32 := by
  unfold shift
  split <;> decide

theorem macroT_eq : macroT = T := by decide

theorem md5Table_eq : ∀ j < 64, md5Table.getD j (0, 0) = (index j, shift j) := by decide

theorem md5Dispatch_eq (j : Nat) : md5Dispatch (j / 16) = mix j := by
  funext x y z
  unfold mix
  match j / 16 with
  | 0 => rfl
  | 1 => rfl
  | 2 => rfl
  | _ + 3 => rfl

theorem table_eq {j : Nat} (hj : j < 64) : sineTable j = table j := by
  have hbits : ∀ i < 64, hasBits (i + 1) (table i).toNat = true := by decide +kernel
  rw [sineTable_eq (by omega) (hbits j hj), BitVec.ofNat_toNat, BitVec.setWidth_eq]

/-! The registers change their names with every operation. -/
theorem register_next (j k : Nat) : register (j + 1) (k + 1) = register j k := by
  apply Fin.ext
  simp only [register, Fin.ofNat]
  omega

theorem register_first (j : Nat) : register (j + 1) 0 = register j 3 := by
  apply Fin.ext
  simp only [register, Fin.ofNat]
  omega

theorem register_ne (j : Nat) {k : Nat} (h1 : 1 ≤ k) (h3 : k ≤ 3) : register j k ≠ register j 0 := by
  intro h
  have heq := congrArg Fin.val h
  simp only [register, Fin.ofNat] at heq
  omega

def registers (state : State) (j : Nat) : Registers where
  a := state.get (register j 0)
  b := state.get (register j 1)
  c := state.get (register j 2)
  d := state.get (register j 3)

theorem get_put (state : State) (k : Fin 4) (w : Word) : (put state k w).get k = w :=
  Vector.getElem_set_self k.isLt

theorem get_put_ne (state : State) {k l : Fin 4} (h : l ≠ k) (w : Word) :
    (put state k w).get l = state.get l :=
  Vector.getElem_set_ne k.isLt l.isLt (Fin.val_ne_of_ne h.symm)

theorem get_addWords (state state' : State) (k : Fin 4) :
    (addWords state state').get k = state.get k + state'.get k :=
  Vector.getElem_ofFn k.isLt

theorem addWords_comm (state state' : State) : addWords state state' = addWords state' state := by
  unfold addWords
  congr 1
  funext k
  exact BitVec.add_comm _ _

theorem registers_computeStep (X : List UInt8) (state : State) {j : Nat} (hj : j < 64) :
    registers (computeStep X state j) (j + 1) = operate table X (registers state j) j := by
  have hentry := md5Table_eq j hj
  unfold registers computeStep operate
  simp only [hentry, md5Dispatch_eq, register_first, register_next, get_put,
    get_put_ne _ (register_ne j (le_refl 1) (by decide : 1 ≤ 3)),
    get_put_ne _ (register_ne j (by decide : 1 ≤ 2) (by decide : 2 ≤ 3)),
    get_put_ne _ (register_ne j (by decide : 1 ≤ 3) (le_refl 3)),
    rotate_eq _ (shift_lt j), table]

theorem registers_rounds (X : List UInt8) (state : State) {n : Nat} (hn : n ≤ 64) :
    registers ((List.range n).foldl (computeStep X) state) n =
      (List.range n).foldl (operate table X) (registers state 0) := by
  induction n with
  | zero => rfl
  | succ n ih =>
    rw [List.range_succ, List.foldl_append, List.foldl_append, List.foldl_cons, List.foldl_nil,
      List.foldl_cons, List.foldl_nil, registers_computeStep X _ (by omega), ih (by omega)]

theorem registers_computeBlock (state : State) (X : List UInt8) :
    registers (computeBlock state X) 0 = compress table (registers state 0) X := by
  have hsame : ∀ k, register 64 k = register 0 k := fun k => rfl
  rw [compress, ← registers_rounds X state (le_refl 64), computeBlock, addWords_comm]
  simp only [registers, Registers.add, get_addWords, hsame]

/-! `md5_process` spells the same operations out. -/
def line (j : Nat) : Set :=
  ⟨register j 0, register j 1, register j 2, register j 3, index j, shift j, j + 1⟩

theorem rounds_eq : round1 = (List.range' 0 16).map line ∧ round2 = (List.range' 16 16).map line ∧
    round3 = (List.range' 32 16).map line ∧ round4 = (List.range' 48 16).map line := by
  decide

theorem run_line (X : List UInt8) (regs : State) {j : Nat} (hj : j < 64) :
    Set.run (md5Dispatch (j / 16)) X regs (line j) = computeStep X regs j := by
  unfold Set.run computeStep line
  simp only [macroT_eq, md5Table_eq j hj, Nat.add_sub_cancel]
  rw [BitVec.add_comm]

theorem round_eq (X : List UInt8) {i : Nat} (hi : i < 4) (regs : State) :
    ((List.range' (16 * i) 16).map line).foldl (Set.run (md5Dispatch i) X) regs =
      (List.range' (16 * i) 16).foldl (computeStep X) regs := by
  rw [List.foldl_map]
  refine List.foldl_ext _ _ _ fun regs j hj => ?_
  have hrange := List.mem_range'_1.mp hj
  have hround : j / 16 = i := by omega
  rw [← hround, run_line X regs (by omega)]

theorem md5Process_eq (abcd : State) (data : List UInt8) :
    md5Process abcd data = computeBlock abcd data := by
  obtain ⟨h1, h2, h3, h4⟩ := rounds_eq
  have hsplit : List.range 64 = List.range' (16 * 0) 16 ++ List.range' (16 * 1) 16 ++
      List.range' (16 * 2) 16 ++ List.range' (16 * 3) 16 := by decide
  unfold computeBlock
  rw [hsplit, List.foldl_append, List.foldl_append, List.foldl_append,
    ← round_eq data (by decide : 0 < 4), ← round_eq data (by decide : 1 < 4),
    ← round_eq data (by decide : 2 < 4), ← round_eq data (by decide : 3 < 4)]
  unfold md5Process
  rw [h1, h2, h3, h4]
  exact addWords_comm _ _

end Rounds

def digestedBlocks (buffer : List UInt8) : List (List UInt8) :=
  (List.range (blocks buffer.length + 1)).map (fillX buffer)

section LittleEndian
variable {buffer : List UInt8} {i : Nat}

theorem registers_foldl (states : List (List UInt8)) (state : State) :
    registers (states.foldl computeBlock state) 0 =
      states.foldl (compress table) (registers state 0) := by
  induction states generalizing state with
  | nil => rfl
  | cons X rest ih => rw [List.foldl_cons, List.foldl_cons, ih, registers_computeBlock]

theorem md5Digest_eq (buffer : List UInt8) :
    md5Digest buffer = ((digestedBlocks buffer).foldl (compress table) .initial).bytes := by
  have hinitial : registers initialState 0 = .initial := rfl
  rw [← hinitial, ← registers_foldl, digestedBlocks, List.foldl_map]
  rfl

theorem padding_take {k : Nat} (h1 : 1 ≤ k) (h64 : k ≤ 64) :
    padding.take k = 0x80 :: List.replicate (k - 1) 0 := by
  obtain ⟨k, rfl⟩ : ∃ n, k = n + 1 := ⟨k - 1, by omega⟩
  rw [padding, List.take_succ_cons, List.take_replicate, Nat.min_eq_left (by omega),
    Nat.add_sub_cancel]

theorem lengthBytes_eq {size : Nat} (h : size < 536870912) :
    lengthBytes size = wordBytes (BitVec.ofNat 32 (size * 8)) ++ wordBytes 0 := by
  have hhigh : 8 * size / 4294967296 = 0 := by omega
  rw [lengthBytes, hhigh, Nat.mul_comm 8]
  rfl

theorem fillX_whole (h : 64 * (i + 1) ≤ buffer.length) :
    fillX buffer i = blockAt 64 (pad buffer) (i + 1) := by
  have hblocks : buffer.length / 64 ≤ blocks buffer.length := by
    unfold blocks
    split <;> omega
  rw [pad, List.append_assoc, blockAt_append h]
  unfold fillX
  dsimp only
  split
  · rfl
  · rw [if_pos (by omega), if_neg (by omega)]
    rfl

theorem drop_whole (buffer : List UInt8) :
    (buffer.drop (64 * (buffer.length / 64))).take (buffer.length % 64) =
        buffer.drop (64 * (buffer.length / 64)) ∧
      (buffer.drop (64 * (buffer.length / 64))).length = buffer.length % 64 := by
  have hlen : (buffer.drop (64 * (buffer.length / 64))).length = buffer.length % 64 := by
    rw [List.length_drop]
    omega
  exact ⟨List.take_of_length_le hlen.le, hlen⟩

theorem blockAt_end (buffer : List UInt8) :
    blockAt 64 (pad buffer) (buffer.length / 64 + 1) =
      buffer.drop (64 * (buffer.length / 64)) ++
        (0x80 :: List.replicate (zeros buffer.length) 0 ++ lengthBytes buffer.length).take
          (64 - buffer.length % 64) := by
  obtain ⟨-, hlen⟩ := drop_whole buffer
  unfold blockAt blockStart
  rw [Nat.add_sub_cancel, pad, List.append_assoc, List.drop_append_of_le_length (by omega),
    List.take_append, hlen, List.take_of_length_le (by omega)]

theorem fillX_short (hsize : buffer.length < 536870912) (h : buffer.length % 64 < 56) :
    fillX buffer (buffer.length / 64) = blockAt 64 (pad buffer) (buffer.length / 64 + 1) := by
  obtain ⟨hpart, hlen⟩ := drop_whole buffer
  have hblocks : blocks buffer.length = buffer.length / 64 := if_neg (by omega)
  have hzeros : zeros buffer.length = 55 - buffer.length % 64 := by
    unfold zeros
    omega
  have hroom : 56 - buffer.length % 64 = 55 - buffer.length % 64 + 1 := by omega
  rw [blockAt_end, fillX, hblocks, if_neg (by omega), if_neg (by omega), if_neg (by omega), hpart,
    padding_take (by omega) (by omega), lengthBytes_eq hsize, hzeros, List.take_append, hlen,
    List.take_of_length_le (by omega), hroom, List.take_succ_cons, List.take_replicate,
    Nat.min_eq_left (by omega), List.take_of_length_le (i := 64 - buffer.length % 64)]
  · simp only [List.append_assoc, List.cons_append]
  · simp only [List.length_append, List.length_cons, List.length_replicate, wordBytes_length]
    omega

theorem fillX_long (h : 56 < buffer.length % 64) :
    fillX buffer (buffer.length / 64) = blockAt 64 (pad buffer) (buffer.length / 64 + 1) := by
  obtain ⟨hpart, hlen⟩ := drop_whole buffer
  have hblocks : blocks buffer.length = buffer.length / 64 + 1 := if_pos h
  have hroom : 64 - buffer.length % 64 = 63 - buffer.length % 64 + 1 := by omega
  rw [blockAt_end, fillX, hblocks, if_neg (by omega), if_pos rfl, if_pos (by omega), hpart,
    padding_take (by omega) (by omega), hroom, List.cons_append, List.take_succ_cons,
    List.take_append_of_le_length, List.take_replicate, Nat.min_eq_left, Nat.add_sub_cancel]
  · unfold zeros
    omega
  · rw [List.length_replicate]
    unfold zeros
    omega

theorem fillX_last (hsize : buffer.length < 536870912) (h : 56 < buffer.length % 64) :
    fillX buffer (buffer.length / 64 + 1) = blockAt 64 (pad buffer) (buffer.length / 64 + 2) := by
  have hblocks : blocks buffer.length = buffer.length / 64 + 1 := if_pos h
  have hzeros : zeros buffer.length = 63 - buffer.length % 64 + 56 := by
    unfold zeros
    omega
  have hpad : pad buffer = (buffer ++ 0x80 :: List.replicate (63 - buffer.length % 64) 0) ++
      (List.replicate 56 0 ++ lengthBytes buffer.length) := by
    rw [pad, hzeros, List.replicate_add]
    simp only [List.append_assoc, List.cons_append]
  have hfront : (buffer ++ 0x80 :: List.replicate (63 - buffer.length % 64) 0).length =
      64 * (buffer.length / 64 + 1) := by
    simp
    omega
  have hwhole : (List.replicate 56 (0 : UInt8) ++ lengthBytes buffer.length).length ≤ 64 := by
    simp
  have hfirst : blockAt 64 (List.replicate 56 (0 : UInt8) ++ lengthBytes buffer.length) (0 + 1) =
      List.replicate 56 0 ++ lengthBytes buffer.length := by
    unfold blockAt blockStart
    rw [Nat.add_sub_cancel, List.drop_zero, List.take_of_length_le hwhole]
  rw [hpad, blockAt_behind hfront _ 0, hfirst, fillX, hblocks, if_neg (by omega), if_neg (by omega),
    if_pos (by omega), List.take_replicate, lengthBytes_eq hsize, List.append_assoc]
  rfl

theorem fillX_eq (hsize : buffer.length < 536870912) (h : buffer.length % 64 ≠ 56)
    (hi : i ≤ blocks buffer.length) : fillX buffer i = blockAt 64 (pad buffer) (i + 1) := by
  unfold blocks at hi
  by_cases hwhole : 64 * (i + 1) ≤ buffer.length
  · exact fillX_whole hwhole
  · split at hi
    · rename_i hlong
      obtain rfl | rfl : i = buffer.length / 64 ∨ i = buffer.length / 64 + 1 := by omega
      · exact fillX_long hlong
      · exact fillX_last hsize hlong
    · obtain rfl : i = buffer.length / 64 := by omega
      exact fillX_short hsize (by omega)

/-- The blocks are those of the standard unless the message ends where the length is to
stand: then the bit behind it is lost, and a block is missing. -/
theorem digestedBlocks_iff (hsize : buffer.length < 536870912) :
    digestedBlocks buffer = paddedBlocks buffer ↔ buffer.length % 64 ≠ 56 := by
  have hcount : (pad buffer).length / 64 =
      buffer.length / 64 + if buffer.length % 64 < 56 then 1 else 2 := by
    rw [pad_length, Nat.mul_div_cancel_left _ (by decide)]
  constructor
  · intro heq hend
    have hlengths := congrArg List.length heq
    rw [digestedBlocks, paddedBlocks, List.length_map, List.length_map, List.length_range,
      List.length_range, hcount, blocks, if_neg (by omega), if_neg (by omega)] at hlengths
    omega
  · intro h
    have hblocks : (pad buffer).length / 64 = blocks buffer.length + 1 := by
      rw [hcount]
      unfold blocks
      split <;> split <;> omega
    rw [digestedBlocks, paddedBlocks, hblocks]
    exact List.map_congr_left fun i hi =>
      fillX_eq hsize h (Nat.lt_succ_iff.mp (List.mem_range.mp hi))

theorem md5Digest_standard (hsize : buffer.length < 536870912) (h : buffer.length % 64 ≠ 56) :
    md5Digest buffer = digest table buffer := by
  rw [md5Digest_eq, (digestedBlocks_iff hsize).mpr h, digest_eq]

end LittleEndian

section BigEndian
variable {buf data message : List UInt8} {pms : Md5State}

/-- The chain has taken in the whole blocks of the message, and the buffer holds the rest. -/
structure Held (abcd : State) (buf message : List UInt8) : Prop where
  abcd : registers abcd 0 = absorb table (message.length / 64) message
  rest : buf.take (message.length % 64) = message.drop (64 * (message.length / 64))
  room : buf.length = 64

structure Absorbed (pms : Md5State) (message : List UInt8) : Prop where
  count : pms.count0 = BitVec.ofNat 32 (8 * message.length)
  held : Held pms.abcd pms.buf message

theorem absorbed_init (h : buf.length = 64) : Absorbed (md5Init buf) [] := by
  have hinitial : registers (md5Init []).abcd 0 = .initial := by decide
  exact ⟨rfl, hinitial, rfl, h⟩

theorem registers_process (p : List UInt8) (abcd : State) (n : Nat) :
    registers ((List.range n).foldl
        (fun abcd i => md5Process abcd ((p.drop (64 * i)).take 64)) abcd) 0 =
      (List.range n).foldl (fun r i => compress table r (blockAt 64 p (i + 1))) (registers abcd 0) := by
  induction n with
  | zero => rfl
  | succ n ih =>
    rw [List.range_succ, List.foldl_append, List.foldl_append, List.foldl_cons, List.foldl_nil,
      List.foldl_cons, List.foldl_nil, md5Process_eq, registers_computeBlock, ih]
    rfl

theorem processBlocks_held (hwhole : message.length % 64 = 0)
    (h : Held pms.abcd pms.buf message) (p : List UInt8) :
    Held (processBlocks p pms).abcd (processBlocks p pms).buf (message ++ p) := by
  have hlen : message.length = 64 * (message.length / 64) := by omega
  have hcount : (message ++ p).length / 64 = message.length / 64 + p.length / 64 := by
    rw [List.length_append]
    omega
  have hrest : (p.drop (64 * (p.length / 64))).length = (message ++ p).length % 64 := by
    rw [List.length_drop, List.length_append]
    omega
  unfold processBlocks
  refine ⟨?_, ?_, ?_⟩
  · dsimp only
    rw [registers_process, h.abcd, hcount, absorb_behind table hlen]
  · have hnil : message.drop (message.length + 64 * (p.length / 64)) = [] :=
      List.drop_eq_nil_of_le (Nat.le_add_right _ _)
    dsimp only
    rw [← hrest, List.take_left, hcount, Nat.mul_add, ← hlen, List.drop_append, hnil,
      List.nil_append, Nat.add_sub_cancel_left]
  · have hroom := h.room
    simp only [List.length_append, List.length_drop, hroom]
    omega

theorem offset_eq {count : Word} {size : Nat} (h : count = BitVec.ofNat 32 (8 * size)) :
    (count >>> 3 &&& 63).toNat = size % 64 := by
  rw [h, BitVec.toNat_and, BitVec.toNat_ushiftRight, BitVec.toNat_ofNat]
  have hmask := Nat.and_two_pow_sub_one_eq_mod ((8 * size % 2 ^ 32) >>> 3) 6
  rw [show BitVec.toNat (63 : Word) = 2 ^ 6 - 1 from rfl, hmask, Nat.shiftRight_eq_div_pow]
  omega

theorem count_append (size more : Nat) :
    BitVec.ofNat 32 (8 * size) + BitVec.ofNat 32 (more <<< 3) =
      BitVec.ofNat 32 (8 * (size + more)) := by
  rw [← BitVec.ofNat_add, Nat.shiftLeft_eq]
  congr 1
  omega

theorem Held.fill (h : Held pms.abcd pms.buf message) (data : List UInt8)
    (hless : message.length % 64 + data.length < 64) :
    Held pms.abcd (pms.buf.take (message.length % 64) ++ data ++
      pms.buf.drop (message.length % 64 + data.length)) (message ++ data) := by
  have hroom := h.room
  have hdiv : (message ++ data).length / 64 = message.length / 64 := by
    rw [List.length_append]
    omega
  have hmod : (message ++ data).length % 64 = message.length % 64 + data.length := by
    rw [List.length_append]
    omega
  have hfront : (pms.buf.take (message.length % 64) ++ data).length =
      message.length % 64 + data.length := by
    rw [List.length_append, List.length_take]
    omega
  refine ⟨?_, ?_, ?_⟩
  · rw [hdiv, absorb_append table (by omega), h.abcd]
  · rw [hmod, hdiv, ← hfront, List.take_left, h.rest, List.drop_append_of_le_length (by omega)]
  · rw [List.length_append, hfront, List.length_drop]
    omega

theorem Held.full (h : Held pms.abcd pms.buf message) (data : List UInt8)
    (hfull : message.length % 64 + data.length = 64) :
    Held (md5Process pms.abcd (pms.buf.take (message.length % 64) ++ data))
      (pms.buf.take (message.length % 64) ++ data) (message ++ data) := by
  have hroom := h.room
  have hdiv : (message ++ data).length / 64 = message.length / 64 + 1 := by
    rw [List.length_append]
    omega
  have hmod : (message ++ data).length % 64 = 0 := by
    rw [List.length_append]
    omega
  have hblock : blockAt 64 (message ++ data) (message.length / 64 + 1) =
      pms.buf.take (message.length % 64) ++ data := by
    unfold blockAt blockStart
    rw [Nat.add_sub_cancel, h.rest, List.drop_append_of_le_length (by omega), List.take_of_length_le]
    rw [List.length_append, List.length_drop]
    omega
  refine ⟨?_, ?_, ?_⟩
  · rw [hdiv, absorb_succ, hblock, absorb_append table (by omega), ← h.abcd, md5Process_eq,
      registers_computeBlock]
  · rw [hmod, hdiv, List.take_zero, List.drop_eq_nil_of_le (by rw [List.length_append]; omega)]
  · rw [List.length_append, List.length_take]
    omega

theorem md5Append_absorbed (h : Absorbed pms message) (data : List UInt8) :
    Absorbed (md5Append data pms) (message ++ data) := by
  have hoffset := offset_eq h.count
  have hcount : pms.count0 + BitVec.ofNat 32 (data.length <<< 3) =
      BitVec.ofNat 32 (8 * (message ++ data).length) := by
    rw [h.count, count_append, List.length_append]
  unfold md5Append
  dsimp only
  rw [hoffset]
  split
  · rename_i hnone
    rw [List.length_eq_zero_iff.mp hnone, List.append_nil]
    exact h
  · split
    · rename_i hwhole
      exact ⟨hcount, processBlocks_held hwhole h.held data⟩
    · have hroom := h.held.room
      by_cases hless : message.length % 64 + data.length < 64
      · have hcopy : (if message.length % 64 + data.length > 64 then 64 - message.length % 64
            else data.length) = data.length := if_neg (by omega)
        rw [hcopy, if_pos hless, List.take_length]
        exact ⟨hcount, h.held.fill data hless⟩
      · have hcopy : (if message.length % 64 + data.length > 64 then 64 - message.length % 64
            else data.length) = 64 - message.length % 64 := by
          split <;> omega
        have htaken : (data.take (64 - message.length % 64)).length = 64 - message.length % 64 := by
          rw [List.length_take]
          omega
        have hempty : pms.buf.drop (message.length % 64 + (64 - message.length % 64)) = [] :=
          List.drop_eq_nil_of_le (by omega)
        have hfull := h.held.full (data.take (64 - message.length % 64)) (by omega)
        rw [hcopy, if_neg (by omega), hempty, List.append_nil]
        have hsplit : (message ++ data.take (64 - message.length % 64)) ++
            data.drop (64 - message.length % 64) = message ++ data := by
          rw [List.append_assoc, List.take_append_drop]
        refine ⟨hcount, ?_⟩
        rw [← hsplit]
        exact processBlocks_held (by rw [List.length_append]; omega) hfull _

theorem md5Append_count1 (buf : List UInt8) (h : message.length < 536870912) :
    (md5Append message (md5Init buf)).count1 = 0 := by
  have hhigh : message.length >>> 29 = 0 := by
    rw [Nat.shiftRight_eq_div_pow]
    omega
  unfold md5Append processBlocks md5Init
  dsimp only
  split
  · rfl
  · rw [hhigh, if_pos (by decide)]
    dsimp only
    rw [if_neg (by simp)]
    rfl

theorem pad_count {count : Word} {size : Nat} (h : count = BitVec.ofNat 32 (8 * size)) :
    ((55#32 - count >>> 3) &&& 63).toNat = zeros size := by
  have h63 : BitVec.toNat (63 : Word) = 2 ^ 6 - 1 := rfl
  have h55 : BitVec.toNat 55#32 = 55 := rfl
  rw [h, BitVec.toNat_and, h63, Nat.and_two_pow_sub_one_eq_mod, BitVec.toNat_sub,
    BitVec.toNat_ushiftRight, h55, BitVec.toNat_ofNat, Nat.shiftRight_eq_div_pow, zeros]
  omega

theorem bytes_registers (state : State) : stateBytes state = (registers state 0).bytes := rfl

theorem md5Finish_eq (h : Absorbed pms message) (hcount : pms.count1 = 0)
    (hsize : message.length < 536870912) : md5Finish pms = digest table message := by
  have hlength : wordBytes pms.count0 ++ wordBytes pms.count1 = lengthBytes message.length := by
    rw [h.count, hcount, lengthBytes_eq hsize, Nat.mul_comm]
  have hzeros : zeros message.length + 1 ≤ 64 := by
    unfold zeros
    omega
  have hpadded := md5Append_absorbed
    (md5Append_absorbed h (padding.take (zeros message.length + 1))) (lengthBytes message.length)
  rw [padding_take (by omega) hzeros, Nat.add_sub_cancel] at hpadded
  unfold md5Finish
  dsimp only
  rw [hlength, pad_count h.count, padding_take (by omega) hzeros, Nat.add_sub_cancel,
    bytes_registers, hpadded.held.abcd, digest, pad]

theorem md5DigestBig_eq (hbuf : buf.length = 64) (hsize : message.length < 536870912) :
    md5DigestBig buf message = digest table message := by
  have habsorbed := md5Append_absorbed (absorbed_init hbuf) message
  rw [List.nil_append] at habsorbed
  exact md5Finish_eq habsorbed (md5Append_count1 buf hsize) hsize

end BigEndian

theorem digest_table (message : List UInt8) : digest sineTable message = digest table message :=
  digest_congr (fun _ hj => table_eq hj) message

/-- Big-endian machines compute the digest of the standard. Little-endian ones do so too,
and then both sides agree, unless 56 bytes of the message lie behind the last whole block:
exactly then they digest other blocks. -/
theorem md5_digest_iff (buf message : List UInt8) (hbuf : buf.length = 64)
    (hsize : message.length < 536870912) :
    md5DigestBig buf message = digest sineTable message ∧
      (message.length % 64 ≠ 56 → md5Digest message = digest sineTable message ∧
        md5Digest message = md5DigestBig buf message) ∧
      (digestedBlocks message = paddedBlocks message ↔ message.length % 64 ≠ 56) := by
  have hbig : md5DigestBig buf message = digest sineTable message :=
    (md5DigestBig_eq hbuf hsize).trans (digest_table message).symm
  refine ⟨hbig, fun hend => ?_, digestedBlocks_iff hsize⟩
  have hlittle : md5Digest message = digest sineTable message :=
    (md5Digest_standard hsize hend).trans (digest_table message).symm
  exact ⟨hlittle, hlittle.trans hbig.symm⟩

/-- A message as long as those of `ttp_authenticate`. -/
theorem md5_digest_iff_sample :
    md5Digest (List.replicate 64 1) = digest sineTable (List.replicate 64 1) ∧
      md5Digest (List.replicate 64 1) =
        md5DigestBig (List.replicate 64 0) (List.replicate 64 1) :=
  (md5_digest_iff (List.replicate 64 0) (List.replicate 64 1) (by decide) (by decide)).2.1 (by decide)

/-- 56 zeros: the two machines do not authenticate each other. -/
theorem digest_differs :
    md5Digest (List.replicate 56 0) ≠ digest sineTable (List.replicate 56 0) ∧
      md5Digest (List.replicate 56 0) ≠
        md5DigestBig (List.replicate 64 0) (List.replicate 56 0) := by
  have hdiffers : ((digestedBlocks (List.replicate 56 0)).foldl (compress table) .initial).bytes ≠
      digest table (List.replicate 56 0) := by
    decide +kernel
  rw [md5Digest_eq, digest_table, md5DigestBig_eq (by decide) (by decide)]
  exact ⟨hdiffers, hdiffers⟩

/-- The secret is laid over the buffer again and again; its length is stored in 32 bits. -/
def overlay (secret buffer : List UInt8) : List UInt8 :=
  buffer.mapIdx fun offset byte => byte ^^^ secret.getD (offset % wrap32 secret.length) 0

/-- `prepare_proof`; a secret of length 0 divides by zero. -/
def prepareProof (md5 : List UInt8 → List UInt8) (secret buffer : List UInt8) :
    Option (List UInt8) :=
  if wrap32 secret.length = 0 ∧ buffer ≠ [] then none else some (md5 (overlay secret buffer))

@[simp] theorem overlay_length (secret buffer : List UInt8) :
    (overlay secret buffer).length = buffer.length := List.length_mapIdx

@[simp] theorem md5Digest_length (message : List UInt8) : (md5Digest message).length = 16 := by
  simp [md5Digest, stateBytes]

/-- The 64 random bytes of an authentication yield the same proof on both machines. -/
theorem prepareProof_agrees {buf : List UInt8} (hbuf : buf.length = 64) (secret random : List UInt8)
    (h : random.length = 64) :
    prepareProof md5Digest secret random = prepareProof (md5DigestBig buf) secret random := by
  have hlen : (overlay secret random).length = 64 := (overlay_length secret random).trans h
  unfold prepareProof
  rw [md5Digest_standard (by omega) (by omega), md5DigestBig_eq hbuf (by omega)]

end TsunamiUdp.Common

import TsunamiUdp.Server.Datagram

/-! The transfers one server process serves, one after the other, and what the
no-seek path of `build_datagram` reads in them. -/
namespace TsunamiUdp.Server
open Library

def defaultBlockSize : Nat := 1024

structure Process where
  builder : Builder
  blockSize : Nat
  transfers : Nat

inductive Call
  | openTransfer (size blockSize : Nat)
  | build (block type : Nat)

def Process.start (datagram : List UInt8) : Process :=
  ⟨⟨0, ⟨[], 0⟩, datagram⟩, defaultBlockSize, 0⟩

def Process.step (files : Nat → Nat → UInt8) (p : Process) : Call → Option Process
  | .openTransfer size blockSize => some
      { p with
        builder := { p.builder with file := ⟨(List.range size).map (files p.transfers), 0⟩ }
        blockSize := blockSize
        transfers := p.transfers + 1 }
  | .build block type => some { p with builder := buildDatagram p.blockSize block type p.builder }

/-- The call puts the bytes of the block it names into the datagram. -/
def Right (p : Process) : Call → Prop
  | .openTransfer _ _ => True
  | .build block type =>
    (buildDatagram p.blockSize block type p.builder).datagram =
      blockDatagram p.blockSize p.builder.file.contents block type p.builder.datagram

/-- Block sizes are positive, files fit `off_t`, and every block is in `1..block_count`
of the transfer it is built in. -/
def WellFormed : Nat → List Call → Prop
  | _, [] => True
  | _, .openTransfer size blockSize :: calls =>
    0 < blockSize ∧ size < 9223372036854775808 ∧ WellFormed (wrap32 (blocksOf size blockSize)) calls
  | blockCount, .build block _ :: calls =>
    (1 ≤ block ∧ block ≤ blockCount) ∧ WellFormed blockCount calls

/-- No transfer begins with a call for the block behind the last one built in the
process, block 1 of the first transfer apart. -/
def SeeksFirst : Nat → Bool → List Call → Prop
  | _, _, [] => True
  | last, _, .openTransfer _ _ :: calls => SeeksFirst last true calls
  | last, first, .build block _ :: calls =>
    ¬(first = true ∧ block = last + 1 ∧ 2 ≤ block) ∧ SeeksFirst block false calls

structure Aligned (p : Process) (blockCount last : Nat) (first : Bool) : Prop where
  size_pos : 0 < p.blockSize
  offsets : p.builder.file.contents.length < 9223372036854775808
  count : blockCount = wrap32 (blocksOf p.builder.file.contents.length p.blockSize)
  lastBlock : p.builder.lastBlock = last
  narrow : last < 4294967296
  opened : first = true → p.builder.file.position = 0
  reached : first = false →
    p.builder.file.position = min (p.blockSize * last) p.builder.file.contents.length

theorem aligned_start (datagram : List UInt8) : Aligned (.start datagram) 0 0 true where
  size_pos := Nat.succ_pos _
  offsets := Nat.succ_pos _
  count := by simp [Process.start, blocksOf, wrap32]
  lastBlock := rfl
  narrow := by decide
  opened := fun _ => rfl
  reached := fun h => by cases h

section Aligned
variable {p : Process} {blockCount last : Nat} {first : Bool}

theorem Aligned.open (h : Aligned p blockCount last first) (files : Nat → Nat → UInt8)
    {size blockSize : Nat} (hbs : 0 < blockSize) (hsize : size < 9223372036854775808) :
    Aligned
      { p with
        builder := { p.builder with file := ⟨(List.range size).map (files p.transfers), 0⟩ }
        blockSize := blockSize
        transfers := p.transfers + 1 }
      (wrap32 (blocksOf size blockSize)) last true where
  size_pos := hbs
  offsets := by simpa using hsize
  count := by simp
  lastBlock := h.lastBlock
  narrow := h.narrow
  opened := fun _ => rfl
  reached := fun hf => by cases hf

theorem Aligned.inFile (h : Aligned p blockCount last first) {block : Nat} (h1 : 1 ≤ block)
    (hle : block ≤ blockCount) : InFile p.blockSize p.builder.file.contents block where
  size_pos := h.size_pos
  first := h1
  last := by
    have := h.count
    have hmod : wrap32 (blocksOf p.builder.file.contents.length p.blockSize)
      ≤ blocksOf p.builder.file.contents.length p.blockSize := Nat.mod_le _ _
    omega
  narrow := by
    have := h.count
    have hmod : wrap32 (blocksOf p.builder.file.contents.length p.blockSize) < 4294967296 :=
      Nat.mod_lt _ (by decide)
    omega
  offsets := h.offsets

theorem Aligned.next_iff (h : Aligned p blockCount last first) {block : Nat} (h1 : 1 ≤ block) :
    block = wrap32 (p.builder.lastBlock + 1) ↔ block = last + 1 ∧ block < 4294967296 := by
  have := h.narrow
  rw [h.lastBlock]
  unfold wrap32
  omega

theorem Aligned.build (h : Aligned p blockCount last first) {block : Nat} (type : Nat) (h1 : 1 ≤ block)
    (hle : block ≤ blockCount) (hfresh : ¬(first = true ∧ block = last + 1 ∧ 2 ≤ block)) :
    Right p (.build block type) ∧
      Aligned { p with builder := buildDatagram p.blockSize block type p.builder }
        blockCount block false := by
  have hin := h.inFile h1 hle
  have hbuild := buildDatagram_right type hin fun hnext => by
    obtain ⟨hsucc, -⟩ := (h.next_iff h1).mp hnext
    cases hfirst : first with
    | true =>
      -- only block 1 is read at the beginning of a file
      have hone : block = 1 := by
        by_contra hne
        exact hfresh ⟨hfirst, hsucc, by omega⟩
      rw [h.opened hfirst, hone]
      rfl
    | false =>
      have hstart := blockStart_lt_size hin.size_pos h1 hin.last
      rw [h.reached hfirst]
      rw [hsucc, blockStart_succ] at hstart ⊢
      exact Nat.min_eq_left hstart.le
  refine ⟨congrArg Builder.datagram hbuild, ?_⟩
  rw [hbuild]
  exact ⟨h.size_pos, h.offsets, h.count, rfl, hin.narrow, fun hf => (by cases hf),
    fun _ => rfl⟩

end Aligned

theorem Aligned.served {files : Nat → Nat → UInt8} {calls : List Call} {p : Process}
    {blockCount last : Nat} {first : Bool} (h : Aligned p blockCount last first)
    (hwf : WellFormed blockCount calls) (hseeks : SeeksFirst last first calls) :
    Along (Process.step files) Right p calls := by
  induction calls generalizing p blockCount last first with
  | nil => trivial
  | cons call calls ih =>
    cases call with
    | openTransfer size blockSize =>
      obtain ⟨hbs, hsize, hwf⟩ := hwf
      refine ⟨trivial, fun p' hp' => ?_⟩
      cases hp'
      exact ih (h.open files hbs hsize) hwf hseeks
    | build block type =>
      obtain ⟨⟨h1, hle⟩, hwf⟩ := hwf
      obtain ⟨hright, hnext⟩ := h.build type h1 hle hseeks.1
      refine ⟨hright, fun p' hp' => ?_⟩
      cases hp'
      exact ih hnext hwf hseeks.2

/-- Files that show whether a block was read at the beginning. -/
def marked : Nat → Nat → UInt8 := fun _ offset => if offset = 0 then 1 else 0

theorem payload_head {block type : Nat} {payload rest : List UInt8} (h : 0 < payload.length) :
    (datagramHeader block type ++ payload ++ rest)[6]? = payload[0]? := by
  have hlen := datagramHeader_length block type
  rw [List.getElem?_append_left (by rw [List.length_append]; omega),
    List.getElem?_append_right hlen.le, hlen]

/-- A transfer's first call that does not seek reads block 1 under another number. -/
theorem Aligned.stale {p : Process} {blockCount last : Nat} {block type size : Nat}
    (h : Aligned p blockCount last true)
    (hmarked : p.builder.file.contents = (List.range size).map (marked 0))
    (h1 : 1 ≤ block) (hle : block ≤ blockCount) (hnext : block = last + 1) (h2 : 2 ≤ block) :
    ¬Right p (.build block type) := by
  have hin := h.inFile h1 hle
  have hsize : p.builder.file.contents.length = size := by simp [hmarked]
  have hstart := blockStart_lt_size hin.size_pos h1 hin.last
  have hstartPos : 0 < blockStart p.blockSize block := Nat.mul_pos h.size_pos (by omega)
  have hbyte : ∀ k, k < size → p.builder.file.contents[k]? = some (marked 0 k) := by
    intro k hk
    simp [hmarked, hk]
  have hread : (buildDatagram p.blockSize block type p.builder).datagram[6]? = some 1 := by
    have hfront : (p.builder.file.fread p.blockSize).1 =
        p.builder.file.contents.take p.blockSize := by
      simp only [File.fread, h.opened rfl, List.drop_zero]
    have hpos : 0 < (p.builder.file.contents.take p.blockSize).length := by
      have := h.size_pos
      rw [List.length_take]
      omega
    unfold buildDatagram
    rw [if_neg (not_not.mpr ((h.next_iff h1).mpr ⟨hnext, hin.narrow⟩))]
    dsimp only
    rw [hfront, payload_head hpos, List.getElem?_take, if_pos h.size_pos, hbyte 0 (by omega)]
    rfl
  have hwant : (blockDatagram p.blockSize p.builder.file.contents block type
      p.builder.datagram)[6]? = some 0 := by
    have hpos : 0 < (blockAt p.blockSize p.builder.file.contents block).length := by
      have := h.size_pos
      rw [blockAt_length]
      omega
    unfold blockDatagram
    dsimp only
    rw [payload_head hpos, blockAt_getElem?, if_pos h.size_pos, hbyte _ (by omega)]
    exact congrArg some (if_neg (by omega))
  intro hright
  rw [show (buildDatagram p.blockSize block type p.builder).datagram = _ from hright, hwant] at hread
  cases hread

theorem Aligned.seeks {calls : List Call} {p : Process} {blockCount last size : Nat} {first : Bool}
    (h : Aligned p blockCount last first)
    (hmarked : p.builder.file.contents = (List.range size).map (marked 0))
    (hwf : WellFormed blockCount calls) (hright : Along (Process.step marked) Right p calls) :
    SeeksFirst last first calls := by
  induction calls generalizing p blockCount last size first with
  | nil => trivial
  | cons call calls ih =>
    cases call with
    | openTransfer size' blockSize =>
      obtain ⟨hbs, hsize, hwf⟩ := hwf
      exact ih (h.open marked hbs hsize) rfl hwf (hright.2 _ rfl)
    | build block type =>
      obtain ⟨⟨h1, hle⟩, hwf⟩ := hwf
      have hfresh : ¬(first = true ∧ block = last + 1 ∧ 2 ≤ block) := by
        rintro ⟨rfl, hnext, h2⟩
        exact h.stale hmarked h1 hle hnext h2 hright.1
      obtain ⟨-, hnext⟩ := h.build type h1 hle hfresh
      exact ⟨hfresh, ih hnext ((buildDatagram_contents _ _ _ _).trans hmarked) hwf (hright.2 _ rfl)⟩

/-- Every call of every sequence of transfers puts the right bytes into the datagram,
whatever the files hold, exactly if no transfer begins one block behind the last one. -/
theorem served_right_iff (datagram : List UInt8) (calls : List Call) (hwf : WellFormed 0 calls) :
    (∀ files, Along (Process.step files) Right (.start datagram) calls) ↔
      SeeksFirst 0 true calls :=
  ⟨fun h => (aligned_start datagram).seeks (show [] = (List.range 0).map (marked 0) from rfl)
      hwf (h marked),
    fun h _ => (aligned_start datagram).served hwf h⟩

/-- Two transfers that begin with block 1. -/
theorem served_right_iff_sample :
    WellFormed 0 [.openTransfer 3 2, .build 1 79, .build 2 88, .openTransfer 5 2, .build 1 79,
        .build 3 82] ∧
      ∀ files, Along (Process.step files) Right (.start [])
        [.openTransfer 3 2, .build 1 79, .build 2 88, .openTransfer 5 2, .build 1 79, .build 3 82] := by
  have hwf : WellFormed 0 [.openTransfer 3 2, .build 1 79, .build 2 88, .openTransfer 5 2,
      .build 1 79, .build 3 82] := by simp [WellFormed, blocksOf, wrap32]
  exact ⟨hwf, (served_right_iff [] _ hwf).mpr (by simp [SeeksFirst])⟩

/-- A transfer of one block, then a request for block 2 of the next file before its
first block was sent: the datagram carries the wrong bytes. -/
theorem served_wrong_after_one_block : ¬∀ files, Along (Process.step files) Right (.start [])
    [.openTransfer 1 1, .build 1 88, .openTransfer 2 1, .build 2 82] := by
  intro h
  have hwrong := (((h marked).2 _ rfl).2 _ rfl).2 _ rfl
  have hsame : (_ : List UInt8) = _ := hwrong.1
  revert hsame
  decide

end TsunamiUdp.Server

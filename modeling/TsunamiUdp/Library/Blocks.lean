import Mathlib.Data.List.Basic
import Mathlib.Algebra.Order.Ring.Nat
import Mathlib.Tactic.Ring

/-! A sequence cut into blocks of one size, numbered from 1, the last one possibly
shorter: how many there are, where they lie, and how they make up the whole. -/
namespace TsunamiUdp.Library

variable {α : Type*}

def blocksOf (size blockSize : Nat) : Nat :=
  size / blockSize + if size % blockSize = 0 then 0 else 1

def blockStart (blockSize i : Nat) : Nat := blockSize * (i - 1)

def blockAt (blockSize : Nat) (l : List α) (i : Nat) : List α :=
  (l.drop (blockStart blockSize i)).take blockSize

section Counting
variable {size blockSize i : Nat}

theorem size_le_blocks (hbs : 0 < blockSize) : size ≤ blockSize * blocksOf size blockSize := by
  have hdiv := Nat.div_add_mod size blockSize
  have hmod := Nat.mod_lt size hbs
  unfold blocksOf
  split
  · rw [Nat.add_zero]
    omega
  · rw [Nat.mul_add]
    omega

theorem blocks_before_lt_size (hbs : 0 < blockSize) (hi : i < blocksOf size blockSize) :
    blockSize * i < size := by
  have hdiv := Nat.div_add_mod size blockSize
  unfold blocksOf at hi
  have hle : blockSize * i ≤ blockSize * (size / blockSize) := by
    apply Nat.mul_le_mul_left
    split at hi <;> omega
  split at hi
  · have hlt : blockSize * i < blockSize * (size / blockSize) :=
      Nat.mul_lt_mul_of_pos_left (by omega) hbs
    omega
  · omega

theorem blockStart_lt_size (hbs : 0 < blockSize) (h1 : 1 ≤ i) (hi : i ≤ blocksOf size blockSize) :
    blockStart blockSize i < size :=
  blocks_before_lt_size hbs (by omega)

theorem blockStart_succ (blockSize i : Nat) : blockStart blockSize (i + 1) = blockSize * i := rfl

variable (blockSize) in
theorem blockStart_add (h1 : 1 ≤ i) : blockStart blockSize i + blockSize = blockSize * i := by
  obtain ⟨j, rfl⟩ : ∃ j, i = j + 1 := ⟨i - 1, by omega⟩
  rw [blockStart_succ, Nat.mul_succ]

theorem blockSize_of_last (hbs : 0 < blockSize) (hsize : 0 < size) :
    let last := blocksOf size blockSize
    size - blockStart blockSize last =
      if size % blockSize = 0 then blockSize else size % blockSize := by
  have hdiv := Nat.div_add_mod size blockSize
  have hmod := Nat.mod_lt size hbs
  intro last
  dsimp only [last, blocksOf, blockStart]
  split
  · rename_i hzero
    have hpos : size / blockSize ≠ 0 := by
      intro hnone
      rw [hnone] at hdiv
      omega
    obtain ⟨q, hq⟩ := Nat.exists_eq_succ_of_ne_zero hpos
    rw [hq, Nat.mul_succ] at hdiv
    rw [hq, Nat.add_zero, Nat.add_sub_cancel]
    omega
  · rw [Nat.add_sub_cancel]
    omega

end Counting

section Contents
variable {blockSize i : Nat}

@[simp] theorem blockAt_length (blockSize : Nat) (l : List α) (i : Nat) :
    (blockAt blockSize l i).length = min blockSize (l.length - blockStart blockSize i) := by
  simp [blockAt]

theorem blockAt_full {l : List α} (hbs : 0 < blockSize) (h1 : 1 ≤ i)
    (hi : i < blocksOf l.length blockSize) : (blockAt blockSize l i).length = blockSize := by
  have hend := blocks_before_lt_size hbs hi
  have hadd := blockStart_add blockSize h1
  rw [blockAt_length]
  omega

theorem blockAt_getElem? (blockSize : Nat) (l : List α) (i k : Nat) :
    (blockAt blockSize l i)[k]? =
      if k < blockSize then l[blockStart blockSize i + k]? else none := by
  simp only [blockAt, List.getElem?_take, List.getElem?_drop]

theorem flatMap_blockAt (blockSize : Nat) (l : List α) (n : Nat) :
    ((List.range n).flatMap fun k : Nat => blockAt blockSize l (k + 1)) = l.take (blockSize * n) := by
  induction n with
  | zero => rfl
  | succ n ih =>
    rw [List.range_succ, List.flatMap_append, ih, List.flatMap_singleton, Nat.mul_succ, List.take_add,
      blockAt, blockStart_succ]

end Contents

/-- Data written at an offset; a gap behind the end is filled up. -/
def writeAt (fill : α) (l : List α) (offset : Nat) (data : List α) : List α :=
  l.take offset ++ List.replicate (offset - l.length) fill ++ data ++ l.drop (offset + data.length)

@[simp] theorem writeAt_length (fill : α) (l : List α) (offset : Nat) (data : List α) :
    (writeAt fill l offset data).length = max l.length (offset + data.length) := by
  simp only [writeAt, List.length_append, List.length_take, List.length_replicate, List.length_drop]
  omega

theorem writeAt_inside {fill : α} {l : List α} {offset k : Nat} {data : List α}
    (hk : offset ≤ k) (hk' : k < offset + data.length) :
    (writeAt fill l offset data)[k]? = data[k - offset]? := by
  have hlen : (l.take offset ++ List.replicate (offset - l.length) fill).length = offset := by
    simp only [List.length_append, List.length_take, List.length_replicate]
    omega
  rw [writeAt, List.getElem?_append_left (by rw [List.length_append, hlen]; omega),
    List.getElem?_append_right (by omega), hlen]

theorem writeAt_before {fill : α} {l : List α} {offset k : Nat} {data : List α}
    (hk : k < offset) (hl : k < l.length) : (writeAt fill l offset data)[k]? = l[k]? := by
  rw [writeAt, List.append_assoc, List.append_assoc,
    List.getElem?_append_left (by rw [List.length_take]; omega), List.getElem?_take, if_pos hk]

theorem writeAt_behind {fill : α} {l : List α} {offset k : Nat} {data : List α}
    (hk : offset + data.length ≤ k) : (writeAt fill l offset data)[k]? = l[k]? := by
  have hlen : (l.take offset ++ List.replicate (offset - l.length) fill ++ data).length
      = offset + data.length := by
    simp only [List.length_append, List.length_take, List.length_replicate]
    omega
  rw [writeAt, List.getElem?_append_right (by omega), hlen, List.getElem?_drop]
  congr 1
  omega

/-- The numbered blocks are in their places, and nothing is behind the end of the whole. -/
structure Assembled (blockSize : Nat) (whole : List α) (blocks : List Nat) (l : List α) : Prop where
  inPlace : ∀ b ∈ blocks, ∀ k, blockStart blockSize b ≤ k → k < blockStart blockSize b + blockSize →
    k < whole.length → l[k]? = whole[k]?
  length : l.length ≤ whole.length

namespace Assembled
variable {blockSize : Nat} {whole l : List α} {blocks : List Nat}

theorem nil (blockSize : Nat) (whole : List α) : Assembled blockSize whole [] [] :=
  ⟨(fun b hb => by cases hb), Nat.zero_le _⟩

theorem write (h : Assembled blockSize whole blocks l) (fill : α) (hbs : 0 < blockSize) {block : Nat}
    (h1 : 1 ≤ block) (hle : block ≤ blocksOf whole.length blockSize) :
    Assembled blockSize whole (blocks ++ [block])
      (writeAt fill l (blockStart blockSize block) (blockAt blockSize whole block)) := by
  have hlen := blockAt_length blockSize whole block
  have hstart := blockStart_lt_size hbs h1 hle
  constructor
  · intro b hb k hk hk' hsize
    by_cases hin : blockStart blockSize block ≤ k ∧ k < blockStart blockSize block + blockSize
    · rw [writeAt_inside hin.1 (by omega), blockAt_getElem?, if_pos (by omega)]
      congr 1
      omega
    · have hold : b ∈ blocks := by
        rcases List.mem_append.mp hb with hb | hb
        · exact hb
        · obtain rfl := List.mem_singleton.mp hb
          exact absurd ⟨hk, hk'⟩ hin
      have hsame := h.inPlace b hold k hk hk' hsize
      rw [← hsame]
      by_cases hbefore : k < blockStart blockSize block
      · apply writeAt_before hbefore
        by_contra hnot
        rw [List.getElem?_eq_none (by omega), List.getElem?_eq_getElem hsize] at hsame
        cases hsame
      · exact writeAt_behind (by omega)
  · rw [writeAt_length]
    have := h.length
    omega

theorem complete (h : Assembled blockSize whole blocks l) (hbs : 0 < blockSize)
    (hall : ∀ b, 1 ≤ b → b ≤ blocksOf whole.length blockSize → b ∈ blocks) : l = whole := by
  apply List.ext_getElem?
  intro k
  by_cases hk : k < whole.length
  · have hdiv := Nat.div_add_mod k blockSize
    have hmod := Nat.mod_lt k hbs
    have hsize : whole.length ≤ blockSize * blocksOf whole.length blockSize := size_le_blocks hbs
    have hle : k / blockSize + 1 ≤ blocksOf whole.length blockSize :=
      Nat.div_lt_of_lt_mul (by omega)
    refine h.inPlace _ (hall _ (Nat.succ_pos _) hle) k ?_ ?_ hk
    · rw [blockStart_succ]
      omega
    · rw [blockStart_succ]
      omega
  · have hlen := h.length
    rw [List.getElem?_eq_none (by omega), List.getElem?_eq_none (by omega)]

end Assembled

end TsunamiUdp.Library

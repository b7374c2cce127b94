import TsunamiUdp.Library.Blocks

/-! What some of the blocks of a sequence make when each is written where it belongs: gaps
between them are filled up, and behind the last of them there is nothing. -/
namespace TsunamiUdp.Library

variable {α : Type*}

def patchedEnd (blockSize size : Nat) : List Nat → Nat
  | [] => 0
  | b :: blocks => max (min (blockSize * b) size) (patchedEnd blockSize size blocks)

def patched (fill : α) (blockSize : Nat) (whole : List α) (blocks : List Nat) : List α :=
  (List.range (patchedEnd blockSize whole.length blocks)).map fun k =>
    if k / blockSize + 1 ∈ blocks then whole.getD k fill else fill

section Patches
variable {fill : α} {blockSize block k : Nat} {whole l : List α} {blocks : List Nat}

theorem writeAt_gap {offset : Nat} {data : List α} (hl : l.length ≤ k) (hk : k < offset) :
    (writeAt fill l offset data)[k]? = some fill := by
  have hlen : (l.take offset).length = l.length := by
    rw [List.length_take]
    omega
  rw [writeAt, List.append_assoc, List.append_assoc, List.getElem?_append_right (by omega), hlen,
    List.getElem?_append_left (by rw [List.length_replicate]; omega), List.getElem?_replicate,
    if_pos (by omega)]

@[simp] theorem patchedEnd_append (blockSize size : Nat) (blocks : List Nat) (block : Nat) :
    patchedEnd blockSize size (blocks ++ [block]) =
      max (patchedEnd blockSize size blocks) (min (blockSize * block) size) := by
  induction blocks with
  | nil => simp [patchedEnd]
  | cons b blocks ih =>
    rw [List.cons_append, patchedEnd, ih, patchedEnd, Nat.max_assoc]

@[simp] theorem patched_length (fill : α) (blockSize : Nat) (whole : List α) (blocks : List Nat) :
    (patched fill blockSize whole blocks).length = patchedEnd blockSize whole.length blocks := by
  rw [patched, List.length_map, List.length_range]

theorem patched_getElem? : (patched fill blockSize whole blocks)[k]? =
    if k < patchedEnd blockSize whole.length blocks then
      some (if k / blockSize + 1 ∈ blocks then whole.getD k fill else fill)
    else none := by
  rw [patched, List.getElem?_map]
  split
  · rename_i hlt
    rw [List.getElem?_range hlt]
    rfl
  · rename_i hge
    rw [List.getElem?_eq_none (by rw [List.length_range]; omega)]
    rfl

theorem block_of_position (hbs : 0 < blockSize) (h1 : 1 ≤ block) :
    k / blockSize + 1 = block ↔ blockStart blockSize block ≤ k ∧
      k < blockStart blockSize block + blockSize := by
  obtain ⟨j, rfl⟩ : ∃ j, block = j + 1 := ⟨block - 1, by omega⟩
  rw [blockStart_succ, Nat.add_right_cancel_iff, Nat.div_eq_iff hbs, Nat.mul_comm]
  omega

theorem patchedEnd_le (blockSize size : Nat) (blocks : List Nat) :
    patchedEnd blockSize size blocks ≤ size := by
  induction blocks with
  | nil => exact Nat.zero_le size
  | cons b blocks ih =>
    rw [patchedEnd]
    omega

theorem lt_patchedEnd (hbs : 0 < blockSize) {size : Nat} (hk : k < size)
    (hmem : k / blockSize + 1 ∈ blocks) : k < patchedEnd blockSize size blocks := by
  have hdiv := Nat.div_add_mod k blockSize
  have hmod := Nat.mod_lt k hbs
  induction blocks with
  | nil => cases hmem
  | cons b blocks ih =>
    rw [patchedEnd]
    rcases List.mem_cons.mp hmem with rfl | hmem
    · rw [Nat.mul_succ]
      omega
    · have := ih hmem
      omega

theorem patched_write (hbs : 0 < blockSize) (h1 : 1 ≤ block)
    (hle : block ≤ blocksOf whole.length blockSize) :
    writeAt fill (patched fill blockSize whole blocks) (blockStart blockSize block)
        (blockAt blockSize whole block) =
      patched fill blockSize whole (blocks ++ [block]) := by
  have hlen := blockAt_length blockSize whole block
  have hstart := blockStart_lt_size hbs h1 hle
  have hend := blockStart_add blockSize h1
  have hold := patched_length fill blockSize whole blocks
  have hnew := patchedEnd_append blockSize whole.length blocks block
  have hin := fun k => block_of_position (k := k) hbs h1
  apply List.ext_getElem?
  intro k
  rw [patched_getElem?, hnew]
  by_cases hblock : k / blockSize + 1 = block
  · obtain ⟨hge, hlt⟩ := (hin k).mp hblock
    have hmem : k / blockSize + 1 ∈ blocks ++ [block] := by simp [hblock]
    rw [if_pos hmem]
    by_cases hsize : k < whole.length
    · rw [writeAt_inside hge (by omega), blockAt_getElem?, if_pos (by omega), if_pos (by omega),
        Nat.add_sub_cancel' hge, List.getD_eq_getElem?_getD, List.getElem?_eq_getElem hsize,
        Option.getD_some]
    · have hshort := patchedEnd_le blockSize whole.length blocks
      rw [if_neg (by omega), writeAt_behind (by omega), patched_getElem?, if_neg (by omega)]
  · have hmem : k / blockSize + 1 ∈ blocks ++ [block] ↔ k / blockSize + 1 ∈ blocks := by
      simp [hblock]
    have hout := (hin k).not.mp hblock
    simp only [hmem]
    by_cases hbefore : k < blockStart blockSize block
    · rw [if_pos (by omega)]
      by_cases hlong : k < patchedEnd blockSize whole.length blocks
      · rw [writeAt_before hbefore (by omega), patched_getElem?, if_pos hlong]
      · have hnone : k / blockSize + 1 ∉ blocks := by
          intro hmem
          exact hlong (lt_patchedEnd hbs (by omega) hmem)
        rw [writeAt_gap (by omega) hbefore, if_neg hnone]
    · rw [writeAt_behind (by omega), patched_getElem?]
      apply if_congr _ rfl rfl
      omega

theorem patched_all (hbs : 0 < blockSize)
    (hall : ∀ b, 1 ≤ b → b ≤ blocksOf whole.length blockSize → b ∈ blocks) :
    patched fill blockSize whole blocks = whole := by
  have hmem : ∀ k, k < whole.length → k / blockSize + 1 ∈ blocks := by
    intro k hk
    have hsize : whole.length ≤ blockSize * blocksOf whole.length blockSize := size_le_blocks hbs
    apply hall _ (Nat.succ_pos _)
    exact Nat.div_lt_of_lt_mul (by omega)
  apply List.ext_getElem?
  intro k
  rw [patched_getElem?]
  by_cases hk : k < whole.length
  · rw [if_pos (lt_patchedEnd hbs hk (hmem k hk)), if_pos (hmem k hk), List.getD_eq_getElem?_getD,
      List.getElem?_eq_getElem hk, Option.getD_some]
  · have hshort := patchedEnd_le blockSize whole.length blocks
    rw [if_neg (by omega), List.getElem?_eq_none (by omega)]

end Patches

end TsunamiUdp.Library

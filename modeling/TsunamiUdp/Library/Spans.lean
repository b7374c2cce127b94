import Mathlib.Data.List.Basic

/-! Spans of a block of memory that are read and written at once, and a block that is cut into
pieces of one size. -/
namespace TsunamiUdp.Library

variable {α : Type*}

def readSpan (cells : List α) (offset count : Nat) : Option (List α) :=
  if offset + count ≤ cells.length then some ((cells.drop offset).take count) else none

def writeSpan (cells : List α) (offset : Nat) (data : List α) : Option (List α) :=
  if offset + data.length ≤ cells.length then
    some (cells.take offset ++ data ++ cells.drop (offset + data.length))
  else none

def piece (size : Nat) (cells : List α) (i : Nat) : List α := (cells.drop (i * size)).take size

section Spans
variable {cells cells' data : List α} {offset size i j k : Nat}

theorem writeSpan_isSome : (writeSpan cells offset data).isSome ↔ offset + data.length ≤ cells.length := by
  unfold writeSpan
  split <;> simp [*]

theorem writeSpan_length (h : writeSpan cells offset data = some cells') :
    cells'.length = cells.length := by
  obtain ⟨hle, heq⟩ := Option.ite_none_right_eq_some.mp h
  cases heq
  simp only [List.length_append, List.length_take, List.length_drop]
  omega

theorem writeSpan_getElem? (h : writeSpan cells offset data = some cells') (k : Nat) :
    cells'[k]? = if offset ≤ k ∧ k < offset + data.length then data[k - offset]? else cells[k]? := by
  obtain ⟨hle, heq⟩ := Option.ite_none_right_eq_some.mp h
  cases heq
  have htake : (cells.take offset).length = offset := by
    rw [List.length_take]
    omega
  by_cases hbefore : k < offset
  · rw [if_neg (by omega), List.append_assoc, List.getElem?_append_left (by omega),
      List.getElem?_take, if_pos hbefore]
  · by_cases hinside : k < offset + data.length
    · rw [if_pos (by omega), List.getElem?_append_left (by rw [List.length_append]; omega),
        List.getElem?_append_right (by omega), htake]
    · rw [if_neg (by omega), List.getElem?_append_right (by rw [List.length_append]; omega),
        List.length_append, htake, List.getElem?_drop]
      congr 1
      omega

theorem piece_getElem? (size : Nat) (cells : List α) (i k : Nat) :
    (piece size cells i)[k]? = if k < size then cells[i * size + k]? else none := by
  rw [piece, List.getElem?_take, List.getElem?_drop]

theorem piece_length (h : (i + 1) * size ≤ cells.length) : (piece size cells i).length = size := by
  rw [Nat.succ_mul] at h
  rw [piece, List.length_take, List.length_drop]
  omega

theorem readSpan_piece (h : (i + 1) * size ≤ cells.length) :
    readSpan cells (i * size) size = some (piece size cells i) := by
  rw [Nat.succ_mul] at h
  exact if_pos h

theorem piece_writeSpan (h : writeSpan cells (i * size) data = some cells')
    (hsize : data.length ≤ size) :
    piece size cells' i = data ++ (piece size cells i).drop data.length := by
  apply List.ext_getElem?
  intro k
  rw [piece_getElem?, writeSpan_getElem? h]
  by_cases hfront : k < data.length
  · rw [if_pos (by omega), if_pos (by omega), List.getElem?_append_left hfront,
      Nat.add_sub_cancel_left]
  · rw [if_neg (show ¬(i * size ≤ i * size + k ∧ i * size + k < i * size + data.length) by omega),
      List.getElem?_append_right (by omega), List.getElem?_drop, piece_getElem?,
      Nat.add_sub_cancel' (by omega)]

theorem pieces_apart (hij : i ≠ j) : (i + 1) * size ≤ j * size ∨ (j + 1) * size ≤ i * size := by
  rcases Nat.lt_or_gt_of_ne hij with hlt | hlt
  · exact .inl (Nat.mul_le_mul_right size hlt)
  · exact .inr (Nat.mul_le_mul_right size hlt)

theorem piece_writeSpan_other (h : writeSpan cells (i * size) data = some cells')
    (hsize : data.length ≤ size) (hij : i ≠ j) : piece size cells' j = piece size cells j := by
  have happart : (i + 1) * size ≤ j * size ∨ (j + 1) * size ≤ i * size := pieces_apart hij
  simp only [Nat.succ_mul] at happart
  apply List.ext_getElem?
  intro k
  rw [piece_getElem?, piece_getElem?, writeSpan_getElem? h]
  split
  · rw [if_neg (by omega)]
  · rfl

end Spans

end TsunamiUdp.Library

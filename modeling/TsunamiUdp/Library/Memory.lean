import Mathlib.Logic.Function.Basic
import Mathlib.Data.List.Basic

/-! Blocks of memory whose accesses are checked: what is outside of a block is neither read
nor written. -/
namespace TsunamiUdp.Library

variable {α : Type*}

def readCell (cells : List α) (i : Nat) : Option α := cells[i]?

def writeCell (cells : List α) (i : Nat) (a : α) : Option (List α) :=
  if i < cells.length then some (cells.set i a) else none

def readCells (cells : List α) (n : Nat) : Option (List α) :=
  if n ≤ cells.length then some (cells.take n) else none

def fillCells (a : α) : Nat → Nat → List α → Option (List α)
  | 0, _, cells => some cells
  | n + 1, i, cells => (writeCell cells i a).bind (fillCells a n (i + 1))

/-- A block of another size that begins with what was in the old one; `fresh` is what
happens to be behind that. -/
def reallocate (fresh : Nat → α) (size : Nat) (cells : List α) : List α :=
  (List.range size).map fun i => cells.getD i (fresh i)

def contents (rest : α) (cells : List α) : Nat → α := fun i => cells.getD i rest

section Access
variable {cells : List α} {i n : Nat} {a rest : α}

theorem readCell_of_lt (h : i < cells.length) : readCell cells i = some (contents rest cells i) := by
  rw [readCell, contents, List.getD_eq_getElem?_getD, List.getElem?_eq_getElem h, Option.getD_some]

theorem writeCell_of_lt (h : i < cells.length) : writeCell cells i a = some (cells.set i a) := if_pos h

theorem readCells_of_le (h : n ≤ cells.length) : readCells cells n = some (cells.take n) := if_pos h

/-! The cell behind the front of a block. -/

@[simp] theorem readCell_append (front rest : List α) (a : α) :
    readCell (front ++ a :: rest) front.length = some a := by
  rw [readCell, List.getElem?_append_right (Nat.le_refl _), Nat.sub_self, List.getElem?_cons_zero]

@[simp] theorem writeCell_append (front rest : List α) (a b : α) :
    writeCell (front ++ a :: rest) front.length b = some (front ++ b :: rest) := by
  have hinside : front.length < (front ++ a :: rest).length := by
    rw [List.length_append, List.length_cons]
    omega
  rw [writeCell_of_lt hinside, List.set_append_right _ _ (Nat.le_refl _), Nat.sub_self, List.set_cons_zero]

theorem contents_of_ge (h : cells.length ≤ i) : contents rest cells i = rest := by
  rw [contents, List.getD_eq_getElem?_getD, List.getElem?_eq_none h, Option.getD_none]

theorem contents_set (h : i < cells.length) :
    contents rest (cells.set i a) = Function.update (contents rest cells) i a := by
  funext k
  simp only [contents, List.getD_eq_getElem?_getD, List.getElem?_set]
  by_cases hk : i = k
  · subst hk
    rw [if_pos rfl, if_pos h, Option.getD_some, Function.update_self]
  · rw [if_neg hk, Function.update_of_ne (Ne.symm hk)]
    rfl

@[simp] theorem contents_replicate : contents a (List.replicate n a) = fun _ => a := by
  funext k
  simp only [contents, List.getD_eq_getElem?_getD, List.getElem?_replicate]
  split <;> rfl

theorem fillCells_of_le (h : i + n ≤ cells.length) : ∃ cells', fillCells a n i cells = some cells' ∧
    cells'.length = cells.length ∧
    contents rest cells' = fun k => if i ≤ k ∧ k < i + n then a else contents rest cells k := by
  induction n generalizing i cells with
  | zero =>
    refine ⟨cells, rfl, rfl, ?_⟩
    funext k
    rw [if_neg (by omega)]
  | succ n ih =>
    have hlength : (cells.set i a).length = cells.length := List.length_set
    obtain ⟨cells', hfill, hsize, hcells⟩ := @ih (cells.set i a) (i + 1) (by omega)
    refine ⟨cells', ?_, hsize.trans hlength, ?_⟩
    · rw [fillCells, writeCell_of_lt (by omega), Option.bind_some, hfill]
    · rw [hcells, contents_set (by omega)]
      funext k
      by_cases hk : k = i
      · rw [hk, if_neg (by omega), if_pos (by omega), Function.update_self]
      · rw [Function.update_of_ne hk]
        exact if_congr (by omega) rfl rfl

@[simp] theorem reallocate_length (fresh : Nat → α) (size : Nat) (cells : List α) :
    (reallocate fresh size cells).length = size := by
  rw [reallocate, List.length_map, List.length_range]

theorem contents_reallocate {fresh : Nat → α} {size : Nat} (h : i < cells.length) (hsize : i < size) :
    contents rest (reallocate fresh size cells) i = contents rest cells i := by
  simp only [contents, reallocate, List.getD_eq_getElem?_getD, List.getElem?_map,
    List.getElem?_range hsize, Option.map_some, Option.getD_some, List.getElem?_eq_getElem h]

theorem fillCells_reallocate (fresh : Nat → α) (n : Nat) (cells : List α) (rest : α) : ∃ cells',
    fillCells rest n cells.length (reallocate fresh (cells.length + n) cells) = some cells' ∧
      cells'.length = cells.length + n ∧ contents rest cells' = contents rest cells := by
  have hlength := reallocate_length fresh (cells.length + n) cells
  obtain ⟨cells', hfill, hsize, hcontents⟩ := @fillCells_of_le α
    (reallocate fresh (cells.length + n) cells) cells.length n rest rest (by omega)
  refine ⟨cells', hfill, hsize.trans hlength, ?_⟩
  rw [hcontents]
  funext k
  by_cases hold : k < cells.length
  · rw [if_neg (by omega), contents_reallocate hold (by omega)]
  · rw [contents_of_ge (by omega : cells.length ≤ k)]
    split
    · rfl
    · exact contents_of_ge (by omega)

end Access

end TsunamiUdp.Library

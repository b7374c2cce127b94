import Mathlib.Data.List.Basic
import Mathlib.Data.List.Range
import Mathlib.Logic.Function.Basic
import Mathlib.Tactic.Linarith
import TsunamiUdp.Library.Runs

/-! Circular windows over a fixed number of slots, and the bounded queue they
implement. The window is given by its first slot and its length, so a full and
an empty window share their end slot and only the length tells them apart. -/
namespace TsunamiUdp.Library

/-- The slot `offset` places after `base`. -/
def slot (cap base offset : Int) : Int := (base + offset) % cap

theorem slot_nonneg {cap : Int} (hcap : 0 < cap) (base offset : Int) :
    0 ≤ slot cap base offset :=
  Int.emod_nonneg _ (by omega)

theorem slot_lt {cap : Int} (hcap : 0 < cap) (base offset : Int) :
    slot cap base offset < cap :=
  Int.emod_lt_of_pos _ hcap

theorem slot_zero {cap base : Int} (h0 : 0 ≤ base) (h : base < cap) :
    slot cap base 0 = base := by
  rw [slot, Int.add_zero, Int.emod_eq_of_lt h0 h]

@[simp] theorem slot_slot (cap base i j : Int) :
    slot cap (slot cap base i) j = slot cap base (i + j) := by
  unfold slot
  rw [Int.emod_add_emod, Int.add_assoc]

theorem slot_inj {cap base i j : Int} (hi : 0 ≤ i) (hi' : i < cap) (hj : 0 ≤ j) (hj' : j < cap)
    (h : slot cap base i = slot cap base j) : i = j := by
  unfold slot at h
  have hsub : (base + i - (base + j)) % cap = 0 := Int.emod_eq_emod_iff_emod_sub_eq_zero.mp h
  have hdiff : cap ∣ i - j := by
    have := Int.dvd_of_emod_eq_zero hsub
    rwa [show base + i - (base + j) = i - j by omega] at this
  have hzero : i - j = 0 :=
    Int.eq_zero_of_abs_lt_dvd hdiff (abs_lt.mpr ⟨by omega, by omega⟩)
  omega

theorem slot_eq_base_iff {cap base i : Int} (h0 : 0 ≤ base) (h : base < cap) (hi : 0 < i)
    (hi' : i ≤ cap) : slot cap base i = base ↔ i = cap := by
  constructor
  · intro heq
    by_contra hne
    have := slot_inj (by omega) (by omega) le_rfl (by omega) (heq.trans (slot_zero h0 h).symm)
    omega
  · intro heq
    rw [heq, slot, Int.add_emod_right, Int.emod_eq_of_lt h0 h]

/-- The elements of the window of length `n` from `base`, oldest first. -/
def window {α : Type*} (cap : Int) (mem : Int → α) (base : Int) (n : Nat) : List α :=
  (List.range n).map fun k : Nat => mem (slot cap base k)

@[simp] theorem window_zero {α : Type*} (cap : Int) (mem : Int → α) (base : Int) :
    window cap mem base 0 = [] := rfl

@[simp] theorem window_length {α : Type*} (cap : Int) (mem : Int → α) (base : Int) (n : Nat) :
    (window cap mem base n).length = n := by
  simp [window]

theorem window_succ {α : Type*} (cap : Int) (mem : Int → α) (base : Int) (n : Nat) :
    window cap mem base (n + 1) = window cap mem base n ++ [mem (slot cap base n)] := by
  simp [window, List.range_succ]

theorem window_cons {α : Type*} (cap : Int) (mem : Int → α) (base : Int) (n : Nat) :
    window cap mem base (n + 1) =
      mem (slot cap base 0) :: window cap mem (slot cap base 1) n := by
  simp only [window, List.range_succ_eq_map, List.map_cons, List.map_map]
  congr 1
  apply List.map_congr_left
  intro k _
  simp only [Function.comp_apply, Nat.succ_eq_add_one, slot_slot]
  congr 2
  omega

theorem window_update {α : Type*} {cap base k : Int} {n : Nat} (mem : Int → α) (x : α)
    (hn : (n : Int) ≤ k) (hk : k < cap) :
    window cap (Function.update mem (slot cap base k) x) base n = window cap mem base n := by
  apply List.map_congr_left
  intro i hi
  have hin : (i : Int) < n := by exact_mod_cast List.mem_range.mp hi
  apply Function.update_of_ne
  intro heq
  have := slot_inj (by omega) (by omega) (by omega) hk heq
  omega

inductive QueueOp (α : Type*)
  | enqueue (a : α)
  | dequeue (a : α)

inductive QueueStep {α : Type*} (bound : Nat) : List α → QueueOp α → List α → Prop
  | enqueue (q : List α) (a : α) : q.length < bound → QueueStep bound q (.enqueue a) (q ++ [a])
  | dequeue (q : List α) (a : α) : QueueStep bound (a :: q) (.dequeue a) q

def enqueued {α : Type*} : List (QueueOp α) → List α
  | [] => []
  | .enqueue a :: ops => a :: enqueued ops
  | .dequeue _ :: ops => enqueued ops

def dequeued {α : Type*} : List (QueueOp α) → List α
  | [] => []
  | .enqueue _ :: ops => dequeued ops
  | .dequeue a :: ops => a :: dequeued ops

/-- Nothing is lost, duplicated or reordered between the two ends of the queue. -/
theorem queue_conservation {α : Type*} {bound : Nat} {q q' : List α} {ops : List (QueueOp α)}
    (h : Trace (QueueStep bound) q ops q') : q ++ enqueued ops = dequeued ops ++ q' := by
  induction h with
  | nil q => simp [enqueued, dequeued]
  | cons first _ ih =>
    cases first with
    | enqueue q a _ => simpa [enqueued, dequeued] using ih
    | dequeue q a => simpa [enqueued, dequeued] using ih

end TsunamiUdp.Library

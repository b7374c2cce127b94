import Mathlib.Data.List.TakeWhile

/-! Tokens that are taken one after the other from the front of a text. -/
namespace TsunamiUdp.Library

variable {α : Type*} [DecidableEq α]

/-- The text up to the next separator, and what is behind that; `none` at the end. -/
def takeToken (sep : α) (l : List α) : Option (List α × List α) :=
  match l with
  | [] => none
  | a :: l => some ((a :: l).takeWhile (· ≠ sep), ((a :: l).dropWhile (· ≠ sep)).tail)

def takeTokens (sep : α) : Nat → List α → List (List α)
  | 0, _ => []
  | fuel + 1, l =>
    match takeToken sep l with
    | none => []
    | some (token, rest) => token :: takeTokens sep fuel rest

/-- The pieces between the separators; an empty one at the end does not count. -/
def pieces (sep : α) (l : List α) : List (List α) :=
  if (l.splitOn sep).getLast? = some [] then (l.splitOn sep).dropLast else l.splitOn sep

section Pieces
variable {sep : α} {l : List α}

theorem takeToken_of_ne_nil (h : l ≠ []) :
    takeToken sep l = some (l.takeWhile (· ≠ sep), (l.dropWhile (· ≠ sep)).tail) := by
  obtain ⟨a, l, rfl⟩ := List.exists_cons_of_ne_nil h
  rfl

@[simp] theorem pieces_nil : pieces sep [] = [] := rfl

theorem split_at_sep {first : List α} (h : sep ∉ first) (rest : List α) :
    (first ++ sep :: rest).takeWhile (· ≠ sep) = first ∧
      (first ++ sep :: rest).dropWhile (· ≠ sep) = sep :: rest := by
  have hkeep : ∀ a ∈ first, decide (a ≠ sep) = true := fun a ha =>
    decide_eq_true fun heq => h (heq ▸ ha)
  have hstop : ¬(fun a => decide (a ≠ sep)) sep = true := by simp
  constructor
  · rw [List.takeWhile_append_of_pos hkeep,
      List.takeWhile_cons_of_neg (p := fun a => decide (a ≠ sep)) hstop, List.append_nil]
  · rw [List.dropWhile_append_of_pos hkeep,
      List.dropWhile_cons_of_neg (p := fun a => decide (a ≠ sep)) hstop]

theorem whole_without_sep (h : sep ∉ l) : l.takeWhile (· ≠ sep) = l ∧ l.dropWhile (· ≠ sep) = [] := by
  have hkeep : ∀ a ∈ l, decide (a ≠ sep) = true := fun a ha => decide_eq_true fun heq => h (heq ▸ ha)
  exact ⟨List.takeWhile_eq_self_iff.mpr hkeep, List.dropWhile_eq_nil_iff.mpr hkeep⟩

theorem pieces_of_ne_nil (h : l ≠ []) :
    pieces sep l = l.takeWhile (· ≠ sep) :: pieces sep (l.dropWhile (· ≠ sep)).tail := by
  by_cases hmem : sep ∈ l
  · obtain ⟨first, rest, rfl, hfirst⟩ := List.eq_append_cons_of_mem hmem
    obtain ⟨htake, hdrop⟩ := split_at_sep hfirst rest
    obtain ⟨piece, others, hsplit⟩ := List.exists_cons_of_ne_nil (List.splitOn_ne_nil sep rest)
    rw [htake, hdrop, List.tail_cons, pieces, List.splitOn_append_cons_self_of_not_mem hfirst, pieces,
      hsplit, List.getLast?_cons_cons, List.dropLast_cons_cons]
    split <;> rfl
  · obtain ⟨htake, hdrop⟩ := whole_without_sep hmem
    rw [htake, hdrop, List.tail_nil, pieces_nil, pieces, List.splitOn_eq_singleton hmem, if_neg]
    simpa using h

theorem takeTokens_eq {fuel : Nat} (h : l.length ≤ fuel) : takeTokens sep fuel l = pieces sep l := by
  induction fuel generalizing l with
  | zero =>
    rw [List.eq_nil_of_length_eq_zero (Nat.le_zero.mp h)]
    rfl
  | succ fuel ih =>
    by_cases hnil : l = []
    · rw [hnil]
      rfl
    · have hshort : (l.dropWhile (· ≠ sep)).tail.length ≤ fuel := by
        have hle := (List.dropWhile_suffix (l := l) fun a => decide (a ≠ sep)).length_le
        have hpos := List.length_pos_iff.mpr hnil
        rw [List.length_tail]
        omega
      rw [takeTokens, takeToken_of_ne_nil hnil, pieces_of_ne_nil hnil]
      exact congrArg _ (ih hshort)

theorem takeToken_cases (sep : α) (l : List α) :
    (takeToken sep l = none ∧ pieces sep l = []) ∨
      ∃ token rest, takeToken sep l = some (token, rest) ∧
        pieces sep l = token :: pieces sep rest := by
  by_cases h : l = []
  · exact .inl ⟨by rw [h]; rfl, by rw [h]; rfl⟩
  · exact .inr ⟨_, _, takeToken_of_ne_nil h, pieces_of_ne_nil h⟩

end Pieces

def maximalRuns {α : Type*} (sep : α → Bool) (l : List α) : List (List α) :=
  (l.splitOnP sep).filter fun piece => !piece.isEmpty

section Runs
variable {α : Type*} {sep : α → Bool} {a : α} {run l : List α}

@[simp] theorem maximalRuns_nil : maximalRuns sep [] = [] := rfl

theorem maximalRuns_cons (h : sep a = true) : maximalRuns sep (a :: l) = maximalRuns sep l := by
  have hsplit := List.splitOnP_append_cons (p := sep) [] l h
  rw [List.splitOnP_nil, List.nil_append] at hsplit
  rw [maximalRuns, hsplit]
  rfl

@[simp] theorem maximalRuns_dropWhile (l : List α) :
    maximalRuns sep (l.dropWhile sep) = maximalRuns sep l := by
  induction l with
  | nil => rfl
  | cons a l ih =>
    by_cases ha : sep a = true
    · rw [List.dropWhile_cons_of_pos ha, ih, maximalRuns_cons ha]
    · rw [List.dropWhile_cons_of_neg ha]

theorem maximalRuns_append (hsome : run ≠ []) (hrun : ∀ a ∈ run, sep a = false)
    (hends : ∀ a ∈ l.head?, sep a = true) :
    maximalRuns sep (run ++ l) = run :: maximalRuns sep l := by
  have hkeep : (fun piece : List α => !piece.isEmpty) run = true := by
    rw [Bool.not_eq_true', List.isEmpty_eq_false_iff]
    exact hsome
  cases l with
  | nil =>
    rw [List.append_nil, maximalRuns, List.splitOnP_eq_singleton hrun]
    exact List.filter_cons_of_pos hkeep
  | cons a l =>
    have ha := hends a rfl
    rw [maximalRuns, List.splitOnP_append_cons _ _ ha, List.splitOnP_eq_singleton hrun,
      List.singleton_append, maximalRuns_cons ha]
    exact List.filter_cons_of_pos hkeep

end Runs

end TsunamiUdp.Library

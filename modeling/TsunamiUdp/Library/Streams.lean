import TsunamiUdp.Library.Text

/-! A stream that is read in pieces of whatever size and ends in some way, and loops that
read from it until they have enough. -/
namespace TsunamiUdp.Library

/-- What arrives together; it is not empty. -/
structure Chunk (α : Type*) where
  first : α
  rest : List α

def Chunk.toList {α : Type*} (c : Chunk α) : List α := c.first :: c.rest

inductive Ending
  | closed
  | failed
deriving DecidableEq

structure Stream (α : Type*) where
  chunks : List (Chunk α)
  ending : Ending

inductive ReadResult (α : Type*)
  | data (elements : List α)
  | zero
  | minus

namespace Stream
variable {α : Type*}

def toList (s : Stream α) : List α := s.chunks.flatMap Chunk.toList

def putBack (left : List α) (chunks : List (Chunk α)) : List (Chunk α) :=
  match left with
  | [] => chunks
  | a :: rest => ⟨a, rest⟩ :: chunks

def read (s : Stream α) (count : Nat) : ReadResult α × Stream α :=
  match s.chunks with
  | [] =>
    match s.ending with
    | .closed => (.zero, s)
    | .failed => (.minus, s)
  | c :: cs => (.data (c.toList.take count), ⟨putBack (c.toList.drop count) cs, s.ending⟩)

/-- Read again and again until there are `count` elements; a read that returns nothing
changes nothing, and one that fails ends the loop. `none` if the fuel does not suffice. -/
def readAll : Nat → Stream α → Nat → List α → Option (List α × Stream α)
  | 0, _, _, _ => none
  | fuel + 1, s, count, got =>
    if got.length < count then
      match s.read (count - got.length) with
      | (.data elements, s) => readAll fuel s count (got ++ elements)
      | (.zero, s) => readAll fuel s count got
      | (.minus, s) => some (got, s)
    else some (got, s)

/-- Read one by one up to an element that ends the line, or until the buffer is full;
`none` if a read returns nothing. -/
def readUntil (stop : α → Bool) : Nat → Stream α → Option (List α) × Stream α
  | 0, s => (some [], s)
  | room + 1, s =>
    match s.read 1 with
    | (.data (a :: _), s) =>
      if stop a then (some [a], s)
      else ((readUntil stop room s).1.map (a :: ·), (readUntil stop room s).2)
    | (_, s) => (none, s)

section Spec
variable {s : Stream α}

theorem toList_putBack (left : List α) (chunks : List (Chunk α)) (ending : Ending) :
    toList ⟨putBack left chunks, ending⟩ = left ++ toList ⟨chunks, ending⟩ := by
  cases left with
  | nil => rfl
  | cons a rest => rfl

theorem read_cases (s : Stream α) {count : Nat} (hcount : 0 < count) :
    (s.toList = [] ∧ s.read count = (if s.ending = .closed then .zero else .minus, s)) ∨
      ∃ a elements s', s.read count = (.data (a :: elements), s') ∧ elements.length < count ∧
        s.toList = a :: elements ++ s'.toList ∧ s'.ending = s.ending := by
  obtain ⟨chunks, ending⟩ := s
  cases chunks with
  | nil =>
    left
    cases ending <;> exact ⟨rfl, rfl⟩
  | cons c cs =>
    right
    obtain ⟨k, rfl⟩ : ∃ k, count = k + 1 := ⟨count - 1, by omega⟩
    refine ⟨c.first, c.rest.take k, _, rfl, ?_, ?_, rfl⟩
    · have hle := List.length_take_le k c.rest
      omega
    · rw [toList_putBack, Chunk.toList, List.drop_succ_cons, List.cons_append, ← List.append_assoc,
        List.take_append_drop]
      rfl

theorem readAll_some {fuel count : Nat} {got : List α} (hgot : got.length ≤ count)
    (hfuel : count - got.length < fuel)
    (h : count ≤ got.length + s.toList.length ∨ s.ending = .failed) :
    ∃ s', readAll fuel s count got = some (got ++ s.toList.take (count - got.length), s') ∧
      s'.toList = s.toList.drop (count - got.length) ∧ s'.ending = s.ending := by
  induction fuel generalizing s got with
  | zero => omega
  | succ fuel ih =>
    by_cases hdone : got.length < count
    · rw [readAll, if_pos hdone]
      rcases read_cases s (show 0 < count - got.length by omega) with
        ⟨hnil, hread⟩ | ⟨a, elements, s', hread, hfew, hsplit, hending⟩
      · have hfailed : s.ending = .failed := by
          refine h.resolve_left fun hle => ?_
          rw [hnil, List.length_nil] at hle
          omega
        refine ⟨s, ?_, ?_, rfl⟩
        · rw [hread, hfailed, hnil, List.take_nil, List.append_nil]
          rfl
        · rw [hnil, List.drop_nil]
      · have hlen : (got ++ a :: elements).length = got.length + (a :: elements).length :=
          List.length_append
        have hcons : (a :: elements).length = elements.length + 1 := List.length_cons
        have htotal : s.toList.length = (a :: elements).length + s'.toList.length := by
          rw [hsplit, List.length_append]
        have hleft : count - got.length = (a :: elements).length + (count - (got ++ a :: elements).length) := by
          omega
        have hnext : count ≤ (got ++ a :: elements).length + s'.toList.length ∨ s'.ending = .failed := by
          rcases h with henough | hfailed
          · left
            omega
          · exact .inr (hending.trans hfailed)
        obtain ⟨s'', hrun, hrest, hend⟩ := ih (by omega) (by omega) hnext
        refine ⟨s'', ?_, ?_, hend.trans hending⟩
        · rw [hread]
          refine hrun.trans ?_
          rw [hsplit, hleft, List.take_length_add_append, List.append_assoc]
        · rw [hrest, hsplit, hleft, List.drop_length_add_append]
    · have hzero : count - got.length = 0 := by omega
      refine ⟨s, ?_, ?_, rfl⟩
      · rw [readAll, if_neg hdone, hzero, List.take_zero, List.append_nil]
      · rw [hzero, List.drop_zero]

/-- At the end of a stream that is closed too early the loop goes on forever. -/
theorem readAll_none {count : Nat} {got : List α} (hclosed : s.ending = .closed)
    (hshort : got.length + s.toList.length < count) (fuel : Nat) : readAll fuel s count got = none := by
  induction fuel generalizing s got with
  | zero => rfl
  | succ fuel ih =>
    rw [readAll, if_pos (by omega)]
    rcases read_cases s (show 0 < count - got.length by omega) with
      ⟨hnil, hread⟩ | ⟨a, elements, s', hread, hfew, hsplit, hending⟩
    · rw [hread, if_pos hclosed]
      exact ih hclosed hshort
    · rw [hsplit, List.length_append] at hshort
      rw [hread]
      refine ih (hending.trans hclosed) ?_
      rw [List.length_append]
      omega

theorem readAll_mono {fuel fuel' count : Nat} {got : List α} {r : List α × Stream α}
    (hle : fuel ≤ fuel') (h : readAll fuel s count got = some r) :
    readAll fuel' s count got = some r := by
  induction fuel generalizing fuel' s got with
  | zero => cases h
  | succ fuel ih =>
    obtain ⟨k, rfl⟩ : ∃ k, fuel' = k + 1 := ⟨fuel' - 1, by omega⟩
    rw [readAll] at h ⊢
    by_cases hdone : got.length < count
    · rw [if_pos hdone] at h ⊢
      generalize s.read (count - got.length) = result at h ⊢
      obtain ⟨result, s'⟩ := result
      cases result with
      | data elements => exact ih (Nat.le_of_succ_le_succ hle) h
      | zero => exact ih (Nat.le_of_succ_le_succ hle) h
      | minus => exact h
    · rw [if_neg hdone] at h ⊢
      exact h

section Whole
variable (s) (count : Nat)

theorem readAll_enough {fuel : Nat} (hfuel : count < fuel)
    (h : count ≤ s.toList.length ∨ s.ending = .failed) :
    ∃ s', readAll fuel s count [] = some (s.toList.take count, s') ∧
      s'.toList = s.toList.drop count ∧ s'.ending = s.ending := by
  have hstart : count ≤ ([] : List α).length + s.toList.length ∨ s.ending = .failed := by
    rwa [List.length_nil, Nat.zero_add]
  exact readAll_some (Nat.zero_le count) hfuel hstart

theorem readAll_whole {fuel : Nat} {bytes : List α} {s' : Stream α}
    (h : readAll fuel s count [] = some (bytes, s')) :
    (count ≤ s.toList.length ∨ s.ending = .failed) ∧ bytes = s.toList.take count ∧
      s'.toList = s.toList.drop count ∧ s'.ending = s.ending := by
  have hends : count ≤ s.toList.length ∨ s.ending = .failed := by
    by_contra hnot
    obtain ⟨hshort, hopen⟩ := not_or.mp hnot
    have hclosed : s.ending = .closed := by
      cases hs : s.ending with
      | closed => rfl
      | failed => exact absurd hs hopen
    have hstart : ([] : List α).length + s.toList.length < count := by
      rw [List.length_nil, Nat.zero_add]
      exact Nat.lt_of_not_le hshort
    cases (readAll_none hclosed hstart fuel).symm.trans h
  have hfuel : count < max fuel count + 1 := Nat.lt_succ_of_le (Nat.le_max_right fuel count)
  obtain ⟨t, hrun, hrest, hend⟩ := readAll_enough s count hfuel hends
  cases (readAll_mono ((Nat.le_max_left fuel count).trans (Nat.le_succ _)) h).symm.trans hrun
  exact ⟨hends, rfl, hrest, hend⟩

theorem readAll_ends_iff :
    (∃ fuel r, readAll fuel s count [] = some r) ↔ count ≤ s.toList.length ∨ s.ending = .failed := by
  constructor
  · intro ⟨fuel, r, h⟩
    exact (readAll_whole s count h).1
  · intro h
    obtain ⟨s', hrun, -⟩ := readAll_enough s count (Nat.lt_succ_self count) h
    exact ⟨_, _, hrun⟩

end Whole

theorem readUntil_toList (stop : α → Bool) (room : Nat) (s : Stream α) :
    (readUntil stop room s).1 = (takeLine stop room s.toList).map Prod.fst ∧
      (readUntil stop room s).2.toList = ((takeLine stop room s.toList).map Prod.snd).getD [] ∧
      (readUntil stop room s).2.ending = s.ending := by
  induction room generalizing s with
  | zero => exact ⟨rfl, rfl, rfl⟩
  | succ room ih =>
    rcases read_cases s Nat.zero_lt_one with ⟨hnil, hread⟩ | ⟨a, elements, s', hread, hfew, hsplit, hending⟩
    · rw [readUntil, hread, hnil]
      split
      · rename_i heq
        split at heq <;> cases heq
      · rename_i heq
        cases heq
        exact ⟨rfl, hnil, rfl⟩
    · have hone : elements = [] := List.length_eq_zero_iff.mp (by omega)
      subst hone
      rw [readUntil, hread, hsplit, List.cons_append, List.nil_append, takeLine]
      dsimp only
      split
      · exact ⟨rfl, rfl, hending⟩
      · obtain ⟨hline, hrest, hend⟩ := ih s'
        refine ⟨?_, ?_, hend.trans hending⟩
        · rw [hline, Option.map_map, Option.map_map]
          rfl
        · rw [hrest, Option.map_map]
          rfl

end Spec

end Stream

end TsunamiUdp.Library

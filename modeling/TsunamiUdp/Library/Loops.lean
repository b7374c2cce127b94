import Mathlib.Tactic.TypeStar

/-! Loops that test, run their body and start again, and bodies that may leave them. -/
namespace TsunamiUdp.Library

variable {S : Type*}

/-- The state behind the loop, or that the body has left it; `none` if the fuel does not
suffice. -/
def loop (goesOn : S → Bool) (body : S → Option S) : Nat → S → Option (Option S)
  | 0, _ => none
  | fuel + 1, s =>
    if goesOn s then
      match body s with
      | none => some none
      | some s' => loop goesOn body fuel s'
    else some (some s)

def LoopEnds (goesOn : S → Bool) (body : S → Option S) (s : S) : Prop :=
  ∃ fuel r, loop goesOn body fuel s = some r

section Rules
variable {goesOn : S → Bool} {body : S → Option S} {J : S → Prop} {s : S}

theorem loop_ends (measure : S → Nat)
    (pass : ∀ s s', J s → goesOn s = true → body s = some s' → J s' ∧ measure s' < measure s)
    (h : J s) : LoopEnds goesOn body s := by
  generalize hm : measure s = m
  induction m using Nat.strongRecOn generalizing s with
  | ind m ih =>
    by_cases hgo : goesOn s = true
    · cases hbody : body s with
      | none => exact ⟨1, none, by rw [loop, if_pos hgo, hbody]⟩
      | some s' =>
        obtain ⟨hJ, hless⟩ := pass s s' h hgo hbody
        obtain ⟨fuel, r, hr⟩ := ih (measure s') (hm ▸ hless) hJ rfl
        exact ⟨fuel + 1, r, by rw [loop, if_pos hgo, hbody]; exact hr⟩
    · exact ⟨1, some s, by rw [loop, if_neg hgo]⟩

/-- What every pass preserves holds behind the loop, where the test fails. -/
theorem loop_invariant
    (pass : ∀ s s', J s → goesOn s = true → body s = some s' → J s') (h : J s) {fuel : Nat} {t : S}
    (hrun : loop goesOn body fuel s = some (some t)) : J t ∧ goesOn t = false := by
  induction fuel generalizing s with
  | zero => cases hrun
  | succ fuel ih =>
    rw [loop] at hrun
    by_cases hgo : goesOn s = true
    · rw [if_pos hgo] at hrun
      cases hbody : body s with
      | none =>
        rw [hbody] at hrun
        cases hrun
      | some s' =>
        rw [hbody] at hrun
        exact ih (pass s s' h hgo hbody) hrun
    · rw [if_neg hgo] at hrun
      cases hrun
      exact ⟨h, Bool.eq_false_iff.mpr hgo⟩

theorem loop_endless (pass : ∀ s, J s → goesOn s = true ∧ ∃ s', body s = some s' ∧ J s') (h : J s)
    (fuel : Nat) : loop goesOn body fuel s = none := by
  induction fuel generalizing s with
  | zero => rfl
  | succ fuel ih =>
    obtain ⟨hgo, s', hbody, hJ⟩ := pass s h
    rw [loop, if_pos hgo, hbody]
    exact ih hJ

theorem loop_total {f : S → S} {fuel : Nat} {r : Option S}
    (hrun : loop goesOn (fun s => some (f s)) fuel s = some r) : ∃ t, r = some t := by
  induction fuel generalizing s with
  | zero => cases hrun
  | succ fuel ih =>
    rw [loop] at hrun
    split at hrun
    · exact ih hrun
    · cases hrun
      exact ⟨s, rfl⟩

end Rules

end TsunamiUdp.Library

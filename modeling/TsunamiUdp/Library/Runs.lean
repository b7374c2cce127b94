import Mathlib.Data.List.Induction

/-! Runs of a partially enabled transition function, the invariant rule over
them, and the rule for forward simulations. Nothing here knows the program. -/
namespace TsunamiUdp.Library

variable {S A : Type*}

/-- Take the actions in order; `none` as soon as one of them is not enabled. -/
def run (step : S → A → Option S) : S → List A → Option S
  | s, [] => some s
  | s, a :: as => (step s a).bind fun s' => run step s' as

@[simp] theorem run_cons (step : S → A → Option S) (s : S) (a : A) (as : List A) :
    run step s (a :: as) = (step s a).bind fun s' => run step s' as := rfl

theorem run_cons_some {step : S → A → Option S} {s t : S} {a : A} {as : List A}
    (h : run step s (a :: as) = some t) :
    ∃ s', step s a = some s' ∧ run step s' as = some t :=
  Option.bind_eq_some_iff.mp h

theorem run_append (step : S → A → Option S) (s : S) (as bs : List A) :
    run step s (as ++ bs) = (run step s as).bind fun s' => run step s' bs := by
  induction as generalizing s with
  | nil => rfl
  | cons a as ih =>
    simp only [List.cons_append, run_cons]
    cases step s a with
    | none => rfl
    | some s' => exact ih s'

theorem run_append_of {step : S → A → Option S} {s t u : S} {as bs : List A}
    (h : run step s as = some t) (h' : run step t bs = some u) :
    run step s (as ++ bs) = some u := by
  rw [run_append, h]
  exact h'

theorem run_invariant {step : S → A → Option S} {P : S → Prop}
    (preserved : ∀ s a s', P s → step s a = some s' → P s')
    {s t : S} {as : List A} (h0 : P s) (h : run step s as = some t) : P t := by
  induction as generalizing s with
  | nil => cases h; exact h0
  | cons a as ih =>
    obtain ⟨s', hs, h⟩ := run_cons_some h
    exact ih (preserved s a s' h0 hs) h

theorem run_history {step : S → A → Option S} {P : List A → S → Prop} {s : S} (h0 : P [] s)
    (preserved : ∀ as u a t, run step s as = some u → P as u → step u a = some t →
      P (as ++ [a]) t)
    {as : List A} {t : S} (h : run step s as = some t) : P as t := by
  induction as using List.reverseRecOn generalizing t with
  | nil =>
    cases h
    exact h0
  | append_singleton as a ih =>
    rw [run_append] at h
    obtain ⟨u, hu, hlast⟩ := Option.bind_eq_some_iff.mp h
    obtain ⟨t', ht', hdone⟩ := run_cons_some hlast
    cases hdone
    exact preserved as u a t hu (ih hu) ht'

/-- Every step of the run meets the condition in the state it is taken from. -/
def Along (step : S → A → Option S) (ok : S → A → Prop) : S → List A → Prop
  | _, [] => True
  | s, a :: as => ok s a ∧ ∀ s', step s a = some s' → Along step ok s' as

theorem Along.of_mem {step : S → A → Option S} {ok : S → A → Prop} {s : S} {as : List A}
    (h : ∀ s, ∀ a ∈ as, ok s a) : Along step ok s as := by
  induction as generalizing s with
  | nil => trivial
  | cons a as ih =>
    exact ⟨h s a List.mem_cons_self, fun s' _ => ih fun s a' ha' => h s a' (List.mem_cons_of_mem a ha')⟩

theorem Along.of_invariant {step : S → A → Option S} {ok : S → A → Prop} {P : S → Prop}
    (preserved : ∀ s a s', P s → step s a = some s' → P s') (h : ∀ s a, P s → ok s a) {s : S}
    (h0 : P s) (as : List A) : Along step ok s as := by
  induction as generalizing s with
  | nil => trivial
  | cons a as ih => exact ⟨h s a h0, fun s' hs => ih (preserved s a s' h0 hs)⟩

theorem Along.last {step : S → A → Option S} {ok : S → A → Prop} {s t : S} {as : List A} {a : A}
    (h : Along step ok s (as ++ [a])) (hrun : run step s as = some t) : ok t a := by
  induction as generalizing s with
  | nil =>
    cases hrun
    exact h.1
  | cons b as ih =>
    obtain ⟨s', hs, hrun⟩ := run_cons_some hrun
    exact ih (h.2 s' hs) hrun

theorem Along.append {step : S → A → Option S} {ok : S → A → Prop} {s t : S} {as bs : List A}
    (h : Along step ok s as) (hrun : run step s as = some t) (h' : Along step ok t bs) :
    Along step ok s (as ++ bs) := by
  induction as generalizing s with
  | nil =>
    cases hrun
    exact h'
  | cons a as ih =>
    obtain ⟨s', hs, hrun⟩ := run_cons_some hrun
    refine ⟨h.1, fun u hu => ?_⟩
    cases hs.symm.trans hu
    exact ih (h.2 s' hs) hrun

theorem Along.and {step : S → A → Option S} {ok ok' : S → A → Prop} {s : S} {as : List A}
    (h : Along step ok s as) (h' : Along step ok' s as) :
    Along step (fun s a => ok s a ∧ ok' s a) s as := by
  induction as generalizing s with
  | nil => trivial
  | cons a as ih => exact ⟨⟨h.1, h'.1⟩, fun s' hs => ih (h.2 s' hs) (h'.2 s' hs)⟩

/-- Some run whose steps all meet the condition leads from the one state to the other. -/
def ReachesAlong (step : S → A → Option S) (ok : S → A → Prop) (s t : S) : Prop :=
  ∃ as, Along step ok s as ∧ run step s as = some t

theorem ReachesAlong.refl (step : S → A → Option S) (ok : S → A → Prop) (s : S) :
    ReachesAlong step ok s s :=
  ⟨[], trivial, rfl⟩

theorem ReachesAlong.trans {step : S → A → Option S} {ok : S → A → Prop} {s t u : S}
    (h : ReachesAlong step ok s t) (h' : ReachesAlong step ok t u) : ReachesAlong step ok s u := by
  obtain ⟨as, hok, has⟩ := h
  obtain ⟨bs, hok', hbs⟩ := h'
  exact ⟨as ++ bs, hok.append has hok', run_append_of has hbs⟩

theorem ReachesAlong.step {step : S → A → Option S} {ok : S → A → Prop} {s t : S} {a : A}
    (hok : ok s a) (h : step s a = some t) : ReachesAlong step ok s t :=
  ⟨[a], ⟨hok, fun _ _ => trivial⟩, by rw [run_cons, h]; rfl⟩

/-- The rule for progress: if every good state leads to the goal, or to a good state of
smaller rank, the goal can be reached from all of them. -/
theorem reachesAlong_of_rank {step : S → A → Option S} {ok : S → A → Prop} {P Q : S → Prop}
    (rank : S → Nat)
    (progress : ∀ s, P s → ∃ t, ReachesAlong step ok s t ∧ (Q t ∨ (P t ∧ rank t < rank s)))
    {s : S} (h : P s) : ∃ t, ReachesAlong step ok s t ∧ Q t := by
  generalize hr : rank s = r
  induction r using Nat.strongRecOn generalizing s with
  | ind r ih =>
    obtain ⟨t, hreach, hgoal | ⟨hgood, hless⟩⟩ := progress s h
    · exact ⟨t, hreach, hgoal⟩
    · obtain ⟨u, hrest, hgoal⟩ := ih _ (hr ▸ hless) hgood rfl
      exact ⟨u, hreach.trans hrest, hgoal⟩

/-- The invariant rule for runs whose steps all meet a condition. -/
theorem run_invariant_along {step : S → A → Option S} {ok : S → A → Prop} {P : S → Prop}
    (preserved : ∀ s a s', P s → ok s a → step s a = some s' → P s')
    {s t : S} {as : List A} (h0 : P s) (hok : Along step ok s as)
    (h : run step s as = some t) : P t := by
  induction as generalizing s with
  | nil => cases h; exact h0
  | cons a as ih =>
    obtain ⟨s', hs, h⟩ := run_cons_some h
    exact ih (preserved s a s' h0 hok.1 hs) (hok.2 s' hs) h

theorem ReachesAlong.keeps {step : S → A → Option S} {ok : S → A → Prop} {P : S → Prop} {s t : S}
    (h : ReachesAlong step ok s t) (preserved : ∀ s a s', P s → ok s a → step s a = some s' → P s')
    (h0 : P s) : P t := by
  obtain ⟨as, hok, has⟩ := h
  exact run_invariant_along preserved h0 hok has

instance decidableAlong {step : S → A → Option S} {ok : S → A → Prop}
    [∀ s a, Decidable (ok s a)] : (s : S) → (as : List A) → Decidable (Along step ok s as)
  | _, [] => isTrue trivial
  | s, a :: as =>
    match hs : step s a with
    | none => decidable_of_iff (ok s a)
        ⟨fun hok => ⟨hok, fun s' hs' => by rw [hs] at hs'; cases hs'⟩, fun h => h.1⟩
    | some s' =>
      have : Decidable (Along step ok s' as) := decidableAlong s' as
      decidable_of_iff (ok s a ∧ Along step ok s' as)
        ⟨fun h => ⟨h.1, fun u hu => by rw [hs] at hu; cases hu; exact h.2⟩,
          fun h => ⟨h.1, h.2 s' hs⟩⟩

def Always (step : S → A → Option S) (P : S → Prop) : S → List A → Prop
  | s, [] => P s
  | s, a :: as => P s ∧ ∀ s', step s a = some s' → Always step P s' as

theorem Always.head {step : S → A → Option S} {P : S → Prop} {s : S} {as : List A}
    (h : Always step P s as) : P s := by
  cases as with
  | nil => exact h
  | cons a as => exact h.1

/-- If a condition on a step is exactly what it takes to preserve the property, and what
else the argument needs survives such steps, then the property holds all along a run if
and only if all its steps meet the condition. -/
theorem always_iff_along {step : S → A → Option S} {ok : S → A → Prop} {P J : S → Prop}
    (exact_step : ∀ s a s', P s → J s → step s a = some s' → (P s' ↔ ok s a))
    (keeps : ∀ s a s', P s → J s → ok s a → step s a = some s' → J s')
    {s t : S} {as : List A} (h0 : P s) (hJ : J s) (h : run step s as = some t) :
    Always step P s as ↔ Along step ok s as := by
  induction as generalizing s with
  | nil => exact iff_of_true h0 trivial
  | cons a as ih =>
    obtain ⟨s', hs, h⟩ := run_cons_some h
    have hstep := exact_step s a s' h0 hJ hs
    constructor
    · intro hall
      have hnext := hall.2 s' hs
      have hok := hstep.mp hnext.head
      refine ⟨hok, fun u hu => ?_⟩
      cases hs.symm.trans hu
      exact (ih hnext.head (keeps s a s' h0 hJ hok hs) h).mp hnext
    · intro halong
      have hok := halong.1
      refine ⟨h0, fun u hu => ?_⟩
      cases hs.symm.trans hu
      exact (ih (hstep.mpr hok) (keeps s a s' h0 hJ hok hs) h).mpr (halong.2 s' hs)

theorem along_iff {step : S → A → Option S} {given good ok : S → A → Prop} {J : S → Prop}
    (same : ∀ s a s', J s → given s a → step s a = some s' → (good s a ↔ ok s a))
    (keeps : ∀ s a s', J s → given s a → good s a → step s a = some s' → J s')
    {s t : S} {as : List A} (hJ : J s) (hgiven : Along step given s as)
    (h : run step s as = some t) : Along step good s as ↔ Along step ok s as := by
  induction as generalizing s with
  | nil => exact Iff.rfl
  | cons a as ih =>
    obtain ⟨s', hs, h⟩ := run_cons_some h
    have hhere := same s a s' hJ hgiven.1 hs
    constructor
    · intro hall
      refine ⟨hhere.mp hall.1, fun u hu => ?_⟩
      cases hs.symm.trans hu
      exact (ih (keeps s a s' hJ hgiven.1 hall.1 hs) (hgiven.2 s' hs) h).mp (hall.2 s' hs)
    · intro hall
      have hgood := hhere.mpr hall.1
      refine ⟨hgood, fun u hu => ?_⟩
      cases hs.symm.trans hu
      exact (ih (keeps s a s' hJ hgiven.1 hgood hs) (hgiven.2 s' hs) h).mpr (hall.2 s' hs)

def labels {L : Type*} (step : S → A → Option S) (label : S → A → Option L) :
    S → List A → List L
  | _, [] => []
  | s, a :: as => (label s a).toList ++
      match step s a with
      | none => []
      | some s' => labels step label s' as

inductive Trace {B L : Type*} (astep : B → L → B → Prop) : B → List L → B → Prop
  | nil (b : B) : Trace astep b [] b
  | cons {b b' b'' : B} {l : L} {ls : List L} :
      astep b l b' → Trace astep b' ls b'' → Trace astep b (l :: ls) b''

/-- Forward simulation: if a labelled concrete step is matched by the abstract step
of that label and a silent one leaves the view alone, then what a whole run shows
is an abstract trace between the two views. -/
theorem run_simulates {B L : Type*} {step : S → A → Option S} {astep : B → L → B → Prop}
    (label : S → A → Option L) {P : S → Prop} (view : S → B)
    (preserved : ∀ s a s', P s → step s a = some s' → P s')
    (silent : ∀ s a s', P s → step s a = some s' → label s a = none → view s' = view s)
    (visible : ∀ s a s' l, P s → step s a = some s' → label s a = some l →
      astep (view s) l (view s'))
    {s t : S} {as : List A} (h0 : P s) (h : run step s as = some t) :
    Trace astep (view s) (labels step label s as) (view t) := by
  induction as generalizing s with
  | nil => cases h; exact .nil _
  | cons a as ih =>
    obtain ⟨s', hs, h⟩ := run_cons_some h
    have rest := ih (preserved s a s' h0 hs) h
    simp only [labels, hs]
    cases hl : label s a with
    | none => exact silent s a s' h0 hs hl ▸ rest
    | some l => exact .cons (visible s a s' l h0 hs hl) rest

end TsunamiUdp.Library

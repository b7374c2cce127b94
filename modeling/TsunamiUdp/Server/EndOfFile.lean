import TsunamiUdp.Server.Handler
import TsunamiUdp.Library.Runs

/-! A control connection that the client closes during a transfer: `errno` is what an
earlier call has left in it. -/
namespace TsunamiUdp.Server
open Library

/-- The process ends in this pass, and no datagram is sent from here on. -/
def EndsAtOnce (order : ByteOrder) (param : Parameter) (s : Loop) (input : Input) : Prop :=
  ∃ s', Loop.step order param s input = some s' ∧ s'.flow = .exit ∧
    ∀ inputs t, run (Loop.step order param) s' inputs = some t → t.sent = s.sent

section Spec
variable {order : ByteOrder} {param : Parameter} {input : Input}

theorem step_of_exit {s : Loop} (h : s.flow = .exit) : Loop.step order param s input = none := by
  unfold Loop.step
  rw [h]
  apply if_neg
  simp

variable (order param input) in
theorem finish_exit {turn : Turn} (h : turn.flow ≠ .exit) :
    (finish order param input turn).flow ≠ .exit := by
  refine finish_keeps (p := fun turn => turn.flow ≠ .exit) (fun count slept => h) fun hexit => ?_
  rcases reportLost_flow order param input
    { turn with handler := { turn.handler with deadconnectionCounter := 0 } } with hflow | hflow <;>
    cases hflow.symm.trans hexit

variable (order param input) in
@[simp] theorem finish_again (turn : Turn) :
    (finish order param input turn).handler.again = turn.handler.again := by
  refine finish_keeps (p := fun after => after.handler.again = turn.handler.again)
    (fun count slept => rfl) ?_
  rw [reportLost_handler]

variable (order param) in
theorem handleRequest_exit (now : Int) (send : SendResult) (h : Handler) :
    (handleRequest order param now send h).flow ≠ .exit := by
  unfold handleRequest
  dsimp only
  split <;> simp

theorem handleRequest_again (now : Int) (h : Handler) :
    (handleRequest order param now .ok h).handler.again = h.again := by
  unfold handleRequest
  dsimp only
  split
  · rfl
  · exact ite_self _

variable (order param input) in
theorem handlerTurn_exit_iff (h : Handler) :
    (handlerTurn order param input h).flow = .exit ↔ readRequest input.read (pace input.now h) = none := by
  unfold handlerTurn
  dsimp only
  cases readRequest input.read (pace input.now h) with
  | none => exact iff_of_true rfl rfl
  | some h1 =>
    refine iff_of_false (finish_exit order param input ?_) (by simp)
    split
    · exact handleRequest_exit order param input.now input.send h1
    · split <;> simp [transmitBlock]

theorem handlerTurn_exit_sent {h : Handler} (hexit : (handlerTurn order param input h).flow = .exit) :
    (handlerTurn order param input h).sent = [] := by
  rw [handlerTurn_exit_iff] at hexit
  unfold handlerTurn
  dsimp only
  rw [hexit]
  rfl

theorem readRequest_closed (h : Handler) : readRequest .closed h = none ↔ h.again = false := by
  unfold readRequest
  cases h.again <;> simp

theorem handlerTurn_again {h : Handler} (hsend : input.send = .ok)
    (hgoes : (handlerTurn order param input h).flow ≠ .exit) :
    (handlerTurn order param input h).handler.again = true ↔ h.again = true ∨ input.read = .nothing := by
  rw [ne_eq, handlerTurn_exit_iff] at hgoes
  obtain ⟨h1, hr⟩ := Option.ne_none_iff_exists'.mp hgoes
  have hturn : (handlerTurn order param input h).handler.again = h1.again := by
    unfold handlerTurn
    dsimp only
    rw [hr]
    refine (finish_again order param input _).trans ?_
    split
    · rw [hsend]
      exact handleRequest_again input.now h1
    · split
      · rw [hsend]
        rfl
      · rfl
  rw [hturn]
  cases hread : input.read with
  | data bytes =>
    rw [hread] at hr
    cases hr
    simp [pace]
  | nothing =>
    rw [hread] at hr
    cases hr
    simp
  | closed =>
    rw [hread] at hr
    dsimp only [readRequest] at hr
    split at hr
    · cases hr
      simp [pace]
    · cases hr
  | failed =>
    rw [hread] at hr
    cases hr

/-- After reads that went well `errno` is what a read that found nothing has left there,
or what it was. -/
theorem again_iff {h : Handler} {inputs : List Input} {s : Loop}
    (hrun : run (Loop.step order param) (.start h) inputs = some s) (hflow : s.flow ≠ .exit)
    (hsend : ∀ input ∈ inputs, input.send = .ok) :
    s.handler.again = true ↔ h.again = true ∨ ∃ input ∈ inputs, input.read = .nothing := by
  have hgen : ∀ l : Loop, run (Loop.step order param) l inputs = some s →
      (s.handler.again = true ↔ l.handler.again = true ∨ ∃ input ∈ inputs, input.read = .nothing) := by
    clear hrun
    induction inputs with
    | nil =>
      intro l hrun
      cases hrun
      simp
    | cons input inputs ih =>
      intro l hrun
      obtain ⟨l', hs, hrest⟩ := run_cons_some hrun
      have hnext : l'.flow ≠ .exit := by
        intro hexit
        cases inputs with
        | nil =>
          cases hrest
          exact hflow hexit
        | cons input' inputs =>
          rw [run_cons, step_of_exit hexit] at hrest
          cases hrest
      obtain ⟨-, -, rfl⟩ := step_some hs
      rw [ih (fun i hi => hsend i (List.mem_cons_of_mem input hi)) _ hrest,
        handlerTurn_again (hsend input List.mem_cons_self) hnext, List.exists_mem_cons_iff, or_assoc]
  exact hgen _ hrun

end Spec

/-- A read that finds the end of the connection ends the process at once if and only if
`errno` is not `EAGAIN`; while all datagrams go out, this means that no read of the
transfer has found nothing, and that `errno` was not `EAGAIN` before it. -/
theorem closed_ends_iff {order : ByteOrder} {param : Parameter} {h : Handler} {inputs : List Input}
    {s : Loop} {input : Input}
    (hrun : run (Loop.step order param) (.start h) inputs = some s) (hflow : s.flow = .next)
    (hread : input.read = .closed) :
    (EndsAtOnce order param s input ↔ s.handler.again = false) ∧
      ((∀ earlier ∈ inputs, earlier.send = .ok) → (s.handler.again = false ↔
        h.again = false ∧ ∀ earlier ∈ inputs, earlier.read ≠ .nothing)) := by
  have hexit := handlerTurn_exit_iff order param input s.handler
  rw [hread, readRequest_closed] at hexit
  have hstep := step_eq order param hflow
    (show Readable input.read s.handler by rw [hread]; trivial)
  constructor
  · constructor
    · intro ⟨s', hs, hends, _⟩
      cases hstep.symm.trans hs
      exact hexit.mp hends
    · intro hagain
      have hends := hexit.mpr hagain
      refine ⟨_, hstep, hends, fun inputs t ht => ?_⟩
      cases inputs with
      | nil =>
        cases ht
        dsimp only
        rw [handlerTurn_exit_sent hends, List.append_nil]
      | cons next inputs =>
        rw [run_cons, step_of_exit hends] at ht
        cases ht
  · intro hsend
    have hsame := again_iff hrun (by rw [hflow]; simp) hsend
    rw [← Bool.not_eq_true, hsame]
    simp

def unread (again : Bool) : Handler :=
  .start ⟨0, 100, ⟨0, ⟨[65, 66, 67], 0⟩, List.replicate 7 0⟩⟩ (List.replicate 12 0) 0 again

/-- Some bytes of a request, and the end. -/
theorem closed_ends_iff_sample : ∃ s,
    run (Loop.step .little threeBlocks) (.start (unread false))
      [{ Input.idle with read := .data [0, 3] }] = some s ∧ s.flow = .next ∧
    EndsAtOnce .little threeBlocks s { Input.idle with read := .closed } := by
  have hrun : (run (Loop.step .little threeBlocks) (.start (unread false))
      [{ Input.idle with read := .data [0, 3] }]).map (fun s => (s.flow, s.handler.again)) =
        some (.next, false) := by
    decide +kernel
  obtain ⟨s, hs, hmap⟩ := Option.map_eq_some_iff.mp hrun
  obtain ⟨hflow, hagain⟩ := Prod.mk.inj hmap
  exact ⟨s, hs, hflow, (closed_ends_iff hs hflow rfl).1.mpr hagain⟩

/-- One read has found nothing: the transfer goes on after the end of the connection. -/
theorem closed_goes_on :
    (run (Loop.step .little threeBlocks) (.start (unread false))
      [.idle, { Input.idle with read := .closed }, { Input.idle with read := .closed }]).map
        (fun s => (s.flow, s.sent.length)) = some (.next, 3) := by
  decide +kernel

end TsunamiUdp.Server

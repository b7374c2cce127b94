import TsunamiUdp.Client.Lasting

/-! The ends of `command_get`. Behind the join, and at the label `abort`, the network
thread gives back what the disk thread works with. -/
namespace TsunamiUdp.Client
open Library TsunamiUdp.Client.Ring

inductive Call
  | closeFile
  | destroyMutex
  | destroyDataReady
  | destroySpaceReady
  | freeDatagrams
  | freeRing
  | freeTable
  | freeReceived
  | freeLocalDatagram
deriving DecidableEq

def ringDestroy : List Call :=
  [.destroyMutex, .destroyDataReady, .destroySpaceReady, .freeDatagrams, .freeRing]

/-- The calls after which `ring_destroy` returns early if they fail. -/
def Call.destroys : Call → Bool
  | .destroyMutex | .destroyDataReady | .destroySpaceReady => true
  | _ => false

def Phase.ended : Phase → Bool
  | .returned | .aborted => true
  | _ => false

/-- What is to be called at each of the two ends, in the order of the source. -/
def Phase.calls : Phase → List Call
  | .returned => .closeFile :: ringDestroy ++ [.freeTable, .freeReceived, .freeLocalDatagram]
  | .aborted => ringDestroy ++ [.closeFile, .freeTable, .freeReceived, .freeLocalDatagram]
  | _ => []

/-- The transfer of one file, what is still to be called at its end and what has been,
and how many more files a `GET *` has. -/
structure CommandGet where
  get : Get
  todo : List Call
  made : List Call
  filesLeft : Nat

/-- The outcome of a call is that of the `pthread` function in it; `nextFile` opens the
next transfer, with new resources and a new disk thread. -/
inductive CommandAction
  | thread (action : GetAction)
  | call (ok : Bool)
  | nextFile (xfer : Transfer) (datagrams : Int → List UInt8)

namespace CommandGet

def start (param : Parameter) (xfer : Transfer) (datagrams : Int → List UInt8) (filesLeft : Nat) :
    CommandGet where
  get := Get.start param xfer datagrams
  todo := []
  made := []
  filesLeft := filesLeft

def thread (param : Parameter) (action : GetAction) (s : CommandGet) : Option CommandGet :=
  (s.get.step param action).map fun get => { s with
    get := get
    todo := if s.get.phase.ended then s.todo else get.phase.calls }

def call (ok : Bool) (s : CommandGet) : Option CommandGet :=
  match s.todo with
  | [] => none
  | c :: rest => some <|
      if c.destroys ∧ ok = false then { s with todo := rest.dropWhile (· ∈ ringDestroy) }
      else { s with todo := rest, made := s.made ++ [c] }

def nextFile (param : Parameter) (xfer : Transfer) (datagrams : Int → List UInt8) (s : CommandGet) :
    Option CommandGet :=
  match s.get.phase with
  | .returned =>
    if s.todo = [] ∧ 0 < s.filesLeft then some (start param xfer datagrams (s.filesLeft - 1)) else none
  | _ => none

def step (param : Parameter) (s : CommandGet) : CommandAction → Option CommandGet
  | .thread action => s.thread param action
  | .call ok => s.call ok
  | .nextFile xfer datagrams => s.nextFile param xfer datagrams

/-- Nothing has been given back unless the disk thread has returned. -/
def Safe (s : CommandGet) : Prop := s.made ≠ [] → s.get.disk = .exited

end CommandGet

namespace Get

def aborts (param : Parameter) (s : Get) : GetAction → Bool
  | .turn env =>
    match arrive param env s.net with
    | none => true
    | some (net, _) =>
      let block := blockNumber net.localDatagram
      let type := blockType net.localDatagram
      if enters env.ringFull net.xfer block type then
        gotBlock net.xfer block && ((afterRing param env net.xfer block type).isNone &&
          !afterRingKill param env net.xfer block type)
      else (sendStats param env net.xfer).isNone && !statsKill env net.xfer
  | .confirm =>
    match s.phase with
    | .storing env =>
      let block := blockNumber s.net.localDatagram
      let type := blockType s.net.localDatagram
      (afterRing param env (markReceived s.net.xfer block) block type).isNone &&
        !afterRingKill param env (markReceived s.net.xfer block) block type
    | _ => false
  | .requestStop write => decide (write ≠ .ok)
  | _ => false

section Ends
variable {param : Parameter} {s s' : Get}

theorem settle_ended (s : Get) (kill : Bool) (rest : Option Controlled) :
    (s.settle kill rest).phase.ended = (rest.isNone && !kill) ∧
      ((s.settle kill rest).phase.ended = true → (s.settle kill rest).phase = .aborted) := by
  cases rest with
  | none => cases kill <;> exact ⟨rfl, fun h => by first | rfl | cases h⟩
  | some c =>
    dsimp only [settle]
    cases c.finished <;> exact ⟨rfl, fun h => by cases h⟩

theorem turn_ended {env : Env} (hs : s.turn param env = some s') :
    s'.phase.ended = s.aborts param (.turn env) ∧ (s'.phase.ended = true → s'.phase = .aborted) := by
  dsimp only [aborts]
  obtain ⟨-, -, ⟨harrive, rfl⟩ | ⟨net, sent, harrive, hs⟩⟩ := turn_cases hs
  · rw [harrive]
    exact ⟨rfl, fun _ => rfl⟩
  · rw [harrive]
    dsimp only
    rcases hs with ⟨henter, hnew, rfl⟩ | ⟨henter, hold, rfl⟩ | ⟨hlate, rfl⟩
    · rw [if_pos henter, hnew, Bool.false_and]
      exact ⟨rfl, fun h => by cases h⟩
    · rw [if_pos henter, hold, Bool.true_and]
      exact settle_ended _ _ _
    · rw [if_neg (Bool.eq_false_iff.mp hlate),
        ← Option.isNone_map (f := fun stats => (⟨false, stats.1, stats.2⟩ : Controlled))]
      exact settle_ended _ _ _

theorem confirm_ended (hs : s.confirm param = some s') :
    s'.phase.ended = s.aborts param .confirm ∧ (s'.phase.ended = true → s'.phase = .aborted) := by
  dsimp only [aborts]
  obtain ⟨threads, -, ⟨env, hphase, rfl⟩ | ⟨hphase, rfl⟩⟩ := confirm_cases hs
  · rw [hphase]
    exact settle_ended _ _ _
  · rw [hphase]
    exact ⟨rfl, fun h => by cases h⟩

variable (param) in
theorem requestStop_ended {write : WriteResult} (hs : s.requestStop write = some s') :
    s'.phase.ended = s.aborts param (.requestStop write) ∧
      (s'.phase.ended = true → s'.phase = .aborted) := by
  dsimp only [aborts]
  obtain ⟨-, ⟨rfl, rfl⟩ | ⟨hfails, rfl⟩⟩ := requestStop_cases hs
  · exact ⟨rfl, fun h => by cases h⟩
  · rw [decide_eq_true hfails]
    exact ⟨rfl, fun _ => rfl⟩

theorem ended_cases {action : GetAction} (hs : s.step param action = some s')
    (hend : s'.phase.ended = true) :
    s'.phase = s.phase ∨ (s.aborts param action = true ∧ s'.phase = .aborted) ∨
      (s'.phase = .returned ∧ s'.disk = .exited) := by
  have hact := (step_act hs).2
  rcases step_cases hs with hcall | ⟨env, rfl⟩ | rfl | ⟨write, rfl⟩ | rfl | ⟨result, rfl⟩
  · exact Or.inl hcall.phase
  · obtain ⟨haborts, haborted⟩ := turn_ended hact
    exact Or.inr (Or.inl ⟨haborts ▸ hend, haborted hend⟩)
  · obtain ⟨haborts, haborted⟩ := confirm_ended hact
    exact Or.inr (Or.inl ⟨haborts ▸ hend, haborted hend⟩)
  · obtain ⟨haborts, haborted⟩ := requestStop_ended param hact
    exact Or.inr (Or.inl ⟨haborts ▸ hend, haborted hend⟩)
  · obtain ⟨-, hexited, rfl⟩ := join_cases hact
    exact Or.inr (Or.inr ⟨rfl, hexited⟩)
  · exact Or.inl (accept_phase hact)

theorem ended_kept {action : GetAction} (hs : s.step param action = some s')
    (hend : s.phase.ended = true) : s'.phase = s.phase := by
  have hact := (step_act hs).2
  rcases step_cases hs with hcall | ⟨env, rfl⟩ | rfl | ⟨write, rfl⟩ | rfl | ⟨result, rfl⟩
  · exact hcall.phase
  · rw [(turn_frame hact).1] at hend
    cases hend
  · obtain ⟨threads, -, ⟨env, hphase, -⟩ | ⟨hphase, -⟩⟩ := confirm_cases hact <;>
      rw [hphase] at hend <;> cases hend
  · rw [(requestStop_cases hact).1] at hend
    cases hend
  · rw [(join_cases hact).1] at hend
    cases hend
  · exact accept_phase hact

theorem aborts_ended {action : GetAction} (hs : s.step param action = some s')
    (haborts : s.aborts param action = true) :
    s.phase.ended = false ∧ s'.phase = .aborted ∧ s'.disk = s.disk := by
  have hact := (step_act hs).2
  cases action with
  | turn env =>
    obtain ⟨hsame, haborted⟩ := turn_ended hact
    refine ⟨?_, haborted (hsame.trans haborts), network_disk rfl hs⟩
    rw [(turn_frame hact).1]
    rfl
  | confirm =>
    obtain ⟨hsame, haborted⟩ := confirm_ended hact
    refine ⟨?_, haborted (hsame.trans haborts), network_disk rfl hs⟩
    obtain ⟨threads, -, ⟨env, hphase, -⟩ | ⟨hphase, -⟩⟩ := confirm_cases hact <;> rw [hphase] <;> rfl
  | requestStop write =>
    obtain ⟨hsame, haborted⟩ := requestStop_ended param hact
    refine ⟨?_, haborted (hsame.trans haborts), network_disk rfl hs⟩
    rw [(requestStop_cases hact).1]
    rfl
  | _ => cases haborts

end Ends

end Get

namespace CommandGet
variable {param : Parameter} {s s' : CommandGet}

/-- A `goto abort` is taken only when the disk thread has returned. -/
def Joined (param : Parameter) (s : CommandGet) : CommandAction → Prop
  | .thread action => s.get.aborts param action = true → s.get.disk = .exited
  | _ => True

/-- At its end the network thread is alone. -/
structure Inv (s : CommandGet) : Prop where
  reading : s.get.disk = .exited → Get.Exited s.get
  alone : s.get.phase.ended = true → s.get.disk = .exited
  todo : s.todo ≠ [] → s.get.phase.ended = true
  made : s.made ≠ [] → s.get.phase.ended = true

theorem inv_start (param : Parameter) (xfer : Transfer) (datagrams : Int → List UInt8)
    (filesLeft : Nat) : Inv (start param xfer datagrams filesLeft) :=
  ⟨(fun h => by cases h), (fun h => by cases h), fun h => absurd rfl h, fun h => absurd rfl h⟩

theorem Inv.safe (h : Inv s) : Safe s := fun hmade => h.alone (h.made hmade)

theorem calls_ended {phase : Phase} (h : phase.calls ≠ []) : phase.ended = true := by
  cases phase <;> first | rfl | exact absurd rfl h

theorem inv_thread (h : Inv s) {action : GetAction}
    (hjoined : s.get.aborts param action = true → s.get.disk = .exited)
    (hs : s.thread param action = some s') : Inv s' := by
  obtain ⟨get, hget, rfl⟩ := Option.map_eq_some_iff.mp hs
  have hexited : s.get.disk = .exited → get.disk = .exited := fun hdisk =>
    ((h.reading hdisk).step hget).disk
  have hkept : s.get.phase.ended = true → get.phase.ended = true := fun hend => by
    rw [Get.ended_kept hget hend, hend]
  refine ⟨fun hdisk => Get.exited_reading h.reading hget hdisk, fun hend => ?_, fun htodo => ?_,
    fun hmade => hkept (h.made hmade)⟩
  · rcases Get.ended_cases hget hend with hsame | ⟨haborts, -⟩ | ⟨-, hdisk⟩
    · exact hexited (h.alone (hsame ▸ hend))
    · exact hexited (hjoined haborts)
    · exact hdisk
  · dsimp only at htodo
    split at htodo
    · rename_i hend
      exact hkept hend
    · exact calls_ended htodo

theorem inv_call (h : Inv s) {ok : Bool} (hs : s.call ok = some s') : Inv s' := by
  unfold call at hs
  split at hs
  · cases hs
  · rename_i c rest htodo
    have hend : s.get.phase.ended = true := h.todo (by rw [htodo]; exact List.cons_ne_nil c rest)
    cases hs
    split
    · exact ⟨h.reading, h.alone, fun _ => hend, h.made⟩
    · exact ⟨h.reading, h.alone, fun _ => hend, fun _ => hend⟩

theorem inv_step (h : Inv s) {action : CommandAction} (hjoined : Joined param s action)
    (hs : s.step param action = some s') : Inv s' := by
  cases action with
  | thread action => exact inv_thread h hjoined hs
  | call ok => exact inv_call h hs
  | nextFile xfer datagrams =>
    dsimp only [step, nextFile] at hs
    split at hs
    · split at hs <;> cases hs
      exact inv_start param xfer datagrams _
    · cases hs

/-- A `goto abort` beside a running disk thread gives the ring back under its hands. -/
theorem unsafe_of_aborts {action : GetAction} (haborts : s.get.aborts param action = true)
    (hdisk : s.get.disk ≠ .exited) (hs : s.step param (.thread action) = some s') :
    ∃ t, s'.step param (.call true) = some t ∧ ¬ Safe t := by
  obtain ⟨get, hget, rfl⟩ := Option.map_eq_some_iff.mp hs
  obtain ⟨hrunning, haborted, hsame⟩ := Get.aborts_ended hget haborts
  have hcall : step param { s with
      get := get
      todo := if s.get.phase.ended then s.todo else get.phase.calls } (.call true) = some { s with
        get := get
        todo := Phase.aborted.calls.tail
        made := s.made ++ [.destroyMutex] } := by
    rw [hrunning, haborted]
    rfl
  refine ⟨_, hcall, fun hsafe => hdisk (hsame.symm.trans (hsafe ?_))⟩
  exact List.append_ne_nil_of_right_ne_nil _ (List.cons_ne_nil _ _)

end CommandGet

/-- If every `goto abort` of a run is taken when the disk thread has returned, then
nothing is given back before that, and the disk thread touches nothing after it. Each
other `goto abort` is followed by a call that gives back what the thread still uses. -/
theorem resources_outlive_disk_thread (param : Parameter) (xfer : Transfer)
    (datagrams : Int → List UInt8) (filesLeft : Nat) (actions : List CommandAction) (t : CommandGet)
    (hrun : run (CommandGet.step param) (.start param xfer datagrams filesLeft) actions = some t) :
    (Along (CommandGet.step param) (CommandGet.Joined param)
        (.start param xfer datagrams filesLeft) actions →
      t.Safe ∧ (t.made ≠ [] → ∀ action : GetAction, action.ofDisk = true →
        t.step param (.thread action) = none)) ∧
    ∀ (action : GetAction) (t' : CommandGet), t.get.aborts param action = true →
      t.get.disk ≠ .exited → t.step param (.thread action) = some t' →
        ∃ u, t'.step param (.call true) = some u ∧ ¬ u.Safe := by
  refine ⟨fun halong => ?_, fun action t' haborts hdisk hs =>
    CommandGet.unsafe_of_aborts haborts hdisk hs⟩
  have hinv := run_invariant_along (P := CommandGet.Inv)
    (fun _ _ _ h hjoined hs => CommandGet.inv_step h hjoined hs)
    (CommandGet.inv_start param xfer datagrams filesLeft) halong hrun
  refine ⟨hinv.safe, fun hmade action hdisk => ?_⟩
  dsimp only [CommandGet.step, CommandGet.thread]
  rw [(hinv.reading (hinv.safe hmade)).no_step hdisk]
  rfl

instance (param : Parameter) (s : CommandGet) (action : CommandAction) :
    Decidable (CommandGet.Joined param s action) := by
  cases action <;> (unfold CommandGet.Joined; infer_instance)

def joinedRun : List CommandAction :=
  (oneBlockRun (.wrote 1) ++ [GetAction.pop, .peek, .read, .accept (.wrote 1), .join]).map .thread ++
    List.replicate 9 (.call true)

theorem resources_outlive_disk_thread_sample :
    ∃ t, run (CommandGet.step ⟨1, true, 0, 25⟩)
        (.start ⟨1, true, 0, 25⟩ (.start 1 1 0) (fun _ => List.replicate 7 0) 0) joinedRun = some t ∧
      t.Safe ∧ t.made = Phase.returned.calls := by
  have hrun : ∃ t, run (CommandGet.step ⟨1, true, 0, 25⟩)
      (.start ⟨1, true, 0, 25⟩ (.start 1 1 0) (fun _ => List.replicate 7 0) 0) joinedRun = some t ∧
      t.made = Phase.returned.calls := ⟨_, rfl, rfl⟩
  obtain ⟨t, ht, hmade⟩ := hrun
  exact ⟨t, ht, ((resources_outlive_disk_thread ⟨1, true, 0, 25⟩ _ _ _ _ t ht).1 (by decide)).1, hmade⟩

def abortedRun : List CommandAction :=
  [GetAction.turn (.calm (.datagram [0, 0, 0, 1, 0, 88, 7])), .reserve, .store, .confirm,
    .requestStop .fwriteFails].map .thread ++ List.replicate 9 (.call true)

theorem freed_under_disk_thread :
    ∃ t, run (CommandGet.step ⟨1, true, 0, 25⟩)
        (.start ⟨1, true, 0, 25⟩ (.start 1 1 0) (fun _ => List.replicate 7 0) 0) abortedRun = some t ∧
      ¬ t.Safe ∧ t.made = Phase.aborted.calls ∧
      (t.step ⟨1, true, 0, 25⟩ (.thread .peek)).isSome = true :=
  ⟨_, rfl, (fun h => by cases h (List.cons_ne_nil _ _)), rfl, rfl⟩

end TsunamiUdp.Client

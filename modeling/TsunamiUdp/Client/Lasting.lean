import TsunamiUdp.Client.Table
import TsunamiUdp.Client.Requests
import TsunamiUdp.Client.Success

/-! What lasts through every step of a lossless transfer, and what keeps the receive
loop from being aborted. -/
namespace TsunamiUdp.Client
open Library TsunamiUdp.Client.Ring

structure Booked (xfer : Transfer) : Prop where
  tracked : Tracked xfer xfer.nextBlock
  grown : xfer.rexmit.Grown

structure Env.Provides (env : Env) : Prop where
  alloc : ∀ size, env.alloc size = true
  periodic : env.periodicWrite = .ok

theorem calm_provides (recv : Recv) : (Env.calm recv).Provides := ⟨fun _ => rfl, rfl⟩

section Network
variable {param : Parameter} {env : Env} {xfer : Transfer} {block type : Nat}

theorem Booked.markReceived (h : Booked xfer) (block : Nat) : Booked (markReceived xfer block) :=
  ⟨h.tracked.markReceived block, h.grown⟩

theorem Booked.arrive {net net' : Net} {sent : List Retransmission} (h : Booked net.xfer)
    (harrive : Client.arrive param env net = some (net', sent)) : Booked net'.xfer :=
  ⟨h.tracked.arrive harrive, arrive_grown h.grown harrive⟩

theorem Booked.sendStats {xfer' : Transfer} {sent : List Retransmission} (h : Booked xfer)
    (hstats : Client.sendStats param env xfer = some (xfer', sent)) : Booked xfer' :=
  ⟨h.tracked.sendStats hstats, sendStats_grown h.grown hstats⟩

theorem Booked.afterRing {c : Controlled} (h : Booked xfer) (hlossless : param.lossless = true)
    (hgot : gotBlock xfer block = true) (hc : Client.afterRing param env xfer block type = some c) :
    Booked c.xfer :=
  ⟨h.tracked.afterRing hlossless hgot hc, afterRing_grown hlossless h.grown hc⟩

theorem Booked.start {fileSize blockCount onWireEstimate : Nat} (hn : blockCount < 4294967296) :
    Booked (Transfer.start fileSize blockCount onWireEstimate) :=
  ⟨Tracked.start hn, Retransmit.Grown.start fileSize blockCount onWireEstimate⟩

theorem queueMissing_provided (hlossless : param.lossless = true) (h : env.Provides)
    (xfer : Transfer) (block : Nat) :
    ∃ mid, queueMissing param env xfer block = some mid := by
  unfold queueMissing
  rw [if_pos hlossless]
  split
  · exact requestRange_provided h.alloc _ _ _
  · exact ⟨_, rfl⟩

theorem atTerminate_provided (h : env.Provides) : ∃ c, atTerminate param env xfer = some c := by
  unfold atTerminate
  split
  · exact ⟨_, rfl⟩
  · obtain ⟨full, hfull⟩ := requestRange_provided h.alloc
      (xfer.blockCount - wrap32 (xfer.gaplessToBlock + 1)) (wrap32 (xfer.gaplessToBlock + 1)) xfer
    dsimp only
    rw [hfull]
    exact ⟨_, rfl⟩

theorem control_provided (hlossless : param.lossless = true) (h : env.Provides)
    (xfer : Transfer) (block type : Nat) :
    ∃ c, control param env xfer block type = some c := by
  unfold control
  split
  · exact ⟨_, rfl⟩
  · obtain ⟨mid, hmid⟩ := queueMissing_provided hlossless h xfer block
    rw [hmid, Option.bind_some]
    dsimp only
    split
    · exact atTerminate_provided h
    · exact ⟨_, rfl⟩

theorem sendStats_provided (h : env.Provides) (hkill : statsKill env xfer = false) :
    ∃ done, sendStats param env xfer = some done := by
  refine sendStats_isSome ?_ hkill
  rw [h.periodic]
  by_cases hfew : (outstanding xfer).length < maxRetransmissionBuffer
  · exact ((ttpRepeatRetransmit_few .ok hfew).2.1 rfl).1
  · exact ((ttpRepeatRetransmit_many .ok (Nat.le_of_not_lt hfew) (by decide)).1 rfl).1

theorem afterRing_provided (hlossless : param.lossless = true) (h : env.Provides)
    (hkill : afterRingKill param env xfer block type = false) :
    ∃ c, afterRing param env xfer block type = some c := by
  obtain ⟨c, hc⟩ := control_provided hlossless h xfer block type
  unfold afterRing
  unfold afterRingKill at hkill
  rw [hc, Option.bind_some]
  rw [hc] at hkill
  dsimp only at hkill
  split
  · exact ⟨_, rfl⟩
  · rename_i hgoes
    rw [Bool.eq_false_of_not_eq_true hgoes, Bool.not_false, Bool.true_and] at hkill
    obtain ⟨done, hdone⟩ : ∃ done, sendStats param env _ = some done := sendStats_provided h hkill
    rw [hdone]
    exact ⟨_, rfl⟩

end Network

def Phase.inLoop : Phase → Bool
  | .receiving | .storing _ => true
  | _ => false

def Phase.over : Phase → Bool
  | .finished | .stopping | .joining | .returned => true
  | _ => false

def Get.Provided (param : Parameter) (s : Get) : Prop :=
  match s.phase with
  | .storing env => env.Provides ∧
      afterRingKill param env (markReceived s.net.xfer (blockNumber s.net.localDatagram))
        (blockNumber s.net.localDatagram) (blockType s.net.localDatagram) = false
  | .aborted | .killed => False
  | _ => True

/-- The calls of the step succeed, and the feedback does not divide by zero. -/
def GetAction.Provided (param : Parameter) (net : Net) : GetAction → Prop
  | .turn env => env.Provides ∧ (∃ d, env.recv = .datagram d) ∧ turnKills param env net = false
  | .requestStop write => write = .ok
  | _ => True

namespace Get
variable {param : Parameter} {s s' : Get}

theorem Provided.alive (h : s.Provided param) : s.alive = true := by
  unfold Get.alive
  unfold Provided at h
  split
  · rename_i hphase
    rw [hphase] at h
    exact h.elim
  · rfl

theorem booked_settle {kill : Bool} {rest : Option Controlled} (h : Booked s.net.xfer)
    (hrest : ∀ c, rest = some c → Booked c.xfer) : Booked (s.settle kill rest).net.xfer := by
  cases rest with
  | none => exact h
  | some c => exact hrest c rfl

theorem booked_turn {env : Env} (hlossless : param.lossless = true) (h : Booked s.net.xfer)
    (hs : s.turn param env = some s') : Booked s'.net.xfer := by
  obtain ⟨-, -, ⟨-, rfl⟩ | ⟨net, sent, harrive, hs⟩⟩ := turn_cases hs
  · exact h
  · have harrived := h.arrive harrive
    rcases hs with ⟨-, -, rfl⟩ | ⟨-, hold, rfl⟩ | ⟨-, rfl⟩
    · exact harrived
    · exact booked_settle harrived fun c hc => harrived.afterRing hlossless hold hc
    · refine booked_settle harrived fun c hc => ?_
      obtain ⟨⟨xfer, more⟩, hstats, rfl⟩ := Option.map_eq_some_iff.mp hc
      exact harrived.sendStats hstats

theorem booked_confirm (hlossless : param.lossless = true) (h : Booked s.net.xfer)
    (hs : s.confirm param = some s') : Booked s'.net.xfer := by
  obtain ⟨threads, -, ⟨env, -, rfl⟩ | ⟨-, rfl⟩⟩ := confirm_cases hs
  · have hmarked := h.markReceived (blockNumber s.net.localDatagram)
    refine booked_settle hmarked fun c hc => hmarked.afterRing hlossless ?_ hc
    rw [gotBlock_markReceived, decide_eq_true rfl, Bool.or_true]
  · exact h

theorem booked_step {action : GetAction} (hlossless : param.lossless = true) (h : Booked s.net.xfer)
    (hs : s.step param action = some s') : Booked s'.net.xfer := by
  rcases net_step hs with hnet | ⟨env, rfl⟩ | rfl
  · rw [hnet]
    exact h
  · exact booked_turn hlossless h (step_act hs).2
  · exact booked_confirm hlossless h (step_act hs).2

theorem requestStop_leaves {write : WriteResult} (hs : s.requestStop write = some s') :
    ¬s'.phase.inLoop = true := by
  obtain ⟨-, ⟨-, rfl⟩ | ⟨-, rfl⟩⟩ := requestStop_cases hs <;> exact Bool.false_ne_true

theorem inLoop_before {action : GetAction} (hs : s.step param action = some s')
    (h : s'.phase.inLoop = true) : s.phase.inLoop = true := by
  have hact := (step_act hs).2
  rcases step_cases hs with hcall | ⟨env, rfl⟩ | rfl | ⟨write, rfl⟩ | rfl | ⟨result, rfl⟩
  · rw [← hcall.phase]
    exact h
  · rw [(turn_frame hact).1]
    rfl
  · obtain ⟨threads, -, ⟨env, hphase, -⟩ | ⟨-, rfl⟩⟩ := confirm_cases hact
    · rw [hphase]
      rfl
    · cases h
  · exact absurd h (requestStop_leaves hact)
  · obtain ⟨-, -, rfl⟩ := join_cases hact
    cases h
  · rw [← accept_phase hact]
    exact h

theorem sent_step {action : GetAction} (hn : s.net.xfer.blockCount < 4294967296)
    (hs : s.step param action = some s') : ∃ more, s'.sent = s.sent ++ more := by
  rcases asks_step hn hs with ⟨more, hsent, -⟩ | ⟨-, hsent⟩
  · exact ⟨more, hsent⟩
  · exact ⟨_, hsent⟩

theorem provided_settle {kill : Bool} {c : Controlled} : (s.settle kill (some c)).Provided param := by
  unfold settle Provided
  dsimp only
  cases c.finished <;> trivial

theorem turnKills_cases {env : Env} {net net' : Net} {sent : List Retransmission}
    (harrive : arrive param env net = some (net', sent)) (h : turnKills param env net = false) :
    let block := blockNumber net'.localDatagram
    let type := blockType net'.localDatagram
    (enters env.ringFull net'.xfer block type = true → gotBlock net'.xfer block = false →
        afterRingKill param env (markReceived net'.xfer block) block type = false) ∧
      (enters env.ringFull net'.xfer block type = true → gotBlock net'.xfer block = true →
        afterRingKill param env net'.xfer block type = false) ∧
      (enters env.ringFull net'.xfer block type = false → statsKill env net'.xfer = false) := by
  unfold turnKills at h
  rw [harrive] at h
  dsimp only at h ⊢
  refine ⟨fun henter hnew => ?_, fun henter hold => ?_, fun hskip => ?_⟩
  · rwa [if_pos henter, if_pos hnew] at h
  · rwa [if_pos henter, if_neg (by simp [hold])] at h
  · rwa [if_neg (by simp [hskip])] at h

theorem provided_turn {env : Env} {d : List UInt8} (hlossless : param.lossless = true)
    (h : env.Provides) (hrecv : env.recv = .datagram d) (hkill : turnKills param env s.net = false)
    (hs : s.turn param env = some s') : s'.Provided param := by
  obtain ⟨-, -, ⟨hnone, -⟩ | ⟨net, sent, harrive, hs⟩⟩ := turn_cases hs
  · unfold arrive at hnone
    rw [hrecv] at hnone
    cases hnone
  · obtain ⟨hnewKill, holdKill, hskipKill⟩ := turnKills_cases harrive hkill
    rcases hs with ⟨henter, hnew, rfl⟩ | ⟨henter, hold, rfl⟩ | ⟨hskip, rfl⟩
    · exact ⟨h, hnewKill henter hnew⟩
    · obtain ⟨c, hc⟩ := afterRing_provided hlossless h (holdKill henter hold)
      rw [hc]
      exact provided_settle
    · obtain ⟨done, hdone⟩ : ∃ done, sendStats param _ _ = some done :=
        sendStats_provided h (hskipKill hskip)
      rw [hdone]
      exact provided_settle

theorem provided_confirm (hlossless : param.lossless = true) (h : s.Provided param)
    (hs : s.confirm param = some s') : s'.Provided param := by
  obtain ⟨threads, -, ⟨env, hphase, rfl⟩ | ⟨-, rfl⟩⟩ := confirm_cases hs
  · unfold Provided at h
    rw [hphase] at h
    obtain ⟨c, hc⟩ := afterRing_provided hlossless h.1 h.2
    rw [hc]
    exact provided_settle
  · trivial

theorem provided_of_same {s s' : Get} (h : s.Provided param) (hnet : s'.net = s.net)
    (hphase : s'.phase = s.phase) : s'.Provided param := by
  unfold Provided at h ⊢
  rwa [hnet, hphase]

/-- Nothing aborts `command_get` while its calls succeed. -/
theorem provided_step {action : GetAction} (hlossless : param.lossless = true)
    (h : s.Provided param) (hcalls : action.Provided param s.net) (hs : s.step param action = some s') :
    s'.Provided param := by
  have hact := (step_act hs).2
  rcases step_cases hs with hcall | ⟨env, rfl⟩ | rfl | ⟨write, rfl⟩ | rfl | ⟨result, rfl⟩
  · exact provided_of_same h hcall.net hcall.phase
  · obtain ⟨hprovides, ⟨d, hrecv⟩, hkill⟩ := hcalls
    exact provided_turn hlossless hprovides hrecv hkill hact
  · exact provided_confirm hlossless h hact
  · obtain ⟨-, ⟨-, rfl⟩ | ⟨hfails, -⟩⟩ := requestStop_cases hact
    · trivial
    · exact absurd hcalls hfails
  · obtain ⟨-, -, rfl⟩ := join_cases hact
    trivial
  · exact provided_of_same h (rest_frame hs (.inr (.inr ⟨result, rfl⟩))).1 (accept_phase hact)

theorem missing_step {action : GetAction} (hs : s.step param action = some s') :
    missing s'.net.xfer ⊆ missing s.net.xfer := by
  rcases net_step hs with hnet | ⟨env, rfl⟩ | rfl
  · rw [hnet]
  · rw [(sameBlocks_turn (step_act hs).2).missing]
  · obtain ⟨threads, -, ⟨env, -, rfl⟩ | ⟨-, rfl⟩⟩ := confirm_cases (step_act hs).2
    · rw [(sameBlocks_settle fun c hc => sameBlocks_afterRing hc).missing]
      dsimp only
      rw [missing_markReceived]
      exact Finset.erase_subset _ _
    · exact Finset.Subset.refl _

theorem stored_step {action : GetAction} (h : Inv s) (hs : s.step param action = some s') :
    s.stored ⊆ s'.stored := by
  have hkept : s'.threads.confirmed = s.threads.confirmed → s.stored ⊆ s'.stored := fun hsame => by
    rw [stored, stored, hsame]
    exact List.Subset.refl _
  rcases step_cases hs with hcall | ⟨env, rfl⟩ | rfl | hrest
  · obtain ⟨ring, hring, ht⟩ := hcall.threads
    exact hkept (Threads.confirmed_kept h.ring ht hring)
  · exact hkept (by rw [(turn_frame (step_act hs).2).2.1])
  · obtain ⟨d, hconfirmed, -⟩ := confirm_frame h (step_act hs).2
    rw [stored, stored, hconfirmed, List.map_append]
    exact List.subset_append_left _ _
  · exact hkept (by rw [(rest_frame hs hrest).2])

theorem afterRingCall_exited {threads : Threads (List UInt8)}
    (h : (s.afterRingCall threads).disk = .exited) : s.disk = .exited := by
  dsimp only [afterRingCall] at h
  split at h
  · cases h
  · exact h

@[simp] theorem settle_disk (s : Get) (kill : Bool) (rest : Option Controlled) :
    (s.settle kill rest).disk = s.disk := by
  cases rest <;> rfl

theorem turn_disk {env : Env} (hs : s.turn param env = some s') : s'.disk = s.disk := by
  obtain ⟨-, -, ⟨-, rfl⟩ | ⟨net, sent, -, hs⟩⟩ := turn_cases hs
  · rfl
  · rcases hs with ⟨-, -, rfl⟩ | ⟨-, -, rfl⟩ | ⟨-, rfl⟩
    · rfl
    · exact settle_disk _ _ _
    · exact settle_disk _ _ _

theorem confirm_disk (hs : s.confirm param = some s') : s'.disk = s.disk := by
  obtain ⟨threads, -, ⟨env, -, rfl⟩ | ⟨-, rfl⟩⟩ := confirm_cases hs
  · exact settle_disk _ _ _
  · rfl

theorem confirm_threads (hs : s.confirm param = some s') :
    ∃ threads, s.threads.step .confirm = some threads ∧ s'.threads = threads := by
  obtain ⟨threads, ht, ⟨env, -, rfl⟩ | ⟨-, rfl⟩⟩ := confirm_cases hs
  · exact ⟨threads, ht, (settle_frame _ _ _).1⟩
  · exact ⟨threads, ht, rfl⟩

theorem network_disk {action : GetAction} (hnet : action.ofDisk = false)
    (hs : s.step param action = some s') : s'.disk = s.disk := by
  replace hs := (step_act hs).2
  rcases network_cases hnet hs with
    ⟨ring, threads, -, -, -, rfl⟩ | ⟨env, rfl⟩ | rfl | ⟨write, rfl⟩ | rfl
  · rfl
  · exact turn_disk hs
  · exact confirm_disk hs
  · obtain ⟨-, ⟨-, rfl⟩ | ⟨-, rfl⟩⟩ := requestStop_cases hs <;> rfl
  · obtain ⟨-, -, rfl⟩ := join_cases hs
    rfl

theorem network_read {action : GetAction} (hnet : action.ofDisk = false)
    (hs : s.step param action = some s') {slot : Int} {d : List UInt8}
    (hread : s.threads.consumer = .read slot d) : s'.threads.consumer = .read slot d := by
  have hact := (step_act hs).2
  rcases network_cases hnet hact with
    ⟨ring, threads, hside, -, ht, rfl⟩ | ⟨env, rfl⟩ | rfl | hstop | hjoin
  · exact Threads.read_kept ht hside hread
  · rw [(turn_frame hact).2.1, hread]
  · obtain ⟨threads, ht, hthreads⟩ := confirm_threads hact
    rw [hthreads]
    exact Threads.read_kept ht rfl hread
  · rw [(rest_frame hs (Or.inl hstop)).2, hread]
  · rw [(rest_frame hs (Or.inr (Or.inl hjoin))).2, hread]

theorem exited_before {action : GetAction} (hs : s.step param action = some s')
    (h : s'.disk = .exited) : s.disk = .exited ∨ ∃ result, action = .accept result := by
  cases hside : action.ofDisk with
  | true =>
    rcases disk_cases hside (step_act hs).2 with hlooks | ⟨ring, threads, -, -, rfl⟩
    · exact Or.inr hlooks
    · exact Or.inl (afterRingCall_exited h)
  | false => exact Or.inl ((network_disk hside hs).symm.trans h)

theorem exited_step {action : GetAction} (h : Inv s) (hs : s.step param action = some s')
    (hwrites : ∀ result slot d, action = .accept result → s.threads.consumer = .read slot d →
      blockNumber d ≠ 0 →
        (acceptBlock param s.net.xfer result (blockNumber d) (d.drop 6) s.file).ok = true)
    (hbefore : s.disk = .exited → 0 ∈ s.stored) (hexit : s'.disk = .exited) : 0 ∈ s'.stored := by
  rcases exited_before hs hexit with hexited | ⟨result, rfl⟩
  · exact stored_step h hs (hbefore hexited)
  · apply stored_step h hs
    obtain ⟨slot, d, hread, -, ⟨hzero, -⟩ | ⟨hnz, rfl⟩⟩ := accept_cases (step_act hs).2
    · obtain ⟨rest, hqueue⟩ := Threads.read_head h.ring hread
      rw [stored, h.ring.history, hqueue]
      simp [hzero]
    · rw [hwrites result slot d rfl hread hnz, if_pos rfl] at hexit
      cases hexit

structure Exited (s : Get) : Prop where
  disk : s.disk = .exited
  reading : ∃ slot d, s.threads.consumer = .read slot d

theorem Exited.no_step (h : Exited s) {action : GetAction} (hdisk : action.ofDisk = true) :
    s.step param action = none := by
  have hlooping : s.disk ≠ .looping := by
    rw [h.disk]
    decide
  have haccepted : s.disk ≠ .accepted := by
    rw [h.disk]
    decide
  obtain ⟨slot, d, hread⟩ := h.reading
  have hnone : s.act param action = none := by
    cases action with
    | peek => exact if_neg hlooping
    | read => exact if_neg hlooping
    | pop => exact if_neg haccepted
    | accept result =>
      dsimp only [act, accept]
      rw [hread]
      exact if_neg hlooping
    | consumerWakes =>
      dsimp only [act, consumerWakes]
      cases hs : s.threads.step .consumerWakes with
      | none => rfl
      | some threads => exact absurd hread (Threads.consumerWakes_not_read hs)
    | _ => cases hdisk
  rw [step, hnone, ite_self]

theorem Exited.of_network (h : Exited s) {action : GetAction} (hs : s.step param action = some s') :
    action.ofDisk = false := by
  by_contra hdisk
  rw [h.no_step (by simpa using hdisk)] at hs
  cases hs

theorem Exited.step (h : Exited s) {action : GetAction} (hs : s.step param action = some s') :
    Exited s' := by
  have hnet := h.of_network hs
  obtain ⟨slot, d, hread⟩ := h.reading
  exact ⟨(network_disk hnet hs).trans h.disk, slot, d, network_read hnet hs hread⟩

theorem exited_reading {action : GetAction} (h : s.disk = .exited → Exited s)
    (hs : s.step param action = some s') (hexit : s'.disk = .exited) : Exited s' := by
  rcases exited_before hs hexit with hexited | ⟨result, rfl⟩
  · exact (h hexited).step hs
  · obtain ⟨slot, d, hread, -⟩ := accept_cases (step_act hs).2
    refine ⟨hexit, slot, d, ?_⟩
    rw [(rest_frame hs (Or.inr (Or.inr ⟨result, rfl⟩))).2, hread]

end Get

end TsunamiUdp.Client

import TsunamiUdp.Client.Get

/-! What the client writes to the control channel during a transfer. -/
namespace TsunamiUdp.Client
open Library

variable {param : Parameter} {env : Env} {xfer : Transfer}

/-- A request that fits its record; a retransmission is asked for a block of the file. -/
structure Sensible (blockCount : Nat) (r : Retransmission) : Prop where
  fits : r.Fits
  oneByte : r.requestType < 256
  inFile : r.requestType = requestRetransmit → 1 ≤ r.block ∧ r.block ≤ blockCount

structure Asked (blockCount : Nat) (r : Retransmission) : Prop extends Sensible blockCount r where
  goesOn : r.requestType ≠ requestStop

theorem sensible_stop (blockCount : Nat) : Sensible blockCount ttpRequestStop :=
  ⟨⟨by decide, by decide, by decide⟩, by decide, fun h => absurd h (by decide)⟩

theorem asked_retransmit {b : Nat} (hn : xfer.blockCount < 4294967296)
    (hb : b ∈ outstanding xfer) : Asked xfer.blockCount ⟨requestRetransmit, b, 0⟩ := by
  have hwant := (List.mem_filter.mp hb).2
  simp only [ne_eq, decide_eq_true_eq] at hwant
  have hle := le_of_not_gotBlock hwant.2
  exact ⟨⟨⟨(by decide : (0 : Nat) < 65536), by dsimp only; omega, (by decide : (0 : Nat) < _)⟩,
    (by decide : (0 : Nat) < 256), fun _ => ⟨Nat.pos_of_ne_zero hwant.1, hle⟩⟩,
    (by decide : requestRetransmit ≠ requestStop)⟩

theorem asked_other {blockCount type block errorRate : Nat} (htype : type < 256)
    (hother : type ≠ requestRetransmit) (hgoes : type ≠ requestStop) (hblock : block < 4294967296)
    (hrate : errorRate < 4294967296) : Asked blockCount ⟨type, block, errorRate⟩ :=
  ⟨⟨⟨by dsimp only; omega, hblock, hrate⟩, htype, fun h => absurd h hother⟩, hgoes⟩

theorem asked_repeat (write : WriteResult) (hn : xfer.blockCount < 4294967296) :
    ∀ r ∈ (ttpRepeatRetransmit write xfer).sent, Asked xfer.blockCount r := by
  intro r hr
  unfold ttpRepeatRetransmit at hr
  simp only [purge_entries] at hr
  split at hr
  · cases write with
    | ok =>
      obtain rfl := List.mem_singleton.mp hr
      exact asked_other (by decide) (by decide) (by decide) ((Nat.min_le_left _ _).trans_lt hn) (by decide)
    | fwriteFails => cases hr
    | fflushFails => cases hr
  · split at hr
    · obtain ⟨b, hb, rfl⟩ := List.mem_map.mp hr
      exact asked_retransmit hn (List.mem_of_mem_take hb)
    · cases hr

theorem asked_stats {write : WriteResult} {countData : Int} {updated : Written}
    (h : ttpUpdateStats param write countData xfer = some updated) (blockCount : Nat) :
    ∀ r ∈ updated.sent, Asked blockCount r := by
  intro r hr
  rcases (ttpUpdateStats_some h).2 with hnone | ⟨rate, hone⟩
  · rw [hnone] at hr
    cases hr
  · rw [hone] at hr
    obtain rfl := List.mem_singleton.mp hr
    exact asked_other (by decide) (by decide) (by decide) (by decide) (reportedRate_lt rate)

theorem asked_sendStats {xfer' : Transfer} {sent : List Retransmission}
    (hn : xfer.blockCount < 4294967296) (h : sendStats param env xfer = some (xfer', sent)) :
    ∀ r ∈ sent, Asked xfer.blockCount r := by
  intro r hr
  rcases sendStats_cases h with ⟨-, rfl⟩ | ⟨-, updated, hupdated, -, rfl⟩
  · cases hr
  · rcases List.mem_append.mp hr with hr | hr
    · exact asked_repeat _ hn r hr
    · exact asked_stats hupdated _ r hr

theorem asked_atTerminate {c : Controlled} (hn : xfer.blockCount < 4294967296)
    (h : atTerminate param env xfer = some c) : ∀ r ∈ c.sent, Asked xfer.blockCount r := by
  rcases atTerminate_cases h with ⟨-, rfl⟩ | ⟨-, -, mid, hmid, rfl⟩
  · exact fun r hr => by cases hr
  · have hcount := (sameBlocks_requestRange hmid).blockCount
    rw [← hcount] at hn ⊢
    exact asked_repeat _ hn

theorem asked_control {block type : Nat} {c : Controlled} (hn : xfer.blockCount < 4294967296)
    (h : control param env xfer block type = some c) :
    ∀ r ∈ c.sent, Asked xfer.blockCount r := by
  rcases control_cases h with ⟨-, rfl⟩ | ⟨-, mid, hmid, ⟨-, hend⟩ | ⟨-, rfl⟩⟩
  · exact fun r hr => by cases hr
  · have hmoved := (sameBlocks_queueMissing hmid).trans (sameBlocks_moved block type mid)
    rw [← hmoved.blockCount] at hn ⊢
    exact asked_atTerminate hn hend
  · exact fun r hr => by cases hr

theorem asked_afterRing {block type : Nat} {c : Controlled} (hn : xfer.blockCount < 4294967296)
    (h : afterRing param env xfer block type = some c) :
    ∀ r ∈ c.sent, Asked xfer.blockCount r := by
  obtain ⟨mid, hmid, ⟨-, rfl⟩ | ⟨-, after, more, hstats, rfl⟩⟩ := afterRing_cases h
  · exact asked_control hn hmid
  · have hcount := (sameBlocks_control hmid).blockCount
    intro r hr
    rcases List.mem_append.mp hr with hr | hr
    · exact asked_control hn hmid r hr
    · rw [← hcount] at hn ⊢
      exact asked_sendStats hn hstats r hr

theorem asked_arrive {net net' : Net} {sent : List Retransmission}
    (hn : net.xfer.blockCount < 4294967296) (h : arrive param env net = some (net', sent)) :
    ∀ r ∈ sent, Asked net.xfer.blockCount r := by
  intro r hr
  obtain ⟨-, ⟨-, rfl⟩ | ⟨-, -, rfl⟩⟩ := arrive_cases h
  · cases hr
  · exact asked_repeat _ hn r hr

namespace Get
variable {s s' : Get}

def Asks (s s' : Get) : Prop :=
  ∃ more, s'.sent = s.sent ++ more ∧ ∀ r ∈ more, Asked s.net.xfer.blockCount r

theorem asks_nothing (h : s'.sent = s.sent) : Asks s s' :=
  ⟨[], by rw [h, List.append_nil], fun _ hr => by cases hr⟩

theorem asks_settle {kill : Bool} {rest : Option Controlled} {more : List Retransmission}
    (hmore : ∀ r ∈ more, Asked s.net.xfer.blockCount r)
    (hrest : ∀ c, rest = some c → ∀ r ∈ c.sent, Asked s.net.xfer.blockCount r)
    (hsent : s'.sent = s.sent ++ more) : Asks s (s'.settle kill rest) := by
  cases rest with
  | none => exact ⟨more, hsent, hmore⟩
  | some c =>
    refine ⟨more ++ c.sent, ?_, fun r hr => ?_⟩
    · rw [← List.append_assoc, ← hsent]
      rfl
    · rcases List.mem_append.mp hr with hr | hr
      · exact hmore r hr
      · exact hrest c rfl r hr

theorem asks_turn (hn : s.net.xfer.blockCount < 4294967296) (hs : s.turn param env = some s') :
    Asks s s' := by
  obtain ⟨-, -, ⟨-, rfl⟩ | ⟨net, sent, harrive, hs⟩⟩ := turn_cases hs
  · exact asks_nothing rfl
  · have hmore := asked_arrive hn harrive
    have hcount := (arrive_spec harrive).1.blockCount
    rw [← hcount] at hn
    rcases hs with ⟨-, -, rfl⟩ | ⟨-, -, rfl⟩ | ⟨-, rfl⟩
    · exact ⟨sent, rfl, hmore⟩
    · refine asks_settle hmore (fun c hc => ?_) rfl
      rw [← hcount]
      exact asked_afterRing hn hc
    · refine asks_settle hmore (fun c hc => ?_) rfl
      obtain ⟨⟨xfer, more⟩, hstats, rfl⟩ := Option.map_eq_some_iff.mp hc
      rw [← hcount]
      exact asked_sendStats hn hstats

theorem asks_confirm (hn : s.net.xfer.blockCount < 4294967296) (hs : s.confirm param = some s') :
    Asks s s' := by
  obtain ⟨threads, -, ⟨env, -, rfl⟩ | ⟨-, rfl⟩⟩ := confirm_cases hs
  · have hmarked : (markReceived s.net.xfer (blockNumber s.net.localDatagram)).blockCount
        < 4294967296 := hn
    refine asks_settle (fun _ hr => by cases hr) (fun c hc => ?_) (List.append_nil _).symm
    have hsent := asked_afterRing hmarked hc
    exact hsent
  · exact asks_nothing rfl

theorem asks_step {action : GetAction} (hn : s.net.xfer.blockCount < 4294967296)
    (hs : s.step param action = some s') :
    Asks s s' ∨ ((∃ write, action = .requestStop write) ∧ s'.sent = s.sent ++ [ttpRequestStop]) := by
  have hcases := step_cases hs
  replace hs := (step_act hs).2
  rcases hcases with hcall | ⟨env, rfl⟩ | rfl | ⟨write, rfl⟩ | rfl | ⟨result, rfl⟩
  · exact Or.inl (asks_nothing hcall.sent)
  · exact Or.inl (asks_turn hn hs)
  · exact Or.inl (asks_confirm hn hs)
  · obtain ⟨-, ⟨-, rfl⟩ | ⟨-, rfl⟩⟩ := requestStop_cases hs
    · exact Or.inr ⟨⟨write, rfl⟩, rfl⟩
    · exact Or.inl (asks_nothing rfl)
  · obtain ⟨-, -, rfl⟩ := join_cases hs
    exact Or.inl (asks_nothing rfl)
  · obtain ⟨slot, d, -, -, ⟨-, rfl⟩ | ⟨-, rfl⟩⟩ := accept_cases hs <;> exact Or.inl (asks_nothing rfl)

end Get

end TsunamiUdp.Client

import Mathlib.Algebra.BigOperators.Group.Finset.Basic
import TsunamiUdp.Client.Table

/-! How often a block is in the retransmission table in lossless mode: as often as the
loops of requests have passed over it, missing, since the requests were last repeated. -/
namespace TsunamiUdp.Client
open Library

/-- A state of the transfer with the number of passes over each block. -/
structure Account where
  xfer : Transfer
  passes : Nat → Nat

/-- A loop of `count` requests passes over the missing blocks from `first` on, as far as
the table has room for them. -/
def passOver (xfer : Transfer) (count first : Nat) (passes : Nat → Nat) : Nat → Nat :=
  fun b => if b ∈ (wanted xfer count first).take (space xfer.rexmit) then passes b + 1 else passes b

namespace Account

/-- The passes over blocks that are still missing. -/
def pending (a : Account) : Nat := ∑ b ∈ missing a.xfer, a.passes b

/-- A repetition forgets the passes over what has arrived, and a restart all of them; one
that cannot be written leaves the table half compacted behind. -/
def afterRepeat (a : Account) (write : WriteResult) : Nat → Nat := fun b =>
  if a.pending < maxRetransmissionBuffer then if b ∈ missing a.xfer then a.passes b else 0
  else if write = .fwriteFails then
    ((outstanding a.xfer).take maxRetransmissionBuffer ++
      a.xfer.rexmit.entries.drop maxRetransmissionBuffer).count b
  else 0

def repeated (a : Account) (write : WriteResult) : Account :=
  ⟨(ttpRepeatRetransmit write a.xfer).xfer, a.afterRepeat write⟩

end Account

def controlAccounts (param : Parameter) (env : Env) (a : Account) (block type : Nat) :
    List Account :=
  if onWire a.xfer block type then []
  else (queueMissing param env a.xfer block).toList.flatMap fun mid =>
    let queued := if block > a.xfer.nextBlock then
        passOver a.xfer (block - a.xfer.nextBlock) a.xfer.nextBlock a.passes
      else a.passes
    let head := headed block type mid
    ⟨mid, queued⟩ :: ⟨head, queued⟩ ::
      if type = tsBlockTerminate ∧ head.blocksLeft ≠ 0 then
        (requestRest env head).toList.flatMap fun full =>
          let rest : Account := ⟨full, passOver head
            (head.blockCount - wrap32 (head.gaplessToBlock + 1)) (wrap32 (head.gaplessToBlock + 1))
            queued⟩
          [rest, rest.repeated env.terminateWrite]
      else []

def feedbackAccounts (param : Parameter) (env : Env) (a : Account) : List Account :=
  (sendStats param env a.xfer).toList.map fun (xfer, _) =>
    ⟨xfer, if statsDue env a.xfer then a.afterRepeat env.periodicWrite else a.passes⟩

def takeIn (xfer : Transfer) (block : Nat) : Transfer :=
  if gotBlock xfer block = false then markReceived xfer block else xfer

@[simp] theorem takeIn_rexmit (xfer : Transfer) (block : Nat) :
    (takeIn xfer block).rexmit = xfer.rexmit := by
  unfold takeIn
  split <;> rfl

def heardPasses (env : Env) (a : Account) : Nat → Nat :=
  match env.recv with
  | .error => a.afterRepeat env.errorWrite
  | .datagram _ => a.passes

def turnAccounts (param : Parameter) (env : Env) (net : Net) (passes : Nat → Nat) : List Account :=
  (arrive param env net).toList.flatMap fun (arrived, _) =>
    let block := blockNumber arrived.localDatagram
    let type := blockType arrived.localDatagram
    let heard : Account := ⟨arrived.xfer, heardPasses env ⟨net.xfer, passes⟩⟩
    if enters env.ringFull arrived.xfer block type then
      let taken : Account := ⟨takeIn arrived.xfer block, heard.passes⟩
      let controlled := controlAccounts param env taken block type
      heard :: taken :: controlled ++ (control param env taken.xfer block type).toList.flatMap fun c =>
        if c.finished then [] else feedbackAccounts param env (controlled.getLastD taken)
    else heard :: feedbackAccounts param env heard

structure Watched where
  loop : Loop
  passes : Nat → Nat

def Watched.account (s : Watched) : Account := ⟨s.loop.net.xfer, s.passes⟩

def Watched.start (param : Parameter) (xfer : Transfer) : Watched := ⟨Loop.start param xfer, fun _ => 0⟩

def Watched.step (param : Parameter) (s : Watched) (env : Env) : Option Watched :=
  (Loop.step param s.loop env).map fun loop =>
    ⟨loop, ((turnAccounts param env s.loop.net s.passes).getLastD s.account).passes⟩

/-- What a call of `ttp_repeat_retransmit` asks for: each missing block once at most, and
a restart only if many are missing. -/
structure RepeatsOnce (xfer : Transfer) (sent : List Retransmission) : Prop where
  once : (sent.map Retransmission.block).Nodup
  wanted : ∀ r ∈ sent, r.requestType = requestRetransmit → r.block ∈ missing xfer
  restart : ∀ r ∈ sent, r.requestType = requestRestart → maxRetransmissionBuffer ≤ (missing xfer).card

/-- The table holds each block as often as it was passed over, and `ttp_repeat_retransmit`
asks for it that often, or goes back once so many requests are pending. -/
structure Account.AsksAsPassed (a : Account) : Prop where
  table : ∀ b, a.xfer.rexmit.entries.count b = a.passes b
  distinct : a.xfer.rexmit.entries.Nodup ↔ ∀ b, a.passes b ≤ 1
  few : a.pending < maxRetransmissionBuffer → ∀ r, (ttpRepeatRetransmit .ok a.xfer).sent.count r =
    if r = ⟨requestRetransmit, r.block, 0⟩ ∧ r.block ∈ missing a.xfer then a.passes r.block else 0
  many : maxRetransmissionBuffer ≤ a.pending → (ttpRepeatRetransmit .ok a.xfer).sent =
    [⟨requestRestart, min a.xfer.blockCount (wrap32 (a.xfer.gaplessToBlock + 1)), 0⟩]
  once : (∀ b, a.passes b ≤ 1) → ∀ write, RepeatsOnce a.xfer (ttpRepeatRetransmit write a.xfer).sent

section Repeat
variable {xfer : Transfer}

theorem outstanding_card (h : xfer.rexmit.entries.Nodup) :
    (outstanding xfer).length ≤ (missing xfer).card := by
  rw [← List.toFinset_card_of_nodup (outstanding_nodup h)]
  apply Finset.card_le_card
  intro b hb
  exact mem_missing_of_outstanding (List.mem_toFinset.mp hb)

theorem repeatsOnce_nil : RepeatsOnce xfer [] :=
  ⟨List.nodup_nil, fun _ h => absurd h List.not_mem_nil, fun _ h => absurd h List.not_mem_nil⟩

theorem repeatsOnce (h : xfer.rexmit.entries.Nodup) (write : WriteResult) :
    RepeatsOnce xfer (ttpRepeatRetransmit write xfer).sent := by
  unfold ttpRepeatRetransmit
  simp only [purge_entries]
  split
  · rename_i hmany
    have hcard : maxRetransmissionBuffer ≤ (missing xfer).card := by
      rw [List.length_take] at hmany
      have hle := outstanding_card h
      omega
    cases write with
    | ok =>
      refine ⟨List.nodup_singleton _, ?_, fun _ _ _ => hcard⟩
      intro r hr htype
      cases List.mem_singleton.mp hr
      exact absurd htype (by dsimp only; decide)
    | fwriteFails => exact repeatsOnce_nil
    | fflushFails => exact repeatsOnce_nil
  · split
    · refine ⟨?_, ?_, ?_⟩
      · rw [List.map_map]
        have hid : (Retransmission.block ∘ fun b => ⟨requestRetransmit, b, 0⟩) = (id : Nat → Nat) := rfl
        rw [hid, List.map_id]
        exact (outstanding_nodup h).sublist (List.take_sublist _ _)
      · intro r hr _
        obtain ⟨b, hb, rfl⟩ := List.mem_map.mp hr
        exact mem_missing_of_outstanding (List.mem_of_mem_take hb)
      · intro r hr htype
        obtain ⟨b, hb, rfl⟩ := List.mem_map.mp hr
        exact absurd htype (by dsimp only; decide)
    · exact repeatsOnce_nil

theorem wanted_iff_missing {b : Nat} : b ≠ 0 ∧ gotBlock xfer b = false ↔ b ∈ missing xfer := by
  constructor
  · intro ⟨hpos, hgot⟩
    have hle := le_of_not_gotBlock hgot
    rw [gotBlock_of_le hle] at hgot
    exact mem_missing.mpr ⟨⟨Nat.pos_of_ne_zero hpos, hle⟩, hgot⟩
  · intro hmissing
    obtain ⟨⟨hpos, hle⟩, hgot⟩ := mem_missing.mp hmissing
    exact ⟨by omega, (gotBlock_of_le hle).trans hgot⟩

theorem outstanding_count (xfer : Transfer) (b : Nat) :
    (outstanding xfer).count b = if b ∈ missing xfer then xfer.rexmit.entries.count b else 0 := by
  unfold outstanding
  split
  · rename_i hmissing
    exact List.count_filter (by simpa using wanted_iff_missing.mpr hmissing)
  · rename_i harrived
    refine List.count_eq_zero.mpr fun hmem => harrived ?_
    exact wanted_iff_missing.mp (by simpa using (List.mem_filter.mp hmem).2)

theorem outstanding_length (xfer : Transfer) :
    (outstanding xfer).length = ∑ b ∈ missing xfer, xfer.rexmit.entries.count b := by
  have hcounts : ∑ b ∈ missing xfer, xfer.rexmit.entries.count b =
      ∑ b ∈ missing xfer, (outstanding xfer).count b :=
    Finset.sum_congr rfl fun b hb => by rw [outstanding_count, if_pos hb]
  rw [hcounts, ← List.sum_toFinset_count_eq_length]
  refine Finset.sum_subset (fun b hb => ?_) fun b _ hb => ?_
  · exact mem_missing_of_outstanding (List.mem_toFinset.mp hb)
  · exact List.count_eq_zero.mpr fun hmem => hb (List.mem_toFinset.mpr hmem)

end Repeat

structure Account.Counted (a : Account) : Prop where
  grown : a.xfer.rexmit.Grown
  count : ∀ b, a.xfer.rexmit.entries.count b = a.passes b

namespace Account.Counted
variable {a : Account} {param : Parameter} {env : Env} {block type : Nat}

theorem pending (h : a.Counted) : a.pending = (outstanding a.xfer).length := by
  rw [outstanding_length]
  exact Finset.sum_congr rfl fun b _ => (h.count b).symm

theorem same {xfer : Transfer} (h : a.Counted) (hsame : xfer.rexmit = a.xfer.rexmit) :
    Counted ⟨xfer, a.passes⟩ :=
  ⟨hsame ▸ h.grown, fun b => hsame ▸ h.count b⟩

theorem passOver {alloc : Nat → Bool} {count first : Nat} {xfer : Transfer} (h : a.Counted)
    (hrange : requestRange alloc count first a.xfer = some xfer) :
    Counted ⟨xfer, Client.passOver a.xfer count first a.passes⟩ := by
  obtain ⟨hentries, hgrown⟩ := requestRange_entries h.grown hrange
  have hqueued : ((wanted a.xfer count first).take (space a.xfer.rexmit)).Nodup :=
    (List.Nodup.filter _ List.nodup_range').sublist (List.take_sublist _ _)
  refine ⟨hgrown, fun b => ?_⟩
  dsimp only [Client.passOver]
  rw [hentries, List.count_append, h.count, hqueued.count]
  split <;> rfl

theorem repeated (h : a.Counted) (write : WriteResult) : (a.repeated write).Counted := by
  refine ⟨repeat_grown h.grown write, fun b => ?_⟩
  dsimp only [Account.repeated, afterRepeat]
  rw [h.pending]
  split
  · rename_i hfew
    rw [(ttpRepeatRetransmit_few write hfew).1, outstanding_count, h.count]
  · rename_i hmany
    split
    · rename_i hlost
      rw [hlost, lost_entries (not_lt.mp hmany)]
    · rename_i hwrites
      obtain ⟨-, rexmit, stats, last, clear, hindex, -, -, hxfer⟩ :=
        ttpRepeatRetransmit_many write (not_lt.mp hmany) hwrites
      rw [hxfer]
      simp [Retransmit.entries, hindex]

theorem asksAsPassed (h : a.Counted) : a.AsksAsPassed := by
  have hdistinct : a.xfer.rexmit.entries.Nodup ↔ ∀ b, a.passes b ≤ 1 := by
    rw [List.nodup_iff_count_le_one]
    exact forall_congr' fun b => by rw [h.count]
  refine ⟨h.count, hdistinct, fun hfew r => ?_, fun hmany => ?_, fun honce write => ?_⟩
  · rw [h.pending] at hfew
    rw [((ttpRepeatRetransmit_few .ok hfew).2.1 rfl).2]
    split
    · rename_i hr
      rw [hr.1, List.count_map_of_injective _ (fun b => (⟨requestRetransmit, b, 0⟩ : Retransmission))
        (fun b c hbc => congrArg Retransmission.block hbc), outstanding_count, if_pos hr.2, h.count]
    · rename_i hr
      refine List.count_eq_zero.mpr fun hmem => hr ?_
      obtain ⟨b, hb, rfl⟩ := List.mem_map.mp hmem
      exact ⟨rfl, mem_missing_of_outstanding hb⟩
  · rw [h.pending] at hmany
    exact ((ttpRepeatRetransmit_many .ok hmany (by decide)).1 rfl).2
  · exact repeatsOnce (hdistinct.mpr honce) write

theorem control (hlossless : param.lossless = true) (h : a.Counted) :
    ∀ x ∈ controlAccounts param env a block type, x.Counted := by
  intro x hx
  unfold controlAccounts at hx
  split at hx
  · cases hx
  · obtain ⟨mid, hmid, hx⟩ := List.mem_flatMap.mp hx
    have hmid := Option.mem_toList.mp hmid
    have hqueued : Counted ⟨mid, if block > a.xfer.nextBlock then
        Client.passOver a.xfer (block - a.xfer.nextBlock) a.xfer.nextBlock a.passes
      else a.passes⟩ := by
      unfold queueMissing at hmid
      split at hmid
      · rename_i hahead
        rw [if_pos hahead]
        exact h.passOver hmid
      · rename_i hbehind
        cases hmid
        rw [if_neg hbehind]
        exact h
    have hheaded := hqueued.same (headed_rexmit block type mid)
    rcases List.mem_cons.mp hx with rfl | hx
    · exact hqueued
    rcases List.mem_cons.mp hx with rfl | hx
    · exact hheaded
    split at hx
    · obtain ⟨full, hfull, hx⟩ := List.mem_flatMap.mp hx
      have hrest := hheaded.passOver (Option.mem_toList.mp hfull)
      rcases List.mem_pair.mp hx with rfl | rfl
      · exact hrest
      · exact hrest.repeated env.terminateWrite
    · cases hx

theorem feedback (h : a.Counted) : ∀ x ∈ feedbackAccounts param env a, x.Counted := by
  intro x hx
  obtain ⟨⟨xfer, sent⟩, hstats, rfl⟩ := List.mem_map.mp hx
  have hstats := Option.mem_toList.mp hstats
  dsimp only
  by_cases hdue : statsDue env a.xfer
  · rw [if_pos hdue]
    unfold sendStats at hstats
    rw [if_pos hdue] at hstats
    dsimp only at hstats
    split at hstats
    · obtain ⟨updated, hupdated, hxfer⟩ := Option.map_eq_some_iff.mp hstats
      obtain ⟨⟨stats, hframe⟩, -⟩ := ttpUpdateStats_some hupdated
      cases hxfer
      exact (h.repeated env.periodicWrite).same (by rw [hframe]; rfl)
    · cases hstats
  · rw [if_neg hdue]
    unfold sendStats at hstats
    rw [if_neg hdue] at hstats
    cases hstats
    exact h

theorem heard {net net' : Net} {sent : List Retransmission} {passes : Nat → Nat}
    (h : Counted ⟨net.xfer, passes⟩) (harrive : arrive param env net = some (net', sent)) :
    Counted ⟨net'.xfer, heardPasses env ⟨net.xfer, passes⟩⟩ := by
  unfold heardPasses
  unfold arrive at harrive
  cases hrecv : env.recv with
  | datagram bytes =>
    rw [hrecv] at harrive
    cases harrive
    exact h.same rfl
  | error =>
    rw [hrecv] at harrive
    dsimp only at harrive
    split at harrive
    · cases harrive
      exact (h.repeated env.errorWrite).same rfl
    · cases harrive

theorem latest {l : List Account} (h : a.Counted) (hall : ∀ x ∈ l, x.Counted) :
    (l.getLastD a).Counted := by
  rcases List.mem_cons.mp (List.getLastD_mem_cons (l := l) (a := a)) with heq | hmem
  · rwa [heq]
  · exact hall _ hmem

end Account.Counted

section Turn
variable {param : Parameter} {env : Env} {net : Net} {a : Account} {block type : Nat}

theorem controlAccounts_last {c : Controlled} (hlossless : param.lossless = true)
    (hc : control param env a.xfer block type = some c) :
    ((controlAccounts param env a block type).getLastD a).xfer = c.xfer := by
  unfold controlAccounts
  rcases control_cases hc with ⟨hwire, rfl⟩ | ⟨hwire, mid, hmid, hmove⟩
  · rw [if_pos hwire]
    rfl
  · rw [if_neg (by simp [hwire]), hmid, Option.toList_some, List.flatMap_singleton]
    have hpath : clearRestart (moveHead block type (closeGap mid)) = headed block type mid := rfl
    rw [hpath] at hmove
    dsimp only
    generalize ite (block > a.xfer.nextBlock) _ _ = queued
    rw [List.getLastD_cons, List.getLastD_cons]
    rcases hmove with ⟨htype, hat⟩ | ⟨htype, rfl⟩
    · rcases atTerminate_cases hat with ⟨hdone | ⟨hlossy, -⟩, rfl⟩ | ⟨hleft, -, full, hfull, rfl⟩
      · rw [if_neg fun hend => hend.2 hdone]
        rfl
      · rw [hlossless] at hlossy
        cases hlossy
      · have hrest : requestRest env (headed block type mid) = some full := hfull
        rw [if_pos ⟨htype, hleft⟩, hrest]
        rfl
    · rw [if_neg fun hend => htype hend.1]
      rfl

theorem feedbackAccounts_eq {xfer' : Transfer} {sent : List Retransmission}
    (h : sendStats param env a.xfer = some (xfer', sent)) :
    ∃ passes, feedbackAccounts param env a = [⟨xfer', passes⟩] := by
  unfold feedbackAccounts
  rw [h]
  exact ⟨_, rfl⟩

theorem turnAccounts_counted (hlossless : param.lossless = true) {passes : Nat → Nat}
    (h : Account.Counted ⟨net.xfer, passes⟩) :
    ∀ x ∈ turnAccounts param env net passes, x.Counted := by
  intro x hx
  obtain ⟨⟨arrived, sent⟩, harrive, hx⟩ := List.mem_flatMap.mp hx
  have hheard := h.heard (Option.mem_toList.mp harrive)
  dsimp only at hx
  split at hx
  · have htaken := hheard.same (takeIn_rexmit arrived.xfer (blockNumber arrived.localDatagram))
    rcases List.mem_append.mp hx with hx | hx
    · rcases List.mem_cons.mp hx with rfl | hx
      · exact hheard
      rcases List.mem_cons.mp hx with rfl | hx
      · exact htaken
      · exact htaken.control hlossless x hx
    · obtain ⟨c, -, hx⟩ := List.mem_flatMap.mp hx
      split at hx
      · cases hx
      · exact (htaken.latest (htaken.control hlossless)).feedback x hx
  · rcases List.mem_cons.mp hx with rfl | hx
    · exact hheard
    · exact hheard.feedback x hx

theorem turnAccounts_last {turn : Turn} (hlossless : param.lossless = true) {passes : Nat → Nat}
    (h : receiveTurn param env net = some turn) (b : Account) :
    ((turnAccounts param env net passes).getLastD b).xfer = turn.net.xfer := by
  obtain ⟨⟨arrived, sent⟩, harrive, h⟩ := Option.bind_eq_some_iff.mp h
  unfold turnAccounts
  rw [harrive, Option.toList_some, List.flatMap_singleton]
  dsimp only at h ⊢
  split at h
  · rename_i henter
    obtain ⟨c, hc, rfl⟩ := Option.map_eq_some_iff.mp h
    rw [if_pos henter]
    change afterRing param env (takeIn arrived.xfer (blockNumber arrived.localDatagram)) _ _ = some c at hc
    obtain ⟨mid, hmid, hend⟩ := afterRing_cases hc
    have hlast := controlAccounts_last
      (a := ⟨takeIn arrived.xfer (blockNumber arrived.localDatagram), heardPasses env ⟨net.xfer, passes⟩⟩)
      hlossless hmid
    rw [hmid, Option.toList_some, List.flatMap_singleton]
    rcases hend with ⟨hover, rfl⟩ | ⟨hgoes, after, more, hstats, rfl⟩
    · rw [if_pos hover, List.append_nil, List.getLastD_cons, List.getLastD_cons]
      exact hlast
    · rw [← hlast] at hstats
      obtain ⟨last, hfeedback⟩ := feedbackAccounts_eq hstats
      rw [if_neg (by simp [hgoes]), hfeedback, List.getLastD_concat]
  · rename_i hskip
    obtain ⟨⟨xfer, more⟩, hstats, rfl⟩ := Option.map_eq_some_iff.mp h
    obtain ⟨last, hfeedback⟩ := feedbackAccounts_eq
      (a := ⟨arrived.xfer, heardPasses env ⟨net.xfer, passes⟩⟩) hstats
    rw [if_neg hskip, hfeedback]
    rfl

theorem Watched.counted_step {s s' : Watched} (hlossless : param.lossless = true)
    (h : s.account.Counted) (hs : s.step param env = some s') : s'.account.Counted := by
  obtain ⟨loop, hloop, rfl⟩ := Option.map_eq_some_iff.mp hs
  unfold Loop.step at hloop
  split at hloop
  · cases hloop
  · obtain ⟨turn, hturn, rfl⟩ := Option.map_eq_some_iff.mp hloop
    have haccounts : ∀ x ∈ turnAccounts param env s.loop.net s.passes, x.Counted :=
      turnAccounts_counted hlossless h
    have hlast := h.latest haccounts
    exact hlast.same (congrArg Transfer.rexmit (turnAccounts_last hlossless hturn s.account).symm)

theorem Watched.run_loop (param : Parameter) (s : Watched) (envs : List Env) :
    (run (Watched.step param) s envs).map Watched.loop = run (Loop.step param) s.loop envs := by
  induction envs generalizing s with
  | nil => rfl
  | cons env envs ih =>
    rw [run_cons, run_cons]
    unfold Watched.step
    cases hloop : Loop.step param s.loop env with
    | none => rfl
    | some loop => exact ih _

theorem Watched.counted_start (param : Parameter) (fileSize blockCount onWireEstimate : Nat) :
    (Watched.start param (.start fileSize blockCount onWireEstimate)).account.Counted :=
  ⟨Retransmit.Grown.start _ _ _, fun _ => rfl⟩

end Turn

/-- In every state that the turns of a lossless run go through, the table holds each block as
often as the loops of requests have passed over it, and it is asked for that often. -/
theorem asks_as_passed {param : Parameter} (hlossless : param.lossless = true)
    (fileSize blockCount onWireEstimate : Nat) (envs : List Env) :
    (run (Watched.step param) (.start param (.start fileSize blockCount onWireEstimate)) envs).map
        Watched.loop =
      run (Loop.step param) (.start param (.start fileSize blockCount onWireEstimate)) envs ∧
    Along (Watched.step param)
      (fun s env => ∀ a ∈ s.account :: turnAccounts param env s.loop.net s.passes, a.AsksAsPassed)
      (.start param (.start fileSize blockCount onWireEstimate)) envs := by
  refine ⟨Watched.run_loop _ _ _, Along.of_invariant (P := fun s => s.account.Counted)
    (fun _ _ _ h hs => Watched.counted_step hlossless h hs) (fun s env h a ha => ?_)
    (Watched.counted_start param fileSize blockCount onWireEstimate) envs⟩
  rcases List.mem_cons.mp ha with rfl | ha
  · exact h.asksAsPassed
  · exact (turnAccounts_counted hlossless h a ha).asksAsPassed

def lossless : Parameter := ⟨1, true, 0, 25⟩

def gapThenEnd : List Env :=
  [.calm (.datagram [0, 0, 0, 1, 0, 79, 7]), .calm (.datagram [0, 0, 0, 3, 0, 79, 7]),
    .calm (.datagram [0, 0, 0, 4, 0, 88, 7])]

/-- Block 2 is passed over when block 3 comes, and again at the end. -/
theorem gap_passed_twice :
    ∃ s, run (Watched.step lossless) (.start lossless (.start 4 4 0)) gapThenEnd = some s ∧
      s.passes 2 = 2 ∧ s.account.xfer.rexmit.entries.count 2 = s.passes 2 := by
  obtain ⟨s, hs⟩ : ∃ s, run (Watched.step lossless) (.start lossless (.start 4 4 0)) gapThenEnd =
    some s := Option.isSome_iff_exists.mp (by decide +kernel)
  have hpasses : (run (Watched.step lossless) (.start lossless (.start 4 4 0)) gapThenEnd).map
      (fun s => s.passes 2) = some 2 := by decide +kernel
  rw [hs] at hpasses
  have hasked := (asks_as_passed rfl 4 4 0 (gapThenEnd ++ [.calm .error])).2.last hs _ List.mem_cons_self
  exact ⟨s, hs, Option.some.inj hpasses, hasked.table 2⟩

def firstThenEnd : List Env :=
  [.calm (.datagram [0, 0, 0, 1, 0, 79, 7]), .calm (.datagram [0, 0, 4, 2, 0, 88, 7])]

section Restarted

def firstOf1026 : Transfer :=
  { Transfer.start 1026 1026 0 with
    nextBlock := 2
    gaplessToBlock := 1
    received := Function.update (fun _ => false) 1 true
    blocksLeft := 1025
    stats := ⟨1, 0, 0, 0, 0, 1, 0, some 0⟩ }

def gapOf1024 : Transfer := markReceived (countArrival tsBlockTerminate firstOf1026) 1026

theorem received_gapOf1024 (b : Nat) :
    gapOf1024.received b = decide (b = 1 ∨ b = 1026) := by
  simp only [gapOf1024, markReceived, countArrival, firstOf1026, Function.update_apply]
  split
  · simp_all
  · split <;> simp_all

theorem missing_gapOf1024 : (missing gapOf1024).card = 1024 := by
  have hgap : missing gapOf1024 = Finset.Icc 2 1025 := by
    ext b
    rw [mem_missing, Finset.mem_Icc, received_gapOf1024, decide_eq_false_iff_not]
    change (1 ≤ b ∧ b ≤ 1026) ∧ _ ↔ _
    omega
  rw [hgap, Nat.card_Icc]

variable {xfer : Transfer}

theorem gotBlock_gapOf1024 (h : SameBlocks gapOf1024 xfer) {b : Nat} (hb : b ∈ List.range' 2 1024) :
    gotBlock xfer b = false := by
  have hrange := List.mem_range'_1.mp hb
  rw [h.gotBlock, gotBlock_of_le (show b ≤ 1026 by omega), received_gapOf1024,
    decide_eq_false_iff_not]
  omega

theorem wanted_gapOf1024 (h : SameBlocks gapOf1024 xfer) : wanted xfer 1024 2 = List.range' 2 1024 :=
  List.filter_eq_self.mpr fun _ hb => decide_eq_true (gotBlock_gapOf1024 h hb)

/-- The gap is queued twice, which is enough for a restart. -/
theorem restart_at_end {alloc : Nat → Bool} {mid full : Transfer}
    (hmid : requestRange alloc 1024 2 gapOf1024 = some mid)
    (hfull : requestRange alloc 1024 2 mid = some full) :
    (ttpRepeatRetransmit .ok full).sent = [⟨requestRestart, 2, 0⟩] := by
  have hlen : (List.range' 2 1024).length = 1024 := List.length_range'
  have hsame := sameBlocks_requestRange hmid
  have hfresh : gapOf1024.rexmit.Grown := Retransmit.Grown.start 1026 1026 0
  obtain ⟨hone, hgrown⟩ := requestRange_entries hfresh hmid
  have htwo := (requestRange_entries hgrown hfull).1
  have hroom : 1024 ≤ space gapOf1024.rexmit := show 1024 ≤ 32 * 2048 - 0 by omega
  rw [wanted_gapOf1024 (SameBlocks.refl _), List.take_of_length_le (hlen.le.trans hroom)] at hone
  replace hone : mid.rexmit.entries = List.range' 2 1024 := hone
  have hroom : 1024 ≤ space mid.rexmit := by
    have hused := entries_length mid.rexmit
    rw [hone, hlen] at hused
    unfold space maxRetransmissionBuffer
    omega
  rw [wanted_gapOf1024 hsame, List.take_of_length_le (hlen.le.trans hroom), hone] at htwo
  have hall : outstanding full = List.range' 2 1024 ++ List.range' 2 1024 := by
    rw [← htwo]
    refine List.filter_eq_self.mpr fun b hb => ?_
    have hb : b ∈ List.range' 2 1024 := by simpa [htwo] using hb
    have hgot := gotBlock_gapOf1024 (hsame.trans (sameBlocks_requestRange hfull)) hb
    have hpos := (List.mem_range'_1.mp hb).1
    exact decide_eq_true ⟨by omega, hgot⟩
  have hmany : maxRetransmissionBuffer ≤ (outstanding full).length := by
    rw [hall, List.length_append, hlen]
    exact le_rfl
  obtain ⟨rexmit, rfl⟩ := requestRange_frame hmid
  obtain ⟨rexmit', rfl⟩ := requestRange_frame hfull
  exact ((ttpRepeatRetransmit_many .ok hmany (by decide)).1 rfl).2

theorem control_gapOf1024 {env : Env} (halloc : ∀ size, env.alloc size = true)
    (hwrite : env.terminateWrite = .ok) :
    ∃ c, control lossless env gapOf1024 1026 tsBlockTerminate = some c ∧ c.finished = false ∧
      c.sent = [⟨requestRestart, 2, 0⟩] := by
  obtain ⟨mid, hmid⟩ := requestRange_provided halloc 1024 2 gapOf1024
  obtain ⟨full, hfull⟩ := requestRange_provided halloc 1024 2 mid
  have hsent := restart_at_end hmid hfull
  have hqueue : queueMissing lossless env gapOf1024 1026 = some mid := hmid
  obtain ⟨rexmit, rfl⟩ := requestRange_frame hmid
  have hhead : clearRestart (moveHead 1026 tsBlockTerminate
      (closeGap { gapOf1024 with rexmit := rexmit })) = { gapOf1024 with rexmit := rexmit } := rfl
  have hend : atTerminate lossless env { gapOf1024 with rexmit := rexmit } =
      some ⟨false, (ttpRepeatRetransmit .ok full).xfer, (ttpRepeatRetransmit .ok full).sent⟩ := by
    rw [atTerminate, hwrite, if_neg (by simp [gapOf1024, markReceived, countArrival, firstOf1026, lossless])]
    exact congrArg (Option.map _) hfull
  have hcontrol : control lossless env gapOf1024 1026 tsBlockTerminate =
      some ⟨false, (ttpRepeatRetransmit .ok full).xfer, (ttpRepeatRetransmit .ok full).sent⟩ := by
    rw [control, if_neg (by decide), hqueue, Option.bind_some, hhead]
    exact hend
  exact ⟨_, hcontrol, rfl, hsent⟩

end Restarted

theorem receiveTurn_new {param : Parameter} {env : Env} {net net' : Net} {sent : List Retransmission}
    (harrive : arrive param env net = some (net', sent))
    (henter : enters env.ringFull net'.xfer (blockNumber net'.localDatagram)
      (blockType net'.localDatagram) = true)
    (hnew : gotBlock net'.xfer (blockNumber net'.localDatagram) = false) :
    receiveTurn param env net = (afterRing param env
        (markReceived net'.xfer (blockNumber net'.localDatagram)) (blockNumber net'.localDatagram)
        (blockType net'.localDatagram)).map fun c =>
      ⟨c.finished, { net' with xfer := c.xfer }, some net'.localDatagram, sent ++ c.sent⟩ := by
  rw [receiveTurn, harrive, Option.bind_some]
  dsimp only
  rw [if_pos henter, if_pos hnew]
  simp only [hnew, if_true]

/-- Block 2 of four is missing: it is queued when block 3 comes and again at the end, and
asked for twice at once. In the same way 1024 missing blocks are enough for a restart. -/
theorem asked_beyond_need :
    (run (Loop.step lossless) (.start lossless (.start 4 4 0)) gapThenEnd).map
        (fun s => (s.net.xfer.rexmit.entries, s.sent)) =
      some ([2, 2], [⟨requestRetransmit, 2, 0⟩, ⟨requestRetransmit, 2, 0⟩]) ∧
    ∃ s, run (Loop.step lossless) (.start lossless (.start 1026 1026 0)) firstThenEnd = some s ∧
      s.sent = [⟨requestRestart, 2, 0⟩] ∧ (missing s.net.xfer).card = 1024 := by
  refine ⟨by decide +kernel, ?_⟩
  obtain ⟨c, hc, hgoes, hsent⟩ : ∃ c, control lossless (.calm (.datagram [0, 0, 4, 2, 0, 88, 7]))
      gapOf1024 1026 tsBlockTerminate = some c ∧ c.finished = false ∧
        c.sent = [⟨requestRestart, 2, 0⟩] := control_gapOf1024 (fun _ => rfl) rfl
  have hstats : sendStats lossless (.calm (.datagram [0, 0, 4, 2, 0, 88, 7])) c.xfer =
      some (c.xfer, []) := if_neg fun hdue => absurd hdue.2 (by decide)
  have hafter : afterRing lossless (.calm (.datagram [0, 0, 4, 2, 0, 88, 7])) gapOf1024 1026
      tsBlockTerminate = some ⟨false, c.xfer, c.sent ++ []⟩ := by
    rw [afterRing, hc, Option.bind_some, if_neg (by simp [hgoes]), hstats]
    rfl
  have hfirst : Loop.step lossless (.start lossless (.start 1026 1026 0))
      (.calm (.datagram [0, 0, 0, 1, 0, 79, 7])) =
    some ⟨⟨firstOf1026, [0, 0, 0, 1, 0, 79, 7]⟩, false, [1], [[0, 0, 0, 1, 0, 79, 7]], []⟩ := rfl
  refine ⟨⟨⟨c.xfer, [0, 0, 4, 2, 0, 88, 7]⟩, false, [1, 1026], [[0, 0, 0, 1, 0, 79, 7],
    [0, 0, 4, 2, 0, 88, 7]], c.sent ++ []⟩, ?_, by rw [hsent]; rfl, ?_⟩
  · rw [firstThenEnd, run_cons, hfirst, Option.bind_some, run_cons]
    have harrive : arrive lossless (.calm (.datagram [0, 0, 4, 2, 0, 88, 7]))
        ⟨firstOf1026, [0, 0, 0, 1, 0, 79, 7]⟩ =
      some (⟨countArrival tsBlockTerminate firstOf1026, [0, 0, 4, 2, 0, 88, 7]⟩, []) := rfl
    have hnumber : blockNumber [0, 0, 4, 2, 0, 88, 7] = 1026 := rfl
    have htype : blockType [0, 0, 4, 2, 0, 88, 7] = tsBlockTerminate := rfl
    rw [Loop.step, if_neg Bool.false_ne_true,
      receiveTurn_new harrive (by decide +kernel) (by decide +kernel)]
    dsimp only
    rw [hnumber, htype]
    change (Option.map _ (Option.map _ (afterRing _ _ gapOf1024 _ _))).bind _ = _
    rw [hafter]
    rfl
  · rw [(sameBlocks_control hc).missing]
    exact missing_gapOf1024

end TsunamiUdp.Client

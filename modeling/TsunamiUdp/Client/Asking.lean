import TsunamiUdp.Client.Lasting

/-! What the client asks for when the last block has come and others are missing. -/
namespace TsunamiUdp.Client
open Library

variable {param : Parameter} {env : Env} {xfer full : Transfer} {b : Nat}

/-- The table is filled with the blocks between the expected one and the last, and then
with all that is missing, as far as there is room. -/
structure AsksRest (xfer full : Transfer) : Prop where
  same : SameBlocks xfer full
  gapless : ∀ b ∈ missing xfer, full.gaplessToBlock < b
  table : ∃ gap room, full.rexmit.entries = xfer.rexmit.entries ++ gap ++
      (wanted xfer (xfer.blockCount - (full.gaplessToBlock + 1)) (full.gaplessToBlock + 1)).take room ∧
    gap.Nodup ∧ (∀ b ∈ gap, gotBlock xfer b = false) ∧
    (xfer.rexmit.entries.length + gap.length ≤ 1 → 0 < room)

theorem wanted_nodup (xfer : Transfer) (count first : Nat) : (wanted xfer count first).Nodup :=
  List.Nodup.filter _ List.nodup_range'

theorem mem_wanted {count first : Nat} :
    b ∈ wanted xfer count first ↔ (first ≤ b ∧ b < first + count) ∧ gotBlock xfer b = false := by
  simp [wanted, List.mem_range'_1]

theorem SameBlocks.wanted (h : SameBlocks xfer full) (count first : Nat) :
    wanted full count first = wanted xfer count first := by
  unfold Client.wanted
  simp only [h.gotBlock]

theorem not_got_of_missing (h : b ∈ missing xfer) : gotBlock xfer b = false := by
  obtain ⟨⟨-, hle⟩, hreceived⟩ := mem_missing.mp h
  rw [gotBlock_of_le hle]
  exact hreceived

theorem queueMissing_table {block : Nat} {mid : Transfer} (hlossless : param.lossless = true)
    (hgrown : xfer.rexmit.Grown) (hmid : queueMissing param env xfer block = some mid) :
    ∃ gap, mid.rexmit.entries = xfer.rexmit.entries ++ gap ∧ gap.Nodup ∧
      ∀ b ∈ gap, gotBlock xfer b = false := by
  unfold queueMissing at hmid
  rw [if_pos hlossless] at hmid
  split at hmid
  · exact ⟨_, (requestRange_entries hgrown hmid).1, (wanted_nodup _ _ _).sublist (List.take_sublist _ _),
      fun b hb => (mem_wanted.mp (List.mem_of_mem_take hb)).2⟩
  · cases hmid
    exact ⟨[], (List.append_nil _).symm, List.nodup_nil, fun b hb => by cases hb⟩

theorem headed_gapless (block type : Nat) (mid : Transfer) :
    (headed block type mid).gaplessToBlock = (closeGap mid).gaplessToBlock := by
  unfold headed clearRestart moveHead
  split <;> split <;> rfl

theorem sameBlocks_headed (block type : Nat) (mid : Transfer) : SameBlocks mid (headed block type mid) :=
  sameBlocks_moved block type mid

theorem control_at_end (hlossless : param.lossless = true) (hprovides : env.Provides)
    (xfer : Transfer) (block : Nat) :
    ∃ mid, queueMissing param env xfer block = some mid ∧
      control param env xfer block tsBlockTerminate =
        atTerminate param env (headed block tsBlockTerminate mid) := by
  obtain ⟨mid, hmid⟩ := queueMissing_provided hlossless hprovides xfer block
  have hwire : onWire xfer block tsBlockTerminate = false := by simp [onWire]
  refine ⟨mid, hmid, ?_⟩
  unfold control
  rw [if_neg (by simp [hwire]), hmid, Option.bind_some]
  exact if_pos rfl

theorem control_over_of_done (hlossless : param.lossless = true) (hprovides : env.Provides)
    (hleft : xfer.blocksLeft = 0) (block : Nat) :
    ∃ c, control param env xfer block tsBlockTerminate = some c ∧ c.finished = true := by
  obtain ⟨mid, hmid, hcontrol⟩ := control_at_end hlossless hprovides xfer block
  have hdone : (headed block tsBlockTerminate mid).blocksLeft = 0 := by
    rw [(sameBlocks_headed block tsBlockTerminate mid).blocksLeft,
      (sameBlocks_queueMissing hmid).blocksLeft, hleft]
  refine ⟨⟨true, headed block tsBlockTerminate mid, []⟩, ?_, rfl⟩
  rw [hcontrol]
  exact if_pos (Or.inl hdone)

theorem control_terminate (hlossless : param.lossless = true) (hprovides : env.Provides)
    (hbooked : Booked xfer) (hleft : xfer.blocksLeft ≠ 0) (hb : b ∈ missing xfer) :
    ∃ full, AsksRest xfer full ∧
      control param env xfer xfer.blockCount tsBlockTerminate = some ⟨false,
        (ttpRepeatRetransmit env.terminateWrite full).xfer,
        (ttpRepeatRetransmit env.terminateWrite full).sent⟩ := by
  obtain ⟨mid, hmid, hcontrol⟩ := control_at_end hlossless hprovides xfer xfer.blockCount
  have hhead := sameBlocks_headed xfer.blockCount tsBlockTerminate mid
  have hqueue := sameBlocks_queueMissing hmid
  obtain ⟨full, hfull⟩ := requestRange_provided hprovides.alloc
    ((headed xfer.blockCount tsBlockTerminate mid).blockCount -
      wrap32 ((headed xfer.blockCount tsBlockTerminate mid).gaplessToBlock + 1))
    (wrap32 ((headed xfer.blockCount tsBlockTerminate mid).gaplessToBlock + 1))
    (headed xfer.blockCount tsBlockTerminate mid)
  refine ⟨full, ?_, ?_⟩
  · have hsame : SameBlocks xfer full := hqueue.trans (hhead.trans (sameBlocks_requestRange hfull))
    obtain ⟨gap, hgap, hnodup, hmissing⟩ := queueMissing_table hlossless hbooked.grown hmid
    have hgrown := queueMissing_grown hlossless hbooked.grown hmid
    have hgapless : full.gaplessToBlock = (closeGap mid).gaplessToBlock := by
      obtain ⟨rexmit, rfl⟩ := requestRange_frame hfull
      exact headed_gapless _ _ _
    have htracked := (hbooked.tracked.queueMissing hlossless hmid).1.closeGap
    have hahead : ∀ b ∈ missing xfer, full.gaplessToBlock < b := by
      intro b hb
      by_contra hle
      have hgot := htracked.gapless b (mem_missing.mp hb).1.1 (by omega)
      rw [(sameBlocks_closeGap mid).gotBlock, hqueue.gotBlock, not_got_of_missing hb] at hgot
      cases hgot
    refine ⟨hsame, hahead, gap, space mid.rexmit, ?_, hnodup, hmissing, fun hless => ?_⟩
    · have hlt := hahead b hb
      have hrange := (mem_missing.mp hb).1.2
      have hcounted := hbooked.tracked.counted
      have hentries := (requestRange_entries (by rw [headed_rexmit]; exact hgrown) hfull).1
      rw [headed_gapless, ← hgapless, wrap32_of_lt (by omega), headed_rexmit, hhead.wanted,
        hqueue.wanted, hhead.blockCount, hqueue.blockCount, hgap] at hentries
      exact hentries
    · have hindex := entries_length mid.rexmit
      rw [hgap, List.length_append] at hindex
      unfold space maxRetransmissionBuffer
      omega
  · have hgoes : ¬((headed xfer.blockCount tsBlockTerminate mid).blocksLeft = 0 ∨
        (param.lossless = false ∧ (headed xfer.blockCount tsBlockTerminate mid).rexmit.indexMax = 0 ∧
          (headed xfer.blockCount tsBlockTerminate mid).restartPending = false)) := by
      rw [hhead.blocksLeft, hqueue.blocksLeft, hlossless]
      simp [hleft]
    rw [hcontrol]
    unfold atTerminate
    rw [if_neg hgoes]
    dsimp only
    rw [hfull]
    rfl

theorem length_le_one {l : List Nat} {c : Nat} (h : l.Nodup) (hall : ∀ b ∈ l, b = c) : l.length ≤ 1 := by
  rw [← List.toFinset_card_of_nodup h, ← Finset.card_singleton c]
  apply Finset.card_le_card
  intro b hb
  rw [Finset.mem_singleton]
  exact hall b (List.mem_toFinset.mp hb)

theorem AsksRest.asks (h : AsksRest xfer full) (hempty : xfer.rexmit.entries = [])
    (hlast : gotBlock xfer xfer.blockCount = true) (hb : b ∈ missing xfer) : outstanding full ≠ [] := by
  obtain ⟨gap, room, hentries, hnodup, hmissing, hroom⟩ := h.table
  rw [hempty, List.nil_append] at hentries
  rw [hempty, List.length_nil, Nat.zero_add] at hroom
  intro hnone
  have hgone : ∀ c ∈ full.rexmit.entries, gotBlock xfer c = false → c = 0 := by
    intro c hc hgot
    by_contra hnz
    rw [← h.same.gotBlock] at hgot
    have hmem := mem_outstanding.mpr ⟨hc, hnz, hgot⟩
    rw [hnone] at hmem
    cases hmem
  have hpos : 0 < room := by
    refine hroom (length_le_one hnodup fun c hc => hgone c ?_ (hmissing c hc))
    rw [hentries]
    exact List.mem_append_left _ hc
  have hwanted : b ∈ wanted xfer (xfer.blockCount - (full.gaplessToBlock + 1))
      (full.gaplessToBlock + 1) := by
    have hgot := not_got_of_missing hb
    have hlt := h.gapless b hb
    have hle := (mem_missing.mp hb).1.2
    have hne : b ≠ xfer.blockCount := by
      rintro rfl
      rw [hgot] at hlast
      cases hlast
    exact mem_wanted.mpr ⟨by omega, hgot⟩
  obtain ⟨k, rfl⟩ : ∃ k, room = k + 1 := ⟨room - 1, by omega⟩
  obtain ⟨c, more, hfirst⟩ := List.exists_cons_of_ne_nil (List.ne_nil_of_mem hwanted)
  have hc : c ∈ wanted xfer (xfer.blockCount - (full.gaplessToBlock + 1))
      (full.gaplessToBlock + 1) := by
    rw [hfirst]
    exact List.mem_cons_self
  obtain ⟨hrange, hgot⟩ := mem_wanted.mp hc
  have hzero := hgone c (by rw [hentries, hfirst]; simp) hgot
  omega

theorem AsksRest.ahead (h : AsksRest xfer full) (hempty : xfer.rexmit.entries = [])
    (hmany : maxRetransmissionBuffer ≤ (outstanding full).length) :
    ∃ b ∈ missing xfer, full.gaplessToBlock + 1 < b := by
  obtain ⟨gap, room, hentries, hnodup, -⟩ := h.table
  rw [hempty, List.nil_append] at hentries
  by_contra hnone
  have hone : ∀ b ∈ outstanding full, b = full.gaplessToBlock + 1 := by
    intro b hb
    have hmem := mem_missing_of_outstanding hb
    rw [h.same.missing] at hmem
    have hlt := h.gapless b hmem
    by_contra hne
    exact hnone ⟨b, hmem, by omega⟩
  unfold outstanding at hmany hone
  rw [hentries, List.filter_append] at hmany hone
  have hfront := length_le_one (hnodup.filter _) fun b hb => hone b (List.mem_append_left _ hb)
  have hback := length_le_one
    (((wanted_nodup _ _ _).sublist (List.take_sublist _ _)).filter _) fun b hb =>
      hone b (List.mem_append_right _ hb)
  rw [List.length_append] at hmany
  unfold maxRetransmissionBuffer at hmany
  omega

end TsunamiUdp.Client

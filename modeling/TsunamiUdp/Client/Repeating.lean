import TsunamiUdp.Client.Transfer

/-! What `ttp_repeat_retransmit` sends and what it leaves of the table, entry by entry. -/
namespace TsunamiUdp.Client
open Library

section Repeating
variable {xfer : Transfer}

theorem entries_getLast? {rexmit : Retransmit} (h : 0 < rexmit.indexMax) :
    rexmit.entries.getLast? = some (rexmit.table (rexmit.indexMax - 1)) := by
  obtain ⟨n, hn⟩ : ∃ n, rexmit.indexMax = n + 1 := ⟨rexmit.indexMax - 1, by omega⟩
  unfold Retransmit.entries
  rw [hn, List.range_succ, List.map_append, List.map_cons, List.map_nil, List.getLast?_concat,
    Nat.add_sub_cancel]

/-- Compaction writes only in front of what it reads: it reaches the last entry only if
nothing has been left out, and then with that entry itself. -/
theorem compacted_last (xfer : Transfer) :
    compacted ((outstanding xfer).take maxRetransmissionBuffer) xfer.rexmit.table
      (xfer.rexmit.indexMax - 1) = xfer.rexmit.table (xfer.rexmit.indexMax - 1) := by
  have hle := outstanding_length_le xfer
  have hlen := entries_length xfer.rexmit
  have htake := List.length_take_le maxRetransmissionBuffer (outstanding xfer)
  have htake' := List.length_take_le' maxRetransmissionBuffer (outstanding xfer)
  rcases Nat.lt_or_ge (xfer.rexmit.indexMax - 1)
    ((outstanding xfer).take maxRetransmissionBuffer).length with hfront | hbehind
  · have hall : outstanding xfer = xfer.rexmit.entries := by
      apply List.filter_eq_self.mpr
      exact List.length_filter_eq_length_iff.mp (Nat.le_antisymm (List.length_filter_le _ _)
        (by unfold outstanding at hle hfront htake'; omega))
    rw [compacted, dif_pos hfront, List.getElem_take]
    simp only [hall, Retransmit.entries, List.getElem_map, List.getElem_range]
  · exact compacted_of_ge hbehind

theorem restartLastidx_eq (h : maxRetransmissionBuffer ≤ (outstanding xfer).length) :
    xfer.rexmit.entries.getLast? = some (ttpRepeatRetransmit .ok xfer).xfer.restartLastidx := by
  have hpurge := purge_entries xfer
  have hlen := List.length_take_of_le h
  have hle := outstanding_length_le xfer
  have hsome : 0 < xfer.rexmit.indexMax := by
    unfold maxRetransmissionBuffer at h
    omega
  rw [entries_getLast? hsome]
  unfold ttpRepeatRetransmit
  simp only [hpurge]
  rw [if_pos (by omega)]
  exact congrArg some (compacted_last xfer).symm

end Repeating

/-- Everything outstanding is requested once, in order; from the threshold on a restart is
requested in its place, and the table is dropped. -/
theorem repeat_sends_outstanding (xfer : Transfer) :
    let missing := outstanding xfer
    let done := ttpRepeatRetransmit .ok xfer
    let block := min xfer.blockCount (wrap32 (xfer.gaplessToBlock + 1))
    done.ok = true ∧
      if missing.length < maxRetransmissionBuffer then
        done.sent = missing.map (fun b => ⟨requestRetransmit, b, 0⟩) ∧
          done.xfer.rexmit.indexMax = missing.length ∧ done.xfer.rexmit.entries = missing
      else
        done.sent = [⟨requestRestart, block, 0⟩] ∧ done.xfer.restartPending = true ∧
          xfer.rexmit.entries.getLast? = some done.xfer.restartLastidx ∧
          done.xfer.rexmit.indexMax = 0 ∧ done.xfer.nextBlock = block := by
  dsimp only
  split
  · rename_i hfew
    obtain ⟨hentries, hsent, table, stats, hxfer⟩ := ttpRepeatRetransmit_few .ok hfew
    exact ⟨(hsent rfl).1, (hsent rfl).2, by rw [hxfer], hentries⟩
  · rename_i hmany
    have hmany : maxRetransmissionBuffer ≤ (outstanding xfer).length := not_lt.mp hmany
    obtain ⟨hsent, rexmit, stats, last, clear, hempty, -, -, hxfer⟩ :=
      ttpRepeatRetransmit_many .ok hmany (by decide)
    exact ⟨(hsent rfl).1, (hsent rfl).2, by rw [hxfer], restartLastidx_eq hmany,
      by rw [hxfer]; exact hempty, by rw [hxfer]⟩

end TsunamiUdp.Client

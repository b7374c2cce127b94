import TsunamiUdp.Client.Accounting
import TsunamiUdp.Client.Forgotten

/-! The retransmission table: the sizes it can have, what a loop of requests puts into it,
and what a repetition of the requests leaves there. -/
namespace TsunamiUdp.Client
open Library

def wanted (xfer : Transfer) (count first : Nat) : List Nat :=
  (List.range' first count).filter fun b => gotBlock xfer b = false

/-- How many entries the table may still grow by. -/
def space (rexmit : Retransmit) : Nat := 32 * maxRetransmissionBuffer - rexmit.indexMax

/-- The sizes that a table has which starts with 4096 entries and is doubled. -/
structure Retransmit.Grown (rexmit : Retransmit) : Prop where
  sized : rexmit.Sized
  size : ∃ k ≤ 4, rexmit.tableSize = 4096 * 2 ^ k

section Queue
variable {alloc : Nat → Bool} {xfer xfer' : Transfer} {count first block : Nat}

theorem Retransmit.Grown.indexMax_le {rexmit : Retransmit} (h : rexmit.Grown) :
    rexmit.indexMax ≤ 32 * maxRetransmissionBuffer := by
  obtain ⟨⟨hroom, -⟩, k, hk, hsize⟩ := h
  have hpow : 2 ^ k ≤ 2 ^ 4 := Nat.pow_le_pow_right (by decide) hk
  unfold maxRetransmissionBuffer
  omega

theorem wanted_cons_of_got (hgot : gotBlock xfer first = true) :
    wanted xfer (count + 1) first = wanted xfer count (first + 1) := by
  unfold wanted
  rw [List.range'_succ, List.filter_cons_of_neg (by simp [hgot])]

theorem wanted_cons (hgot : gotBlock xfer first = false) :
    wanted xfer (count + 1) first = first :: wanted xfer count (first + 1) := by
  unfold wanted
  rw [List.range'_succ, List.filter_cons_of_pos (by simp [hgot])]

variable (alloc) in
theorem makeRoom_space {rexmit : Retransmit} (h : rexmit.Grown) :
    (∃ rexmit', makeRoom alloc rexmit = .ok rexmit' ∧ 0 < space rexmit ∧
      rexmit'.entries = rexmit.entries ∧ rexmit'.indexMax = rexmit.indexMax ∧
      ∀ block, (rexmit'.append block).Grown) ∨
    (makeRoom alloc rexmit = .capped ∧ space rexmit = 0) ∨ makeRoom alloc rexmit = .failed := by
  obtain ⟨k, hk, hsize⟩ := h.size
  have hroom := h.sized.room
  cases hmake : makeRoom alloc rexmit with
  | ok rexmit' =>
    left
    obtain ⟨hentries, -, hsized⟩ := makeRoom_ok hmake h.sized
    refine ⟨rexmit', rfl, ?_⟩
    unfold makeRoom at hmake
    split at hmake
    · rename_i hfull
      split at hmake
      · cases hmake
      · rename_i hbelow
        have hless : 2 ^ k < 2 ^ 4 := by
          unfold maxRetransmissionBuffer at hbelow
          omega
        have hnext := (Nat.pow_lt_pow_iff_right (by decide)).mp hless
        split at hmake <;> cases hmake
        refine ⟨by unfold space; omega, hentries, rfl, fun block => ⟨hsized block, k + 1, hnext, ?_⟩⟩
        dsimp only [Retransmit.append]
        rw [hsize, pow_succ]
        omega
    · rename_i hfree
      cases hmake
      have hle := h.indexMax_le
      have hmax : 2 ^ k ≤ 2 ^ 4 := Nat.pow_le_pow_right (by decide) hk
      refine ⟨?_, hentries, rfl, fun block => ⟨hsized block, k, hk, hsize⟩⟩
      unfold space maxRetransmissionBuffer
      omega
  | capped =>
    right
    left
    refine ⟨rfl, ?_⟩
    unfold makeRoom at hmake
    split at hmake
    · split at hmake
      · unfold space
        omega
      · split at hmake <;> cases hmake
    · cases hmake
  | failed => exact .inr (.inr rfl)

theorem requestRange_entries (hgrown : xfer.rexmit.Grown)
    (h : requestRange alloc count first xfer = some xfer') :
    xfer'.rexmit.entries =
        xfer.rexmit.entries ++ (wanted xfer count first).take (space xfer.rexmit) ∧
      xfer'.rexmit.Grown := by
  induction count generalizing first xfer with
  | zero =>
    cases h
    simp [wanted, hgrown]
  | succ count ih =>
    obtain ⟨mid, hmid, hrest⟩ := Option.bind_eq_some_iff.mp h
    unfold ttpRequestRetransmit at hmid
    split at hmid
    · rename_i hgot
      cases hmid
      rw [wanted_cons_of_got hgot]
      exact ih hgrown hrest
    · rename_i hgot
      rw [wanted_cons (by simpa using hgot)]
      rcases makeRoom_space alloc hgrown with
        ⟨rexmit', hmake, hspace, hentries, hindex, hnext⟩ | ⟨hmake, hspace⟩ | hmake
      · rw [hmake] at hmid
        cases hmid
        obtain ⟨hrange, hgrown'⟩ := ih (hnext first) hrest
        refine ⟨?_, hgrown'⟩
        obtain ⟨k, hk⟩ : ∃ k, space xfer.rexmit = k + 1 := ⟨space xfer.rexmit - 1, by omega⟩
        have hless : space (rexmit'.append first) = k := by
          unfold space at hk ⊢
          dsimp only [Retransmit.append]
          omega
        rw [hrange, entries_append, hentries, hless, hk, List.take_succ_cons, List.append_assoc]
        rfl
      · rw [hmake] at hmid
        cases hmid
        have hcapped : Retransmit.Grown { xfer.rexmit with capHit := true } :=
          ⟨⟨hgrown.sized.room, hgrown.sized.size_pos⟩, hgrown.size⟩
        obtain ⟨hrange, hgrown'⟩ := ih hcapped hrest
        refine ⟨?_, hgrown'⟩
        rw [hrange, hspace]
        have hsame : space { xfer.rexmit with capHit := true } = 0 := hspace
        rw [hsame, List.take_zero, List.take_zero]
        rfl
      · rw [hmake] at hmid
        cases hmid

end Queue

section Provided

theorem makeRoom_provided {alloc : Nat → Bool} (halloc : ∀ size, alloc size = true)
    (rexmit : Retransmit) : makeRoom alloc rexmit ≠ .failed := by
  unfold makeRoom
  rw [if_pos (halloc _)]
  split
  · split <;> simp
  · simp

theorem requestRange_provided {alloc : Nat → Bool} (halloc : ∀ size, alloc size = true)
    (count first : Nat) (xfer : Transfer) : ∃ xfer', requestRange alloc count first xfer = some xfer' := by
  induction count generalizing first xfer with
  | zero => exact ⟨xfer, rfl⟩
  | succ count ih =>
    have hone : ∃ mid, ttpRequestRetransmit alloc xfer first = some mid := by
      unfold ttpRequestRetransmit
      split
      · exact ⟨_, rfl⟩
      · split
        · exact ⟨_, rfl⟩
        · exact ⟨_, rfl⟩
        · rename_i hfailed
          exact absurd hfailed (makeRoom_provided halloc _)
    obtain ⟨mid, hmid⟩ := hone
    rw [requestRange, hmid]
    exact ih (first + 1) mid

end Provided

section Repeat
variable {xfer : Transfer}

theorem outstanding_nodup (h : xfer.rexmit.entries.Nodup) : (outstanding xfer).Nodup :=
  h.filter _

theorem mem_missing_of_outstanding {b : Nat} (h : b ∈ outstanding xfer) : b ∈ missing xfer := by
  obtain ⟨-, hpos, hgot⟩ := mem_outstanding.mp h
  have hle := le_of_not_gotBlock hgot
  rw [gotBlock_of_le hle] at hgot
  exact mem_missing.mpr ⟨⟨Nat.pos_of_ne_zero hpos, hle⟩, hgot⟩

/-- The first entries of the table, which a restart that cannot be written has compacted,
are all wanted: they are where they were. -/
def InPlace (xfer : Transfer) : Prop :=
  ∀ b ∈ xfer.rexmit.entries.take maxRetransmissionBuffer, b ∈ outstanding xfer

theorem lost_entries (h : maxRetransmissionBuffer ≤ (outstanding xfer).length) :
    (ttpRepeatRetransmit .fwriteFails xfer).xfer.rexmit.entries =
      (outstanding xfer).take maxRetransmissionBuffer ++
        xfer.rexmit.entries.drop maxRetransmissionBuffer := by
  have hlen := List.length_take_of_le h
  have htable : (ttpRepeatRetransmit .fwriteFails xfer).xfer.rexmit.entries =
      (List.range xfer.rexmit.indexMax).map
        (compacted ((outstanding xfer).take maxRetransmissionBuffer) xfer.rexmit.table) := by
    unfold ttpRepeatRetransmit
    simp only [purge_entries]
    rw [if_pos (by omega)]
    rfl
  have hle := outstanding_length_le xfer
  rw [htable]
  apply List.ext_getElem
  · simp only [List.length_map, List.length_range, List.length_append, hlen, List.length_drop,
      Retransmit.entries]
    omega
  · intro i hi hi'
    rw [List.getElem_map, List.getElem_range]
    by_cases hfront : i < maxRetransmissionBuffer
    · rw [List.getElem_append_left (by omega), compacted, dif_pos (by omega)]
    · rw [List.getElem_append_right (by omega), compacted_of_ge (by omega)]
      have hback : maxRetransmissionBuffer + (i - maxRetransmissionBuffer) = i := by omega
      simp [Retransmit.entries, hback, hlen]

theorem lost_same (h : maxRetransmissionBuffer ≤ (outstanding xfer).length) (hplace : InPlace xfer) :
    (ttpRepeatRetransmit .fwriteFails xfer).xfer.rexmit.entries = xfer.rexmit.entries := by
  have hfilter : (outstanding xfer).length ≤ xfer.rexmit.entries.length := List.length_filter_le _ _
  have hsplit := List.take_append_drop maxRetransmissionBuffer xfer.rexmit.entries
  have hfront : (xfer.rexmit.entries.take maxRetransmissionBuffer).filter
      (fun b => b ≠ 0 ∧ gotBlock xfer b = false) =
        xfer.rexmit.entries.take maxRetransmissionBuffer :=
    List.filter_eq_self.mpr fun b hb => (List.mem_filter.mp (hplace b hb)).2
  have hsame : (outstanding xfer).take maxRetransmissionBuffer =
      xfer.rexmit.entries.take maxRetransmissionBuffer := by
    unfold outstanding
    conv_lhs => rw [← hsplit]
    rw [List.filter_append, hfront, List.take_left' (by rw [List.length_take]; omega)]
  rw [lost_entries h, hsame, hsplit]

/-- A restart that is lost keeps the table free of duplicates if and only if nothing moves. -/
theorem lost_nodup (hnodup : xfer.rexmit.entries.Nodup)
    (h : maxRetransmissionBuffer ≤ (outstanding xfer).length) :
    (ttpRepeatRetransmit .fwriteFails xfer).xfer.rexmit.entries.Nodup ↔ InPlace xfer := by
  have hlen := List.length_take_of_le h
  have hsplit := List.take_append_drop maxRetransmissionBuffer xfer.rexmit.entries
  constructor
  · intro hall b hb
    rw [lost_entries h] at hall
    have hsub : (outstanding xfer).take maxRetransmissionBuffer ⊆
        xfer.rexmit.entries.take maxRetransmissionBuffer := by
      intro c hc
      have hentry : c ∈ xfer.rexmit.entries := (mem_outstanding.mp (List.mem_of_mem_take hc)).1
      rw [← hsplit, List.mem_append] at hentry
      exact hentry.resolve_right fun hback => (List.nodup_append'.mp hall).2.2 hc hback
    have hperm := (List.subperm_of_subset (List.Nodup.of_append_left hall) hsub).perm_of_length_le
      (by rw [hlen, List.length_take]; omega)
    exact List.mem_of_mem_take (hperm.mem_iff.mpr hb)
  · intro hplace
    rw [lost_same h hplace]
    exact hnodup

theorem repeat_grown (hgrown : xfer.rexmit.Grown) (write : WriteResult) :
    (ttpRepeatRetransmit write xfer).xfer.rexmit.Grown := by
  have hle := outstanding_length_le xfer
  have hroom := hgrown.sized.room
  have hpos := hgrown.sized.size_pos
  unfold ttpRepeatRetransmit
  simp only [purge_entries]
  split
  · cases write with
    | ok => exact ⟨⟨Nat.zero_le _, hpos⟩, hgrown.size⟩
    | fwriteFails => exact ⟨⟨hroom, hpos⟩, hgrown.size⟩
    | fflushFails => exact ⟨⟨Nat.zero_le _, hpos⟩, hgrown.size⟩
  · have hfew := List.length_take_le maxRetransmissionBuffer (outstanding xfer)
    have hmin := List.length_take_le' maxRetransmissionBuffer (outstanding xfer)
    split <;> exact ⟨⟨by dsimp only; omega, hpos⟩, hgrown.size⟩

theorem repeat_nodup (hnodup : xfer.rexmit.entries.Nodup) {write : WriteResult}
    (h : write = .fwriteFails → (outstanding xfer).length < maxRetransmissionBuffer) :
    (ttpRepeatRetransmit write xfer).xfer.rexmit.entries.Nodup := by
  by_cases hfew : (outstanding xfer).length < maxRetransmissionBuffer
  · rw [(ttpRepeatRetransmit_few write hfew).1]
    exact outstanding_nodup hnodup
  · have hwrite : write ≠ .fwriteFails := fun hfails => hfew (h hfails)
    obtain ⟨-, rexmit, stats, last, clear, hindex, -, -, heq⟩ :=
      ttpRepeatRetransmit_many write (Nat.le_of_not_lt hfew) hwrite
    have hempty : rexmit.entries = [] := by simp [Retransmit.entries, hindex]
    rw [heq]
    dsimp only
    rw [hempty]
    exact List.nodup_nil

/-- A restart that is lost at the end of the transmission leaves the table as it is. -/
def Kept (write : WriteResult) (xfer : Transfer) : Prop :=
  write = .fwriteFails → maxRetransmissionBuffer ≤ (outstanding xfer).length → InPlace xfer

theorem repeat_nodup_iff (hnodup : xfer.rexmit.entries.Nodup) (write : WriteResult) :
    (ttpRepeatRetransmit write xfer).xfer.rexmit.entries.Nodup ↔ Kept write xfer := by
  by_cases hlost : write = .fwriteFails ∧ maxRetransmissionBuffer ≤ (outstanding xfer).length
  · obtain ⟨rfl, hmany⟩ := hlost
    rw [lost_nodup hnodup hmany]
    exact ⟨fun h _ _ => h, fun h => h rfl hmany⟩
  · refine iff_of_true (repeat_nodup hnodup fun hfails => ?_) fun hfails hmany => ?_
    · by_contra hmany
      exact hlost ⟨hfails, Nat.le_of_not_lt hmany⟩
    · exact absurd ⟨hfails, hmany⟩ hlost

end Repeat

def headed (block type : Nat) (xfer : Transfer) : Transfer :=
  clearRestart (moveHead block type (closeGap xfer))

def requestRest (env : Env) (xfer : Transfer) : Option Transfer :=
  requestRange env.alloc (xfer.blockCount - wrap32 (xfer.gaplessToBlock + 1))
    (wrap32 (xfer.gaplessToBlock + 1)) xfer

section Control
variable {param : Parameter} {env : Env} {xfer mid : Transfer} {block type : Nat}

@[simp] theorem headed_rexmit (block type : Nat) (xfer : Transfer) :
    (headed block type xfer).rexmit = xfer.rexmit := by
  unfold headed clearRestart moveHead
  split <;> split <;> rfl

theorem queueMissing_grown (hlossless : param.lossless = true) (hgrown : xfer.rexmit.Grown)
    (h : queueMissing param env xfer block = some mid) : mid.rexmit.Grown := by
  unfold queueMissing at h
  split at h
  · exact (requestRange_entries hgrown h).2
  · cases h
    exact hgrown

theorem grown_control {c : Controlled} (hlossless : param.lossless = true)
    (hgrown : xfer.rexmit.Grown) (hc : control param env xfer block type = some c) :
    c.xfer.rexmit.Grown := by
  rcases control_cases hc with ⟨-, rfl⟩ | ⟨-, mid, hmid, hc⟩
  · exact hgrown
  · have hhead : (headed block type mid).rexmit.Grown := by
      rw [headed_rexmit]
      exact queueMissing_grown hlossless hgrown hmid
    rcases hc with ⟨-, hend⟩ | ⟨-, rfl⟩
    · rcases atTerminate_cases hend with ⟨-, rfl⟩ | ⟨-, -, full, hfull, rfl⟩
      · exact hhead
      · exact repeat_grown (requestRange_entries hhead hfull).2 env.terminateWrite
    · exact hhead

theorem sendStats_grown {xfer' : Transfer} {sent : List Retransmission} (hgrown : xfer.rexmit.Grown)
    (h : sendStats param env xfer = some (xfer', sent)) : xfer'.rexmit.Grown := by
  rcases sendStats_cases h with ⟨rfl, -⟩ | ⟨-, -, -, ⟨stats, rfl⟩, -⟩
  · exact hgrown
  · exact repeat_grown hgrown env.periodicWrite

theorem arrive_grown {net net' : Net} {sent : List Retransmission} (hgrown : net.xfer.rexmit.Grown)
    (h : arrive param env net = some (net', sent)) : net'.xfer.rexmit.Grown := by
  obtain ⟨-, ⟨hxfer, -⟩ | ⟨-, hxfer, -⟩⟩ := arrive_cases h
  · rw [hxfer]
    exact hgrown
  · rw [hxfer]
    exact repeat_grown hgrown env.errorWrite

theorem afterRing_grown {c : Controlled} (hlossless : param.lossless = true)
    (hgrown : xfer.rexmit.Grown) (h : afterRing param env xfer block type = some c) :
    c.xfer.rexmit.Grown := by
  obtain ⟨mid, hmid, ⟨-, rfl⟩ | ⟨-, after, sent, hstats, rfl⟩⟩ := afterRing_cases h
  · exact grown_control hlossless hgrown hmid
  · exact sendStats_grown (grown_control hlossless hgrown hmid) hstats

end Control

theorem Retransmit.Grown.start (fileSize blockCount onWireEstimate : Nat) :
    (Transfer.start fileSize blockCount onWireEstimate).rexmit.Grown :=
  ⟨⟨Nat.zero_le _, Nat.succ_pos _⟩, 0, Nat.zero_le 4, rfl⟩

end TsunamiUdp.Client

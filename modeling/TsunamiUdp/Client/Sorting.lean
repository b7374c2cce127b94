import Mathlib.Data.List.Pairwise
import TsunamiUdp.Library.Runs
import TsunamiUdp.Client.Table

/-! The build with `RETX_REQBLOCK_SORTING`: the request table is kept sorted. -/
namespace TsunamiUdp.Client
open Library

def seekInsertion (table : Nat → Nat) (block : Nat) : Nat → Nat → Nat
  | 0, idx => idx
  | left + 1, idx => if table idx < block then seekInsertion table block left (idx + 1) else idx

def shiftUp : Nat → Nat → Nat → (Nat → Nat) → Nat → Nat
  | 0, _, _, table => table
  | left + 1, idx, ins, table =>
    shiftUp left (idx + 1) (table idx) (Function.update table idx ins)

def Retransmit.insert (rexmit : Retransmit) (block : Nat) : Retransmit :=
  let idx := seekInsertion rexmit.table block rexmit.indexMax 0
  if idx = rexmit.indexMax then rexmit.append block
  else if rexmit.table idx = block then rexmit
  else { rexmit with
    table := shiftUp (rexmit.indexMax - idx + 1) idx block rexmit.table
    indexMax := rexmit.indexMax + 1 }

/-- `ttp_request_retransmit` in that build. -/
def ttpRequestRetransmitSorted (alloc : Nat → Bool) (xfer : Transfer) (block : Nat) :
    Option Transfer :=
  if gotBlock xfer block then some xfer
  else match makeRoom alloc xfer.rexmit with
    | .ok rexmit => some { xfer with rexmit := rexmit.insert block }
    | .capped => some { xfer with rexmit := { xfer.rexmit with capHit := true } }
    | .failed => none

section Insertion
variable {table : Nat → Nat} {block : Nat}

theorem seekInsertion_spec (table : Nat → Nat) (block left idx : Nat)
    (hbefore : ∀ k < idx, table k < block) :
    seekInsertion table block left idx ≤ idx + left ∧
      (∀ k < seekInsertion table block left idx, table k < block) ∧
      (seekInsertion table block left idx < idx + left →
        block ≤ table (seekInsertion table block left idx)) := by
  induction left generalizing idx with
  | zero => exact ⟨le_rfl, hbefore, fun h => absurd h (lt_irrefl _)⟩
  | succ left ih =>
    rw [seekInsertion]
    split
    · rename_i hless
      obtain ⟨hle, hall, hstop⟩ := ih (idx + 1) fun k hk => by
        rcases Nat.lt_succ_iff_lt_or_eq.mp hk with hk | rfl
        · exact hbefore k hk
        · exact hless
      exact ⟨by omega, hall, fun h => hstop (by omega)⟩
    · rename_i hstop
      exact ⟨by omega, hbefore, fun _ => not_lt.mp hstop⟩

theorem shiftUp_apply (left idx ins : Nat) (table : Nat → Nat) (k : Nat) :
    shiftUp left idx ins table k =
      if k < idx ∨ idx + left ≤ k then table k else if k = idx then ins else table (k - 1) := by
  induction left generalizing idx ins table with
  | zero => rw [shiftUp, if_pos (by omega)]
  | succ left ih =>
    rw [shiftUp, ih]
    rcases Nat.lt_trichotomy k idx with hk | rfl | hk
    · rw [if_pos (by omega), if_pos (by omega), Function.update_of_ne (by omega)]
    · rw [if_pos (by omega), if_neg (by omega), if_pos rfl, Function.update_self]
    · by_cases hfar : idx + (left + 1) ≤ k
      · rw [if_pos (by omega), if_pos (by omega), Function.update_of_ne (by omega)]
      · rw [if_neg (by omega), if_neg (show ¬(k < idx ∨ idx + (left + 1) ≤ k) by omega),
          if_neg (show k ≠ idx by omega)]
        split
        · rename_i hnext
          rw [hnext, Nat.add_sub_cancel]
        · rw [Function.update_of_ne (by omega)]

inductive Inserted (block : Nat) (entries entries' : List Nat) : Prop
  | present (mem : block ∈ entries) (same : entries' = entries)
  | between (front back : List Nat) (split : entries = front ++ back)
      (smaller : ∀ b ∈ front, b < block) (larger : ∀ b, back.head? = some b → block < b)
      (inserted : entries' = front ++ block :: back)

theorem mem_entries {rexmit : Retransmit} {b : Nat} :
    b ∈ rexmit.entries ↔ ∃ k < rexmit.indexMax, rexmit.table k = b := by
  simp [Retransmit.entries]

theorem insert_entries (rexmit : Retransmit) (block : Nat) :
    Inserted block rexmit.entries (rexmit.insert block).entries := by
  obtain ⟨hle, hsmaller, hlarger⟩ :=
    seekInsertion_spec rexmit.table block rexmit.indexMax 0 fun k hk => absurd hk (Nat.not_lt_zero k)
  unfold Retransmit.insert
  generalize seekInsertion rexmit.table block rexmit.indexMax 0 = idx at *
  rw [Nat.zero_add] at hle hlarger
  have hfront : ∀ b ∈ rexmit.entries.take idx, b < block := by
    intro b hb
    obtain ⟨k, hk, rfl⟩ := List.mem_take_iff_getElem.mp hb
    simp only [Retransmit.entries, List.getElem_map, List.getElem_range]
    exact hsmaller k (by omega)
  dsimp only
  split
  · rename_i hend
    have hall : rexmit.entries.take idx = rexmit.entries :=
      List.take_of_length_le (by simp; omega)
    exact .between rexmit.entries [] (List.append_nil _).symm (hall ▸ hfront)
      (fun b hb => by cases hb) (entries_append rexmit block)
  · rename_i hinside
    have hlt : idx < rexmit.indexMax := by omega
    split
    · rename_i hsame
      exact .present (mem_entries.mpr ⟨idx, hlt, hsame⟩) rfl
    · rename_i hother
      have hnext := hlarger hlt
      refine .between (rexmit.entries.take idx) (rexmit.entries.drop idx)
        (List.take_append_drop idx _).symm hfront (fun b hb => ?_) ?_
      · rw [List.head?_drop, List.getElem?_eq_getElem (by simpa using hlt)] at hb
        cases hb
        simp only [Retransmit.entries, List.getElem_map, List.getElem_range]
        omega
      · have hlen : (rexmit.entries.take idx).length = idx := by
          simp
          omega
        apply List.ext_getElem
        · simp only [Retransmit.entries, List.length_append, List.length_cons, List.length_take,
            List.length_drop, List.length_map, List.length_range]
          omega
        · intro k hk hk'
          have hk : k < rexmit.indexMax + 1 := by simpa [Retransmit.entries] using hk
          simp only [Retransmit.entries, List.getElem_map, List.getElem_range, shiftUp_apply]
          rcases Nat.lt_trichotomy k idx with hbefore | rfl | hbehind
          · rw [if_pos (by omega), List.getElem_append_left (by simpa using ⟨hbefore, by omega⟩)]
            simp
          · rw [if_neg (by omega), if_pos rfl]
            simp [Nat.min_eq_left hlt.le]
          · rw [if_neg (by omega), if_neg (by omega)]
            obtain ⟨j, rfl⟩ : ∃ j, k = idx + 1 + j := ⟨k - idx - 1, by omega⟩
            rw [List.getElem_append_right (by simp; omega)]
            simp [Nat.min_eq_left hlt.le, Nat.add_assoc, Nat.add_comm 1]

theorem Inserted.increasing {entries entries' : List Nat} (h : Inserted block entries entries')
    (hsorted : entries.Pairwise (· < ·)) : entries'.Pairwise (· < ·) := by
  cases h with
  | present mem same => exact same ▸ hsorted
  | between front back split smaller larger inserted =>
    rw [split] at hsorted
    obtain ⟨hfront, hback, hacross⟩ := List.pairwise_append.mp hsorted
    have hlarger : ∀ b ∈ back, block < b := by
      cases back with
      | nil => exact fun b hb => by cases hb
      | cons first back =>
        have hfirst := larger first rfl
        intro b hb
        rcases List.mem_cons.mp hb with rfl | hb
        · exact hfirst
        · exact hfirst.trans ((List.pairwise_cons.mp hback).1 b hb)
    rw [inserted]
    refine List.pairwise_append.mpr ⟨hfront, List.pairwise_cons.mpr ⟨hlarger, hback⟩, ?_⟩
    intro a ha b hb
    rcases List.mem_cons.mp hb with rfl | hb
    · exact smaller a ha
    · exact hacross a ha b hb

theorem Inserted.mem_iff {entries entries' : List Nat} (h : Inserted block entries entries') {b : Nat} :
    b ∈ entries' ↔ b ∈ entries ∨ b = block := by
  cases h with
  | present mem same =>
    rw [same]
    exact ⟨Or.inl, fun h => h.elim id fun h => h ▸ mem⟩
  | between front back split smaller larger inserted =>
    rw [inserted, split, List.mem_append, List.mem_cons, List.mem_append]
    tauto

end Insertion

/-- A call that works on the table, or a block that is marked as received meanwhile; the
two builds may see different results of their writing. -/
inductive TableCall
  | request (block : Nat)
  | repeated (write writeSorted : WriteResult)
  | received (block : Nat)

/-- The same calls in the default build and in the sorting one. -/
structure Builds where
  plain : Transfer
  sorted : Transfer

def Builds.start (xfer : Transfer) : Builds := ⟨xfer, xfer⟩

/-- A request that fails ends the transfer; the result of repeating them is not always
looked at. -/
def Builds.step (alloc allocSorted : Nat → Bool) (s : Builds) : TableCall → Option Builds
  | .request block =>
    (ttpRequestRetransmit alloc s.plain block).bind fun plain =>
      (ttpRequestRetransmitSorted allocSorted s.sorted block).map fun sorted => ⟨plain, sorted⟩
  | .repeated write writeSorted => some
      ⟨(ttpRepeatRetransmit write s.plain).xfer, (ttpRepeatRetransmit writeSorted s.sorted).xfer⟩
  | .received block => some ⟨markReceived s.plain block, markReceived s.sorted block⟩

/-- `table[0..index_max)` is strictly increasing. -/
def Builds.Increasing (s : Builds) : Prop := s.sorted.rexmit.entries.Pairwise (· < ·)

/-- No restart request is lost in the sorting build after entries of its table have moved. -/
def Builds.KeepsOrder (s : Builds) : TableCall → Prop
  | .repeated _ writeSorted => Kept writeSorted s.sorted
  | _ => True

def Builds.WritesRestart (s : Builds) : TableCall → Prop
  | .repeated write writeSorted =>
    (write = .fwriteFails → (outstanding s.plain).length < maxRetransmissionBuffer) ∧
      (writeSorted = .fwriteFails → (outstanding s.sorted).length < maxRetransmissionBuffer)
  | _ => True

/-- Both builds have received the same blocks; while neither of them has sent a restart or
dropped a request at the size limit, they have the same blocks in their tables. -/
structure Builds.Agree (s : Builds) : Prop where
  plain : s.plain.rexmit.Sized
  sorted : s.sorted.rexmit.Sized
  got : ∀ b, gotBlock s.sorted b = gotBlock s.plain b
  same : s.plain.restartPending = false → s.sorted.restartPending = false →
    s.plain.rexmit.capHit = false → s.sorted.rexmit.capHit = false →
    ∀ b, b ∈ s.sorted.rexmit.entries ↔ b ∈ s.plain.rexmit.entries

section Calls
variable {alloc : Nat → Bool} {xfer xfer' : Transfer} {block : Nat}

inductive Requested (put : Retransmit → Nat → Retransmit) (xfer : Transfer) (block : Nat)
    (xfer' : Transfer) : Prop
  | got (got : gotBlock xfer block = true) (same : xfer' = xfer)
  | put (rexmit : Retransmit) (got : gotBlock xfer block = false)
      (entries : rexmit.entries = xfer.rexmit.entries) (cap : rexmit.capHit = xfer.rexmit.capHit)
      (room : rexmit.indexMax + 1 ≤ rexmit.tableSize)
      (result : xfer' = { xfer with rexmit := put rexmit block })
  | capped (result : xfer' = { xfer with rexmit := { xfer.rexmit with capHit := true } })

theorem requested (put : Retransmit → Nat → Retransmit) (hsized : xfer.rexmit.Sized)
    (hs : (if gotBlock xfer block then some xfer
      else match makeRoom alloc xfer.rexmit with
        | .ok rexmit => some { xfer with rexmit := put rexmit block }
        | .capped => some { xfer with rexmit := { xfer.rexmit with capHit := true } }
        | .failed => none) = some xfer') : Requested put xfer block xfer' := by
  split at hs
  · rename_i hgot
    cases hs
    exact .got hgot rfl
  · rename_i hnew
    split at hs
    · rename_i rexmit hroom
      cases hs
      obtain ⟨hentries, hcap, happend⟩ := makeRoom_ok hroom hsized
      exact .put rexmit (by simpa using hnew) hentries hcap (happend block).room rfl
    · cases hs
      exact .capped rfl
    · cases hs

theorem requested_plain (hsized : xfer.rexmit.Sized)
    (hs : ttpRequestRetransmit alloc xfer block = some xfer') :
    Requested Retransmit.append xfer block xfer' :=
  requested Retransmit.append hsized hs

theorem requested_sorted (hsized : xfer.rexmit.Sized)
    (hs : ttpRequestRetransmitSorted alloc xfer block = some xfer') :
    Requested Retransmit.insert xfer block xfer' :=
  requested Retransmit.insert hsized hs

structure Puts (put : Retransmit → Nat → Retransmit) (block : Nat) : Prop where
  capHit : ∀ rexmit, (put rexmit block).capHit = rexmit.capHit
  tableSize : ∀ rexmit, (put rexmit block).tableSize = rexmit.tableSize
  indexMax : ∀ rexmit, (put rexmit block).indexMax ≤ rexmit.indexMax + 1

theorem puts_append (block : Nat) : Puts Retransmit.append block :=
  ⟨fun _ => rfl, fun _ => rfl, fun _ => le_rfl⟩

theorem puts_insert (block : Nat) : Puts Retransmit.insert block := by
  constructor <;> intro rexmit <;> unfold Retransmit.insert <;> dsimp only <;> split
  · rfl
  · split <;> rfl
  · rfl
  · split <;> rfl
  · exact le_rfl
  · split
    · exact Nat.le_succ _
    · exact le_rfl

theorem Requested.frame {put : Retransmit → Nat → Retransmit} (h : Requested put xfer block xfer')
    (hput : Puts put block) (hsized : xfer.rexmit.Sized) :
    xfer'.rexmit.Sized ∧ (∀ b, gotBlock xfer' b = gotBlock xfer b) ∧
      xfer'.restartPending = xfer.restartPending := by
  cases h with
  | got got same =>
    subst same
    exact ⟨hsized, fun _ => rfl, rfl⟩
  | put rexmit got entries cap room result =>
    have hsize := hput.tableSize rexmit
    have hindex := hput.indexMax rexmit
    subst result
    exact ⟨⟨by dsimp only; omega, by dsimp only; omega⟩, fun _ => rfl, rfl⟩
  | capped result =>
    subst result
    exact ⟨⟨hsized.room, hsized.size_pos⟩, fun _ => rfl, rfl⟩

theorem Requested.entries {put : Retransmit → Nat → Retransmit}
    (h : Requested put xfer block xfer') (hput : Puts put block)
    (hmem : ∀ rexmit b, b ∈ (put rexmit block).entries ↔ b ∈ rexmit.entries ∨ b = block)
    (hcap : xfer'.rexmit.capHit = false) :
    xfer.rexmit.capHit = false ∧ ∀ b, b ∈ xfer'.rexmit.entries ↔
      b ∈ xfer.rexmit.entries ∨ (b = block ∧ gotBlock xfer block = false) := by
  cases h with
  | got got same =>
    subst same
    exact ⟨hcap, fun b => by simp [got]⟩
  | put rexmit got entries cap room result =>
    subst result
    refine ⟨cap ▸ hput.capHit rexmit ▸ hcap, fun b => ?_⟩
    rw [hmem, entries]
    simp [got]
  | capped result =>
    subst result
    cases hcap

theorem mem_append {rexmit : Retransmit} {b : Nat} :
    b ∈ (rexmit.append block).entries ↔ b ∈ rexmit.entries ∨ b = block := by
  rw [entries_append, List.mem_append, List.mem_singleton]

theorem mem_insert {rexmit : Retransmit} {b : Nat} :
    b ∈ (rexmit.insert block).entries ↔ b ∈ rexmit.entries ∨ b = block :=
  (insert_entries rexmit block).mem_iff

end Calls

section Step
variable {alloc allocSorted : Nat → Bool} {s s' : Builds} {call : TableCall}

theorem Builds.Agree.request {block : Nat} (h : s.Agree)
    (hs : Builds.step alloc allocSorted s (.request block) = some s') : s'.Agree := by
  obtain ⟨plain, hplain, hs⟩ := Option.bind_eq_some_iff.mp hs
  obtain ⟨sorted, hsorted, rfl⟩ := Option.map_eq_some_iff.mp hs
  have hplain := requested_plain h.plain hplain
  have hsorted := requested_sorted h.sorted hsorted
  obtain ⟨hsizedPlain, hgotPlain, hrestartPlain⟩ := hplain.frame (puts_append block) h.plain
  obtain ⟨hsizedSorted, hgotSorted, hrestartSorted⟩ := hsorted.frame (puts_insert block) h.sorted
  refine ⟨hsizedPlain, hsizedSorted, fun b => ?_, fun hrp hrs hcp hcs b => ?_⟩
  · rw [hgotSorted, hgotPlain, h.got]
  · obtain ⟨hcapPlain, hmemPlain⟩ := hplain.entries (puts_append block) (fun _ _ => mem_append) hcp
    obtain ⟨hcapSorted, hmemSorted⟩ := hsorted.entries (puts_insert block) (fun _ _ => mem_insert) hcs
    rw [hmemPlain, hmemSorted, h.got, h.same (hrestartPlain ▸ hrp) (hrestartSorted ▸ hrs) hcapPlain
      hcapSorted]

theorem repeat_written {xfer : Transfer} {write : WriteResult} (hsized : xfer.rexmit.Sized)
    (hwrites : write = .fwriteFails → (outstanding xfer).length < maxRetransmissionBuffer) :
    (ttpRepeatRetransmit write xfer).xfer.rexmit.Sized ∧
      (∀ b, gotBlock (ttpRepeatRetransmit write xfer).xfer b = gotBlock xfer b) ∧
      ((ttpRepeatRetransmit write xfer).xfer.restartPending = false →
        xfer.restartPending = false ∧
        (ttpRepeatRetransmit write xfer).xfer.rexmit.capHit = xfer.rexmit.capHit ∧
        (ttpRepeatRetransmit write xfer).xfer.rexmit.entries = outstanding xfer) := by
  have hroom := hsized.room
  have hpos := hsized.size_pos
  have hle := outstanding_length_le xfer
  by_cases hfew : (outstanding xfer).length < maxRetransmissionBuffer
  · obtain ⟨hentries, -, table, stats, hxfer⟩ := ttpRepeatRetransmit_few write hfew
    refine ⟨?_, fun b => ?_, fun hrestart => ⟨?_, ?_, hentries⟩⟩
    · rw [hxfer]
      exact ⟨by dsimp only; omega, hpos⟩
    · rw [hxfer]
      rfl
    · rw [hxfer] at hrestart
      exact hrestart
    · rw [hxfer]
  · obtain ⟨-, rexmit, stats, last, clear, hindex, hsize, -, hxfer⟩ :=
      ttpRepeatRetransmit_many write (not_lt.mp hfew) fun hlost => hfew (hwrites hlost)
    rw [hxfer]
    exact ⟨⟨by dsimp only; omega, by dsimp only; omega⟩, fun _ => rfl, fun hrestart => by cases hrestart⟩

theorem Builds.Agree.repeated {write writeSorted : WriteResult} (h : s.Agree)
    (hwrites : s.WritesRestart (.repeated write writeSorted)) :
    Builds.Agree ⟨(ttpRepeatRetransmit write s.plain).xfer,
      (ttpRepeatRetransmit writeSorted s.sorted).xfer⟩ := by
  obtain ⟨hsizedPlain, hgotPlain, hplain⟩ := repeat_written h.plain hwrites.1
  obtain ⟨hsizedSorted, hgotSorted, hsorted⟩ := repeat_written h.sorted hwrites.2
  refine ⟨hsizedPlain, hsizedSorted, fun b => ?_, fun hrp hrs hcp hcs b => ?_⟩
  · rw [hgotSorted, hgotPlain, h.got]
  · obtain ⟨hrestartPlain, hcapPlain, hentriesPlain⟩ := hplain hrp
    obtain ⟨hrestartSorted, hcapSorted, hentriesSorted⟩ := hsorted hrs
    rw [hentriesPlain, hentriesSorted, mem_outstanding, mem_outstanding, h.got,
      h.same hrestartPlain hrestartSorted (hcapPlain ▸ hcp) (hcapSorted ▸ hcs)]

theorem Builds.Agree.step (h : s.Agree) (hwrites : s.WritesRestart call)
    (hs : Builds.step alloc allocSorted s call = some s') : s'.Agree := by
  cases call with
  | request block => exact h.request hs
  | repeated write writeSorted =>
    cases hs
    exact h.repeated hwrites
  | received block =>
    cases hs
    refine ⟨h.plain, h.sorted, fun b => ?_, h.same⟩
    rw [gotBlock_markReceived, gotBlock_markReceived, h.got]

theorem repeat_sized {xfer : Transfer} (hsized : xfer.rexmit.Sized) (write : WriteResult) :
    (ttpRepeatRetransmit write xfer).xfer.rexmit.Sized := by
  by_cases hlost : write = .fwriteFails ∧ maxRetransmissionBuffer ≤ (outstanding xfer).length
  · obtain ⟨-, -, -, table, stats, hxfer⟩ := ttpRepeatRetransmit_lost hlost.2
    rw [hlost.1, hxfer]
    exact ⟨hsized.room, hsized.size_pos⟩
  · exact (repeat_written hsized fun hfails => not_le.mp fun hmany => hlost ⟨hfails, hmany⟩).1

theorem Builds.sized_step (hsized : s.sorted.rexmit.Sized)
    (hs : Builds.step alloc allocSorted s call = some s') : s'.sorted.rexmit.Sized := by
  cases call with
  | request block =>
    obtain ⟨plain, -, hs⟩ := Option.bind_eq_some_iff.mp hs
    obtain ⟨sorted, hsorted, rfl⟩ := Option.map_eq_some_iff.mp hs
    exact ((requested_sorted hsized hsorted).frame (puts_insert block) hsized).1
  | repeated write writeSorted =>
    cases hs
    exact repeat_sized hsized writeSorted
  | received block =>
    cases hs
    exact hsized

/-- Only a restart that is lost can spoil the order, and it does so if anything moves. -/
theorem Builds.increasing_step (hsized : s.sorted.rexmit.Sized) (h : s.Increasing)
    (hs : Builds.step alloc allocSorted s call = some s') : s'.Increasing ↔ s.KeepsOrder call := by
  cases call with
  | request block =>
    refine iff_of_true ?_ trivial
    obtain ⟨plain, -, hs⟩ := Option.bind_eq_some_iff.mp hs
    obtain ⟨sorted, hsorted, rfl⟩ := Option.map_eq_some_iff.mp hs
    cases requested_sorted hsized hsorted with
    | got got same => exact same ▸ h
    | put rexmit got entries cap room result =>
      rw [result]
      exact (insert_entries rexmit block).increasing (entries ▸ h)
    | capped result => exact result ▸ h
  | received block =>
    cases hs
    exact iff_of_true h trivial
  | repeated write writeSorted =>
    cases hs
    have hnodup : s.sorted.rexmit.entries.Nodup := h.imp fun hlt => hlt.ne
    refine ⟨fun hnext => (repeat_nodup_iff hnodup writeSorted).mp (hnext.imp fun hlt => hlt.ne),
      fun hkept => ?_⟩
    unfold Builds.Increasing
    dsimp only
    by_cases hfew : (outstanding s.sorted).length < maxRetransmissionBuffer
    · rw [(ttpRepeatRetransmit_few writeSorted hfew).1]
      exact List.Pairwise.filter _ h
    · by_cases hlost : writeSorted = .fwriteFails
      · rw [hlost, lost_same (not_lt.mp hfew) (hkept hlost (not_lt.mp hfew))]
        exact h
      · obtain ⟨-, rexmit, stats, last, clear, hindex, -, -, hxfer⟩ :=
          ttpRepeatRetransmit_many writeSorted (not_lt.mp hfew) hlost
        have hempty : rexmit.entries = [] := by simp [Retransmit.entries, hindex]
        rw [hxfer]
        dsimp only
        rw [hempty]
        exact List.Pairwise.nil

theorem Builds.agree_start (fileSize blockCount onWireEstimate : Nat) :
    (Builds.start (.start fileSize blockCount onWireEstimate)).Agree where
  plain := ⟨Nat.zero_le _, Nat.succ_pos _⟩
  sorted := ⟨Nat.zero_le _, Nat.succ_pos _⟩
  got := fun _ => rfl
  same := fun _ _ _ _ _ => Iff.rfl

end Step

/-- The table of the sorting build is always strictly increasing if and only if no restart
is lost after entries have moved. If none is lost at all, then until a restart is sent or a
request dropped it has the same blocks in it as the table of the default build. -/
theorem sorted_table_set (alloc allocSorted : Nat → Bool) (fileSize blockCount onWireEstimate : Nat)
    {calls : List TableCall} {t : Builds}
    (hrun : run (Builds.step alloc allocSorted)
      (.start (.start fileSize blockCount onWireEstimate)) calls = some t) :
    (Always (Builds.step alloc allocSorted) Builds.Increasing
        (.start (.start fileSize blockCount onWireEstimate)) calls ↔
      Along (Builds.step alloc allocSorted) Builds.KeepsOrder
        (.start (.start fileSize blockCount onWireEstimate)) calls) ∧
    (Along (Builds.step alloc allocSorted) Builds.WritesRestart
        (.start (.start fileSize blockCount onWireEstimate)) calls →
      t.plain.restartPending = false → t.sorted.restartPending = false →
      t.plain.rexmit.capHit = false → t.sorted.rexmit.capHit = false →
      ∀ b, b ∈ t.sorted.rexmit.entries ↔ b ∈ t.plain.rexmit.entries) := by
  have hstart := Builds.agree_start fileSize blockCount onWireEstimate
  constructor
  · exact always_iff_along (J := fun s => s.sorted.rexmit.Sized)
      (fun _ _ _ h hsized hs => Builds.increasing_step hsized h hs)
      (fun _ _ _ _ hsized _ hs => Builds.sized_step hsized hs) List.Pairwise.nil hstart.sorted hrun
  · intro hwrites
    exact (run_invariant_along (fun _ _ _ h hok hs => Builds.Agree.step h hok hs) hstart hwrites
      hrun).same

def sortedIn : List TableCall := [.request 3, .request 2, .received 3, .repeated .ok .ok]

theorem sorted_table_set_sample :
    Always (Builds.step (fun _ => true) fun _ => true) Builds.Increasing (.start (.start 4 4 0))
        sortedIn ∧
      ∃ t, run (Builds.step (fun _ => true) fun _ => true) (.start (.start 4 4 0)) sortedIn = some t ∧
        ∀ b, b ∈ t.sorted.rexmit.entries ↔ b ∈ t.plain.rexmit.entries := by
  have hrun : ∃ t, run (Builds.step (fun _ => true) fun _ => true) (.start (.start 4 4 0)) sortedIn =
      some t ∧ t.plain.restartPending = false ∧ t.sorted.restartPending = false ∧
        t.plain.rexmit.capHit = false ∧ t.sorted.rexmit.capHit = false := ⟨_, rfl, rfl, rfl, rfl, rfl⟩
  obtain ⟨t, ht, hrp, hrs, hcp, hcs⟩ := hrun
  obtain ⟨halways, hsame⟩ := sorted_table_set _ _ 4 4 0 ht
  refine ⟨halways.mpr ?_, t, ht, hsame ?_ hrp hrs hcp hcs⟩
  · exact ⟨trivial, fun _ _ => ⟨trivial, fun _ _ => ⟨trivial, fun _ _ =>
      ⟨(fun hlost => by cases hlost), fun _ _ => trivial⟩⟩⟩⟩
  · exact ⟨trivial, fun _ _ => ⟨trivial, fun _ _ => ⟨trivial, fun _ _ =>
      ⟨⟨(fun hlost => by cases hlost), (fun hlost => by cases hlost)⟩, fun _ _ => trivial⟩⟩⟩⟩

section Lost

def asked (n : Nat) : Transfer :=
  { Transfer.start 2049 2049 0 with
    rexmit := ⟨fun k => if k < n then k + 1 else 0, defaultTableSize, n, false⟩ }

theorem asked_append {n : Nat} : (asked n).rexmit.append (n + 1) = (asked (n + 1)).rexmit := by
  unfold Retransmit.append asked
  dsimp only
  congr 1
  funext k
  by_cases hk : k = n
  · rw [hk, Function.update_self, if_pos (Nat.lt_succ_self n)]
  · rw [Function.update_of_ne hk]
    congr 1
    exact propext (by omega)

theorem asked_insert {n : Nat} : (asked n).rexmit.insert (n + 1) = (asked (n + 1)).rexmit := by
  obtain ⟨hle, -, hlarger⟩ := seekInsertion_spec (asked n).rexmit.table (n + 1) n 0
    fun k hk => absurd hk (Nat.not_lt_zero k)
  rw [Nat.zero_add] at hle hlarger
  have hend : seekInsertion (asked n).rexmit.table (n + 1) n 0 = n := by
    by_contra hne
    have hlt : seekInsertion (asked n).rexmit.table (n + 1) n 0 < n := by omega
    have hnext := hlarger hlt
    rw [show (asked n).rexmit.table = fun k => if k < n then k + 1 else 0 from rfl] at hnext hlt
    dsimp only at hnext
    rw [if_pos hlt] at hnext
    omega
  unfold Retransmit.insert
  dsimp only
  rw [show (asked n).rexmit.indexMax = n from rfl, if_pos hend]
  exact asked_append

theorem asked_run {n : Nat} (hn : n ≤ 2049) :
    run (Builds.step (fun _ => true) fun _ => true) (.start (.start 2049 2049 0))
      ((List.range n).map fun k => .request (k + 1)) = some ⟨asked n, asked n⟩ := by
  induction n with
  | zero =>
    have hnone : asked 0 = .start 2049 2049 0 := by simp [asked, Transfer.start]
    rw [hnone]
    rfl
  | succ n ih =>
    have hnew : gotBlock (asked n) (n + 1) = false := gotBlock_of_le hn
    have hroom : makeRoom (fun _ => true) (asked n).rexmit = .ok (asked n).rexmit :=
      if_neg (show ¬n ≥ 4096 by omega)
    rw [List.range_succ, List.map_append]
    refine run_append_of (ih (by omega)) ?_
    simp only [List.map_cons, List.map_nil, run, Builds.step, ttpRequestRetransmit,
      ttpRequestRetransmitSorted, hnew, hroom, asked_append, asked_insert, Bool.false_eq_true,
      if_false, Option.bind_some, Option.map_some]
    rfl

def lostRestart : List TableCall :=
  (List.range 2049).map (fun k => .request (k + 1)) ++
    [.received 1, .repeated .fwriteFails .fwriteFails]

theorem asked_entries : (markReceived (asked 2049) 1).rexmit.entries =
    1 :: (List.range 2048).map (· + 2) := by
  have hentries : (asked 2049).rexmit.entries = (List.range 2049).map (· + 1) := by
    apply List.map_congr_left
    intro k hk
    exact if_pos (List.mem_range.mp hk)
  rw [show (markReceived (asked 2049) 1).rexmit = (asked 2049).rexmit from rfl, hentries,
    List.range_succ_eq_map, List.map_cons, List.map_map]
  rfl

theorem asked_outstanding :
    outstanding (markReceived (asked 2049) 1) = (List.range 2048).map (· + 2) := by
  have hone : gotBlock (markReceived (asked 2049) 1) 1 = true := rfl
  rw [outstanding, asked_entries, List.filter_cons_of_neg (by simp [hone])]
  apply List.filter_eq_self.mpr
  intro b hb
  obtain ⟨k, hk, rfl⟩ := List.mem_map.mp hb
  have hk : k < 2048 := List.mem_range.mp hk
  have hmissing : gotBlock (markReceived (asked 2049) 1) (k + 2) = false := by
    rw [gotBlock_markReceived, gotBlock_of_le (show k + 2 ≤ 2049 by omega)]
    simp [asked, Transfer.start]
  simp [hmissing]

/-- The last entry is in the table twice then. -/
theorem lost_restart_unsorted :
    ∃ t, run (Builds.step (fun _ => true) fun _ => true) (.start (.start 2049 2049 0)) lostRestart =
      some t ∧ ¬t.Increasing := by
  have hasked := asked_run (n := 2049) le_rfl
  refine ⟨_, run_append_of hasked rfl, fun hsorted => ?_⟩
  have hincreasing : Builds.Increasing ⟨markReceived (asked 2049) 1, markReceived (asked 2049) 1⟩ := by
    unfold Builds.Increasing
    rw [asked_entries]
    refine List.pairwise_cons.mpr ⟨fun b hb => ?_, ?_⟩
    · obtain ⟨k, -, rfl⟩ := List.mem_map.mp hb
      omega
    · exact List.pairwise_lt_range.map _ fun a b h => by omega
  have hkept := (@Builds.increasing_step (fun _ => true) (fun _ => true) _ _
    (.repeated .fwriteFails .fwriteFails) ⟨by decide, by decide⟩ hincreasing rfl).mp hsorted
  have hplace := hkept rfl (by
    rw [asked_outstanding, List.length_map, List.length_range]
    exact le_rfl)
  have hfirst := hplace 1 (by
    rw [asked_entries]
    exact List.mem_cons_self)
  rw [mem_outstanding] at hfirst
  exact absurd hfirst.2.2 (by decide)

end Lost

end TsunamiUdp.Client

import TsunamiUdp.Library.Memory
import TsunamiUdp.Client.Sorting

/-! The request table as a block of memory: no access is outside of it. -/
namespace TsunamiUdp.Client
open Library

/-- A transfer, and the memory that its `table` points to; the entries are there and not in
`xfer`. -/
structure Memory where
  table : List Nat
  xfer : Transfer

namespace Memory

def withRexmit (s : Memory) (table : List Nat) (tableSize indexMax : Nat) : Memory where
  table := table
  xfer := { s.xfer with rexmit :=
    { s.xfer.rexmit with tableSize := tableSize, indexMax := indexMax } }

/-- `calloc` in `command_get`, before anything is requested. -/
def start (xfer : Transfer) : Memory where
  table := List.replicate defaultTableSize 0
  xfer := { xfer with rexmit := ⟨fun _ => 0, defaultTableSize, 0, false⟩ }

def append (s : Memory) (block : Nat) : Option Memory :=
  (writeCell s.table s.xfer.rexmit.indexMax block).map fun table =>
    s.withRexmit table s.xfer.rexmit.tableSize (s.xfer.rexmit.indexMax + 1)

def seekInsertion (table : List Nat) (block : Nat) : Nat → Nat → Option Nat
  | 0, idx => some idx
  | left + 1, idx => (readCell table idx).bind fun entry =>
    if entry < block then seekInsertion table block left (idx + 1) else some idx

def shiftUp : Nat → Nat → Nat → List Nat → Option (List Nat)
  | 0, _, _, table => some table
  | left + 1, idx, ins, table => (readCell table idx).bind fun up =>
    (writeCell table idx ins).bind fun table => shiftUp left (idx + 1) up table

def insert (s : Memory) (block : Nat) : Option Memory :=
  let rexmit := s.xfer.rexmit
  (seekInsertion s.table block rexmit.indexMax 0).bind fun idx =>
    if idx = rexmit.indexMax then s.append block
    else (readCell s.table idx).bind fun entry =>
      if entry = block then some s
      else (shiftUp (rexmit.indexMax - idx + 1) idx block s.table).map fun table =>
        s.withRexmit table rexmit.tableSize (rexmit.indexMax + 1)

/-- `realloc` with what it finds behind the old entries, and `memset`. -/
def grow (fresh : Nat → Nat) (s : Memory) : Option Memory :=
  let rexmit := s.xfer.rexmit
  (fillCells 0 rexmit.tableSize rexmit.tableSize
    (reallocate fresh (2 * rexmit.tableSize) s.table)).map fun table =>
      s.withRexmit table (2 * rexmit.tableSize) rexmit.indexMax

/-- `ttp_request_retransmit`, with its return value; `none` if there is an access outside of
the table. -/
def ttpRequestRetransmit (alloc : Nat → Bool) (fresh : Nat → Nat) (put : Memory → Nat → Option Memory)
    (s : Memory) (block : Nat) : Option (Bool × Memory) :=
  let rexmit := s.xfer.rexmit
  if gotBlock s.xfer block then some (true, s)
  else if rexmit.indexMax ≥ rexmit.tableSize then
    if rexmit.indexMax ≥ 32 * maxRetransmissionBuffer then
      some (true, ⟨s.table, { s.xfer with rexmit := { rexmit with capHit := true } }⟩)
    else if alloc (2 * rexmit.tableSize) then
      (s.grow fresh).bind fun s => (put s block).map fun s => (true, s)
    else some (false, s)
  else (put s block).map fun s => (true, s)

def purge (xfer : Transfer) : Nat → Nat → Nat → List Retransmission → List Nat →
    Option (Nat × List Retransmission × List Nat)
  | 0, _, count, retransmission, table => some (count, retransmission, table)
  | left + 1, entry, count, retransmission, table =>
    if count < maxRetransmissionBuffer then
      (readCell table entry).bind fun block =>
        if block ≠ 0 ∧ gotBlock xfer block = false then
          (writeCell table count block).bind fun table =>
            (writeCell retransmission count ⟨requestRetransmit, block, 0⟩).bind
              fun retransmission => purge xfer left (entry + 1) (count + 1) retransmission table
        else purge xfer left (entry + 1) count retransmission table
    else some (count, retransmission, table)

structure Done where
  ok : Bool
  memory : Memory
  sent : List Retransmission

def flush (write : WriteResult) (s : Memory) (sent : List Retransmission) : Done :=
  if write = .fflushFails then ⟨false, s, []⟩ else ⟨true, s, sent⟩

def sendRestart (write : WriteResult) (s : Memory) (retransmission : List Retransmission) :
    Option Done :=
  let xfer := s.xfer
  let block := min xfer.blockCount (wrap32 (xfer.gaplessToBlock + 1))
  (writeCell retransmission 0 ⟨requestRestart, block, 0⟩).bind fun retransmission =>
    (readCells retransmission 1).bind fun sent =>
      if write = .fwriteFails then some ⟨false, s, []⟩
      else (readCell s.table (wrap32 (xfer.rexmit.indexMax + 4294967295))).map fun lastidx =>
        let restarted := { xfer with
          restartPending := true
          restartLastidx := lastidx
          restartWireclearidx := min xfer.blockCount (wrap32 (lastidx + xfer.onWireEstimate))
          rexmit := { xfer.rexmit with indexMax := 0 }
          nextBlock := block
          stats := { xfer.stats with thisRetransmits := maxRetransmissionBuffer } }
        flush write ⟨s.table, restarted⟩ sent

def sendRequests (write : WriteResult) (s : Memory) (count : Nat)
    (retransmission : List Retransmission) : Option Done :=
  let xfer := { s.xfer with
    rexmit := { s.xfer.rexmit with indexMax := count }
    stats := { s.xfer.stats with
      thisRetransmits := count
      totalRetransmits := wrap32 (s.xfer.stats.totalRetransmits + count) } }
  if 0 < count then
    (readCells retransmission count).map fun sent =>
      if write = .fwriteFails then ⟨false, ⟨s.table, xfer⟩, []⟩ else flush write ⟨s.table, xfer⟩ sent
  else some (flush write ⟨s.table, xfer⟩ [])

def resetStats (xfer : Transfer) : Transfer :=
  { xfer with stats := { xfer.stats with thisRetransmits := 0 } }

def ttpRepeatRetransmit (write : WriteResult) (s : Memory) : Option Done :=
  let retransmission := List.replicate maxRetransmissionBuffer ⟨0, 0, 0⟩
  let xfer := resetStats s.xfer
  (purge xfer xfer.rexmit.indexMax 0 0 retransmission s.table).bind
    fun (count, retransmission, table) =>
      if count ≥ maxRetransmissionBuffer then sendRestart write ⟨table, xfer⟩ retransmission
      else sendRequests write ⟨table, xfer⟩ count retransmission

def view (s : Memory) : Transfer :=
  { s.xfer with rexmit := { s.xfer.rexmit with table := contents 0 s.table } }

/-- The table has the size that is allocated for it, which is the first one doubled four
times at most. -/
structure InBounds (s : Memory) : Prop where
  allocated : s.table.length = s.xfer.rexmit.tableSize
  room : s.xfer.rexmit.indexMax ≤ s.xfer.rexmit.tableSize
  doubled : ∃ k ≤ 4, s.xfer.rexmit.tableSize = defaultTableSize * 2 ^ k

end Memory

inductive Build
  | append
  | sorting

namespace Build

def put : Build → Memory → Nat → Option Memory
  | append => Memory.append
  | sorting => Memory.insert

def putEntry : Build → Retransmit → Nat → Retransmit
  | append => Retransmit.append
  | sorting => Retransmit.insert

def request : Build → (Nat → Bool) → Transfer → Nat → Option Transfer
  | append => ttpRequestRetransmit
  | sorting => ttpRequestRetransmitSorted

def writes (build : Build) (write writeSorted : WriteResult) : WriteResult :=
  match build with
  | append => write
  | sorting => writeSorted

def entriesStep (build : Build) (alloc : Nat → Bool) (xfer : Transfer) : TableCall → Transfer
  | .request block => (build.request alloc xfer block).getD xfer
  | .repeated write writeSorted => (ttpRepeatRetransmit (build.writes write writeSorted) xfer).xfer
  | .received block => markReceived xfer block

end Build

/-- What a call does to the memory; `none` if there is an access outside of the table or of
the local array. -/
def Memory.step (build : Build) (alloc : Nat → Bool) (fresh : Nat → Nat) (s : Memory) :
    TableCall → Option Memory
  | .request block => (s.ttpRequestRetransmit alloc fresh build.put block).map Prod.snd
  | .repeated write writeSorted =>
    (s.ttpRepeatRetransmit (build.writes write writeSorted)).map Memory.Done.memory
  | .received block => some ⟨s.table, markReceived s.xfer block⟩

namespace Build
variable {alloc : Nat → Bool} {xfer : Transfer} {block : Nat} {rexmit : Retransmit}

theorem request_ok (build : Build) (hnew : ¬gotBlock xfer block = true)
    (hroom : makeRoom alloc xfer.rexmit = .ok rexmit) :
    build.request alloc xfer block = some { xfer with rexmit := build.putEntry rexmit block } := by
  cases build with
  | append => rw [request, ttpRequestRetransmit, if_neg hnew, hroom, putEntry]
  | sorting => rw [request, ttpRequestRetransmitSorted, if_neg hnew, hroom, putEntry]

theorem request_capped (build : Build) (hnew : ¬gotBlock xfer block = true)
    (hroom : makeRoom alloc xfer.rexmit = .capped) :
    build.request alloc xfer block =
      some { xfer with rexmit := { xfer.rexmit with capHit := true } } := by
  cases build with
  | append => rw [request, ttpRequestRetransmit, if_neg hnew, hroom]
  | sorting => rw [request, ttpRequestRetransmitSorted, if_neg hnew, hroom]

theorem request_failed (build : Build) (hnew : ¬gotBlock xfer block = true)
    (hroom : makeRoom alloc xfer.rexmit = .failed) : build.request alloc xfer block = none := by
  cases build with
  | append => rw [request, ttpRequestRetransmit, if_neg hnew, hroom]
  | sorting => rw [request, ttpRequestRetransmitSorted, if_neg hnew, hroom]

end Build

namespace Memory

section Loops
variable {table : List Nat} {block idx left : Nat}

theorem seekInsertion_refines (h : idx + left ≤ table.length) :
    seekInsertion table block left idx =
      some (Client.seekInsertion (contents 0 table) block left idx) := by
  induction left generalizing idx with
  | zero => rfl
  | succ left ih =>
    have hread : readCell table idx = some (contents 0 table idx) := readCell_of_lt (by omega)
    rw [seekInsertion, Client.seekInsertion, hread, Option.bind_some]
    split
    · exact ih (by omega)
    · rfl

theorem shiftUp_refines (ins : Nat) (h : idx + left ≤ table.length) : ∃ table',
    shiftUp left idx ins table = some table' ∧ table'.length = table.length ∧
      contents 0 table' = Client.shiftUp left idx ins (contents 0 table) := by
  induction left generalizing idx ins table with
  | zero => exact ⟨table, rfl, rfl, rfl⟩
  | succ left ih =>
    have hidx : idx < table.length := by omega
    have hlength : (table.set idx ins).length = table.length := List.length_set
    have hread : readCell table idx = some (contents 0 table idx) := readCell_of_lt hidx
    obtain ⟨table', hshift, hsize, hcontents⟩ :=
      @ih (table.set idx ins) (idx + 1) (contents 0 table idx) (by omega)
    refine ⟨table', ?_, hsize.trans hlength, ?_⟩
    · rw [shiftUp, hread, Option.bind_some, writeCell_of_lt hidx, Option.bind_some, hshift]
    · rw [hcontents, contents_set hidx]
      rfl

def requestsFor (blocks : List Nat) : List Retransmission :=
  blocks.map fun block => ⟨requestRetransmit, block, 0⟩

/-- The loop invariant: the array begins with requests for the blocks that are kept. -/
theorem purge_refines {xfer xfer' : Transfer} (hgot : ∀ b, gotBlock xfer' b = gotBlock xfer b)
    {entry : Nat} {blocks : List Nat} {retransmission : List Retransmission}
    (htable : entry + left ≤ table.length)
    (hentry : blocks.length ≤ entry) (harray : retransmission.length = maxRetransmissionBuffer)
    (hrequests : retransmission.take blocks.length = requestsFor blocks) :
    ∃ kept retransmission' table',
      purge xfer left entry blocks.length retransmission table =
        some (kept.length, retransmission', table') ∧
      Client.purge xfer' left entry blocks (contents 0 table) = (kept, contents 0 table') ∧
      table'.length = table.length ∧ retransmission'.length = maxRetransmissionBuffer ∧
      retransmission'.take kept.length = requestsFor kept := by
  induction left generalizing entry blocks retransmission table with
  | zero => exact ⟨blocks, retransmission, table, rfl, rfl, rfl, harray, hrequests⟩
  | succ left ih =>
    have hread : readCell table entry = some (contents 0 table entry) := readCell_of_lt (by omega)
    rw [purge, Client.purge]
    by_cases hroom : blocks.length < maxRetransmissionBuffer
    · rw [if_pos hroom, if_pos hroom, hread, Option.bind_some]
      dsimp only
      rw [hgot]
      generalize contents 0 table entry = block
      by_cases hwant : block ≠ 0 ∧ gotBlock xfer block = false
      · have hcount : blocks.length < table.length := by omega
        have hslot : blocks.length < retransmission.length := by omega
        have hlength : (blocks ++ [block]).length = blocks.length + 1 := List.length_append
        rw [if_pos hwant, if_pos hwant, writeCell_of_lt hcount, Option.bind_some,
          writeCell_of_lt hslot, Option.bind_some, ← contents_set hcount, ← hlength]
        have htaken : (retransmission.set blocks.length ⟨requestRetransmit, block, 0⟩).take
            (blocks ++ [block]).length = requestsFor (blocks ++ [block]) := by
          rw [hlength, List.take_set, List.take_succ_eq_append_getElem hslot, hrequests,
            requestsFor, requestsFor, List.map_append, List.set_append_right _ _ (by simp)]
          simp
        obtain ⟨kept, retransmission', table', hlow, hhigh, hsize, hrest⟩ := ih
          (show entry + 1 + left ≤ (table.set blocks.length block).length by
            rw [List.length_set]
            omega)
          (show (blocks ++ [block]).length ≤ entry + 1 by omega)
          (List.length_set.trans harray) htaken
        exact ⟨kept, retransmission', table', hlow, hhigh, hsize.trans List.length_set, hrest⟩
      · rw [if_neg hwant, if_neg hwant]
        exact ih (by omega) (by omega) harray hrequests
    · rw [if_neg hroom, if_neg hroom]
      exact ⟨blocks, retransmission, table, rfl, rfl, rfl, harray, hrequests⟩

end Loops

section Requests
variable {alloc : Nat → Bool} {fresh : Nat → Nat} {s : Memory} {block : Nat}

structure Stored (s : Memory) (rexmit : Retransmit) (s' : Memory) : Prop where
  table : s'.table.length = s.table.length
  tableSize : s'.xfer.rexmit.tableSize = s.xfer.rexmit.tableSize
  indexMax : s'.xfer.rexmit.indexMax ≤ s.xfer.rexmit.indexMax + 1
  view : s'.view = { s.view with rexmit := rexmit }

theorem append_stored (h : s.xfer.rexmit.indexMax < s.table.length) :
    ∃ s', s.append block = some s' ∧ Stored s (s.view.rexmit.append block) s' := by
  refine ⟨_, congrArg (Option.map _) (writeCell_of_lt h), List.length_set, rfl, le_rfl, ?_⟩
  unfold Memory.view withRexmit
  dsimp only
  rw [contents_set h]
  rfl

theorem insert_stored (h : s.xfer.rexmit.indexMax < s.table.length) :
    ∃ s', s.insert block = some s' ∧ Stored s (s.view.rexmit.insert block) s' := by
  have hseek : seekInsertion s.table block s.xfer.rexmit.indexMax 0 = some _ :=
    seekInsertion_refines (show 0 + s.xfer.rexmit.indexMax ≤ s.table.length by omega)
  obtain ⟨hle, -, -⟩ := seekInsertion_spec (contents 0 s.table) block s.xfer.rexmit.indexMax 0
    fun k hk => absurd hk (Nat.not_lt_zero k)
  unfold Memory.insert Retransmit.insert
  dsimp only
  rw [hseek, Option.bind_some, show s.view.rexmit.table = contents 0 s.table from rfl,
    show s.view.rexmit.indexMax = s.xfer.rexmit.indexMax from rfl]
  generalize Client.seekInsertion (contents 0 s.table) block s.xfer.rexmit.indexMax 0 = idx at hle
  have hread : readCell s.table idx = some (contents 0 s.table idx) := readCell_of_lt (by omega)
  split
  · exact append_stored h
  · rw [hread, Option.bind_some]
    split
    · exact ⟨s, rfl, rfl, rfl, Nat.le_succ _, rfl⟩
    · obtain ⟨table, hshift, hlength, hcontents⟩ := shiftUp_refines block
        (show idx + (s.xfer.rexmit.indexMax - idx + 1) ≤ s.table.length by omega)
      rw [hshift, Option.map_some]
      refine ⟨_, rfl, hlength, rfl, le_rfl, ?_⟩
      unfold Memory.view withRexmit
      dsimp only
      rw [hcontents]

theorem put_stored (block : Nat) (build : Build) (h : s.xfer.rexmit.indexMax < s.table.length) :
    ∃ s', build.put s block = some s' ∧ Stored s (build.putEntry s.view.rexmit block) s' := by
  cases build with
  | append => exact append_stored h
  | sorting => exact insert_stored h

theorem Stored.inBounds {rexmit : Retransmit} {s' : Memory} (h : Stored s rexmit s')
    (hs : s.InBounds) (hroom : s.xfer.rexmit.indexMax < s.xfer.rexmit.tableSize) : s'.InBounds where
  allocated := by rw [h.table, h.tableSize, hs.allocated]
  room := by
    have hindex := h.indexMax
    rw [h.tableSize]
    omega
  doubled := by
    rw [h.tableSize]
    exact hs.doubled

theorem makeRoom_view (alloc : Nat → Bool) (s : Memory) : makeRoom alloc s.view.rexmit =
    if s.xfer.rexmit.indexMax ≥ s.xfer.rexmit.tableSize then
      if s.xfer.rexmit.indexMax ≥ 32 * maxRetransmissionBuffer then .capped
      else if alloc (2 * s.xfer.rexmit.tableSize) then
        .ok { s.view.rexmit with
          table := fun i => if s.xfer.rexmit.tableSize ≤ i ∧ i < 2 * s.xfer.rexmit.tableSize then 0
            else contents 0 s.table i
          tableSize := 2 * s.xfer.rexmit.tableSize }
      else .failed
    else .ok s.view.rexmit := rfl

theorem grow_eq (fresh : Nat → Nat) (hs : s.InBounds) : ∃ table,
    s.grow fresh =
      some (s.withRexmit table (2 * s.xfer.rexmit.tableSize) s.xfer.rexmit.indexMax) ∧
    table.length = 2 * s.xfer.rexmit.tableSize ∧ contents 0 table = fun i =>
      if s.xfer.rexmit.tableSize ≤ i ∧ i < 2 * s.xfer.rexmit.tableSize then 0
      else contents 0 s.table i := by
  have hsize := hs.allocated
  obtain ⟨table, hfill, hlength, hcontents⟩ := fillCells_reallocate fresh s.table.length s.table 0
  rw [hsize, ← Nat.two_mul] at hfill hlength
  refine ⟨table, ?_, hlength, ?_⟩
  · unfold grow
    dsimp only
    rw [hfill]
    rfl
  · rw [hcontents]
    funext i
    split
    · exact contents_of_ge (by omega)
    · rfl

theorem grow_inBounds (fresh : Nat → Nat) (hs : s.InBounds)
    (hfull : s.xfer.rexmit.indexMax ≥ s.xfer.rexmit.tableSize)
    (hcap : ¬s.xfer.rexmit.indexMax ≥ 32 * maxRetransmissionBuffer)
    (halloc : alloc (2 * s.xfer.rexmit.tableSize) = true) :
    ∃ s', s.grow fresh = some s' ∧ s'.InBounds ∧
      s'.xfer.rexmit.indexMax < s'.xfer.rexmit.tableSize ∧
      makeRoom alloc s.view.rexmit = .ok s'.view.rexmit ∧
      s'.view = { s.view with rexmit := s'.view.rexmit } := by
  obtain ⟨table, hgrow, hlength, hcontents⟩ := grow_eq fresh hs
  obtain ⟨-, hroom, k, hk, hsize⟩ := hs
  have hlast : k ≠ 4 := by
    rintro rfl
    exact hcap (hfull.trans' (hsize ▸ le_rfl))
  have hpos : 0 < defaultTableSize * 2 ^ k := Nat.mul_pos (by decide) (Nat.two_pow_pos k)
  refine ⟨_, hgrow, ⟨hlength, ?_, k + 1, by omega, ?_⟩, ?_, ?_, rfl⟩
  · show s.xfer.rexmit.indexMax ≤ 2 * s.xfer.rexmit.tableSize
    omega
  · show 2 * s.xfer.rexmit.tableSize = defaultTableSize * 2 ^ (k + 1)
    rw [hsize, pow_succ]
    ring
  · show s.xfer.rexmit.indexMax < 2 * s.xfer.rexmit.tableSize
    omega
  · rw [makeRoom_view, if_pos hfull, if_neg hcap, if_pos halloc, ← hcontents]
    rfl

theorem request_refines (build : Build) (hs : s.InBounds) : ∃ ok s',
    s.ttpRequestRetransmit alloc fresh build.put block = some (ok, s') ∧ s'.InBounds ∧
      s'.view = (build.request alloc s.view block).getD s.view := by
  have hroom := makeRoom_view alloc s
  unfold Memory.ttpRequestRetransmit
  dsimp only
  by_cases hgot : gotBlock s.xfer block = true
  · have hrequest : build.request alloc s.view block = some s.view := by
      cases build <;> exact if_pos hgot
    rw [if_pos hgot, hrequest]
    exact ⟨true, s, rfl, hs, rfl⟩
  · have hnew : ¬gotBlock s.view block = true := hgot
    rw [if_neg hgot]
    by_cases hfull : s.xfer.rexmit.indexMax ≥ s.xfer.rexmit.tableSize
    · rw [if_pos hfull] at hroom ⊢
      by_cases hcap : s.xfer.rexmit.indexMax ≥ 32 * maxRetransmissionBuffer
      · rw [if_pos hcap] at hroom ⊢
        rw [build.request_capped hnew hroom]
        exact ⟨true, _, rfl, ⟨hs.allocated, hs.room, hs.doubled⟩, rfl⟩
      · rw [if_neg hcap] at hroom ⊢
        by_cases halloc : alloc (2 * s.xfer.rexmit.tableSize) = true
        · obtain ⟨grown, hgrow, hbounds, hspace, hdoubled, hview⟩ :=
            grow_inBounds fresh hs hfull hcap halloc
          obtain ⟨s', hput, hstored⟩ := put_stored block build
            (hspace.trans_eq hbounds.allocated.symm)
          rw [if_pos halloc, hgrow, Option.bind_some, hput, build.request_ok hnew hdoubled]
          refine ⟨true, s', rfl, hstored.inBounds hbounds hspace, ?_⟩
          rw [hstored.view, hview]
          rfl
        · rw [if_neg halloc] at hroom ⊢
          rw [build.request_failed hnew hroom]
          exact ⟨false, s, rfl, hs, rfl⟩
    · have hspace : s.xfer.rexmit.indexMax < s.xfer.rexmit.tableSize := Nat.lt_of_not_ge hfull
      obtain ⟨s', hput, hstored⟩ := put_stored block build (hspace.trans_eq hs.allocated.symm)
      rw [if_neg hfull] at hroom ⊢
      rw [hput, build.request_ok hnew hroom]
      exact ⟨true, s', rfl, hstored.inBounds hs hspace, hstored.view⟩

end Requests

section Repeated
variable {s : Memory} (write : WriteResult) {retransmission : List Retransmission}

theorem InBounds.tableSize_le (hs : s.InBounds) :
    s.xfer.rexmit.tableSize ≤ 32 * maxRetransmissionBuffer := by
  obtain ⟨k, hk, hsize⟩ := hs.doubled
  rw [hsize]
  exact Nat.mul_le_mul_left defaultTableSize (Nat.pow_le_pow_right (by decide) hk)

theorem last_entry (hs : s.InBounds) (hfull : maxRetransmissionBuffer ≤ s.xfer.rexmit.indexMax) :
    readCell s.table (wrap32 (s.xfer.rexmit.indexMax + 4294967295)) =
      some (contents 0 s.table (s.xfer.rexmit.indexMax - 1)) := by
  have hsize := hs.tableSize_le
  have hroom := hs.room
  have hallocated := hs.allocated
  unfold maxRetransmissionBuffer at hfull hsize
  have hlast : wrap32 (s.xfer.rexmit.indexMax + 4294967295) = s.xfer.rexmit.indexMax - 1 := by
    unfold wrap32
    omega
  rw [hlast]
  exact readCell_of_lt (by omega)

theorem sendRestart_eq (hs : s.InBounds) (hfull : maxRetransmissionBuffer ≤ s.xfer.rexmit.indexMax)
    (harray : retransmission.length = maxRetransmissionBuffer) :
    let block := min s.xfer.blockCount (wrap32 (s.xfer.gaplessToBlock + 1))
    let lastidx := contents 0 s.table (s.xfer.rexmit.indexMax - 1)
    sendRestart write s retransmission = some
      (if write = .fwriteFails then ⟨false, s, []⟩
      else flush write ⟨s.table, { s.xfer with
        restartPending := true
        restartLastidx := lastidx
        restartWireclearidx := min s.xfer.blockCount (wrap32 (lastidx + s.xfer.onWireEstimate))
        rexmit := { s.xfer.rexmit with indexMax := 0 }
        nextBlock := block
        stats := { s.xfer.stats with thisRetransmits := maxRetransmissionBuffer } }⟩
        [⟨requestRestart, block, 0⟩]) := by
  intro block lastidx
  have hpos : 0 < retransmission.length := by
    rw [harray]
    decide
  obtain ⟨first, rest, rfl⟩ := List.exists_cons_of_length_pos hpos
  unfold sendRestart
  dsimp only
  rw [writeCell_of_lt hpos, Option.bind_some, readCells_of_le (by simp), Option.bind_some,
    last_entry hs hfull]
  split <;> rfl

theorem sendRequests_eq {kept : List Nat} (harray : retransmission.length = maxRetransmissionBuffer)
    (hfew : kept.length ≤ maxRetransmissionBuffer)
    (hrequests : retransmission.take kept.length = requestsFor kept) :
    let memory : Memory := ⟨s.table, { s.xfer with
      rexmit := { s.xfer.rexmit with indexMax := kept.length }
      stats := { s.xfer.stats with
        thisRetransmits := kept.length
        totalRetransmits := wrap32 (s.xfer.stats.totalRetransmits + kept.length) } }⟩
    sendRequests write s kept.length retransmission = some
      (if write = .ok ∨ (write = .fwriteFails ∧ kept = []) then ⟨true, memory, requestsFor kept⟩
      else ⟨false, memory, []⟩) := by
  intro memory
  unfold sendRequests
  dsimp only
  rw [readCells_of_le (hfew.trans_eq harray.symm), hrequests]
  by_cases hnone : kept = []
  · subst hnone
    cases write <;> rfl
  · rw [if_pos (List.length_pos_iff.mpr hnone)]
    cases write <;> simp [hnone, flush, memory]

theorem repeat_refines (hs : s.InBounds) : ∃ done,
    s.ttpRepeatRetransmit write = some done ∧ done.memory.InBounds ∧
      Client.ttpRepeatRetransmit write s.view = ⟨done.ok, done.memory.view, done.sent⟩ := by
  have hroom := hs.room
  have hallocated := hs.allocated
  obtain ⟨kept, retransmission, table, hlow, hhigh, htable, harray, hrequests⟩ :=
    @purge_refines s.table s.xfer.rexmit.indexMax (resetStats s.xfer) s.view (fun _ => rfl) 0 []
      (List.replicate maxRetransmissionBuffer ⟨0, 0, 0⟩) (by omega) le_rfl List.length_replicate rfl
  have hpurge : purge (resetStats s.xfer) (resetStats s.xfer).rexmit.indexMax 0 0
      (List.replicate maxRetransmissionBuffer ⟨0, 0, 0⟩) s.table =
        some (kept.length, retransmission, table) := hlow
  have hkept : kept = (outstanding s.view).take maxRetransmissionBuffer :=
    congrArg Prod.fst (hhigh.symm.trans (purge_entries s.view))
  have hfew : kept.length ≤ maxRetransmissionBuffer := by
    rw [hkept]
    exact List.length_take_le _ _
  have hindex : kept.length ≤ s.xfer.rexmit.indexMax := by
    rw [hkept]
    exact (List.length_take_le' _ _).trans (outstanding_length_le s.view)
  have hbounds : InBounds ⟨table, resetStats s.xfer⟩ :=
    ⟨htable.trans hallocated, hroom, hs.doubled⟩
  have hentries : Client.purge s.view s.view.rexmit.indexMax 0 [] s.view.rexmit.table =
      (kept, contents 0 table) := hhigh
  unfold Memory.ttpRepeatRetransmit Client.ttpRepeatRetransmit
  dsimp only
  simp only [hpurge, Option.bind_some, hentries]
  by_cases hfull : kept.length ≥ maxRetransmissionBuffer
  · rw [if_pos hfull, if_pos hfull, sendRestart_eq write hbounds (hfull.trans hindex) harray]
    refine ⟨_, rfl, ?_, ?_⟩
    · cases write
      · exact ⟨htable.trans hallocated, Nat.zero_le _, hs.doubled⟩
      · exact hbounds
      · exact ⟨htable.trans hallocated, Nat.zero_le _, hs.doubled⟩
    · cases write <;> rfl
  · rw [if_neg hfull, if_neg hfull, sendRequests_eq write harray hfew hrequests]
    refine ⟨_, rfl, ?_, ?_⟩
    · split <;> exact ⟨htable.trans hallocated, hindex.trans hroom, hs.doubled⟩
    · split <;> rfl

end Repeated

section Runs
variable {alloc : Nat → Bool} {fresh : Nat → Nat} {build : Build} {s : Memory}

theorem start_inBounds (xfer : Transfer) : (start xfer).InBounds where
  allocated := List.length_replicate
  room := Nat.zero_le _
  doubled := ⟨0, Nat.zero_le _, rfl⟩

theorem step_refines (hs : s.InBounds) (call : TableCall) : ∃ s',
    s.step build alloc fresh call = some s' ∧ s'.InBounds ∧
      s'.view = build.entriesStep alloc s.view call := by
  cases call with
  | request block =>
    obtain ⟨ok, s', hrequest, hbounds, hview⟩ := request_refines build hs
    exact ⟨s', congrArg (Option.map _) hrequest, hbounds, hview⟩
  | repeated write writeSorted =>
    obtain ⟨done, hrepeat, hbounds, hview⟩ := repeat_refines (build.writes write writeSorted) hs
    exact ⟨done.memory, congrArg (Option.map _) hrepeat, hbounds,
      (congrArg Written.xfer hview).symm⟩
  | received block => exact ⟨_, rfl, ⟨hs.allocated, hs.room, hs.doubled⟩, rfl⟩

theorem run_refines (hs : s.InBounds) (calls : List TableCall) : ∃ t,
    run (Memory.step build alloc fresh) s calls = some t ∧ t.InBounds ∧
      t.view = calls.foldl (build.entriesStep alloc) s.view := by
  induction calls generalizing s with
  | nil => exact ⟨s, rfl, hs, rfl⟩
  | cons call calls ih =>
    obtain ⟨s', hstep, hbounds, hview⟩ := @step_refines alloc fresh build s hs call
    obtain ⟨t, hrun, ht, hentries⟩ := ih hbounds
    refine ⟨t, ?_, ht, ?_⟩
    · rw [run_cons, hstep, Option.bind_some, hrun]
    · rw [hentries, hview, List.foldl_cons]

end Runs

end Memory

/-- From the start of a transfer, the memory and the entries go on together. -/
theorem entries_run (build : Build) (alloc : Nat → Bool) (fresh : Nat → Nat)
    (fileSize blockCount onWireEstimate : Nat) (calls : List TableCall) : ∃ s,
      run (Memory.step build alloc fresh) (.start (.start fileSize blockCount onWireEstimate)) calls =
        some s ∧
      s.view = calls.foldl (build.entriesStep alloc) (.start fileSize blockCount onWireEstimate) := by
  have hstart : (Memory.start (.start fileSize blockCount onWireEstimate)).view =
      .start fileSize blockCount onWireEstimate := by
    rw [Memory.view, Memory.start, contents_replicate]
    rfl
  obtain ⟨s, hrun, -, hview⟩ := Memory.run_refines
    (Memory.start_inBounds (.start fileSize blockCount onWireEstimate)) calls
  rw [hstart] at hview
  exact ⟨s, hrun, hview⟩

/-- In both builds, in whatever order the table is used, and whatever `realloc` finds behind
it, no access is outside of the table or of the local array, and the entries in use fit into
the table, which does not grow over its limit. -/
theorem table_in_bounds (build : Build) (alloc : Nat → Bool) (fresh : Nat → Nat) (xfer : Transfer)
    (calls : List TableCall) : ∃ s,
      run (Memory.step build alloc fresh) (.start xfer) calls = some s ∧
      s.xfer.rexmit.indexMax ≤ s.xfer.rexmit.tableSize ∧
      s.xfer.rexmit.tableSize ≤ 32 * maxRetransmissionBuffer ∧
      s.table.length = s.xfer.rexmit.tableSize := by
  obtain ⟨s, hrun, hs, -⟩ := Memory.run_refines (Memory.start_inBounds xfer) calls
  exact ⟨s, hrun, hs.room, hs.tableSize_le, hs.allocated⟩

end TsunamiUdp.Client

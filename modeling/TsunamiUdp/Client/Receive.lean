import TsunamiUdp.Client.Transfer

/-! One turn of the receive loop of `command_get`. The parts between two calls into
the ring are functions of their own: the threads of the client run them one by one. -/
namespace TsunamiUdp.Client
open Library

inductive Recv
  | error
  | datagram (bytes : List UInt8)

/-- What the calls of one turn return: the socket, `ring_full`, `realloc`, the writes
to the control channel, the loss window in blocks, the clock, and the ring's counter. -/
structure Env where
  recv : Recv
  ringFull : Bool
  alloc : Nat → Bool
  errorWrite : WriteResult
  terminateWrite : WriteResult
  periodicWrite : WriteResult
  statsWrite : WriteResult
  window : Rat
  elapsed : Nat
  countData : Int

def Env.calm (recv : Recv) : Env where
  recv := recv
  ringFull := false
  alloc := fun _ => true
  errorWrite := .ok
  terminateWrite := .ok
  periodicWrite := .ok
  statsWrite := .ok
  window := 0
  elapsed := 0
  countData := 0

structure Net where
  xfer : Transfer
  localDatagram : List UInt8

def Net.start (param : Parameter) (xfer : Transfer) : Net where
  xfer := xfer
  localDatagram := List.replicate (6 + param.blockSize) 0

/-- The local buffer after the call: a datagram overwrites its front and is cut to its
size, an error leaves it alone. -/
def buffer (param : Parameter) (old : List UInt8) : Recv → List UInt8
  | .error => old
  | .datagram bytes =>
    let bytes := bytes.take (6 + param.blockSize)
    bytes ++ old.drop bytes.length

def countArrival (type : Nat) (xfer : Transfer) : Transfer :=
  let stats := { xfer.stats with totalBlocks := wrap32 (xfer.stats.totalBlocks + 1) }
  { xfer with stats :=
      if type ≠ tsBlockRetransmission then
        { stats with thisFlowOriginals := wrap32 (stats.thisFlowOriginals + 1) }
      else { stats with
        thisFlowRetransmitteds := wrap32 (stats.thisFlowRetransmitteds + 1)
        totalRecvdRetransmits := wrap32 (stats.totalRecvdRetransmits + 1) } }

/-- The head of the loop body. After an error it goes on with the old buffer;
`none` is the exit to `abort`. -/
def arrive (param : Parameter) (env : Env) (net : Net) : Option (Net × List Retransmission) :=
  let datagram := buffer param net.localDatagram env.recv
  let count := countArrival (blockType datagram)
  match env.recv with
  | .datagram _ => some (⟨count net.xfer, datagram⟩, [])
  | .error =>
    let repeated := ttpRepeatRetransmit env.errorWrite net.xfer
    if repeated.ok then some (⟨count repeated.xfer, datagram⟩, repeated.sent) else none

def enters (ringFull : Bool) (xfer : Transfer) (block type : Nat) : Bool :=
  !ringFull && (!gotBlock xfer block || type == tsBlockTerminate || xfer.restartPending)

def markReceived (xfer : Transfer) (block : Nat) : Transfer :=
  { xfer with
    received := Function.update xfer.received block true
    blocksLeft := if xfer.blocksLeft > 0 then xfer.blocksLeft - 1 else xfer.blocksLeft }

theorem gotBlock_markReceived (xfer : Transfer) (block b : Nat) :
    gotBlock (markReceived xfer block) b = (gotBlock xfer b || decide (b = block)) := by
  by_cases hb : b ≤ xfer.blockCount
  · rw [gotBlock_of_le (show b ≤ (markReceived xfer block).blockCount from hb), gotBlock_of_le hb]
    by_cases hbb : b = block
    · simp [markReceived, hbb]
    · simp [markReceived, hbb]
  · have hgt : xfer.blockCount < b := by omega
    rw [gotBlock_of_gt (show (markReceived xfer block).blockCount < b from hgt),
      gotBlock_of_gt hgt, Bool.true_or]

/-- A double stored into a `u_int32_t`; the negative ones are undefined in C. -/
def truncate (q : Rat) : Nat := (q.num.tdiv q.den % 4294967296).toNat

def earliestBlock (window : Rat) (xfer : Transfer) (block : Nat) : Nat :=
  let missing : Rat := wrap32 (block + 4294967296 - xfer.gaplessToBlock)
  truncate (block - if window < missing then window else missing)

def queueMissing (param : Parameter) (env : Env) (xfer : Transfer) (block : Nat) :
    Option Transfer :=
  if block > xfer.nextBlock then
    if param.lossless then
      requestRange env.alloc (block - xfer.nextBlock) xfer.nextBlock xfer
    else if param.losswindowMs = 0 then some { xfer with gaplessToBlock := block }
    else
      let earliest := earliestBlock env.window xfer block
      (requestRange env.alloc (block - earliest) earliest xfer).map fun xfer =>
        { xfer with nextBlock := earliest, gaplessToBlock := earliest }
  else some xfer

def advanceGapless (xfer : Transfer) : Nat → Nat → Nat
  | 0, gapless => gapless
  | fuel + 1, gapless =>
    if gotBlock xfer (wrap32 (gapless + 1)) ∧ gapless < xfer.blockCount then
      advanceGapless xfer fuel (gapless + 1)
    else gapless

def closeGap (xfer : Transfer) : Transfer :=
  { xfer with gaplessToBlock :=
      advanceGapless xfer (xfer.blockCount - xfer.gaplessToBlock) xfer.gaplessToBlock }

def moveHead (block type : Nat) (xfer : Transfer) : Transfer :=
  if type = tsBlockOriginal then { xfer with nextBlock := wrap32 (block + 1) } else xfer

def clearRestart (xfer : Transfer) : Transfer :=
  if xfer.restartPending ∧ xfer.nextBlock ≥ xfer.restartLastidx then
    { xfer with restartPending := false }
  else xfer

/-- What the control logic did; `over` is the `break` out of the loop. -/
structure Controlled where
  finished : Bool
  xfer : Transfer
  sent : List Retransmission

def atTerminate (param : Parameter) (env : Env) (xfer : Transfer) : Option Controlled :=
  if xfer.blocksLeft = 0 ∨
      (param.lossless = false ∧ xfer.rexmit.indexMax = 0 ∧ xfer.restartPending = false) then
    some ⟨true, xfer, []⟩
  else
    let first := wrap32 (xfer.gaplessToBlock + 1)
    (requestRange env.alloc (xfer.blockCount - first) first xfer).map fun xfer =>
      let repeated := ttpRepeatRetransmit env.terminateWrite xfer
      ⟨false, repeated.xfer, repeated.sent⟩

/-- A block still on the wire when the restart was requested. -/
def onWire (xfer : Transfer) (block type : Nat) : Bool :=
  xfer.restartPending && type != tsBlockTerminate &&
    (decide (block > xfer.restartLastidx) && decide (block ≤ xfer.restartWireclearidx))

def control (param : Parameter) (env : Env) (xfer : Transfer) (block type : Nat) :
    Option Controlled :=
  if onWire xfer block type then some ⟨false, xfer, []⟩
  else (queueMissing param env xfer block).bind fun xfer =>
    let xfer := clearRestart (moveHead block type (closeGap xfer))
    if type = tsBlockTerminate then atTerminate param env xfer else some ⟨false, xfer, []⟩

def updatePeriod : Nat := 350000

def statsDue (env : Env) (xfer : Transfer) : Prop :=
  xfer.stats.totalBlocks % 50 = 0 ∧ env.elapsed > updatePeriod

instance (env : Env) (xfer : Transfer) : Decidable (statsDue env xfer) :=
  inferInstanceAs (Decidable (_ ∧ _))

/-- The feedback at the label `send_stats`; `none` is the exit to `abort`, or the end of the
process in `ttp_update_stats`. -/
def sendStats (param : Parameter) (env : Env) (xfer : Transfer) :
    Option (Transfer × List Retransmission) :=
  if statsDue env xfer then
    let repeated := ttpRepeatRetransmit env.periodicWrite xfer
    if repeated.ok then
      (ttpUpdateStats param env.statsWrite env.countData repeated.xfer).map fun updated =>
        (updated.xfer, repeated.sent ++ updated.sent)
    else none
  else some (xfer, [])

def statsKill (env : Env) (xfer : Transfer) : Bool :=
  let repeated := ttpRepeatRetransmit env.periodicWrite xfer
  decide (statsDue env xfer) && (repeated.ok &&
    decide (wrap32 (repeated.xfer.stats.totalRetransmits + repeated.xfer.stats.totalBlocks) = 0))

def afterRing (param : Parameter) (env : Env) (xfer : Transfer) (block type : Nat) :
    Option Controlled :=
  (control param env xfer block type).bind fun c =>
    if c.finished then some c
    else (sendStats param env c.xfer).map fun (xfer, sent) => ⟨false, xfer, c.sent ++ sent⟩

def afterRingKill (param : Parameter) (env : Env) (xfer : Transfer) (block type : Nat) : Bool :=
  match control param env xfer block type with
  | none => false
  | some c => !c.finished && statsKill env c.xfer

/-- What a turn did; `put` is the datagram that went into the ring. -/
structure Turn where
  finished : Bool
  net : Net
  put : Option (List UInt8)
  sent : List Retransmission

def receiveTurn (param : Parameter) (env : Env) (net : Net) : Option Turn :=
  (arrive param env net).bind fun (net, sent) =>
    let block := blockNumber net.localDatagram
    let type := blockType net.localDatagram
    if enters env.ringFull net.xfer block type then
      let new := gotBlock net.xfer block = false
      let xfer := if new then markReceived net.xfer block else net.xfer
      (afterRing param env xfer block type).map fun c =>
        ⟨c.finished, { net with xfer := c.xfer }, if new then some net.localDatagram else none,
          sent ++ c.sent⟩
    else
      (sendStats param env net.xfer).map fun (xfer, more) =>
        ⟨false, { net with xfer := xfer }, none, sent ++ more⟩

def turnKills (param : Parameter) (env : Env) (net : Net) : Bool :=
  match arrive param env net with
  | none => false
  | some (net, _) =>
    let block := blockNumber net.localDatagram
    let type := blockType net.localDatagram
    if enters env.ringFull net.xfer block type then
      let xfer := if gotBlock net.xfer block = false then markReceived net.xfer block else net.xfer
      afterRingKill param env xfer block type
    else statsKill env net.xfer

/-- The receive loop so far: the numbers of the full-length datagrams that arrived,
what went into the ring, and what was written to the control channel. -/
structure Loop where
  net : Net
  finished : Bool
  arrived : List Nat
  put : List (List UInt8)
  sent : List Retransmission

def Loop.start (param : Parameter) (xfer : Transfer) : Loop :=
  ⟨Net.start param xfer, false, [], [], []⟩

def fullLength (param : Parameter) : Recv → Option Nat
  | .datagram bytes => if 6 + param.blockSize ≤ bytes.length then some (blockNumber bytes) else none
  | .error => none

def Loop.step (param : Parameter) (s : Loop) (env : Env) : Option Loop :=
  if s.finished then none
  else (receiveTurn param env s.net).map fun turn =>
    ⟨turn.net, turn.finished, s.arrived ++ (fullLength param env.recv).toList,
      s.put ++ turn.put.toList, s.sent ++ turn.sent⟩

section Frames
variable {param : Parameter} {env : Env} {xfer xfer' : Transfer}

theorem sameBlocks_repeat (write : WriteResult) (xfer : Transfer) :
    SameBlocks xfer (ttpRepeatRetransmit write xfer).xfer := by
  by_cases hfew : (outstanding xfer).length < maxRetransmissionBuffer
  · obtain ⟨-, -, table, stats, heq⟩ := ttpRepeatRetransmit_few write hfew
    rw [heq]
    exact ⟨rfl, rfl, rfl, rfl⟩
  · have hmany : maxRetransmissionBuffer ≤ (outstanding xfer).length := by omega
    by_cases hw : write = .fwriteFails
    · subst hw
      obtain ⟨-, -, -, table, stats, heq⟩ := ttpRepeatRetransmit_lost hmany
      rw [heq]
      exact ⟨rfl, rfl, rfl, rfl⟩
    · obtain ⟨-, r, st, l, c, -, -, -, heq⟩ := ttpRepeatRetransmit_many write hmany hw
      rw [heq]
      exact ⟨rfl, rfl, rfl, rfl⟩

theorem sendStats_cases {sent : List Retransmission}
    (h : sendStats param env xfer = some (xfer', sent)) :
    (xfer' = xfer ∧ sent = []) ∨
      ((ttpRepeatRetransmit env.periodicWrite xfer).ok = true ∧ ∃ updated,
        ttpUpdateStats param env.statsWrite env.countData
          (ttpRepeatRetransmit env.periodicWrite xfer).xfer = some updated ∧
        (∃ stats, xfer' = { (ttpRepeatRetransmit env.periodicWrite xfer).xfer with stats := stats }) ∧
        sent = (ttpRepeatRetransmit env.periodicWrite xfer).sent ++ updated.sent) := by
  unfold sendStats at h
  split at h
  · dsimp only at h
    split at h
    · rename_i hok
      obtain ⟨updated, hupdated, heq⟩ := Option.map_eq_some_iff.mp h
      cases heq
      exact Or.inr ⟨hok, updated, hupdated, (ttpUpdateStats_some hupdated).1, rfl⟩
    · cases h
  · cases h
    exact Or.inl ⟨rfl, rfl⟩

/-- The feedback returns, or it fails to write its requests, or it divides by zero. -/
theorem sendStats_isSome (hwrite : (ttpRepeatRetransmit env.periodicWrite xfer).ok = true)
    (hkill : statsKill env xfer = false) : ∃ done, sendStats param env xfer = some done := by
  unfold sendStats
  split
  · rename_i hdue
    dsimp only
    rw [if_pos hwrite]
    have hreturns : ttpUpdateStats param env.statsWrite env.countData
        (ttpRepeatRetransmit env.periodicWrite xfer).xfer ≠ none := by
      rw [ne_eq, ttpUpdateStats_eq_none_iff]
      simpa [statsKill, hdue, hwrite] using hkill
    obtain ⟨updated, hupdated⟩ := Option.ne_none_iff_exists'.mp hreturns
    rw [hupdated]
    exact ⟨_, rfl⟩
  · exact ⟨_, rfl⟩

theorem sameBlocks_sendStats {sent : List Retransmission}
    (h : sendStats param env xfer = some (xfer', sent)) : SameBlocks xfer xfer' := by
  rcases sendStats_cases h with ⟨rfl, -⟩ | ⟨-, -, -, ⟨stats, rfl⟩, -⟩
  · exact SameBlocks.refl xfer'
  · obtain ⟨h1, h2, h3, h4⟩ := sameBlocks_repeat env.periodicWrite xfer
    exact ⟨h1, h2, h3, h4⟩

theorem sameBlocks_requestRange {alloc : Nat → Bool} {n block : Nat}
    (h : requestRange alloc n block xfer = some xfer') : SameBlocks xfer xfer' := by
  obtain ⟨r, rfl⟩ := requestRange_frame h
  exact ⟨rfl, rfl, rfl, rfl⟩

theorem sameBlocks_queueMissing {block : Nat}
    (h : queueMissing param env xfer block = some xfer') : SameBlocks xfer xfer' := by
  unfold queueMissing at h
  split at h
  · split at h
    · exact sameBlocks_requestRange h
    · split at h
      · cases h
        exact ⟨rfl, rfl, rfl, rfl⟩
      · obtain ⟨mid, hmid, rfl⟩ := Option.map_eq_some_iff.mp h
        obtain ⟨h1, h2, h3, h4⟩ := sameBlocks_requestRange hmid
        exact ⟨h1, h2, h3, h4⟩
  · cases h
    exact SameBlocks.refl xfer

theorem sameBlocks_moveHead (block type : Nat) (xfer : Transfer) :
    SameBlocks xfer (moveHead block type xfer) := by
  unfold moveHead
  split <;> exact ⟨rfl, rfl, rfl, rfl⟩

theorem sameBlocks_clearRestart (xfer : Transfer) : SameBlocks xfer (clearRestart xfer) := by
  unfold clearRestart
  split <;> exact ⟨rfl, rfl, rfl, rfl⟩

theorem sameBlocks_closeGap (xfer : Transfer) : SameBlocks xfer (closeGap xfer) :=
  ⟨rfl, rfl, rfl, rfl⟩

theorem sameBlocks_moved (block type : Nat) (xfer : Transfer) :
    SameBlocks xfer (clearRestart (moveHead block type (closeGap xfer))) :=
  (sameBlocks_closeGap xfer).trans
    ((sameBlocks_moveHead block type (closeGap xfer)).trans (sameBlocks_clearRestart _))

theorem atTerminate_cases {c : Controlled} (h : atTerminate param env xfer = some c) :
    ((xfer.blocksLeft = 0 ∨
          (param.lossless = false ∧ xfer.rexmit.indexMax = 0 ∧ xfer.restartPending = false)) ∧
        c = ⟨true, xfer, []⟩) ∨
      (xfer.blocksLeft ≠ 0 ∧
        ¬(param.lossless = false ∧ xfer.rexmit.indexMax = 0 ∧ xfer.restartPending = false) ∧
        ∃ mid, requestRange env.alloc (xfer.blockCount - wrap32 (xfer.gaplessToBlock + 1))
            (wrap32 (xfer.gaplessToBlock + 1)) xfer = some mid ∧
          c = ⟨false, (ttpRepeatRetransmit env.terminateWrite mid).xfer,
            (ttpRepeatRetransmit env.terminateWrite mid).sent⟩) := by
  unfold atTerminate at h
  split at h
  · rename_i hend
    exact Or.inl ⟨hend, (Option.some.inj h).symm⟩
  · rename_i hgoes
    obtain ⟨hleft, hlossy⟩ := not_or.mp hgoes
    obtain ⟨mid, hmid, rfl⟩ := Option.map_eq_some_iff.mp h
    exact Or.inr ⟨hleft, hlossy, mid, hmid, rfl⟩

theorem control_cases {block type : Nat} {c : Controlled}
    (h : control param env xfer block type = some c) :
    (onWire xfer block type = true ∧ c = ⟨false, xfer, []⟩) ∨
      (onWire xfer block type = false ∧ ∃ mid, queueMissing param env xfer block = some mid ∧
        ((type = tsBlockTerminate ∧
            atTerminate param env (clearRestart (moveHead block type (closeGap mid))) = some c) ∨
          (type ≠ tsBlockTerminate ∧
            c = ⟨false, clearRestart (moveHead block type (closeGap mid)), []⟩))) := by
  unfold control at h
  split at h
  · rename_i hwire
    exact Or.inl ⟨hwire, (Option.some.inj h).symm⟩
  · rename_i hwire
    obtain ⟨mid, hmid, h⟩ := Option.bind_eq_some_iff.mp h
    refine Or.inr ⟨Bool.eq_false_iff.mpr hwire, mid, hmid, ?_⟩
    dsimp only at h
    split at h
    · rename_i htype
      exact Or.inl ⟨htype, h⟩
    · rename_i htype
      exact Or.inr ⟨htype, (Option.some.inj h).symm⟩

theorem afterRing_cases {block type : Nat} {c : Controlled}
    (h : afterRing param env xfer block type = some c) :
    ∃ mid, control param env xfer block type = some mid ∧
      ((mid.finished = true ∧ c = mid) ∨
        (mid.finished = false ∧ ∃ after sent, sendStats param env mid.xfer = some (after, sent) ∧
          c = ⟨false, after, mid.sent ++ sent⟩)) := by
  obtain ⟨mid, hmid, h⟩ := Option.bind_eq_some_iff.mp h
  refine ⟨mid, hmid, ?_⟩
  dsimp only at h
  split at h
  · rename_i hover
    exact Or.inl ⟨hover, (Option.some.inj h).symm⟩
  · rename_i hgoes
    obtain ⟨⟨after, sent⟩, hstats, rfl⟩ := Option.map_eq_some_iff.mp h
    exact Or.inr ⟨Bool.eq_false_iff.mpr hgoes, after, sent, hstats, rfl⟩

theorem sameBlocks_atTerminate {c : Controlled} (h : atTerminate param env xfer = some c) :
    SameBlocks xfer c.xfer := by
  rcases atTerminate_cases h with ⟨-, rfl⟩ | ⟨-, -, mid, hmid, rfl⟩
  · exact SameBlocks.refl xfer
  · exact (sameBlocks_requestRange hmid).trans (sameBlocks_repeat _ _)

theorem sameBlocks_control {block type : Nat} {c : Controlled}
    (h : control param env xfer block type = some c) : SameBlocks xfer c.xfer := by
  rcases control_cases h with ⟨-, rfl⟩ | ⟨-, mid, hmid, hc⟩
  · exact SameBlocks.refl xfer
  · have hmoved := (sameBlocks_queueMissing hmid).trans (sameBlocks_moved block type mid)
    rcases hc with ⟨-, hc⟩ | ⟨-, rfl⟩
    · exact hmoved.trans (sameBlocks_atTerminate hc)
    · exact hmoved

theorem sameBlocks_afterRing {block type : Nat} {c : Controlled}
    (h : afterRing param env xfer block type = some c) : SameBlocks xfer c.xfer := by
  obtain ⟨mid, hmid, ⟨-, rfl⟩ | ⟨-, after, sent, hstats, rfl⟩⟩ := afterRing_cases h
  · exact sameBlocks_control hmid
  · exact (sameBlocks_control hmid).trans (sameBlocks_sendStats hstats)

theorem sameBlocks_countArrival (type : Nat) (xfer : Transfer) :
    SameBlocks xfer (countArrival type xfer) :=
  ⟨rfl, rfl, rfl, rfl⟩

theorem arrive_cases {net net' : Net} {sent : List Retransmission}
    (h : arrive param env net = some (net', sent)) :
    net'.localDatagram = buffer param net.localDatagram env.recv ∧
      ((net'.xfer = countArrival (blockType net'.localDatagram) net.xfer ∧ sent = []) ∨
        ((ttpRepeatRetransmit env.errorWrite net.xfer).ok = true ∧
          net'.xfer = countArrival (blockType net'.localDatagram)
            (ttpRepeatRetransmit env.errorWrite net.xfer).xfer ∧
          sent = (ttpRepeatRetransmit env.errorWrite net.xfer).sent)) := by
  unfold arrive at h
  dsimp only at h
  split at h
  · rename_i hr
    cases h
    exact ⟨by rw [hr], Or.inl ⟨rfl, rfl⟩⟩
  · rename_i hr
    split at h <;> cases h
    rename_i hok
    exact ⟨by rw [hr], Or.inr ⟨hok, rfl, rfl⟩⟩

theorem arrive_spec {net net' : Net} {sent : List Retransmission}
    (h : arrive param env net = some (net', sent)) :
    SameBlocks net.xfer net'.xfer ∧
      net'.localDatagram = buffer param net.localDatagram env.recv := by
  obtain ⟨hbuf, ⟨hxfer, -⟩ | ⟨-, hxfer, -⟩⟩ := arrive_cases h
  · rw [hxfer]
    exact ⟨sameBlocks_countArrival _ _, hbuf⟩
  · rw [hxfer]
    exact ⟨(sameBlocks_repeat _ _).trans (sameBlocks_countArrival _ _), hbuf⟩

/-- What a turn can do: it skips the ring, or it puts one new block there. -/
theorem receiveTurn_cases {net : Net} {turn : Turn} (h : receiveTurn param env net = some turn) :
    let block := blockNumber (buffer param net.localDatagram env.recv)
    turn.net.localDatagram = buffer param net.localDatagram env.recv ∧
    ((turn.put = none ∧ SameBlocks net.xfer turn.net.xfer ∧
        (env.ringFull = true ∨ gotBlock net.xfer block = true)) ∨
      (turn.put = some (buffer param net.localDatagram env.recv) ∧ env.ringFull = false ∧
        gotBlock net.xfer block = false ∧
        SameBlocks (markReceived net.xfer block) turn.net.xfer)) := by
  intro block
  obtain ⟨⟨mid, sent⟩, hmid, h⟩ := Option.bind_eq_some_iff.mp h
  obtain ⟨hsame, hbuf⟩ := arrive_spec hmid
  have hblock : blockNumber mid.localDatagram = block := by rw [hbuf]
  dsimp only at h
  rw [hblock] at h
  have hgot : gotBlock mid.xfer block = gotBlock net.xfer block := hsame.gotBlock block
  split at h
  · rename_i henter
    obtain ⟨c, hc, rfl⟩ := Option.map_eq_some_iff.mp h
    have hrest := sameBlocks_afterRing hc
    refine ⟨hbuf, ?_⟩
    by_cases hnew : gotBlock mid.xfer block = false
    · right
      rw [if_pos hnew] at hrest
      rw [hgot] at hnew
      have hfull : env.ringFull = false := by
        unfold enters at henter
        cases hf : env.ringFull with
        | false => rfl
        | true => simp [hf] at henter
      refine ⟨by simp [hgot, hnew, hbuf], hfull, hnew, ?_⟩
      refine SameBlocks.trans ⟨?_, ?_, ?_, ?_⟩ hrest
      · exact hsame.fileSize
      · exact hsame.blockCount
      · simp only [markReceived, hsame.received]
      · simp only [markReceived, hsame.blocksLeft]
    · left
      rw [if_neg hnew] at hrest
      refine ⟨by simp [hnew], hsame.trans hrest, Or.inr ?_⟩
      rw [hgot] at hnew
      simpa using hnew
  · rename_i hskip
    obtain ⟨⟨y, more⟩, hy, rfl⟩ := Option.map_eq_some_iff.mp h
    refine ⟨hbuf, Or.inl ⟨rfl, hsame.trans (sameBlocks_sendStats hy), ?_⟩⟩
    unfold enters at hskip
    rw [hgot] at hskip
    cases hf : env.ringFull with
    | true => exact Or.inl rfl
    | false =>
      right
      simp only [hf, Bool.not_false, Bool.true_and, Bool.or_eq_true, not_or] at hskip
      simpa using hskip.1.1

end Frames

end TsunamiUdp.Client

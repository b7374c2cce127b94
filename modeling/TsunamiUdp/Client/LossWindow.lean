import TsunamiUdp.Client.Forgotten

/-! The hop over missing blocks in semi-lossy mode. -/
namespace TsunamiUdp.Client
open Library

/-- The state and the block with which a turn enters the branch for the loss window. -/
def windowHop (param : Parameter) (env : Env) (net : Net) : Option (Transfer × Nat) :=
  (arrive param env net).bind fun (net, _) =>
    let block := blockNumber net.localDatagram
    let type := blockType net.localDatagram
    let xfer := if gotBlock net.xfer block = false then markReceived net.xfer block else net.xfer
    if enters env.ringFull net.xfer block type ∧ onWire xfer block type = false ∧
        block > xfer.nextBlock ∧ param.lossless = false ∧ param.losswindowMs ≠ 0 then
      some (xfer, block)
    else none

/-- The hop does not go back, and nothing up to the gapless section is requested. -/
structure Forward (window : Rat) (xfer : Transfer) (block : Nat) : Prop where
  low : xfer.gaplessToBlock ≤ earliestBlock window xfer block
  high : earliestBlock window xfer block ≤ block
  fresh : ∀ b, earliestBlock window xfer block ≤ b → b < block → 1 ≤ b →
    b ≤ xfer.gaplessToBlock → gotBlock xfer b = true

structure HopsForward (param : Parameter) (s : Loop) (env : Env) : Prop where
  hop : ∀ xfer block, windowHop param env s.net = some (xfer, block) →
    Forward env.window xfer block
  gapless : ∀ s', Loop.step param s env = some s' →
    s.net.xfer.gaplessToBlock ≤ s'.net.xfer.gaplessToBlock ∧
      s'.net.xfer.gaplessToBlock ≤ s'.net.xfer.blockCount

/-- The block is not behind the end of the gapless section, and the window does not reach
that end unless the block there has been received. -/
def HopsAhead (param : Parameter) (s : Loop) (env : Env) : Prop :=
  ∀ xfer block, windowHop param env s.net = some (xfer, block) →
    xfer.gaplessToBlock ≤ block ∧ (xfer.gaplessToBlock = 0 ∨ xfer.gaplessToBlock = block ∨
      gotBlock xfer xfer.gaplessToBlock = true ∨ env.window ≤ block - xfer.gaplessToBlock - 1)

instance (param : Parameter) (s : Loop) (env : Env) : Decidable (HopsAhead param s env) :=
  decidable_of_iff (∀ hop ∈ windowHop param env s.net, hop.1.gaplessToBlock ≤ hop.2 ∧
      (hop.1.gaplessToBlock = 0 ∨ hop.1.gaplessToBlock = hop.2 ∨
        gotBlock hop.1 hop.1.gaplessToBlock = true ∨
        env.window ≤ hop.2 - hop.1.gaplessToBlock - 1))
    ⟨fun h xfer block hhop => h (xfer, block) hhop, fun h hop hhop => h hop.1 hop.2 hhop⟩

def InFile (param : Parameter) (s : Loop) (env : Env) : Prop :=
  blockNumber (buffer param s.net.localDatagram env.recv) ≤ s.net.xfer.blockCount ∧ 0 ≤ env.window

instance (param : Parameter) (s : Loop) (env : Env) : Decidable (InFile param s env) :=
  inferInstanceAs (Decidable (_ ∧ _))

section Hop
variable {window : Rat} {xfer : Transfer} {block : Nat}

theorem truncate_floor {q : Rat} (h0 : 0 ≤ q) (hq : q < 4294967296) : (truncate q : Int) = ⌊q⌋ := by
  have hnum : 0 ≤ q.num := Rat.num_nonneg.mpr h0
  have hfloor : q.num.tdiv q.den = ⌊q⌋ := by
    rw [Int.tdiv_eq_ediv_of_nonneg hnum, Rat.floor_def']
  have hlow : 0 ≤ ⌊q⌋ := Int.floor_nonneg.mpr h0
  have hhigh : ⌊q⌋ < 4294967296 := Int.floor_lt.mpr (by exact_mod_cast hq)
  rw [truncate, hfloor]
  omega

/-- A hop from a block that is not behind the gapless section stays between the two. -/
theorem earliestBlock_spec (hwindow : 0 ≤ window) (hblock : block < 4294967296)
    (hle : xfer.gaplessToBlock ≤ block) :
    xfer.gaplessToBlock ≤ earliestBlock window xfer block ∧ earliestBlock window xfer block ≤ block ∧
      (earliestBlock window xfer block = xfer.gaplessToBlock ↔
        (block : Rat) - xfer.gaplessToBlock - 1 < window) := by
  have hmissing : wrap32 (block + 4294967296 - xfer.gaplessToBlock) = block - xfer.gaplessToBlock := by
    unfold wrap32
    omega
  have hcast : ((block - xfer.gaplessToBlock : Nat) : Rat) = block - xfer.gaplessToBlock :=
    Nat.cast_sub hle
  have hbound : (block : Rat) < 4294967296 := by exact_mod_cast hblock
  have hstart : (0 : Rat) ≤ xfer.gaplessToBlock := Nat.cast_nonneg _
  have hordered : (xfer.gaplessToBlock : Rat) ≤ block := by exact_mod_cast hle
  generalize hq : (block : Rat) - (if window < block - xfer.gaplessToBlock then window
    else block - xfer.gaplessToBlock) = q
  have hearliest : earliestBlock window xfer block = truncate q := by
    rw [earliestBlock, hmissing, hcast, hq]
  have hlow : (xfer.gaplessToBlock : Rat) ≤ q := by
    rw [← hq]
    split <;> linarith
  have hhigh : q ≤ block := by
    rw [← hq]
    split <;> linarith
  have hfloor := truncate_floor (hstart.trans hlow) (hhigh.trans_lt hbound)
  have hreach : q < xfer.gaplessToBlock + 1 ↔ (block : Rat) - xfer.gaplessToBlock - 1 < window := by
    rw [← hq]
    split
    · constructor <;> intro h <;> linarith
    · constructor <;> intro h <;> linarith
  have hfloorLow : (xfer.gaplessToBlock : Int) ≤ ⌊q⌋ := Int.le_floor.mpr (by exact_mod_cast hlow)
  have hfloorHigh : ⌊q⌋ ≤ (block : Int) := by
    have hle : (⌊q⌋ : Rat) ≤ block := (Int.floor_le q).trans hhigh
    exact_mod_cast hle
  have hsame : ⌊q⌋ < (xfer.gaplessToBlock : Int) + 1 ↔ q < xfer.gaplessToBlock + 1 := by
    rw [Int.floor_lt]
    push_cast
    exact Iff.rfl
  rw [hearliest, ← hreach, ← hsame]
  omega

theorem forward_iff (hwindow : 0 ≤ window) (hblock : block < 4294967296) :
    Forward window xfer block ↔ xfer.gaplessToBlock ≤ block ∧ (xfer.gaplessToBlock = 0 ∨
      xfer.gaplessToBlock = block ∨ gotBlock xfer xfer.gaplessToBlock = true ∨
      window ≤ block - xfer.gaplessToBlock - 1) := by
  constructor
  · intro h
    have hle := h.low.trans h.high
    refine ⟨hle, ?_⟩
    by_contra hnot
    simp only [not_or, not_le] at hnot
    obtain ⟨hzero, hblock', hgot, hreach⟩ := hnot
    have hsame := (earliestBlock_spec hwindow hblock hle).2.2.mpr hreach
    exact hgot (h.fresh _ hsame.le (by omega) (by omega) le_rfl)
  · intro ⟨hle, hcases⟩
    obtain ⟨hlow, hhigh, hsame⟩ := earliestBlock_spec hwindow hblock hle
    refine ⟨hlow, hhigh, fun b hb hlt hpos hold => ?_⟩
    have hfirst : b = xfer.gaplessToBlock := by omega
    have hreach := hsame.mp (by omega)
    rcases hcases with hzero | hblock' | hgot | hshort
    · omega
    · omega
    · rw [hfirst]
      exact hgot
    · linarith

end Hop

structure Beyond (n gapless : Nat) (xfer : Transfer) : Prop where
  blockCount : xfer.blockCount = n
  low : gapless ≤ xfer.gaplessToBlock
  high : gapless ≤ n → xfer.gaplessToBlock ≤ n

section Gapless
variable {param : Parameter} {env : Env} {xfer xfer' : Transfer} {block type n g : Nat}

theorem Beyond.refl (xfer : Transfer) : Beyond xfer.blockCount xfer.gaplessToBlock xfer :=
  ⟨rfl, le_rfl, id⟩

def Unmoved (xfer xfer' : Transfer) : Prop :=
  xfer'.blockCount = xfer.blockCount ∧ xfer'.gaplessToBlock = xfer.gaplessToBlock

theorem Beyond.unmoved (h : Beyond n g xfer) (hmove : Unmoved xfer xfer') : Beyond n g xfer' := by
  refine ⟨hmove.1.trans h.blockCount, ?_, ?_⟩
  · rw [hmove.2]
    exact h.low
  · rw [hmove.2]
    exact h.high

theorem Unmoved.trans {xfer'' : Transfer} (h : Unmoved xfer xfer') (h' : Unmoved xfer' xfer'') :
    Unmoved xfer xfer'' :=
  ⟨h'.1.trans h.1, h'.2.trans h.2⟩

theorem unmoved_requestRange {alloc : Nat → Bool} {count : Nat}
    (h : requestRange alloc count block xfer = some xfer') : Unmoved xfer xfer' := by
  obtain ⟨r, rfl⟩ := requestRange_frame h
  exact ⟨rfl, rfl⟩

theorem unmoved_repeat (write : WriteResult) (xfer : Transfer) :
    Unmoved xfer (ttpRepeatRetransmit write xfer).xfer := by
  unfold ttpRepeatRetransmit
  dsimp only
  split
  · cases write <;> exact ⟨rfl, rfl⟩
  · split <;> exact ⟨rfl, rfl⟩

theorem unmoved_sendStats {sent : List Retransmission}
    (h : sendStats param env xfer = some (xfer', sent)) : Unmoved xfer xfer' := by
  rcases sendStats_cases h with ⟨rfl, -⟩ | ⟨-, -, -, ⟨stats, rfl⟩, -⟩
  · exact ⟨rfl, rfl⟩
  · exact unmoved_repeat env.periodicWrite xfer

theorem unmoved_atTerminate {c : Controlled} (h : atTerminate param env xfer = some c) :
    Unmoved xfer c.xfer := by
  rcases atTerminate_cases h with ⟨-, rfl⟩ | ⟨-, -, mid, hmid, rfl⟩
  · exact ⟨rfl, rfl⟩
  · exact (unmoved_requestRange hmid).trans (unmoved_repeat env.terminateWrite mid)

theorem unmoved_arrive {net net' : Net} {sent : List Retransmission}
    (h : arrive param env net = some (net', sent)) : Unmoved net.xfer net'.xfer := by
  obtain ⟨-, ⟨hxfer, -⟩ | ⟨-, hxfer, -⟩⟩ := arrive_cases h
  · rw [hxfer]
    exact ⟨rfl, rfl⟩
  · rw [hxfer]
    exact unmoved_repeat env.errorWrite net.xfer

theorem advanceGapless_range (xfer : Transfer) (fuel gapless : Nat) :
    gapless ≤ advanceGapless xfer fuel gapless ∧
      (gapless ≤ xfer.blockCount → advanceGapless xfer fuel gapless ≤ xfer.blockCount) := by
  induction fuel generalizing gapless with
  | zero => exact ⟨le_rfl, id⟩
  | succ fuel ih =>
    unfold advanceGapless
    split
    · rename_i hnext
      obtain ⟨hlow, hhigh⟩ := ih (gapless + 1)
      exact ⟨by omega, fun _ => hhigh hnext.2⟩
    · exact ⟨le_rfl, id⟩

theorem Beyond.closeGap (h : Beyond n g xfer) : Beyond n g (closeGap xfer) := by
  obtain ⟨hlow, hhigh⟩ := advanceGapless_range xfer (xfer.blockCount - xfer.gaplessToBlock)
    xfer.gaplessToBlock
  refine ⟨h.blockCount, h.low.trans hlow, fun hle => ?_⟩
  rw [← h.blockCount]
  refine hhigh ?_
  rw [h.blockCount]
  exact h.high hle

theorem Beyond.moveHead (h : Beyond n g xfer) (block type : Nat) :
    Beyond n g (clearRestart (moveHead block type xfer)) := by
  unfold Client.moveHead clearRestart
  split <;> split <;> exact ⟨h.blockCount, h.low, h.high⟩

def hopTo (param : Parameter) (env : Env) (xfer : Transfer) (block type : Nat) : Nat :=
  if onWire xfer block type = false ∧ block > xfer.nextBlock ∧ param.lossless = false ∧
      param.losswindowMs ≠ 0 then earliestBlock env.window xfer block
  else xfer.gaplessToBlock

theorem beyond_control {c : Controlled} (hlossy : param.lossless = false)
    (hms : param.losswindowMs ≠ 0) (h : control param env xfer block type = some c) :
    Beyond xfer.blockCount (hopTo param env xfer block type) c.xfer := by
  rcases control_cases h with ⟨hwire, rfl⟩ | ⟨hwire, mid, hmid, hc⟩
  · unfold hopTo
    rw [if_neg (by simp [hwire])]
    exact Beyond.refl xfer
  · have hmoved : Beyond xfer.blockCount (hopTo param env xfer block type)
        (clearRestart (moveHead block type (closeGap mid))) := by
      refine (Beyond.closeGap ?_).moveHead block type
      unfold queueMissing at hmid
      unfold hopTo
      by_cases hahead : block > xfer.nextBlock
      · rw [if_pos ⟨hwire, hahead, hlossy, hms⟩]
        rw [if_pos hahead, if_neg (by simp [hlossy]), if_neg hms] at hmid
        obtain ⟨y, hy, rfl⟩ := Option.map_eq_some_iff.mp hmid
        exact ⟨(unmoved_requestRange hy).1, le_rfl, id⟩
      · rw [if_neg (by simp [hahead])]
        rw [if_neg hahead] at hmid
        cases hmid
        exact Beyond.refl xfer
    rcases hc with ⟨-, hend⟩ | ⟨-, rfl⟩
    · exact hmoved.unmoved (unmoved_atTerminate hend)
    · exact hmoved

theorem beyond_afterRing {c : Controlled} (hlossy : param.lossless = false)
    (hms : param.losswindowMs ≠ 0) (h : afterRing param env xfer block type = some c) :
    Beyond xfer.blockCount (hopTo param env xfer block type) c.xfer := by
  obtain ⟨mid, hmid, ⟨-, rfl⟩ | ⟨-, after, sent, hstats, rfl⟩⟩ := afterRing_cases h
  · exact beyond_control hlossy hms hmid
  · exact (beyond_control hlossy hms hmid).unmoved (unmoved_sendStats hstats)

theorem beyond_step {s s' : Loop} (hlossy : param.lossless = false)
    (hms : param.losswindowMs ≠ 0) (hs : Loop.step param s env = some s') :
    Beyond s.net.xfer.blockCount
      (match windowHop param env s.net with
        | some (xfer, block) => earliestBlock env.window xfer block
        | none => s.net.xfer.gaplessToBlock) s'.net.xfer := by
  unfold Loop.step at hs
  split at hs
  · cases hs
  · obtain ⟨turn, ht, rfl⟩ := Option.map_eq_some_iff.mp hs
    obtain ⟨⟨mid, sent⟩, hmid, ht⟩ := Option.bind_eq_some_iff.mp ht
    have hsame := unmoved_arrive hmid
    dsimp only at ht ⊢
    rw [windowHop, hmid, Option.bind_some]
    dsimp only
    split at ht
    · rename_i henter
      obtain ⟨c, hc, rfl⟩ := Option.map_eq_some_iff.mp ht
      have hmarked : Unmoved mid.xfer
          (if gotBlock mid.xfer (blockNumber mid.localDatagram) = false then
            markReceived mid.xfer (blockNumber mid.localDatagram) else mid.xfer) := by
        split <;> exact ⟨rfl, rfl⟩
      have hmoved := hsame.trans hmarked
      have hbeyond := beyond_afterRing hlossy hms hc
      revert hmoved hbeyond
      generalize (if gotBlock mid.xfer (blockNumber mid.localDatagram) = false then
        markReceived mid.xfer (blockNumber mid.localDatagram) else mid.xfer) = marked
      intro hmoved hbeyond
      rw [hmoved.1, hopTo] at hbeyond
      split at hbeyond
      · rename_i hhop
        rw [if_pos ⟨henter, hhop⟩]
        exact hbeyond
      · rename_i hhop
        rw [if_neg fun h => hhop h.2]
        rw [hmoved.2] at hbeyond
        exact hbeyond
    · rename_i hskip
      obtain ⟨⟨y, more⟩, hy, rfl⟩ := Option.map_eq_some_iff.mp ht
      rw [if_neg fun h => hskip h.1]
      exact (Beyond.refl s.net.xfer).unmoved (hsame.trans (unmoved_sendStats hy))

theorem windowHop_spec {net : Net} (h : windowHop param env net = some (xfer, block)) :
    Unmoved net.xfer xfer ∧ block = blockNumber (buffer param net.localDatagram env.recv) := by
  obtain ⟨⟨mid, sent⟩, hmid, h⟩ := Option.bind_eq_some_iff.mp h
  have hsame := unmoved_arrive hmid
  have hbuffer := (arrive_spec hmid).2
  obtain ⟨-, h⟩ := Option.ite_none_right_eq_some.mp h
  cases h
  refine ⟨hsame.trans ?_, by rw [hbuffer]⟩
  split <;> exact ⟨rfl, rfl⟩

theorem hopsForward_iff {s s' : Loop} (hlossy : param.lossless = false)
    (hms : param.losswindowMs ≠ 0) (hn : s.net.xfer.blockCount < 4294967296)
    (hgapless : s.net.xfer.gaplessToBlock ≤ s.net.xfer.blockCount) (hin : InFile param s env)
    (hs : Loop.step param s env = some s') : HopsForward param s env ↔ HopsAhead param s env := by
  have hforward : ∀ xfer block, windowHop param env s.net = some (xfer, block) →
      (Forward env.window xfer block ↔ xfer.gaplessToBlock ≤ block ∧ (xfer.gaplessToBlock = 0 ∨
        xfer.gaplessToBlock = block ∨ gotBlock xfer xfer.gaplessToBlock = true ∨
        env.window ≤ block - xfer.gaplessToBlock - 1)) := by
    intro xfer block hhop
    have hblock := hin.1
    rw [← (windowHop_spec hhop).2] at hblock
    exact forward_iff hin.2 (hblock.trans_lt hn)
  constructor
  · intro h xfer block hhop
    exact (hforward xfer block hhop).mp (h.hop xfer block hhop)
  · intro h
    have hall : ∀ xfer block, windowHop param env s.net = some (xfer, block) →
        Forward env.window xfer block := fun xfer block hhop =>
      (hforward xfer block hhop).mpr (h xfer block hhop)
    refine ⟨hall, fun t ht => ?_⟩
    cases hs.symm.trans ht
    have hbeyond := beyond_step hlossy hms hs
    rw [hbeyond.blockCount]
    cases hhop : windowHop param env s.net with
    | none =>
      rw [hhop] at hbeyond
      exact ⟨hbeyond.low, hbeyond.high hgapless⟩
    | some p =>
      rw [hhop] at hbeyond
      have hgo := hall p.1 p.2 hhop
      obtain ⟨hsame, hblock⟩ := windowHop_spec hhop
      have hlow := hgo.low
      rw [hsame.2] at hlow
      have hblock : p.2 ≤ s.net.xfer.blockCount := by
        rw [hblock]
        exact hin.1
      exact ⟨hlow.trans hbeyond.low, hbeyond.high (hgo.high.trans hblock)⟩

end Gapless

/-- Along every run in semi-lossy mode all hops go forward if and only if each of them is
made from a block ahead of the gapless section, and does not reach back to its end while
the block there is missing. -/
theorem hops_forward_iff {param : Parameter} (hlossy : param.lossless = false)
    (hms : param.losswindowMs ≠ 0) {fileSize blockCount onWireEstimate : Nat}
    (hn : blockCount < 4294967296) {envs : List Env} {s : Loop}
    (hrun : run (Loop.step param)
      (Loop.start param (Transfer.start fileSize blockCount onWireEstimate)) envs = some s)
    (hin : Along (Loop.step param) (InFile param)
      (Loop.start param (Transfer.start fileSize blockCount onWireEstimate)) envs) :
    Along (Loop.step param) (HopsForward param)
        (Loop.start param (Transfer.start fileSize blockCount onWireEstimate)) envs ↔
      Along (Loop.step param) (HopsAhead param)
        (Loop.start param (Transfer.start fileSize blockCount onWireEstimate)) envs := by
  refine along_iff (J := fun s => s.net.xfer.blockCount < 4294967296 ∧
    s.net.xfer.gaplessToBlock ≤ s.net.xfer.blockCount) ?_ ?_ ⟨hn, Nat.zero_le _⟩ hin hrun
  · intro s env s' hJ hinFile hs
    exact hopsForward_iff hlossy hms hJ.1 hJ.2 hinFile hs
  · intro s env s' hJ hinFile hgood hs
    rw [(beyond_step hlossy hms hs).blockCount]
    have hhigh := (hgood.gapless s' hs).2
    rw [(beyond_step hlossy hms hs).blockCount] at hhigh
    exact ⟨hJ.1, hhigh⟩

def oneByte (block : UInt8) (type : UInt8) : Recv := .datagram [0, 0, 0, block, 0, type, 7]

def semiLossy : Parameter := ⟨1, false, 100, 25⟩

def aheadEnvs : List Env :=
  [{ Env.calm (oneByte 5 79) with window := 1 }, { Env.calm (oneByte 8 79) with window := 2 }]

theorem hops_forward_iff_sample :
    Along (Loop.step semiLossy) (HopsForward semiLossy)
      (Loop.start semiLossy (Transfer.start 10 10 0)) aheadEnvs := by
  have hsome : (run (Loop.step semiLossy) (Loop.start semiLossy (Transfer.start 10 10 0))
    aheadEnvs).isSome = true := by decide +kernel
  have hiff := hops_forward_iff rfl (by decide) (by decide) (Option.some_get hsome).symm
    (by decide +kernel)
  exact hiff.mpr (by decide +kernel)

/-- Block 1 comes late, and after it block 3: the gapless section goes back from 5 to 3. -/
theorem hop_goes_back :
    (run (Loop.step semiLossy) (Loop.start semiLossy (Transfer.start 10 10 0))
      [{ Env.calm (oneByte 5 79) with window := 1 }, .calm (oneByte 1 79)]).map
        (fun s => (s.net.xfer.gaplessToBlock, s.net.xfer.nextBlock)) = some (5, 2) ∧
    (run (Loop.step semiLossy) (Loop.start semiLossy (Transfer.start 10 10 0))
      [{ Env.calm (oneByte 5 79) with window := 1 }, .calm (oneByte 1 79), .calm (oneByte 3 79)]).map
        (fun s => s.net.xfer.gaplessToBlock) = some 3 := by
  decide +kernel

end TsunamiUdp.Client

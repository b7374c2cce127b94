import Mathlib.Data.List.Chain
import TsunamiUdp.Mk5Server.Handler
import TsunamiUdp.Server.Datagram

/-! What the Mark5 server makes of a broken message, and which part of the disk its datagrams hold. -/
namespace TsunamiUdp.Mk5Server
open Library
open TsunamiUdp.Server (Parameter Read SendResult Flow wrap32_pred)

/-- The numbers of the messages that one read brings as a whole, behind so many bytes. -/
def wholeAt : Nat → List (List UInt8) → List Nat
  | _, [] => []
  | before, bytes :: reads =>
    (if before % sizeofRetransmission = 0 ∧ bytes.length = sizeofRetransmission then
      [before / sizeofRetransmission]
    else []) ++ wholeAt (before + bytes.length) reads

def ReadBehind (param : Parameter) (before built : Built) : Prop :=
  built.address =
    if built.block = wrap32 (before.block + 1) then before.address
    else param.blockSize * wrap32 (built.block + 4294967295)

def origin (lastBlock : Nat) : Built := ⟨lastBlock, 0, 0, true, []⟩

def onDisk (disk : Nat → UInt8) (address count : Nat) : List UInt8 :=
  (List.range count).map fun i => disk (address + i)

/-- The library reads as much as it is asked for from the address in the descriptor, and leaves the
descriptor, an `IN` parameter, as it is. -/
structure ReadsDisk (disk : Nat → UInt8) (xlrRead : XlrRead) : Prop where
  fits : ∀ rdesc count, (xlrRead rdesc count).buffer.length = count
  leaves : ∀ rdesc count, (xlrRead rdesc count).rdesc = rdesc
  reads : ∀ rdesc count, (xlrRead rdesc count).success = true →
    (xlrRead rdesc count).buffer = onDisk disk rdesc.address count

def Labelled (param : Parameter) (disk : Nat → UInt8) (built : Built) : Prop :=
  built.read = true →
    built.datagram = datagramHeader built.block built.type ++ onDisk disk built.address param.blockSize

def Legal (param : Parameter) (r : Retransmission) : Prop :=
  r.requestType = requestRetransmit → 1 ≤ r.block ∧ r.block ≤ param.blockCount

instance (param : Parameter) (r : Retransmission) : Decidable (Legal param r) :=
  inferInstanceAs (Decidable (_ → _))

section Passes
variable {param : Parameter} {input : Input} {h : Handler} {turn : Turn}

@[simp] theorem address_mk5Fseek (offset : Nat) : (mk5Fseek offset).address = offset := by
  have hlow : offset &&& 4294967295 = offset % 4294967296 := Nat.and_two_pow_sub_one_eq_mod offset 32
  have hhigh : offset >>> 32 = offset / 4294967296 := Nat.shiftRight_eq_div_pow offset 32
  have hlt : offset % 4294967296 < 2 ^ 32 := Nat.mod_lt _ (by decide)
  unfold mk5Fseek ReadDesc.address
  dsimp only
  rw [hlow, hhigh, ← Nat.shiftLeft_add_eq_or_of_lt hlt, Nat.shiftLeft_eq]
  exact Nat.div_add_mod' offset 4294967296

@[simp] theorem address_mk5Fopen64 : mk5Fopen64.address = 0 := by
  simp [mk5Fopen64, ReadDesc.address]

theorem Builder.seek_address (param : Parameter) (block : Nat) (builder : Builder) :
    (builder.seek param block).address =
      if block = wrap32 (builder.lastBlock + 1) then builder.rdesc.address
      else param.blockSize * wrap32 (block + 4294967295) := by
  unfold Builder.seek
  by_cases hnext : block = wrap32 (builder.lastBlock + 1)
  · rw [if_neg (not_not.mpr hnext), if_pos hnext]
  · rw [if_pos hnext, if_neg hnext, address_mk5Fseek]

structure Builds (param : Parameter) (xlrRead : XlrRead) (h h' : Handler) (built : Built) : Prop where
  lastBlock : h'.builder.lastBlock = built.block
  place : built.address = (h.builder.seek param built.block).address
  descriptor : h'.builder.rdesc =
    (xlrRead (h.builder.seek param built.block) param.blockSize).rdesc
  read : built.read = (xlrRead (h.builder.seek param built.block) param.blockSize).success
  datagram : (xlrRead (h.builder.seek param built.block) param.blockSize).buffer.length =
      param.blockSize → built.datagram = datagramHeader built.block built.type ++
    (xlrRead (h.builder.seek param built.block) param.blockSize).buffer

theorem build_builds (param : Parameter) (xlrRead : XlrRead) (block type : Nat) (h : Handler) :
    Builds param xlrRead h (build param xlrRead block type h).1
      (build param xlrRead block type h).2 := by
  refine ⟨rfl, rfl, rfl, rfl, fun hfits => ?_⟩
  have hlen : (xlrRead (h.builder.seek param block) param.blockSize).buffer.length =
      param.blockSize := hfits
  apply List.take_left'
  rw [List.length_append, hlen, datagramHeader_length]

section Library
variable {disk : Nat → UInt8} {xlrRead : XlrRead} {h' : Handler} {built : Built}

theorem Builds.labelled (hbuilds : Builds param xlrRead h h' built) (hdisk : ReadsDisk disk xlrRead) :
    Labelled param disk built := by
  intro hread
  rw [hbuilds.datagram (hdisk.fits _ _), hbuilds.place]
  rw [hbuilds.read] at hread
  rw [hdisk.reads _ _ hread]

theorem Builds.address (hbuilds : Builds param xlrRead h h' built) (hdisk : ReadsDisk disk xlrRead) :
    h'.builder.rdesc.address = built.address := by
  rw [hbuilds.descriptor, hdisk.leaves, hbuilds.place]

end Library

structure Effect (param : Parameter) (input : Input) (h : Handler) (turn : Turn) : Prop where
  acted : turn.acted = if h.sofar = 0 ∧ input.read.bytes.length = sizeofRetransmission then
    some (.decode input.read.bytes) else none
  sofar : turn.flow = .next →
    turn.handler.sofar = (h.sofar + input.read.bytes.length) % sizeofRetransmission
  built : ∀ built ∈ turn.built, Builds param input.xlrRead h turn.handler built ∧
    ((∀ r ∈ turn.acted, Legal param r) → 1 ≤ param.blockCount → param.blockCount < 4294967295 →
      h.block ≤ param.blockCount → 1 ≤ built.block ∧ built.block ≤ param.blockCount)
  kept : turn.built = none → turn.handler.builder = h.builder
  block : h.block ≤ param.blockCount → turn.handler.block ≤ param.blockCount

theorem decode_readInto {bytes : List UInt8} (hlen : bytes.length = sizeofRetransmission) (h : Handler) :
    Retransmission.decode (readInto bytes h).retransmission = .decode bytes := by
  have hlast : (bytes.drop 8).take 4 = bytes.drop 8 :=
    List.take_of_length_le (by rw [List.length_drop, hlen]; decide)
  unfold readInto Retransmission.decode
  simp [List.take_append, List.drop_append, hlen, hlast, sizeofRetransmission]

theorem effect_idle (hacted : turn.acted =
      if h.sofar = 0 ∧ input.read.bytes.length = sizeofRetransmission then some (.decode input.read.bytes)
      else none)
    (hbuilt : turn.built = none)
    (hsofar : turn.flow = .next →
      turn.handler.sofar = (h.sofar + input.read.bytes.length) % sizeofRetransmission)
    (hbuilder : turn.handler.builder = h.builder)
    (hblock : h.block ≤ param.blockCount → turn.handler.block ≤ param.blockCount) :
    Effect param input h turn where
  acted := hacted
  sofar := hsofar
  built := fun built hmem => by rw [hbuilt] at hmem; cases hmem
  kept := fun _ => hbuilder
  block := hblock

theorem effect_build {h' : Handler} {block type : Nat} (hacted : turn.acted =
      if h.sofar = 0 ∧ input.read.bytes.length = sizeofRetransmission then some (.decode input.read.bytes)
      else none)
    (hsofar : turn.handler.sofar = (h.sofar + input.read.bytes.length) % sizeofRetransmission)
    (hbuilt : turn.built = some (build param input.xlrRead block type h').2)
    (hbuilder : turn.handler.builder = (build param input.xlrRead block type h').1.builder)
    (hbehind : h'.builder = h.builder)
    (hrange : (∀ r ∈ turn.acted, Legal param r) → 1 ≤ param.blockCount → param.blockCount < 4294967295 →
      h.block ≤ param.blockCount → 1 ≤ block ∧ block ≤ param.blockCount)
    (hblock : h.block ≤ param.blockCount → turn.handler.block ≤ param.blockCount) :
    Effect param input h turn := by
  have hbuilds := build_builds param input.xlrRead block type h'
  refine ⟨hacted, fun _ => hsofar, fun built hmem => ?_, fun hnone => ?_, hblock⟩
  · rw [hbuilt, Option.mem_some_iff] at hmem
    subst hmem
    refine ⟨⟨?_, ?_, ?_, ?_, ?_⟩, hrange⟩
    · rw [hbuilder]
      exact hbuilds.lastBlock
    · rw [← hbehind]
      exact hbuilds.place
    · rw [hbuilder, ← hbehind]
      exact hbuilds.descriptor
    · rw [← hbehind]
      exact hbuilds.read
    · rw [← hbehind]
      exact hbuilds.datagram
  · exact absurd (hbuilt.symm.trans hnone) nofun

theorem effect_clearOut (hsofar : h.sofar ≠ 0) (hroom : h.sofar < sizeofRetransmission)
    (hread : Readable input.read h) : Effect param input h (clearOut input.read h) := by
  have hpart : ¬(h.sofar = 0 ∧ input.read.bytes.length = sizeofRetransmission) := fun hboth => hsofar hboth.1
  have hsame : h.sofar = h.sofar % sizeofRetransmission := (Nat.mod_eq_of_lt hroom).symm
  unfold clearOut
  cases hr : input.read with
  | data bytes =>
    rw [hr] at hread hpart
    have hle : h.sofar + bytes.length ≤ sizeofRetransmission := hread.2
    refine effect_idle (by rw [hr, if_neg hpart]) rfl (fun _ => ?_) rfl id
    rw [hr]
    dsimp only [Read.bytes]
    split
    · exact (Nat.mod_eq_of_lt ‹_›).symm
    · rw [show h.sofar + bytes.length = sizeofRetransmission by omega, Nat.mod_self]
  | nothing => exact effect_idle (if_neg hpart).symm rfl (fun _ => by rw [hr]; exact hsame) rfl id
  | closed => exact effect_idle (if_neg hpart).symm rfl (fun _ => by rw [hr]; exact hsame) rfl id
  | failed => exact effect_idle (if_neg hpart).symm rfl nofun rfl id

theorem effect_transmit {h' : Handler} (hbytes : input.read.bytes = []) (hsofar : h.sofar = 0)
    (hsofar' : h'.sofar = 0) (hbuilder : h'.builder = h.builder) (hblock : h'.block = h.block) :
    Effect param input h (transmitBlock param input h') := by
  have hpart : ¬(h.sofar = 0 ∧ input.read.bytes.length = sizeofRetransmission) := by
    rw [hbytes]
    exact fun hboth => absurd hboth.2 (by decide)
  have hsum : h'.sofar = (h.sofar + input.read.bytes.length) % sizeofRetransmission := by
    rw [hsofar, hsofar', hbytes]
    rfl
  have hlast : min (wrap32 (h'.block + 1)) param.blockCount ≤ param.blockCount := Nat.min_le_right _ _
  have hrange (h1 : 1 ≤ param.blockCount) (hcount : param.blockCount < 4294967295)
      (hle : h.block ≤ param.blockCount) : 1 ≤ min (wrap32 (h'.block + 1)) param.blockCount ∧
        min (wrap32 (h'.block + 1)) param.blockCount ≤ param.blockCount := by
    rw [hblock, wrap32_of_lt (by omega)]
    omega
  unfold transmitBlock
  dsimp only
  split <;>
    exact effect_build (if_neg hpart).symm hsum rfl rfl hbuilder (fun _ => hrange) (fun _ => hlast)

theorem effect_request {bytes : List UInt8} (hread : input.read = .data bytes)
    (hlen : bytes.length = sizeofRetransmission) (hsofar : h.sofar = 0) :
    Effect param input h (handleRequest param input (readInto bytes h)) := by
  have hwhole : h.sofar = 0 ∧ input.read.bytes.length = sizeofRetransmission := by
    rw [hread]
    exact ⟨hsofar, hlen⟩
  have hacted : some (Retransmission.decode bytes) =
      if h.sofar = 0 ∧ input.read.bytes.length = sizeofRetransmission then
        some (.decode input.read.bytes) else none := by
    rw [if_pos hwhole, hread]
    rfl
  have hsum : h.sofar = (h.sofar + input.read.bytes.length) % sizeofRetransmission := by
    rw [hwhole.2, hsofar]
    rfl
  have hdecode := decode_readInto hlen h
  unfold handleRequest ttpAcceptRetransmit
  rw [hdecode]
  dsimp only
  by_cases hstop : (Retransmission.decode bytes).requestType = requestStop
  · rw [if_pos hstop]
    exact effect_idle hacted rfl nofun rfl id
  rw [if_neg hstop]
  by_cases hrate : (Retransmission.decode bytes).requestType = requestErrorRate
  · rw [if_pos hrate]
    exact effect_idle hacted rfl (fun _ => hsum) rfl id
  rw [if_neg hrate]
  by_cases hrestart : (Retransmission.decode bytes).requestType = requestRestart
  · rw [if_pos hrestart]
    split
    · exact effect_idle hacted rfl (fun _ => hsum) rfl id
    · rename_i hlegal
      exact effect_idle hacted rfl (fun _ => hsum) rfl fun _ => Nat.le_of_not_lt fun hgt => hlegal (Or.inr hgt)
  rw [if_neg hrestart]
  by_cases hretransmit : (Retransmission.decode bytes).requestType = requestRetransmit
  · rw [if_pos hretransmit]
    refine effect_build hacted hsum rfl rfl rfl (fun hlegal _ _ _ => ?_) id
    exact hlegal _ rfl hretransmit
  · rw [if_neg hretransmit]
    exact effect_idle hacted rfl (fun _ => hsum) rfl id

theorem effect_turn (param : Parameter) (hroom : h.sofar < sizeofRetransmission)
    (hread : Readable input.read h) : Effect param input h (handlerTurn param input h) := by
  unfold handlerTurn
  by_cases hsofar : h.sofar = 0
  · rw [if_neg (not_not.mpr hsofar)]
    have hnone : ¬(h.sofar = 0 ∧ ([] : List UInt8).length = sizeofRetransmission) :=
      fun hboth => absurd hboth.2 (by decide)
    cases hr : input.read with
    | data bytes =>
      dsimp only
      split
      · exact effect_request hr ‹_› hsofar
      · rename_i hlen
        rw [hr] at hread
        have hle : h.sofar + bytes.length ≤ sizeofRetransmission := hread.2
        refine effect_idle ?_ rfl (fun _ => ?_) rfl id
        · rw [hr]
          exact (if_neg fun hboth => hlen hboth.2).symm
        · rw [hr]
          dsimp only [Read.bytes]
          rw [Nat.mod_eq_of_lt (by omega), hsofar, Nat.zero_add]
    | nothing => exact effect_transmit (by rw [hr]; rfl) hsofar hsofar rfl rfl
    | closed =>
      dsimp only
      split
      · exact effect_transmit (by rw [hr]; rfl) hsofar hsofar rfl rfl
      · exact effect_idle (by rw [hr]; exact (if_neg hnone).symm) rfl nofun rfl id
    | failed => exact effect_idle (by rw [hr]; exact (if_neg hnone).symm) rfl nofun rfl id
  · rw [if_pos hsofar]
    exact effect_clearOut hsofar hroom hread

end Passes

@[simp] theorem wholeAt_append (before : Nat) (reads more : List (List UInt8)) :
    wholeAt before (reads ++ more) = wholeAt before reads ++ wholeAt (before + reads.flatten.length) more := by
  induction reads generalizing before with
  | nil => simp [wholeAt]
  | cons bytes reads ih =>
    rw [List.cons_append, wholeAt, wholeAt, ih, List.append_assoc, List.flatten_cons, List.length_append,
      Nat.add_assoc]

/-- Every message that came as a whole was acted on, and no other one. -/
structure Framed (messages : List (List UInt8)) (s : Loop) : Prop where
  acted : s.acted = (wholeAt 0 s.reads).filterMap fun k => messages[k]?.map Retransmission.decode
  sofar : s.flow = .next → s.handler.sofar = s.reads.flatten.length % sizeofRetransmission

/-- Every datagram was read where the one before it left the descriptor. -/
structure Following (param : Parameter) (disk : Nat → UInt8) (lastBlock : Nat) (s : Loop) : Prop where
  chain : List.IsChain (ReadBehind param) (origin lastBlock :: s.built)
  last : ∀ built ∈ (origin lastBlock :: s.built).getLast?,
    s.handler.builder.lastBlock = built.block ∧ s.handler.builder.rdesc.address = built.address
  labelled : ∀ built ∈ s.built, Labelled param disk built
  inFile : (∀ r ∈ s.acted, Legal param r) → ∀ built ∈ s.built,
    1 ≤ built.block ∧ built.block ≤ param.blockCount
  block : s.handler.block ≤ param.blockCount

section Runs
variable {param : Parameter} {disk : Nat → UInt8} {lastBlock : Nat} {messages : List (List UInt8)}
  {input : Input} {s s' : Loop}

theorem step_some (hs : s.step param input = some s') :
    s.flow = .next ∧ Readable input.read s.handler ∧
      s' = ⟨(handlerTurn param input s.handler).handler,
        (handlerTurn param input s.handler).flow, s.reads ++ piece input.read,
        s.acted ++ (handlerTurn param input s.handler).acted.toList,
        s.built ++ (handlerTurn param input s.handler).built.toList⟩ := by
  obtain ⟨⟨hflow, hread⟩, heq⟩ := Option.ite_none_right_eq_some.mp hs
  exact ⟨hflow, hread, (Option.some.inj heq).symm⟩

@[simp] theorem flatten_piece (read : Read) : (piece read).flatten = read.bytes := by
  cases read <;> simp [piece, Read.bytes]

theorem wholeAt_piece (before : Nat) (read : Read) :
    wholeAt before (piece read) =
      if before % sizeofRetransmission = 0 ∧ read.bytes.length = sizeofRetransmission then
        [before / sizeofRetransmission]
      else [] := by
  cases read with
  | data bytes =>
    rw [piece, wholeAt, wholeAt, List.append_nil]
    rfl
  | nothing => exact (if_neg fun hboth => absurd hboth.2 (by decide)).symm
  | closed => exact (if_neg fun hboth => absurd hboth.2 (by decide)).symm
  | failed => exact (if_neg fun hboth => absurd hboth.2 (by decide)).symm

theorem Framed.step (h : Framed messages s) (hwidth : ∀ m ∈ messages, m.length = sizeofRetransmission)
    (hs : s.step param input = some s') (hstream : s'.reads.flatten <+: messages.flatten) :
    Framed messages s' := by
  obtain ⟨hflow, hread, rfl⟩ := step_some hs
  have hsofar := h.sofar hflow
  have hroom : s.handler.sofar < sizeofRetransmission := hsofar ▸ Nat.mod_lt _ (by decide)
  have heffect := effect_turn param hroom hread
  refine ⟨?_, fun hnext => ?_⟩
  · dsimp only
    rw [wholeAt_append, List.filterMap_append, ← h.acted, Nat.zero_add, wholeAt_piece, heffect.acted, hsofar]
    congr 1
    split
    · rename_i hwhole
      dsimp only at hstream
      rw [List.flatten_append, flatten_piece] at hstream
      have hmessage := record_at (by decide) hwidth (Nat.dvd_of_mod_eq_zero hwhole.1) hwhole.2 hstream
      simp only [List.filterMap_cons, List.filterMap_nil, hmessage, Option.toList_some, Option.map_some]
    · rfl
  · dsimp only
    rw [heffect.sofar hnext, hsofar, List.flatten_append, flatten_piece, List.length_append,
      Nat.mod_add_mod]

theorem Following.step (h : Following param disk lastBlock s) (hsofar : s.flow = .next →
      s.handler.sofar < sizeofRetransmission) (hdisk : ReadsDisk disk input.xlrRead) (hsome : 1 ≤ param.blockCount)
    (hcount : param.blockCount < 4294967295) (hs : s.step param input = some s') :
    Following param disk lastBlock s' := by
  obtain ⟨hflow, hread, rfl⟩ := step_some hs
  have heffect := effect_turn param (hsofar hflow) hread
  cases hbuilt : (handlerTurn param input s.handler).built with
  | none =>
    rw [Option.toList_none, List.append_nil]
    refine ⟨h.chain, ?_, h.labelled, fun hlegal => ?_, heffect.block h.block⟩
    · dsimp only
      rw [heffect.kept hbuilt]
      exact h.last
    · exact h.inFile fun r hr => hlegal r (List.mem_append_left _ hr)
  | some built =>
    obtain ⟨hbuilds, hrange⟩ := heffect.built built hbuilt
    rw [Option.toList_some]
    refine ⟨?_, ?_, ?_, fun hlegal => ?_, heffect.block h.block⟩
    · dsimp only
      rw [← List.cons_append, List.isChain_append]
      refine ⟨h.chain, List.isChain_singleton _, fun before hbefore next hnext => ?_⟩
      obtain rfl := Option.mem_some_iff.mp hnext
      obtain ⟨hblock, haddress⟩ := h.last before hbefore
      rw [ReadBehind, ← hblock, ← haddress, hbuilds.place]
      exact Builder.seek_address param built.block s.handler.builder
    · intro last hlast
      dsimp only at hlast
      rw [← List.cons_append, List.getLast?_append, List.getLast?_singleton, Option.some_or,
        Option.mem_some_iff] at hlast
      rw [← hlast]
      exact ⟨hbuilds.lastBlock, hbuilds.address hdisk⟩
    · intro b hb
      rcases List.mem_append.mp hb with hb | hb
      · exact h.labelled b hb
      · rw [List.mem_singleton.mp hb]
        exact hbuilds.labelled hdisk
    · intro b hb
      dsimp only at hlegal
      rcases List.mem_append.mp hb with hb | hb
      · exact h.inFile (fun r hr => hlegal r (List.mem_append_left _ hr)) b hb
      · rw [List.mem_singleton.mp hb]
        refine hrange (fun r hr => hlegal r ?_) hsome hcount h.block
        exact List.mem_append_right _ (Option.mem_toList.mpr hr)

theorem place_next {b b' : Built} (h : ReadBehind param b b') (hb : 1 ≤ b.block) (hb' : 1 ≤ b'.block)
    (hcount : param.blockCount < 4294967295) (hle : b.block ≤ param.blockCount)
    (hle' : b'.block ≤ param.blockCount) :
    b'.address = if b'.block = b.block + 1 then b.address else param.blockSize * (b'.block - 1) := by
  rw [h, wrap32_of_lt (by omega), wrap32_pred hb' (by omega)]

theorem place_first {b : Built} (h : ReadBehind param (origin lastBlock) b) (hb : 1 ≤ b.block)
    (hnarrow : b.block < 4294967296) :
    b.address = if b.block = wrap32 (lastBlock + 1) then 0 else param.blockSize * (b.block - 1) := by
  rw [h, wrap32_pred hb hnarrow]
  rfl

theorem Following.first (h : Following param disk lastBlock s) {b : Built} (hb : s.built[0]? = some b) :
    ReadBehind param (origin lastBlock) b := by
  obtain ⟨hlt, rfl⟩ := List.getElem?_eq_some_iff.mp hb
  exact List.isChain_iff_getElem.mp h.chain 0 (by rw [List.length_cons]; omega)

theorem Following.next (h : Following param disk lastBlock s) {j : Nat} {b b' : Built}
    (hb : s.built[j]? = some b) (hb' : s.built[j + 1]? = some b') : ReadBehind param b b' := by
  obtain ⟨hlt, rfl⟩ := List.getElem?_eq_some_iff.mp hb
  obtain ⟨hlt', rfl⟩ := List.getElem?_eq_some_iff.mp hb'
  exact List.isChain_iff_getElem.mp h.chain (j + 1) (by rw [List.length_cons]; omega)

theorem Following.address_le (h : Following param disk lastBlock s) (hcount : param.blockCount < 4294967295)
    (hin : ∀ b ∈ s.built, 1 ≤ b.block ∧ b.block ≤ param.blockCount) {i : Nat} {b : Built}
    (hb : s.built[i]? = some b) : b.address ≤ param.blockSize * (b.block - 1) := by
  obtain ⟨h1, hle⟩ := hin b (List.mem_of_getElem? hb)
  induction i generalizing b with
  | zero =>
    rw [place_first (h.first hb) h1 (by omega)]
    split
    · exact Nat.zero_le _
    · exact Nat.le_refl _
  | succ i ih =>
    obtain ⟨hlt, -⟩ := List.getElem?_eq_some_iff.mp hb
    have ha := List.getElem?_eq_getElem (show i < s.built.length by omega)
    obtain ⟨h1', hle'⟩ := hin _ (List.mem_of_getElem? ha)
    have hbehind := ih ha h1' hle'
    rw [place_next (h.next ha hb) h1' h1 hcount hle' hle]
    split
    · rename_i hnext
      exact hbehind.trans (Nat.mul_le_mul_left _ (by omega))
    · exact Nat.le_refl _

theorem following_start (param : Parameter) (disk : Nat → UInt8) (ipd : Rat) (builder : Builder)
    (retransmission : List UInt8) (again : Bool) :
    Following param disk builder.lastBlock (.start ipd builder retransmission again) where
  chain := List.isChain_singleton _
  last := fun built hbuilt => by
    have horigin : some (origin builder.lastBlock) = some built := hbuilt
    cases horigin
    exact ⟨rfl, address_mk5Fopen64⟩
  labelled := nofun
  inFile := fun _ => nofun
  block := Nat.zero_le _

theorem sofar_lt (hs : s.step param input = some s')
    (h : s.flow = .next → s.handler.sofar < sizeofRetransmission) (hnext : s'.flow = .next) :
    s'.handler.sofar < sizeofRetransmission := by
  obtain ⟨hflow, hread, rfl⟩ := step_some hs
  have heffect := effect_turn param (h hflow) hread
  dsimp only
  rw [heffect.sofar hnext]
  exact Nat.mod_lt _ (by decide)

/-- However the stream is cut up, the server acts on the messages that one read brings as a whole,
and never takes pieces of two for one. -/
theorem messages_in_one_piece (param : Parameter) (ipd : Rat) (builder : Builder)
    (retransmission : List UInt8) (again : Bool) (messages : List (List UInt8))
    (hwidth : ∀ m ∈ messages, m.length = sizeofRetransmission) (inputs : List Input) (s : Loop)
    (hrun : run (Loop.step param) (.start ipd builder retransmission again) inputs = some s)
    (hstream : s.reads.flatten <+: messages.flatten) :
    s.acted = (wholeAt 0 s.reads).filterMap fun k => messages[k]?.map Retransmission.decode := by
  have hframed : s.reads.flatten <+: messages.flatten → Framed messages s := by
    refine run_invariant (P := fun s => s.reads.flatten <+: messages.flatten → Framed messages s)
      (fun t input t' ht hs hstream' => ?_) (fun _ => ⟨rfl, fun _ => rfl⟩) hrun
    refine (ht ?_).step hwidth hs hstream'
    obtain ⟨-, -, rfl⟩ := step_some hs
    rw [List.flatten_append] at hstream'
    exact (List.prefix_append _ _).trans hstream'
  exact (hframed hstream).acted

def fourBlocks : Parameter := ⟨2, 4, 7500, 20, 25, 24, 5, 6, 15⟩

def readsAll : XlrRead := fun rdesc count => ⟨true, onDisk .ofNat rdesc.address count, rdesc, true⟩

theorem readsAll_reads : ReadsDisk .ofNat readsAll where
  fits := fun rdesc count => by simp [readsAll, onDisk]
  leaves := fun _ _ => rfl
  reads := fun _ _ _ => rfl

def pass (read : Read) : Input := ⟨read, readsAll, .ok, 5⟩

/-- A request for block 3 in two pieces, two blocks, and a request for block 1 in one piece. -/
def brokenPasses : List Input :=
  [pass (.data [0, 0, 0, 0, 0]), pass (.data [0, 0, 3, 0, 0, 0, 0]), pass .nothing, pass .nothing,
    pass (.data [0, 0, 0, 0, 0, 0, 0, 1, 0, 0, 0, 0])]

def secondTransfer : Loop := .start 20 ⟨2, ⟨0, 2⟩, []⟩ [] false

theorem broken_message_lost :
    ∃ s, run (Loop.step fourBlocks) secondTransfer brokenPasses = some s ∧
      s.acted = [⟨requestRetransmit, 1, 0⟩] :=
  ⟨_, rfl, messages_in_one_piece fourBlocks 20 ⟨2, ⟨0, 2⟩, []⟩ [] false
    [[0, 0, 0, 0, 0, 0, 0, 3, 0, 0, 0, 0], [0, 0, 0, 0, 0, 0, 0, 1, 0, 0, 0, 0]] (by decide) brokenPasses
    _ rfl (by decide)⟩

/-- A datagram is read at the place of its own block if and only if the one before it, of this
transfer or of the last one, was not that of the block before: a read leaves the descriptor where it
was. -/
theorem read_in_place_iff (param : Parameter) (disk : Nat → UInt8) (ipd : Rat) (builder : Builder)
    (retransmission : List UInt8) (again : Bool) (hsize : 0 < param.blockSize)
    (hsome : 1 ≤ param.blockCount) (hcount : param.blockCount < 4294967295) (inputs : List Input)
    (hdisk : ∀ input ∈ inputs, ReadsDisk disk input.xlrRead) (s : Loop)
    (hrun : run (Loop.step param) (.start ipd builder retransmission again) inputs = some s)
    (hlegal : ∀ r ∈ s.acted, Legal param r) (i : Nat) (built : Built) (hi : s.built[i]? = some built)
    (before : Nat) (hbefore : (builder.lastBlock :: s.built.map Built.block)[i]? = some before) :
    Labelled param disk built ∧ (built.address = param.blockSize * (built.block - 1) ↔
      built.block = 1 ∨ built.block ≠ wrap32 (before + 1)) := by
  have hreads : Along (Loop.step param) (fun _ input => ReadsDisk disk input.xlrRead)
      (.start ipd builder retransmission again) inputs := .of_mem fun _ input hinput =>
    hdisk input hinput
  have hrunning : Following param disk builder.lastBlock s ∧
      (s.flow = .next → s.handler.sofar < sizeofRetransmission) :=
    run_invariant_along (P := fun s => Following param disk builder.lastBlock s ∧
        (s.flow = .next → s.handler.sofar < sizeofRetransmission))
      (fun t input t' ht hreads hs => ⟨ht.1.step ht.2 hreads hsome hcount hs, sofar_lt hs ht.2⟩)
      ⟨following_start param disk ipd builder retransmission again, fun _ => (by decide : 0 < 12)⟩
      hreads hrun
  have hfollowing := hrunning.1
  have hin := hfollowing.inFile hlegal
  have hmem := List.mem_of_getElem? hi
  obtain ⟨h1, hle⟩ := hin built hmem
  refine ⟨hfollowing.labelled built hmem, ?_⟩
  -- the block is the first one, or it has been read in front of its place
  have hplace : built.address = (if built.block = wrap32 (before + 1) then built.address
      else param.blockSize * (built.block - 1)) ∧
      (built.block = wrap32 (before + 1) → built.block ≠ 1 →
        built.address < param.blockSize * (built.block - 1)) := by
    cases i with
    | zero =>
      cases hbefore
      have hfirst := place_first (hfollowing.first hi) h1 (by omega)
      constructor
      · split
        · rfl
        · rwa [if_neg ‹_›] at hfirst
      · intro hnext hother
        rw [if_pos hnext] at hfirst
        rw [hfirst]
        exact Nat.mul_pos hsize (by omega)
    | succ i =>
      obtain ⟨hlt, -⟩ := List.getElem?_eq_some_iff.mp hi
      have ha := List.getElem?_eq_getElem (show i < s.built.length by omega)
      obtain ⟨h1', hle'⟩ := hin _ (List.mem_of_getElem? ha)
      rw [List.getElem?_cons_succ, List.getElem?_map, ha] at hbefore
      cases hbefore
      have hnext := place_next (hfollowing.next ha hi) h1' h1 hcount hle' hle
      have hbehind := hfollowing.address_le hcount hin ha
      rw [wrap32_of_lt (by omega)]
      constructor
      · split
        · rfl
        · rwa [if_neg ‹_›] at hnext
      · intro hsucc _
        rw [if_pos hsucc] at hnext
        have hup : param.blockSize * (s.built[i].block - 1) < param.blockSize * (built.block - 1) :=
          Nat.mul_lt_mul_of_pos_left (by omega) hsize
        omega
  constructor
  · intro hown
    by_contra hboth
    obtain ⟨hother, hsucc⟩ := not_or.mp hboth
    have hless := hplace.2 (not_not.mp hsucc) hother
    omega
  · rintro (hone | hother)
    · have hzero : param.blockSize * (built.block - 1) = 0 := by rw [hone, Nat.sub_self, Nat.mul_zero]
      obtain hle : built.address ≤ param.blockSize * (built.block - 1) :=
        hfollowing.address_le hcount hin hi
      omega
    · rw [hplace.1, if_neg hother]

/-- The second block is read where the first one was. -/
theorem second_block_misread :
    ∃ s built, run (Loop.step fourBlocks) secondTransfer brokenPasses = some s ∧
      s.built[1]? = some built ∧ built.block = 2 ∧ built.address ≠ 2 := by
  refine ⟨_, _, rfl, rfl, rfl, fun hown => ?_⟩
  have hreads : ∀ input ∈ brokenPasses, ReadsDisk .ofNat input.xlrRead := by
    intro input hinput
    simp only [brokenPasses, List.mem_cons, List.not_mem_nil, or_false] at hinput
    rcases hinput with rfl | rfl | rfl | rfl | rfl <;> exact readsAll_reads
  have hiff := (read_in_place_iff fourBlocks .ofNat 20 ⟨2, ⟨0, 2⟩, []⟩ [] false (by decide) (by decide)
    (by decide) brokenPasses hreads _ rfl (by decide) 1 _ rfl 1 rfl).2
  exact absurd (hiff.mp hown) (by decide)

end Runs

end TsunamiUdp.Mk5Server

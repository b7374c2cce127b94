import TsunamiUdp.Control.InStep

/-! The parameters of a transfer as the server receives them, and which of them its
arithmetic and its buffer can take. -/
namespace TsunamiUdp.Control
open Library

def maxBlockSize : Nat := 65530

/-- The size of the buffer for a datagram in `client_handler`. -/
def datagramSize : Nat := maxBlockSize + 6

structure Received where
  blockSize : UInt32
  targetRate : UInt32
  errorRate : UInt32
  slowerNum : UInt16
  slowerDen : UInt16
  fasterNum : UInt16
  fasterDen : UInt16

def Received.items (r : Received) : List Item :=
  [(.blockSize, toBytes 4 r.blockSize.toNat), (.targetRate, toBytes 4 r.targetRate.toNat),
    (.errorRate, toBytes 4 r.errorRate.toNat), (.slowerNum, toBytes 2 r.slowerNum.toNat),
    (.slowerDen, toBytes 2 r.slowerDen.toNat), (.fasterNum, toBytes 2 r.fasterNum.toNat),
    (.fasterDen, toBytes 2 r.fasterDen.toNat)]

structure Received.InRange (r : Received) : Prop where
  blockSize : 1 ≤ r.blockSize.toNat ∧ r.blockSize.toNat ≤ maxBlockSize
  targetRate : r.targetRate ≠ 0
  errorRate : r.errorRate.toNat < 100000
  slowerDen : r.slowerDen ≠ 0
  fasterDen : r.fasterDen ≠ 0

def Connection.requested (s : Connection) (file : Option (List UInt8)) (r : Received) : Connection :=
  { s with server := (openFile file s.server).1, up := bytesOf r.items }

/-- The rest of `ttp_open_transfer`: nothing without a file. -/
def readParameters (file : Option (List UInt8)) (epoch : Nat) : List Action :=
  if file.isSome then List.replicate 7 (.server (.readParameter epoch)) else []

/-- What `ttp_accept_retransmit` divides by, at last for the share of the blocks in its line of
statistics. -/
def divisors (param : Server.Parameter) (r : Retransmission) : List Rat :=
  if r.requestType = requestErrorRate then
    (if r.errorRate > param.errorRate then [(param.slowerDen : Rat), 100000 - param.errorRate]
      else [(param.fasterDen : Rat)]) ++ [(param.blockCount : Rat)]
  else []

/-- `ttp_open_transfer` has returned a negative value: there will be another file name. -/
def ServerSide.Refused (s : ServerSide) : Prop := s.place = .filename

/-- It has returned 0, without a division by zero, and there will be none in the transmit
loop; every datagram fits into its buffer. -/
structure ServerSide.Usable (s : ServerSide) : Prop where
  place : s.place = .port
  blockSize : 1 ≤ s.param.blockSize ∧ s.param.blockSize ≤ maxBlockSize
  fits : 6 + s.param.blockSize ≤ datagramSize
  targetRate : s.targetRate ≠ 0
  slowerDen : s.param.slowerDen ≠ 0
  fasterDen : s.param.fasterDen ≠ 0
  errorRate : s.param.errorRate < 100000
  blockCount : s.param.blockCount ≠ 0
  divides : ∀ r, ∀ q ∈ divisors s.param r, q ≠ 0

section Reading
variable (config : Config) (epoch : Nat)

theorem describeFile_at (s : ServerSide) (place : Place) :
    describeFile epoch (s.at place) = describeFile epoch s := rfl

theorem storeParameter_at (field : Field) (value : Nat) (s : ServerSide) (place : Place) :
    storeParameter field value (s.at place) = (storeParameter field value s).at place := by
  cases field <;> rfl

def storeAll (items : List Item) (s : ServerSide) : ServerSide :=
  items.foldl (fun s item => storeParameter item.1 (ofBytes item.2) s) s

theorem storeAll_at (items : List Item) (s : ServerSide) (place : Place) :
    storeAll items (s.at place) = (storeAll items s).at place := by
  induction items generalizing s with
  | nil => rfl
  | cons item items ih =>
    show storeAll items (storeParameter item.1 (ofBytes item.2) (s.at place)) = _
    rw [storeParameter_at, ih]
    rfl

theorem readParameter_item {item : Item} {left : List Item} {s : Connection}
    (hwidth : item.2.length = item.1.width)
    (hplace : s.server.place = .parameters ((item :: left).map Prod.fst))
    (hup : s.up = bytesOf (item :: left)) :
    ∃ t, s.step config (.server (.readParameter epoch)) = some t ∧ t.up = bytesOf left ∧
      t.server = if left = [] then (describeFile epoch (storeAll [item] s.server)).1
        else (storeAll [item] s.server).at (.parameters (left.map Prod.fst)) := by
  have hside : s.server.step config s.up (.readParameter epoch) = some
      ⟨if left = [] then (describeFile epoch (storeAll [item] s.server)).1
        else (storeAll [item] s.server).at (.parameters (left.map Prod.fst)),
        [item], bytesOf left,
        if left = [] then (describeFile epoch (storeAll [item] s.server)).2 else []⟩ := by
    simp only [ServerSide.step, hplace, hup, List.map_cons, readParameter]
    refine (readField_item item hwidth left _).trans ?_
    simp only [List.map_eq_nil_iff]
    split <;> rfl
  exact ⟨_, congrArg (Option.map _) hside, rfl, rfl⟩

theorem readParameters_items {items : List Item} {s : Connection}
    (hwidth : ∀ item ∈ items, item.2.length = item.1.width) (hsome : items ≠ [])
    (hplace : s.server.place = .parameters (items.map Prod.fst)) (hup : s.up = bytesOf items) :
    ∃ t, run (Connection.step config) s (List.replicate items.length (.server (.readParameter epoch)))
        = some t ∧ t.server = (describeFile epoch (storeAll items s.server)).1 := by
  induction items generalizing s with
  | nil => exact absurd rfl hsome
  | cons item left ih =>
    obtain ⟨s', hs, hup', hserver⟩ :=
      readParameter_item config epoch (hwidth item List.mem_cons_self) hplace hup
    by_cases hlast : left = []
    · subst hlast
      exact ⟨s', by rw [List.length_singleton, List.replicate_one, run_cons, hs]; rfl, hserver⟩
    · rw [if_neg hlast] at hserver
      obtain ⟨t, hrun, ht⟩ := ih (fun i hi => hwidth i (List.mem_cons_of_mem item hi)) hlast
        (by rw [hserver]; rfl) hup'
      refine ⟨t, by rw [List.length_cons, List.replicate_succ, run_cons, hs]; exact hrun, ?_⟩
      rw [ht, hserver, storeAll_at, describeFile_at]
      rfl

/-- A divisor of zero comes from a zero in the parameters, or from an error rate that is
the whole. -/
theorem divisors_ne_zero {param : Server.Parameter} (hslower : param.slowerDen ≠ 0)
    (hfaster : param.fasterDen ≠ 0) (herror : param.errorRate < 100000)
    (hcount : param.blockCount ≠ 0) (r : Retransmission) :
    ∀ q ∈ divisors param r, q ≠ 0 := by
  have hrest : (100000 : Rat) - param.errorRate ≠ 0 := by
    have hlt : (param.errorRate : Rat) < 100000 := by exact_mod_cast herror
    linarith
  unfold divisors
  split
  · split
    · simp [hslower, hrest, hcount]
    · simp [hfaster, hcount]
  · simp

theorem blockCount_mem_divisors (param : Server.Parameter) {r : Retransmission}
    (h : r.requestType = requestErrorRate) : (param.blockCount : Rat) ∈ divisors param r := by
  unfold divisors
  rw [if_pos h]
  exact List.mem_append_right _ (List.mem_singleton_self _)

theorem describeFile_usable_iff (s : ServerSide) :
    (describeFile epoch s).1.Usable ↔
      ((1 ≤ s.param.blockSize ∧ s.param.blockSize ≤ maxBlockSize) ∧ s.targetRate ≠ 0 ∧
        s.param.errorRate < 100000 ∧ s.param.slowerDen ≠ 0 ∧ s.param.fasterDen ≠ 0) ∧
        wrap32 (blocksOf s.xfer.builder.file.contents.length s.param.blockSize) ≠ 0 := by
  unfold describeFile
  constructor
  · intro h
    split at h
    · cases h.place
    · dsimp only at h
      split at h
      · cases h.place
      · exact ⟨⟨h.blockSize, h.targetRate, h.errorRate, h.slowerDen, h.fasterDen⟩, h.blockCount⟩
  · rintro ⟨⟨hsize, hrate, herror, hslower, hfaster⟩, hcount⟩
    rw [if_neg (by omega)]
    dsimp only
    rw [if_neg hrate]
    exact ⟨rfl, hsize, by have := hsize.2; unfold datagramSize; dsimp only; omega, hrate, hslower,
      hfaster, herror, hcount, divisors_ne_zero hslower hfaster herror hcount⟩

theorem describeFile_port_iff (s : ServerSide) :
    (describeFile epoch s).1.place = .port ↔ s.param.blockSize ≠ 0 ∧ s.targetRate ≠ 0 := by
  unfold describeFile
  by_cases hsize : s.param.blockSize = 0
  · rw [if_pos hsize]
    exact iff_of_false Place.noConfusion fun h => h.1 hsize
  · rw [if_neg hsize]
    dsimp only
    by_cases hrate : s.targetRate = 0
    · rw [if_pos hrate]
      exact iff_of_false Place.noConfusion fun h => h.2 hrate
    · rw [if_neg hrate]
      exact iff_of_true rfl ⟨hsize, hrate⟩

theorem describeFile_not_refused (s : ServerSide) : ¬(describeFile epoch s).1.Refused := by
  unfold describeFile ServerSide.Refused
  dsimp only
  split
  · exact Place.noConfusion
  · split <;> exact Place.noConfusion

theorem Received.items_width (r : Received) : ∀ item ∈ r.items, item.2.length = item.1.width := by
  intro item hitem
  simp only [Received.items, List.mem_cons, List.not_mem_nil, or_false] at hitem
  rcases hitem with rfl | rfl | rfl | rfl | rfl | rfl | rfl <;> exact toBytes_length _ _

theorem storeAll_received (r : Received) (s : ServerSide) :
    storeAll r.items s = { s with
      targetRate := r.targetRate.toNat
      param := { s.param with
        blockSize := r.blockSize.toNat
        errorRate := r.errorRate.toNat
        slowerNum := r.slowerNum.toNat
        slowerDen := r.slowerDen.toNat
        fasterNum := r.fasterNum.toNat
        fasterDen := r.fasterDen.toNat } } := by
  have h32 : ∀ n : UInt32, ofBytes (toBytes 4 n.toNat) = n.toNat := fun n =>
    ofBytes_toBytes n.toNat_lt
  have h16 : ∀ n : UInt16, ofBytes (toBytes 2 n.toNat) = n.toNat := fun n =>
    ofBytes_toBytes n.toNat_lt
  simp only [storeAll, Received.items, List.foldl_cons, List.foldl_nil, h32, h16]
  rfl

end Reading

theorem Received.inRange_iff (r : Received) :
    r.InRange ↔ (1 ≤ r.blockSize.toNat ∧ r.blockSize.toNat ≤ maxBlockSize) ∧ r.targetRate.toNat ≠ 0 ∧
      r.errorRate.toNat < 100000 ∧ r.slowerDen.toNat ≠ 0 ∧ r.fasterDen.toNat ≠ 0 := by
  have h32 : ∀ n : UInt32, n.toNat ≠ 0 ↔ n ≠ 0 := fun n =>
    not_congr (UInt32.toNat_inj : n.toNat = (0 : UInt32).toNat ↔ _)
  have h16 : ∀ n : UInt16, n.toNat ≠ 0 ↔ n ≠ 0 := fun n =>
    not_congr (UInt16.toNat_inj : n.toNat = (0 : UInt16).toNat ↔ _)
  rw [h32, h16, h16]
  constructor
  · intro h
    exact ⟨h.blockSize, h.targetRate, h.errorRate, h.slowerDen, h.fasterDen⟩
  · rintro ⟨hsize, hrate, herror, hslower, hfaster⟩
    exact ⟨hsize, hrate, herror, hslower, hfaster⟩

/-- The server refuses the request or goes on with parameters that it can work with, if and
only if there is no such file, or the client has asked for nothing out of range and the file's
blocks are counted as at least one. -/
theorem parameters_usable_iff (config : Config) (s : Connection) (file : Option (List UInt8))
    (r : Received) (epoch : Nat) :
    ∃ t, run (Connection.step config) (s.requested file r) (readParameters file epoch) = some t ∧
      ((t.server.Refused ∨ t.server.Usable) ↔ ∀ contents, file = some contents →
        r.InRange ∧ wrap32 (blocksOf contents.length r.blockSize.toNat) ≠ 0) := by
  cases file with
  | none => exact ⟨_, rfl, iff_of_true (.inl rfl) fun _ h => absurd h (Option.some_ne_none _).symm⟩
  | some contents =>
    obtain ⟨t, hrun, ht⟩ := readParameters_items config epoch (s := s.requested (some contents) r)
      r.items_width (by simp [Received.items]) rfl rfl
    refine ⟨t, hrun, ?_⟩
    have hrefused : ¬t.server.Refused := ht ▸ describeFile_not_refused epoch _
    have husable := describeFile_usable_iff epoch
      (storeAll r.items (s.requested (some contents) r).server)
    rw [← ht, storeAll_received, ← r.inRange_iff] at husable
    rw [or_iff_right hrefused, husable]
    constructor
    · rintro h _ ⟨⟩
      exact h
    · intro h
      exact h contents rfl

def blocksOfSize (blockSize : UInt32) : Received := ⟨blockSize, 8000000, 7500, 25, 24, 5, 6⟩

/-- Blocks of no bytes end the process by a division by zero, and blocks of one byte more
than `MAX_BLOCK_SIZE` are written past the end of the buffer. For an empty file, everything in
range, an error report divides by the number of blocks. -/
theorem block_size_unchecked :
    (∃ t, run (Connection.step oneFile) ((Connection.start idleServer).requested (some [7, 8, 9])
        (blocksOfSize 0)) (readParameters (some [7, 8, 9]) 0) = some t ∧
      t.server.place = .ended ∧ ¬(t.server.Refused ∨ t.server.Usable)) ∧
    (∃ t, run (Connection.step oneFile) ((Connection.start idleServer).requested (some [7, 8, 9])
        (blocksOfSize 65531)) (readParameters (some [7, 8, 9]) 0) = some t ∧
      t.server.place = .port ∧ 6 + t.server.param.blockSize = datagramSize + 1 ∧
      ¬(t.server.Refused ∨ t.server.Usable)) ∧
    ∃ t, run (Connection.step oneFile) ((Connection.start idleServer).requested (some [])
        (blocksOfSize 1024)) (readParameters (some []) 0) = some t ∧
      t.server.place = .port ∧ 0 ∈ divisors t.server.param ⟨requestErrorRate, 0, 0⟩ ∧
      ¬(t.server.Refused ∨ t.server.Usable) := by
  refine ⟨?_, ?_, ?_⟩
  · have hrun : ∃ t, run (Connection.step oneFile) ((Connection.start idleServer).requested
        (some [7, 8, 9]) (blocksOfSize 0)) (readParameters (some [7, 8, 9]) 0) = some t ∧
        t.server.place = .ended := ⟨_, rfl, rfl⟩
    obtain ⟨t, ht, hplace⟩ := hrun
    refine ⟨t, ht, hplace, ?_⟩
    rintro (h | h)
    · cases hplace.symm.trans h
    · cases hplace.symm.trans h.place
  · have hrun : ∃ t, run (Connection.step oneFile) ((Connection.start idleServer).requested
        (some [7, 8, 9]) (blocksOfSize 65531)) (readParameters (some [7, 8, 9]) 0) = some t ∧
        t.server.place = .port ∧ 6 + t.server.param.blockSize = datagramSize + 1 :=
      ⟨_, rfl, rfl, rfl⟩
    obtain ⟨t, ht, hplace, hsize⟩ := hrun
    refine ⟨t, ht, hplace, hsize, ?_⟩
    rintro (h | h)
    · cases hplace.symm.trans h
    · have hfits := h.fits
      omega
  · have hrun : ∃ t, run (Connection.step oneFile) ((Connection.start idleServer).requested
        (some []) (blocksOfSize 1024)) (readParameters (some []) 0) = some t ∧
        t.server.place = .port ∧ t.server.param.blockCount = 0 := ⟨_, rfl, rfl, rfl⟩
    obtain ⟨t, ht, hplace, hcount⟩ := hrun
    have hzero : 0 ∈ divisors t.server.param ⟨requestErrorRate, 0, 0⟩ := by
      have hmem := blockCount_mem_divisors t.server.param (r := ⟨requestErrorRate, 0, 0⟩) rfl
      rwa [hcount, Nat.cast_zero] at hmem
    refine ⟨t, ht, hplace, hzero, ?_⟩
    rintro (h | h)
    · cases hplace.symm.trans h
    · exact h.divides _ 0 hzero rfl

end TsunamiUdp.Control

import TsunamiUdp.Client.Accounting
import TsunamiUdp.Client.Get

/-! What a successful return of `command_get` says about the blocks on disk. -/
namespace TsunamiUdp.Client
open Library TsunamiUdp.Client.Ring

variable {param : Parameter}

/-- Every stop marker stands behind all the blocks of the file. -/
def StopsLate (blockCount : Nat) (numbers : List Nat) : Prop :=
  ∀ done rest, numbers = done ++ 0 :: rest → ∀ b, 1 ≤ b → b ≤ blockCount → b ∈ done

theorem StopsLate.append {blockCount b : Nat} {numbers : List Nat} (h : StopsLate blockCount numbers)
    (hb : b = 0 → ∀ c, 1 ≤ c → c ≤ blockCount → c ∈ numbers) :
    StopsLate blockCount (numbers ++ [b]) := by
  intro done rest heq
  rcases List.eq_nil_or_concat rest with rfl | ⟨rest, last, rfl⟩
  · obtain ⟨rfl, hzero⟩ := List.append_inj' heq rfl
    exact hb (List.cons.inj hzero).1
  · rw [List.concat_eq_append, ← List.cons_append, ← List.append_assoc] at heq
    exact h done rest (List.append_inj' heq rfl).1

theorem control_over {env : Env} {xfer : Transfer} {block type : Nat} {c : Controlled}
    (hlossless : param.lossless = true) (h : control param env xfer block type = some c)
    (hover : c.finished = true) : c.xfer.blocksLeft = 0 := by
  rcases control_cases h with ⟨-, rfl⟩ | ⟨-, mid, -, ⟨-, hend⟩ | ⟨-, rfl⟩⟩
  · cases hover
  · rcases atTerminate_cases hend with ⟨hleft | ⟨hlossy, -⟩, rfl⟩ | ⟨-, -, _, -, rfl⟩
    · exact hleft
    · rw [hlossless] at hlossy
      cases hlossy
    · cases hover
  · cases hover

theorem afterRing_over {env : Env} {xfer : Transfer} {block type : Nat} {c : Controlled}
    (hlossless : param.lossless = true) (h : afterRing param env xfer block type = some c)
    (hover : c.finished = true) : c.xfer.blocksLeft = 0 := by
  obtain ⟨mid, hmid, ⟨-, rfl⟩ | ⟨-, after, sent, -, rfl⟩⟩ := afterRing_cases h
  · exact control_over hlossless hmid hover
  · cases hover

namespace Get
variable {s s' : Get}

def stored (s : Get) : List Nat := s.threads.confirmed.map blockNumber

structure Recorded (s : Get) : Prop where
  received : ∀ b, s.net.xfer.received b = true ↔ b ∈ s.stored
  blocksLeft : s.net.xfer.blocksLeft = (missing s.net.xfer).card

def Complete (s : Get) : Prop :=
  ∀ b, 1 ≤ b → b ≤ s.net.xfer.blockCount → s.net.xfer.received b = true ∧ b ∈ s.stored

theorem Recorded.complete (h : Recorded s) (hleft : s.net.xfer.blocksLeft = 0) : Complete s := by
  intro b h1 hle
  have hnone : missing s.net.xfer = ∅ := Finset.card_eq_zero.mp (h.blocksLeft ▸ hleft)
  have hgot : s.net.xfer.received b = true := by
    by_contra hnot
    have hmem : b ∈ missing s.net.xfer := mem_missing.mpr ⟨⟨h1, hle⟩, by simpa using hnot⟩
    rw [hnone] at hmem
    cases hmem
  exact ⟨hgot, (h.received b).mp hgot⟩

theorem Complete.same (h : Complete s) (hxfer : s'.net.xfer = s.net.xfer)
    (hconfirmed : s'.threads.confirmed = s.threads.confirmed) : Complete s' := by
  unfold Complete
  rw [hxfer, stored, hconfirmed]
  exact h

def NetworkInv (s : Get) : Prop :=
  match s.phase with
  | .receiving => Recorded s
  | .storing _ => Recorded s ∧ gotBlock s.net.xfer (blockNumber s.net.localDatagram) = false ∧
      (blockNumber s.net.localDatagram = 0 → s.net.xfer.blocksLeft = 0) ∧
      ∀ a d, s.threads.producer = .written a d → d = s.net.localDatagram
  | .finished => Complete s
  | .stopping => Complete s ∧ ∀ a d, s.threads.producer = .written a d → blockNumber d = 0
  | .joining => Complete s ∧ 0 ∈ s.stored
  | .returned => Complete s ∧ 0 ∈ s.stored ∧ s.disk = .exited
  | .aborted | .killed => True

/-- What holds at each place of the disk thread: it has exited at a stop marker, or
while the ring cannot hold all the blocks that are left and the stop block. -/
def DiskInv (s : Get) : Prop :=
  match s.disk with
  | .looping => s.accepted = s.threads.consumed.map blockNumber
  | .accepted => ∃ a d, s.threads.consumer = .read a d ∧
      s.accepted = s.threads.consumed.map blockNumber ++ [blockNumber d]
  | .exited => s.accepted = s.threads.consumed.map blockNumber ∧
      ∃ a d, s.threads.consumer = .read a d ∧
        (blockNumber d = 0 ∨ s.accepted.length + 4096 ≤ s.net.xfer.blockCount)

structure Inv (s : Get) : Prop where
  ring : Threads.Inv s.threads
  idle : s.inserting = false → s.threads.producer = .idle
  late : StopsLate s.net.xfer.blockCount s.stored
  network : NetworkInv s
  disk : DiskInv s

theorem DiskInv.keep (h : DiskInv s) (hdisk : s'.disk = s.disk) (haccepted : s'.accepted = s.accepted)
    (hconsumed : s'.threads.consumed = s.threads.consumed)
    (hread : ∀ a d, s.threads.consumer = .read a d → s'.threads.consumer = .read a d)
    (hcount : s'.net.xfer.blockCount = s.net.xfer.blockCount) : DiskInv s' := by
  unfold DiskInv at h ⊢
  rw [hdisk, haccepted, hconsumed, hcount]
  split at h
  · exact h
  · obtain ⟨a, d, hc, heq⟩ := h
    exact ⟨a, d, hread a d hc, heq⟩
  · obtain ⟨heq, a, d, hc, hwhy⟩ := h
    exact ⟨heq, a, d, hread a d hc, hwhy⟩

theorem NetworkInv.keep (h : NetworkInv s) (hnet : s'.net = s.net) (hphase : s'.phase = s.phase)
    (hconfirmed : s'.threads.confirmed = s.threads.confirmed)
    (hwritten : ∀ a d, s'.threads.producer = .written a d → s.threads.producer = .written a d)
    (hexited : s.disk = .exited → s'.disk = .exited) : NetworkInv s' := by
  have hstored : s'.stored = s.stored := by rw [stored, stored, hconfirmed]
  have hrecorded : Recorded s → Recorded s' := fun hr =>
    ⟨by rw [hnet, hstored]; exact hr.received, by rw [hnet]; exact hr.blocksLeft⟩
  have hcomplete : Complete s → Complete s' := fun hc => hc.same (by rw [hnet]) hconfirmed
  unfold NetworkInv at h ⊢
  rw [hphase, hnet, hstored]
  split at h
  · exact hrecorded h
  · exact ⟨hrecorded h.1, h.2.1, h.2.2.1, fun a d hw => h.2.2.2 a d (hwritten a d hw)⟩
  · exact hcomplete h
  · exact ⟨hcomplete h.1, fun a d hw => h.2 a d (hwritten a d hw)⟩
  · exact ⟨hcomplete h.1, h.2⟩
  · exact ⟨hcomplete h.1, h.2.1, hexited h.2.2⟩
  · trivial
  · trivial

theorem Recorded.same {xfer : Transfer} (h : Recorded s) (hsame : SameBlocks s.net.xfer xfer)
    (hnet : s'.net.xfer = xfer) (hconfirmed : s'.threads.confirmed = s.threads.confirmed) :
    Recorded s' := by
  constructor
  · rw [hnet, hsame.received, stored, hconfirmed]
    exact h.received
  · rw [hnet, hsame.blocksLeft, hsame.missing]
    exact h.blocksLeft

theorem Recorded.mark {block : Nat} (h : Recorded s) (hnew : gotBlock s.net.xfer block = false)
    (hzero : block = 0 → s.net.xfer.blocksLeft = 0)
    (hxfer : s'.net.xfer = markReceived s.net.xfer block)
    (hstored : s'.stored = s.stored ++ [block]) : Recorded s' := by
  constructor
  · intro b
    rw [hxfer, hstored, List.mem_append, List.mem_singleton]
    by_cases hb : b = block
    · subst hb
      simp [markReceived]
    · rw [received_markReceived_of_ne hb, h.received b]
      simp [hb]
  · rw [hxfer]
    by_cases hb : block = 0
    · have hleft := hzero hb
      have hnone : 0 ∉ missing s.net.xfer := by
        rw [mem_missing]
        omega
      rw [missing_markReceived, hb, Finset.erase_eq_of_notMem hnone, ← h.blocksLeft]
      simp [markReceived, hleft]
    · have hle := le_of_not_gotBlock hnew
      rw [gotBlock_of_le hle] at hnew
      exact blocksLeft_markReceived h.blocksLeft (mem_missing.mpr ⟨⟨by omega, hle⟩, hnew⟩)

theorem inv_settle {kill : Bool} {rest : Option Controlled} (hring : Threads.Inv s.threads)
    (hlate : StopsLate s.net.xfer.blockCount s.stored) (hdisk : DiskInv s)
    (hidle : s.threads.producer = .idle) (hrecorded : Recorded s)
    (hrest : ∀ c, rest = some c →
      SameBlocks s.net.xfer c.xfer ∧ (c.finished = true → c.xfer.blocksLeft = 0)) :
    Inv (s.settle kill rest) := by
  cases rest with
  | none =>
    refine ⟨hring, fun _ => hidle, hlate, ?_, hdisk.keep rfl rfl rfl (fun _ _ h => h) rfl⟩
    cases kill <;> trivial
  | some c =>
    obtain ⟨hsame, hover⟩ := hrest c rfl
    have hrecorded' : Recorded (s.settle kill (some c)) := hrecorded.same hsame rfl rfl
    refine ⟨hring, fun _ => hidle, ?_, ?_, hdisk.keep rfl rfl rfl (fun _ _ h => h) hsame.blockCount⟩
    · change StopsLate c.xfer.blockCount s.stored
      rw [hsame.blockCount]
      exact hlate
    · cases hc : c.finished with
      | true =>
        have hphase : (s.settle kill (some c)).phase = .finished := by simp [settle, hc]
        unfold NetworkInv
        rw [hphase]
        exact hrecorded'.complete (hover hc)
      | false =>
        have hphase : (s.settle kill (some c)).phase = .receiving := by simp [settle, hc]
        unfold NetworkInv
        rw [hphase]
        exact hrecorded'

def StoresLate (param : Parameter) (s : Get) (env : Env) : Prop :=
  blockNumber (buffer param s.net.localDatagram env.recv) = 0 →
    env.ringFull = false → s.net.xfer.received 0 = false → s.net.xfer.blocksLeft = 0

theorem inv_turn {env : Env} (hlossless : param.lossless = true) (h : Inv s)
    (hsafe : StoresLate param s env) (hs : s.turn param env = some s') : Inv s' := by
  obtain ⟨hring, hidle, hlate, hrecorded, hdisk⟩ := h
  obtain ⟨hphase, -, hs⟩ := turn_cases hs
  unfold NetworkInv at hrecorded
  unfold inserting at hidle
  rw [hphase] at hrecorded hidle
  have hidle : s.threads.producer = .idle := hidle rfl
  obtain ⟨-, rfl⟩ | ⟨net, sent, harrive, hs⟩ := hs
  · exact ⟨hring, fun _ => hidle, hlate, trivial, hdisk.keep rfl rfl rfl (fun _ _ h => h) rfl⟩
  · obtain ⟨hsame, hbuf⟩ := arrive_spec harrive
    have hrecorded' : Recorded { s with net := net, sent := s.sent ++ sent } :=
      hrecorded.same hsame rfl rfl
    have hlate' : StopsLate net.xfer.blockCount s.stored := by
      rw [hsame.blockCount]
      exact hlate
    have hdisk' : DiskInv { s with net := net, sent := s.sent ++ sent } :=
      hdisk.keep rfl rfl rfl (fun _ _ h => h) hsame.blockCount
    rcases hs with ⟨henter, hnew, rfl⟩ | ⟨-, -, rfl⟩ | ⟨-, rfl⟩
    · refine ⟨hring, (fun h => by cases h), hlate', ?_, hdisk'.keep rfl rfl rfl (fun _ _ h => h) rfl⟩
      refine ⟨hrecorded'.same (SameBlocks.refl _) rfl rfl, hnew, fun hzero => ?_, fun a d hw => ?_⟩
      · dsimp only at hzero ⊢
        have hfull : env.ringFull = false := by
          cases hf : env.ringFull with
          | false => rfl
          | true => simp [enters, hf] at henter
        rw [hsame.blocksLeft]
        rw [hbuf] at hzero
        apply hsafe hzero hfull
        rw [hbuf, hzero, gotBlock_of_le (Nat.zero_le _), hsame.received] at hnew
        exact hnew
      · dsimp only at hw
        rw [hidle] at hw
        cases hw
    · exact inv_settle hring hlate' hdisk' hidle hrecorded' fun c hc =>
        ⟨sameBlocks_afterRing hc, afterRing_over hlossless hc⟩
    · refine inv_settle hring hlate' hdisk' hidle hrecorded' fun c hc => ?_
      obtain ⟨hstats, hgoes⟩ := sameBlocks_stats hc
      exact ⟨hstats, fun hover => by rw [hgoes] at hover; cases hover⟩

theorem inv_insert {action : Action (List UInt8)} {threads : Threads (List UInt8)} (h : Inv s)
    (hs : s.threads.step action = some threads) (hside : action.consumes = false)
    (hconfirm : action ≠ .confirm) (hinserting : s.inserting = true)
    (hwritten : ∀ a d, threads.producer = .written a d → s.offered = some d) :
    Inv (s.withThreads threads) := by
  obtain ⟨hring, -, hlate, hnetwork, hdisk⟩ := h
  have hpop : action ≠ .pop := fun heq => by rw [heq] at hside; cases hside
  obtain ⟨hconf, hcons⟩ := Threads.silent_logs hring hs hconfirm hpop
  have hstored : (s.withThreads threads).stored = s.stored := by
    rw [stored, stored]
    exact congrArg _ hconf
  refine ⟨Threads.inv_step action hring hs, fun h => ?_, ?_, ?_, ?_⟩
  · rw [show (s.withThreads threads).inserting = s.inserting from rfl, hinserting] at h
    cases h
  · rw [hstored]
    exact hlate
  · unfold inserting at hinserting
    unfold NetworkInv at hnetwork ⊢
    unfold offered at hwritten
    dsimp only [withThreads]
    split at hinserting
    · rename_i env hphase
      rw [hphase] at hnetwork hwritten ⊢
      obtain ⟨hrecorded, hnew, hzero, -⟩ := hnetwork
      refine ⟨hrecorded.same (SameBlocks.refl _) rfl hconf, hnew, hzero, fun a d hw => ?_⟩
      exact (Option.some.inj (hwritten a d hw)).symm
    · rename_i hphase
      rw [hphase] at hnetwork hwritten ⊢
      refine ⟨hnetwork.1.same rfl hconf, fun a d hw => ?_⟩
      obtain ⟨b, -, rfl⟩ := Option.map_eq_some_iff.mp (hwritten a d hw)
      exact blockNumber_zero _
    · cases hinserting
  · exact hdisk.keep rfl rfl hcons (fun _ _ hr => Threads.read_kept hs hside hr) rfl

theorem inv_reserve (h : Inv s) (hs : s.reserve = some s') : Inv s' := by
  obtain ⟨hinserting, threads, ht, rfl⟩ := call_cases hs
  refine inv_insert h ht rfl (by simp) hinserting fun a d hw => ?_
  exact absurd hw (Threads.reserve_not_written ht)

theorem inv_store (h : Inv s) (hs : s.store = some s') : Inv s' := by
  obtain ⟨e, he, hs⟩ := Option.bind_eq_some_iff.mp hs
  obtain ⟨threads, ht, rfl⟩ := Option.map_eq_some_iff.mp hs
  have hinserting : s.inserting = true := by
    unfold offered at he
    unfold inserting
    split at he
    · rfl
    · rfl
    · cases he
  refine inv_insert h ht rfl (by simp) hinserting fun a d hw => ?_
  rw [Threads.write_written ht hw]
  exact he

theorem inv_confirm (hlossless : param.lossless = true) (h : Inv s)
    (hs : s.confirm param = some s') : Inv s' := by
  obtain ⟨hring, -, hlate, hnetwork, hdisk⟩ := h
  obtain ⟨threads, ht, hs⟩ := confirm_cases hs
  obtain ⟨a, d, hwritten, hconf, hcons, hidle⟩ := Threads.confirm_visible hring ht
  have hring' := Threads.inv_step _ hring ht
  have hread : ∀ a d, s.threads.consumer = .read a d → threads.consumer = .read a d :=
    fun _ _ hr => Threads.read_kept ht rfl hr
  have hstored : threads.confirmed.map blockNumber = s.stored ++ [blockNumber d] := by
    rw [hconf, List.map_append]
    rfl
  unfold NetworkInv at hnetwork
  rcases hs with ⟨env, hphase, rfl⟩ | ⟨hphase, rfl⟩
  · rw [hphase] at hnetwork
    obtain ⟨hrecorded, hnew, hzero, hlocal⟩ := hnetwork
    obtain rfl := hlocal a d hwritten
    refine inv_settle hring' ?_ (hdisk.keep rfl rfl hcons hread rfl) hidle ?_ fun c hc =>
      ⟨sameBlocks_afterRing hc, afterRing_over hlossless hc⟩
    · change StopsLate s.net.xfer.blockCount (threads.confirmed.map blockNumber)
      rw [hstored]
      exact hlate.append fun hz c h1 hc => (hrecorded.complete (hzero hz) c h1 hc).2
    · exact hrecorded.mark hnew hzero rfl hstored
  · rw [hphase] at hnetwork
    obtain ⟨hcomplete, hzero⟩ := hnetwork
    refine ⟨hring', fun _ => hidle, ?_, ⟨?_, ?_⟩, hdisk.keep rfl rfl hcons hread rfl⟩
    · change StopsLate s.net.xfer.blockCount (threads.confirmed.map blockNumber)
      rw [hstored]
      exact hlate.append fun _ c h1 hc => (hcomplete c h1 hc).2
    · intro b h1 hle
      refine ⟨(hcomplete b h1 hle).1, ?_⟩
      change b ∈ threads.confirmed.map blockNumber
      rw [hstored]
      exact List.mem_append_left _ (hcomplete b h1 hle).2
    · change 0 ∈ threads.confirmed.map blockNumber
      rw [hstored, hzero a d hwritten]
      simp

theorem confirm_frame (h : Inv s) (hs : s.confirm param = some s') :
    ∃ d, s'.threads.confirmed = s.threads.confirmed ++ [d] ∧ s'.file = s.file ∧
      s'.accepted = s.accepted ∧ (∀ env, s'.phase ≠ .storing env) ∧
      ((∃ env, s.phase = .storing env ∧ d = s.net.localDatagram ∧ blockNumber d ∉ s.stored) ∨
        (s.phase = .stopping ∧ blockNumber d = 0 ∧ s'.phase = .joining)) := by
  have hnetwork := h.network
  obtain ⟨threads, ht, hs⟩ := confirm_cases hs
  obtain ⟨a, d, hwritten, hconf, -, -⟩ := Threads.confirm_visible h.ring ht
  refine ⟨d, ?_⟩
  unfold NetworkInv at hnetwork
  rcases hs with ⟨env, hphase, rfl⟩ | ⟨hphase, rfl⟩
  · rw [hphase] at hnetwork
    obtain ⟨hrecorded, hnew, -, hlocal⟩ := hnetwork
    obtain rfl := hlocal a d hwritten
    obtain ⟨hthreads, hfile, haccepted, hstoring⟩ := settle_frame
      { s with
        net := { s.net with xfer := markReceived s.net.xfer (blockNumber s.net.localDatagram) }
        threads := threads }
      (afterRingKill param env (markReceived s.net.xfer (blockNumber s.net.localDatagram))
        (blockNumber s.net.localDatagram) (blockType s.net.localDatagram))
      (afterRing param env (markReceived s.net.xfer (blockNumber s.net.localDatagram))
        (blockNumber s.net.localDatagram) (blockType s.net.localDatagram))
    refine ⟨?_, hfile, haccepted, hstoring, Or.inl ⟨env, hphase, rfl, fun hmem => ?_⟩⟩
    · rw [hthreads]
      exact hconf
    · rw [gotBlock_of_le (le_of_not_gotBlock hnew), (hrecorded.received _).mpr hmem] at hnew
      cases hnew
  · rw [hphase] at hnetwork
    exact ⟨hconf, rfl, rfl, (fun env h => by cases h),
      Or.inr ⟨hphase, hnetwork.2 a d hwritten, rfl⟩⟩

theorem inv_producerWakes (h : Inv s) (hs : s.producerWakes = some s') : Inv s' := by
  obtain ⟨threads, ht, rfl⟩ := Option.map_eq_some_iff.mp hs
  have hinserting : s.inserting = true := by
    by_contra hnot
    exact Threads.producerWakes_busy ht (h.idle (by simpa using hnot))
  refine inv_insert h ht rfl (by simp) hinserting fun a d hw => ?_
  exact absurd hw (Threads.producerWakes_not_written ht)

theorem inv_requestStop {write : WriteResult} (h : Inv s) (hs : s.requestStop write = some s') :
    Inv s' := by
  obtain ⟨hring, hidle, hlate, hnetwork, hdisk⟩ := h
  obtain ⟨hphase, hs⟩ := requestStop_cases hs
  unfold NetworkInv at hnetwork
  unfold inserting at hidle
  rw [hphase] at hnetwork hidle
  have hidle : s.threads.producer = .idle := hidle rfl
  rcases hs with ⟨-, rfl⟩ | ⟨-, rfl⟩
  · refine ⟨hring, (fun h => by cases h), hlate, ⟨hnetwork, fun a d hw => ?_⟩,
      hdisk.keep rfl rfl rfl (fun _ _ h => h) rfl⟩
    dsimp only at hw
    rw [hidle] at hw
    cases hw
  · exact ⟨hring, fun _ => hidle, hlate, trivial, hdisk.keep rfl rfl rfl (fun _ _ h => h) rfl⟩

theorem inv_join (h : Inv s) (hs : s.join = some s') : Inv s' := by
  obtain ⟨hring, hidle, hlate, hnetwork, hdisk⟩ := h
  obtain ⟨hphase, hexited, rfl⟩ := join_cases hs
  unfold NetworkInv at hnetwork
  unfold inserting at hidle
  rw [hphase] at hnetwork hidle
  exact ⟨hring, fun _ => hidle rfl, hlate, ⟨hnetwork.1, hnetwork.2, hexited⟩,
    hdisk.keep rfl rfl rfl (fun _ _ h => h) rfl⟩

theorem inv_ringCall {action : Action (List UInt8)} {threads : Threads (List UInt8)} (h : Inv s)
    (hs : s.threads.step action = some threads) (hside : action.consumes = true)
    (hdisk : DiskInv (s.afterRingCall threads)) (hexited : s.disk ≠ .exited) :
    Inv (s.afterRingCall threads) := by
  obtain ⟨hring, hidle, hlate, hnetwork, -⟩ := h
  have hconf : threads.confirmed = s.threads.confirmed :=
    Threads.confirmed_kept hring hs fun h => by rw [h] at hside; cases hside
  refine ⟨Threads.inv_step action hring hs, fun hi => Threads.idle_kept hs hside (hidle hi), ?_, ?_, hdisk⟩
  · unfold stored at hlate ⊢
    rw [show (s.afterRingCall threads).threads.confirmed = s.threads.confirmed from hconf]
    exact hlate
  · exact hnetwork.keep rfl rfl hconf (fun _ _ hw => Threads.written_kept hs hside hw)
      fun h => absurd h hexited

theorem diskInv_looping {action : Action (List UInt8)} {threads : Threads (List UInt8)} (h : Inv s)
    (hs : s.threads.step action = some threads) (hdisk : s.disk = .looping)
    (hconfirm : action ≠ .confirm) (hpop : action ≠ .pop) : DiskInv (s.afterRingCall threads) := by
  have hloop := h.disk
  unfold DiskInv at hloop ⊢
  have hstill : (s.afterRingCall threads).disk = .looping := by
    unfold afterRingCall
    dsimp only
    split
    · rfl
    · exact hdisk
  rw [hdisk] at hloop
  rw [hstill]
  change s.accepted = threads.consumed.map blockNumber
  rw [(Threads.silent_logs h.ring hs hconfirm hpop).2]
  exact hloop

theorem inv_looping {action : Action (List UInt8)} {threads : Threads (List UInt8)} (h : Inv s)
    (hs : s.threads.step action = some threads) (hside : action.consumes = true)
    (hdisk : s.disk = .looping) (hconfirm : action ≠ .confirm) (hpop : action ≠ .pop) :
    Inv (s.afterRingCall threads) :=
  inv_ringCall h hs hside (diskInv_looping h hs hdisk hconfirm hpop) (by rw [hdisk]; decide)

theorem inv_peek (h : Inv s) (hs : s.peek = some s') : Inv s' := by
  obtain ⟨hdisk, threads, ht, rfl⟩ := call_cases hs
  exact inv_looping h ht rfl hdisk (by simp) (by simp)

theorem inv_read (h : Inv s) (hs : s.read = some s') : Inv s' := by
  obtain ⟨hdisk, threads, ht, rfl⟩ := call_cases hs
  exact inv_looping h ht rfl hdisk (by simp) (by simp)

theorem inv_consumerWakes (h : Inv s) (hs : s.consumerWakes = some s') : Inv s' := by
  obtain ⟨threads, ht, rfl⟩ := Option.map_eq_some_iff.mp hs
  have hdisk : s.disk = .looping := by
    have hplace := h.disk
    unfold DiskInv at hplace
    split at hplace
    · assumption
    · obtain ⟨a, d, hread, -⟩ := hplace
      exact absurd hread (Threads.consumerWakes_not_read ht)
    · obtain ⟨-, a, d, hread, -⟩ := hplace
      exact absurd hread (Threads.consumerWakes_not_read ht)
  exact inv_looping h ht rfl hdisk (by simp) (by simp)

theorem inv_pop (h : Inv s) (hs : s.pop = some s') : Inv s' := by
  obtain ⟨hdisk, threads, ht, rfl⟩ := call_cases hs
  refine inv_ringCall h ht rfl ?_ (by rw [hdisk]; decide)
  have hplace := h.disk
  unfold DiskInv at hplace ⊢
  rw [hdisk] at hplace
  obtain ⟨a, d, hread, haccepted⟩ := hplace
  obtain ⟨_, _, hread', hcons, -, hidle⟩ := Threads.pop_visible h.ring ht
  rw [hread] at hread'
  cases hread'
  have hback : (s.afterRingCall threads).disk = .looping := by
    unfold afterRingCall
    dsimp only
    rw [hidle]
  rw [hback]
  change s.accepted = threads.consumed.map blockNumber
  rw [hcons, haccepted, List.map_append]
  rfl

/-- The disk thread fails only while the ring cannot hold all the blocks that are left
and the stop block. -/
def FailsEarly (param : Parameter) (s : Get) (result : DiskResult) : Prop :=
  match s.threads.consumer with
  | .read _ d => blockNumber d ≠ 0 →
      (acceptBlock param s.net.xfer result (blockNumber d) (d.drop 6) s.file).ok = false →
      s.accepted.length + 4096 ≤ s.net.xfer.blockCount
  | _ => True

theorem inv_accept {result : DiskResult} (h : Inv s) (hsafe : FailsEarly param s result)
    (hs : s.accept param result = some s') : Inv s' := by
  obtain ⟨hring, hidle, hlate, hnetwork, hplace⟩ := h
  obtain ⟨a, d, hread, hdisk, hs⟩ := accept_cases hs
  have hexited : ∀ {p : Prop}, s.disk = .exited → p := fun he => by rw [hdisk] at he; cases he
  unfold DiskInv at hplace
  rw [hdisk] at hplace
  rcases hs with ⟨hzero, rfl⟩ | ⟨hnz, rfl⟩
  · exact ⟨hring, hidle, hlate, hnetwork.keep rfl rfl rfl (fun _ _ h => h) hexited,
      hplace, a, d, hread, Or.inl hzero⟩
  · unfold FailsEarly at hsafe
    rw [hread] at hsafe
    refine ⟨hring, hidle, hlate, hnetwork.keep rfl rfl rfl (fun _ _ h => h) hexited, ?_⟩
    unfold DiskInv
    dsimp only
    cases hok : (acceptBlock param s.net.xfer result (blockNumber d) (d.drop 6) s.file).ok with
    | true =>
      refine ⟨a, d, hread, ?_⟩
      rw [if_pos rfl, hplace]
    | false =>
      refine ⟨?_, a, d, hread, Or.inr ?_⟩
      · simpa using hplace
      · simpa using hsafe hnz hok

/-- The step stores no stop marker too early, and the disk fails early if at all. -/
def Safe (param : Parameter) (s : Get) : GetAction → Prop
  | .turn env => StoresLate param s env
  | .accept result => FailsEarly param s result
  | _ => True

theorem inv_step {action : GetAction} (hlossless : param.lossless = true) (h : Inv s)
    (hsafe : Safe param s action) (hs : s.step param action = some s') : Inv s' := by
  replace hs := (step_act hs).2
  cases action with
  | turn env => exact inv_turn hlossless h hsafe hs
  | reserve => exact inv_reserve h hs
  | producerWakes => exact inv_producerWakes h hs
  | store => exact inv_store h hs
  | confirm => exact inv_confirm hlossless h hs
  | requestStop write => exact inv_requestStop h hs
  | join => exact inv_join h hs
  | peek => exact inv_peek h hs
  | consumerWakes => exact inv_consumerWakes h hs
  | read => exact inv_read h hs
  | accept result => exact inv_accept h hsafe hs
  | pop => exact inv_pop h hs

theorem inv_start (param : Parameter) (fileSize blockCount onWireEstimate : Nat)
    (datagrams : Int → List UInt8) :
    Inv (start param (Transfer.start fileSize blockCount onWireEstimate) datagrams) where
  ring := Threads.inv_start datagrams
  idle := fun _ => rfl
  late := fun done rest heq => by cases done <;> cases heq
  network := ⟨fun b => by simp [start, Net.start, Transfer.start, stored, Threads.start],
    by simp [start, Net.start, Transfer.start, missing]⟩
  disk := rfl

/-- When `command_get` has returned, the disk thread has read a stop marker: had it
failed, the stop block would not have fitted into the ring. -/
theorem Inv.returned (h : Inv s) (hphase : s.phase = .returned) {b : Nat} (h1 : 1 ≤ b)
    (hle : b ≤ s.net.xfer.blockCount) : b ∈ s.accepted := by
  have hnetwork := h.network
  unfold NetworkInv at hnetwork
  rw [hphase] at hnetwork
  obtain ⟨hcomplete, hstop, hexited⟩ := hnetwork
  have hdisk := h.disk
  unfold DiskInv at hdisk
  rw [hexited] at hdisk
  obtain ⟨haccepted, a, d, hread, hwhy⟩ := hdisk
  obtain ⟨rest, hqueue⟩ := Threads.read_head h.ring hread
  have hstored : s.stored = s.accepted ++ blockNumber d :: rest.map blockNumber := by
    rw [stored, h.ring.history, hqueue, List.map_append, List.map_cons, haccepted]
  rcases hwhy with hzero | hfailed
  · rw [hzero] at hstored
    exact h.late _ _ hstored b h1 hle
  · have hall : Finset.range (s.net.xfer.blockCount + 1) ⊆ s.stored.toFinset := by
      intro c hc
      rw [List.mem_toFinset]
      rcases Nat.eq_zero_or_pos c with rfl | hpos
      · exact hstop
      · exact (hcomplete c hpos (Nat.le_of_lt_succ (Finset.mem_range.mp hc))).2
    have hmany := (Finset.card_le_card hall).trans (List.toFinset_card_le _)
    have hroom := h.ring.consistent.queued_le
    rw [hqueue, List.length_cons] at hroom
    rw [Finset.card_range, hstored, List.length_append, List.length_cons, List.length_map] at hmany
    omega

end Get

/-- If no stop marker goes into the ring while a block is missing, and the disk fails
only while 4096 blocks are not yet on it, then `command_get` does not return 0 before
every block has been written. -/
theorem returned_blocks_written (param : Parameter) (fileSize blockCount onWireEstimate : Nat)
    (datagrams : Int → List UInt8) (actions : List GetAction) (t : Get)
    (hlossless : param.lossless = true)
    (hrun : run (Get.step param)
      (.start param (.start fileSize blockCount onWireEstimate) datagrams) actions = some t)
    (hsafe : Along (Get.step param) (Get.Safe param)
      (.start param (.start fileSize blockCount onWireEstimate) datagrams) actions)
    (hreturned : t.phase = .returned) :
    ∀ b, 1 ≤ b → b ≤ blockCount → b ∈ t.accepted := by
  have hinv := run_invariant_along (P := Get.Inv)
    (fun _ _ _ h hok hs => Get.inv_step hlossless h hok hs)
    (Get.inv_start param fileSize blockCount onWireEstimate datagrams) hsafe hrun
  have hcount : t.net.xfer.blockCount = blockCount :=
    run_invariant (P := fun s : Get => s.net.xfer.blockCount = blockCount)
      (fun _ _ _ h hs => (Get.sameFile_step hs).blockCount.trans h) rfl hrun
  exact fun b h1 hle => hinv.returned hreturned h1 (hcount ▸ hle)

instance (param : Parameter) (s : Get) (env : Env) : Decidable (Get.StoresLate param s env) := by
  unfold Get.StoresLate
  infer_instance

instance (param : Parameter) (s : Get) (result : DiskResult) :
    Decidable (Get.FailsEarly param s result) := by
  unfold Get.FailsEarly
  cases s.threads.consumer <;> infer_instance

instance (param : Parameter) (s : Get) (action : GetAction) : Decidable (Get.Safe param s action) := by
  unfold Get.Safe
  cases action <;> infer_instance

def oneBlockRun (result : DiskResult) : List GetAction :=
  [.turn (.calm (.datagram [0, 0, 0, 1, 0, 88, 7])), .reserve, .store, .confirm,
    .requestStop .ok, .reserve, .store, .confirm, .peek, .read, .accept result]

theorem returned_blocks_written_sample :
    ∃ t, run (Get.step ⟨1, true, 0, 25⟩)
        (.start ⟨1, true, 0, 25⟩ (.start 1 1 0) fun _ => List.replicate 7 0)
        (oneBlockRun (.wrote 1) ++ [.pop, .peek, .read, .accept (.wrote 1), .join]) = some t ∧
      ∀ b, 1 ≤ b → b ≤ 1 → b ∈ t.accepted := by
  have hrun : ∃ t, run (Get.step ⟨1, true, 0, 25⟩)
      (.start ⟨1, true, 0, 25⟩ (.start 1 1 0) fun _ => List.replicate 7 0)
      (oneBlockRun (.wrote 1) ++ [.pop, .peek, .read, .accept (.wrote 1), .join]) = some t ∧
      t.phase = .returned := ⟨_, rfl, rfl⟩
  obtain ⟨t, ht, hreturned⟩ := hrun
  exact ⟨t, ht, returned_blocks_written ⟨1, true, 0, 25⟩ 1 1 0 _ _ t rfl ht (by decide) hreturned⟩

/-- The disk thread fails on the only block, and `command_get` still returns 0. -/
theorem returned_without_block :
    ∃ t, run (Get.step ⟨1, true, 0, 25⟩)
        (.start ⟨1, true, 0, 25⟩ (.start 1 1 0) fun _ => List.replicate 7 0)
        (oneBlockRun .seekFails ++ [.join]) = some t ∧
      t.phase = .returned ∧ t.accepted = [] ∧ t.file = [] :=
  ⟨_, rfl, rfl, rfl, rfl⟩

end TsunamiUdp.Client

import TsunamiUdp.Library.Runs
import TsunamiUdp.Client.Disk
import TsunamiUdp.Client.Receive
import TsunamiUdp.Client.RingThreads

/-! The two threads of `command_get` once the transfer is open: the network thread with
its receive loop and the end of it, and the disk thread. A step is what a thread does up
to its next access to the ring. -/
namespace TsunamiUdp.Client
open Library TsunamiUdp.Client.Ring

/-- Where the network thread is: in `storing` it has a new block for the ring, in
`stopping` the stop block, and in `returned` `command_get` has returned 0. In `killed` a
division by zero has ended the process. -/
inductive Phase
  | receiving
  | storing (env : Env)
  | finished
  | stopping
  | joining
  | returned
  | aborted
  | killed

/-- Where the disk thread is; in `accepted` it has written the block it looks at. -/
inductive Disk
  | looping
  | accepted
  | exited
deriving DecidableEq

/-- Both threads, the local file, the blocks `accept_block` succeeded for, and what went
to the control channel. -/
structure Get where
  net : Net
  phase : Phase
  threads : Threads (List UInt8)
  disk : Disk
  file : List UInt8
  accepted : List Nat
  sent : List Retransmission

inductive GetAction
  | turn (env : Env)
  | reserve
  | producerWakes
  | store
  | confirm
  | requestStop (write : WriteResult)
  | join
  | peek
  | consumerWakes
  | read
  | accept (result : DiskResult)
  | pop

def GetAction.ofDisk : GetAction → Bool
  | .peek | .consumerWakes | .read | .accept _ | .pop => true
  | _ => false

namespace Get

def start (param : Parameter) (xfer : Transfer) (datagrams : Int → List UInt8) : Get where
  net := Net.start param xfer
  phase := .receiving
  threads := Threads.start datagrams
  disk := .looping
  file := []
  accepted := []
  sent := []

def withThreads (s : Get) (threads : Threads (List UInt8)) : Get := { s with threads := threads }

def settle (s : Get) (kill : Bool) (rest : Option Controlled) : Get :=
  match rest with
  | none => { s with phase := if kill then .killed else .aborted }
  | some c => { s with
      net := { s.net with xfer := c.xfer }
      phase := if c.finished then .finished else .receiving
      sent := s.sent ++ c.sent }

/-- A turn up to the reservation of a slot, or to its end if no block is to be stored. -/
def turn (param : Parameter) (env : Env) (s : Get) : Option Get :=
  match s.phase with
  | .receiving =>
    if env.ringFull = ringFull s.threads.ring then
      match arrive param env s.net with
      | none => some { s with phase := .aborted }
      | some (net, sent) =>
        let s := { s with net := net, sent := s.sent ++ sent }
        let block := blockNumber net.localDatagram
        let type := blockType net.localDatagram
        some <|
          if enters env.ringFull net.xfer block type then
            if gotBlock net.xfer block = false then { s with phase := .storing env }
            else s.settle (afterRingKill param env net.xfer block type)
              (afterRing param env net.xfer block type)
          else s.settle (statsKill env net.xfer)
            ((sendStats param env net.xfer).map fun (xfer, sent) => ⟨false, xfer, sent⟩)
    else none
  | _ => none

def inserting (s : Get) : Bool :=
  match s.phase with
  | .storing _ | .stopping => true
  | _ => false

def reserve (s : Get) : Option Get :=
  if s.inserting then (s.threads.step .reserve).map s.withThreads else none

def producerWakes (s : Get) : Option Get :=
  (s.threads.step .producerWakes).map s.withThreads

/-- What goes into the reserved slot. The stop block is a zero in front of what the slot
holds. -/
def offered (s : Get) : Option (List UInt8) :=
  match s.phase with
  | .storing _ => some s.net.localDatagram
  | .stopping => s.threads.producer.address.map fun a =>
      toBytes 4 0 ++ (s.threads.ring.datagrams a).drop 4
  | _ => none

def store (s : Get) : Option Get :=
  s.offered.bind fun d => (s.threads.step (.write d)).map s.withThreads

def confirm (param : Parameter) (s : Get) : Option Get :=
  (s.threads.step .confirm).bind fun threads =>
    match s.phase with
    | .storing env =>
      let block := blockNumber s.net.localDatagram
      let type := blockType s.net.localDatagram
      let xfer := markReceived s.net.xfer block
      some (settle { s with net := { s.net with xfer := xfer }, threads := threads }
        (afterRingKill param env xfer block type) (afterRing param env xfer block type))
    | .stopping => some { s with threads := threads, phase := .joining }
    | _ => none

def requestStop (write : WriteResult) (s : Get) : Option Get :=
  match s.phase with
  | .finished => some <|
      if write = .ok then { s with phase := .stopping, sent := s.sent ++ [ttpRequestStop] }
      else { s with phase := .aborted }
  | _ => none

def join (s : Get) : Option Get :=
  match s.phase with
  | .joining => if s.disk = .exited then some { s with phase := .returned } else none
  | _ => none

def afterRingCall (s : Get) (threads : Threads (List UInt8)) : Get :=
  { s with
    threads := threads
    disk := match threads.consumer with
      | .idle => .looping
      | _ => s.disk }

def peek (s : Get) : Option Get :=
  if s.disk = .looping then (s.threads.step .peek).map s.afterRingCall else none

def consumerWakes (s : Get) : Option Get :=
  (s.threads.step .consumerWakes).map s.afterRingCall

def read (s : Get) : Option Get :=
  if s.disk = .looping then (s.threads.step .read).map s.afterRingCall else none

/-- The disk thread looks at the block it has read: it stops at number 0 and after an
error, and pops the block otherwise. -/
def accept (param : Parameter) (result : DiskResult) (s : Get) : Option Get :=
  match s.threads.consumer with
  | .read _ datagram =>
    if s.disk = .looping then
      let block := blockNumber datagram
      if block = 0 then some { s with disk := .exited }
      else
        let written := acceptBlock param s.net.xfer result block (datagram.drop 6) s.file
        some { s with
          file := written.file
          disk := if written.ok then .accepted else .exited
          accepted := if written.ok then s.accepted ++ [block] else s.accepted }
    else none
  | _ => none

def pop (s : Get) : Option Get :=
  if s.disk = .accepted then (s.threads.step .pop).map s.afterRingCall else none

def alive (s : Get) : Bool :=
  match s.phase with
  | .killed => false
  | _ => true

def act (param : Parameter) (s : Get) : GetAction → Option Get
  | .turn env => s.turn param env
  | .reserve => s.reserve
  | .producerWakes => s.producerWakes
  | .store => s.store
  | .confirm => s.confirm param
  | .requestStop write => s.requestStop write
  | .join => s.join
  | .peek => s.peek
  | .consumerWakes => s.consumerWakes
  | .read => s.read
  | .accept result => s.accept param result
  | .pop => s.pop

/-- No thread outlives the process. -/
def step (param : Parameter) (s : Get) (action : GetAction) : Option Get :=
  if s.alive then s.act param action else none

structure RingCall (s s' : Get) : Prop where
  net : s'.net = s.net
  phase : s'.phase = s.phase
  file : s'.file = s.file
  accepted : s'.accepted = s.accepted
  sent : s'.sent = s.sent
  threads : ∃ action, action ≠ .confirm ∧ s.threads.step action = some s'.threads

structure SameFile (s s' : Get) : Prop where
  fileSize : s'.net.xfer.fileSize = s.net.xfer.fileSize
  blockCount : s'.net.xfer.blockCount = s.net.xfer.blockCount

section Frames
variable {param : Parameter} {s s' : Get}

theorem step_act {action : GetAction} (hs : s.step param action = some s') :
    s.alive = true ∧ s.act param action = some s' :=
  Option.ite_none_right_eq_some.mp hs

theorem act_step {action : GetAction} (h : s.alive = true) (hs : s.act param action = some s') :
    s.step param action = some s' :=
  (if_pos h).trans hs

/-- The outcomes of a turn: `abort` before the datagram is looked at, a new block on its way
into the ring, and the end of the turn for a block that is there already or does not fit. -/
theorem turn_cases {env : Env} (hs : s.turn param env = some s') :
    s.phase = .receiving ∧ env.ringFull = ringFull s.threads.ring ∧
      ((arrive param env s.net = none ∧ s' = { s with phase := .aborted }) ∨
        ∃ net sent, arrive param env s.net = some (net, sent) ∧
          ((enters env.ringFull net.xfer (blockNumber net.localDatagram)
                (blockType net.localDatagram) = true ∧
              gotBlock net.xfer (blockNumber net.localDatagram) = false ∧
              s' = { s with net := net, sent := s.sent ++ sent, phase := .storing env }) ∨
            (enters env.ringFull net.xfer (blockNumber net.localDatagram)
                (blockType net.localDatagram) = true ∧
              gotBlock net.xfer (blockNumber net.localDatagram) = true ∧
              s' = settle { s with net := net, sent := s.sent ++ sent }
                (afterRingKill param env net.xfer (blockNumber net.localDatagram)
                  (blockType net.localDatagram))
                (afterRing param env net.xfer (blockNumber net.localDatagram)
                  (blockType net.localDatagram))) ∨
            (enters env.ringFull net.xfer (blockNumber net.localDatagram)
                (blockType net.localDatagram) = false ∧
              s' = settle { s with net := net, sent := s.sent ++ sent } (statsKill env net.xfer)
                ((sendStats param env net.xfer).map fun (xfer, sent) => ⟨false, xfer, sent⟩)))) := by
  unfold turn at hs
  split at hs
  · rename_i hphase
    split at hs
    · rename_i hfull
      refine ⟨hphase, hfull, ?_⟩
      split at hs
      · rename_i harrive
        exact Or.inl ⟨harrive, (Option.some.inj hs).symm⟩
      · rename_i net sent harrive
        refine Or.inr ⟨net, sent, harrive, ?_⟩
        have hs := (Option.some.inj hs).symm
        dsimp only at hs
        split at hs
        · rename_i henter
          split at hs
          · rename_i hnew
            exact Or.inl ⟨henter, hnew, hs⟩
          · rename_i hold
            exact Or.inr (Or.inl ⟨henter, Bool.eq_true_of_not_eq_false hold, hs⟩)
        · rename_i hlate
          exact Or.inr (Or.inr ⟨Bool.eq_false_of_not_eq_true hlate, hs⟩)
    · cases hs
  · cases hs

theorem confirm_cases (hs : s.confirm param = some s') :
    ∃ threads, s.threads.step .confirm = some threads ∧
      ((∃ env, s.phase = .storing env ∧
          s' = settle { s with
              net := { s.net with xfer := markReceived s.net.xfer (blockNumber s.net.localDatagram) }
              threads := threads }
            (afterRingKill param env (markReceived s.net.xfer (blockNumber s.net.localDatagram))
              (blockNumber s.net.localDatagram) (blockType s.net.localDatagram))
            (afterRing param env (markReceived s.net.xfer (blockNumber s.net.localDatagram))
              (blockNumber s.net.localDatagram) (blockType s.net.localDatagram))) ∨
        (s.phase = .stopping ∧ s' = { s with threads := threads, phase := .joining })) := by
  obtain ⟨threads, ht, hs⟩ := Option.bind_eq_some_iff.mp hs
  refine ⟨threads, ht, ?_⟩
  dsimp only at hs
  split at hs
  · rename_i env hphase
    exact Or.inl ⟨env, hphase, (Option.some.inj hs).symm⟩
  · rename_i hphase
    exact Or.inr ⟨hphase, (Option.some.inj hs).symm⟩
  · cases hs

theorem requestStop_cases {write : WriteResult} (hs : s.requestStop write = some s') :
    s.phase = .finished ∧
      ((write = .ok ∧ s' = { s with phase := .stopping, sent := s.sent ++ [ttpRequestStop] }) ∨
        (write ≠ .ok ∧ s' = { s with phase := .aborted })) := by
  unfold requestStop at hs
  split at hs
  · rename_i hphase
    refine ⟨hphase, ?_⟩
    have hs := (Option.some.inj hs).symm
    split at hs
    · rename_i hok
      exact Or.inl ⟨hok, hs⟩
    · rename_i hfails
      exact Or.inr ⟨hfails, hs⟩
  · cases hs

theorem join_cases (hs : s.join = some s') :
    s.phase = .joining ∧ s.disk = .exited ∧ s' = { s with phase := .returned } := by
  unfold join at hs
  split at hs
  · rename_i hphase
    split at hs
    · rename_i hexited
      exact ⟨hphase, hexited, (Option.some.inj hs).symm⟩
    · cases hs
  · cases hs

theorem accept_cases {result : DiskResult} (hs : s.accept param result = some s') :
    ∃ slot d, s.threads.consumer = .read slot d ∧ s.disk = .looping ∧
      ((blockNumber d = 0 ∧ s' = { s with disk := .exited }) ∨
        (blockNumber d ≠ 0 ∧
          s' = { s with
            file := (acceptBlock param s.net.xfer result (blockNumber d) (d.drop 6) s.file).file
            disk := if (acceptBlock param s.net.xfer result (blockNumber d) (d.drop 6) s.file).ok
              then .accepted else .exited
            accepted := if (acceptBlock param s.net.xfer result (blockNumber d) (d.drop 6) s.file).ok
              then s.accepted ++ [blockNumber d] else s.accepted })) := by
  unfold accept at hs
  split at hs
  · rename_i slot d hread
    split at hs
    · rename_i hlooping
      refine ⟨slot, d, hread, hlooping, ?_⟩
      dsimp only at hs
      split at hs
      · rename_i hzero
        exact Or.inl ⟨hzero, (Option.some.inj hs).symm⟩
      · rename_i hblock
        exact Or.inr ⟨hblock, (Option.some.inj hs).symm⟩
    · cases hs
  · cases hs

theorem call_cases {allowed : Prop} [Decidable allowed] {call : Option (Threads (List UInt8))}
    {after : Threads (List UInt8) → Get}
    (hs : (if allowed then call.map after else none) = some s') :
    allowed ∧ ∃ threads, call = some threads ∧ s' = after threads := by
  split at hs
  · rename_i hallowed
    obtain ⟨threads, ht, rfl⟩ := Option.map_eq_some_iff.mp hs
    exact ⟨hallowed, threads, ht, rfl⟩
  · cases hs

theorem ringCall_withThreads {action : Action (List UInt8)} {threads : Threads (List UInt8)}
    (h : action ≠ .confirm) (hs : s.threads.step action = some threads) :
    RingCall s (s.withThreads threads) :=
  ⟨rfl, rfl, rfl, rfl, rfl, action, h, hs⟩

theorem ringCall_afterRingCall {action : Action (List UInt8)} {threads : Threads (List UInt8)}
    (hside : action.consumes = true) (hs : s.threads.step action = some threads) :
    RingCall s (s.afterRingCall threads) :=
  ⟨rfl, rfl, rfl, rfl, rfl, action, (fun heq => by rw [heq] at hside; cases hside), hs⟩

theorem disk_cases {action : GetAction} (hdisk : action.ofDisk = true)
    (hs : s.act param action = some s') :
    (∃ result, action = .accept result) ∨ ∃ (ring : Action (List UInt8)) (threads : _),
      ring.consumes = true ∧ s.threads.step ring = some threads ∧ s' = s.afterRingCall threads := by
  cases action with
  | accept result => exact Or.inl ⟨result, rfl⟩
  | consumerWakes =>
    obtain ⟨threads, ht, rfl⟩ := Option.map_eq_some_iff.mp hs
    exact Or.inr ⟨.consumerWakes, threads, rfl, ht, rfl⟩
  | peek =>
    obtain ⟨-, threads, ht, rfl⟩ := call_cases hs
    exact Or.inr ⟨.peek, threads, rfl, ht, rfl⟩
  | read =>
    obtain ⟨-, threads, ht, rfl⟩ := call_cases hs
    exact Or.inr ⟨.read, threads, rfl, ht, rfl⟩
  | pop =>
    obtain ⟨-, threads, ht, rfl⟩ := call_cases hs
    exact Or.inr ⟨.pop, threads, rfl, ht, rfl⟩
  | _ => cases hdisk

theorem network_cases {action : GetAction} (hnet : action.ofDisk = false)
    (hs : s.act param action = some s') :
    (∃ (ring : Action (List UInt8)) (threads : _), ring.consumes = false ∧ ring ≠ .confirm ∧
        s.threads.step ring = some threads ∧ s' = s.withThreads threads) ∨
      (∃ env, action = .turn env) ∨ action = .confirm ∨ (∃ write, action = .requestStop write) ∨
      action = .join := by
  cases action with
  | turn env => exact Or.inr (Or.inl ⟨env, rfl⟩)
  | confirm => exact Or.inr (Or.inr (Or.inl rfl))
  | requestStop write => exact Or.inr (Or.inr (Or.inr (Or.inl ⟨write, rfl⟩)))
  | join => exact Or.inr (Or.inr (Or.inr (Or.inr rfl)))
  | reserve =>
    obtain ⟨-, threads, ht, rfl⟩ := call_cases hs
    exact Or.inl ⟨.reserve, threads, rfl, by simp, ht, rfl⟩
  | producerWakes =>
    obtain ⟨threads, ht, rfl⟩ := Option.map_eq_some_iff.mp hs
    exact Or.inl ⟨.producerWakes, threads, rfl, by simp, ht, rfl⟩
  | store =>
    obtain ⟨d, -, hs⟩ := Option.bind_eq_some_iff.mp hs
    obtain ⟨threads, ht, rfl⟩ := Option.map_eq_some_iff.mp hs
    exact Or.inl ⟨.write d, threads, rfl, by simp, ht, rfl⟩
  | _ => cases hnet

theorem step_cases {action : GetAction} (hs : s.step param action = some s') :
    RingCall s s' ∨ (∃ env, action = .turn env) ∨ action = .confirm ∨
      (∃ write, action = .requestStop write) ∨ action = .join ∨ ∃ result, action = .accept result := by
  cases hside : action.ofDisk with
  | true =>
    rcases disk_cases hside (step_act hs).2 with hlooks | ⟨ring, threads, hconsumes, ht, rfl⟩
    · exact Or.inr (Or.inr (Or.inr (Or.inr (Or.inr hlooks))))
    · exact Or.inl (ringCall_afterRingCall hconsumes ht)
  | false =>
    rcases network_cases hside (step_act hs).2 with
      ⟨ring, threads, -, hring, ht, rfl⟩ | hturn | hconfirm | hstop | hjoin
    · exact Or.inl (ringCall_withThreads hring ht)
    · exact Or.inr (Or.inl hturn)
    · exact Or.inr (Or.inr (Or.inl hconfirm))
    · exact Or.inr (Or.inr (Or.inr (Or.inl hstop)))
    · exact Or.inr (Or.inr (Or.inr (Or.inr (Or.inl hjoin))))

theorem sameBlocks_stats {env : Env} {xfer : Transfer} {c : Controlled}
    (hc : (sendStats param env xfer).map (fun (xfer, sent) => ⟨false, xfer, sent⟩) = some c) :
    SameBlocks xfer c.xfer ∧ c.finished = false := by
  obtain ⟨⟨after, more⟩, hstats, rfl⟩ := Option.map_eq_some_iff.mp hc
  exact ⟨sameBlocks_sendStats hstats, rfl⟩

theorem SameFile.trans {s'' : Get} (h : SameFile s s') (h' : SameFile s' s'') : SameFile s s'' :=
  ⟨h'.fileSize.trans h.fileSize, h'.blockCount.trans h.blockCount⟩

theorem sameBlocks_settle {kill : Bool} {rest : Option Controlled}
    (hrest : ∀ c, rest = some c → SameBlocks s.net.xfer c.xfer) :
    SameBlocks s.net.xfer (s.settle kill rest).net.xfer := by
  cases rest with
  | none => exact SameBlocks.refl _
  | some c => exact hrest c rfl

theorem sameBlocks_turn {env : Env} (hs : s.turn param env = some s') :
    SameBlocks s.net.xfer s'.net.xfer := by
  obtain ⟨-, -, ⟨-, rfl⟩ | ⟨net, sent, harrive, hrest⟩⟩ := turn_cases hs
  · exact SameBlocks.refl _
  · have harrived := (arrive_spec harrive).1
    have hsettled : ∀ (kill : Bool) (rest : Option Controlled),
        (∀ c, rest = some c → SameBlocks net.xfer c.xfer) →
        SameBlocks s.net.xfer (settle { s with net := net, sent := s.sent ++ sent } kill rest).net.xfer :=
      fun _ rest hrest => harrived.trans
        (sameBlocks_settle (s := { s with net := net, sent := s.sent ++ sent }) hrest)
    rcases hrest with ⟨-, -, rfl⟩ | ⟨-, -, rfl⟩ | ⟨-, rfl⟩
    · exact harrived
    · exact hsettled _ _ fun c hc => sameBlocks_afterRing hc
    · exact hsettled _ _ fun c hc => (sameBlocks_stats hc).1

theorem sameFile_of_sameBlocks (h : SameBlocks s.net.xfer s'.net.xfer) : SameFile s s' :=
  ⟨h.fileSize, h.blockCount⟩

theorem sameFile_turn {env : Env} (hs : s.turn param env = some s') : SameFile s s' :=
  sameFile_of_sameBlocks (sameBlocks_turn hs)

theorem sameFile_confirm (hs : s.confirm param = some s') : SameFile s s' := by
  obtain ⟨threads, -, ⟨env, -, rfl⟩ | ⟨-, rfl⟩⟩ := confirm_cases hs
  · have hmarked : SameFile s { s with
        net := { s.net with xfer := markReceived s.net.xfer (blockNumber s.net.localDatagram) }
        threads := threads } := ⟨rfl, rfl⟩
    exact hmarked.trans (sameFile_of_sameBlocks (sameBlocks_settle fun c hc => sameBlocks_afterRing hc))
  · exact ⟨rfl, rfl⟩

theorem settle_frame (s : Get) (kill : Bool) (rest : Option Controlled) :
    (s.settle kill rest).threads = s.threads ∧ (s.settle kill rest).file = s.file ∧
      (s.settle kill rest).accepted = s.accepted ∧
      ∀ env, (s.settle kill rest).phase ≠ .storing env := by
  cases rest with
  | none =>
    refine ⟨rfl, rfl, rfl, fun env h => ?_⟩
    cases kill <;> cases h
  | some c =>
    refine ⟨rfl, rfl, rfl, fun env h => ?_⟩
    dsimp only [settle] at h
    split at h <;> cases h

theorem turn_frame {env : Env} (hs : s.turn param env = some s') :
    s.phase = .receiving ∧ s'.threads = s.threads ∧ s'.file = s.file ∧ s'.accepted = s.accepted ∧
      ∀ e, s'.phase = .storing e →
        s'.net.localDatagram = buffer param s.net.localDatagram env.recv := by
  obtain ⟨hphase, -, ⟨-, rfl⟩ | ⟨net, sent, harrive, hrest⟩⟩ := turn_cases hs
  · exact ⟨hphase, rfl, rfl, rfl, fun e h => by cases h⟩
  · have hbuf := (arrive_spec harrive).2
    have hsettled : ∀ kill rest, s' = settle { s with net := net, sent := s.sent ++ sent } kill rest →
        s'.threads = s.threads ∧ s'.file = s.file ∧ s'.accepted = s.accepted ∧
          ∀ e, s'.phase = .storing e →
            s'.net.localDatagram = buffer param s.net.localDatagram env.recv := by
      rintro kill rest rfl
      obtain ⟨hthreads, hfile, haccepted, hphase⟩ := settle_frame
        { s with net := net, sent := s.sent ++ sent } kill rest
      exact ⟨hthreads, hfile, haccepted, fun e h => absurd h (hphase e)⟩
    rcases hrest with ⟨-, -, rfl⟩ | ⟨-, -, hs⟩ | ⟨-, hs⟩
    · exact ⟨hphase, rfl, rfl, rfl, fun _ _ => hbuf⟩
    · exact ⟨hphase, hsettled _ _ hs⟩
    · exact ⟨hphase, hsettled _ _ hs⟩

theorem rest_frame {action : GetAction} (hs : s.step param action = some s')
    (h : (∃ write, action = .requestStop write) ∨ action = .join ∨ ∃ result, action = .accept result) :
    s'.net = s.net ∧ s'.threads = s.threads := by
  replace hs := (step_act hs).2
  rcases h with ⟨write, rfl⟩ | rfl | ⟨result, rfl⟩
  · obtain ⟨-, ⟨-, rfl⟩ | ⟨-, rfl⟩⟩ := requestStop_cases hs <;> exact ⟨rfl, rfl⟩
  · obtain ⟨-, -, rfl⟩ := join_cases hs
    exact ⟨rfl, rfl⟩
  · obtain ⟨slot, d, -, -, ⟨-, rfl⟩ | ⟨-, rfl⟩⟩ := accept_cases hs <;> exact ⟨rfl, rfl⟩

theorem accept_phase {result : DiskResult} (hs : s.accept param result = some s') :
    s'.phase = s.phase := by
  obtain ⟨slot, d, -, -, ⟨-, rfl⟩ | ⟨-, rfl⟩⟩ := accept_cases hs <;> rfl

theorem net_step {action : GetAction} (hs : s.step param action = some s') :
    s'.net = s.net ∨ (∃ env, action = .turn env) ∨ action = .confirm := by
  rcases step_cases hs with hcall | hturn | hconfirm | hrest
  · exact Or.inl hcall.net
  · exact Or.inr (Or.inl hturn)
  · exact Or.inr (Or.inr hconfirm)
  · exact Or.inl (rest_frame hs hrest).1

theorem sameFile_step {action : GetAction} (hs : s.step param action = some s') : SameFile s s' := by
  rcases net_step hs with hnet | ⟨env, rfl⟩ | rfl
  · exact ⟨by rw [hnet], by rw [hnet]⟩
  · exact sameFile_turn (step_act hs).2
  · exact sameFile_confirm (step_act hs).2

end Frames

end Get

end TsunamiUdp.Client

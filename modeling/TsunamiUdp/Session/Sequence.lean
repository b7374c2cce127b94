import TsunamiUdp.Client.Sources
import TsunamiUdp.Session.System

/-! Transfers one after another over one connection. The client opens the same port for
each of them, so that what is still on the way when one is over can arrive in the next. -/
namespace TsunamiUdp
open Library Client

structure Terms where
  order : Server.ByteOrder
  server : Server.Parameter
  client : Client.Parameter
  contents : List UInt8

/-- What the two sides find when a transfer is opened: the delay, the clock, the client's
estimate of what is on the wire, and the memory of its ring. -/
structure Opening where
  ipd : Rat
  now : Int
  onWireEstimate : Nat
  slots : Int → List UInt8

/-- A datagram that arrived during one transfer and had been sent in another, or in the same. -/
structure Arrival where
  during : Nat
  sentIn : Nat
  bytes : List UInt8
deriving DecidableEq

/-- The transfer that is being performed, with its number; what was sent in those before
it, what has arrived, and what was marked as received and written, each with the number of
its transfer. -/
structure Sequence where
  index : Nat
  server : Server.Loop
  client : Get
  past : List (Nat × List UInt8)
  arrived : List Arrival
  marked : List (Nat × List UInt8)
  written : List (Nat × List UInt8)

inductive SequenceAction
  | server (input : Server.Input)
  | client (sentIn : Nat) (action : GetAction)
  | next (opening : Opening)

/-- The process of the server keeps the structure for requests, `errno`, and what
`build_datagram` works on but the file. -/
def openServer (terms : Terms) (opening : Opening) (builder : Server.Builder) (memory : List UInt8)
    (again : Bool) : Server.Loop :=
  .start (.start ⟨0, opening.ipd, { builder with file := ⟨terms.contents, 0⟩ }⟩ memory opening.now again)

def openClient (terms : Terms) (opening : Opening) : Get :=
  .start terms.client
    (.start terms.contents.length terms.server.blockCount opening.onWireEstimate) opening.slots

namespace Sequence

def start (plan : Nat → Terms) (opening : Opening) (builder : Server.Builder) (memory : List UInt8)
    (again : Bool) : Sequence where
  index := 0
  server := openServer (plan 0) opening builder memory again
  client := openClient (plan 0) opening
  past := []
  arrived := []
  marked := []
  written := []

/-- All that has been sent, with the number of the transfer it was built in. -/
def wire (s : Sequence) : List (Nat × List UInt8) :=
  s.past ++ s.server.sent.map fun d => (s.index, d)

/-- What a call of `recvfrom` returns is on the wire; it does not fail. -/
def Arrives (s : Sequence) (sentIn : Nat) : GetAction → Prop
  | .turn env =>
    match env.recv with
    | .datagram bytes => (sentIn, bytes) ∈ s.wire
    | .error => False
  | _ => True

theorem arrives_datagram {s : Sequence} {sentIn : Nat} {env : Env} {bytes : List UInt8}
    (hrecv : env.recv = .datagram bytes) : (sentIn, bytes) ∈ s.wire ↔ s.Arrives sentIn (.turn env) := by
  simp only [Arrives, hrecv]

theorem not_arrives_error {s : Sequence} {sentIn : Nat} {env : Env} (hrecv : env.recv = .error) :
    ¬s.Arrives sentIn (.turn env) := by
  simp only [Arrives, hrecv]
  exact id

instance (s : Sequence) (sentIn : Nat) : (action : GetAction) → Decidable (s.Arrives sentIn action)
  | .turn env =>
    match hrecv : env.recv with
    | .datagram _ => decidable_of_iff _ (arrives_datagram hrecv)
    | .error => isFalse (not_arrives_error hrecv)
  | .reserve | .producerWakes | .store | .confirm | .requestStop _ | .join | .peek
  | .consumerWakes | .read | .accept _ | .pop => instDecidableTrue

def arrival (s : Sequence) (sentIn : Nat) : GetAction → List Arrival
  | .turn env =>
    match env.recv with
    | .datagram bytes => [⟨s.index, sentIn, bytes⟩]
    | .error => []
  | _ => []

/-- `command_get` is done with the file, and the server with the transmit loop. -/
def ended (s : Sequence) : Bool :=
  (match s.client.phase with
    | .returned | .aborted => true
    | _ => false) &&
  match s.server.flow with
    | .stop | .timeout => true
    | _ => false

def step (plan : Nat → Terms) (s : Sequence) : SequenceAction → Option Sequence
  | .server input =>
    (Server.Loop.step (plan s.index).order (plan s.index).server s.server input).bind fun server =>
      if server.bytes <+: (records s.client.sent).flatten then some { s with server := server }
      else none
  | .client sentIn action =>
    if s.Arrives sentIn action then
      (s.client.step (plan s.index).client action).map fun client =>
        { s with
          client := client
          arrived := s.arrived ++ s.arrival sentIn action
          marked := s.marked ++ (s.client.marks action).toList.map fun d => (s.index, d)
          written := s.written ++ (s.client.writes action).toList.map fun d => (s.index, d) }
    else none
  | .next opening =>
    if s.ended then some
      { s with
        index := s.index + 1
        server := openServer (plan (s.index + 1)) opening s.server.handler.xfer.builder
          s.server.handler.retransmission s.server.handler.again
        client := openClient (plan (s.index + 1)) opening
        past := s.wire }
    else none

end Sequence

/-- What the server has open is the file of the transfer, and it builds the datagram from it. -/
def Built (terms : Terms) (h : Server.Handler) (datagram : List UInt8) : Prop :=
  h.xfer.builder.file.contents = terms.contents ∧
    ∃ block type, datagram = Server.outgoing terms.server
      (Server.buildDatagram terms.server.blockSize block type h.xfer.builder)

/-- The server has sent the datagram in a pass of the run, in the transfer with this number. -/
def BuiltIn (plan : Nat → Terms) (s₀ : Sequence) (as : List SequenceAction) (i : Nat)
    (datagram : List UInt8) : Prop :=
  ∃ before input after s, as = before ++ .server input :: after ∧
    run (Sequence.step plan) s₀ before = some s ∧ s.index = i ∧
    datagram ∈ (Server.handlerTurn (plan i).order (plan i).server input s.server.handler).sent ∧
    Built (plan i) s.server.handler datagram

def Shows (param : Client.Parameter) (bytes datagram : List UInt8) : Prop :=
  bytes.take (6 + param.blockSize) <+: datagram

section Building
variable {order : Server.ByteOrder} {param : Server.Parameter} {input : Server.Input}

def fileOf (h : Server.Handler) : List UInt8 := h.xfer.builder.file.contents

@[simp] theorem accepted_contents (send : Server.SendResult) (r : Retransmission) (xfer : Server.Transfer) :
    (Server.ttpAcceptRetransmit param send r xfer).xfer.builder.file.contents =
      xfer.builder.file.contents := by
  unfold Server.ttpAcceptRetransmit
  split
  · rfl
  · split
    · split <;> rfl
    · split
      · exact Server.buildDatagram_contents _ _ _ _
      · rfl

variable (order param input) in
theorem reportLost_contents (turn : Server.Turn) :
    (Server.reportLost order param input turn).datagram = turn.datagram ∧
      fileOf (Server.reportLost order param input turn).handler = fileOf turn.handler := by
  constructor
  · unfold Server.reportLost
    dsimp only
    split <;> rfl
  · rw [Server.reportLost_handler]
    generalize Server.fakeReport turn.handler.retransmission = memory
    exact accepted_contents _ _ _

variable (order param input) in
theorem finish_contents (turn : Server.Turn) :
    (Server.finish order param input turn).datagram = turn.datagram ∧
      fileOf (Server.finish order param input turn).handler = fileOf turn.handler :=
  Server.finish_keeps (p := fun after => after.datagram = turn.datagram ∧
      fileOf after.handler = fileOf turn.handler)
    (fun _ _ => ⟨rfl, rfl⟩) (reportLost_contents order param input
      { turn with handler := { turn.handler with deadconnectionCounter := 0 } })

theorem accepted_built {terms : Terms} {send : Server.SendResult} {r : Retransmission}
    {h : Server.Handler} (hfile : fileOf h = terms.contents) {d : List UInt8}
    (hd : (Server.ttpAcceptRetransmit terms.server send r h.xfer).datagram = some d) :
    Built terms h d := by
  unfold Server.ttpAcceptRetransmit at hd
  split at hd
  · cases hd
  · split at hd
    · split at hd <;> cases hd
    · split at hd
      · cases hd
        exact ⟨hfile, _, _, rfl⟩
      · cases hd

variable (order input) in
theorem handlerTurn_built {terms : Terms} {h : Server.Handler} (hfile : fileOf h = terms.contents) :
    fileOf (Server.handlerTurn order terms.server input h).handler = terms.contents ∧
      ∀ d, (Server.handlerTurn order terms.server input h).datagram = some d → Built terms h d := by
  unfold Server.handlerTurn
  dsimp only
  split
  · exact ⟨hfile, fun d hd => by cases hd⟩
  · rename_i h1 hread
    obtain ⟨again, rfl⟩ := Server.readRequest_some hread
    obtain ⟨hdatagram, hcontents⟩ := finish_contents order terms.server input _
    rw [hdatagram, hcontents]
    split
    · unfold Server.handleRequest
      dsimp only
      split
      · exact ⟨hfile, fun d hd => by cases hd⟩
      · exact ⟨(accepted_contents _ _ _).trans hfile, fun d hd => accepted_built (h := h) hfile hd⟩
    · split
      · refine ⟨(Server.buildDatagram_contents _ _ _ _).trans hfile, fun d hd => ?_⟩
        cases hd
        exact ⟨hfile, _, _, rfl⟩
      · exact ⟨hfile, fun d hd => by cases hd⟩

theorem sent_built {terms : Terms} {h : Server.Handler} (hfile : fileOf h = terms.contents)
    {d : List UInt8} (hd : d ∈ (Server.handlerTurn order terms.server input h).sent) :
    Built terms h d := by
  unfold Server.Turn.sent at hd
  split at hd
  · exact (handlerTurn_built order input hfile).2 d (Option.mem_toList.mp hd)
  · cases hd

end Building

/-- Everything on the wire was built in its transfer, what has arrived was on the wire before, and
all that was marked or written had arrived in the same transfer. -/
structure Sound (plan : Nat → Terms) (built : Nat → List UInt8 → Prop) (s : Sequence) : Prop where
  file : fileOf s.server.handler = (plan s.index).contents
  wire : ∀ i d, (i, d) ∈ s.wire → i ≤ s.index ∧ built i d
  arrived : ∀ a ∈ s.arrived, a.sentIn ≤ a.during ∧ (a.sentIn, a.bytes) ∈ s.wire
  sourced : s.client.Sourced fun d => ∃ a ∈ s.arrived, a.during = s.index ∧
    Shows (plan s.index).client a.bytes d
  used : ∀ k d, (k, d) ∈ s.marked ∨ (k, d) ∈ s.written →
    ∃ a ∈ s.arrived, a.during = k ∧ Shows (plan k).client a.bytes d

theorem Sound.mono {plan : Nat → Terms} {built more : Nat → List UInt8 → Prop} {s : Sequence}
    (h : Sound plan built s) (hmore : ∀ i d, built i d → more i d) : Sound plan more s :=
  { h with wire := fun i d hd => ⟨(h.wire i d hd).1, hmore i d (h.wire i d hd).2⟩ }

theorem BuiltIn.append {plan : Nat → Terms} {s₀ : Sequence} {as : List SequenceAction} {i : Nat}
    {d : List UInt8} (h : BuiltIn plan s₀ as i d) (bs : List SequenceAction) :
    BuiltIn plan s₀ (as ++ bs) i d := by
  obtain ⟨before, input, after, u, rfl, hbefore⟩ := h
  exact ⟨before, input, after ++ bs, u, by simp, hbefore⟩

namespace Sequence
variable {plan : Nat → Terms} {built : Nat → List UInt8 → Prop} {s s' : Sequence}

theorem sound_start (plan : Nat → Terms) (built : Nat → List UInt8 → Prop) (opening : Opening)
    (builder : Server.Builder) (memory : List UInt8) (again : Bool) :
    Sound plan built (.start plan opening builder memory again) where
  file := rfl
  wire := fun i d h => by cases h
  arrived := fun a h => by cases h
  sourced := .start _ _ _ _
  used := fun k d h => by rcases h with h | h <;> cases h

/-- The pass puts more on the wire if that counts as built, too. -/
theorem sound_server {input : Server.Input} (h : Sound plan built s)
    (hsent : ∀ d ∈ (Server.handlerTurn (plan s.index).order (plan s.index).server input
      s.server.handler).sent, built s.index d)
    (hs : s.step plan (.server input) = some s') : Sound plan built s' := by
  obtain ⟨server, hserver, hs⟩ := Option.bind_eq_some_iff.mp hs
  obtain ⟨-, -, rfl⟩ := Server.step_some hserver
  split at hs
  · cases hs
    have hwire : ∀ x, x ∈ s.past ++ (s.server.sent ++ (Server.handlerTurn (plan s.index).order
        (plan s.index).server input s.server.handler).sent).map (fun d => (s.index, d)) ↔
        x ∈ s.wire ∨ ∃ d ∈ (Server.handlerTurn (plan s.index).order (plan s.index).server input
          s.server.handler).sent, (s.index, d) = x := by
      intro x
      rw [List.map_append, ← List.append_assoc, List.mem_append, List.mem_map]
      rfl
    refine ⟨(handlerTurn_built (plan s.index).order input h.file).1, fun i d hd => ?_,
      fun a ha => ⟨(h.arrived a ha).1, (hwire _).mpr (.inl (h.arrived a ha).2)⟩, h.sourced, h.used⟩
    rcases (hwire _).mp hd with hold | ⟨e, he, heq⟩
    · exact h.wire i d hold
    · cases heq
      exact ⟨Nat.le_refl _, hsent _ he⟩
  · cases hs

theorem arrival_spec {sentIn : Nat} {action : GetAction} (h : s.Arrives sentIn action) :
    (∀ a ∈ s.arrival sentIn action, a.during = s.index ∧ a.sentIn = sentIn ∧
      (sentIn, a.bytes) ∈ s.wire) ∧
    ∀ (param : Client.Parameter) (old : List UInt8) (env : Env), action = .turn env →
      ∃ a ∈ s.arrival sentIn action, a.during = s.index ∧
        Shows param a.bytes (buffer param old env.recv) := by
  unfold Arrives at h
  unfold arrival
  split at h
  · split at h
    · rename_i env bytes hrecv
      refine ⟨fun a ha => ?_, fun param old env' henv => ?_⟩
      · rw [List.mem_singleton.mp ha]
        exact ⟨rfl, rfl, h⟩
      · cases henv
        rw [hrecv]
        exact ⟨_, List.mem_singleton_self _, rfl, List.prefix_append _ _⟩
    · exact h.elim
  · rename_i hturn
    refine ⟨fun a ha => ?_, fun param old env henv => absurd henv (hturn env)⟩
    cases ha

theorem sound_client {sentIn : Nat} {action : GetAction} (h : Sound plan built s)
    (hs : s.step plan (.client sentIn action) = some s') : Sound plan built s' := by
  change (if s.Arrives sentIn action then _ else _) = _ at hs
  split at hs
  · rename_i harrives
    obtain ⟨client, hclient, rfl⟩ := Option.map_eq_some_iff.mp hs
    obtain ⟨hnew, hshown⟩ := arrival_spec harrives
    have hold : ∀ a ∈ s.arrived, a ∈ s.arrived ++ s.arrival sentIn action := fun a ha =>
      List.mem_append_left _ ha
    refine ⟨h.file, h.wire, fun a ha => ?_, ?_, fun k d hd => ?_⟩
    · rcases List.mem_append.mp ha with ha | ha
      · exact h.arrived a ha
      · obtain ⟨hduring, rfl, hmem⟩ := hnew a ha
        exact ⟨hduring ▸ (h.wire _ _ hmem).1, hmem⟩
    · refine Get.Sourced.step (h.sourced.mono fun d => ?_) (fun env henv => ?_) hclient
      · rintro ⟨a, ha, hshows⟩
        exact ⟨a, hold a ha, hshows⟩
      · obtain ⟨a, ha, hshows⟩ := hshown (plan s.index).client s.client.net.localDatagram env henv
        exact ⟨a, List.mem_append_right _ ha, hshows⟩
    · have hused : (k, d) ∈ s.marked ∨ (k, d) ∈ s.written ∨ k = s.index ∧
          (s.client.marks action = some d ∨ s.client.writes action = some d) := by
        simp only [List.mem_append, List.mem_map, Option.mem_toList, Prod.mk.injEq] at hd
        rcases hd with (hd | ⟨e, he, rfl, rfl⟩) | (hd | ⟨e, he, rfl, rfl⟩)
        · exact .inl hd
        · exact .inr (.inr ⟨rfl, .inl he⟩)
        · exact .inr (.inl hd)
        · exact .inr (.inr ⟨rfl, .inr he⟩)
      have hfrom : ∃ a ∈ s.arrived, a.during = k ∧ Shows (plan k).client a.bytes d := by
        rcases hused with hd | hd | ⟨rfl, hd | hd⟩
        · exact h.used k d (.inl hd)
        · exact h.used k d (.inr hd)
        · exact h.sourced.marked hd
        · exact h.sourced.written_good hd
      obtain ⟨a, ha, hshows⟩ := hfrom
      exact ⟨a, hold a ha, hshows⟩
  · cases hs

theorem sound_next {opening : Opening} (h : Sound plan built s)
    (hs : s.step plan (.next opening) = some s') : Sound plan built s' := by
  change (if s.ended then _ else _) = _ at hs
  split at hs
  · cases hs
    have hsame : ∀ x, x ∈ s.wire ++ (([] : List (List UInt8)).map fun d => (s.index + 1, d)) ↔
        x ∈ s.wire := by
      intro x
      simp
    refine ⟨rfl, fun i d hd => ?_, fun a ha => ?_, .start _ _ _ _, h.used⟩
    · obtain ⟨hle, hbuilt⟩ := h.wire i d ((hsame _).mp hd)
      exact ⟨Nat.le_succ_of_le hle, hbuilt⟩
    · obtain ⟨hle, hmem⟩ := h.arrived a ha
      exact ⟨hle, (hsame _).mpr hmem⟩
  · cases hs

theorem sound_step {s₀ : Sequence} {as : List SequenceAction} {action : SequenceAction}
    (hrun : run (Sequence.step plan) s₀ as = some s) (h : Sound plan (BuiltIn plan s₀ as) s)
    (hs : s.step plan action = some s') : Sound plan (BuiltIn plan s₀ (as ++ [action])) s' := by
  have hmore : Sound plan (BuiltIn plan s₀ (as ++ [action])) s :=
    h.mono fun i d hd => hd.append [action]
  cases action with
  | server input =>
    refine sound_server hmore (fun d hd => ?_) hs
    exact ⟨as, input, [], s, rfl, hrun, rfl, hd, sent_built h.file hd⟩
  | client sentIn action => exact sound_client hmore hs
  | next opening => exact sound_next hmore hs

end Sequence

section Contamination
variable (plan : Nat → Terms) (opening : Opening) (builder : Server.Builder) (memory : List UInt8)
  (again : Bool)

/-- Every block that is marked or written comes from a datagram that arrived during its
transfer, and that the server had sent in a pass of the run, built from the file it had open in
that transfer or in one before it; in none before it if no datagram of an earlier transfer
arrived. -/
theorem blocks_from_sequence (as : List SequenceAction) (t : Sequence)
    (hrun : run (Sequence.step plan) (.start plan opening builder memory again) as = some t)
    (k : Nat) (d : List UInt8) (hused : (k, d) ∈ t.marked ∨ (k, d) ∈ t.written) :
    ∃ i bytes, ⟨k, i, bytes⟩ ∈ t.arrived ∧ (i, bytes) ∈ t.wire ∧ Shows (plan k).client bytes d ∧
      i ≤ k ∧ BuiltIn plan (.start plan opening builder memory again) as i bytes ∧
      ((∀ a ∈ t.arrived, a.during = k → a.sentIn = k) → i = k) := by
  have hsound : Sound plan (BuiltIn plan (.start plan opening builder memory again) as) t :=
    run_history (Sequence.sound_start plan _ opening builder memory again)
      (fun _ _ _ _ hbefore h hs => Sequence.sound_step hbefore h hs) hrun
  obtain ⟨⟨during, i, bytes⟩, ha, rfl, hshows⟩ := hsound.used k d hused
  obtain ⟨hle, hwire⟩ := hsound.arrived _ ha
  exact ⟨i, bytes, ha, hwire, hshows, hle, (hsound.wire i bytes hwire).2, fun hall => hall _ ha rfl⟩

end Contamination

def twoFiles : Nat → Terms
  | 0 => ⟨.little, ⟨1, 1, 0, 0, 1, 1, 1, 1, 15⟩, ⟨1, true, 0, 25⟩, [7]⟩
  | _ => ⟨.little, ⟨1, 1, 0, 0, 1, 1, 1, 1, 15⟩, ⟨1, true, 0, 25⟩, [9]⟩

def plainOpening : Opening := ⟨0, 0, 0, fun _ => List.replicate 7 0⟩

def firstBlock : List UInt8 := [0, 0, 0, 1, 0, 88, 7]

def storedAndWritten : List GetAction :=
  [.turn (.calm (.datagram firstBlock)), .reserve, .store, .confirm, .peek, .read, .accept (.wrote 1)]

def stoppedAndJoined : List GetAction :=
  [.pop, .requestStop .ok, .reserve, .store, .confirm, .peek, .read, .accept (.wrote 1), .join]

def firstTransfer : List SequenceAction :=
  .server .idle :: (storedAndWritten ++ stoppedAndJoined).map (.client 0) ++
    [.server ⟨0, .data Client.ttpRequestStop.encode, .ok, 0, 0, 0⟩]

def lateCopy : List SequenceAction :=
  firstTransfer ++ [.next plainOpening] ++ storedAndWritten.map (.client 0)

def twoFilesStart : Sequence :=
  .start twoFiles plainOpening ⟨0, ⟨[], 0⟩, []⟩ (List.replicate 12 0) false

theorem blocks_from_sequence_sample :
    ∃ t, run (Sequence.step twoFiles) twoFilesStart firstTransfer = some t ∧
      (0, firstBlock) ∈ t.written ∧ ∃ i bytes, ⟨0, i, bytes⟩ ∈ t.arrived ∧ (i, bytes) ∈ t.wire ∧
        Shows (twoFiles 0).client bytes firstBlock ∧ i ≤ 0 ∧
        BuiltIn twoFiles twoFilesStart firstTransfer i bytes ∧
        ((∀ a ∈ t.arrived, a.during = 0 → a.sentIn = 0) → i = 0) := by
  have hrun : ∃ t, run (Sequence.step twoFiles) twoFilesStart firstTransfer = some t ∧
      t.written = [(0, firstBlock)] := ⟨_, rfl, rfl⟩
  obtain ⟨t, ht, hwritten⟩ := hrun
  have hmem : (0, firstBlock) ∈ t.written := by
    rw [hwritten]
    exact List.mem_singleton_self _
  exact ⟨t, ht, hmem, blocks_from_sequence twoFiles plainOpening ⟨0, ⟨[], 0⟩, []⟩
    (List.replicate 12 0) false firstTransfer t ht 0 firstBlock (.inr hmem)⟩

/-- The second file is written with the block of the first, before the server has sent
any datagram for it. -/
theorem late_copy_written :
    ∃ t, run (Sequence.step twoFiles) twoFilesStart lateCopy = some t ∧ t.index = 1 ∧
      (1, firstBlock) ∈ t.marked ∧ (1, firstBlock) ∈ t.written ∧ t.client.file = [7] ∧
      ∀ bytes, (1, bytes) ∉ t.wire := by
  have hrun : ∃ t, run (Sequence.step twoFiles) twoFilesStart lateCopy = some t ∧ t.index = 1 ∧
      t.marked = [(0, firstBlock), (1, firstBlock)] ∧
      t.written = [(0, firstBlock), (1, firstBlock)] ∧ t.client.file = [7] ∧
      t.wire = [(0, firstBlock)] := ⟨_, rfl, rfl, rfl, rfl, rfl, rfl⟩
  obtain ⟨t, ht, hindex, hmarked, hwritten, hfile, hwire⟩ := hrun
  refine ⟨t, ht, hindex, ?_, ?_, hfile, fun bytes hmem => ?_⟩
  · simp [hmarked]
  · simp [hwritten]
  · simp [hwire] at hmem

end TsunamiUdp

import TsunamiUdp.Client.Lasting
import TsunamiUdp.Server.EndOfFile
import TsunamiUdp.Session.Correct

/-! A transfer in which only datagrams are lost: what stays true of both sides for as long
as the client is in its receive loop. -/
namespace TsunamiUdp
open Library Client Client.Ring

/-- The step breaks nothing: the control connection stays open, the server hears from the
client in time, `realloc` finds the memory, and the feedback does not divide by zero. -/
def Healthy (a : Agreement) (s : System) : SystemAction → Prop
  | .server input => input.read ≠ .closed ∧ input.read ≠ .failed ∧
      ¬Server.TimesOut a.server input s.server.handler
  | .client (.turn env) => (∀ size, env.alloc size = true) ∧
      turnKills a.client env s.client.net = false
  | .client _ => True

/-- A run of such steps leads from the one state to the other. -/
def Goes (a : Agreement) : System → System → Prop := ReachesAlong (System.step a) (Healthy a)

/-- Both sides of a transfer that has not been broken off. -/
structure Alive (a : Agreement) (s : System) : Prop where
  session : Session a s
  booked : Booked s.client.net.xfer
  provided : s.client.Provided a.client
  asked : s.client.phase.inLoop = true → ∀ r ∈ s.client.sent, r.requestType ≠ requestStop
  heard : (∀ r ∈ s.client.sent, r.requestType ≠ requestStop) → s.server.flow = .next
  stream : s.server.bytes <+: (records s.client.sent).flatten
  writes : s.client.disk = .exited → 0 ∈ s.client.stored

section Server
variable {a : Agreement}

theorem server_flow {requests : List Retransmission} {s s' : Server.Loop} {input : Server.Input}
    (hserving : Serving a requests s)
    (hsensible : ∀ r ∈ requests, Sensible a.server.blockCount r)
    (hstop : ∀ r ∈ requests, r.requestType ≠ requestStop)
    (hs : Server.Loop.step a.order a.server s input = some s')
    (hstream : s'.bytes <+: (records requests).flatten)
    (hclosed : input.read ≠ .closed) (hfailed : input.read ≠ .failed)
    (htime : ¬Server.TimesOut a.server input s.handler) : s'.flow = .next := by
  obtain ⟨hflow, hread, rfl⟩ := Server.step_some hs
  have hready := hserving.cut.ready hflow
  cases Server.handlerTurn_pass a.order a.server hready hread with
  | exited flow =>
    have hnone := (Server.handlerTurn_exit_iff a.order a.server input s.handler).mp flow
    cases hr : input.read with
    | closed => exact absurd hr hclosed
    | failed => exact absurd hr hfailed
    | data bytes =>
      rw [hr] at hnone
      cases hnone
    | nothing =>
      rw [hr] at hnone
      cases hnone
  | stopped complete stop =>
    rcases hserving.cut.decode records_width hflow hstream complete with hreport | ⟨_, hmem, hdecode⟩
    · rw [stop] at hreport
      cases hreport
    · obtain ⟨q, hq, rfl⟩ := List.mem_map.mp hmem
      rw [hdecode, Retransmission.decode_encode (hsensible q hq).fits] at stop
      exact absurd stop (hstop q hq)
  | requested _ _ flow => exact flow
  | transmitted _ flow =>
    rcases flow with hnext | htimeout
    · exact hnext
    · exact absurd (Server.timesOut_of_flow hready hread htimeout) htime

end Server

section Steps
variable {a : Agreement} {s t : System}

theorem alive_start (ipd : Rat) {datagram memory : List UInt8} {now : Int} {again : Bool}
    {onWireEstimate : Nat} {slots : Int → List UInt8}
    (hmemory : memory.length = sizeofRetransmission) :
    Alive a (.start a ipd datagram memory now again onWireEstimate slots) where
  session := session_start ipd hmemory
  booked := Booked.start a.narrow
  provided := trivial
  asked := fun _ r hr => by cases hr
  heard := fun _ => rfl
  stream := List.nil_prefix
  writes := fun h => by cases h

theorem provided_of_reliable {action : GetAction} (hreliable : Reliable a s.server.sent s.client action)
    (hhealthy : Healthy a s (.client action)) : action.Provided a.client s.client.net := by
  cases action with
  | turn env =>
    obtain ⟨hdelivers, -, hperiodic, -⟩ := hreliable
    refine ⟨⟨hhealthy.1, hperiodic⟩, ?_, hhealthy.2⟩
    unfold Delivers at hdelivers
    split at hdelivers
    · rename_i d hrecv
      exact ⟨d, hrecv⟩
    · exact hdelivers.elim
  | requestStop write => exact hreliable
  | _ => trivial

theorem alive_step (hwide : a.server.blockCount < 4294967295) {action : SystemAction}
    (h : Alive a s) (hhealthy : Healthy a s action) (hs : s.step a action = some t) : Alive a t := by
  have hsession := session_step hwide h.session hs
  cases action with
  | server input =>
    obtain ⟨server, hserver, hprefix, rfl⟩ := server_step hs
    refine ⟨hsession, h.booked, h.provided, h.asked, fun hstop => ?_, hprefix, h.writes⟩
    obtain ⟨hclosed, hfailed, htime⟩ := hhealthy
    exact server_flow h.session.serving h.session.sensible hstop hserver hprefix hclosed hfailed htime
  | client action =>
    obtain ⟨client, hclient, hreliable, rfl⟩ := client_step hs
    have hcalls := provided_of_reliable hreliable hhealthy
    have hinv := h.session.receiving.inv
    obtain ⟨more, hsent⟩ := Get.sent_step h.booked.tracked.counted hclient
    refine ⟨hsession, Get.booked_step a.lossless h.booked hclient,
      Get.provided_step a.lossless h.provided hcalls hclient, fun hloop => ?_, fun hstop => ?_, ?_,
      Get.exited_step hinv hclient (fun result slot d haction hread hnz => ?_) h.writes⟩
    · have hbefore := h.asked (Get.inLoop_before hclient hloop)
      rcases Get.asks_step h.booked.tracked.counted hclient with ⟨more, hsent, hmore⟩ | ⟨hstop, -⟩
      · intro r hr
        rw [hsent] at hr
        rcases List.mem_append.mp hr with hr | hr
        · exact hbefore r hr
        · exact (hmore r hr).goesOn
      · obtain ⟨write, rfl⟩ := hstop
        exact absurd hloop (Get.requestStop_leaves (Get.step_act hclient).2)
    · refine h.heard fun r hr => hstop r ?_
      rw [hsent]
      exact List.mem_append_left _ hr
    · dsimp only
      rw [hsent, records, List.map_append, List.flatten_append]
      exact h.stream.trans (List.prefix_append _ _)
    · cases haction
      exact hreliable.accepts hread hnz

theorem keeps_client {P : Get → Prop}
    (preserved : ∀ g action g', P g → g.step a.client action = some g' → P g') (hgoes : Goes a s t)
    (h : P s.client) : P t.client := by
  refine hgoes.keeps (P := fun u => P u.client) ?_ h
  intro u action v hu _ hs
  cases action with
  | server input =>
    obtain ⟨server, -, -, rfl⟩ := server_step hs
    exact hu
  | client action =>
    obtain ⟨client, hclient, -, rfl⟩ := client_step hs
    exact preserved u.client action client hu hclient

theorem alive_goes (hwide : a.server.blockCount < 4294967295) (h : Alive a s) (hgoes : Goes a s t) :
    Alive a t :=
  hgoes.keeps (fun _ _ _ h hok hs => alive_step hwide h hok hs) h

end Steps

end TsunamiUdp

import TsunamiUdp.Client.Main
import TsunamiUdp.Library.Runs

/-! The command loop of the client: its session, and what becomes of the control connections. -/
namespace TsunamiUdp.Client
open Library

inductive Attempt
  | noSocket
  | optionFails
  | unreachable
  | connected
deriving DecidableEq

/-- What the calls of one command return. `named` and `allocated` say that there is memory for the
name of the server and for the session, `addresses` is what `getaddrinfo` finds, and `exits` that
`command_get` ends the process. -/
structure CommandEnv where
  named : Bool
  allocated : Bool
  addresses : Option (List Attempt)
  stream : Bool
  negotiated : Bool
  authenticated : Bool
  exits : Bool

/-- A session object; `server` is the stream over the socket of that number. -/
structure SessionObject where
  server : Option Nat

/-- The command loop. `session` is the pointer; freed objects are `none`, and `sockets` says of each
socket whether it is open. -/
structure Interpreter where
  session : Option Nat
  objects : List (Option SessionObject)
  sockets : List Bool
  exited : Bool

inductive InputLine
  | line (words : List (List UInt8)) (env : CommandEnv)
  | endOfInput

namespace Interpreter

def start : Interpreter := ⟨none, [], [], false⟩

/-! Accesses to memory and to streams; `none` is an access to what is no longer there. -/

def load (s : Interpreter) (p : Nat) : Option SessionObject := s.objects[p]?.join

def free (s : Interpreter) (p : Nat) : Option Interpreter :=
  (s.load p).map fun _ => { s with objects := s.objects.set p none }

def setServer (s : Interpreter) (p : Nat) (server : Option Nat) : Option Interpreter :=
  (s.load p).map fun _ => { s with objects := s.objects.set p (some ⟨server⟩) }

def use (s : Interpreter) (fd : Nat) : Option Interpreter :=
  if s.sockets[fd]? = some true then some s else none

def close (s : Interpreter) (fd : Nat) : Option Interpreter :=
  if s.sockets[fd]? = some true then some { s with sockets := s.sockets.set fd false } else none

/-- The loop of `create_tcp_socket`; a socket that could not be connected stays open. -/
def connectTo : List Attempt → List Bool → List Bool × Option Nat
  | [], sockets => (sockets, none)
  | .noSocket :: rest, sockets => connectTo rest sockets
  | .optionFails :: rest, sockets => connectTo rest (sockets ++ [false])
  | .unreachable :: rest, sockets => connectTo rest (sockets ++ [true])
  | .connected :: _, sockets => (sockets ++ [true], some sockets.length)

def createTcpSocket (env : CommandEnv) (s : Interpreter) : Interpreter × Option Nat :=
  match env.addresses with
  | none => (s, none)
  | some attempts =>
    let (sockets, fd) := connectTo attempts s.sockets
    ({ s with sockets := sockets }, fd)

def abandon (s : Interpreter) (p fd : Nat) : Option Interpreter :=
  (s.close fd).bind fun s => (s.free p).map fun s => { s with session := none }

def openSession (env : CommandEnv) (s : Interpreter) (p fd : Nat) : Option Interpreter :=
  if env.stream = false then s.abandon p fd
  else (s.setServer p (some fd)).bind fun s =>
    (s.use fd).bind fun s =>
      if env.negotiated = false then s.abandon p fd
      else (s.use fd).bind fun s =>
        if env.authenticated = false then s.abandon p fd
        else some { s with session := some p }

/-- `command_connect`, whose result becomes the session of the loop. -/
def commandConnect (env : CommandEnv) (renamed : Bool) (s : Interpreter) : Option Interpreter :=
  if renamed = true ∧ env.named = false then some { s with session := none }
  else if env.allocated = false then some { s with exited := true }
  else
    let p := s.objects.length
    match createTcpSocket env { s with objects := s.objects ++ [some ⟨none⟩] } with
    | (s, none) => some { s with session := none }
    | (s, some fd) => openSession env s p fd

def server (s : Interpreter) : Option (Option (Nat × Nat)) :=
  match s.session with
  | none => some none
  | some p => (s.load p).map fun object => object.server.map fun fd => (p, fd)

def commandClose (s : Interpreter) : Option Interpreter :=
  s.server.bind fun
    | none => some s
    | some (p, fd) => (s.close fd).bind fun s => s.setServer p none

def commandTalk (exits : Bool) (s : Interpreter) : Option Interpreter :=
  s.server.bind fun
    | none => some s
    | some (_, fd) => (s.use fd).map fun s => { s with exited := exits }

def commandQuit (s : Interpreter) : Option Interpreter :=
  s.server.bind fun
    | none => some { s with exited := true }
    | some (_, fd) => (s.close fd).map fun s => { s with exited := true }

def execute (env : CommandEnv) (d : Dispatch) (s : Interpreter) : Option Interpreter :=
  match d.name with
  | .close => s.commandClose
  | .connect => s.commandConnect env (d.args ≠ [])
  | .get => if d.args = [] then some s else s.commandTalk env.exits
  | .dir => s.commandTalk false
  | .help | .set => some s
  | .quit | .exit | .bye => s.commandQuit

/-- A turn of the loop; `none` is an access to a freed object or to a closed stream. -/
def step (s : Interpreter) (line : InputLine) : Option Interpreter :=
  if s.exited then some s
  else match line with
    | .endOfInput => some { s with exited := true }
    | .line words env =>
      match dispatch words with
      | none => some s
      | some d => s.execute env d

def connected (s : Interpreter) : Bool :=
  match s.server with
  | some (some (_, fd)) => s.sockets.getD fd false
  | _ => false

def strays (env : CommandEnv) : Nat :=
  ((env.addresses.getD []).takeWhile (· ≠ .connected)).count .unreachable

def openSockets (s : Interpreter) : Nat := s.sockets.count true

/-- The sockets that stay open although nothing refers to them: that of the session which a new
one replaces, and those that could not be connected. -/
def loses (s : Interpreter) : InputLine → Nat
  | .endOfInput => 0
  | .line words env =>
    if s.exited then 0
    else match dispatch words with
      | some ⟨.connect, args⟩ =>
        if args ≠ [] ∧ env.named = false then s.connected.toNat
        else if env.allocated = false then 0
        else s.connected.toNat + strays env
      | _ => 0

def lost : Interpreter → List InputLine → Nat
  | _, [] => 0
  | s, line :: lines =>
    s.loses line + ((s.step line).map fun s => lost s lines).getD 0

/-- The pointer is to a session that is still there, and no two sessions share a stream. -/
structure Sound (s : Interpreter) : Prop where
  pointer : ∀ p, s.session = some p → ∃ object, s.load p = some object
  opened : ∀ p object fd, s.load p = some object → object.server = some fd → s.sockets[fd]? = some true
  apart : ∀ p q object object' fd, s.load p = some object → s.load q = some object' →
    object.server = some fd → object'.server = some fd → p = q

structure Accounts (s t : Interpreter) (lost : Nat) : Prop where
  sound : t.exited = false → Sound t
  count : t.openSockets + s.connected.toNat = s.openSockets + t.connected.toNat + lost

section Steps
variable {s t : Interpreter} {env : CommandEnv} {p fd : Nat}

theorem sound_start : Sound start := by
  refine ⟨fun p hp => ?_, fun p object fd h => ?_, fun p q object object' fd h => ?_⟩
  · cases hp
  · cases h
  · cases h

theorem load_set (s : Interpreter) {p : Nat} {object : Option SessionObject} (hp : p < s.objects.length)
    (q : Nat) : ({ s with objects := s.objects.set p object } : Interpreter).load q =
      if q = p then object else s.load q := by
  unfold load
  rw [List.getElem?_set]
  by_cases hq : p = q
  · rw [if_pos hq, if_pos hp, if_pos hq.symm]
    rfl
  · rw [if_neg hq, if_neg (Ne.symm hq)]

theorem load_lt {object : SessionObject} (h : s.load p = some object) : p < s.objects.length := by
  by_contra hge
  unfold load at h
  rw [List.getElem?_eq_none (by omega)] at h
  cases h

theorem Sound.grow {object : Option SessionObject} (h : Sound s)
    (hobjects : t.objects = s.objects ++ [object])
    (hnew : ∀ o (fd : Nat), object = some o → o.server = some fd →
      s.sockets.length ≤ fd ∧ t.sockets[fd]? = some true)
    (hsockets : ∀ fd : Nat, s.sockets[fd]? = some true → t.sockets[fd]? = some true)
    (hsession : ∀ p, t.session = some p → p = s.objects.length ∧ object.isSome) : Sound t := by
  have hload : ∀ q, t.load q = if q < s.objects.length then s.load q
      else if q = s.objects.length then object else none := by
    intro q
    unfold load
    rw [hobjects]
    split
    · rw [List.getElem?_append_left (by assumption)]
    · rename_i hge
      rw [List.getElem?_append_right (by omega)]
      split
      · rename_i heq
        rw [heq, Nat.sub_self]
        rfl
      · rw [List.getElem?_eq_none (by rw [List.length_singleton]; omega)]
        rfl
  have hcases : ∀ q o, t.load q = some o →
      s.load q = some o ∨ (q = s.objects.length ∧ object = some o) := by
    intro q o hq
    rw [hload] at hq
    split at hq
    · exact .inl hq
    · split at hq
      · exact .inr ⟨by assumption, hq⟩
      · cases hq
  have hold : ∀ q o fd, s.load q = some o → o.server = some fd → fd < s.sockets.length := by
    intro q o fd hq hfd
    by_contra hge
    have htrue := h.opened q o fd hq hfd
    rw [List.getElem?_eq_none (by omega)] at htrue
    cases htrue
  refine ⟨fun q hq => ?_, fun q o fd hq hfd => ?_, fun q r o o' fd hq hr hfd hfd' => ?_⟩
  · obtain ⟨rfl, hsome⟩ := hsession q hq
    obtain ⟨o, rfl⟩ := Option.isSome_iff_exists.mp hsome
    refine ⟨o, ?_⟩
    rw [hload, if_neg (by omega), if_pos rfl]
  · rcases hcases q o hq with hq | ⟨-, hq⟩
    · exact hsockets fd (h.opened q o fd hq hfd)
    · exact (hnew o fd hq hfd).2
  · rcases hcases q o hq with hq | ⟨hq, heq⟩ <;> rcases hcases r o' hr with hr | ⟨hr, heq'⟩
    · exact h.apart q r o o' fd hq hr hfd hfd'
    · have hlt := hold q o fd hq hfd
      have hge := (hnew o' fd heq' hfd').1
      omega
    · have hlt := hold r o' fd hr hfd'
      have hge := (hnew o fd heq hfd).1
      omega
    · rw [hq, hr]

theorem connectTo_spec (attempts : List Attempt) (sockets : List Bool) :
    ∃ extra, (connectTo attempts sockets).1 = sockets ++ extra ∧
      extra.count true = (attempts.takeWhile (· ≠ .connected)).count .unreachable +
        (connectTo attempts sockets).2.isSome.toNat ∧
      ∀ fd, (connectTo attempts sockets).2 = some fd →
        sockets.length ≤ fd ∧ (sockets ++ extra)[fd]? = some true := by
  induction attempts generalizing sockets with
  | nil => exact ⟨[], (List.append_nil _).symm, rfl, fun fd hfd => by cases hfd⟩
  | cons attempt rest ih =>
    cases attempt with
    | noSocket =>
      obtain ⟨extra, heq, hcount, hfd⟩ := ih sockets
      exact ⟨extra, heq, by simpa [connectTo] using hcount, hfd⟩
    | optionFails =>
      obtain ⟨extra, heq, hcount, hfd⟩ := ih (sockets ++ [false])
      refine ⟨false :: extra, by rw [connectTo, heq]; simp, ?_, fun fd h => ?_⟩
      · simpa [connectTo] using hcount
      · obtain ⟨hle, htrue⟩ := hfd fd h
        rw [List.length_append] at hle
        exact ⟨by omega, by simpa using htrue⟩
    | unreachable =>
      obtain ⟨extra, heq, hcount, hfd⟩ := ih (sockets ++ [true])
      refine ⟨true :: extra, by rw [connectTo, heq]; simp, ?_, fun fd h => ?_⟩
      · simp [connectTo, hcount]
        omega
      · obtain ⟨hle, htrue⟩ := hfd fd h
        rw [List.length_append] at hle
        exact ⟨by omega, by simpa using htrue⟩
    | connected =>
      refine ⟨[true], rfl, by simp [connectTo], fun fd h => ?_⟩
      cases h
      exact ⟨le_rfl, by simp⟩

theorem count_close {sockets : List Bool} (h : sockets[fd]? = some true) :
    (sockets.set fd false).count true + 1 = sockets.count true := by
  obtain ⟨hlt, htrue⟩ := List.getElem?_eq_some_iff.mp h
  have hpos : 0 < sockets.count true := List.count_pos_iff.mpr (List.mem_of_getElem? h)
  rw [List.count_set hlt, htrue]
  simp
  omega

theorem server_cases (h : Sound s) :
    (s.server = some none ∧ s.connected = false) ∨
      ∃ p object fd, s.session = some p ∧ s.load p = some object ∧ object.server = some fd ∧
        s.server = some (some (p, fd)) ∧ s.sockets[fd]? = some true ∧ s.connected = true := by
  cases hp : s.session with
  | none =>
    have hserver : s.server = some none := by
      unfold server
      rw [hp]
    exact .inl ⟨hserver, by rw [connected, hserver]⟩
  | some p =>
    obtain ⟨object, hobject⟩ := h.pointer p hp
    have hserver : s.server = some (object.server.map fun fd => (p, fd)) := by
      unfold server
      rw [hp]
      dsimp only
      rw [hobject]
      rfl
    cases hfd : object.server with
    | none =>
      rw [hfd] at hserver
      exact .inl ⟨hserver, by rw [connected, hserver]; rfl⟩
    | some fd =>
      have htrue := h.opened p object fd hobject hfd
      rw [hfd] at hserver
      refine .inr ⟨p, object, fd, rfl, hobject, hfd, hserver, htrue, ?_⟩
      rw [connected, hserver]
      change s.sockets.getD fd false = true
      rw [List.getD_eq_getElem?_getD, htrue]
      rfl

theorem accounts_same (h : Sound s) : Accounts s s 0 := ⟨fun _ => h, rfl⟩

theorem Sound.closed {object : SessionObject} (h : Sound s) (hobject : s.load p = some object)
    (hfd : object.server = some fd) (hsockets : t.sockets = s.sockets.set fd false)
    (hobjects : t.objects = s.objects.set p (some ⟨none⟩)) (hsession : t.session = s.session) :
    Sound t := by
  have hload : ∀ q, t.load q = if q = p then some ⟨none⟩ else s.load q := by
    intro q
    rw [← load_set s (load_lt hobject) q, load, load, hobjects]
  have hother : ∀ q o gd, t.load q = some o → o.server = some gd → q ≠ p ∧ s.load q = some o := by
    intro q o gd hq hgd
    rw [hload] at hq
    split at hq
    · cases hq
      cases hgd
    · exact ⟨by assumption, hq⟩
  refine ⟨fun q hq => ?_, fun q o gd hq hgd => ?_, fun q r o o' gd hq hr hgd hgd' => ?_⟩
  · rw [hsession] at hq
    obtain ⟨o, ho⟩ := h.pointer q hq
    rw [hload]
    split
    · exact ⟨_, rfl⟩
    · exact ⟨o, ho⟩
  · obtain ⟨hne, hold⟩ := hother q o gd hq hgd
    have hapart : fd ≠ gd := by
      rintro rfl
      exact hne (h.apart q p o object fd hold hobject hgd hfd)
    rw [hsockets, List.getElem?_set_ne hapart]
    exact h.opened q o gd hold hgd
  · exact h.apart q r o o' gd (hother q o gd hq hgd).2 (hother r o' gd hr hgd').2 hgd hgd'

theorem commandClose_accounts (h : Sound s) : ∃ t, s.commandClose = some t ∧ Accounts s t 0 := by
  rcases server_cases h with ⟨hserver, -⟩ | ⟨p, object, fd, hp, hobject, hfd, hserver, htrue, hconn⟩
  · exact ⟨s, by rw [commandClose, hserver]; rfl, accounts_same h⟩
  · let t : Interpreter :=
      { s with sockets := s.sockets.set fd false, objects := s.objects.set p (some ⟨none⟩) }
    have hsound : Sound t := h.closed hobject hfd rfl rfl rfl
    have hempty : t.load p = some ⟨none⟩ :=
      (load_set s (load_lt hobject) p).trans (if_pos rfl)
    have hlast : t.connected = false := by
      rcases server_cases hsound with ⟨-, hconn'⟩ | ⟨q, o, gd, hq, ho, hgd, -⟩
      · exact hconn'
      · rw [show t.session = some p from hp] at hq
        cases hq
        rw [hempty] at ho
        cases ho
        cases hgd
    refine ⟨t, ?_, fun _ => hsound, ?_⟩
    · rw [commandClose, hserver, Option.bind_some]
      dsimp only
      rw [close, if_pos htrue, Option.bind_some, setServer]
      exact congrArg (Option.map _) hobject
    · rw [hconn, hlast]
      exact count_close htrue

theorem commandTalk_accounts (h : Sound s) (exits : Bool) :
    ∃ t, s.commandTalk exits = some t ∧ Accounts s t 0 := by
  rcases server_cases h with ⟨hserver, -⟩ | ⟨p, object, fd, -, -, -, hserver, htrue, -⟩
  · exact ⟨s, by rw [commandTalk, hserver]; rfl, accounts_same h⟩
  · refine ⟨{ s with exited := exits }, ?_, fun _ => ⟨h.pointer, h.opened, h.apart⟩, rfl⟩
    rw [commandTalk, hserver, Option.bind_some]
    dsimp only
    rw [use, if_pos htrue]
    rfl

theorem commandQuit_accounts (h : Sound s) : ∃ t, s.commandQuit = some t ∧ Accounts s t 0 := by
  rcases server_cases h with ⟨hserver, -⟩ | ⟨p, object, fd, hp, hobject, hfd, hserver, htrue, hconn⟩
  · exact ⟨{ s with exited := true }, by rw [commandQuit, hserver]; rfl, fun hlive => (by cases hlive),
      rfl⟩
  · refine ⟨{ s with sockets := s.sockets.set fd false, exited := true }, ?_,
      fun hlive => (by cases hlive), ?_⟩
    · rw [commandQuit, hserver, Option.bind_some]
      dsimp only
      rw [close, if_pos htrue]
      rfl
    · have hserver' : server { s with sockets := s.sockets.set fd false, exited := true } =
          some (some (p, fd)) := hserver
      have hlast : connected { s with sockets := s.sockets.set fd false, exited := true } = false := by
        rw [connected, hserver']
        change (s.sockets.set fd false).getD fd false = false
        obtain ⟨hlt, -⟩ := List.getElem?_eq_some_iff.mp htrue
        rw [List.getD_eq_getElem?_getD, List.getElem?_set_self hlt]
        rfl
      rw [hconn, hlast]
      exact count_close htrue

theorem load_last (s : Interpreter) (object : Option SessionObject) :
    ({ s with objects := s.objects ++ [object] } : Interpreter).load s.objects.length = object := by
  unfold load
  rw [List.getElem?_concat_length]
  rfl

@[simp] theorem set_last {α : Type*} (l : List α) (a b : α) : (l ++ [a]).set l.length b = l ++ [b] := by
  rw [List.set_append_right _ _ le_rfl, Nat.sub_self]
  rfl

theorem abandon_eq (s : Interpreter) (object : SessionObject) (htrue : s.sockets[fd]? = some true) :
    abandon { s with objects := s.objects ++ [some object] } s.objects.length fd =
      some { s with
        objects := s.objects ++ [none]
        sockets := s.sockets.set fd false
        session := none } := by
  have hload := load_last { s with sockets := s.sockets.set fd false } (some object)
  unfold abandon close
  rw [if_pos htrue, Option.bind_some]
  unfold free
  rw [hload, Option.map_some, Option.map_some]
  dsimp only
  rw [set_last]

theorem openSession_eq (s : Interpreter) (env : CommandEnv) (htrue : s.sockets[fd]? = some true) :
    openSession env { s with objects := s.objects ++ [some ⟨none⟩] } s.objects.length fd =
      some (if env.stream ∧ env.negotiated ∧ env.authenticated then
        { s with objects := s.objects ++ [some ⟨some fd⟩], session := some s.objects.length }
      else { s with
        objects := s.objects ++ [none]
        sockets := s.sockets.set fd false
        session := none }) := by
  have hset : setServer { s with objects := s.objects ++ [some ⟨none⟩] } s.objects.length (some fd) =
      some { s with objects := s.objects ++ [some ⟨some fd⟩] } := by
    unfold setServer
    rw [load_last, Option.map_some]
    dsimp only
    rw [set_last]
  have huse : ∀ objects, use { s with objects := objects } fd = some { s with objects := objects } :=
    fun objects => if_pos htrue
  unfold openSession
  by_cases hstream : env.stream = false
  · rw [if_pos hstream, abandon_eq s _ htrue, if_neg (by simp [hstream])]
  · rw [if_neg hstream, hset, Option.bind_some, huse, Option.bind_some]
    by_cases hnegotiated : env.negotiated = false
    · rw [if_pos hnegotiated, abandon_eq s _ htrue, if_neg (by simp [hnegotiated])]
    · rw [if_neg hnegotiated, huse, Option.bind_some]
      by_cases hauthenticated : env.authenticated = false
      · rw [if_pos hauthenticated, abandon_eq s _ htrue, if_neg (by simp [hauthenticated])]
      · rw [if_neg hauthenticated, if_pos (by simp [hstream, hnegotiated, hauthenticated])]

theorem createTcpSocket_spec (env : CommandEnv) (s : Interpreter) :
    ∃ extra fd, createTcpSocket env s = ({ s with sockets := s.sockets ++ extra }, fd) ∧
      extra.count true = strays env + fd.isSome.toNat ∧
      ∀ n, fd = some n → s.sockets.length ≤ n ∧ (s.sockets ++ extra)[n]? = some true := by
  unfold createTcpSocket strays
  cases env.addresses with
  | none => exact ⟨[], none, by rw [List.append_nil], rfl, fun n hn => (by cases hn)⟩
  | some attempts =>
    obtain ⟨extra, hsockets, hcount, hfd⟩ := connectTo_spec attempts s.sockets
    refine ⟨extra, (connectTo attempts s.sockets).2, ?_, hcount, hfd⟩
    rw [← hsockets]

theorem connected_none (h : t.session = none) : t.connected = false := by
  unfold connected server
  rw [h]

theorem accounts_refused (h : Sound s) {object : Option SessionObject} {sockets : List Bool} {n : Nat}
    (hobject : ∀ o, object = some o → o.server = none)
    (hsockets : ∀ i : Nat, s.sockets[i]? = some true → sockets[i]? = some true)
    (hcount : sockets.count true = s.openSockets + n) :
    Accounts s { s with objects := s.objects ++ [object], sockets := sockets, session := none }
      (s.connected.toNat + n) := by
  refine ⟨fun _ => h.grow rfl (fun o fd ho hfd => ?_) hsockets fun p hp => (by cases hp), ?_⟩
  · rw [hobject o ho] at hfd
    cases hfd
  · have hgone : connected
        { s with objects := s.objects ++ [object], sockets := sockets, session := none } = false :=
      connected_none rfl
    rw [hgone]
    change sockets.count true + _ = _
    rw [hcount]
    dsimp only [Bool.toNat_false]
    omega

theorem accounts_connected (h : Sound s) {extra : List Bool} {n : Nat} (hfresh : s.sockets.length ≤ fd)
    (htrue : (s.sockets ++ extra)[fd]? = some true) (hcount : extra.count true = n + 1) :
    Accounts s { s with
      objects := s.objects ++ [some ⟨some fd⟩]
      sockets := s.sockets ++ extra
      session := some s.objects.length } (s.connected.toNat + n) := by
  have hold : ∀ i : Nat, s.sockets[i]? = some true → (s.sockets ++ extra)[i]? = some true := by
    intro i hi
    obtain ⟨hlt, -⟩ := List.getElem?_eq_some_iff.mp hi
    rw [List.getElem?_append_left hlt]
    exact hi
  refine ⟨fun _ => h.grow rfl (fun o gd ho hgd => ?_) hold fun p hp => ?_, ?_⟩
  · cases ho
    cases hgd
    exact ⟨hfresh, htrue⟩
  · cases hp
    exact ⟨rfl, rfl⟩
  · have hconn : connected { s with
        objects := s.objects ++ [some ⟨some fd⟩]
        sockets := s.sockets ++ extra
        session := some s.objects.length } = true := by
      have hload := load_last { s with sockets := s.sockets ++ extra, session := some s.objects.length }
        (some ⟨some fd⟩)
      unfold connected server
      dsimp only at hload ⊢
      rw [hload]
      change (s.sockets ++ extra).getD fd false = true
      rw [List.getD_eq_getElem?_getD, htrue]
      rfl
    rw [hconn]
    change (s.sockets ++ extra).count true + _ = _
    rw [List.count_append, hcount]
    dsimp only [Bool.toNat_true, openSockets]
    omega

theorem commandConnect_accounts (h : Sound s) (env : CommandEnv) (renamed : Bool) :
    ∃ t, s.commandConnect env renamed = some t ∧ Accounts s t
      (if renamed = true ∧ env.named = false then s.connected.toNat
      else if env.allocated = false then 0 else s.connected.toNat + strays env) := by
  unfold commandConnect
  by_cases hnamed : renamed = true ∧ env.named = false
  · rw [if_pos hnamed, if_pos hnamed]
    have hgone : connected { s with session := none } = false := connected_none rfl
    refine ⟨_, rfl, fun _ => ⟨fun p hp => (by cases hp), h.opened, h.apart⟩, ?_⟩
    rw [hgone]
    rfl
  · rw [if_neg hnamed, if_neg hnamed]
    by_cases hallocated : env.allocated = false
    · rw [if_pos hallocated, if_pos hallocated]
      exact ⟨_, rfl, fun hlive => (by cases hlive), rfl⟩
    · rw [if_neg hallocated, if_neg hallocated]
      obtain ⟨extra, fd, hsocket, hcount, hfresh⟩ :=
        createTcpSocket_spec env { s with objects := s.objects ++ [some ⟨none⟩] }
      have hold : ∀ i : Nat, s.sockets[i]? = some true → (s.sockets ++ extra)[i]? = some true := by
        intro i hi
        obtain ⟨hlt, -⟩ := List.getElem?_eq_some_iff.mp hi
        rw [List.getElem?_append_left hlt]
        exact hi
      dsimp only
      rw [hsocket]
      cases fd with
      | none =>
        exact ⟨_, rfl, accounts_refused h (fun o ho => by cases ho; rfl) hold
          (by rw [List.count_append, hcount]; rfl)⟩
      | some fd =>
        obtain ⟨hle, htrue⟩ := hfresh fd rfl
        refine ⟨_, openSession_eq { s with sockets := s.sockets ++ extra } env htrue, ?_⟩
        split
        · exact accounts_connected h hle htrue hcount
        · have hclosed := count_close htrue
          rw [List.count_append, hcount] at hclosed
          refine accounts_refused h (fun o ho => by cases ho) (fun i hi => ?_) ?_
          · obtain ⟨hlt, -⟩ := List.getElem?_eq_some_iff.mp hi
            have hle : s.sockets.length ≤ fd := hle
            rw [List.getElem?_set_ne (by omega)]
            exact hold i hi
          · dsimp only [Option.isSome_some, Bool.toNat_true, openSockets] at hclosed ⊢
            omega

theorem step_accounts (h : s.exited = false → Sound s) (line : InputLine) :
    ∃ t, s.step line = some t ∧ Accounts s t (s.loses line) := by
  unfold step loses
  cases hexited : s.exited with
  | true =>
    have hsame : Accounts s s 0 := ⟨h, rfl⟩
    cases line with
    | endOfInput => exact ⟨s, rfl, hsame⟩
    | line words env => exact ⟨s, rfl, hsame⟩
  | false =>
    have h := h hexited
    cases line with
    | endOfInput => exact ⟨{ s with exited := true }, rfl, fun hlive => (by cases hlive), rfl⟩
    | line words env =>
      dsimp only
      cases dispatch words with
      | none => exact ⟨s, rfl, accounts_same h⟩
      | some d =>
        obtain ⟨name, args⟩ := d
        unfold execute
        cases name with
        | connect =>
          obtain ⟨t, ht, haccounts⟩ := commandConnect_accounts h env (decide (args ≠ []))
          refine ⟨t, ht, ?_⟩
          simpa using haccounts
        | close => exact commandClose_accounts h
        | get =>
          cases args with
          | nil => exact ⟨s, rfl, accounts_same h⟩
          | cons file rest => exact commandTalk_accounts h env.exits
        | dir => exact commandTalk_accounts h false
        | help => exact ⟨s, rfl, accounts_same h⟩
        | set => exact ⟨s, rfl, accounts_same h⟩
        | quit => exact commandQuit_accounts h
        | exit => exact commandQuit_accounts h
        | bye => exact commandQuit_accounts h

end Steps

/-- Whatever is typed and however the calls end, the client never touches a freed session or a
closed stream. The control connections that are open are that of the session, and those which
were lost when a `connect` replaced their session or found an address out of reach. -/
theorem connections_accounted (lines : List InputLine) :
    ∃ t, run step start lines = some t ∧
      t.openSockets = t.connected.toNat + lost start lines := by
  have hrun : ∀ s : Interpreter, (s.exited = false → Sound s) → ∃ t, run step s lines = some t ∧
      t.openSockets + s.connected.toNat = s.openSockets + t.connected.toNat + lost s lines := by
    induction lines with
    | nil => exact fun s _ => ⟨s, rfl, rfl⟩
    | cons line lines ih =>
      intro s h
      obtain ⟨u, hu, hsound, hcount⟩ := step_accounts h line
      obtain ⟨t, ht, htotal⟩ := ih u hsound
      refine ⟨t, ?_, ?_⟩
      · rw [run_cons, hu]
        exact ht
      · rw [lost, hu]
        dsimp only [Option.map_some, Option.getD_some]
        omega
  obtain ⟨t, ht, hcount⟩ := hrun start fun _ => sound_start
  refine ⟨t, ht, ?_⟩
  have hopen : start.openSockets = 0 := rfl
  have hnone : start.connected.toNat = 0 := rfl
  omega

/-- The second `connect` takes the place of the first, whose connection stays open. -/
example :
    let reached : CommandEnv := ⟨true, true, some [.connected], true, true, true, false⟩
    lost start [.line [CommandName.connect.text] reached, .line [CommandName.connect.text] reached] = 1 := by
  decide

end Interpreter

end TsunamiUdp.Client

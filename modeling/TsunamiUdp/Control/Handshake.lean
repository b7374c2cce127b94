import TsunamiUdp.Control.InStep

/-! The handshake of `get *`: where it can end with both sides waiting for each other. -/
namespace TsunamiUdp.Control
open Library

/-- The client reads the sizes, the list or the failure byte. It leaves these places when
the byte has come or when it requests the first file. -/
def ClientPlace.Handshaking : ClientPlace → Prop
  | .starSizes | .starFails | .starNames _ _ => True
  | _ => False

instance : (client : ClientPlace) → Decidable client.Handshaking
  | .starSizes | .starFails | .starNames _ _ => isTrue trivial
  | .prompt | .dirCount | .dirLines _ | .requested _ | .described _ _ | .opening _ | .binding _
  | .receiving _ => isFalse id

def ClientPlace.Reading : ClientPlace → Prop
  | .prompt | .opening _ | .binding _ | .receiving _ => False
  | _ => True

def Place.Reading : Place → Prop
  | .transmit _ | .ended => False
  | _ => True

/-- Each side is in front of a read that the bytes from the other side do not complete. -/
structure Connection.Deadlock (config : Config) (s : Connection) : Prop where
  clientReads : s.client.Reading
  clientWaits : ∀ action, s.client.step s.down action = none
  serverReads : s.server.place.Reading
  serverWaits : ∀ action, s.server.step config s.up action = none

def Connection.askAll (server : ServerSide) : Connection where
  client := .starSizes
  server := server.at .filename
  up := bytesOf [lineItem allFiles]
  down := []
  wrote := [lineItem allFiles]
  read := []

def InHandshake (config : Config) (s : Connection) (as : List Action) : Prop :=
  Along (Connection.step config) (fun s _ => s.client.Handshaking) s as

/-- The bytes in both directions, wherever the two sides are, if an empty list comes from
a program. -/
inductive Exchanges (config : Config) : ClientPlace → Place → List UInt8 → List UInt8 → Prop
  | asked : Exchanges config .starSizes .filename (bytesOf [lineItem allFiles]) []
  | sized {names : List (List UInt8)} (narrow : names.length < 65536)
      (hooked : names = [] → config.hook = true) :
      Exchanges config .starSizes (.gotSize names) [] (sizesReply names)
  | gotNoSize (hooked : config.hook = true) :
      Exchanges config .starFails (.gotSize []) (bytesOf [gotSizeItem]) []
  | gotSize {names : List (List UInt8)} (some : names ≠ []) :
      Exchanges config (.starNames names.length []) (.gotSize names) (bytesOf [gotSizeItem]) []
  | listed {left : Nat} {names : List (List UInt8)} {down : List UInt8} (more : 0 < left)
      (lines : left ≤ down.countP endsLine) : Exchanges config (.starNames left names) .gotList [] down
  | answered {place : Place} (place_eq : place = .filename ∨ place = .parameters parameterFields)
      (answer : UInt8) : Exchanges config .starFails place [] [answer]
  | ended {place : Place} {up down : List UInt8} : Exchanges config .prompt place up down
  | requested {rest : List (List UInt8)} {ahead : List Item} {down : List UInt8} :
      Exchanges config (.requested rest) .gotList (bytesOf (gotListItem :: ahead)) down

section Exchange
variable {config : Config} {client : ClientPlace} {side : ServerSide} {up down : List UInt8}

theorem strings_countP (names : List (List UInt8)) : names.length ≤ (strings names).countP endsLine := by
  induction names with
  | nil => exact Nat.le_refl 0
  | cons name names ih =>
    have hend : endsLine 0 = true := by decide
    rw [strings_cons, List.countP_append, List.countP_cons_of_pos hend, List.length_cons]
    omega

theorem ServerSide.waits (hplace : side.place.Reading) (action : ServerAction) :
    side.step config [] action = none := by
  cases action with
  | readFilename listing file =>
    simp only [ServerSide.step]
    split
    · unfold readFilename
      split <;> rfl
    · rfl
  | pass input =>
    simp only [ServerSide.step]
    split
    · rename_i hloop
      rw [hloop] at hplace
      exact hplace.elim
    · rfl
  | readParameter epoch =>
    simp only [ServerSide.step]
    split
    · exact readField_nil _ _
    · rfl
  | _ =>
    simp only [ServerSide.step]
    split <;> rfl

theorem filename_step {action : ServerAction} {served : Served} (hplace : side.place = .filename)
    (hs : side.step config up action = some served) :
    ∃ listing file, readFilename config listing file side up = some served := by
  cases action <;> simp only [ServerSide.step, hplace] at hs <;> first | exact ⟨_, _, hs⟩ | cases hs

theorem gotSize_step {action : ServerAction} {served : Served} {names : List (List UInt8)}
    (hplace : side.place = .gotSize names) (hs : side.step config up action = some served) :
    ∃ file, readGotSize config names file side up = some served := by
  cases action <;> simp only [ServerSide.step, hplace] at hs <;> first | exact ⟨_, hs⟩ | cases hs

theorem readGotSize_item (names : List (List UInt8)) (file : Option (List UInt8)) :
    readGotSize config names file side (bytesOf [gotSizeItem]) = some
      (if config.hook ∧ names = [] then
        ⟨(openFile file side).1, [gotSizeItem], [], (openFile file side).2⟩
      else ⟨side.at .gotList, [gotSizeItem], [], strings names⟩) := by
  refine (readField_item gotSizeItem rfl [] _).trans ?_
  split <;> rfl

theorem readFilename_all {listing : List (List UInt8)} (file : Option (List UInt8))
    (h : listing.length ≤ 32768) :
    readFilename config listing file side (bytesOf [lineItem allFiles]) = some
      ⟨side.at (.gotSize (listed config listing)), [lineItem allFiles], [],
        sizesReply (listed config listing)⟩ := by
  rw [readFilename, if_pos h, readLine_item oneLine_allFiles, Option.map_some]
  dsimp only
  rw [lineText_concat, if_neg (by decide), if_pos rfl]
  rfl

theorem readName_exchanges {left : Nat} {names : List (List UInt8)} {moved : Moved}
    (hlines : left ≤ down.countP endsLine) (hs : readName left names down = some moved) :
    Exchanges config moved.place .gotList (bytesOf moved.wrote) moved.down := by
  obtain ⟨⟨line, rest⟩, hread, rfl⟩ := Option.map_eq_some_iff.mp hs
  have hcount := takeLine_countP hread
  dsimp only
  split
  · generalize hall : names ++ [lineText line] = all
    cases all with
    | nil => exact absurd hall (by simp)
    | cons name rest => exact .requested
  · have hleft : left - 1 ≤ rest.countP endsLine := by omega
    exact .listed (by omega) hleft

theorem client_exchanges {action : ClientAction} {moved : Moved}
    (h : Exchanges config client side.place up down) (hin : client.Handshaking)
    (hs : client.step down action = some moved) :
    Exchanges config moved.place side.place (up ++ bytesOf moved.wrote) moved.down := by
  generalize hplace : side.place = place at h
  have hread : action = .read := by
    cases client <;> first | exact hin.elim | (cases action <;> first | rfl | cases hs)
  subst hread
  cases h with
  | asked => cases hs
  | @sized names narrow hooked =>
    cases (readSizes_sizesReply narrow).symm.trans hs
    cases names with
    | nil => exact .gotNoSize (hooked rfl)
    | cons name names => exact .gotSize (List.cons_ne_nil name names)
  | gotNoSize => cases hs
  | gotSize => cases hs
  | listed more lines => exact readName_exchanges lines hs
  | answered place_eq answer =>
    cases hs
    exact .ended
  | ended => exact hin.elim
  | requested => exact hin.elim

theorem server_exchanges {action : ServerAction} {served : Served}
    (hcfg : config.hook = true ∨ config.files ≠ [])
    (h : Exchanges config client side.place up down) (hin : client.Handshaking)
    (hs : side.step config up action = some served) :
    Exchanges config client served.side.place served.up (down ++ served.reply) := by
  generalize hplace : side.place = place at h
  have hstuck : side.place.Reading → up ≠ [] := by
    rintro hreads rfl
    cases (ServerSide.waits hreads action).symm.trans hs
  rw [hplace] at hstuck
  cases h with
  | asked =>
    obtain ⟨listing, file, hs⟩ := filename_step hplace hs
    have hcount := listed_length hs
    rw [readFilename_line oneLine_allFiles hs, if_neg (by decide), if_pos rfl]
    refine .sized hcount fun hnil => ?_
    unfold listed at hnil
    split at hnil
    · assumption
    · exact absurd (List.map_eq_nil_iff.mp hnil) (hcfg.resolve_left ‹_›)
  | sized => exact absurd rfl (hstuck trivial)
  | gotNoSize hooked =>
    obtain ⟨file, hs⟩ := gotSize_step hplace hs
    rw [readGotSize_item, if_pos ⟨hooked, rfl⟩] at hs
    cases hs
    cases file with
    | none => exact .answered (.inl rfl) 8
    | some contents => exact .answered (.inr rfl) 0
  | @gotSize names some =>
    obtain ⟨file, hs⟩ := gotSize_step hplace hs
    rw [readGotSize_item, if_neg fun hnil => some hnil.2] at hs
    cases hs
    exact .listed (List.length_pos_iff.mpr some) (strings_countP names)
  | listed => exact absurd rfl (hstuck trivial)
  | answered place_eq =>
    rcases place_eq with rfl | rfl <;> exact absurd rfl (hstuck trivial)
  | ended => exact hin.elim
  | requested => exact hin.elim

/-- Wherever the two sides are, they do not wait for each other. -/
theorem Exchanges.goes_on (h : Exchanges config client side.place up down)
    (hclient : client.Reading) (hdown : ∀ action, client.step down action = none)
    (hup : ∀ action, side.step config up action = none) : False := by
  generalize hplace : side.place = place at h
  cases h with
  | asked =>
    have hread := hup (.readFilename [] none)
    simp only [ServerSide.step, hplace] at hread
    cases hread
  | sized narrow => cases (readSizes_sizesReply narrow).symm.trans (hdown .read)
  | gotNoSize =>
    have hread := hup (.readGotSize none)
    simp only [ServerSide.step, hplace] at hread
    cases hread
  | gotSize =>
    have hread := hup (.readGotSize none)
    simp only [ServerSide.step, hplace] at hread
    cases hread
  | listed more lines =>
    obtain ⟨line, rest, hline⟩ := takeLine_of_countP_pos 1024 (more.trans_le lines)
    have hread := Option.map_eq_none_iff.mp (hdown .read)
    cases hline.symm.trans hread
  | answered place_eq answer => cases hdown .read
  | ended => exact hclient
  | requested =>
    have hread := hup .readGotList
    simp only [ServerSide.step, hplace] at hread
    cases (readField_item gotListItem rfl _ _).symm.trans hread

end Exchange

def Connection.emptySized (server : ServerSide) : Connection where
  client := .starSizes
  server := server.at (.gotSize [])
  up := []
  down := sizesReply []
  wrote := [lineItem allFiles]
  read := [lineItem allFiles]

def Connection.emptyRead (server : ServerSide) : Connection where
  client := .starFails
  server := server.at (.gotSize [])
  up := bytesOf [gotSizeItem]
  down := []
  wrote := [lineItem allFiles, gotSizeItem]
  read := [lineItem allFiles]

def Connection.emptyListed (server : ServerSide) : Connection where
  client := .starFails
  server := server.at .gotList
  up := []
  down := []
  wrote := [lineItem allFiles, gotSizeItem]
  read := [lineItem allFiles, gotSizeItem]

def emptyListing : List Action :=
  [.server (.readFilename [] none), .client .read, .server (.readGotSize none)]

theorem emptyListed_deadlock (config : Config) (server : ServerSide) :
    (Connection.emptyListed server).Deadlock config where
  clientReads := trivial
  clientWaits action := by cases action <;> rfl
  serverReads := trivial
  serverWaits := ServerSide.waits trivial

section Empty
variable (config : Config) (server : ServerSide)

theorem sized_step (hhook : config.hook = false) (hfiles : config.files = []) :
    (Connection.askAll server).step config (.server (.readFilename [] none)) =
      some (.emptySized server) := by
  have hlisted : listed config [] = [] := by
    rw [listed, hhook, hfiles]
    rfl
  have hread := fun side => @readFilename_all config side [] none (Nat.zero_le 32768)
  simp only [Connection.step, Connection.askAll, ServerSide.step, ServerSide.at, hread, hlisted]
  rfl

theorem read_step_empty :
    (Connection.emptySized server).step config (.client .read) = some (.emptyRead server) := by
  have hsizes : readSizes (sizesReply []) = some ⟨.starFails, [gotSizeItem], []⟩ :=
    readSizes_sizesReply (by decide)
  simp only [Connection.step, Connection.emptySized, ClientPlace.step, hsizes]
  rfl

theorem listed_step (hhook : config.hook = false) :
    (Connection.emptyRead server).step config (.server (.readGotSize none)) =
      some (.emptyListed server) := by
  obtain ⟨order, files, few, hook⟩ := config
  subst hhook
  rfl

theorem empty_list_run (hhook : config.hook = false) (hfiles : config.files = []) :
    run (Connection.step config) (.askAll server) emptyListing = some (.emptyListed server) ∧
      InHandshake config (.askAll server) emptyListing := by
  constructor
  · rw [emptyListing, run_cons, sized_step config server hhook hfiles, Option.bind_some, run_cons,
      read_step_empty, Option.bind_some, run_cons, listed_step config server hhook]
    rfl
  · refine ⟨trivial, fun s hs => ?_⟩
    cases (sized_step config server hhook hfiles).symm.trans hs
    refine ⟨trivial, fun s hs => ?_⟩
    cases (read_step_empty config server).symm.trans hs
    exact ⟨trivial, fun _ _ => trivial⟩

end Empty

/-- The handshake is free of deadlocks if and only if there is a program to ask for the
list or a file to be listed. -/
theorem handshake_free_iff (config : Config) :
    (∀ server as t, run (Connection.step config) (.askAll server) as = some t →
        InHandshake config (.askAll server) as → ¬t.Deadlock config) ↔
      config.hook = true ∨ config.files ≠ [] := by
  constructor
  · intro hfree
    by_contra hnot
    obtain ⟨hhook, hfiles⟩ := not_or.mp hnot
    obtain ⟨hrun, hin⟩ := empty_list_run config idleServer (eq_false_of_ne_true hhook) (not_not.mp hfiles)
    exact hfree idleServer _ _ hrun hin (emptyListed_deadlock config idleServer)
  · intro hcfg server as t hrun hin hdead
    have h : Exchanges config t.client t.server.place t.up t.down := by
      refine run_invariant_along (P := fun s => Exchanges config s.client s.server.place s.up s.down)
        ?_ ?_ hin hrun
      · intro s action s' h hin hs
        cases action with
        | client action =>
          obtain ⟨moved, hmoved, rfl⟩ := Option.map_eq_some_iff.mp hs
          exact client_exchanges h hin hmoved
        | server action =>
          obtain ⟨served, hserved, rfl⟩ := Option.map_eq_some_iff.mp hs
          exact server_exchanges hcfg h hin hserved
      · exact .asked
    exact h.goes_on hdead.clientReads hdead.clientWaits hdead.serverWaits

def noFiles : Config := ⟨.little, [], by decide, false⟩

/-- Both sides wait, and nothing is on the way. -/
theorem empty_list_deadlocks :
    ∃ t, run (Connection.step noFiles) (.askAll idleServer) emptyListing = some t ∧
      InHandshake noFiles (.askAll idleServer) emptyListing ∧
      t.Deadlock noFiles ∧ t.up = [] ∧ t.down = [] := by
  obtain ⟨hrun, hin⟩ := empty_list_run noFiles idleServer rfl rfl
  exact ⟨_, hrun, hin, emptyListed_deadlock noFiles idleServer, rfl, rfl⟩

end TsunamiUdp.Control

import TsunamiUdp.Control.Connection

/-! As long as nothing fails locally, the server reads every field as the client wrote it. -/
namespace TsunamiUdp.Control
open Library

inductive Sending : Place → List Item → Prop
  | port {bytes : List UInt8} (width : bytes.length = Field.port.width) :
      Sending .port [(.port, bytes)]
  | transmit {loop : Server.Loop} (flow : loop.flow = .next) (ready : Server.Ready loop.handler) :
      Sending (.transmit loop) []

inductive Pending : Place → List Item → Prop
  | nothing : Pending .filename []
  | dir : Pending .dirAck [ackItem]

inductive Asking : ClientPlace → List Item → Prop
  | nothing : Asking .prompt []
  | dir : Asking .dirCount [lineItem tsDirlistHackCmd]
  | getAll : Asking .starSizes [lineItem allFiles]
  | get {name : List UInt8} {rest : List (List UInt8)} (plain : Plain name)
      (files : ∀ name ∈ rest, Plain name) : Asking (.requested rest) [lineItem name]

inductive After : ClientPlace → List Item → Prop
  | more {rest : List (List UInt8)} (files : ∀ name ∈ rest, Plain name) : After (.receiving rest) []
  | stop {client : ClientPlace} {asked : List Item} (asking : Asking client asked) :
      After client (stopItem :: asked)

/-- What is still to be read by the server, and by the client, wherever the two are. -/
inductive Agrees (blockSize : Nat) : ClientPlace → Place → List Item → List UInt8 → Prop
  | behind {client : ClientPlace} {place : Place} {pending asked ahead : List Item}
      (unread : Pending place pending) (asking : Asking client asked) (split : ahead = pending ++ asked) :
      Agrees blockSize client place ahead []
  | dirCounted {numFiles : Nat} {lines : List (List UInt8)} (count : lines.length = 2 * numFiles)
      (narrow : numFiles < 65536) (unbroken : ∀ line ∈ lines, OneLine 2047 line) :
      Agrees blockSize .dirCount .dirAck [] (strings (decimal numFiles :: lines))
  | dirListed {line : List UInt8} {lines : List (List UInt8)}
      (unbroken : ∀ l ∈ line :: lines, OneLine 2047 l) :
      Agrees blockSize (.dirLines (lines.length + 1)) .dirAck [] (strings (line :: lines))
  | sized {names : List (List UInt8)} (listable : Listable names) (narrow : names.length < 65536) :
      Agrees blockSize .starSizes (.gotSize names) [] (sizesReply names)
  | gotSize {name : List UInt8} {names : List (List UInt8)} (listable : Listable (name :: names)) :
      Agrees blockSize (.starNames (names.length + 1) []) (.gotSize (name :: names)) [gotSizeItem] []
  | gotNoSize : Agrees blockSize .starFails (.gotSize []) [gotSizeItem] []
  | stuck : Agrees blockSize .starFails .gotList [] []
  | failed : Agrees blockSize .starFails .filename [] [8]
  | listed {names left : List (List UInt8)} {name : List UInt8}
      (listable : Listable (names ++ name :: left)) :
      Agrees blockSize (.starNames (left.length + 1) names) .gotList [] (strings (name :: left))
  | gotList {name : List UInt8} {rest : List (List UInt8)} (line : OneLine maxFilenameLength name)
      (files : ∀ name ∈ rest, Plain name) :
      Agrees blockSize (.requested rest) .gotList [gotListItem, lineItem name] []
  | listedName {name : List UInt8} {rest : List (List UInt8)} (line : OneLine maxFilenameLength name)
      (files : ∀ name ∈ rest, Plain name) :
      Agrees blockSize (.requested rest) .listedName [lineItem name] []
  | refused {rest : List (List UInt8)} : Agrees blockSize (.requested rest) .filename [] [8]
  | granted {rest : List (List UInt8)} (files : ∀ name ∈ rest, Plain name) :
      Agrees blockSize (.requested rest) (.parameters parameterFields) [] [0]
  | proposed {rest : List (List UInt8)} (files : ∀ name ∈ rest, Plain name) (p : Proposal) :
      Agrees blockSize (.described p.blockSize rest) (.parameters parameterFields) p.items []
  | proposing {rest : List (List UInt8)} (files : ∀ name ∈ rest, Plain name) {item : Item}
      {left : List Item} (narrow : blockSize < 4294967296)
      (wide : ∀ i ∈ item :: left, i.1 ≠ .blockSize ∧ i.2.length = i.1.width) :
      Agrees blockSize (.described blockSize rest)
        (.parameters ((item :: left).map Prod.fst)) (item :: left) []
  | informed {rest : List (List UInt8)} (files : ∀ name ∈ rest, Plain name) {info : List UInt8}
      (width : info.length = 20) (same : ofBytes ((info.drop 8).take 4) = blockSize) :
      Agrees blockSize (.described blockSize rest) .port [] info
  | opening {rest : List (List UInt8)} (files : ∀ name ∈ rest, Plain name) :
      Agrees blockSize (.opening rest) .port [] []
  | binding {rest : List (List UInt8)} (files : ∀ name ∈ rest, Plain name) :
      Agrees blockSize (.binding rest) .port [] []
  | transfer {client : ClientPlace} {place : Place} {first tail ahead : List Item}
      (sending : Sending place first) (requests : List LoopRequest) (after : After client tail)
      (split : ahead = first ++ requests.map requestItem ++ tail) :
      Agrees blockSize client place ahead []
  | ended (client : ClientPlace) (ahead : List Item) (down : List UInt8) :
      Agrees blockSize client .ended ahead down

section Client
variable {blockSize : Nat} {client : ClientPlace} {place : Place} {ahead : List Item}
  {down : List UInt8} {moved : Moved}

theorem nextFile_asking {rest : List (List UInt8)} (files : ∀ name ∈ rest, Plain name)
    (wrote : List Item) (down : List UInt8) :
    ∃ asked, Asking (nextFile rest wrote down).place asked ∧
      (nextFile rest wrote down).wrote = wrote ++ asked ∧ (nextFile rest wrote down).down = down := by
  cases rest with
  | nil => exact ⟨[], .nothing, (List.append_nil wrote).symm, rfl⟩
  | cons name rest =>
    exact ⟨[lineItem name], .get (files name List.mem_cons_self)
      (fun n hn => files n (List.mem_cons_of_mem name hn)), rfl, rfl⟩

theorem readCount_strings {numFiles : Nat} {lines : List (List UInt8)} (hn : numFiles < 65536) :
    readCount (strings (decimal numFiles :: lines)) = some
      (if numFiles = 0 then ⟨.prompt, [ackItem], strings lines⟩
        else ⟨.dirLines (2 * numFiles), [], strings lines⟩) := by
  have hten : numFiles < 10 ^ 5 := by omega
  have hline : OneLine 2047 (decimal numFiles) := decimal_oneLine (by decide) hten (by decide)
  have hscan : scanNumber 65536 (decimal numFiles ++ [0]) = numFiles :=
    scanNumber_decimal [] hn (by decide)
  obtain ⟨b, digits, hdecimal⟩ := List.exists_cons_of_ne_nil (decimal_ne_nil numFiles)
  have hb : b ≠ 8 := by
    rintro rfl
    have hdigit := decimal_digits numFiles 8 (by rw [hdecimal]; exact List.mem_cons_self)
    exact absurd hdigit (by decide)
  rw [hdecimal] at hscan hline
  have hdigits : OneLine 2046 digits :=
    ⟨fun c hc => hline.unbroken c (List.mem_cons_of_mem b hc), by
      have := hline.fits
      simp only [List.length_cons] at this
      omega⟩
  rw [strings_cons, hdecimal, List.cons_append, readCount, if_neg hb,
    hdigits.read (by decide), Option.map_some]
  dsimp only
  rw [lineText_concat, hscan]

theorem readEntry_strings {line : List UInt8} {lines : List (List UInt8)} (left : Nat)
    (h : OneLine 2047 line) :
    readEntry left (strings (line :: lines)) = some
      (if left ≤ 1 then ⟨.prompt, [ackItem], strings lines⟩
        else ⟨.dirLines (left - 1), [], strings lines⟩) := by
  rw [strings_cons, readEntry, h.read (by decide)]
  rfl

theorem readSizes_sizesReply {names : List (List UInt8)} (hn : names.length < 65536) :
    readSizes (sizesReply names) = some
      (if names.length = 0 then ⟨.starFails, [gotSizeItem], []⟩
        else ⟨.starNames names.length [], [gotSizeItem], []⟩) := by
  have hscan : scanNumber 4294967296 (padded names.length) = names.length :=
    scanNumber_padded (by omega) (by omega)
  rw [readSizes, readBytes_all (by simp [sizesReply]), Option.map_some]
  dsimp only
  rw [sizesReply, List.drop_left' (padded_length _), hscan]

theorem readName_strings {name : List UInt8} {rest : List (List UInt8)} (left : Nat)
    (names : List (List UInt8)) (h : OneLine maxFilenameLength name) :
    readName left names (strings (name :: rest)) = some
      (if left ≤ 1 then nextFile (names ++ [name]) [gotListItem] (strings rest)
        else ⟨.starNames (left - 1) (names ++ [name]), [], strings rest⟩) := by
  have hline : readLine 1024 (name ++ 0 :: strings rest) = some (name ++ [0], strings rest) :=
    h.read (by decide) (strings rest)
  rw [strings_cons, readName, hline, Option.map_some]
  dsimp only
  rw [lineText_concat]

theorem read_dirCount (h : Agrees blockSize .dirCount place ahead down)
    (hs : ClientPlace.dirCount.step down .read = some moved) :
    Agrees blockSize moved.place place (ahead ++ moved.wrote) moved.down := by
  cases h with
  | behind => cases hs
  | transfer => cases hs
  | dirCounted count narrow unbroken =>
    cases (readCount_strings narrow).symm.trans hs
    split
    · rename_i numFiles lines hzero
      have hnil : lines = [] := List.eq_nil_of_length_eq_zero (by omega)
      subst hnil
      exact .behind .dir .nothing rfl
    · rename_i numFiles lines hpos
      cases lines with
      | nil =>
        rw [List.length_nil] at count
        omega
      | cons line lines =>
        rw [← count]
        exact .dirListed unbroken
  | ended => exact .ended _ _ _

theorem read_dirLines {left : Nat} (h : Agrees blockSize (.dirLines left) place ahead down)
    (hs : (ClientPlace.dirLines left).step down .read = some moved) :
    Agrees blockSize moved.place place (ahead ++ moved.wrote) moved.down := by
  cases h with
  | behind => cases hs
  | transfer => cases hs
  | @dirListed line lines unbroken =>
    cases (readEntry_strings _ (unbroken line List.mem_cons_self)).symm.trans hs
    cases lines with
    | nil => exact .behind .dir .nothing rfl
    | cons next lines =>
      exact .dirListed fun l hl => unbroken l (List.mem_cons_of_mem line hl)
  | ended => exact .ended _ _ _

theorem read_starSizes (h : Agrees blockSize .starSizes place ahead down)
    (hs : ClientPlace.starSizes.step down .read = some moved) :
    Agrees blockSize moved.place place (ahead ++ moved.wrote) moved.down := by
  cases h with
  | behind => cases hs
  | transfer => cases hs
  | @sized names listable narrow =>
    cases (readSizes_sizesReply narrow).symm.trans hs
    cases names with
    | nil => exact .gotNoSize
    | cons name names => exact .gotSize listable
  | ended => exact .ended _ _ _

theorem read_starFails (h : Agrees blockSize .starFails place ahead down)
    (hs : ClientPlace.starFails.step down .read = some moved) :
    Agrees blockSize moved.place place (ahead ++ moved.wrote) moved.down := by
  cases h with
  | behind => cases hs
  | transfer => cases hs
  | gotNoSize => cases hs
  | stuck => cases hs
  | failed =>
    cases hs
    exact .behind .nothing .nothing rfl
  | ended => exact .ended _ _ _

theorem read_starNames {left : Nat} {names : List (List UInt8)}
    (h : Agrees blockSize (.starNames left names) place ahead down)
    (hs : (ClientPlace.starNames left names).step down .read = some moved) :
    Agrees blockSize moved.place place (ahead ++ moved.wrote) moved.down := by
  cases h with
  | behind => cases hs
  | transfer => cases hs
  | gotSize => cases hs
  | @listed _ left name listable =>
    have hline := listable.lines name (by simp)
    cases (readName_strings _ names hline).symm.trans hs
    cases left with
    | nil =>
      cases names with
      | nil => exact .gotList hline fun n hn => by cases hn
      | cons head names =>
        exact .gotList (listable.lines head (by simp)) fun n hn => listable.plain n hn
    | cons next left =>
      have hnext : names ++ name :: next :: left = (names ++ [name]) ++ next :: left := by simp
      rw [hnext] at listable
      exact .listed listable
  | ended => exact .ended _ _ _

theorem read_described {size : Nat} {rest : List (List UInt8)}
    (h : Agrees blockSize (.described size rest) place ahead down)
    (hs : (ClientPlace.described size rest).step down .read = some moved) :
    Agrees blockSize moved.place place (ahead ++ moved.wrote) moved.down := by
  cases h with
  | behind => cases hs
  | transfer => cases hs
  | proposed => cases hs
  | proposing => cases hs
  | informed files width same =>
    have hinfo : readInfo blockSize rest down = some ⟨.opening rest, [], []⟩ := by
      rw [readInfo, readBytes_all width, Option.map_some]
      exact congrArg some (if_pos same)
    cases hinfo.symm.trans hs
    exact .opening files
  | ended => exact .ended _ _ _

theorem read_step (h : Agrees blockSize client place ahead down)
    (hs : client.step down .read = some moved) :
    Agrees blockSize moved.place place (ahead ++ moved.wrote) moved.down := by
  cases client with
  | dirCount => exact read_dirCount h hs
  | dirLines left => exact read_dirLines h hs
  | starSizes => exact read_starSizes h hs
  | starFails => exact read_starFails h hs
  | starNames left names => exact read_starNames h hs
  | described size rest => exact read_described h hs
  | prompt | requested | opening | binding | receiving => cases hs

theorem readResult_step {proposal : Proposal} (h : Agrees blockSize client place ahead down)
    (hs : client.step down (.readResult proposal) = some moved) :
    Agrees blockSize moved.place place (ahead ++ moved.wrote) moved.down := by
  cases client with
  | requested rest =>
    cases h with
    | behind => cases hs
    | transfer => cases hs
    | gotList => cases hs
    | listedName => cases hs
    | refused =>
      cases hs
      exact .behind .nothing .nothing rfl
    | granted files =>
      cases hs
      exact .proposed files proposal
    | ended => exact .ended _ _ _
  | _ => cases hs

theorem Agrees.ask {next : ClientPlace} {item : Item} (h : Agrees blockSize .prompt place ahead down)
    (asking : Asking next [item]) : Agrees blockSize next place (ahead ++ [item]) down := by
  cases h with
  | behind unread asked split =>
    cases asked
    exact .behind unread asking (by rw [split, List.append_nil])
  | transfer sending requests after split =>
    cases after with
    | stop asked =>
      cases asked
      refine .transfer sending requests (.stop asking) ?_
      rw [split, List.append_assoc]
      rfl
  | ended => exact .ended _ _ _

theorem request_step {rest : List (List UInt8)} (r : LoopRequest)
    (h : Agrees blockSize (.receiving rest) place ahead down) :
    Agrees blockSize (.receiving rest) place (ahead ++ [requestItem r]) down := by
  cases h with
  | behind _ asking => cases asking
  | transfer sending requests after split =>
    cases after with
    | more files =>
      apply Agrees.transfer sending (requests ++ [r]) (.more files)
      rw [split]
      simp
    | stop asking => cases asking
  | ended => exact .ended _ _ _

theorem stop_step {rest : List (List UInt8)} (h : Agrees blockSize (.receiving rest) place ahead down) :
    Agrees blockSize (nextFile rest [stopItem] down).place place
      (ahead ++ (nextFile rest [stopItem] down).wrote) (nextFile rest [stopItem] down).down := by
  cases h with
  | behind _ asking => cases asking
  | transfer sending requests after split =>
    cases after with
    | more files =>
      obtain ⟨asked, hasking, hwrote, hdown⟩ := nextFile_asking files [stopItem] []
      rw [hdown, hwrote]
      apply Agrees.transfer sending requests (.stop hasking)
      rw [split]
      simp
    | stop asking => cases asking
  | ended => exact .ended _ _ _

theorem client_step {action : ClientAction} (h : Agrees blockSize client place ahead down)
    (hsafe : action.Safe) (hs : client.step down action = some moved) :
    Agrees blockSize moved.place place (ahead ++ moved.wrote) moved.down := by
  cases action with
  | dir =>
    cases client with
    | prompt =>
      cases hs
      exact h.ask .dir
    | _ => cases hs
  | getAll =>
    cases client with
    | prompt =>
      cases hs
      exact h.ask .getAll
    | _ => cases hs
  | get name =>
    cases client with
    | prompt =>
      cases (if_neg hsafe.notAll).symm.trans hs
      exact h.ask (.get hsafe fun n hn => by cases hn)
    | _ => cases hs
  | read => exact read_step h hs
  | readResult proposal => exact readResult_step h hs
  | openFile ok =>
    cases client with
    | opening rest =>
      cases hs
      rw [show ok = true from hsafe, if_pos rfl, List.append_nil]
      cases h with
      | behind _ asking => cases asking
      | transfer _ _ after => cases after with
        | stop asking => cases asking
      | opening files => exact .binding files
      | ended => exact .ended _ _ _
    | _ => cases hs
  | openPort port =>
    cases client with
    | binding rest =>
      obtain ⟨p, rfl⟩ := Option.isSome_iff_exists.mp hsafe
      cases hs
      cases h with
      | behind _ asking => cases asking
      | transfer _ _ after => cases after with
        | stop asking => cases asking
      | binding files => exact .transfer (.port (toBytes_length 2 p)) [] (.more files) rfl
      | ended => exact .ended _ _ _
    | _ => cases hs
  | request r =>
    cases client with
    | receiving rest =>
      cases hs
      exact request_step r h
    | _ => cases hs
  | abort => cases hsafe
  | stop =>
    cases client with
    | receiving rest =>
      cases hs
      exact stop_step h
    | _ => cases hs

end Client

def ServerSide.part (s : ServerSide) : List UInt8 :=
  match s.place with
  | .transmit loop => loop.handler.retransmission.take loop.handler.retransmitlen
  | _ => []

/-- The server is about to read what the client has written for it. -/
structure InStep (client : ClientPlace) (side : ServerSide) (up : List UInt8) (down : List UInt8)
    (ahead : List Item) : Prop where
  bytes : side.place ≠ .ended → side.part ++ up = bytesOf ahead
  agrees : Agrees side.param.blockSize client side.place ahead down
  memory : side.memory.length = sizeofRetransmission

theorem InStep.whole {client : ClientPlace} {side : ServerSide} {up down : List UInt8}
    {ahead : List Item} {place : Place} (h : InStep client side up down ahead)
    (hplace : side.place = place) (hrunning : place ≠ .ended)
    (hfields : ∀ loop, place ≠ .transmit loop) :
    up = bytesOf ahead ∧ Agrees side.param.blockSize client place ahead down ∧
      side.memory.length = sizeofRetransmission := by
  subst hplace
  have hbytes := h.bytes hrunning
  unfold ServerSide.part at hbytes
  split at hbytes
  · rename_i loop hplace
    exact absurd hplace (hfields loop)
  · exact ⟨hbytes, h.agrees, h.memory⟩

def Reads (client : ClientPlace) (ahead : List Item) (down : List UInt8) (served : Served) : Prop :=
  ∃ left, ahead = served.read ++ left ∧
    InStep client served.side served.up (down ++ served.reply) left

section Server
variable {config : Config} {client : ClientPlace} {side : ServerSide} {up down : List UInt8}
  {ahead : List Item} {served : Served}

@[simp] theorem readField_nil (field : Field) (next : List UInt8 → ServerSide × List UInt8) :
    readField field [] next = none := by
  cases field <;> rfl

theorem readField_item (item : Item) (h : item.2.length = item.1.width) (rest : List Item)
    (next : List UInt8 → ServerSide × List UInt8) :
    readField item.1 (bytesOf (item :: rest)) next =
      some ⟨(next item.2).1, [item], bytesOf rest, (next item.2).2⟩ := by
  rw [bytesOf_cons, readField, readBytes_append h]
  rfl

theorem readLine_item {name : List UInt8} (h : OneLine maxFilenameLength name) (rest : List Item) :
    readLine maxFilenameLength (bytesOf (lineItem name :: rest)) =
      some (name ++ [10], bytesOf rest) := by
  rw [bytesOf_cons, lineItem, List.append_assoc]
  exact h.read (by decide) (bytesOf rest)

theorem openFile_step {rest : List (List UInt8)} (file : Option (List UInt8))
    (hmem : side.memory.length = sizeofRetransmission) (files : ∀ name ∈ rest, Plain name) :
    InStep (.requested rest) (openFile file side).1 [] (openFile file side).2 [] := by
  cases file with
  | none => exact ⟨fun _ => rfl, .refused, hmem⟩
  | some contents => exact ⟨fun _ => rfl, .granted files, hmem⟩

theorem readFilename_line {listing : List (List UInt8)} {file : Option (List UInt8)}
    {name : List UInt8} (h : OneLine maxFilenameLength name)
    (hs : readFilename config listing file side (bytesOf [lineItem name]) = some served) :
    served =
      if name = tsDirlistHackCmd then ⟨side.at .dirAck, [lineItem name], [], dirReply config⟩
      else if name = allFiles then
        ⟨side.at (.gotSize (listed config listing)), [lineItem name], [],
          sizesReply (listed config listing)⟩
      else ⟨(openFile file side).1, [lineItem name], [], (openFile file side).2⟩ := by
  unfold readFilename at hs
  split at hs
  · rw [readLine_item h, Option.map_some] at hs
    dsimp only at hs
    rw [lineText_concat] at hs
    exact (Option.some.inj hs).symm
  · cases hs

theorem listed_length {listing : List (List UInt8)} {file : Option (List UInt8)} {up : List UInt8}
    (hs : readFilename config listing file side up = some served) :
    (listed config listing).length < 65536 := by
  unfold readFilename at hs
  split at hs
  · unfold listed
    split
    · omega
    · rw [List.length_map]
      exact config.few
  · cases hs

theorem nextLine_item {name : List UInt8} (h : OneLine maxFilenameLength name) :
    nextLine (bytesOf [lineItem name]) = some name := by
  rw [nextLine, readLine_item h, Option.map_some]
  exact congrArg some (lineText_concat name 10)

theorem dirReply_lines (h : ∀ file ∈ config.files, OneLine 2047 file.1) :
    ∀ line ∈ config.files.flatMap fun (name, size) => [name, (decimal size).take 19],
      OneLine 2047 line := by
  intro line hline
  obtain ⟨file, hfile, hmem⟩ := List.mem_flatMap.mp hline
  rcases List.mem_pair.mp hmem with rfl | rfl
  · exact h file hfile
  · exact decimal_take_oneLine file.2

theorem oneLine_dir : OneLine maxFilenameLength tsDirlistHackCmd :=
  oneLine_iff.mpr ⟨by decide, by decide⟩

theorem oneLine_allFiles : OneLine maxFilenameLength allFiles :=
  oneLine_iff.mpr ⟨by decide, by decide⟩

theorem readFilename_step {listing : List (List UInt8)} {file : Option (List UInt8)}
    (h : InStep client side up down ahead) (hplace : side.place = .filename)
    (hsafe : (ServerAction.readFilename listing file).Safe config side up)
    (hs : side.step config up (.readFilename listing file) = some served) :
    Reads client ahead down served := by
  obtain ⟨rfl, hagrees, hmem⟩ := h.whole hplace Place.noConfusion fun _ => Place.noConfusion
  simp only [ServerSide.step, hplace] at hs
  have hnothing : readFilename config listing file side [] = none := by
    unfold readFilename
    split <;> rfl
  cases hagrees with
  | behind unread asking split =>
    cases unread
    rw [List.nil_append] at split
    subst split
    cases asking with
    | nothing => cases hnothing.symm.trans hs
    | dir =>
      rw [readFilename_line oneLine_dir hs, if_pos rfl]
      have hlines := dirReply_lines (hsafe.1 (nextLine_item oneLine_dir))
      refine ⟨[], rfl, fun _ => rfl, .dirCounted ?_ config.few hlines, hmem⟩
      simp [List.length_flatMap, Nat.mul_comm]
    | getAll =>
      have hcount := listed_length hs
      rw [readFilename_line oneLine_allFiles hs, if_neg (by decide), if_pos rfl]
      have hlist := hsafe.2 (nextLine_item oneLine_allFiles)
      exact ⟨[], rfl, fun _ => rfl, .sized hlist hcount, hmem⟩
    | get plain files =>
      rw [readFilename_line plain.toOneLine hs, if_neg plain.notDir, if_neg plain.notAll]
      exact ⟨[], rfl, openFile_step file hmem files⟩
  | failed => cases hnothing.symm.trans hs
  | refused => cases hnothing.symm.trans hs
  | transfer sending => cases sending

theorem readAck_step (h : InStep client side up down ahead) (hplace : side.place = .dirAck)
    (hs : side.step config up .readAck = some served) : Reads client ahead down served := by
  obtain ⟨rfl, hagrees, hmem⟩ := h.whole hplace Place.noConfusion fun _ => Place.noConfusion
  simp only [ServerSide.step, hplace] at hs
  cases hagrees with
  | behind unread asking split =>
    cases unread
    subst split
    cases (readField_item ackItem rfl _ _).symm.trans hs
    exact ⟨_, rfl, fun _ => rfl, .behind .nothing asking rfl, hmem⟩
  | dirCounted => cases (readField_nil _ _).symm.trans hs
  | dirListed => cases (readField_nil _ _).symm.trans hs
  | transfer sending => cases sending

theorem readGotSize_step {names : List (List UInt8)} {file : Option (List UInt8)}
    (h : InStep client side up down ahead) (hplace : side.place = .gotSize names)
    (hsafe : (ServerAction.readGotSize file).Safe config side up)
    (hs : side.step config up (.readGotSize file) = some served) : Reads client ahead down served := by
  obtain ⟨rfl, hagrees, hmem⟩ := h.whole hplace Place.noConfusion fun _ => Place.noConfusion
  simp only [ServerSide.step, hplace] at hs
  simp only [ServerAction.Safe, hplace] at hsafe
  cases hagrees with
  | behind unread => cases unread
  | sized => cases (readField_nil _ _).symm.trans hs
  | gotSize listable =>
    cases (readField_item gotSizeItem rfl [] _).symm.trans hs
    rw [if_neg (by simp)]
    exact ⟨[], rfl, fun _ => rfl, .listed listable, hmem⟩
  | gotNoSize =>
    cases (readField_item gotSizeItem rfl [] _).symm.trans hs
    split
    · rename_i hhook
      cases hsafe hhook.1
      exact ⟨[], rfl, fun _ => rfl, .failed, hmem⟩
    · exact ⟨[], rfl, fun _ => rfl, .stuck, hmem⟩
  | transfer sending => cases sending

theorem readGotList_step (h : InStep client side up down ahead) (hplace : side.place = .gotList)
    (hs : side.step config up .readGotList = some served) : Reads client ahead down served := by
  obtain ⟨rfl, hagrees, hmem⟩ := h.whole hplace Place.noConfusion fun _ => Place.noConfusion
  simp only [ServerSide.step, hplace] at hs
  cases hagrees with
  | behind unread => cases unread
  | stuck => cases (readField_nil _ _).symm.trans hs
  | listed => cases (readField_nil _ _).symm.trans hs
  | gotList line files =>
    cases (readField_item gotListItem rfl _ _).symm.trans hs
    exact ⟨_, rfl, fun _ => rfl, .listedName line files, hmem⟩
  | transfer sending => cases sending

theorem readListedName_step {file : Option (List UInt8)} (h : InStep client side up down ahead)
    (hplace : side.place = .listedName)
    (hs : side.step config up (.readListedName file) = some served) :
    Reads client ahead down served := by
  obtain ⟨rfl, hagrees, hmem⟩ := h.whole hplace Place.noConfusion fun _ => Place.noConfusion
  simp only [ServerSide.step, hplace] at hs
  cases hagrees with
  | behind unread => cases unread
  | listedName line files =>
    rw [readLine_item line] at hs
    cases hs
    exact ⟨[], rfl, openFile_step file hmem files⟩
  | transfer sending => cases sending

@[simp] theorem storeParameter_memory (field : Field) (value : Nat) (side : ServerSide) :
    (storeParameter field value side).memory = side.memory := by
  cases field <;> rfl

theorem storeParameter_blockSize {field : Field} (h : field ≠ .blockSize) (value : Nat)
    (side : ServerSide) :
    (storeParameter field value side).param.blockSize = side.param.blockSize := by
  cases field with
  | blockSize => cases h rfl
  | _ => rfl

theorem infoReply_blockSize {blockSize : Nat} (h : blockSize < 4294967296)
    (fileSize blockCount epoch : Nat) :
    ofBytes (((infoReply fileSize blockSize blockCount epoch).drop 8).take 4) = blockSize := by
  have hread : ofBytes (toBytes 4 blockSize) = blockSize := ofBytes_toBytes h
  rw [infoReply, List.append_assoc, List.append_assoc, List.drop_left' (toBytes_length 8 fileSize),
    List.take_left' (toBytes_length 4 blockSize), hread]

theorem describeFile_step {rest : List (List UInt8)} (epoch : Nat)
    (hmem : side.memory.length = sizeofRetransmission)
    (narrow : side.param.blockSize < 4294967296) (files : ∀ name ∈ rest, Plain name) :
    InStep (.described side.param.blockSize rest) (describeFile epoch side).1 []
      (describeFile epoch side).2 [] := by
  unfold describeFile
  split
  · exact ⟨fun h => absurd rfl h, .ended _ _ _, hmem⟩
  · dsimp only
    split
    · exact ⟨fun h => absurd rfl h, .ended _ _ _, hmem⟩
    · exact ⟨fun _ => rfl, .informed files (by simp [infoReply]) (infoReply_blockSize narrow _ _ _), hmem⟩

theorem proposing_step {rest : List (List UInt8)} (side : ServerSide) (left : List Item)
    (epoch : Nat) (hmem : side.memory.length = sizeofRetransmission)
    (narrow : side.param.blockSize < 4294967296) (files : ∀ name ∈ rest, Plain name)
    (wide : ∀ i ∈ left, i.1 ≠ .blockSize ∧ i.2.length = i.1.width) :
    let next := if left.map Prod.fst = [] then describeFile epoch side
      else (side.at (.parameters (left.map Prod.fst)), [])
    InStep (.described side.param.blockSize rest) next.1 (bytesOf left) next.2 left := by
  cases left with
  | nil =>
    dsimp only
    rw [if_pos List.map_nil]
    exact describeFile_step epoch hmem narrow files
  | cons item left =>
    dsimp only
    rw [if_neg (by simp)]
    exact ⟨fun _ => rfl, .proposing files narrow wide, hmem⟩

theorem Proposal.items_wide (p : Proposal) :
    ∀ i ∈ p.items.tail, i.1 ≠ .blockSize ∧ i.2.length = i.1.width := by
  intro i hi
  simp only [items, List.tail_cons, List.mem_cons, List.not_mem_nil, or_false] at hi
  rcases hi with rfl | rfl | rfl | rfl | rfl | rfl <;> exact ⟨Field.noConfusion, toBytes_length _ _⟩

theorem readParameter_step {field : Field} {left : List Field} {epoch : Nat}
    (h : InStep client side up down ahead) (hplace : side.place = .parameters (field :: left))
    (hs : side.step config up (.readParameter epoch) = some served) : Reads client ahead down served := by
  obtain ⟨rfl, hagrees, hmem⟩ := h.whole hplace Place.noConfusion fun _ => Place.noConfusion
  simp only [ServerSide.step, hplace] at hs
  unfold readParameter at hs
  generalize hsize : side.param.blockSize = blockSize at hagrees
  cases hagrees with
  | behind unread => cases unread
  | granted => cases (readField_nil _ _).symm.trans hs
  | proposed files p =>
    have hread : ofBytes (toBytes 4 p.blockSize) = p.blockSize := ofBytes_toBytes p.narrow
    cases (readField_item (.blockSize, toBytes 4 p.blockSize) (toBytes_length 4 _)
      p.items.tail _).symm.trans hs
    have hstored : (storeParameter .blockSize (ofBytes (toBytes 4 p.blockSize)) side).param.blockSize
        = p.blockSize := hread
    have hnext := proposing_step (storeParameter .blockSize (ofBytes (toBytes 4 p.blockSize)) side)
      p.items.tail epoch hmem (by rw [hstored]; exact p.narrow) files p.items_wide
    rw [hstored] at hnext
    exact ⟨p.items.tail, rfl, hnext⟩
  | @proposing _ files item items narrow wide =>
    have hitem := wide item List.mem_cons_self
    cases (readField_item item hitem.2 items _).symm.trans hs
    have hsame := storeParameter_blockSize hitem.1 (ofBytes item.2) side
    have hnext := proposing_step (storeParameter item.1 (ofBytes item.2) side) items epoch
      (by rw [storeParameter_memory, hmem]) (by rw [hsame, hsize]; exact narrow) files
      fun i hi => wide i (List.mem_cons_of_mem item hi)
    rw [hsame, hsize] at hnext
    exact ⟨items, rfl, hnext⟩
  | transfer sending => cases sending

theorem readPort_step {socket : Bool} {now : Int} (h : InStep client side up down ahead)
    (hplace : side.place = .port) (hsafe : socket = true)
    (hs : side.step config up (.readPort socket now) = some served) : Reads client ahead down served := by
  obtain ⟨rfl, hagrees, hmem⟩ := h.whole hplace Place.noConfusion fun _ => Place.noConfusion
  simp only [ServerSide.step, hplace] at hs
  cases hagrees with
  | behind unread => cases unread
  | informed => cases (readField_nil _ _).symm.trans hs
  | opening => cases (readField_nil _ _).symm.trans hs
  | binding => cases (readField_nil _ _).symm.trans hs
  | @transfer _ _ _ tail _ sending requests after split =>
    cases sending with
    | @port bytes width =>
      subst split
      cases (readField_item (.port, bytes) width (requests.map requestItem ++ tail) _).symm.trans hs
      rw [if_pos hsafe]
      exact ⟨_, rfl, fun _ => rfl, .transfer (.transmit rfl (Server.ready_start hmem now side.again)) requests
        after rfl, hmem⟩

theorem next_request {requests : List LoopRequest} {tail : List Item} {buffer : List UInt8}
    (after : After client tail) (hlen : buffer.length = sizeofRetransmission)
    (h : buffer ++ up = bytesOf (requests.map requestItem ++ tail)) :
    (∃ r rest, requests = r :: rest ∧ buffer = r.val.encode ∧
        up = bytesOf (rest.map requestItem ++ tail)) ∨
      ∃ asked, Asking client asked ∧ requests = [] ∧ tail = stopItem :: asked ∧
        buffer = Client.ttpRequestStop.encode ∧ up = bytesOf asked := by
  cases requests with
  | nil =>
    right
    cases after with
    | more files =>
      have hnil : buffer = [] := (List.append_eq_nil_iff.mp h).1
      rw [hnil] at hlen
      cases hlen
    | @stop _ asked asking =>
      obtain ⟨hbuffer, hup⟩ := List.append_inj h
        (hlen.trans (Retransmission.encode_length Client.ttpRequestStop).symm)
      exact ⟨asked, asking, rfl, rfl, hbuffer, hup⟩
  | cons r rest =>
    left
    rw [List.map_cons, List.cons_append, bytesOf_cons] at h
    obtain ⟨hbuffer, hup⟩ := List.append_inj h
      (hlen.trans (Retransmission.encode_length r.val).symm)
    exact ⟨r, rest, rfl, hbuffer, hup⟩

theorem requestRead_complete {loop : Server.Loop} {input : Server.Input}
    (h : (Server.buffered input loop.handler).length = sizeofRetransmission) :
    requestRead loop input = [(.request, Server.buffered input loop.handler)] :=
  if_pos h

theorem requestRead_incomplete {loop : Server.Loop} {input : Server.Input}
    (h : (Server.buffered input loop.handler).length < sizeofRetransmission) :
    requestRead loop input = [] :=
  if_neg h.ne

theorem requestStop_fits : Client.ttpRequestStop.Fits := ⟨by decide, by decide, by decide⟩

theorem transfer_pass {loop next : Server.Loop} {input : Server.Input} {requests : List LoopRequest}
    {tail : List Item} (hready : Server.Ready loop.handler)
    (hmem : side.memory.length = sizeofRetransmission) (after : After client tail)
    (hbytes : Server.buffered input loop.handler ++ up = bytesOf (requests.map requestItem ++ tail))
    (hund : Server.Undisturbed config.order loop input)
    (htime : ¬Server.TimesOut side.param input loop.handler)
    (hs : Server.Loop.step config.order side.param loop input = some next) :
    Reads client (requests.map requestItem ++ tail) []
      ⟨afterPass next side, requestRead loop input, up, []⟩ := by
  obtain ⟨-, hread, rfl⟩ := Server.step_some hs
  have hmemory : (Server.handlerTurn config.order side.param input loop.handler).handler.retransmission.length
      = sizeofRetransmission := Server.handlerTurn_memory hready hread
  have hready' := Server.handlerTurn_ready config.order side.param hready hread
  unfold afterPass
  cases Server.handlerTurn_pass config.order side.param hready hread with
  | exited flow _ _ _ bytes =>
    have hless : (Server.buffered input loop.handler).length < sizeofRetransmission := by
      rw [Server.buffered, bytes, List.append_nil]
      exact (List.length_take_le _ _).trans_lt hready.room
    dsimp only
    rw [flow, requestRead_incomplete hless]
    exact ⟨_, rfl, fun h => absurd rfl h, .ended _ _ _, hmem⟩
  | stopped complete stop flow =>
    dsimp only
    rw [flow, requestRead_complete complete]
    rcases next_request after complete hbytes with ⟨r, rest, -, hbuffer, -⟩ | ⟨asked, asking, hnone,
      htail, hbuffer, hup⟩
    · rw [hbuffer, Retransmission.decode_encode r.property.1] at stop
      exact absurd stop r.property.2
    · rw [hnone, htail, hbuffer]
      exact ⟨asked, rfl, fun _ => hup, .behind .nothing asking rfl, hmemory⟩
  | requested complete request flow _ _ _ _ empty =>
    dsimp only
    rw [flow, requestRead_complete complete]
    rcases next_request after complete hbytes with ⟨r, rest, hsome, hbuffer, hup⟩ | ⟨asked, -, -, -,
      hbuffer, -⟩
    · rw [hsome, hbuffer]
      refine ⟨rest.map requestItem ++ tail, rfl, fun _ => ?_,
        .transfer (.transmit rfl (hready' flow)) rest after rfl, hmem⟩
      rw [← hup]
      simp [ServerSide.part, ServerSide.at, empty]
    · rw [hbuffer, Retransmission.decode_encode requestStop_fits] at request
      exact absurd rfl request
  | transmitted incomplete flow _ _ _ _ _ len =>
    have hnext : (Server.handlerTurn config.order side.param input loop.handler).flow = .next :=
      flow.resolve_right fun hlate => htime (Server.timesOut_of_flow hready hread hlate)
    have hkeep := Server.turn_keeps_buffer config.order side.param hready hread incomplete
      (fun hexit => by cases hexit.symm.trans hnext) hund
    dsimp only
    rw [hnext, requestRead_incomplete incomplete]
    refine ⟨requests.map requestItem ++ tail, rfl, fun _ => ?_,
      .transfer (.transmit rfl (hready' hnext)) requests after rfl, hmem⟩
    rw [← hbytes]
    simp only [ServerSide.part, ServerSide.at, len, hkeep]

theorem pass_step {loop : Server.Loop} {input : Server.Input} (h : InStep client side up down ahead)
    (hplace : side.place = .transmit loop) (hsafe : (ServerAction.pass input).Safe config side up)
    (hs : side.step config up (.pass input) = some served) : Reads client ahead down served := by
  obtain ⟨hbytes, hagrees, hmem⟩ := h
  simp only [ServerSide.part, hplace] at hbytes
  rw [hplace] at hagrees
  simp only [ServerSide.step, hplace] at hs
  simp only [ServerAction.Safe, hplace] at hsafe
  unfold pass at hs
  split at hs
  · rename_i hprefix
    obtain ⟨rest, rfl⟩ := hprefix
    obtain ⟨next, hnext, hserved⟩ := Option.map_eq_some_iff.mp hs
    rw [List.drop_left' rfl] at hserved
    subst hserved
    cases hagrees with
    | behind unread => cases unread
    | transfer sending requests after split =>
      cases sending with
      | transmit _ hready =>
        rw [List.nil_append] at split
        subst split
        refine transfer_pass hready hmem after ?_ hsafe.1 hsafe.2 hnext
        rw [Server.buffered, List.append_assoc]
        exact hbytes Place.noConfusion
  · cases hs

theorem server_step {action : ServerAction} (h : InStep client side up down ahead)
    (hsafe : action.Safe config side up) (hs : side.step config up action = some served) :
    Reads client ahead down served := by
  cases action with
  | readFilename listing file =>
    cases hplace : side.place with
    | filename => exact readFilename_step h hplace hsafe hs
    | _ => simp only [ServerSide.step, hplace, reduceCtorEq] at hs
  | readAck =>
    cases hplace : side.place with
    | dirAck => exact readAck_step h hplace hs
    | _ => simp only [ServerSide.step, hplace, reduceCtorEq] at hs
  | readGotSize file =>
    cases hplace : side.place with
    | gotSize names => exact readGotSize_step h hplace hsafe hs
    | _ => simp only [ServerSide.step, hplace, reduceCtorEq] at hs
  | readGotList =>
    cases hplace : side.place with
    | gotList => exact readGotList_step h hplace hs
    | _ => simp only [ServerSide.step, hplace, reduceCtorEq] at hs
  | readListedName file =>
    cases hplace : side.place with
    | listedName => exact readListedName_step h hplace hs
    | _ => simp only [ServerSide.step, hplace, reduceCtorEq] at hs
  | readParameter epoch =>
    cases hplace : side.place with
    | parameters left =>
      cases left with
      | nil => simp only [ServerSide.step, hplace, reduceCtorEq] at hs
      | cons field left => exact readParameter_step h hplace hs
    | _ => simp only [ServerSide.step, hplace, reduceCtorEq] at hs
  | readPort socket now =>
    cases hplace : side.place with
    | port => exact readPort_step h hplace hsafe hs
    | _ => simp only [ServerSide.step, hplace, reduceCtorEq] at hs
  | pass input =>
    cases hplace : side.place with
    | transmit loop => exact pass_step h hplace hsafe hs
    | _ => simp only [ServerSide.step, hplace, reduceCtorEq] at hs

end Server

/-- What the client has written and the server has not read yet is what the two agree on. -/
def Synchronized (s : Connection) : Prop :=
  ∃ ahead, s.wrote = s.read ++ ahead ∧ InStep s.client s.server s.up s.down ahead

theorem synchronized_start {server : ServerSide} (hmem : server.memory.length = sizeofRetransmission) :
    Synchronized (.start server) :=
  ⟨[], rfl, fun _ => rfl, .behind .nothing .nothing rfl, hmem⟩

theorem synchronized_step {config : Config} {s s' : Connection} {action : Action}
    (h : Synchronized s) (hsafe : Safe config s action) (hs : s.step config action = some s') :
    Synchronized s' := by
  obtain ⟨ahead, hwrote, hstep⟩ := h
  cases action with
  | client action =>
    obtain ⟨moved, hmoved, rfl⟩ := Option.map_eq_some_iff.mp hs
    refine ⟨ahead ++ moved.wrote, ?_, fun hrunning => ?_, client_step hstep.agrees hsafe hmoved,
      hstep.memory⟩
    · rw [hwrote, List.append_assoc]
    · rw [bytesOf_append, ← hstep.bytes hrunning, List.append_assoc]
  | server action =>
    obtain ⟨served, hserved, rfl⟩ := Option.map_eq_some_iff.mp hs
    obtain ⟨left, hleft, hnext⟩ := server_step hstep hsafe hserved
    exact ⟨left, by rw [hwrote, hleft, List.append_assoc], hnext⟩

/-- As long as nothing fails locally, every field the server reads is the next one that
the client has written, with the same bytes. -/
theorem fields_read_as_written (config : Config) (server : ServerSide) (actions : List Action)
    (t : Connection) (hmem : server.memory.length = sizeofRetransmission)
    (hrun : run (Connection.step config) (.start server) actions = some t)
    (hsafe : Along (Connection.step config) (Safe config) (.start server) actions) :
    t.read <+: t.wrote := by
  obtain ⟨ahead, hwrote, -⟩ := run_invariant_along
    (fun _ _ _ h hok hs => synchronized_step h hok hs) (synchronized_start hmem) hsafe hrun
  exact ⟨ahead, hwrote.symm⟩

def oneFile : Config := ⟨.little, [([97], 3)], by decide, false⟩

def idleServer : ServerSide :=
  ⟨.filename, Server.threeBlocks, 0, ⟨0, 0, ⟨0, ⟨[], 0⟩, []⟩⟩, List.replicate 12 0, false⟩

def getDescribed : List Action :=
  [.client (.get [97]), .server (.readFilename [] (some [7, 8, 9])),
    .client (.readResult ⟨1, 8000000, 0, 1, 1, 1, 1, by decide⟩)] ++
  List.replicate 7 (.server (.readParameter 0)) ++ [.client .read]

/-- A whole transfer. -/
theorem fields_read_as_written_sample :
    ∃ t, run (Connection.step oneFile) (.start idleServer) (getDescribed ++
        [.client (.openFile true), .client (.openPort (some 5000)), .server (.readPort true 0),
          .client .stop,
          .server (.pass ⟨0, .data Client.ttpRequestStop.encode, .ok, 0, 0, 0⟩)]) = some t ∧
      t.read.length = 10 ∧ t.read <+: t.wrote := by
  have hrun : ∃ t, run (Connection.step oneFile) (.start idleServer) (getDescribed ++
        [.client (.openFile true), .client (.openPort (some 5000)), .server (.readPort true 0),
          .client .stop,
          .server (.pass ⟨0, .data Client.ttpRequestStop.encode, .ok, 0, 0, 0⟩)]) = some t ∧
      t.read.length = 10 := ⟨_, rfl, rfl⟩
  obtain ⟨t, ht, hlen⟩ := hrun
  exact ⟨t, ht, hlen, fields_read_as_written oneFile idleServer _ t rfl ht (by decide +kernel)⟩

/-- The local file cannot be opened, and the next name is read as a port. -/
theorem name_read_as_port :
    ∃ t, run (Connection.step oneFile) (.start idleServer) (getDescribed ++
        [.client (.openFile false), .client (.get [98]), .server (.readPort true 0)]) = some t ∧
      t.wrote.getLast? = some (.line, [98, 10]) ∧ t.read.getLast? = some (.port, [98, 10]) ∧
      ¬t.read <+: t.wrote := by
  have hrun : ∃ t, run (Connection.step oneFile) (.start idleServer) (getDescribed ++
        [.client (.openFile false), .client (.get [98]), .server (.readPort true 0)]) = some t ∧
      t.wrote.getLast? = some (.line, [98, 10]) ∧ t.read.getLast? = some (.port, [98, 10]) ∧
      t.read.length = t.wrote.length := ⟨_, rfl, rfl, rfl, rfl⟩
  obtain ⟨t, ht, hwrote, hread, hlen⟩ := hrun
  refine ⟨t, ht, hwrote, hread, fun hpre => ?_⟩
  rw [hpre.eq_of_length hlen, hwrote] at hread
  cases hread

end TsunamiUdp.Control

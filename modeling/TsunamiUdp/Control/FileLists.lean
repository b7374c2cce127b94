import TsunamiUdp.Control.InStep

/-! The two lists of files that the server sends, with the names and sizes that the client
makes of them. -/
namespace TsunamiUdp.Control
open Library

/-- `atol`: what does not fit is the largest or the smallest `long`. -/
def atol (text : List UInt8) : Int :=
  let text := text.dropWhile isSpace
  if text.head? = some 45 then max (-9223372036854775808) (-(scanDigits text.tail))
  else if text.head? = some 43 then min 9223372036854775807 (scanDigits text.tail)
  else min 9223372036854775807 (scanDigits text)

def filelen (text : List UInt8) : Nat := (atol (text ++ [0]) % 18446744073709551616).toNat

def printFiles : Nat → List UInt8 → Option (List (List UInt8 × Nat) × List UInt8)
  | 0, down => some ([], down)
  | numFiles + 1, down =>
    (readLine 2047 down).bind fun (name, down) =>
      (readLine 2047 down).bind fun (size, down) =>
        (printFiles numFiles down).map fun (files, down) =>
          ((lineText name, filelen (lineText size)) :: files, down)

/-- `command_dir`, up to the byte with which it confirms the list; `none` if the reply is
not complete or the server knows no such request. -/
def commandDir (down : List UInt8) : Option (List (List UInt8 × Nat) × List UInt8) :=
  match down with
  | [] => none
  | result :: down =>
    if result = 8 then none
    else (readLine 2046 down).bind fun (line, down) =>
      printFiles (scanNumber 65536 (result :: lineText line ++ [0])) down

def fileNames : Nat → List UInt8 → Option (List (List UInt8) × List UInt8)
  | 0, down => some ([], down)
  | fTotal + 1, down =>
    (readLine 1024 down).bind fun (line, down) =>
      (fileNames fTotal down).map fun (names, down) => (lineText line :: names, down)

/-- `command_get` for all files, up to the list; `none` if there are none. -/
def commandGetAll (down : List UInt8) : Option (List (List UInt8) × List UInt8) :=
  (readBytes 20 down).bind fun (bytes, down) =>
    let fTotal := scanNumber 4294967296 (bytes.drop 10)
    if fTotal = 0 then none else fileNames fTotal down

section Reads

def ClientPlace.reads : Nat → ClientPlace → List UInt8 → Option Moved
  | 0, place, down => some ⟨place, [], down⟩
  | n + 1, place, down => (place.step down .read).bind fun moved =>
    (ClientPlace.reads n moved.place moved.down).map fun last =>
      { last with wrote := moved.wrote ++ last.wrote }

theorem reads_succ {place : ClientPlace} {down : List UInt8} {moved : Moved} (n : Nat)
    (h : place.step down .read = some moved) :
    place.reads (n + 1) down = (moved.place.reads n moved.down).map fun last =>
      { last with wrote := moved.wrote ++ last.wrote } := by
  rw [ClientPlace.reads, h, Option.bind_some]

theorem printFiles_reads {numFiles : Nat} {down rest : List UInt8} {files : List (List UInt8 × Nat)}
    (h : printFiles (numFiles + 1) down = some (files, rest)) :
    (ClientPlace.dirLines (2 * (numFiles + 1))).reads (2 * (numFiles + 1)) down =
      some ⟨.prompt, [ackItem], rest⟩ := by
  induction numFiles generalizing down files with
  | zero =>
    obtain ⟨⟨name, down'⟩, hname, h⟩ := Option.bind_eq_some_iff.mp h
    obtain ⟨⟨size, down''⟩, hsize, h⟩ := Option.bind_eq_some_iff.mp h
    have hrest : down'' = rest := (Prod.ext_iff.mp (Option.some.inj h)).2
    have hfirst : (ClientPlace.dirLines 2).step down .read = some ⟨.dirLines 1, [], down'⟩ := by
      simp only [ClientPlace.step, readEntry, hname, Option.map_some]
      rfl
    have hsecond : (ClientPlace.dirLines 1).step down' .read = some ⟨.prompt, [ackItem], rest⟩ := by
      simp only [ClientPlace.step, readEntry, hsize, hrest, Option.map_some]
      rfl
    rw [reads_succ 1 hfirst, reads_succ 0 hsecond]
    rfl
  | succ numFiles ih =>
    obtain ⟨⟨name, down'⟩, hname, h⟩ := Option.bind_eq_some_iff.mp h
    obtain ⟨⟨size, down''⟩, hsize, h⟩ := Option.bind_eq_some_iff.mp h
    obtain ⟨⟨files', rest'⟩, hfiles, h⟩ := Option.map_eq_some_iff.mp h
    have hrest : rest' = rest := (Prod.ext_iff.mp h).2
    rw [hrest] at hfiles
    have hfirst : (ClientPlace.dirLines (2 * (numFiles + 1) + 2)).step down .read =
        some ⟨.dirLines (2 * (numFiles + 1) + 1), [], down'⟩ := by
      simp only [ClientPlace.step, readEntry, hname, Option.map_some]
      rw [if_neg (by omega)]
      rfl
    have hsecond : (ClientPlace.dirLines (2 * (numFiles + 1) + 1)).step down' .read =
        some ⟨.dirLines (2 * (numFiles + 1)), [], down''⟩ := by
      simp only [ClientPlace.step, readEntry, hsize, Option.map_some]
      rw [if_neg (by omega)]
      rfl
    rw [show 2 * (numFiles + 1 + 1) = 2 * (numFiles + 1) + 1 + 1 by ring, reads_succ _ hfirst,
      reads_succ _ hsecond, ih hfiles]
    rfl

theorem commandDir_reads {down rest : List UInt8} {files : List (List UInt8 × Nat)}
    (h : commandDir down = some (files, rest)) :
    ∃ n, ClientPlace.dirCount.reads n down = some ⟨.prompt, [ackItem], rest⟩ := by
  unfold commandDir at h
  cases down with
  | nil => cases h
  | cons result down =>
    dsimp only at h
    split at h
    · cases h
    · rename_i hresult
      obtain ⟨⟨line, down'⟩, hline, h⟩ := Option.bind_eq_some_iff.mp h
      have hcount : ClientPlace.dirCount.step (result :: down) .read = some
          (if scanNumber 65536 (result :: lineText line ++ [0]) = 0 then ⟨.prompt, [ackItem], down'⟩
            else ⟨.dirLines (2 * scanNumber 65536 (result :: lineText line ++ [0])), [], down'⟩) := by
        simp only [ClientPlace.step, readCount, if_neg hresult, hline, Option.map_some]
      dsimp only at h
      generalize scanNumber 65536 (result :: lineText line ++ [0]) = numFiles at h hcount
      cases numFiles with
      | zero =>
        cases h
        exact ⟨1, by rw [reads_succ 0 hcount]; rfl⟩
      | succ numFiles =>
        refine ⟨2 * (numFiles + 1) + 1, ?_⟩
        rw [reads_succ _ hcount, if_neg (Nat.succ_ne_zero numFiles), printFiles_reads h]
        rfl

theorem fileNames_reads {fTotal : Nat} {down rest : List UInt8} {names : List (List UInt8)}
    (before : List (List UInt8)) (h : fileNames (fTotal + 1) down = some (names, rest)) :
    (ClientPlace.starNames (fTotal + 1) before).reads (fTotal + 1) down =
      some (nextFile (before ++ names) [gotListItem] rest) := by
  induction fTotal generalizing down names before with
  | zero =>
    obtain ⟨⟨line, down'⟩, hline, h⟩ := Option.bind_eq_some_iff.mp h
    obtain ⟨rfl, rfl⟩ := Prod.ext_iff.mp (Option.some.inj h)
    have hlast : (ClientPlace.starNames 1 before).step down .read =
        some (nextFile (before ++ [lineText line]) [gotListItem] down') := by
      simp only [ClientPlace.step, readName, hline, Option.map_some]
      rfl
    rw [reads_succ 0 hlast, ClientPlace.reads, Option.map_some, List.append_nil]
  | succ fTotal ih =>
    obtain ⟨⟨line, down'⟩, hline, h⟩ := Option.bind_eq_some_iff.mp h
    obtain ⟨⟨names', rest'⟩, hnames, h⟩ := Option.map_eq_some_iff.mp h
    obtain ⟨rfl, rfl⟩ := Prod.ext_iff.mp h
    have hfirst : (ClientPlace.starNames (fTotal + 1 + 1) before).step down .read =
        some ⟨.starNames (fTotal + 1) (before ++ [lineText line]), [], down'⟩ := by
      simp only [ClientPlace.step, readName, hline, Option.map_some]
      rw [if_neg (by omega)]
      rfl
    rw [reads_succ _ hfirst, ih (before ++ [lineText line]) hnames, List.append_assoc]
    rfl

/-- The client of the connection reads what `command_get` reads, and goes on with the
first of the files. -/
theorem commandGetAll_reads {down rest : List UInt8} {names : List (List UInt8)}
    (h : commandGetAll down = some (names, rest)) :
    ∃ n, ClientPlace.starSizes.reads n down =
      some (nextFile names [gotSizeItem, gotListItem] rest) := by
  obtain ⟨⟨bytes, down'⟩, hbytes, h⟩ := Option.bind_eq_some_iff.mp h
  have hsizes : ClientPlace.starSizes.step down .read = some
      (if scanNumber 4294967296 (bytes.drop 10) = 0 then ⟨.starFails, [gotSizeItem], down'⟩
        else ⟨.starNames (scanNumber 4294967296 (bytes.drop 10)) [], [gotSizeItem], down'⟩) := by
    simp only [ClientPlace.step, readSizes, hbytes, Option.map_some]
  dsimp only at h
  generalize scanNumber 4294967296 (bytes.drop 10) = fTotal at h hsizes
  cases fTotal with
  | zero => cases h
  | succ fTotal =>
    refine ⟨fTotal + 1 + 1, ?_⟩
    rw [reads_succ _ hsizes, if_neg (Nat.succ_ne_zero fTotal), fileNames_reads [] h,
      List.nil_append]
    cases names <;> rfl

end Reads

section Decode

theorem scanDigits_read {text : List UInt8} (h : text ≠ []) (hdigits : ∀ b ∈ text, isDigit b = true) :
    (text ++ [0]).dropWhile isSpace = text ++ [0] ∧ (text ++ [0]).head? ≠ some 45 ∧
      (text ++ [0]).head? ≠ some 43 := by
  obtain ⟨b, rest, rfl⟩ := List.exists_cons_of_ne_nil h
  have hrange : 48 ≤ b.toNat ∧ b.toNat ≤ 57 := of_decide_eq_true (hdigits b List.mem_cons_self)
  have hspace : isSpace b = false := decide_eq_false (by omega)
  refine ⟨List.dropWhile_cons_of_neg (by rw [hspace]; decide), ?_, ?_⟩
  · rintro ⟨⟩
    exact absurd hrange (by decide)
  · rintro ⟨⟩
    exact absurd hrange (by decide)

theorem filelen_decimal {size : Nat} (h : size < 9223372036854775808) :
    filelen ((decimal size).take 19) = size := by
  have hlen : (decimal size).length ≤ 19 := decimal_length (by decide) (by omega)
  obtain ⟨hdrop, hminus, hplus⟩ := scanDigits_read (decimal_ne_nil size) (decimal_digits size)
  have hscan : scanDigits (decimal size ++ [0]) = size := scanDigits_decimal size [] (by decide)
  rw [List.take_of_length_le hlen, filelen, atol]
  simp only [hdrop, if_neg hminus, if_neg hplus, hscan]
  omega

variable {files : List (List UInt8 × Nat)}

theorem printFiles_strings (h : ∀ file ∈ files, OneLine 1024 file.1 ∧ file.2 < 9223372036854775808)
    (rest : List UInt8) :
    printFiles files.length
      (strings (files.flatMap fun file => [file.1, (decimal file.2).take 19]) ++ rest) =
        some (files, rest) := by
  induction files with
  | nil => rfl
  | cons file files ih =>
    obtain ⟨hline, hsize⟩ := h file List.mem_cons_self
    have hname : OneLine 2047 file.1 := ⟨hline.unbroken, hline.fits.trans (by decide)⟩
    have hrest := ih fun f hf => h f (List.mem_cons_of_mem file hf)
    rw [List.flatMap_cons, List.cons_append, List.cons_append, List.nil_append, strings_cons,
      strings_cons, List.append_assoc, List.cons_append, List.append_assoc, List.cons_append,
      List.length_cons, printFiles, hname.read (by decide), Option.bind_some]
    dsimp only
    rw [(decimal_take_oneLine file.2).read (by decide), Option.bind_some]
    dsimp only
    rw [hrest, Option.map_some, lineText_concat, lineText_concat, filelen_decimal hsize]

theorem commandDir_dirReply {config : Config}
    (h : ∀ file ∈ config.files, OneLine 1024 file.1 ∧ file.2 < 9223372036854775808) :
    commandDir (dirReply config) = some (config.files, []) := by
  have hten : config.files.length < 10 ^ 5 := config.few.trans (by decide)
  have hline : OneLine 2047 (decimal config.files.length) :=
    decimal_oneLine (by decide) hten (by decide)
  have hscan : scanNumber 65536 (decimal config.files.length ++ [0]) = config.files.length :=
    scanNumber_decimal [] config.few (by decide)
  have hlist := printFiles_strings h []
  rw [List.append_nil] at hlist
  obtain ⟨b, digits, hdecimal⟩ := List.exists_cons_of_ne_nil (decimal_ne_nil config.files.length)
  have hb : b ≠ 8 := by
    rintro rfl
    have hdigit := decimal_digits config.files.length 8 (by rw [hdecimal]; exact List.mem_cons_self)
    exact absurd hdigit (by decide)
  rw [hdecimal] at hscan hline
  have hfits : digits.length < 2046 := by
    have := hline.fits
    rw [List.length_cons] at this
    omega
  have hdigits : OneLine 2046 digits :=
    ⟨fun c hc => hline.unbroken c (List.mem_cons_of_mem b hc), hfits⟩
  rw [dirReply, strings_cons, hdecimal, List.cons_append, commandDir, if_neg hb,
    hdigits.read (by decide), Option.bind_some]
  dsimp only
  rw [lineText_concat, hscan]
  exact hlist

theorem fileNames_strings {names : List (List UInt8)} (h : ∀ name ∈ names, OneLine 1024 name)
    (rest : List UInt8) : fileNames names.length (strings names ++ rest) = some (names, rest) := by
  induction names with
  | nil => rfl
  | cons name names ih =>
    have hrest := ih fun n hn => h n (List.mem_cons_of_mem name hn)
    rw [strings_cons, List.append_assoc, List.cons_append, List.length_cons, fileNames,
      (h name List.mem_cons_self).read (by decide), Option.bind_some]
    dsimp only
    rw [hrest, Option.map_some, lineText_concat]

theorem commandGetAll_sizesReply {names : List (List UInt8)} (hn : names.length < 65536)
    (hsome : names ≠ []) (h : ∀ name ∈ names, OneLine 1024 name) :
    commandGetAll (sizesReply names ++ strings names) = some (names, []) := by
  have hscan : scanNumber 4294967296 (padded names.length) = names.length :=
    scanNumber_padded (by omega) (by omega)
  have hlist := fileNames_strings h []
  rw [List.append_nil] at hlist
  rw [commandGetAll, readBytes_append (by simp [sizesReply]), Option.bind_some]
  dsimp only
  rw [sizesReply, List.drop_left' (padded_length _), hscan, if_neg (mt List.eq_nil_of_length_eq_zero hsome),
    hlist]

end Decode

/-- What the server writes for `dir` and for `get *` is read as the files it lists, and
nothing is left over. -/
theorem file_lists_survive (config : Config) (s : ServerSide) (hplace : s.place = .filename)
    (hfiles : ∀ file ∈ config.files, OneLine 1024 file.1 ∧ file.2 < 9223372036854775808) :
    (∃ served, s.step config (bytesOf [lineItem tsDirlistHackCmd]) (.readFilename [] none) = some served ∧
      commandDir served.reply = some (config.files, [])) ∧
    (config.hook = false → config.files ≠ [] → ∃ served served',
      s.step config (bytesOf [lineItem allFiles]) (.readFilename [] none) = some served ∧
      served.side.step config (bytesOf [gotSizeItem]) (.readGotSize none) = some served' ∧
      commandGetAll (served.reply ++ served'.reply) = some (config.files.map Prod.fst, [])) := by
  constructor
  · refine ⟨⟨s.at .dirAck, [lineItem tsDirlistHackCmd], [], dirReply config⟩, ?_,
      commandDir_dirReply hfiles⟩
    simp only [ServerSide.step, hplace, readFilename, List.length_nil, Nat.zero_le, if_true,
      readLine_item oneLine_dir, Option.map_some, lineText_concat]
    rfl
  · intro hhook hsome
    have hlisted : listed config [] = config.files.map Prod.fst := by
      rw [listed, hhook, if_neg Bool.false_ne_true]
    have hnames : config.files.map Prod.fst ≠ [] := mt List.map_eq_nil_iff.mp hsome
    have hlines : ∀ name ∈ config.files.map Prod.fst, OneLine 1024 name := by
      intro name hname
      obtain ⟨file, hfile, rfl⟩ := List.mem_map.mp hname
      exact (hfiles file hfile).1
    refine ⟨⟨s.at (.gotSize (config.files.map Prod.fst)), [lineItem allFiles], [],
      sizesReply (config.files.map Prod.fst)⟩, ⟨s.at .gotList, [gotSizeItem], [],
      strings (config.files.map Prod.fst)⟩, ?_, ?_, ?_⟩
    · simp only [ServerSide.step, hplace, readFilename, List.length_nil, Nat.zero_le, if_true,
        readLine_item oneLine_allFiles, Option.map_some, lineText_concat, hlisted]
      rfl
    · show readGotSize config (config.files.map Prod.fst) none
        (s.at (.gotSize (config.files.map Prod.fst))) (bytesOf [gotSizeItem]) = _
      refine (readField_item gotSizeItem rfl [] _).trans ?_
      rw [hhook, if_neg fun h => Bool.false_ne_true h.1]
      rfl
    · exact commandGetAll_sizesReply (by rw [List.length_map]; exact config.few) hnames hlines

/-- One file of three bytes. -/
theorem file_lists_survive_sample :
    (∃ served, idleServer.step oneFile (bytesOf [lineItem tsDirlistHackCmd]) (.readFilename [] none) =
      some served ∧ commandDir served.reply = some ([([97], 3)], [])) ∧
    ∃ served served',
      idleServer.step oneFile (bytesOf [lineItem allFiles]) (.readFilename [] none) = some served ∧
      served.side.step oneFile (bytesOf [gotSizeItem]) (.readGotSize none) = some served' ∧
      commandGetAll (served.reply ++ served'.reply) = some ([[97]], []) := by
  have hfiles : ∀ file ∈ oneFile.files, OneLine 1024 file.1 ∧ file.2 < 9223372036854775808 := by
    decide
  obtain ⟨hdir, hall⟩ := file_lists_survive oneFile idleServer rfl hfiles
  exact ⟨hdir, hall rfl (List.cons_ne_nil _ _)⟩

end TsunamiUdp.Control

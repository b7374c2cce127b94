import TsunamiUdp.RtServer.ParseTime

/-! `ttp_open_transfer` of the realtime server: the length of a recording, which the file
name gives. The parameters of the server are the same for all its clients. -/
namespace TsunamiUdp.RtServer
open Library

def slash : UInt8 := 47

/-- `sl`, the number of slots -/
def sl : Text := [115, 108]

/-- `dl`, the length of the data -/
def dl : Text := [100, 108]

/-- `flen`, the length of the file -/
def flen : Text := [102, 108, 101, 110]

def baseName (filename : Text) : Text := (filename.reverse.takeWhile (· ≠ slash)).reverse

def entries (clock : Clock) (filename : Text) : List Text :=
  (parseEvnFilename (fun str => (parseTime clock str).map Prod.snd) (baseName filename)).auxinfo

/-- `sscanf` into a variable, which keeps its value if there is no number. -/
def scanU64 (str : Text) (old : Nat) : Nat := (readU64 str).getD old

/-- One minute at 512 million samples a second, four bits each. -/
def defaultLength : Nat := 60 * 512000000 * 4 / 8

def scanEntries (fileSize : Nat) : List Text → Nat
  | [] => defaultLength
  | entry :: auxinfo =>
    if entry.take 2 = sl ∨ entry.take 2 = dl then scanU64 (entry.drop 2) fileSize
    else if entry.take 4 = flen then scanU64 (entry.drop 4) fileSize
    else scanEntries fileSize auxinfo

/-- `param->file_size` from its old value. -/
def recordingLength (auxinfo : List Text) (fileSize : Nat) : Nat :=
  match getAuxEntry flen auxinfo with
  | some value => scanU64 value fileSize
  | none =>
    match getAuxEntry dl auxinfo with
    | some value => scanU64 value fileSize
    | none => scanEntries fileSize auxinfo

/-- A request that a client makes, and whether it gets as far as the length: the request
fails before if the board or the local file cannot be opened or the connection breaks. -/
structure Request where
  clock : Clock
  filename : Text
  opened : Bool

def openTransfer (fileSize : Nat) (r : Request) : Nat :=
  if r.opened then recordingLength (entries r.clock r.filename) fileSize else fileSize

/-- What earlier requests leave behind; `reset_server` begins with zeros. -/
def fileSizeAfter (history : List Request) : Nat := history.foldl openTransfer 0

def negotiated (history : List Request) (clock : Clock) (filename : Text) : Nat :=
  openTransfer (fileSizeAfter history) ⟨clock, filename, true⟩

def decimalValue (str : Text) : Option Nat :=
  if str ≠ [] ∧ str.all isDigit then some (scanDigits str) else none

def plainLength (entry : Text) : Option Nat :=
  if entry.take 2 = dl then decimalValue (entry.drop 2)
  else if entry.take 4 = flen then decimalValue (entry.drop 4)
  else none

/-- The value of the first `flen=`, or else of the first `dl=`. -/
def keyedLength (auxinfo : List Text) : Option Text :=
  (getAuxEntry flen auxinfo).or (getAuxEntry dl auxinfo)

/-- The length that the entries say; `none` if they say one that is not a number. -/
def writtenLength (auxinfo : List Text) : Option Nat :=
  match keyedLength auxinfo with
  | some value => decimalValue value
  | none => some ((auxinfo.findSome? plainLength).getD defaultLength)

/-- The length is the same after any two histories and at any time, and it is the one that
is written in the name. -/
def LengthByName (filename : Text) : Prop :=
  ∃ length, ∀ history clock, negotiated history clock filename = length ∧
    ∀ written ∈ writtenLength (entries clock filename), length = written

def behindPrefix (entry : Text) : Option Text :=
  if entry.take 2 = sl ∨ entry.take 2 = dl then some (entry.drop 2)
  else if entry.take 4 = flen then some (entry.drop 4)
  else none

/-- The entry that decides goes on with a number: one of 64 bits, if it is behind `flen=`
or `dl=`, and else the very length that the entries say. -/
def GoesOnWithNumber (auxinfo : List Text) : Prop :=
  match keyedLength auxinfo with
  | some value => (readU64 value).isSome ∧ ∀ n ∈ decimalValue value, n < 2 ^ 64
  | none => ∀ str ∈ auxinfo.findSome? behindPrefix, readU64 str = writtenLength auxinfo

section Clocks
variable {parseTime parseTime' : Text → Option Rat} {parseptr : Text} {ef : EvnFilename}

theorem parseElement_auxinfo {fits : Nat → Bool} {set : EvnFilename → Text → EvnFilename}
    {next next' : Text → EvnFilename → EvnFilename}
    (h : ∀ rest ef, (next rest ef).auxinfo = (next' rest ef).auxinfo) :
    (parseElement parseptr fits set ef next).auxinfo =
      (parseElement parseptr fits set ef next').auxinfo := by
  unfold parseElement
  split
  · rfl
  · split
    · exact h _ _
    · rfl

theorem parseOptional_auxinfo (h : ∀ str, (parseTime str).isSome = (parseTime' str).isSome) :
    (parseOptional parseTime parseptr ef).auxinfo = (parseOptional parseTime' parseptr ef).auxinfo := by
  unfold parseOptional
  split
  · rfl
  · rename_i token rest htoken
    have htime := h token
    split
    · rfl
    · cases hfirst : parseTime token with
      | none =>
        rw [hfirst] at htime
        rw [Option.isNone_iff_eq_none.mp (Option.isSome_eq_false_iff.mp htime.symm)]
      | some time =>
        rw [hfirst] at htime
        obtain ⟨time', htime'⟩ := Option.isSome_iff_exists.mp htime.symm
        rw [htime']
        dsimp only
        rw [addEntries_eq, addEntries_eq]

theorem recognise_isSome (clock clock' : Clock) (str : Text) (patterns : List TimePattern) (s : TimeVars) :
    (recognise clock str patterns s).isSome = (recognise clock' str patterns s).isSome := by
  induction patterns generalizing s with
  | nil => rfl
  | cons p patterns ih =>
    rw [recognise, recognise]
    split
    · rfl
    · exact ih _

theorem entries_clock (clock clock' : Clock) (filename : Text) :
    entries clock filename = entries clock' filename := by
  unfold entries parseEvnFilename
  dsimp only
  split
  · rfl
  · apply parseElement_auxinfo
    intro _ ef
    refine parseElement_auxinfo fun _ _ => parseElement_auxinfo fun _ _ => parseElement_auxinfo fun _ _ =>
      parseOptional_auxinfo fun str => ?_
    rw [Option.isSome_map, Option.isSome_map, parseTime, parseTime, Option.isSome_map, Option.isSome_map]
    exact recognise_isSome clock clock' str timePatterns {}

end Clocks

section Lengths
variable {auxinfo : List Text} {old : Nat}

def scannedText (auxinfo : List Text) : Option Text :=
  (keyedLength auxinfo).or (auxinfo.findSome? behindPrefix)

theorem scanEntries_eq (old : Nat) (auxinfo : List Text) : scanEntries old auxinfo =
    ((auxinfo.findSome? behindPrefix).map (scanU64 · old)).getD defaultLength := by
  induction auxinfo with
  | nil => rw [scanEntries, List.findSome?_nil, Option.map_none, Option.getD_none]
  | cons entry auxinfo ih =>
    rw [scanEntries, List.findSome?_cons, behindPrefix]
    split
    · rw [Option.map_some, Option.getD_some]
    · split
      · rw [Option.map_some, Option.getD_some]
      · exact ih

theorem recordingLength_eq (auxinfo : List Text) (old : Nat) : recordingLength auxinfo old =
    ((scannedText auxinfo).map (scanU64 · old)).getD defaultLength := by
  unfold recordingLength scannedText keyedLength
  cases getAuxEntry flen auxinfo with
  | some value =>
    rw [Option.some_or, Option.some_or, Option.map_some, Option.getD_some]
  | none =>
    rw [Option.none_or]
    cases getAuxEntry dl auxinfo with
    | some value => rw [Option.some_or, Option.map_some, Option.getD_some]
    | none =>
      rw [Option.none_or]
      exact scanEntries_eq old auxinfo

theorem plainLength_of_behindPrefix {entry : Text} (h : behindPrefix entry = none) :
    plainLength entry = none := by
  unfold behindPrefix at h
  split at h
  · cases h
  · rename_i hletters
    split at h
    · cases h
    · rename_i hflen
      rw [plainLength, if_neg fun hdl => hletters (.inr hdl), if_neg hflen]

theorem writtenLength_of_none (h : scannedText auxinfo = none) :
    writtenLength auxinfo = some defaultLength := by
  obtain ⟨hkeyed, hprefix⟩ := Option.or_eq_none_iff.mp h
  have hplain : auxinfo.findSome? plainLength = none :=
    List.findSome?_eq_none_iff.mpr fun entry hmem =>
      plainLength_of_behindPrefix (List.findSome?_eq_none_iff.mp hprefix entry hmem)
  rw [writtenLength, hkeyed, hplain]
  dsimp only
  rw [Option.getD_none]

theorem recordingLength_of_some {str : Text} {n : Nat} (h : scannedText auxinfo = some str)
    (hread : readU64 str = some n) : recordingLength auxinfo old = n := by
  rw [recordingLength_eq, h, Option.map_some, Option.getD_some, scanU64, hread, Option.getD_some]

theorem recordingLength_of_unread {str : Text} (h : scannedText auxinfo = some str)
    (hread : readU64 str = none) : recordingLength auxinfo old = old := by
  rw [recordingLength_eq, h, Option.map_some, Option.getD_some, scanU64, hread, Option.getD_none]

theorem recordingLength_of_none (h : scannedText auxinfo = none) :
    recordingLength auxinfo old = defaultLength := by
  rw [recordingLength_eq, h, Option.map_none, Option.getD_none]

theorem readU64_decimalValue {str : Text} {n : Nat} (h : decimalValue str = some n) :
    readU64 str = some (min n (2 ^ 64 - 1)) := by
  unfold decimalValue at h
  split at h
  · rename_i hdigits
    cases h
    exact readU64_digits (List.all_eq_true.mp hdigits.2) hdigits.1
  · cases h

theorem read_of_same {str : Text} {length : Nat} (h : scannedText auxinfo = some str)
    (hzero : recordingLength auxinfo 0 = length)
    (hdefault : recordingLength auxinfo defaultLength = length) : readU64 str = some length := by
  cases hread : readU64 str with
  | none =>
    rw [recordingLength_of_unread h hread] at hzero hdefault
    exact absurd (hzero.trans hdefault.symm) (by decide)
  | some n =>
    rw [recordingLength_of_some h hread] at hzero
    rw [hzero]

theorem scannedText_of_keyed {value : Text} (h : keyedLength auxinfo = some value) :
    scannedText auxinfo = some value ∧ writtenLength auxinfo = decimalValue value := by
  rw [scannedText, writtenLength, h, Option.some_or]
  exact ⟨rfl, rfl⟩

theorem scannedText_of_not_keyed (h : keyedLength auxinfo = none) :
    scannedText auxinfo = auxinfo.findSome? behindPrefix ∧
      ∃ written, writtenLength auxinfo = some written := by
  rw [scannedText, writtenLength, h, Option.none_or]
  exact ⟨rfl, _, rfl⟩

theorem goesOn_of_same {length : Nat} (hzero : recordingLength auxinfo 0 = length)
    (hdefault : recordingLength auxinfo defaultLength = length)
    (hwritten : ∀ written ∈ writtenLength auxinfo, length = written) : GoesOnWithNumber auxinfo := by
  unfold GoesOnWithNumber
  split
  · rename_i value hkeyed
    obtain ⟨hscanned, hvalue⟩ := scannedText_of_keyed hkeyed
    have hread := read_of_same hscanned hzero hdefault
    refine ⟨by rw [hread]; rfl, fun n hn => ?_⟩
    have hmin := (readU64_decimalValue hn).symm.trans hread
    have hsame := hwritten n (hvalue.trans hn)
    have := Option.some.inj hmin
    omega
  · rename_i hkeyed
    obtain ⟨hscanned, written, hvalue⟩ := scannedText_of_not_keyed hkeyed
    intro str hstr
    rw [read_of_same (hscanned.trans hstr) hzero hdefault, hvalue, hwritten written hvalue]

theorem same_of_goesOn (h : GoesOnWithNumber auxinfo) : ∃ length,
    (∀ old, recordingLength auxinfo old = length) ∧
      ∀ written ∈ writtenLength auxinfo, length = written := by
  unfold GoesOnWithNumber at h
  split at h
  · rename_i value hkeyed
    obtain ⟨hscanned, hvalue⟩ := scannedText_of_keyed hkeyed
    obtain ⟨length, hread⟩ := Option.isSome_iff_exists.mp h.1
    refine ⟨length, fun old => recordingLength_of_some hscanned hread, fun written hwritten => ?_⟩
    rw [hvalue] at hwritten
    have hsmall := h.2 written hwritten
    have := Option.some.inj ((readU64_decimalValue hwritten).symm.trans hread)
    omega
  · rename_i hkeyed
    obtain ⟨hscanned, written, hvalue⟩ := scannedText_of_not_keyed hkeyed
    refine ⟨written, fun old => ?_, fun m hm => Option.some.inj (hvalue.symm.trans hm)⟩
    cases htext : scannedText auxinfo with
    | none =>
      rw [recordingLength_of_none htext]
      exact Option.some.inj ((writtenLength_of_none htext).symm.trans hvalue)
    | some str =>
      exact recordingLength_of_some htext ((h str (hscanned.symm.trans htext)).trans hvalue)

end Lengths

theorem fileSizeAfter_plain (clock : Clock) : fileSizeAfter [⟨clock, [], true⟩] = defaultLength := by
  have hentries : entries clock [] = [] := rfl
  have hscanned : scannedText [] = none := rfl
  rw [fileSizeAfter, List.foldl_cons, List.foldl_nil, openTransfer, if_pos rfl, hentries,
    recordingLength_of_none hscanned]

/-- `gre53_ef_scan035_sl=4.vsi` -/
def fourSlots : Text :=
  [103, 114, 101, 53, 51, 95, 101, 102, 95, 115, 99, 97, 110, 48, 51, 53, 95, 115, 108, 61, 52, 46,
    118, 115, 105]

end TsunamiUdp.RtServer

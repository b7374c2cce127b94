import Mathlib.Data.Rat.Defs
import TsunamiUdp.Library.Tokens

/-! `parse_evn_filename.c`: the parts of a file name that follows the EVN convention. -/
namespace TsunamiUdp.RtServer
open Library

abbrev Text := List UInt8

def underscore : UInt8 := 95

def dot : UInt8 := 46

def equals : UInt8 := 61

structure EvnFilename where
  expName : Option Text
  stationCode : Option Text
  scanName : Option Text
  dataStartTimeAscii : Option Text
  dataStartTime : Rat
  auxinfo : List Text
  fileType : Option Text
  valid : Bool
deriving DecidableEq

def EvnFilename.addAuxEntry (ef : EvnFilename) (auxentry : Text) : EvnFilename :=
  { ef with auxinfo := ef.auxinfo ++ [auxentry] }

def EvnFilename.invalid (ef : EvnFilename) : EvnFilename := { ef with valid := false }

def getToken (str : Text) : Option (Text × Text) := takeToken underscore str

def splitAtDot (name : Text) : Option (Text × Text) :=
  match name.reverse.dropWhile (· ≠ dot) with
  | [] => none
  | _ :: stem => some (stem.reverse, (name.reverse.takeWhile (· ≠ dot)).reverse)

def getAuxEntry (key : Text) (auxinfo : List Text) : Option Text :=
  auxinfo.findSome? fun entry =>
    if entry.length > key.length ∧ entry.take key.length = key ∧ entry[key.length]? = some equals then
      some (entry.drop (key.length + 1))
    else none

def addEntries (parseptr : Text) (ef : EvnFilename) : EvnFilename :=
  (takeTokens underscore parseptr.length parseptr).foldl EvnFilename.addAuxEntry ef

def parseOptional (parseTime : Text → Option Rat) (parseptr : Text) (ef : EvnFilename) : EvnFilename :=
  match getToken parseptr with
  | none => addEntries parseptr ef
  | some (token, parseptr) =>
    if token.length < 2 then ef.invalid
    else match parseTime token with
      | none => addEntries parseptr (ef.addAuxEntry token)
      | some time => addEntries parseptr
        { ef with dataStartTimeAscii := some token, dataStartTime := time }

def parseElement (parseptr : Text) (fits : Nat → Bool) (set : EvnFilename → Text → EvnFilename)
    (ef : EvnFilename) (next : Text → EvnFilename → EvnFilename) : EvnFilename :=
  match getToken parseptr with
  | none => ef.invalid
  | some (token, parseptr) =>
    if fits token.length then next parseptr (set ef token) else (set ef token).invalid

/-- `parseTime` returns the time if it recognises the text as one. -/
def parseEvnFilename (parseTime : Text → Option Rat) (filename : Text) : EvnFilename :=
  let ef : EvnFilename := ⟨none, none, none, none, 0, [], none, true⟩
  match splitAtDot filename with
  | none => ef.invalid
  | some (stem, filetype) =>
    parseElement filetype (2 ≤ ·) (fun ef token => { ef with fileType := some token }) ef fun _ ef =>
    parseElement stem (· ≤ 6) (fun ef token => { ef with expName := some token }) ef fun parseptr ef =>
    parseElement parseptr (2 ≤ ·) (fun ef token => { ef with stationCode := some token }) ef
      fun parseptr ef =>
    parseElement parseptr (· ≤ 16) (fun ef token => { ef with scanName := some token }) ef
      (parseOptional parseTime)

/-- The parts of a file name; `others` are those that may be missing. -/
structure Components where
  expName : Text
  stationCode : Text
  scanName : Text
  others : List Text
  fileType : Text

/-- What a valid file name looks like, and what its parts are. -/
structure EvnName (name : Text) (c : Components) : Prop where
  splits : ∃ stem ext, name = stem ++ dot :: ext ∧ dot ∉ ext ∧
    c.fileType = ext.takeWhile (· ≠ underscore) ∧
    pieces underscore stem = c.expName :: c.stationCode :: c.scanName :: c.others
  fileType : 2 ≤ c.fileType.length
  expName : c.expName.length ≤ 6
  stationCode : 2 ≤ c.stationCode.length
  scanName : c.scanName.length ≤ 16
  fourth : ∀ piece ∈ c.others.head?, 2 ≤ piece.length

/-- What is to become of them: the fourth part is the start time if it can be read as one,
and everything else is an entry. -/
def Components.parsed (parseTime : Text → Option Rat) (c : Components) : EvnFilename :=
  let ef : EvnFilename :=
    ⟨some c.expName, some c.stationCode, some c.scanName, none, 0, c.others, some c.fileType, true⟩
  match c.others with
  | [] => ef
  | fourth :: rest =>
    match parseTime fourth with
    | none => ef
    | some time => { ef with
      dataStartTimeAscii := some fourth
      dataStartTime := time
      auxinfo := rest }

section Parsing
variable {parseTime : Text → Option Rat} {parseptr stem ext name : Text} {ef : EvnFilename}
  {fits : Nat → Bool} {set : EvnFilename → Text → EvnFilename} {next : Text → EvnFilename → EvnFilename}

theorem splitAtDot_iff : splitAtDot name = some (stem, ext) ↔ name = stem ++ dot :: ext ∧ dot ∉ ext := by
  constructor
  · intro h
    by_cases hmem : dot ∈ name.reverse
    · obtain ⟨first, rest, hname, hfirst⟩ := List.eq_append_cons_of_mem hmem
      obtain ⟨htake, hdrop⟩ := split_at_sep hfirst rest
      have hwhole : name = rest.reverse ++ dot :: first.reverse := by
        rw [← List.reverse_reverse name, hname]
        simp
      rw [splitAtDot, hname, htake, hdrop] at h
      cases h
      exact ⟨hwhole, by rwa [List.mem_reverse]⟩
    · rw [splitAtDot, (whole_without_sep hmem).2] at h
      cases h
  · rintro ⟨rfl, hext⟩
    have hrev : (stem ++ dot :: ext).reverse = ext.reverse ++ dot :: stem.reverse := by simp
    obtain ⟨htake, hdrop⟩ := split_at_sep (mt List.mem_reverse.mp hext) stem.reverse
    rw [splitAtDot, hrev, htake, hdrop]
    dsimp only
    rw [List.reverse_reverse, List.reverse_reverse]

theorem addEntries_eq : addEntries parseptr ef =
    { ef with auxinfo := ef.auxinfo ++ pieces underscore parseptr } := by
  have hfold : ∀ (entries : List Text) (ef : EvnFilename),
      entries.foldl EvnFilename.addAuxEntry ef = { ef with auxinfo := ef.auxinfo ++ entries } := by
    intro entries
    induction entries with
    | nil => intro ef; rw [List.append_nil]; rfl
    | cons entry entries ih =>
      intro ef
      rw [List.foldl_cons, ih, EvnFilename.addAuxEntry, List.append_assoc]
      rfl
  rw [addEntries, takeTokens_eq le_rfl, hfold]

variable (fits) in
theorem parseElement_fits {token : Text} {more : List Text}
    (h : pieces underscore parseptr = token :: more) (hfits : fits token.length = true) :
    ∃ rest, pieces underscore rest = more ∧ ∀ set ef next,
      parseElement parseptr fits set ef next = next rest (set ef token) := by
  rcases takeToken_cases underscore parseptr with ⟨-, hnil⟩ | ⟨first, rest, htoken, hpieces⟩
  · cases hnil.symm.trans h
  · cases hpieces.symm.trans h
    refine ⟨rest, rfl, fun set ef next => ?_⟩
    rw [parseElement, getToken, htoken]
    exact if_pos hfits

theorem parseElement_valid (h : (parseElement parseptr fits set ef next).valid = true) :
    ∃ token rest, pieces underscore parseptr = token :: pieces underscore rest ∧
      fits token.length = true ∧ (next rest (set ef token)).valid = true := by
  rcases takeToken_cases underscore parseptr with ⟨hnone, -⟩ | ⟨token, rest, htoken, hpieces⟩
  · rw [parseElement, getToken, hnone] at h
    cases h
  · rw [parseElement, getToken, htoken] at h
    dsimp only at h
    split at h
    · rename_i hfits
      exact ⟨token, rest, hpieces, hfits, h⟩
    · cases h

theorem parseOptional_valid (h : (parseOptional parseTime parseptr ef).valid = true) :
    ∀ piece ∈ (pieces underscore parseptr).head?, 2 ≤ piece.length := by
  rcases takeToken_cases underscore parseptr with ⟨-, hnil⟩ | ⟨token, rest, htoken, hpieces⟩
  · rw [hnil]
    rintro piece ⟨⟩
  · rw [parseOptional, getToken, htoken] at h
    dsimp only at h
    split at h
    · cases h
    · rw [hpieces]
      rintro piece ⟨⟩
      omega

theorem parseOptional_eq {c : Components} (hothers : pieces underscore parseptr = c.others)
    (hfourth : ∀ piece ∈ c.others.head?, 2 ≤ piece.length) :
    parseOptional parseTime parseptr
      ⟨some c.expName, some c.stationCode, some c.scanName, none, 0, [], some c.fileType, true⟩ =
        c.parsed parseTime := by
  unfold Components.parsed
  rcases takeToken_cases underscore parseptr with ⟨hnone, hnil⟩ | ⟨token, rest, htoken, hpieces⟩
  · rw [parseOptional, getToken, hnone, ← hothers, hnil, addEntries_eq, hnil]
    rfl
  · have hsplit : c.others = token :: pieces underscore rest := hothers.symm.trans hpieces
    have hlong : ¬token.length < 2 := by
      have := hfourth token (by rw [hsplit]; rfl)
      omega
    rw [parseOptional, getToken, htoken, hsplit]
    dsimp only
    rw [if_neg hlong]
    cases parseTime token with
    | none =>
      dsimp only
      rw [addEntries_eq]
      rfl
    | some time =>
      dsimp only
      rw [addEntries_eq]
      rfl

theorem parseEvnFilename_eq {c : Components} (h : EvnName name c) :
    parseEvnFilename parseTime name = c.parsed parseTime := by
  obtain ⟨stem, ext, hname, hext, htype, hpieces⟩ := h.splits
  have hlong : ext ≠ [] := by
    rintro rfl
    have := h.fileType
    rw [htype] at this
    exact absurd this (by decide)
  have hfirst : pieces underscore ext = _ := pieces_of_ne_nil hlong
  rw [← htype] at hfirst
  obtain ⟨_, _, htoken⟩ := parseElement_fits (2 ≤ ·) hfirst (decide_eq_true h.fileType)
  obtain ⟨p, hp, hexp⟩ := parseElement_fits (· ≤ 6) hpieces (decide_eq_true h.expName)
  obtain ⟨q, hq, hstation⟩ := parseElement_fits (2 ≤ ·) hp (decide_eq_true h.stationCode)
  obtain ⟨r, hr, hscan⟩ := parseElement_fits (· ≤ 16) hq (decide_eq_true h.scanName)
  rw [parseEvnFilename, splitAtDot_iff.mpr ⟨hname, hext⟩]
  dsimp only
  rw [htoken, hexp, hstation, hscan]
  exact parseOptional_eq hr h.fourth

theorem valid_components (h : (parseEvnFilename parseTime name).valid = true) :
    ∃ c, EvnName name c := by
  unfold parseEvnFilename at h
  dsimp only at h
  split at h
  · cases h
  · rename_i stem ext hsplit
    obtain ⟨hname, hext⟩ := splitAtDot_iff.mp hsplit
    obtain ⟨fileType, rest, htype, hlong, h⟩ := parseElement_valid h
    obtain ⟨expName, p, hp, hexp, h⟩ := parseElement_valid h
    obtain ⟨stationCode, q, hq, hstation, h⟩ := parseElement_valid h
    obtain ⟨scanName, r, hr, hscan, h⟩ := parseElement_valid h
    have hnil : ext ≠ [] := by
      rintro rfl
      cases htype
    have hfirst : pieces underscore ext = _ := pieces_of_ne_nil hnil
    rw [htype] at hfirst
    have hpieces : pieces underscore stem = expName :: stationCode :: scanName :: pieces underscore r := by
      rw [hp, hq, hr]
    exact ⟨⟨expName, stationCode, scanName, pieces underscore r, fileType⟩,
      ⟨stem, ext, hname, hext, (List.cons.inj hfirst).1, hpieces⟩, of_decide_eq_true hlong,
      of_decide_eq_true hexp, of_decide_eq_true hstation, of_decide_eq_true hscan,
      parseOptional_valid h⟩

theorem parsed_valid (parseTime : Text → Option Rat) (c : Components) :
    (c.parsed parseTime).valid = true := by
  unfold Components.parsed
  dsimp only
  split
  · rfl
  · split <;> rfl

end Parsing

section Entries
variable {key value : Text}

theorem entry_iff (entry : Text) :
    (entry.length > key.length ∧ entry.take key.length = key ∧ entry[key.length]? = some equals) ∧
        entry.drop (key.length + 1) = value ↔ entry = key ++ equals :: value := by
  constructor
  · rintro ⟨⟨-, htake, hget⟩, hdrop⟩
    obtain ⟨hlt, hget⟩ := List.getElem?_eq_some_iff.mp hget
    have hcons := List.drop_eq_getElem_cons hlt
    rw [hget, hdrop] at hcons
    rw [← List.take_append_drop key.length entry, htake, hcons]
  · rintro rfl
    refine ⟨⟨?_, List.take_left' rfl, ?_⟩, ?_⟩
    · rw [List.length_append, List.length_cons]
      omega
    · rw [List.getElem?_append_right le_rfl, Nat.sub_self]
      rfl
    · rw [← List.drop_drop, List.drop_left' rfl]
      rfl

theorem getAuxEntry_iff {auxinfo : List Text} :
    getAuxEntry key auxinfo = some value ↔ ∃ before after,
      auxinfo = before ++ (key ++ equals :: value) :: after ∧
        ∀ entry ∈ before, ∀ v, entry ≠ key ++ equals :: v := by
  have hnone : ∀ entry : Text, (if entry.length > key.length ∧ entry.take key.length = key ∧
      entry[key.length]? = some equals then some (entry.drop (key.length + 1)) else none) = none ↔
        ∀ v, entry ≠ key ++ equals :: v := by
    intro entry
    constructor
    · intro h v heq
      rw [if_pos ((entry_iff entry).mpr heq).1] at h
      cases h
    · intro h
      exact if_neg fun hok => h _ ((entry_iff entry).mp ⟨hok, rfl⟩)
  have hsome : ∀ entry : Text, (if entry.length > key.length ∧ entry.take key.length = key ∧
      entry[key.length]? = some equals then some (entry.drop (key.length + 1)) else none) = some value ↔
        entry = key ++ equals :: value := by
    intro entry
    rw [← entry_iff entry]
    constructor
    · intro h
      split at h
      · rename_i hok
        exact ⟨hok, Option.some.inj h⟩
      · cases h
    · rintro ⟨hok, hdrop⟩
      rw [if_pos hok, hdrop]
  unfold getAuxEntry
  rw [List.findSome?_eq_some_iff]
  simp only [hnone, hsome]
  constructor
  · rintro ⟨before, entry, after, hlist, rfl, hbefore⟩
    exact ⟨before, after, hlist, hbefore⟩
  · rintro ⟨before, after, hlist, hbefore⟩
    exact ⟨before, _, after, hlist, rfl, hbefore⟩

end Entries

/-- A name is valid if and only if it has the parts of one, and then these are what it is
parsed into; a key is looked up in the first entry that has a value for it. -/
theorem evn_filename_parsed (parseTime : Text → Option Rat) (name : Text) :
    ((parseEvnFilename parseTime name).valid = true ↔ ∃ c, EvnName name c) ∧
    (∀ c, EvnName name c → parseEvnFilename parseTime name = c.parsed parseTime) ∧
    ∀ key value, getAuxEntry key (parseEvnFilename parseTime name).auxinfo = some value ↔
      ∃ before after,
        (parseEvnFilename parseTime name).auxinfo = before ++ (key ++ equals :: value) :: after ∧
          ∀ entry ∈ before, ∀ v, entry ≠ key ++ equals :: v := by
  refine ⟨⟨valid_components, ?_⟩, fun c h => parseEvnFilename_eq h, fun key value => getAuxEntry_iff⟩
  rintro ⟨c, h⟩
  rw [parseEvnFilename_eq h]
  exact parsed_valid parseTime c

/-- `n1_ef_no1_a=b.vsi`: a recording with an entry and without a start time. -/
example : parseEvnFilename (fun _ => none)
      [110, 49, 95, 101, 102, 95, 110, 111, 49, 95, 97, 61, 98, 46, 118, 115, 105] =
    ⟨some [110, 49], some [101, 102], some [110, 111, 49], none, 0, [[97, 61, 98]],
      some [118, 115, 105], true⟩ := by
  decide +kernel

end TsunamiUdp.RtServer

import Mathlib.Data.List.TakeWhile
import TsunamiUdp.Control.Handshake

/-! The list of files that the `allhook` program puts out: how `ttp_open_transfer` reads
and sends it, and what the client makes of it. -/
namespace TsunamiUdp.Control
open Library

/-- `MaxFileListLength` -/
def maxFileListLength : Nat := 32768

/-- `sizeof(message)` -/
def messageSize : Nat := 20

/-- `fgets` with room for so many bytes: up to the end of the line, that included. -/
def fgets : Nat → List UInt8 → List UInt8 × List UInt8
  | 0, stream => ([], stream)
  | _ + 1, [] => ([], [])
  | room + 1, b :: stream =>
    if b = 10 then ([b], stream)
    else (b :: (fgets room stream).1, (fgets room stream).2)

/-- `message[l] >= ' '`, where `char` is signed. -/
def printable (b : UInt8) : Bool := decide (32 ≤ b.toNat ∧ b.toNat < 128)

structure FileList where
  fileList : List UInt8
  length : Nat
  nFile : Nat

def FileList.start : FileList := ⟨List.replicate maxFileListLength 0, 0, 0⟩

def FileList.add (list : FileList) (message : List UInt8) : FileList where
  fileList := list.fileList.take list.length ++ message ++
    list.fileList.drop (list.length + message.length)
  length := list.length + (message.length + 1)
  nFile := list.nFile + 1

/-- The loop over what the program puts out, a message at a time; with as much fuel as
there are bytes it goes on to the end. -/
def readMessages : Nat → List UInt8 → FileList → FileList
  | 0, _, list => list
  | fuel + 1, stream, list =>
    if stream = [] then list
    else
      let (message, rest) := fgets (messageSize - 1) stream
      let message := message.takeWhile printable
      if message.length + list.length ≥ maxFileListLength then list
      else readMessages fuel rest (list.add message)

/-- The names that are sent, each with its end: `strlen` says where the next one begins. -/
def takeNames : Nat → List UInt8 → List (List UInt8)
  | 0, _ => []
  | n + 1, bytes =>
    let name := bytes.takeWhile (· ≠ 0)
    name :: takeNames n (bytes.drop (name.length + 1))

def hookListing (output : List UInt8) : List (List UInt8) :=
  let list := readMessages output.length output .start
  takeNames list.nFile list.fileList

def messages : Nat → List UInt8 → List (List UInt8)
  | 0, _ => []
  | fuel + 1, stream =>
    if stream = [] then []
    else (fgets (messageSize - 1) stream).1.takeWhile printable ::
      messages fuel (fgets (messageSize - 1) stream).2

def fitting : Nat → List (List UInt8) → List (List UInt8)
  | _, [] => []
  | used, message :: rest =>
    if message.length + used ≥ maxFileListLength then []
    else message :: fitting (used + (message.length + 1)) rest

section Buffer

structure FileList.Holds (list : FileList) (names : List (List UInt8)) : Prop where
  bytes : list.fileList =
    strings names ++ List.replicate (maxFileListLength - (strings names).length) 0
  length : list.length = (strings names).length
  nFile : list.nFile = names.length

theorem holds_start : FileList.start.Holds [] := ⟨rfl, rfl, rfl⟩

@[simp] theorem strings_append (names names' : List (List UInt8)) :
    strings (names ++ names') = strings names ++ strings names' :=
  List.flatMap_append

@[simp] theorem strings_singleton (name : List UInt8) : strings [name] = name ++ [0] :=
  List.append_nil _

theorem FileList.Holds.add {list : FileList} {names : List (List UInt8)} {message : List UInt8}
    (h : list.Holds names) (hfits : message.length + list.length < maxFileListLength) :
    (list.add message).Holds (names ++ [message]) := by
  have hlength := h.length
  have hlen : (strings (names ++ [message])).length = list.length + (message.length + 1) := by
    rw [strings_append, strings_singleton, List.length_append, List.length_append, ← hlength]
    rfl
  refine ⟨?_, hlen.symm, by rw [List.length_append, ← h.nFile]; rfl⟩
  have hzeros : maxFileListLength - (strings names).length - message.length =
      maxFileListLength - (list.length + (message.length + 1)) + 1 := by omega
  unfold FileList.add
  dsimp only
  rw [hlen, h.bytes, hlength, List.take_left' rfl, List.drop_length_add_append, List.drop_replicate,
    ← hlength, hlength, hzeros, hlength, List.replicate_succ, strings_append, strings_singleton]
  simp only [List.append_assoc, List.singleton_append]

theorem takeWhile_name {name : List UInt8} (hname : ∀ b ∈ name, b ≠ 0) (rest : List UInt8) :
    (name ++ 0 :: rest).takeWhile (· ≠ 0) = name := by
  rw [List.takeWhile_append_of_pos fun b hb => by simpa using hname b hb,
    List.takeWhile_cons_of_neg (by simp), List.append_nil]

theorem takeNames_strings {names : List (List UInt8)} (h : ∀ name ∈ names, ∀ b ∈ name, b ≠ 0)
    (rest : List UInt8) : takeNames names.length (strings names ++ rest) = names := by
  induction names with
  | nil => rfl
  | cons name names ih =>
    have hname := takeWhile_name (h name List.mem_cons_self) (strings names ++ rest)
    have hbytes : strings (name :: names) ++ rest = name ++ 0 :: (strings names ++ rest) := by
      rw [strings_cons, List.append_assoc, List.cons_append]
    have hrest := ih fun n hn => h n (List.mem_cons_of_mem name hn)
    have hdrop : (name ++ 0 :: (strings names ++ rest)).drop (name.length + 1) =
        strings names ++ rest := by
      rw [List.drop_length_add_append]
      rfl
    rw [hbytes, List.length_cons, takeNames, hname, hdrop, hrest]

theorem FileList.Holds.takeNames {list : FileList} {names : List (List UInt8)} (h : list.Holds names)
    (hzero : ∀ name ∈ names, ∀ b ∈ name, b ≠ 0) :
    Control.takeNames list.nFile list.fileList = names := by
  rw [h.nFile, h.bytes]
  exact takeNames_strings hzero _

end Buffer

section Messages

theorem readMessages_holds (fuel : Nat) (stream : List UInt8) {list : FileList}
    {names : List (List UInt8)} (h : list.Holds names) :
    (readMessages fuel stream list).Holds (names ++ fitting list.length (messages fuel stream)) := by
  induction fuel generalizing stream list names with
  | zero => simpa [readMessages, messages, fitting] using h
  | succ fuel ih =>
    rw [readMessages, messages]
    split
    · simpa [fitting] using h
    · dsimp only
      rw [fitting]
      split
      · simpa using h
      · rename_i hfits
        have hnext := ih (fgets (messageSize - 1) stream).2 (h.add (not_le.mp hfits))
        rw [List.append_assoc, List.singleton_append] at hnext
        exact hnext

theorem printable_ne_zero {b : UInt8} (h : printable b = true) : b ≠ 0 := by
  rintro rfl
  cases h

theorem messages_printable {fuel : Nat} {stream message : List UInt8}
    (h : message ∈ messages fuel stream) : ∀ b ∈ message, printable b = true := by
  induction fuel generalizing stream with
  | zero => cases h
  | succ fuel ih =>
    rw [messages] at h
    split at h
    · cases h
    · rcases List.mem_cons.mp h with rfl | h
      · exact fun b hb => List.mem_takeWhile_imp hb
      · exact ih h

theorem fgets_length (room : Nat) (stream : List UInt8) : (fgets room stream).1.length ≤ room := by
  induction room generalizing stream with
  | zero => exact le_rfl
  | succ room ih =>
    cases stream with
    | nil => exact Nat.zero_le _
    | cons b stream =>
      rw [fgets]
      split
      · exact Nat.succ_le_succ (Nat.zero_le _)
      · exact Nat.succ_le_succ (ih stream)

theorem messages_length {fuel : Nat} {stream message : List UInt8}
    (h : message ∈ messages fuel stream) : message.length < messageSize := by
  induction fuel generalizing stream with
  | zero => cases h
  | succ fuel ih =>
    rw [messages] at h
    split at h
    · cases h
    · rcases List.mem_cons.mp h with rfl | h
      · have hread := fgets_length (messageSize - 1) stream
        have hstrip := (List.takeWhile_sublist printable (l := (fgets (messageSize - 1) stream).1)).length_le
        unfold messageSize at hread hstrip ⊢
        omega
      · exact ih h

theorem fitting_front (used : Nat) (all : List (List UInt8)) : fitting used all <+: all := by
  induction all generalizing used with
  | nil => exact List.prefix_rfl
  | cons message all ih =>
    rw [fitting]
    split
    · exact List.nil_prefix
    · exact (List.prefix_cons_inj message).mpr (ih _)

theorem hookListing_eq (output : List UInt8) :
    hookListing output = fitting 0 (messages output.length output) := by
  have hholds := readMessages_holds output.length output holds_start
  rw [List.nil_append] at hholds
  refine hholds.takeNames fun name hname b hb => printable_ne_zero ?_
  exact messages_printable ((fitting_front _ _).subset hname) b hb

end Messages

def outputOf (lines : List (List UInt8)) : List UInt8 := lines.flatMap (· ++ [10])

def linePieces (line : List UInt8) : List (List UInt8) :=
  if line.length < messageSize - 1 then [line]
  else line.take (messageSize - 1) :: linePieces (line.drop (messageSize - 1))
termination_by line.length
decreasing_by
  rename_i hlong
  unfold messageSize at hlong ⊢
  rw [List.length_drop]
  omega

structure Printed (lines : List (List UInt8)) : Prop where
  printable : ∀ line ∈ lines, ∀ b ∈ line, 32 ≤ b.toNat ∧ b.toNat ≤ 126
  short : ∀ line ∈ lines, line.length ≤ 1022
  total : (strings lines).length < maxFileListLength

section Lines
variable {line : List UInt8}

theorem fgets_line {room : Nat} (hline : ∀ b ∈ line, b ≠ 10) (hroom : line.length < room)
    (rest : List UInt8) : fgets room (line ++ 10 :: rest) = (line ++ [10], rest) := by
  induction line generalizing room with
  | nil =>
    obtain ⟨room, rfl⟩ : ∃ k, room = k + 1 := ⟨room - 1, by simp at hroom; omega⟩
    exact if_pos rfl
  | cons b line ih =>
    obtain ⟨room, rfl⟩ : ∃ k, room = k + 1 := ⟨room - 1, by simp at hroom; omega⟩
    have hrest := ih (fun c hc => hline c (List.mem_cons_of_mem b hc)) (by simpa using hroom)
    rw [List.cons_append, fgets, if_neg (hline b List.mem_cons_self), hrest]
    rfl

theorem fgets_long {room : Nat} (hline : ∀ b ∈ line, b ≠ 10) (hroom : room ≤ line.length)
    (rest : List UInt8) : fgets room (line ++ rest) = (line.take room, line.drop room ++ rest) := by
  induction room generalizing line with
  | zero => rfl
  | succ room ih =>
    cases line with
    | nil => exact absurd hroom (Nat.not_succ_le_zero room)
    | cons b line =>
      have hrest := ih (fun c hc => hline c (List.mem_cons_of_mem b hc)) (by simpa using hroom)
      rw [List.cons_append, fgets, if_neg (hline b List.mem_cons_self), hrest]
      rfl

theorem Printed.unbroken {lines : List (List UInt8)} (h : Printed lines) (hmem : line ∈ lines) :
    ∀ b ∈ line, b ≠ 10 ∧ Control.printable b = true := by
  intro b hb
  have hrange := h.printable line hmem b hb
  refine ⟨?_, decide_eq_true ⟨hrange.1, by omega⟩⟩
  rintro rfl
  exact absurd hrange.1 (by decide)

theorem messages_line {fuel : Nat} (hline : ∀ b ∈ line, b ≠ 10 ∧ printable b = true)
    (rest : List UInt8) (hfuel : (line ++ 10 :: rest).length ≤ fuel) :
    ∃ fuel', rest.length ≤ fuel' ∧
      messages fuel (line ++ 10 :: rest) = linePieces line ++ messages fuel' rest := by
  induction line using linePieces.induct generalizing fuel with
  | case1 line hshort =>
    obtain ⟨fuel, rfl⟩ : ∃ k, fuel = k + 1 := ⟨fuel - 1, by simp at hfuel; omega⟩
    have hread := fgets_line (fun b hb => (hline b hb).1) hshort rest
    have hstrip : (line ++ [10]).takeWhile printable = line := by
      rw [List.takeWhile_append_of_pos fun b hb => (hline b hb).2,
        List.takeWhile_cons_of_neg (by decide), List.append_nil]
    refine ⟨fuel, by simp at hfuel; omega, ?_⟩
    rw [messages, if_neg (by simp), hread, hstrip, linePieces, if_pos hshort]
    rfl
  | case2 line hlong ih =>
    have hroom : messageSize - 1 ≤ line.length := not_lt.mp hlong
    obtain ⟨fuel, rfl⟩ : ∃ k, fuel = k + 1 := ⟨fuel - 1, by simp at hfuel; omega⟩
    have hread := fgets_long (fun b hb => (hline b hb).1) hroom (10 :: rest)
    have hstrip : (line.take (messageSize - 1)).takeWhile printable = line.take (messageSize - 1) :=
      List.takeWhile_eq_self_iff.mpr fun b hb => (hline b (List.mem_of_mem_take hb)).2
    have hless : (line.drop (messageSize - 1) ++ 10 :: rest).length ≤ fuel := by
      simp only [List.length_append, List.length_drop, List.length_cons] at hfuel ⊢
      unfold messageSize at hroom ⊢
      omega
    obtain ⟨fuel', hfuel', hrest⟩ := ih (fun b hb => hline b (List.mem_of_mem_drop hb)) hless
    have hpieces : linePieces line = line.take (messageSize - 1) :: linePieces (line.drop (messageSize - 1)) := by
      rw [linePieces, if_neg hlong]
    refine ⟨fuel', hfuel', ?_⟩
    rw [messages, if_neg (by simp), hread, hstrip, hrest, hpieces]
    rfl

theorem messages_output {lines : List (List UInt8)}
    (hlines : ∀ line ∈ lines, ∀ b ∈ line, b ≠ 10 ∧ printable b = true) {fuel : Nat}
    (hfuel : (outputOf lines).length ≤ fuel) :
    messages fuel (outputOf lines) = lines.flatMap linePieces := by
  induction lines generalizing fuel with
  | nil => cases fuel <;> rfl
  | cons line lines ih =>
    have hcons : outputOf (line :: lines) = line ++ 10 :: outputOf lines := by simp [outputOf]
    rw [hcons] at hfuel ⊢
    obtain ⟨fuel', hfuel', hline⟩ := messages_line (hlines line List.mem_cons_self) _ hfuel
    rw [hline, ih (fun l hl => hlines l (List.mem_cons_of_mem line hl)) hfuel', List.flatMap_cons]

theorem linePieces_flatten (line : List UInt8) : (linePieces line).flatten = line := by
  induction line using linePieces.induct with
  | case1 line hshort =>
    rw [linePieces, if_pos hshort]
    exact List.append_nil line
  | case2 line hlong ih =>
    rw [linePieces, if_neg hlong, List.flatten_cons, ih]
    exact List.take_append_drop _ line

theorem linePieces_short (h : line.length < messageSize - 1) : linePieces line = [line] := by
  rw [linePieces, if_pos h]

theorem linePieces_pos (line : List UInt8) : 0 < (linePieces line).length := by
  rw [linePieces]
  split
  · exact Nat.one_pos
  · exact Nat.succ_pos _

theorem linePieces_long (h : messageSize - 1 ≤ line.length) : 1 < (linePieces line).length := by
  rw [linePieces, if_neg (not_lt.mpr h)]
  exact Nat.succ_lt_succ (linePieces_pos _)

theorem flatMap_linePieces_length (lines : List (List UInt8)) :
    lines.length ≤ (lines.flatMap linePieces).length := by
  induction lines with
  | nil => exact le_rfl
  | cons line lines ih =>
    have := linePieces_pos line
    rw [List.flatMap_cons, List.length_append, List.length_cons]
    omega

theorem flatMap_linePieces_long {lines : List (List UInt8)} (hmem : line ∈ lines)
    (hlong : messageSize - 1 ≤ line.length) : lines.length < (lines.flatMap linePieces).length := by
  induction lines with
  | nil => cases hmem
  | cons first lines ih =>
    rw [List.flatMap_cons, List.length_append, List.length_cons]
    rcases List.mem_cons.mp hmem with rfl | hmem
    · have hpieces := linePieces_long hlong
      have hrest := flatMap_linePieces_length lines
      omega
    · have hpieces := linePieces_pos first
      have hrest := ih hmem
      omega

theorem flatMap_linePieces_short {lines : List (List UInt8)}
    (h : ∀ line ∈ lines, line.length < messageSize - 1) : lines.flatMap linePieces = lines := by
  induction lines with
  | nil => rfl
  | cons line lines ih =>
    rw [List.flatMap_cons, linePieces_short (h line List.mem_cons_self),
      ih fun l hl => h l (List.mem_cons_of_mem line hl)]
    rfl

@[simp] theorem flatMap_linePieces_flatten (lines : List (List UInt8)) :
    (lines.flatMap linePieces).flatten = lines.flatten := by
  induction lines with
  | nil => rfl
  | cons line lines ih =>
    rw [List.flatMap_cons, List.flatten_append, linePieces_flatten, ih, List.flatten_cons]

theorem fitting_all {used : Nat} {all : List (List UInt8)}
    (h : used + (strings all).length ≤ maxFileListLength) : fitting used all = all := by
  induction all generalizing used with
  | nil => rfl
  | cons message all ih =>
    simp only [strings_cons, List.length_append, List.length_cons] at h
    rw [fitting, if_neg (by omega), ih (by omega)]

theorem fitting_rest (used : Nat) (all : List (List UInt8)) :
    ∃ rest, all = fitting used all ++ rest ∧ ∀ message, rest.head? = some message →
      maxFileListLength ≤ message.length + (used + (strings (fitting used all)).length) := by
  induction all generalizing used with
  | nil => exact ⟨[], rfl, fun message h => by cases h⟩
  | cons message all ih =>
    rw [fitting]
    split
    · rename_i hfull
      refine ⟨message :: all, rfl, fun first hfirst => ?_⟩
      cases hfirst
      exact hfull
    · obtain ⟨rest, hsplit, hfirst⟩ := ih (used + (message.length + 1))
      refine ⟨rest, by rw [List.cons_append, ← hsplit], fun first hrest => ?_⟩
      have hlong := hfirst first hrest
      simp only [strings_cons, List.length_append, List.length_cons]
      omega

/-- The lines are the names if and only if each of them is shorter than a message. -/
theorem hookListing_iff {lines : List (List UInt8)} (h : Printed lines) :
    hookListing (outputOf lines) = lines ↔ ∀ line ∈ lines, line.length < messageSize - 1 := by
  have hmessages : hookListing (outputOf lines) = fitting 0 (lines.flatMap linePieces) := by
    rw [hookListing_eq, messages_output (fun line hl => h.unbroken hl) le_rfl]
  have htotal := h.total
  rw [hmessages]
  constructor
  · intro hsame line hmem
    by_contra hlong
    obtain ⟨rest, hsplit, hfirst⟩ := fitting_rest 0 (lines.flatMap linePieces)
    rw [hsame] at hsplit hfirst
    -- all characters are in the names already, so that nothing but empty messages is left
    have hchars := flatMap_linePieces_flatten lines
    rw [hsplit, List.flatten_append, List.append_right_eq_self] at hchars
    cases rest with
    | nil =>
      have hmore := flatMap_linePieces_long hmem (not_lt.mp hlong)
      rw [hsplit, List.append_nil] at hmore
      exact lt_irrefl _ hmore
    | cons message rest =>
      have hempty : message = [] := (List.append_eq_nil_iff.mp hchars).1
      have hfull := hfirst message rfl
      rw [hempty, List.length_nil] at hfull
      omega
  · intro hshort
    rw [flatMap_linePieces_short hshort]
    exact fitting_all (by omega)

theorem hookListing_ne_nil {lines : List (List UInt8)} (h : Printed lines) (hsome : lines ≠ []) :
    hookListing (outputOf lines) ≠ [] := by
  have hmessages := messages_output (fun line hl => h.unbroken hl) (le_refl (outputOf lines).length)
  have hlength := flatMap_linePieces_length lines
  have hpos := List.length_pos_iff.mpr hsome
  obtain ⟨message, rest, hfirst⟩ : ∃ message rest, messages (outputOf lines).length (outputOf lines) =
      message :: rest := by
    apply List.exists_cons_of_length_pos
    rw [hmessages]
    omega
  have hshort : message.length < messageSize := messages_length (by
    rw [hfirst]
    exact List.mem_cons_self)
  have hroom : ¬message.length + 0 ≥ maxFileListLength := by
    unfold messageSize at hshort
    unfold maxFileListLength
    omega
  rw [hookListing_eq, hfirst, fitting, if_neg hroom]
  exact List.cons_ne_nil _ _

end Lines

section Names

theorem fitting_total {used : Nat} (hused : used ≤ maxFileListLength) (all : List (List UInt8)) :
    used + (strings (fitting used all)).length ≤ maxFileListLength := by
  induction all generalizing used with
  | nil => exact hused
  | cons message all ih =>
    rw [fitting]
    split
    · exact hused
    · have hnext : used + (message.length + 1) ≤ maxFileListLength := by omega
      have hrest := ih hnext
      simp only [strings_cons, List.length_append, List.length_cons]
      omega

theorem hookListing_total (output : List UInt8) :
    (strings (hookListing output)).length ≤ maxFileListLength := by
  have htotal := fitting_total (Nat.zero_le maxFileListLength) (messages output.length output)
  rw [hookListing_eq]
  omega

theorem strings_length (names : List (List UInt8)) : names.length ≤ (strings names).length :=
  (strings_countP names).trans List.countP_le_length

theorem sizes_announced (output : List UInt8) :
    let list := readMessages output.length output .start
    padded list.length ++ padded list.nFile = sizesReply (hookListing output) := by
  have hholds := readMessages_holds output.length output holds_start
  have htotal := hookListing_total output
  rw [List.nil_append, show FileList.start.length = 0 from rfl, ← hookListing_eq] at hholds
  have hmod : (strings (hookListing output)).length % 65536 = (strings (hookListing output)).length :=
    Nat.mod_eq_of_lt (htotal.trans_lt (by decide))
  dsimp only
  rw [sizesReply, hmod, hholds.length, hholds.nFile]

theorem hookListing_oneLine {output name : List UInt8} (h : name ∈ hookListing output) :
    OneLine maxFilenameLength name := by
  rw [hookListing_eq] at h
  have hmem := (fitting_front _ _).subset h
  constructor
  · intro b hb
    have hprint := of_decide_eq_true (messages_printable hmem b hb)
    have hzero : b ≠ 0 := by
      rintro rfl
      exact absurd hprint.1 (by decide)
    have hbreak : b ≠ 10 := by
      rintro rfl
      exact absurd hprint.1 (by decide)
    simp [endsLine, hzero, hbreak]
  · exact (messages_length hmem).trans (by decide)

end Names

def Outputs (output : List UInt8) : Action → Prop
  | .server (.readFilename listing _) => listing = hookListing output
  | _ => True

def Asks (output : List UInt8) (s : Connection) (action : Action) : Prop :=
  s.client.Handshaking ∧ Outputs output action

/-- What the client has been told agrees with these lines, and what it holds at the end are
these lines: it requests the first one, and keeps the others for later. -/
def Connection.Lists (lines : List (List UInt8)) (s : Connection) : Prop :=
  match s.client with
  | .starNames left names => left + names.length = lines.length
  | .starFails | .prompt => lines = []
  | .requested rest => ∃ name, s.wrote.getLast? = some (lineItem name) ∧ name :: rest = lines
  | _ => True

inductive Fetches (names : List (List UInt8)) : ClientPlace → Place → List UInt8 → List UInt8 →
    List Item → Prop
  | asked {wrote : List Item} :
      Fetches names .starSizes .filename (bytesOf [lineItem allFiles]) [] wrote
  | sized {wrote : List Item} : Fetches names .starSizes (.gotSize names) [] (sizesReply names) wrote
  | sizesRead {wrote : List Item} (some : names ≠ []) :
      Fetches names (.starNames names.length []) (.gotSize names) (bytesOf [gotSizeItem]) [] wrote
  | listed {held left : List (List UInt8)} {wrote : List Item} (split : held ++ left = names)
      (more : left ≠ []) : Fetches names (.starNames left.length held) .gotList [] (strings left) wrote
  | fails {client : ClientPlace} {place : Place} {up down : List UInt8} {wrote : List Item}
      (client_eq : client = .starFails ∨ client = .prompt) (none : names = []) :
      Fetches names client place up down wrote
  | requested {name : List UInt8} {rest : List (List UInt8)} {place : Place} {up down : List UInt8}
      {wrote : List Item} (split : name :: rest = names) (last : wrote.getLast? = some (lineItem name)) :
      Fetches names (.requested rest) place up down wrote

section Fetching
variable {config : Config} {output : List UInt8} {names : List (List UInt8)} {client : ClientPlace}
  {side : ServerSide} {up down : List UInt8} {wrote : List Item}

theorem Fetches.lists {s : Connection} (h : Fetches names s.client s.server.place s.up s.down s.wrote) :
    s.Lists names := by
  unfold Connection.Lists
  generalize s.client = client, s.server.place = place, s.up = up, s.down = down at h
  cases h with
  | asked => trivial
  | sized => trivial
  | sizesRead => rfl
  | @listed held left _ split more =>
    dsimp only
    rw [← split, List.length_append]
    omega
  | fails client_eq none => rcases client_eq with rfl | rfl <;> exact none
  | requested split last => exact ⟨_, last, split⟩

theorem fetches_client (hnames : ∀ name ∈ names, OneLine maxFilenameLength name)
    (hnarrow : names.length < 65536) (h : Fetches names client side.place up down wrote)
    (hin : client.Handshaking) {action : ClientAction} {moved : Moved}
    (hs : client.step down action = some moved) :
    Fetches names moved.place side.place (up ++ bytesOf moved.wrote) moved.down
      (wrote ++ moved.wrote) := by
  generalize hplace : side.place = place at h
  have hread : action = .read := by
    cases client <;> first | exact hin.elim | (cases action <;> first | rfl | cases hs)
  subst hread
  cases h with
  | asked => cases hs
  | sized =>
    cases (readSizes_sizesReply hnarrow).symm.trans hs
    cases names with
    | nil => exact .fails (.inl rfl) rfl
    | cons name names => exact .sizesRead (List.cons_ne_nil name names)
  | sizesRead => cases hs
  | @listed held left _ split more =>
    obtain ⟨name, left, rfl⟩ := List.exists_cons_of_ne_nil more
    have hname := hnames name (split ▸ List.mem_append_right held List.mem_cons_self)
    cases (readName_strings (left.length + 1) held hname).symm.trans hs
    split
    · rename_i hlast
      have hnil : left = [] := List.eq_nil_of_length_eq_zero (by omega)
      rw [hnil] at split
      rw [split]
      obtain ⟨first, rest, rfl⟩ := List.exists_cons_of_ne_nil
        (show names ≠ [] from split ▸ List.append_ne_nil_of_right_ne_nil held (by simp))
      refine .requested rfl ?_
      show (wrote ++ [gotListItem, lineItem first]).getLast? = _
      simp
    · rename_i hmore
      have hsplit : (held ++ [name]) ++ left = names := by simpa using split
      refine .listed hsplit ?_
      rintro rfl
      exact hmore le_rfl
  | fails client_eq none =>
    rcases client_eq with rfl | rfl
    · obtain ⟨_, -, rfl⟩ := Option.map_eq_some_iff.mp hs
      exact .fails (.inr rfl) none
    · exact hin.elim
  | requested => exact hin.elim

theorem fetches_server (hhook : config.hook = true)
    (h : Fetches (hookListing output) client side.place up down wrote) (hin : client.Handshaking)
    {action : ServerAction} {served : Served} (hout : Outputs output (.server action))
    (hs : side.step config up action = some served) :
    Fetches (hookListing output) client served.side.place served.up (down ++ served.reply) wrote := by
  generalize hplace : side.place = place at h
  have hstuck : side.place.Reading → up ≠ [] := by
    rintro hreads rfl
    cases (ServerSide.waits hreads action).symm.trans hs
  rw [hplace] at hstuck
  cases h with
  | asked =>
    cases action <;> simp only [ServerSide.step, hplace] at hs <;> try cases hs
    rename_i listing file
    have hlisting : listing = hookListing output := hout
    subst hlisting
    rw [readFilename_line oneLine_allFiles hs, if_neg (by decide), if_pos rfl, Control.listed,
      if_pos hhook]
    exact .sized
  | sized => exact absurd rfl (hstuck trivial)
  | sizesRead some =>
    obtain ⟨file, hs⟩ := gotSize_step hplace hs
    rw [readGotSize_item, if_neg fun hnil => some hnil.2] at hs
    cases hs
    exact .listed rfl some
  | listed => exact absurd rfl (hstuck trivial)
  | fails client_eq none => exact .fails client_eq none
  | requested => exact hin.elim

theorem fetches_run (hhook : config.hook = true) {server : ServerSide} {as : List Action}
    {t : Connection} (hrun : run (Connection.step config) (.askAll server) as = some t)
    (hasks : Along (Connection.step config) (Asks output) (.askAll server) as) :
    Fetches (hookListing output) t.client t.server.place t.up t.down t.wrote := by
  have hnarrow : (hookListing output).length < 65536 :=
    ((strings_length _).trans (hookListing_total output)).trans_lt (by decide)
  refine run_invariant_along (P := fun s : Connection =>
    Fetches (hookListing output) s.client s.server.place s.up s.down s.wrote) ?_ .asked hasks hrun
  intro s action s' h hok hs
  cases action with
  | client action =>
    obtain ⟨moved, hmoved, rfl⟩ := Option.map_eq_some_iff.mp hs
    exact fetches_client (fun name hname => hookListing_oneLine hname) hnarrow h hok.1 hmoved
  | server action =>
    obtain ⟨served, hserved, rfl⟩ := Option.map_eq_some_iff.mp hs
    exact fetches_server hhook h hok.1 hok.2 hserved

theorem listed_reaches (left : List (List UInt8)) {held : List (List UInt8)} {s : Connection}
    (hmore : left ≠ []) (hlines : ∀ name ∈ left, OneLine maxFilenameLength name)
    (hclient : s.client = .starNames left.length held) (hdown : s.down = strings left) :
    ∃ t rest, ReachesAlong (Connection.step config) (Asks output) s t ∧
      t.client = .requested rest := by
  induction left generalizing held s with
  | nil => exact absurd rfl hmore
  | cons name left ih =>
    have hread := @readName_strings name left (left.length + 1) held (hlines name List.mem_cons_self)
    have hok : Asks output s (.client .read) := by
      refine ⟨?_, trivial⟩
      rw [hclient]
      trivial
    have hstep : s.step config (.client .read) = some
        (let moved := if left.length + 1 ≤ 1 then nextFile (held ++ [name]) [gotListItem] (strings left)
          else ⟨.starNames left.length (held ++ [name]), [], strings left⟩
        { s with
          client := moved.place
          up := s.up ++ bytesOf moved.wrote
          down := moved.down
          wrote := s.wrote ++ moved.wrote }) := by
      simp only [Connection.step, hclient, hdown, ClientPlace.step, List.length_cons, hread,
        Nat.add_sub_cancel, Option.map_some]
    by_cases hlast : left = []
    · subst hlast
      refine ⟨_, (held ++ [name]).tail, .step hok hstep, ?_⟩
      cases held <;> rfl
    · have hpos := List.length_pos_iff.mpr hlast
      rw [if_neg (by omega)] at hstep
      obtain ⟨t, rest, hreach, ht⟩ := ih (s := { s with
          client := .starNames left.length (held ++ [name])
          up := s.up ++ bytesOf []
          down := strings left
          wrote := s.wrote ++ [] }) hlast (fun n hn => hlines n (List.mem_cons_of_mem name hn)) rfl rfl
      exact ⟨t, rest, (ReachesAlong.step hok hstep).trans hreach, ht⟩

/-- If there is a name, the handshake can be completed. -/
theorem handshake_completes (hhook : config.hook = true) (server : ServerSide)
    (hsome : hookListing output ≠ []) :
    ∃ t rest, ReachesAlong (Connection.step config) (Asks output) (.askAll server) t ∧
      t.client = .requested rest := by
  have hcount : (hookListing output).length ≤ 32768 :=
    (strings_length _).trans (hookListing_total output)
  have hlisted : listed config (hookListing output) = hookListing output := if_pos hhook
  have hread := fun side => @readFilename_all config side (hookListing output) none hcount
  have hpos := List.length_pos_iff.mpr hsome
  have hsizes := @readSizes_sizesReply (hookListing output) (by omega)
  rw [if_neg (by omega)] at hsizes
  have hlist := fun side => @readGotSize_item config side (hookListing output) none
  simp only [if_neg fun hnil => hsome (And.right hnil)] at hlist
  have h1 : (Connection.askAll server).step config
      (.server (.readFilename (hookListing output) none)) = some
        ⟨.starSizes, server.at (.gotSize (hookListing output)), [], sizesReply (hookListing output),
          [lineItem allFiles], [lineItem allFiles]⟩ := by
    simp only [Connection.step, Connection.askAll, ServerSide.step, ServerSide.at, hread, hlisted]
    rfl
  have h2 : Connection.step config ⟨.starSizes, server.at (.gotSize (hookListing output)), [],
      sizesReply (hookListing output), [lineItem allFiles], [lineItem allFiles]⟩ (.client .read) =
        some ⟨.starNames (hookListing output).length [], server.at (.gotSize (hookListing output)),
          bytesOf [gotSizeItem], [], [lineItem allFiles, gotSizeItem], [lineItem allFiles]⟩ := by
    simp only [Connection.step, ClientPlace.step, hsizes]
    rfl
  have h3 : Connection.step config ⟨.starNames (hookListing output).length [],
      server.at (.gotSize (hookListing output)), bytesOf [gotSizeItem], [],
      [lineItem allFiles, gotSizeItem], [lineItem allFiles]⟩ (.server (.readGotSize none)) =
        some ⟨.starNames (hookListing output).length [], server.at .gotList, [],
          strings (hookListing output), [lineItem allFiles, gotSizeItem],
          [lineItem allFiles, gotSizeItem]⟩ := by
    simp only [Connection.step, ServerSide.step, ServerSide.at, hlist]
    rfl
  obtain ⟨t, rest, hreach, ht⟩ := @listed_reaches config output (hookListing output) []
    ⟨.starNames (hookListing output).length [], server.at .gotList, [],
      strings (hookListing output), [lineItem allFiles, gotSizeItem],
      [lineItem allFiles, gotSizeItem]⟩ hsome (fun name hname => hookListing_oneLine hname) rfl rfl
  exact ⟨t, rest, (ReachesAlong.step ⟨trivial, rfl⟩ h1).trans
    ((ReachesAlong.step ⟨trivial, trivial⟩ h2).trans
      ((ReachesAlong.step ⟨trivial, trivial⟩ h3).trans hreach)), ht⟩

end Fetching

/-- Whenever the program puts out these lines, the list arrives as they are, if and only if
each of them has at most 18 characters. -/
theorem allhook_list_iff (config : Config) (hhook : config.hook = true) (server : ServerSide)
    {lines : List (List UInt8)} (h : Printed lines) :
    (∀ as t, run (Connection.step config) (.askAll server) as = some t →
        Along (Connection.step config) (Asks (outputOf lines)) (.askAll server) as →
        t.Lists lines) ↔
      ∀ line ∈ lines, line.length ≤ 18 := by
  have hiff := hookListing_iff h
  have hshort : (∀ line ∈ lines, line.length ≤ 18) ↔
      ∀ line ∈ lines, line.length < messageSize - 1 :=
    forall₂_congr fun line _ => Nat.lt_succ_iff.symm
  rw [hshort, ← hiff]
  constructor
  · intro hall
    by_cases hnone : lines = []
    · subst hnone
      exact hookListing_eq []
    · obtain ⟨t, rest, ⟨as, hasks, hrun⟩, hclient⟩ := handshake_completes hhook server
        (hookListing_ne_nil h hnone)
      have hlists := (fetches_run hhook hrun hasks).lists
      have hlines := hall as t hrun hasks
      unfold Connection.Lists at hlists hlines
      rw [hclient] at hlists hlines
      obtain ⟨name, hname, hsplit⟩ := hlists
      obtain ⟨name', hname', hsplit'⟩ := hlines
      rw [hname] at hname'
      have hsame : name = name' := by
        have hitem := congrArg Prod.snd (Option.some.inj hname')
        exact (List.append_inj' hitem rfl).1
      rw [← hsplit, ← hsplit', hsame]
  · intro hsame as t hrun hasks
    have hlists := (fetches_run hhook hrun hasks).lists
    rw [hsame] at hlists
    exact hlists

def hooked : Config := { noFiles with hook := true }

theorem allhook_list_iff_sample :
    Printed [[97], [], [98, 32, 99]] ∧
      ∀ as t, run (Connection.step hooked) (.askAll idleServer) as = some t →
        Along (Connection.step hooked) (Asks (outputOf [[97], [], [98, 32, 99]]))
          (.askAll idleServer) as →
        t.Lists [[97], [], [98, 32, 99]] :=
  have hprinted : Printed [[97], [], [98, 32, 99]] :=
    ⟨by decide +kernel, by decide, by decide⟩
  ⟨hprinted, (allhook_list_iff hooked rfl idleServer hprinted).mpr (by decide +kernel)⟩

/-- A line of 19 characters leaves no room for its end: the client gets a second name, an
empty one. -/
theorem long_line_listed_twice :
    ∃ as t, run (Connection.step hooked) (.askAll idleServer) as = some t ∧
      Along (Connection.step hooked) (Asks (outputOf [List.replicate 19 97])) (.askAll idleServer) as ∧
      ¬t.Lists [List.replicate 19 97] := by
  have hlisting : hookListing (outputOf [List.replicate 19 97]) = [List.replicate 19 97, []] := by
    rw [hookListing_eq]
    decide
  obtain ⟨t, rest, ⟨as, hasks, hrun⟩, hclient⟩ := @handshake_completes hooked
    (outputOf [List.replicate 19 97]) rfl idleServer (by rw [hlisting]; simp)
  have hlists := (fetches_run rfl hrun hasks).lists
  refine ⟨as, t, hrun, hasks, fun hlines => ?_⟩
  unfold Connection.Lists at hlists hlines
  rw [hclient] at hlists hlines
  rw [hlisting] at hlists
  obtain ⟨name, -, hsplit⟩ := hlists
  obtain ⟨name', -, hsplit'⟩ := hlines
  rw [(List.cons.inj hsplit).2] at hsplit'
  cases (List.cons.inj hsplit').2

end TsunamiUdp.Control

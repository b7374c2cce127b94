import TsunamiUdp.Library.Text
import TsunamiUdp.Library.Tokens

/-! `main.c` of the client: the commands that are given as program arguments. -/
namespace TsunamiUdp.Client
open Library

inductive CommandName
  | close
  | quit
  | exit
  | bye
  | help
  | dir
  | connect
  | get
  | set
deriving DecidableEq

namespace CommandName

def text : CommandName → List UInt8
  | close => [99, 108, 111, 115, 101]
  | quit => [113, 117, 105, 116]
  | exit => [101, 120, 105, 116]
  | bye => [98, 121, 101]
  | help => [104, 101, 108, 112]
  | dir => [100, 105, 114]
  | connect => [99, 111, 110, 110, 101, 99, 116]
  | get => [103, 101, 116]
  | set => [115, 101, 116]

def arguments : CommandName → Nat
  | connect => 1
  | get => 1
  | set => 2
  | _ => 0

def quits : CommandName → Bool
  | quit => true
  | exit => true
  | bye => true
  | _ => false

def all : List CommandName := [close, quit, exit, bye, help, dir, connect, get, set]

end CommandName

def lower (b : UInt8) : UInt8 := if 65 ≤ b.toNat ∧ b.toNat ≤ 90 then b + 32 else b

/-- The command for which `strcasecmp` finds no difference. -/
def commandOf (word : List UInt8) : Option CommandName :=
  CommandName.all.find? fun name => word.map lower == name.text

structure Dispatch where
  name : CommandName
  args : List (List UInt8)
deriving DecidableEq

def maxCommandLength : Nat := 1024

def maxCommandWords : Nat := 10

def cString (buffer : List UInt8) : List UInt8 := buffer.takeWhile (· ≠ 0)

/-- `strcpy`; `none` if it writes behind the buffer. -/
def strcpy (buffer src : List UInt8) : Option (List UInt8) :=
  if src.length < buffer.length then some (src ++ 0 :: buffer.drop (src.length + 1)) else none

/-- `strcat`; the string that is there stays in front. -/
def strcat (buffer src : List UInt8) : Option (List UInt8) := strcpy buffer (cString buffer ++ src)

def writeWords (buffer word : List UInt8) (args : List (List UInt8)) : Option (List UInt8) :=
  args.foldl (fun b arg => b.bind fun b => (strcat b [32]).bind fun b => strcat b arg)
    (strcpy buffer word)

inductive Assembled
  | text (buffer : List UInt8) (rest : List (List UInt8))
  | exit
  | overflow

/-- The next command from the command line; the buffer stays as it is if there is none. -/
def assemble (buffer : List UInt8) : List (List UInt8) → Assembled
  | [] => .text buffer []
  | word :: args =>
    match commandOf word with
    | none => assemble buffer args
    | some name =>
      if args.length < name.arguments then .exit
      else match writeWords buffer word (args.take name.arguments) with
        | none => .overflow
        | some buffer => .text buffer (args.drop name.arguments)

def inWord (b : UInt8) : Bool := b ≠ 0 && !isSpace b

/-- The words up to the end of the string, as long as there is room for them; the white
space behind each of them becomes terminators. -/
def parseWords : Nat → List UInt8 → List (List UInt8) × List UInt8
  | 0, buffer => ([], buffer)
  | room + 1, buffer =>
    if cString buffer = [] then ([], buffer)
    else
      let word := buffer.takeWhile inWord
      let behind := buffer.dropWhile inWord
      let (words, rest) := parseWords room (behind.dropWhile isSpace)
      (word :: words, word ++ (behind.takeWhile isSpace).map (fun _ => 0) ++ rest)

/-- `parse_command`: the words, and what becomes of the buffer. -/
def parseCommand (buffer : List UInt8) : List (List UInt8) × List UInt8 :=
  let (words, rest) := parseWords maxCommandWords (buffer.dropWhile isSpace)
  (words, buffer.takeWhile isSpace ++ rest)

def dispatch : List (List UInt8) → Option Dispatch
  | [] => none
  | word :: args => (commandOf word).map fun name => ⟨name, args⟩

/-- The commands that are executed before there is a prompt; `none` if the buffer overflows. -/
def commandLoop : Nat → List UInt8 → List (List UInt8) → Option (List Dispatch)
  | _, _, [] => some []
  | 0, _, _ :: _ => none
  | fuel + 1, buffer, word :: args =>
    match assemble buffer (word :: args) with
    | .exit => some []
    | .overflow => none
    | .text buffer rest =>
      let (words, buffer) := parseCommand buffer
      match dispatch words with
      | none => commandLoop fuel buffer rest
      | some d => if d.name.quits then some [d] else (commandLoop fuel buffer rest).map (d :: ·)

/-- `main`, with what happens to be in the buffer at the beginning. -/
def dispatched (commandText : List UInt8) (argv : List (List UInt8)) : Option (List Dispatch) :=
  commandLoop argv.length commandText argv

/-- The complete commands from left to right, unknown words skipped; `skip` words belong to
the command in front. -/
def commandsFrom : Nat → List (List UInt8) → List Dispatch
  | _, [] => []
  | skip + 1, _ :: args => commandsFrom skip args
  | 0, word :: args =>
    match commandOf word with
    | none => commandsFrom 0 args
    | some name =>
      if args.length < name.arguments then []
      else ⟨name, args.take name.arguments⟩ :: commandsFrom name.arguments args

def writtenCommands (argv : List (List UInt8)) : List Dispatch := commandsFrom 0 argv

def untilQuit : List Dispatch → List Dispatch
  | [] => []
  | d :: commands => if d.name.quits then [d] else d :: untilQuit commands

/-- Exactly the commands that are written are executed, whatever the buffer holds before. -/
def RunsAsWritten (argv : List (List UInt8)) (commands : List Dispatch) : Prop :=
  ∀ commandText : List UInt8, commandText.length = maxCommandLength →
    dispatched commandText argv = some commands

def IsWord (word : List UInt8) : Prop := word ≠ [] ∧ ∀ b ∈ word, inWord b = true

def joined (word : List UInt8) (args : List (List UInt8)) : List UInt8 :=
  word ++ args.flatMap fun arg => 32 :: arg

/-- Behind the last command there is no unknown word, and the arguments of every command
that is executed are words and fit into the buffer. -/
def Plain : Nat → List (List UInt8) → Prop
  | _, [] => True
  | skip + 1, _ :: args => Plain skip args
  | 0, word :: args =>
    match commandOf word with
    | none => args ≠ [] ∧ Plain 0 args
    | some name => args.length < name.arguments ∨
      ((∀ arg ∈ args.take name.arguments, IsWord arg) ∧
        (joined word (args.take name.arguments)).length < maxCommandLength ∧
          (name.quits = true ∨ Plain name.arguments args))

section Buffers
variable {buffer text src word : List UInt8} {args : List (List UInt8)}

theorem cString_eq (htext : 0 ∉ text) (more : List UInt8) : cString (text ++ 0 :: more) = text :=
  (split_at_sep htext more).1

theorem strcpy_length {filled : List UInt8} (h : strcpy buffer src = some filled) :
    filled.length = buffer.length := by
  unfold strcpy at h
  split at h
  · cases h
    rw [List.length_append, List.length_cons, List.length_drop]
    omega
  · cases h

theorem strcat_bind (htext : 0 ∉ text) (src : List UInt8) :
    ((strcpy buffer text).bind fun b => strcat b src) = strcpy buffer (text ++ src) := by
  have hlonger : (text ++ src).length = text.length + src.length := List.length_append
  by_cases hfits : text.length < buffer.length
  · have hcopy : strcpy buffer text = some (text ++ 0 :: buffer.drop (text.length + 1)) := if_pos hfits
    have hdrop : (text ++ 0 :: buffer.drop (text.length + 1)).drop ((text ++ src).length + 1) =
        buffer.drop ((text ++ src).length + 1) := by
      rw [hlonger, show text.length + src.length + 1 = text.length + (src.length + 1) by omega,
        ← List.drop_drop, List.drop_left, List.drop_succ_cons, List.drop_drop]
      congr 1
      omega
    rw [hcopy, Option.bind_some, strcat, cString_eq htext, strcpy, strcpy, hdrop,
      strcpy_length hcopy]
  · rw [strcpy, if_neg hfits, Option.bind_none, strcpy, if_neg (by omega)]

theorem writeWords_eq (hword : 0 ∉ word) (hargs : ∀ arg ∈ args, 0 ∉ arg) :
    writeWords buffer word args = strcpy buffer (joined word args) := by
  unfold writeWords joined
  induction args generalizing word with
  | nil => rw [List.foldl_nil, List.flatMap_nil, List.append_nil]
  | cons arg args ih =>
    have harg := hargs arg List.mem_cons_self
    have hblank : (0 : UInt8) ∉ word ++ [32] := by
      rw [List.mem_append, not_or]
      exact ⟨hword, by decide⟩
    have hboth : (0 : UInt8) ∉ word ++ [32] ++ arg := by
      rw [List.mem_append, not_or]
      exact ⟨hblank, harg⟩
    have hstep : ((strcpy buffer word).bind fun b => (strcat b [32]).bind fun b => strcat b arg) =
        strcpy buffer (word ++ [32] ++ arg) := by
      rw [← strcat_bind hblank, ← strcat_bind hword, Option.bind_assoc]
    rw [List.foldl_cons, hstep, ih hboth fun a ha => hargs a (List.mem_cons_of_mem arg ha),
      List.flatMap_cons, List.append_assoc, List.append_assoc]
    rfl

end Buffers

section Parsing
variable {word more buffer : List UInt8} {room : Nat}

theorem inWord_iff {b : UInt8} : inWord b = true ↔ b ≠ 0 ∧ isSpace b = false := by
  rw [inWord, Bool.and_eq_true, decide_eq_true_eq, Bool.not_eq_true']

theorem IsWord.no_nul (h : IsWord word) : 0 ∉ word := fun hmem => (inWord_iff.mp (h.2 0 hmem)).1 rfl

theorem IsWord.begins (h : IsWord word) (more : List UInt8) :
    (word ++ more).dropWhile isSpace = word ++ more ∧ (word ++ more).takeWhile isSpace = [] ∧
      cString (word ++ more) ≠ [] := by
  obtain ⟨hne, hall⟩ := h
  obtain ⟨b, word, rfl⟩ := List.exists_cons_of_ne_nil hne
  obtain ⟨hzero, hspace⟩ := inWord_iff.mp (hall b List.mem_cons_self)
  have hno : ¬isSpace b = true := by
    rw [hspace]
    decide
  rw [List.cons_append, cString, List.dropWhile_cons_of_neg hno, List.takeWhile_cons_of_neg hno,
    List.takeWhile_cons_of_pos (p := fun b => decide (b ≠ 0)) (decide_eq_true hzero)]
  exact ⟨rfl, rfl, nofun⟩

theorem IsWord.ends (h : IsWord word) {c : UInt8} (hc : inWord c = false) (more : List UInt8) :
    (word ++ c :: more).takeWhile inWord = word ∧ (word ++ c :: more).dropWhile inWord = c :: more := by
  have hno : ¬inWord c = true := by
    rw [hc]
    decide
  rw [List.takeWhile_append_of_pos h.2, List.dropWhile_append_of_pos h.2,
    List.takeWhile_cons_of_neg hno, List.dropWhile_cons_of_neg hno]
  exact ⟨List.append_nil word, rfl⟩

@[simp] theorem parseWords_nul (room : Nat) (more : List UInt8) :
    parseWords room (0 :: more) = ([], 0 :: more) := by
  cases room with
  | zero => rfl
  | succ room => exact if_pos rfl

theorem parseWords_last (h : IsWord word) (room : Nat) (more : List UInt8) :
    parseWords (room + 1) (word ++ 0 :: more) = ([word], word ++ 0 :: more) := by
  obtain ⟨htake, hdrop⟩ := h.ends (c := 0) rfl more
  have hspace : (0 :: more).dropWhile isSpace = 0 :: more ∧ (0 :: more).takeWhile isSpace = [] :=
    ⟨rfl, rfl⟩
  rw [parseWords, if_neg (h.begins _).2.2]
  dsimp only
  rw [htake, hdrop, hspace.1, hspace.2, parseWords_nul, List.map_nil, List.append_nil]

theorem parseWords_blank (h : IsWord word) (room : Nat) (more : List UInt8) : ∃ rest,
    parseWords (room + 1) (word ++ 32 :: more) =
      (word :: (parseWords room (more.dropWhile isSpace)).1, word ++ 0 :: rest) := by
  obtain ⟨htake, hdrop⟩ := h.ends (c := 32) rfl more
  have hspace : (32 :: more).dropWhile isSpace = more.dropWhile isSpace ∧
      (32 :: more).takeWhile isSpace = 32 :: more.takeWhile isSpace := ⟨rfl, rfl⟩
  rw [parseWords, if_neg (h.begins _).2.2]
  dsimp only
  rw [htake, hdrop, hspace.1, hspace.2, List.map_cons, List.append_assoc]
  exact ⟨_, rfl⟩

theorem parseWords_length (room : Nat) (buffer : List UInt8) :
    (parseWords room buffer).2.length = buffer.length := by
  induction room generalizing buffer with
  | zero => rfl
  | succ room ih =>
    rw [parseWords]
    split
    · rfl
    · have hrest := ih ((buffer.dropWhile inWord).dropWhile isSpace)
      have hword := congrArg List.length (List.takeWhile_append_dropWhile (p := inWord) (l := buffer))
      have hspace := congrArg List.length
        (List.takeWhile_append_dropWhile (p := isSpace) (l := buffer.dropWhile inWord))
      dsimp only
      rw [List.length_append] at hword hspace
      rw [List.length_append, List.length_append, List.length_map, hrest]
      omega

theorem takeWhile_isWord (hbegins : ∀ b ∈ buffer.head?, isSpace b = false)
    (hstring : cString buffer ≠ []) : IsWord (buffer.takeWhile inWord) := by
  refine ⟨?_, fun b hb => List.mem_takeWhile_imp hb⟩
  cases buffer with
  | nil => exact absurd rfl hstring
  | cons b buffer =>
    have hzero : b ≠ 0 := by
      rintro rfl
      exact hstring rfl
    rw [List.takeWhile_cons_of_pos (inWord_iff.mpr ⟨hzero, hbegins b rfl⟩)]
    nofun

theorem head_dropWhile_space (buffer : List UInt8) :
    ∀ b ∈ (buffer.dropWhile isSpace).head?, isSpace b = false := by
  intro b hb
  have hnot := List.head?_dropWhile_not isSpace buffer
  rw [Option.mem_def.mp hb] at hnot
  exact hnot

theorem parseWords_isWord (room : Nat) {buffer : List UInt8}
    (hbegins : ∀ b ∈ buffer.head?, isSpace b = false) :
    ∀ word ∈ (parseWords room buffer).1, IsWord word := by
  induction room generalizing buffer with
  | zero => nofun
  | succ room ih =>
    rw [parseWords]
    split
    · nofun
    · rename_i hstring
      intro word hword
      rcases List.mem_cons.mp hword with rfl | hword
      · exact takeWhile_isWord hbegins hstring
      · exact ih (head_dropWhile_space _) word hword

end Parsing

section Commands
variable {word : List UInt8} {args : List (List UInt8)} {name : CommandName}

theorem commandOf_text (h : commandOf word = some name) : word.map lower = name.text := by
  have hfound := List.find?_some h
  exact beq_iff_eq.mp hfound

theorem commandOf_isWord (h : commandOf word = some name) : IsWord word := by
  have htext := commandOf_text h
  have hname : name.text ≠ [] ∧ ∀ b ∈ name.text, 97 ≤ b.toNat ∧ b.toNat ≤ 122 := by
    cases name <;> decide +kernel
  constructor
  · rintro rfl
    exact hname.1 htext.symm
  · intro b hb
    have hletter := hname.2 (lower b) (htext ▸ List.mem_map_of_mem hb)
    rw [lower] at hletter
    have hrange : 65 ≤ b.toNat ∧ b.toNat ≤ 90 ∨ 97 ≤ b.toNat ∧ b.toNat ≤ 122 := by
      split at hletter
      · exact .inl ‹_›
      · exact .inr hletter
    refine inWord_iff.mpr ⟨?_, decide_eq_false (by omega)⟩
    rintro rfl
    exact absurd hrange (by decide)

theorem parseWords_joined (hword : IsWord word) (hargs : ∀ arg ∈ args, IsWord arg) (room : Nat)
    (hroom : args.length < room) (more : List UInt8) :
    (parseWords room (joined word args ++ 0 :: more)).1 = word :: args := by
  obtain ⟨room, rfl⟩ : ∃ k, room = k + 1 := ⟨room - 1, by omega⟩
  induction args generalizing word room with
  | nil =>
    rw [joined, List.flatMap_nil, List.append_nil, parseWords_last hword]
  | cons arg args ih =>
    have harg := hargs arg List.mem_cons_self
    have hjoined : joined word (arg :: args) ++ 0 :: more = word ++ 32 :: (joined arg args ++ 0 :: more) := by
      simp [joined]
    have hbegins : (joined arg args ++ 0 :: more).dropWhile isSpace = joined arg args ++ 0 :: more := by
      rw [joined, List.append_assoc]
      exact (harg.begins _).1
    obtain ⟨room, rfl⟩ : ∃ k, room = k + 1 := ⟨room - 1, by simp at hroom; omega⟩
    obtain ⟨rest, hparse⟩ := parseWords_blank hword (room + 1) (joined arg args ++ 0 :: more)
    rw [hjoined, hparse, hbegins, ih harg (fun a ha => hargs a (List.mem_cons_of_mem arg ha)) room
      (by simpa using hroom)]

/-- What a command is parsed into: its name and words, which are the arguments if these are
words; and only the name is left at the beginning of the buffer. -/
theorem parseCommand_joined (hword : IsWord word) (hshort : args.length < 9) (more : List UInt8) :
    ∃ words rest, parseCommand (joined word args ++ 0 :: more) = (word :: words, word ++ 0 :: rest) ∧
      (word ++ 0 :: rest).length = (joined word args ++ 0 :: more).length ∧
      (∀ w ∈ words, IsWord w) ∧ ((∀ arg ∈ args, IsWord arg) → words = args) := by
  have hlead : parseCommand (joined word args ++ 0 :: more) =
      parseWords maxCommandWords (joined word args ++ 0 :: more) := by
    obtain ⟨hdrop, htake, -⟩ := hword.begins ((args.flatMap fun arg => 32 :: arg) ++ 0 :: more)
    rw [parseCommand, joined, List.append_assoc, hdrop, htake]
    rfl
  have hlength := parseWords_length maxCommandWords (joined word args ++ 0 :: more)
  have hparse : ∃ words rest, parseWords maxCommandWords (joined word args ++ 0 :: more) =
      (word :: words, word ++ 0 :: rest) ∧ ∀ w ∈ words, IsWord w := by
    cases args with
    | nil =>
      rw [joined, List.flatMap_nil, List.append_nil]
      exact ⟨[], more, parseWords_last hword 9 more, nofun⟩
    | cons arg args =>
      have hjoined : joined word (arg :: args) ++ 0 :: more =
          word ++ 32 :: (joined arg args ++ 0 :: more) := by
        simp [joined]
      obtain ⟨rest, hparse⟩ := parseWords_blank hword 9 (joined arg args ++ 0 :: more)
      rw [hjoined]
      refine ⟨_, rest, hparse, parseWords_isWord 9 fun b hb => ?_⟩
      have hnot := List.head?_dropWhile_not isSpace (joined arg args ++ 0 :: more)
      rw [Option.mem_def.mp hb] at hnot
      exact hnot
  obtain ⟨words, rest, hparse, hwords⟩ := hparse
  refine ⟨words, rest, hlead.trans hparse, by rw [← hlength, hparse], hwords, fun hargs => ?_⟩
  have := parseWords_joined hword hargs maxCommandWords (by unfold maxCommandWords; omega) more
  rw [hparse] at this
  exact (List.cons.inj this).2

end Commands

section Scanning
variable {buffer word : List UInt8} {unknown args rest : List (List UInt8)} {name : CommandName}

theorem scan_cases (argv : List (List UInt8)) : (∀ w ∈ argv, commandOf w = none) ∨
    ∃ unknown word args name, argv = unknown ++ word :: args ∧ (∀ w ∈ unknown, commandOf w = none) ∧
      commandOf word = some name := by
  induction argv with
  | nil => exact .inl nofun
  | cons first argv ih =>
    cases hfirst : commandOf first with
    | some name => exact .inr ⟨[], first, argv, name, rfl, nofun, hfirst⟩
    | none =>
      rcases ih with hnone | ⟨unknown, word, args, name, rfl, hunknown, hname⟩
      · exact .inl (List.forall_mem_cons.mpr ⟨hfirst, hnone⟩)
      · exact .inr ⟨first :: unknown, word, args, name, rfl,
          List.forall_mem_cons.mpr ⟨hfirst, hunknown⟩, hname⟩

theorem assemble_unknown (h : ∀ w ∈ unknown, commandOf w = none) (rest : List (List UInt8)) :
    assemble buffer (unknown ++ rest) = assemble buffer rest := by
  induction unknown with
  | nil => rfl
  | cons word unknown ih =>
    obtain ⟨hword, hunknown⟩ := List.forall_mem_cons.mp h
    rw [List.cons_append, assemble, hword]
    exact ih hunknown

theorem commandsFrom_unknown (h : ∀ w ∈ unknown, commandOf w = none) (rest : List (List UInt8)) :
    commandsFrom 0 (unknown ++ rest) = commandsFrom 0 rest := by
  induction unknown with
  | nil => rfl
  | cons word unknown ih =>
    obtain ⟨hword, hunknown⟩ := List.forall_mem_cons.mp h
    rw [List.cons_append, commandsFrom, hword]
    exact ih hunknown

theorem plain_unknown (h : ∀ w ∈ unknown, commandOf w = none) (hrest : rest ≠ []) :
    Plain 0 (unknown ++ rest) ↔ Plain 0 rest := by
  induction unknown with
  | nil => rfl
  | cons word unknown ih =>
    obtain ⟨hword, hunknown⟩ := List.forall_mem_cons.mp h
    have hne : unknown ++ rest ≠ [] := fun hnil => hrest (List.append_eq_nil_iff.mp hnil).2
    rw [List.cons_append, Plain, hword]
    exact (and_iff_right hne).trans (ih hunknown)

theorem not_plain_unknown (h : ∀ w ∈ unknown, commandOf w = none) (hne : unknown ≠ []) :
    ¬Plain 0 unknown := by
  induction unknown with
  | nil => exact absurd rfl hne
  | cons word unknown ih =>
    obtain ⟨hword, hunknown⟩ := List.forall_mem_cons.mp h
    rw [Plain, hword]
    exact fun hplain => ih hunknown hplain.1 hplain.2

theorem commandsFrom_skip (n : Nat) (args : List (List UInt8)) :
    commandsFrom n args = commandsFrom 0 (args.drop n) := by
  induction n generalizing args with
  | zero => rfl
  | succ n ih =>
    cases args with
    | nil => rfl
    | cons arg args => exact ih args

theorem plain_skip (n : Nat) (args : List (List UInt8)) : Plain n args ↔ Plain 0 (args.drop n) := by
  induction n generalizing args with
  | zero => rfl
  | succ n ih =>
    cases args with
    | nil =>
      rw [List.drop_nil]
      exact iff_of_true trivial trivial
    | cons arg args => exact ih args

theorem commandsFrom_command (hname : commandOf word = some name)
    (hcomplete : ¬args.length < name.arguments) : commandsFrom 0 (word :: args) =
      ⟨name, args.take name.arguments⟩ :: commandsFrom 0 (args.drop name.arguments) := by
  rw [commandsFrom, hname, ← commandsFrom_skip]
  exact if_neg hcomplete

theorem commandsFrom_incomplete (hname : commandOf word = some name)
    (hcut : args.length < name.arguments) : commandsFrom 0 (word :: args) = [] := by
  rw [commandsFrom, hname]
  exact if_pos hcut

theorem plain_command (hname : commandOf word = some name) : Plain 0 (word :: args) ↔
    args.length < name.arguments ∨ ((∀ arg ∈ args.take name.arguments, IsWord arg) ∧
      (joined word (args.take name.arguments)).length < maxCommandLength ∧
        (name.quits = true ∨ Plain 0 (args.drop name.arguments))) := by
  rw [Plain, hname, ← plain_skip]

theorem arguments_le (name : CommandName) : name.arguments ≤ 2 := by
  cases name <;> decide

end Scanning

section Running
variable {buffer word : List UInt8} {unknown args : List (List UInt8)} {name : CommandName} {fuel : Nat}

theorem commandLoop_round {argv rest words : List (List UInt8)} {text left : List UInt8} {d : Dispatch}
    (hne : argv ≠ []) (hassemble : assemble buffer argv = .text text rest)
    (hparse : parseCommand text = (words, left)) (hdispatch : dispatch words = some d) :
    commandLoop (fuel + 1) buffer argv =
      if d.name.quits then some [d] else (commandLoop fuel left rest).map (d :: ·) := by
  obtain ⟨first, others, rfl⟩ := List.exists_cons_of_ne_nil hne
  rw [commandLoop, hassemble]
  dsimp only
  rw [hparse]
  dsimp only
  rw [hdispatch]

theorem dispatch_name (hname : commandOf word = some name) :
    dispatch (word :: args) = some ⟨name, args⟩ := by
  rw [dispatch, hname]
  rfl

theorem commandLoop_incomplete (hunknown : ∀ w ∈ unknown, commandOf w = none)
    (hname : commandOf word = some name) (hcut : args.length < name.arguments) :
    commandLoop (fuel + 1) buffer (unknown ++ word :: args) = some [] := by
  obtain ⟨first, others, hargv⟩ := List.exists_cons_of_ne_nil
    (List.append_ne_nil_of_right_ne_nil unknown (List.cons_ne_nil word args))
  have hassemble : assemble buffer (first :: others) = .exit := by
    rw [← hargv, assemble_unknown hunknown, assemble, hname]
    exact if_pos hcut
  rw [hargv, commandLoop, hassemble]

theorem commandLoop_overflow (hunknown : ∀ w ∈ unknown, commandOf w = none)
    (hname : commandOf word = some name) (hcomplete : ¬args.length < name.arguments)
    (hwrite : writeWords buffer word (args.take name.arguments) = none) :
    commandLoop (fuel + 1) buffer (unknown ++ word :: args) = none := by
  obtain ⟨first, others, hargv⟩ := List.exists_cons_of_ne_nil
    (List.append_ne_nil_of_right_ne_nil unknown (List.cons_ne_nil word args))
  have hassemble : assemble buffer (first :: others) = .overflow := by
    rw [← hargv, assemble_unknown hunknown, assemble, hname]
    dsimp only
    rw [if_neg hcomplete, hwrite]
  rw [hargv, commandLoop, hassemble]

variable (fuel) in
theorem commandLoop_command (hunknown : ∀ w ∈ unknown, commandOf w = none)
    (hname : commandOf word = some name) (hcomplete : ¬args.length < name.arguments)
    (hargs : ∀ arg ∈ args, 0 ∉ arg)
    (hfits : (joined word (args.take name.arguments)).length < buffer.length) :
    ∃ words more, commandLoop (fuel + 1) buffer (unknown ++ word :: args) =
        (if name.quits then some [⟨name, words⟩]
          else (commandLoop fuel (word ++ 0 :: more) (args.drop name.arguments)).map
            (⟨name, words⟩ :: ·)) ∧
      (word ++ 0 :: more).length = buffer.length ∧ (∀ w ∈ words, IsWord w) ∧
        ((∀ arg ∈ args.take name.arguments, IsWord arg) → words = args.take name.arguments) := by
  have hword := commandOf_isWord hname
  have hshort : (args.take name.arguments).length < 9 := by
    have := arguments_le name
    rw [List.length_take]
    omega
  have hwrite : writeWords buffer word (args.take name.arguments) = _ :=
    writeWords_eq hword.no_nul fun arg ha => hargs arg (List.mem_of_mem_take ha)
  have hcopy : strcpy buffer (joined word (args.take name.arguments)) = some _ := if_pos hfits
  obtain ⟨words, more, hparse, hlength, hwords, hall⟩ := parseCommand_joined hword hshort
    (buffer.drop ((joined word (args.take name.arguments)).length + 1))
  have hassemble : assemble buffer (unknown ++ word :: args) = .text
      (joined word (args.take name.arguments) ++
        0 :: buffer.drop ((joined word (args.take name.arguments)).length + 1))
      (args.drop name.arguments) := by
    rw [assemble_unknown hunknown, assemble, hname]
    dsimp only
    rw [if_neg hcomplete, hwrite, hcopy]
  have hne := List.append_ne_nil_of_right_ne_nil unknown (List.cons_ne_nil word args)
  exact ⟨words, more, commandLoop_round hne hassemble hparse (dispatch_name hname),
    hlength.trans (strcpy_length hcopy), hwords, hall⟩

/-- Without a command, the one that is still in the buffer is executed. -/
theorem commandLoop_stale (hunknown : ∀ w ∈ unknown, commandOf w = none) (hne : unknown ≠ [])
    (hname : commandOf word = some name) (more : List UInt8) :
    commandLoop (fuel + 1) (word ++ 0 :: more) unknown = some [⟨name, []⟩] := by
  have hword := commandOf_isWord hname
  have hassemble : assemble (word ++ 0 :: more) unknown = .text (word ++ 0 :: more) [] := by
    rw [← List.append_nil unknown]
    exact assemble_unknown hunknown []
  obtain ⟨hdrop, htake, -⟩ := hword.begins (0 :: more)
  have hparse : parseCommand (word ++ 0 :: more) = ([word], word ++ 0 :: more) := by
    rw [parseCommand, hdrop, htake, maxCommandWords, parseWords_last hword]
    rfl
  rw [commandLoop_round hne hassemble hparse (dispatch_name hname)]
  dsimp only
  split
  · rfl
  · cases fuel <;> rfl

theorem commandLoop_plain {argv : List (List UInt8)} (hbuffer : buffer.length = maxCommandLength)
    (hargv : ∀ arg ∈ argv, 0 ∉ arg) (hfuel : argv.length ≤ fuel) (h : Plain 0 argv) :
    commandLoop fuel buffer argv = some (untilQuit (commandsFrom 0 argv)) := by
  induction fuel generalizing buffer argv with
  | zero =>
    rw [List.eq_nil_of_length_eq_zero (Nat.le_zero.mp hfuel)]
    rfl
  | succ fuel ih =>
    rcases scan_cases argv with hnone | ⟨unknown, word, args, name, rfl, hunknown, hname⟩
    · by_cases hnil : argv = []
      · rw [hnil]
        rfl
      · exact absurd h (not_plain_unknown hnone hnil)
    · rw [plain_unknown hunknown (List.cons_ne_nil word args), plain_command hname] at h
      rw [commandsFrom_unknown hunknown]
      by_cases hcut : args.length < name.arguments
      · rw [commandLoop_incomplete hunknown hname hcut, commandsFrom_incomplete hname hcut]
        rfl
      · obtain ⟨hwords, hfits, hrest⟩ := h.resolve_left hcut
        have hargs : ∀ arg ∈ args, 0 ∉ arg := fun arg ha =>
          hargv arg (List.mem_append_right unknown (List.mem_cons_of_mem word ha))
        obtain ⟨words, more, hloop, hlength, -, hall⟩ := commandLoop_command fuel hunknown hname
          hcut hargs (hfits.trans_eq hbuffer.symm)
        rw [hloop, hall hwords, commandsFrom_command hname hcut, untilQuit]
        dsimp only
        split
        · rfl
        · rename_i hquits
          have hshort : (args.drop name.arguments).length ≤ fuel := by
            rw [List.length_append, List.length_cons] at hfuel
            rw [List.length_drop]
            omega
          rw [ih (hlength.trans hbuffer) (fun arg ha => hargs arg (List.mem_of_mem_drop ha)) hshort
            (hrest.resolve_left hquits)]
          rfl

theorem commandLoop_not_plain {argv : List (List UInt8)} {stale more : List UInt8} {old : CommandName}
    (hstale : commandOf stale = some old) (hbuffer : (stale ++ 0 :: more).length = maxCommandLength)
    (hargv : ∀ arg ∈ argv, 0 ∉ arg) (h : ¬Plain 0 argv) :
    commandLoop fuel (stale ++ 0 :: more) argv ≠ some (untilQuit (commandsFrom 0 argv)) := by
  induction fuel generalizing stale more old argv with
  | zero =>
    cases argv with
    | nil => exact absurd trivial h
    | cons arg argv => nofun
  | succ fuel ih =>
    rcases scan_cases argv with hnone | ⟨unknown, word, args, name, rfl, hunknown, hname⟩
    · have hnil : argv ≠ [] := by
        rintro rfl
        exact h trivial
      have hempty := commandsFrom_unknown hnone []
      rw [List.append_nil] at hempty
      rw [commandLoop_stale hnone hnil hstale, hempty]
      nofun
    · rw [plain_unknown hunknown (List.cons_ne_nil word args), plain_command hname, not_or] at h
      obtain ⟨hcut, hbad⟩ := h
      have hargs : ∀ arg ∈ args, 0 ∉ arg := fun arg ha =>
        hargv arg (List.mem_append_right unknown (List.mem_cons_of_mem word ha))
      rw [commandsFrom_unknown hunknown, commandsFrom_command hname hcut]
      by_cases hfits : (joined word (args.take name.arguments)).length < (stale ++ 0 :: more).length
      · obtain ⟨words, more', hloop, hlength, hwords, -⟩ := commandLoop_command fuel hunknown
          hname hcut hargs hfits
        rw [hloop, untilQuit]
        intro heq
        dsimp only at heq
        split at heq
        · rename_i hquits
          have hsame : words = args.take name.arguments := by
            cases heq
            rfl
          exact hbad ⟨hsame ▸ hwords, hfits.trans_eq hbuffer, .inl hquits⟩
        · obtain ⟨rest, hrest, hcons⟩ := Option.map_eq_some_iff.mp heq
          have hsame : words = args.take name.arguments := by
            cases hcons
            rfl
          -- The command itself is right, so that the defect is further behind.
          have hplain : ¬Plain 0 (args.drop name.arguments) := fun hplain =>
            hbad ⟨hsame ▸ hwords, hfits.trans_eq hbuffer, .inr hplain⟩
          have hdiffers := ih hname (hlength.trans hbuffer)
            (fun arg ha => hargs arg (List.mem_of_mem_drop ha)) hplain
          exact hdiffers (hrest.trans (congrArg some (List.cons.inj hcons).2))
      · have hwrite : writeWords (stale ++ 0 :: more) word (args.take name.arguments) = none := by
          rw [writeWords_eq (commandOf_isWord hname).no_nul fun arg ha =>
            hargs arg (List.mem_of_mem_take ha)]
          exact if_neg hfits
        rw [commandLoop_overflow hunknown hname hcut hwrite]
        nofun

theorem assemble_rest {argv rest : List (List UInt8)} {text : List UInt8} (hne : argv ≠ [])
    (h : assemble buffer argv = .text text rest) : rest.length < argv.length := by
  rcases scan_cases argv with hnone | ⟨unknown, word, args, name, rfl, hunknown, hname⟩
  · have hassemble : assemble buffer (argv ++ []) = assemble buffer [] := assemble_unknown hnone []
    rw [List.append_nil, h] at hassemble
    cases hassemble
    exact List.length_pos_iff.mpr hne
  · rw [assemble_unknown hunknown, assemble, hname] at h
    dsimp only at h
    split at h
    · cases h
    · split at h
      · cases h
      · cases h
        rw [List.length_drop, List.length_append, List.length_cons]
        omega

theorem commandLoop_fuel {argv : List (List UInt8)} (h : argv.length ≤ fuel) :
    commandLoop (fuel + 1) buffer argv = commandLoop fuel buffer argv := by
  induction fuel generalizing buffer argv with
  | zero =>
    rw [List.eq_nil_of_length_eq_zero (Nat.le_zero.mp h)]
    rfl
  | succ fuel ih =>
    cases argv with
    | nil => rfl
    | cons word args =>
      rw [commandLoop, commandLoop]
      split
      · rfl
      · rfl
      · rename_i text rest hassemble
        have hrest := assemble_rest (List.cons_ne_nil word args) hassemble
        dsimp only
        rw [ih (by omega)]

theorem dispatched_eq {argv : List (List UInt8)} (h : argv.length ≤ fuel) :
    commandLoop fuel buffer argv = dispatched buffer argv := by
  induction fuel, h using Nat.le_induction with
  | base => rfl
  | succ fuel hle ih => rw [commandLoop_fuel hle, ih]

theorem commandLoop_untilQuit {argv : List (List UInt8)} {commands : List Dispatch}
    (h : commandLoop fuel buffer argv = some commands) : untilQuit commands = commands := by
  induction fuel generalizing buffer argv commands with
  | zero =>
    cases argv with
    | nil =>
      cases h
      rfl
    | cons arg argv => cases h
  | succ fuel ih =>
    cases argv with
    | nil =>
      cases h
      rfl
    | cons arg argv =>
      rw [commandLoop] at h
      split at h
      · cases h
        rfl
      · cases h
      · dsimp only at h
        split at h
        · exact ih h
        · split at h
          · rename_i hquits
            cases h
            exact if_pos hquits
          · rename_i hquits
            obtain ⟨rest, hrest, rfl⟩ := Option.map_eq_some_iff.mp h
            rw [untilQuit, if_neg hquits, ih hrest]

end Running

abbrev Argument := { text : List UInt8 // 0 ∉ text }

theorem runs_iff_plain (argv : List Argument) :
    RunsAsWritten (argv.map (·.val)) (untilQuit (writtenCommands (argv.map (·.val)))) ↔
      Plain 0 (argv.map (·.val)) := by
  have hargv : ∀ arg ∈ argv.map (·.val), 0 ∉ arg := by
    intro arg ha
    obtain ⟨arg, -, rfl⟩ := List.mem_map.mp ha
    exact arg.property
  constructor
  · intro h
    by_contra hplain
    have hdir : commandOf CommandName.dir.text = some .dir := rfl
    have hlength : (CommandName.dir.text ++ 0 :: List.replicate 1020 0).length = maxCommandLength := by
      rw [List.length_append, List.length_cons, List.length_replicate]
      rfl
    exact commandLoop_not_plain hdir hlength hargv hplain (h _ hlength)
  · intro h commandText hlength
    exact commandLoop_plain hlength hargv le_rfl h

/-- The commands up to one that ends the program are executed as they are written if and only
if the arguments are plain; and all of them are, if there is no command behind that one. -/
theorem arguments_run_iff (argv : List Argument) :
    (RunsAsWritten (argv.map (·.val)) (untilQuit (writtenCommands (argv.map (·.val)))) ↔
        Plain 0 (argv.map (·.val))) ∧
      (RunsAsWritten (argv.map (·.val)) (writtenCommands (argv.map (·.val))) ↔
        Plain 0 (argv.map (·.val)) ∧ untilQuit (writtenCommands (argv.map (·.val))) =
          writtenCommands (argv.map (·.val))) := by
  have hplain := runs_iff_plain argv
  refine ⟨hplain, fun h => ?_, fun h => ?_⟩
  · have hquit := commandLoop_untilQuit (h (List.replicate maxCommandLength 0) List.length_replicate)
    rw [← hquit] at h
    exact ⟨hplain.mp h, hquit⟩
  · rw [← h.2]
    exact hplain.mpr h.1

/-- `dir foo` -/
def dirFoo : List (List UInt8) := [CommandName.dir.text, [102, 111, 111]]

/-- The directory is listed twice. -/
theorem directory_twice : ¬RunsAsWritten dirFoo (writtenCommands dirFoo) := by
  intro h
  have hrun := h (List.replicate maxCommandLength 0) List.length_replicate
  exact absurd hrun (by decide +kernel)


end TsunamiUdp.Client

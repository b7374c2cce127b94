import TsunamiUdp.Library.Memory
import TsunamiUdp.Client.Main

/-! `parse_command` on the memory of its buffer, as it goes through it with a pointer. -/
namespace TsunamiUdp.Client
open Library

/-- `command_t`; the pointers are positions in the buffer. -/
structure Command where
  count : Nat
  text : List Nat
  room : text.length = maxCommandWords

namespace Command

/-- `text[count++] = buffer`; `none` outside of the array. -/
def push (command : Command) (p : Nat) : Option Command :=
  if command.count < maxCommandWords then
    some ⟨command.count + 1, command.text.set command.count p, by rw [List.length_set, command.room]⟩
  else none

def advance (test : UInt8 → Bool) (buffer : List UInt8) : Nat → Nat → Option Nat
  | 0, _ => none
  | fuel + 1, p => (readCell buffer p).bind fun b =>
    if test b then advance test buffer fuel (p + 1) else some p

def terminate : Nat → List UInt8 → Nat → Option (List UInt8 × Nat)
  | 0, _, _ => none
  | fuel + 1, buffer, p => (readCell buffer p).bind fun b =>
    if b ≠ 0 ∧ isSpace b = true then
      (writeCell buffer p 0).bind fun buffer => terminate fuel buffer (p + 1)
    else some (buffer, p)

def splitWords : Nat → Command → List UInt8 → Nat → Option (Command × List UInt8)
  | 0, _, _, _ => none
  | fuel + 1, command, buffer, p =>
    if command.count < maxCommandWords then
      (readCell buffer p).bind fun b =>
        if b ≠ 0 then
          (command.push p).bind fun command =>
            (advance inWord buffer fuel p).bind fun p =>
              (terminate fuel buffer p).bind fun (buffer, p) => splitWords fuel command buffer p
        else some (command, buffer)
    else some (command, buffer)

def parse (fuel : Nat) (command : Command) (buffer : List UInt8) : Option (Command × List UInt8) :=
  (advance (fun b => isSpace b && decide (b ≠ 0)) buffer fuel 0).bind fun p =>
    splitWords fuel { command with count := 0 } buffer p

end Command

section Words
variable {buffer : List UInt8}

theorem cString_cons {b : UInt8} (h : b ≠ 0) (more : List UInt8) :
    cString (b :: more) = b :: cString more :=
  List.takeWhile_cons_of_pos (p := fun b => decide (b ≠ 0)) (decide_eq_true h)

theorem cString_append {front : List UInt8} (h : 0 ∉ front) (more : List UInt8) :
    cString (front ++ more) = front ++ cString more := by
  refine List.takeWhile_append_of_pos fun b hb => decide_eq_true ?_
  rintro rfl
  exact h hb

theorem isSpace_ne_zero {b : UInt8} (h : isSpace b = true) : b ≠ 0 := by
  rintro rfl
  cases h

theorem nul_not_space (buffer : List UInt8) : 0 ∉ buffer.takeWhile isSpace := fun hmem =>
  isSpace_ne_zero (List.mem_takeWhile_imp hmem) rfl

theorem nul_behind {test : UInt8 → Bool} (hstop : test 0 = false) (h : 0 ∈ buffer) :
    0 ∈ buffer.dropWhile test := by
  rw [← List.takeWhile_append_dropWhile (p := test) (l := buffer)] at h
  refine (List.mem_append.mp h).resolve_left fun hmem => ?_
  exact absurd (hstop.symm.trans (List.mem_takeWhile_imp hmem)) (by decide)

theorem cString_dropWhile (buffer : List UInt8) :
    cString (buffer.dropWhile isSpace) = (cString buffer).dropWhile isSpace := by
  induction buffer with
  | nil => rfl
  | cons b buffer ih =>
    by_cases hspace : isSpace b = true
    · rw [cString_cons (isSpace_ne_zero hspace), List.dropWhile_cons_of_pos hspace,
        List.dropWhile_cons_of_pos hspace, ih]
    · rw [List.dropWhile_cons_of_neg hspace]
      by_cases hzero : b = 0
      · rw [hzero]
        rfl
      · rw [cString_cons hzero, List.dropWhile_cons_of_neg hspace]

theorem cString_behind (buffer : List UInt8) :
    ∀ b ∈ (cString (buffer.dropWhile inWord)).head?, isSpace b = true := by
  intro b hb
  have hstop := List.head?_dropWhile_not inWord buffer
  cases hbehind : buffer.dropWhile inWord with
  | nil =>
    rw [hbehind] at hb
    cases hb
  | cons c behind =>
    rw [hbehind] at hb hstop
    have hword : inWord c = false := hstop
    by_cases hzero : c = 0
    · subst hzero
      cases hb
    · rw [cString_cons hzero] at hb
      cases hb
      rw [inWord, decide_eq_true hzero, Bool.true_and, Bool.not_eq_false'] at hword
      exact hword

theorem parseWords_runs (room : Nat) (hbegins : ∀ b ∈ buffer.head?, isSpace b = false) :
    (parseWords room buffer).1 = (maximalRuns isSpace (cString buffer)).take room := by
  induction room generalizing buffer with
  | zero => rfl
  | succ room ih =>
    rw [parseWords]
    by_cases hsome : cString buffer = []
    · rw [if_pos hsome, hsome, maximalRuns_nil, List.take_nil]
    · have hword := takeWhile_isWord hbegins hsome
      have hstring : cString buffer =
          buffer.takeWhile inWord ++ cString (buffer.dropWhile inWord) := by
        rw [← cString_append hword.no_nul, List.takeWhile_append_dropWhile]
      have hruns := maximalRuns_append hword.1 (fun b hb => (inWord_iff.mp (hword.2 b hb)).2)
        (cString_behind buffer)
      rw [if_neg hsome, hstring, hruns, List.take_succ_cons, ← maximalRuns_dropWhile (cString _),
        ← cString_dropWhile, ← ih (head_dropWhile_space _)]

theorem drop_split {front rest : List UInt8} (h : front ++ rest = buffer) (i : Nat) :
    buffer.drop (front.length + i) = rest.drop i := by
  rw [← h, List.drop_length_add_append]

theorem parseWords_behind (room : Nat) (hbegins : ∀ b ∈ buffer.head?, isSpace b = false) :
    (parseWords room buffer).2.drop (cString buffer).length = buffer.drop (cString buffer).length := by
  induction room generalizing buffer with
  | zero => rfl
  | succ room ih =>
    rw [parseWords]
    by_cases hsome : cString buffer = []
    · rw [if_pos hsome]
    · have hword := takeWhile_isWord hbegins hsome
      have hbuffer : buffer.takeWhile inWord ++ ((buffer.dropWhile inWord).takeWhile isSpace ++
          (buffer.dropWhile inWord).dropWhile isSpace) = buffer := by
        rw [List.takeWhile_append_dropWhile, List.takeWhile_append_dropWhile]
      have hlength : (cString buffer).length = (buffer.takeWhile inWord ++
          ((buffer.dropWhile inWord).takeWhile isSpace).map (fun _ => 0)).length +
            (cString ((buffer.dropWhile inWord).dropWhile isSpace)).length := by
        have hstring := congrArg cString hbuffer
        rw [cString_append hword.no_nul, cString_append (nul_not_space _)] at hstring
        rw [← hstring, List.length_append, List.length_append, List.length_append, List.length_map,
          Nat.add_assoc]
      rw [if_neg hsome]
      dsimp only
      rw [hlength, List.drop_length_add_append, ih (head_dropWhile_space _), List.length_append,
        List.length_map, ← List.length_append, drop_split ((List.append_assoc _ _ _).trans hbuffer)]

end Words

namespace Command

section Pointers
variable {front rest : List UInt8} {fuel : Nat}

theorem advance_append {test : UInt8 → Bool} (hstop : test 0 = false) (hend : 0 ∈ rest)
    (hfuel : rest.length ≤ fuel) :
    advance test (front ++ rest) fuel front.length =
      some (front ++ rest.takeWhile test).length := by
  induction rest generalizing front fuel with
  | nil => cases hend
  | cons b rest ih =>
    obtain ⟨fuel, rfl⟩ : ∃ k, fuel = k + 1 := ⟨fuel - 1, by simp at hfuel; omega⟩
    rw [advance, readCell_append, Option.bind_some]
    by_cases hb : test b = true
    · have hne : 0 ≠ b := by
        rintro rfl
        cases hstop.symm.trans hb
      have hrest := List.mem_of_ne_of_mem hne hend
      have hlength : (front ++ [b]).length = front.length + 1 := List.length_append
      have hnext := @ih (front ++ [b]) fuel hrest (Nat.le_of_succ_le_succ hfuel)
      rw [List.append_assoc, List.append_assoc, hlength] at hnext
      rw [if_pos hb, List.takeWhile_cons_of_pos hb]
      exact hnext
    · rw [if_neg hb, List.takeWhile_cons_of_neg hb, List.append_nil]

theorem terminate_append (hend : 0 ∈ rest) (hfuel : rest.length ≤ fuel) :
    terminate fuel (front ++ rest) front.length = some
      (front ++ (rest.takeWhile isSpace).map (fun _ => 0) ++ rest.dropWhile isSpace,
        (front ++ (rest.takeWhile isSpace).map fun _ => 0).length) := by
  induction rest generalizing front fuel with
  | nil => cases hend
  | cons b rest ih =>
    obtain ⟨fuel, rfl⟩ : ∃ k, fuel = k + 1 := ⟨fuel - 1, by simp at hfuel; omega⟩
    rw [terminate, readCell_append, Option.bind_some]
    by_cases hb : isSpace b = true
    · have hrest := List.mem_of_ne_of_mem (isSpace_ne_zero hb).symm hend
      have hlength : (front ++ [0]).length = front.length + 1 := List.length_append
      have hnext := @ih (front ++ [0]) fuel hrest (Nat.le_of_succ_le_succ hfuel)
      rw [List.append_assoc front, List.append_assoc front, hlength] at hnext
      rw [if_pos ⟨isSpace_ne_zero hb, hb⟩, writeCell_append, Option.bind_some,
        List.takeWhile_cons_of_pos hb, List.dropWhile_cons_of_pos hb]
      exact hnext
    · rw [if_neg fun h => hb h.2, List.takeWhile_cons_of_neg hb, List.dropWhile_cons_of_neg hb,
        List.map_nil, List.append_nil]

theorem starts_with_nul (hend : 0 ∈ rest) (hstring : cString rest = []) : ∃ tail, rest = 0 :: tail := by
  cases rest with
  | nil => cases hend
  | cons b tail =>
    by_cases hzero : b = 0
    · exact ⟨tail, by rw [hzero]⟩
    · rw [cString_cons hzero] at hstring
      cases hstring

theorem push_eq {command : Command} (h : command.count < maxCommandWords) (p : Nat) :
    ∃ next, command.push p = some next ∧ next.count = command.count + 1 ∧
      next.text = command.text.set command.count p :=
  ⟨_, if_pos h, rfl, rfl⟩

theorem ends_with_nul (room : Nat) (hend : 0 ∈ rest) (hbehind : ∀ b ∈ rest.head?, inWord b = false) :
    ∃ more, (rest.takeWhile isSpace).map (fun _ => 0) ++
      (parseWords room (rest.dropWhile isSpace)).2 = 0 :: more := by
  cases rest with
  | nil => cases hend
  | cons b rest =>
    by_cases hb : isSpace b = true
    · rw [List.takeWhile_cons_of_pos hb]
      exact ⟨_, rfl⟩
    · have hzero : b = 0 := by
        by_contra hne
        have hword : inWord b = true := inWord_iff.mpr ⟨hne, eq_false_of_ne_true hb⟩
        exact absurd (hword.symm.trans (hbehind b rfl)) (by decide)
      rw [List.takeWhile_cons_of_neg hb, List.dropWhile_cons_of_neg hb, hzero, parseWords_nul]
      exact ⟨rest, rfl⟩

theorem splitWords_pass {command : Command} (hroom : command.count < maxCommandWords) (hend : 0 ∈ rest)
    (hfuel : rest.length ≤ fuel) (hstring : cString rest ≠ []) :
    let passed := front ++ rest.takeWhile inWord ++
      ((rest.dropWhile inWord).takeWhile isSpace).map fun _ => 0
    ∃ next : Command, next.count = command.count + 1 ∧
      next.text = command.text.set command.count front.length ∧
      splitWords (fuel + 1) command (front ++ rest) front.length =
        splitWords fuel next (passed ++ (rest.dropWhile inWord).dropWhile isSpace) passed.length := by
  intro passed
  obtain ⟨b, tail, hrest⟩ := List.exists_cons_of_ne_nil (List.ne_nil_of_mem hend)
  have hread : readCell (front ++ rest) front.length = some b := by
    rw [hrest]
    exact readCell_append front tail b
  have hzero : b ≠ 0 := by
    rintro rfl
    rw [hrest] at hstring
    exact hstring rfl
  obtain ⟨next, hpush, hcount, htext⟩ := push_eq hroom front.length
  have hadvance := @advance_append front rest fuel inWord rfl hend hfuel
  have hshort := (List.dropWhile_suffix (l := rest) inWord).length_le
  have hterminate := @terminate_append (front ++ rest.takeWhile inWord) (rest.dropWhile inWord) fuel
    (nul_behind rfl hend) (hshort.trans hfuel)
  rw [List.append_assoc front, List.takeWhile_append_dropWhile] at hterminate
  refine ⟨next, hcount, htext, ?_⟩
  rw [splitWords, if_pos hroom, hread, Option.bind_some, if_pos hzero, hpush, Option.bind_some,
    hadvance, Option.bind_some, hterminate, Option.bind_some]

/-- The loop goes through the rest of the buffer as `parseWords` does, and its pointers lead to
the words: in front of the pointer nothing changes any more, and each word is terminated. -/
theorem splitWords_refines {room : Nat} {command : Command}
    (hroom : command.count + room = maxCommandWords) (hend : 0 ∈ rest) (hfuel : rest.length < fuel)
    (hbegins : ∀ b ∈ rest.head?, isSpace b = false) : ∃ after,
      splitWords fuel command (front ++ rest) front.length =
        some (after, front ++ (parseWords room rest).2) ∧
      after.count = command.count + (parseWords room rest).1.length ∧
      (∀ j < command.count, after.text[j]? = command.text[j]?) ∧
      ∀ k word, (parseWords room rest).1[k]? = some word → ∃ p more,
        after.text[command.count + k]? = some p ∧
          (front ++ (parseWords room rest).2).drop p = word ++ 0 :: more := by
  induction room generalizing front rest fuel command with
  | zero =>
    obtain ⟨fuel, rfl⟩ : ∃ k, fuel = k + 1 := ⟨fuel - 1, by omega⟩
    refine ⟨command, ?_, rfl, fun _ _ => rfl, fun k word hword => ?_⟩
    · rw [splitWords, if_neg (by omega)]
      rfl
    · cases hword
  | succ room ih =>
    obtain ⟨fuel, rfl⟩ : ∃ k, fuel = k + 1 := ⟨fuel - 1, by omega⟩
    have hplace : command.count < maxCommandWords := by omega
    by_cases hstring : cString rest = []
    · obtain ⟨tail, rfl⟩ := starts_with_nul hend hstring
      rw [parseWords_nul]
      refine ⟨command, ?_, rfl, fun _ _ => rfl, fun k word hword => ?_⟩
      · rw [splitWords, if_pos hplace, readCell_append]
        rfl
      · cases hword
    · have hpos := List.length_pos_iff.mpr (takeWhile_isWord hbegins hstring).1
      have hcut := congrArg List.length (List.takeWhile_append_dropWhile (p := inWord) (l := rest))
      have hshort := (List.dropWhile_suffix (l := rest.dropWhile inWord) isSpace).length_le
      have hbehind : 0 ∈ rest.dropWhile inWord := nul_behind rfl hend
      obtain ⟨more, hmore⟩ := ends_with_nul room hbehind fun c hc => by
        have hstop := List.head?_dropWhile_not inWord rest
        rw [Option.mem_def.mp hc] at hstop
        exact hstop
      obtain ⟨next, hcount, htext, hpass⟩ := @splitWords_pass front rest fuel command hplace hend
        (by omega) hstring
      rw [List.length_append] at hcut
      rw [hpass, parseWords, if_neg hstring]
      dsimp only
      rw [← List.append_assoc front, ← List.append_assoc front]
      obtain ⟨after, hsplit, hafter, hkeeps, hwords⟩ := @ih (front ++ rest.takeWhile inWord ++
          ((rest.dropWhile inWord).takeWhile isSpace).map fun _ => 0)
        ((rest.dropWhile inWord).dropWhile isSpace) fuel next (by omega) (nul_behind rfl hbehind)
        (by omega) (head_dropWhile_space _)
      refine ⟨after, hsplit, ?_, fun j hj => ?_, fun k word hk => ?_⟩
      · rw [hafter, hcount, List.length_cons]
        omega
      · rw [hkeeps j (by omega), htext, List.getElem?_set_ne (by omega)]
      · cases k with
        | zero =>
          have hfirst : rest.takeWhile inWord = word := Option.some.inj hk
          refine ⟨front.length, more, ?_, ?_⟩
          · rw [Nat.add_zero, hkeeps _ (by omega), htext,
              List.getElem?_set_self (hplace.trans_eq command.room.symm)]
          · rw [List.append_assoc, List.append_assoc, List.drop_left, hmore, hfirst]
        | succ k =>
          obtain ⟨p, more, hpointer, hdrop⟩ := hwords k word hk
          refine ⟨p, more, ?_, hdrop⟩
          rw [← hpointer, hcount]
          congr 1
          omega

end Pointers

end Command

structure Buffer where
  bytes : List UInt8
  terminated : 0 ∈ bytes

def Buffer.text (buffer : Buffer) : List UInt8 := cString buffer.bytes

theorem parseCommand_eq (buffer : List UInt8) : parseCommand buffer =
    ((parseWords maxCommandWords (buffer.dropWhile isSpace)).1,
      buffer.takeWhile isSpace ++ (parseWords maxCommandWords (buffer.dropWhile isSpace)).2) := by
  unfold parseCommand
  generalize parseWords maxCommandWords (buffer.dropWhile isSpace) = parsed
  rfl

theorem parse_refines (buffer : Buffer) (command : Command) {fuel : Nat}
    (hfuel : buffer.bytes.length < fuel) : ∃ after,
      command.parse fuel buffer.bytes = some (after, (parseCommand buffer.bytes).2) ∧
      after.count = (parseCommand buffer.bytes).1.length ∧
      ∀ (k : Nat) (word : List UInt8), (parseCommand buffer.bytes).1[k]? = some word → ∃ p more,
        after.text[k]? = some p ∧ (parseCommand buffer.bytes).2.drop p = word ++ 0 :: more := by
  obtain ⟨bytes, hend⟩ := buffer
  have htest : (fun b => isSpace b && decide (b ≠ 0)) = isSpace := by
    funext b
    by_cases hb : isSpace b = true
    · rw [hb, decide_eq_true (isSpace_ne_zero hb)]
      rfl
    · rw [eq_false_of_ne_true hb, Bool.false_and]
  have hadvance : Command.advance isSpace bytes fuel 0 = some (bytes.takeWhile isSpace).length :=
    @Command.advance_append [] bytes fuel isSpace rfl hend hfuel.le
  have hspaces := List.takeWhile_append_dropWhile (p := isSpace) (l := bytes)
  have hshort := (List.dropWhile_suffix (l := bytes) isSpace).length_le
  obtain ⟨after, hsplit, hcount, -, hwords⟩ := @Command.splitWords_refines
    (bytes.takeWhile isSpace) (bytes.dropWhile isSpace) fuel maxCommandWords
    { command with count := 0 } (Nat.zero_add _) (nul_behind rfl hend) (hshort.trans_lt hfuel)
    (head_dropWhile_space bytes)
  rw [hspaces] at hsplit
  rw [parseCommand_eq]
  refine ⟨after, ?_, hcount.trans (Nat.zero_add _), fun k word hk => ?_⟩
  · rw [Command.parse, htest, hadvance, Option.bind_some, hsplit]
  · obtain ⟨p, more, hpointer, hdrop⟩ := hwords k word hk
    rw [Nat.zero_add] at hpointer
    exact ⟨p, more, hpointer, hdrop⟩

theorem parseCommand_runs (buffer : List UInt8) :
    (parseCommand buffer).1 = (maximalRuns isSpace (cString buffer)).take maxCommandWords := by
  rw [parseCommand_eq, parseWords_runs maxCommandWords (head_dropWhile_space buffer),
    cString_dropWhile, maximalRuns_dropWhile]

theorem parseCommand_behind (buffer : List UInt8) :
    (parseCommand buffer).2.length = buffer.length ∧
      (parseCommand buffer).2.drop (cString buffer).length = buffer.drop (cString buffer).length := by
  have hspaces := List.takeWhile_append_dropWhile (p := isSpace) (l := buffer)
  have hlength := congrArg List.length hspaces
  have hstring := congrArg cString hspaces
  rw [List.length_append] at hlength
  rw [cString_append (nul_not_space buffer)] at hstring
  rw [parseCommand_eq]
  dsimp only
  constructor
  · rw [List.length_append, parseWords_length, hlength]
  · rw [← hstring, List.length_append, List.drop_length_add_append,
      parseWords_behind maxCommandWords (head_dropWhile_space buffer), drop_split hspaces]

/-- `parse_command` comes to an end; then there are as many words as the text has runs without
white space, ten at most, each pointer leads to a terminated string, which is that run, and
behind the text the buffer is as it was. -/
theorem command_split (buffer : Buffer) (command : Command) :
    ∃ enough, ∀ fuel ≥ enough, ∃ after written,
      command.parse fuel buffer.bytes = some (after, written) ∧
      after.count = min maxCommandWords (maximalRuns isSpace buffer.text).length ∧
      written.length = buffer.bytes.length ∧
      written.drop buffer.text.length = buffer.bytes.drop buffer.text.length ∧
      ∀ k < after.count, ∃ p, after.text[k]? = some p ∧ 0 ∈ written.drop p ∧
        (maximalRuns isSpace buffer.text)[k]? = some (cString (written.drop p)) := by
  refine ⟨buffer.bytes.length + 1, fun fuel hfuel => ?_⟩
  obtain ⟨after, hparse, hcount, hpointers⟩ := parse_refines buffer command hfuel
  obtain ⟨hlength, hbehind⟩ := parseCommand_behind buffer.bytes
  have hruns := parseCommand_runs buffer.bytes
  refine ⟨after, _, hparse, ?_, hlength, hbehind, fun k hk => ?_⟩
  · rw [hcount, hruns, List.length_take]
    rfl
  · have hinside : k < (parseCommand buffer.bytes).1.length := hk.trans_eq hcount
    have hword := List.getElem?_eq_getElem hinside
    obtain ⟨p, more, hpointer, hdrop⟩ := hpointers k _ hword
    have hisWord := parseWords_isWord maxCommandWords (head_dropWhile_space buffer.bytes) _
      (List.getElem_mem hinside)
    refine ⟨p, hpointer, ?_, ?_⟩
    · rw [hdrop]
      exact List.mem_append_right _ List.mem_cons_self
    · rw [hdrop, cString_eq hisWord.no_nul, ← hword, hruns, List.getElem?_take, if_pos]
      · rfl
      · rw [hruns, List.length_take] at hinside
        omega

end TsunamiUdp.Client

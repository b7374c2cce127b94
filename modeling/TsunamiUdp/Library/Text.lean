import Mathlib.Data.List.Basic
import Mathlib.Tactic.Ring

/-! Lines and decimal numbers in a stream of bytes. -/
namespace TsunamiUdp.Library

section Lines
variable {α : Type*} {stop : α → Bool}

/-- Read up to an element that ends the line, that one included, or until the buffer is
full; `none` if the line is not complete yet. The rest is still to be read. -/
def takeLine (stop : α → Bool) : Nat → List α → Option (List α × List α)
  | 0, l => some ([], l)
  | _ + 1, [] => none
  | room + 1, a :: l =>
    if stop a then some ([a], l)
    else (takeLine stop room l).map fun (line, rest) => (a :: line, rest)

theorem takeLine_line {room : Nat} {line rest : List α} {last : α}
    (hline : ∀ a ∈ line, stop a = false) (hlast : stop last = true) (hroom : line.length < room) :
    takeLine stop room (line ++ last :: rest) = some (line ++ [last], rest) := by
  induction line generalizing room with
  | nil =>
    obtain ⟨room, rfl⟩ : ∃ k, room = k + 1 := ⟨room - 1, by simp at hroom; omega⟩
    exact if_pos hlast
  | cons a line ih =>
    obtain ⟨room, rfl⟩ : ∃ k, room = k + 1 := ⟨room - 1, by simp at hroom; omega⟩
    have hrest := ih (fun b hb => hline b (List.mem_cons_of_mem a hb))
      (by simpa using hroom)
    rw [List.cons_append, takeLine, hline a List.mem_cons_self, if_neg Bool.false_ne_true, hrest]
    rfl

theorem takeLine_countP {room : Nat} {l line rest : List α}
    (h : takeLine stop room l = some (line, rest)) : l.countP stop ≤ rest.countP stop + 1 := by
  induction room, l using takeLine.induct stop generalizing line with
  | case1 l =>
    cases h
    exact Nat.le_succ _
  | case2 room => cases h
  | case3 room a l ha =>
    rw [takeLine, if_pos ha] at h
    cases h
    rw [List.countP_cons_of_pos ha]
  | case4 room a l ha ih =>
    rw [takeLine, if_neg ha] at h
    obtain ⟨⟨line', rest'⟩, hrest, heq⟩ := Option.map_eq_some_iff.mp h
    cases heq
    rw [List.countP_cons_of_neg ha]
    exact ih hrest

theorem takeLine_of_countP_pos (room : Nat) {l : List α} (h : 0 < l.countP stop) :
    ∃ line rest, takeLine stop room l = some (line, rest) := by
  induction room, l using takeLine.induct stop with
  | case1 l => exact ⟨[], l, rfl⟩
  | case2 room => exact absurd h (Nat.lt_irrefl 0)
  | case3 room a l ha => exact ⟨[a], l, if_pos ha⟩
  | case4 room a l ha ih =>
    rw [List.countP_cons_of_neg ha] at h
    obtain ⟨line, rest, hrest⟩ := ih h
    exact ⟨a :: line, rest, by rw [takeLine, if_neg ha, hrest]; rfl⟩

end Lines

section Numbers

def isDigit (b : UInt8) : Bool := decide (48 ≤ b.toNat ∧ b.toNat ≤ 57)

def decimal (n : Nat) : List UInt8 := (Nat.toDigits 10 n).map fun c => UInt8.ofNat c.toNat

def scanDigits (bytes : List UInt8) : Nat :=
  Nat.ofDigitChars 10 ((bytes.takeWhile isDigit).map fun b => Char.ofNat b.toNat) 0

def isSpace (b : UInt8) : Bool := decide (b.toNat = 32 ∨ 9 ≤ b.toNat ∧ b.toNat ≤ 13)

/-- A number behind white space and perhaps a sign, as a machine word holds it. -/
def scanNumber (modulus : Nat) (bytes : List UInt8) : Nat :=
  let bytes := bytes.dropWhile isSpace
  if bytes.head? = some 45 then (modulus - scanDigits bytes.tail % modulus) % modulus
  else if bytes.head? = some 43 then scanDigits bytes.tail % modulus
  else scanDigits bytes % modulus

theorem digit_range {n : Nat} {c : Char} (h : c ∈ Nat.toDigits 10 n) :
    48 ≤ c.toNat ∧ c.toNat ≤ 57 := by
  have hdigit := Nat.isDigit_of_mem_toDigits (by decide) (by decide) h
  simp only [Char.isDigit, Bool.and_eq_true, decide_eq_true_eq] at hdigit
  exact ⟨hdigit.1, hdigit.2⟩

theorem toNat_digit {n : Nat} {c : Char} (h : c ∈ Nat.toDigits 10 n) :
    (UInt8.ofNat c.toNat).toNat = c.toNat := by
  have hrange := digit_range h
  rw [UInt8.toNat_ofNat', Nat.mod_eq_of_lt (by omega)]

theorem decimal_digits (n : Nat) : ∀ b ∈ decimal n, isDigit b = true := by
  intro b hb
  obtain ⟨c, hc, rfl⟩ := List.mem_map.mp hb
  rw [isDigit, toNat_digit hc]
  exact decide_eq_true (digit_range hc)

theorem decimal_length {n k : Nat} (hk : 0 < k) (hn : n < 10 ^ k) : (decimal n).length ≤ k := by
  rw [decimal, List.length_map]
  exact (Nat.length_toDigits_le_iff (by decide) hk).mpr hn

theorem decimal_ne_nil (n : Nat) : decimal n ≠ [] := by
  rw [decimal, ne_eq, List.map_eq_nil_iff]
  exact Nat.toDigits_ne_nil

theorem scanDigits_decimal (n : Nat) {last : UInt8} (rest : List UInt8) (hlast : isDigit last = false) :
    scanDigits (decimal n ++ last :: rest) = n := by
  have hdigits : (decimal n ++ last :: rest).takeWhile isDigit = decimal n := by
    rw [List.takeWhile_append_of_pos (decimal_digits n),
      List.takeWhile_cons_of_neg (by rw [hlast]; decide), List.append_nil]
  have hchars : (decimal n).map (fun b => Char.ofNat b.toNat) = Nat.toDigits 10 n := by
    rw [decimal, List.map_map]
    conv_rhs => rw [← List.map_id (Nat.toDigits 10 n)]
    apply List.map_congr_left
    intro c hc
    rw [Function.comp_apply, toNat_digit hc, id_eq, Char.ofNat_toNat]
  rw [scanDigits, hdigits, hchars, Nat.ofDigitChars_ten_toDigits]

theorem scanNumber_decimal {n modulus : Nat} {last : UInt8} (rest : List UInt8) (hn : n < modulus)
    (hlast : isDigit last = false) : scanNumber modulus (decimal n ++ last :: rest) = n := by
  have hscan := scanDigits_decimal n rest hlast
  obtain ⟨b, bytes, hdecimal⟩ := List.exists_cons_of_ne_nil (decimal_ne_nil n)
  have hdigit : 48 ≤ b.toNat ∧ b.toNat ≤ 57 :=
    of_decide_eq_true (decimal_digits n b (by rw [hdecimal]; exact List.mem_cons_self))
  rw [hdecimal, List.cons_append] at hscan ⊢
  have hspace : isSpace b = false := decide_eq_false (by omega)
  have hdrop : (b :: (bytes ++ last :: rest)).dropWhile isSpace = b :: (bytes ++ last :: rest) :=
    List.dropWhile_cons_of_neg (by rw [hspace]; decide)
  have hminus : (b :: (bytes ++ last :: rest)).head? ≠ some 45 := by
    rintro ⟨⟩
    exact absurd hdigit (by decide)
  have hplus : (b :: (bytes ++ last :: rest)).head? ≠ some 43 := by
    rintro ⟨⟩
    exact absurd hdigit (by decide)
  simp only [scanNumber, hdrop, if_neg hminus, if_neg hplus, hscan, Nat.mod_eq_of_lt hn]

end Numbers

end TsunamiUdp.Library

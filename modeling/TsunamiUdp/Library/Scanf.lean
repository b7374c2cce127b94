import Mathlib.Data.List.TakeWhile
import Mathlib.Algebra.Field.Rat
import Mathlib.Data.Rat.Cast.Defs
import TsunamiUdp.Library.Text

/-! `sscanf` in the C locale: conversions of decimal numbers, literal characters and the
number of characters read. Infinities and hexadecimal numbers are not read by `real`. -/
namespace TsunamiUdp.Library

def isSign (b : UInt8) : Bool := b == 43 || b == 45

/-- What a conversion may look at, and what is beyond its width. -/
def withinWidth (width : Option Nat) (t : List UInt8) : List UInt8 × List UInt8 :=
  match width with
  | none => (t, [])
  | some w => (t.take w, t.drop w)

def takeSign : List UInt8 → Bool × List UInt8
  | [] => (false, [])
  | a :: t => if isSign a then (a == 45, t) else (false, a :: t)

def takeInteger (width : Option Nat) (t : List UInt8) :
    Option ((Bool × List UInt8) × List UInt8) :=
  let (field, beyond) := withinWidth width (t.dropWhile isSpace)
  let (minus, body) := takeSign field
  if body.takeWhile isDigit = [] then none
  else some ((minus, body.takeWhile isDigit), body.dropWhile isDigit ++ beyond)

/-- The text is converted to a long integer, and this is put into 32 bits. -/
def toInt (minus : Bool) (n : Nat) : Int :=
  (if minus then max (-2 ^ 63) (-(n : Int)) else min (2 ^ 63 - 1) (n : Int)).bmod (2 ^ 32)

def readInt (width : Option Nat) (t : List UInt8) : Option (Int × List UInt8) :=
  (takeInteger width t).map fun ((minus, digits), rest) => (toInt minus (scanDigits digits), rest)

/-- The text is converted to an unsigned 64-bit integer, a minus sign wrapping around. -/
def toU64 (minus : Bool) (n : Nat) : Nat :=
  if 2 ^ 64 ≤ n then 2 ^ 64 - 1 else if minus then (2 ^ 64 - n) % 2 ^ 64 else n

def readU64 (t : List UInt8) : Option Nat :=
  (takeInteger none t).map fun ((minus, digits), _) => toU64 minus (scanDigits digits)

def takeFraction : List UInt8 → List UInt8 × List UInt8
  | [] => ([], [])
  | a :: t => if a == 46 then (t.takeWhile isDigit, t.dropWhile isDigit) else ([], a :: t)

def takeExponent : List UInt8 → (Bool × Nat) × List UInt8
  | [] => ((false, 0), [])
  | a :: t =>
    if a == 101 || a == 69 then
      let (minus, body) := takeSign t
      ((minus, scanDigits (body.takeWhile isDigit)), body.dropWhile isDigit)
    else ((false, 0), a :: t)

def toReal (minus : Bool) (whole fraction : List UInt8) (exponent : Bool × Nat) : Rat :=
  let mantissa : Rat := scanDigits (whole ++ fraction) / (10 ^ fraction.length : Nat)
  let scaled := if exponent.1 then mantissa / (10 ^ exponent.2 : Nat)
    else mantissa * (10 ^ exponent.2 : Nat)
  if minus then -scaled else scaled

def readReal (width : Option Nat) (t : List UInt8) : Option (Rat × List UInt8) :=
  let (field, beyond) := withinWidth width (t.dropWhile isSpace)
  let (minus, body) := takeSign field
  let whole := body.takeWhile isDigit
  let (fraction, body) := takeFraction (body.dropWhile isDigit)
  let (exponent, body) := takeExponent body
  if whole ++ fraction = [] then none
  else some (toReal minus whole fraction exponent, body ++ beyond)

inductive Directive (σ : Type)
  | int (width : Option Nat) (set : Int → σ → σ)
  | real (width : Option Nat) (set : Rat → σ → σ)
  | literal (c : UInt8)
  | count (set : Nat → σ → σ)

section Scanning
variable {σ β : Type}

/-- The number of conversions up to the first directive that fails, and the variables
then; the failing ones and those behind them keep their values. -/
def scanf (total : Nat) : List (Directive σ) → List UInt8 → σ → Nat × σ
  | [], _, s => (0, s)
  | .int width set :: format, t, s =>
    match readInt width t with
    | none => (0, s)
    | some (value, rest) =>
      let (n, s) := scanf total format rest (set value s)
      (n + 1, s)
  | .real width set :: format, t, s =>
    match readReal width t with
    | none => (0, s)
    | some (value, rest) =>
      let (n, s) := scanf total format rest (set value s)
      (n + 1, s)
  | .literal _ :: _, [], s => (0, s)
  | .literal c :: format, a :: t, s => if a = c then scanf total format t s else (0, s)
  | .count set :: format, t, s => scanf total format t (set (total - t.length) s)

def sscanf (format : List (Directive σ)) (t : List UInt8) (s : σ) : Nat × σ :=
  scanf t.length format t s

def readAll : List (Directive σ) → List UInt8 → σ → Option (List UInt8 × σ)
  | [], t, s => some (t, s)
  | .int width set :: format, t, s =>
    match readInt width t with
    | none => none
    | some (value, rest) => readAll format rest (set value s)
  | .real width set :: format, t, s =>
    match readReal width t with
    | none => none
    | some (value, rest) => readAll format rest (set value s)
  | .literal _ :: _, [], _ => none
  | .literal c :: format, a :: t, s => if a = c then readAll format t s else none
  | .count _ :: _, _, _ => none

def conversions : List (Directive σ) → Nat
  | [] => 0
  | .int _ _ :: format => conversions format + 1
  | .real _ _ :: format => conversions format + 1
  | _ :: format => conversions format

def Directive.takes (d : Directive σ) (b : UInt8) : Bool :=
  match d with
  | .int _ _ => isSpace b || isSign b || isDigit b
  | .real _ _ => isSpace b || isSign b || isDigit b || b == 46 || b == 101 || b == 69
  | .literal c => b == c
  | .count _ => false

def Directive.isLiteral (d : Directive σ) (b : UInt8) : Bool :=
  match d with
  | .literal c => b == c
  | _ => false

/-- The directive converts or compares, and stores nothing that can be seen in `view`. -/
def Directive.Hides (view : σ → β) (d : Directive σ) : Prop :=
  match d with
  | .int _ set => ∀ value s, view (set value s) = view s
  | .real _ set => ∀ value s, view (set value s) = view s
  | .literal _ => True
  | .count _ => False

def Front (taken : UInt8 → Bool) (t rest : List UInt8) : Prop :=
  ∃ front, t = front ++ rest ∧ ∀ a ∈ front, taken a = true

section Fronts
variable {taken taken' : UInt8 → Bool} {t u v : List UInt8}

theorem Front.refl : Front taken t t := ⟨[], rfl, nofun⟩

theorem Front.trans (h : Front taken t u) (h' : Front taken u v) : Front taken t v := by
  obtain ⟨front, rfl, hfront⟩ := h
  obtain ⟨front', rfl, hfront'⟩ := h'
  refine ⟨front ++ front', by rw [List.append_assoc], fun a ha => ?_⟩
  exact (List.mem_append.mp ha).elim (hfront a) (hfront' a)

theorem Front.mono (hle : ∀ a, taken a = true → taken' a = true) (h : Front taken t u) :
    Front taken' t u := by
  obtain ⟨front, rfl, hfront⟩ := h
  exact ⟨front, rfl, fun a ha => hle a (hfront a ha)⟩

theorem Front.append (w : List UInt8) (h : Front taken t u) : Front taken (t ++ w) (u ++ w) := by
  obtain ⟨front, rfl, hfront⟩ := h
  exact ⟨front, by rw [List.append_assoc], hfront⟩

theorem front_dropWhile : Front taken t (t.dropWhile taken) :=
  ⟨t.takeWhile taken, List.takeWhile_append_dropWhile.symm, fun _ ha => List.mem_takeWhile_imp ha⟩

theorem front_takeSign : Front isSign t (takeSign t).2 := by
  cases t with
  | nil => exact Front.refl
  | cons a t =>
    rw [takeSign]
    split
    · rename_i ha
      exact ⟨[a], rfl, List.forall_mem_singleton.mpr ha⟩
    · exact Front.refl

theorem front_takeFraction : Front (fun a => a == 46 || isDigit a) t (takeFraction t).2 := by
  cases t with
  | nil => exact Front.refl
  | cons a t =>
    rw [takeFraction]
    split
    · rename_i ha
      refine Front.trans (u := t) ⟨[a], rfl, List.forall_mem_singleton.mpr ?_⟩ ?_
      · dsimp only
        rw [ha, Bool.true_or]
      · exact front_dropWhile.mono fun b hb => by rw [hb, Bool.or_true]
    · exact Front.refl

theorem front_takeExponent :
    Front (fun a => a == 101 || a == 69 || isSign a || isDigit a) t (takeExponent t).2 := by
  cases t with
  | nil => exact Front.refl
  | cons a t =>
    rw [takeExponent]
    split
    · rename_i ha
      refine Front.trans (u := t) ⟨[a], rfl, List.forall_mem_singleton.mpr ?_⟩ ?_
      · dsimp only
        rw [ha, Bool.true_or, Bool.true_or]
      · refine (front_takeSign.mono fun b hb => ?_).trans (front_dropWhile.mono fun b hb => ?_)
        · rw [hb, Bool.or_true, Bool.true_or]
        · rw [hb, Bool.or_true]
    · exact Front.refl

theorem withinWidth_append (width : Option Nat) (t : List UInt8) :
    (withinWidth width t).1 ++ (withinWidth width t).2 = t := by
  cases width with
  | none => exact List.append_nil t
  | some w => exact List.take_append_drop w t

theorem front_field (width : Option Nat) {rest : List UInt8} (hspace : ∀ a, isSpace a = true → taken a = true)
    (h : Front taken (withinWidth width (t.dropWhile isSpace)).1 rest) :
    Front taken t (rest ++ (withinWidth width (t.dropWhile isSpace)).2) := by
  have hfield := h.append (withinWidth width (t.dropWhile isSpace)).2
  rw [withinWidth_append] at hfield
  exact (front_dropWhile.mono hspace).trans hfield

theorem front_readInt {width : Option Nat} {value : Int} {rest : List UInt8}
    (h : readInt width t = some (value, rest)) :
    Front (fun a => isSpace a || isSign a || isDigit a) t rest := by
  obtain ⟨⟨⟨minus, digits⟩, rest'⟩, hinteger, hvalue⟩ := Option.map_eq_some_iff.mp h
  cases hvalue
  unfold takeInteger at hinteger
  dsimp only at hinteger
  split at hinteger
  · cases hinteger
  · cases hinteger
    refine front_field width (fun a ha => by rw [ha]; rfl) ?_
    refine (front_takeSign.mono fun a ha => ?_).trans (front_dropWhile.mono fun a ha => ?_)
    · rw [ha, Bool.or_true, Bool.true_or]
    · rw [ha, Bool.or_true]

theorem front_readReal {width : Option Nat} {value : Rat} {rest : List UInt8}
    (h : readReal width t = some (value, rest)) :
    Front (fun a => isSpace a || isSign a || isDigit a || a == 46 || a == 101 || a == 69) t rest := by
  unfold readReal at h
  dsimp only at h
  split at h
  · cases h
  · cases h
    refine front_field width (fun a ha => by rw [ha]; rfl) ?_
    refine (front_takeSign.mono ?_).trans ((front_dropWhile.mono ?_).trans
      ((front_takeFraction.mono ?_).trans (front_takeExponent.mono ?_)))
    all_goals
      intro a ha
      simp only [Bool.or_eq_true] at ha ⊢
      tauto

end Fronts

def Directive.meet (d : Directive σ) (t : List UInt8) (s : σ) : Option (List UInt8 × σ) :=
  match d with
  | .int width set => (readInt width t).map fun (value, rest) => (rest, set value s)
  | .real width set => (readReal width t).map fun (value, rest) => (rest, set value s)
  | .literal c =>
    match t with
    | [] => none
    | a :: t => if a = c then some (t, s) else none
  | .count _ => none

section Meeting
variable {d : Directive σ} {format : List (Directive σ)} {t rest : List UInt8} {s s' : σ} {total : Nat}

theorem readAll_cons (d : Directive σ) (format : List (Directive σ)) (t : List UInt8) (s : σ) :
    readAll (d :: format) t s = (d.meet t s).bind fun r => readAll format r.1 r.2 := by
  cases d with
  | int width set =>
    rw [readAll, Directive.meet]
    cases readInt width t <;> rfl
  | real width set =>
    rw [readAll, Directive.meet]
    cases readReal width t <;> rfl
  | literal c =>
    cases t with
    | nil => rfl
    | cons a t =>
      rw [readAll, Directive.meet]
      split <;> rfl
  | count set => rfl

theorem scanf_cons_none {view : σ → β} (hd : d.Hides view) (h : d.meet t s = none) :
    scanf total (d :: format) t s = (0, s) := by
  cases d with
  | int width set =>
    rw [scanf, Option.map_eq_none_iff.mp h]
  | real width set =>
    rw [scanf, Option.map_eq_none_iff.mp h]
  | literal c =>
    cases t with
    | nil => rfl
    | cons a t =>
      rw [scanf]
      refine if_neg fun hac => ?_
      rw [Directive.meet, if_pos hac] at h
      cases h
  | count set => exact hd.elim

theorem scanf_cons_some (h : d.meet t s = some (rest, s')) : scanf total (d :: format) t s =
    ((scanf total format rest s').1 + conversions [d], (scanf total format rest s').2) := by
  cases d with
  | int width set =>
    obtain ⟨⟨value, rest⟩, hread, heq⟩ := Option.map_eq_some_iff.mp h
    cases heq
    rw [scanf, hread]
    rfl
  | real width set =>
    obtain ⟨⟨value, rest⟩, hread, heq⟩ := Option.map_eq_some_iff.mp h
    cases heq
    rw [scanf, hread]
    rfl
  | literal c =>
    cases t with
    | nil => cases h
    | cons a t =>
      rw [Directive.meet] at h
      split at h
      · rename_i hac
        cases h
        rw [scanf, if_pos hac]
        rfl
      · cases h
  | count set => cases h

theorem conversions_cons (d : Directive σ) (format : List (Directive σ)) :
    conversions (d :: format) = conversions format + conversions [d] := by
  cases d <;> rfl

theorem meet_front (h : d.meet t s = some (rest, s')) : ∃ front, t = front ++ rest ∧
    (∀ a ∈ front, d.takes a = true) ∧ ∀ c, d.isLiteral c = true → c ∈ front := by
  cases d with
  | int width set =>
    obtain ⟨⟨value, rest⟩, hread, heq⟩ := Option.map_eq_some_iff.mp h
    cases heq
    obtain ⟨front, ht, hfront⟩ := front_readInt hread
    exact ⟨front, ht, hfront, nofun⟩
  | real width set =>
    obtain ⟨⟨value, rest⟩, hread, heq⟩ := Option.map_eq_some_iff.mp h
    cases heq
    obtain ⟨front, ht, hfront⟩ := front_readReal hread
    exact ⟨front, ht, hfront, nofun⟩
  | literal c =>
    cases t with
    | nil => cases h
    | cons a t =>
      rw [Directive.meet] at h
      split at h
      · rename_i hac
        cases h
        refine ⟨[a], rfl, List.forall_mem_singleton.mpr (beq_iff_eq.mpr hac), fun b hb => ?_⟩
        rw [beq_iff_eq.mp hb, ← hac]
        exact List.mem_singleton_self a
      · cases h
  | count set => cases h

theorem meet_hides {view : σ → β} (hd : d.Hides view) (h : d.meet t s = some (rest, s')) :
    view s' = view s := by
  cases d with
  | int width set =>
    obtain ⟨⟨value, rest⟩, -, heq⟩ := Option.map_eq_some_iff.mp h
    cases heq
    exact hd value s
  | real width set =>
    obtain ⟨⟨value, rest⟩, -, heq⟩ := Option.map_eq_some_iff.mp h
    cases heq
    exact hd value s
  | literal c =>
    cases t with
    | nil => cases h
    | cons a t =>
      rw [Directive.meet] at h
      split at h
      · cases h
        rfl
      · cases h
  | count set => cases h

end Meeting

theorem readAll_front {format : List (Directive σ)} {t rest : List UInt8} {s s' : σ}
    (h : readAll format t s = some (rest, s')) : ∃ front, t = front ++ rest ∧
      (∀ a ∈ front, ∃ d ∈ format, d.takes a = true) ∧
        ∀ d ∈ format, ∀ c, d.isLiteral c = true → c ∈ front := by
  induction format generalizing t s with
  | nil =>
    cases h
    exact ⟨[], rfl, nofun, nofun⟩
  | cons d format ih =>
    rw [readAll_cons] at h
    obtain ⟨⟨u, s⟩, hmeet, hrest⟩ := Option.bind_eq_some_iff.mp h
    obtain ⟨first, rfl, hfirst, hliteral⟩ := meet_front hmeet
    obtain ⟨front, rfl, htakes, hliterals⟩ := ih hrest
    refine ⟨first ++ front, by rw [List.append_assoc], fun a ha => ?_, fun e he c hc => ?_⟩
    · rcases List.mem_append.mp ha with ha | ha
      · exact ⟨d, List.mem_cons_self, hfirst a ha⟩
      · obtain ⟨e, he, htake⟩ := htakes a ha
        exact ⟨e, List.mem_cons_of_mem d he, htake⟩
    · rcases List.mem_cons.mp he with rfl | he
      · exact List.mem_append_left front (hliteral c hc)
      · exact List.mem_append_right first (hliterals e he c hc)

section Counting
variable {format : List (Directive σ)} {t rest : List UInt8} {s s' : σ} {total : Nat}

/-- If every directive is met, all conversions are counted, and so are the characters. -/
theorem scanf_whole (set : Nat → σ → σ) (h : readAll format t s = some (rest, s')) :
    scanf total (format ++ [.count set]) t s =
      (conversions format, set (total - rest.length) s') := by
  induction format generalizing t s with
  | nil =>
    cases h
    rfl
  | cons d format ih =>
    rw [readAll_cons] at h
    obtain ⟨⟨u, s⟩, hmeet, hrest⟩ := Option.bind_eq_some_iff.mp h
    rw [List.cons_append, scanf_cons_some hmeet, ih hrest, conversions_cons d format]

theorem scanf_part (view : σ → β) (set : Nat → σ → σ) (hhides : ∀ d ∈ format, d.Hides view)
    (h : readAll format t s = none) :
    view (scanf total (format ++ [.count set]) t s).2 = view s := by
  induction format generalizing t s with
  | nil => cases h
  | cons d format ih =>
    have hd := hhides d List.mem_cons_self
    rw [List.cons_append]
    rw [readAll_cons] at h
    cases hmeet : d.meet t s with
    | none => rw [scanf_cons_none hd hmeet]
    | some r =>
      rw [hmeet, Option.bind_some] at h
      rw [scanf_cons_some hmeet]
      exact (ih (fun e he => hhides e (List.mem_cons_of_mem d he)) h).trans (meet_hides hd hmeet)

end Counting

section Digits
variable {digits rest : List UInt8} {width : Option Nat}

theorem digit_not_space {a : UInt8} (h : isDigit a = true) : isSpace a = false ∧ isSign a = false := by
  have hrange := of_decide_eq_true h
  constructor
  · exact decide_eq_false (by omega)
  · rw [isSign, Bool.or_eq_false_iff, beq_eq_false_iff_ne, beq_eq_false_iff_ne]
    constructor
    · rintro rfl
      exact absurd hrange (by decide)
    · rintro rfl
      exact absurd hrange (by decide)

/-- Digits are followed by something else, or the width ends behind them. -/
def EndsAt (width : Option Nat) (digits rest : List UInt8) : Prop :=
  (∀ w ∈ width, digits.length ≤ w) ∧
    (width = some digits.length ∨ ∀ a ∈ rest.head?, isDigit a = false)

theorem begins_with_digit (hdigits : ∀ a ∈ digits, isDigit a = true) (hne : digits ≠ [])
    (rest : List UInt8) : (digits ++ rest).dropWhile isSpace = digits ++ rest ∧
      takeSign (digits ++ rest) = (false, digits ++ rest) := by
  obtain ⟨a, others, rfl⟩ := List.exists_cons_of_ne_nil hne
  obtain ⟨hspace, hsign⟩ := digit_not_space (hdigits a List.mem_cons_self)
  constructor
  · exact List.dropWhile_cons_of_neg (by rw [hspace]; decide)
  · exact if_neg (by rw [hsign]; decide)

theorem withinWidth_digits (hends : EndsAt width digits rest) : ∃ seen beyond, rest = seen ++ beyond ∧
    withinWidth width (digits ++ rest) = (digits ++ seen, beyond) ∧
      ∀ a ∈ seen.head?, isDigit a = false := by
  obtain ⟨hfits, hend⟩ := hends
  cases width with
  | none => exact ⟨rest, [], (List.append_nil rest).symm, rfl, hend.resolve_left nofun⟩
  | some w =>
    refine ⟨rest.take (w - digits.length), rest.drop (w - digits.length),
      (List.take_append_drop _ _).symm, ?_, fun b hb => ?_⟩
    · rw [withinWidth, List.take_append, List.drop_append, List.take_of_length_le (hfits w rfl),
        List.drop_of_length_le (hfits w rfl), List.nil_append]
    · rcases hend with hexact | hend
      · rw [Option.some.inj hexact, Nat.sub_self] at hb
        cases hb
      · rw [List.head?_take] at hb
        split at hb
        · cases hb
        · exact hend b hb

theorem takeWhile_digits (hdigits : ∀ a ∈ digits, isDigit a = true)
    (hrest : ∀ a ∈ rest.head?, isDigit a = false) :
    (digits ++ rest).takeWhile isDigit = digits ∧ (digits ++ rest).dropWhile isDigit = rest := by
  rw [List.takeWhile_append_of_pos hdigits, List.dropWhile_append_of_pos hdigits]
  cases rest with
  | nil => exact ⟨List.append_nil digits, rfl⟩
  | cons a rest =>
    have ha : ¬isDigit a = true := by
      rw [hrest a rfl]
      decide
    rw [List.takeWhile_cons_of_neg ha, List.dropWhile_cons_of_neg ha]
    exact ⟨List.append_nil digits, rfl⟩

theorem takeInteger_digits (hdigits : ∀ a ∈ digits, isDigit a = true) (hne : digits ≠ [])
    (hends : EndsAt width digits rest) :
    takeInteger width (digits ++ rest) = some ((false, digits), rest) := by
  obtain ⟨seen, beyond, rfl, hwithin, hseen⟩ := withinWidth_digits hends
  obtain ⟨htake, hdrop⟩ := takeWhile_digits hdigits hseen
  rw [takeInteger, (begins_with_digit hdigits hne _).1, hwithin]
  dsimp only
  rw [(begins_with_digit hdigits hne _).2]
  dsimp only
  rw [htake, hdrop, if_neg hne]

theorem readU64_digits (hdigits : ∀ a ∈ digits, isDigit a = true) (hne : digits ≠ []) :
    readU64 digits = some (min (scanDigits digits) (2 ^ 64 - 1)) := by
  have htake : takeInteger none (digits ++ []) = _ :=
    takeInteger_digits hdigits hne ⟨by rintro w ⟨⟩, .inr (by rintro a ⟨⟩)⟩
  rw [List.append_nil] at htake
  have hvalue : toU64 false (scanDigits digits) = min (scanDigits digits) (2 ^ 64 - 1) := by
    unfold toU64
    split
    · rw [min_eq_right (by omega)]
    · rw [if_neg Bool.false_ne_true, min_eq_left (by omega)]
  rw [readU64, htake, ← hvalue]
  rfl

theorem readInt_digits (hdigits : ∀ a ∈ digits, isDigit a = true) (hne : digits ≠ [])
    (hends : EndsAt width digits rest) (hsmall : scanDigits digits < 2 ^ 31) :
    readInt width (digits ++ rest) = some ((scanDigits digits : Int), rest) := by
  have hvalue : toInt false (scanDigits digits) = scanDigits digits := by
    rw [toInt, if_neg Bool.false_ne_true, min_eq_right (by omega), Int.bmod_eq_of_le (by omega) (by omega)]
  rw [readInt, takeInteger_digits hdigits hne hends]
  exact congrArg (fun v => some (v, rest)) hvalue

def pointed : Option (List UInt8) → List UInt8
  | none => []
  | some fraction => 46 :: fraction

variable {fraction : Option (List UInt8)}

theorem readReal_field {t : List UInt8} (hdigits : ∀ a ∈ digits, isDigit a = true) (hne : digits ≠ [])
    (hfraction : ∀ f ∈ fraction, ∀ a ∈ f, isDigit a = true)
    (hwithin : withinWidth width (t.dropWhile isSpace) = (digits ++ pointed fraction, rest)) :
    readReal width t = some (toReal false digits (fraction.getD []) (false, 0), rest) := by
  have hpoint : ∀ a ∈ (pointed fraction).head?, isDigit a = false := by
    cases fraction with
    | none => nofun
    | some f =>
      rintro a ⟨⟩
      rfl
  have htake : takeFraction (pointed fraction) = (fraction.getD [], []) := by
    cases fraction with
    | none => rfl
    | some f =>
      obtain ⟨hall, hnone⟩ := @takeWhile_digits f [] (hfraction f rfl) nofun
      rw [List.append_nil] at hall hnone
      rw [pointed, takeFraction, if_pos (beq_self_eq_true 46), hall, hnone]
      rfl
  obtain ⟨hwhole, hbehind⟩ := takeWhile_digits hdigits hpoint
  have hsome : ¬digits ++ fraction.getD [] = [] := fun h => hne (List.append_eq_nil_iff.mp h).1
  rw [readReal, hwithin]
  dsimp only
  rw [(begins_with_digit hdigits hne _).2]
  dsimp only
  rw [hwhole, hbehind, htake]
  dsimp only
  rw [if_neg hsome]
  rfl

theorem readReal_pointed (hdigits : ∀ a ∈ digits, isDigit a = true) (hne : digits ≠ [])
    (hfraction : ∀ f ∈ fraction, ∀ a ∈ f, isDigit a = true) :
    readReal none (digits ++ pointed fraction) =
      some (toReal false digits (fraction.getD []) (false, 0), []) := by
  apply readReal_field hdigits hne hfraction
  rw [(begins_with_digit hdigits hne _).1]
  rfl

theorem readReal_width (hdigits : ∀ a ∈ digits, isDigit a = true) (hne : digits ≠ []) :
    readReal (some digits.length) (digits ++ rest) =
      some (toReal false digits [] (false, 0), rest) := by
  refine @readReal_field digits rest _ none _ hdigits hne nofun ?_
  rw [(begins_with_digit hdigits hne _).1, withinWidth, List.take_left, List.drop_left]
  exact congrArg (fun l => (l, rest)) (List.append_nil digits).symm

theorem takeWhile_all {l : List UInt8} (h : ∀ a ∈ l, isDigit a = true) : l.takeWhile isDigit = l :=
  List.takeWhile_eq_self_iff.mpr h

theorem scanDigits_append {l l' : List UInt8} (h : ∀ a ∈ l, isDigit a = true)
    (h' : ∀ a ∈ l', isDigit a = true) :
    scanDigits (l ++ l') = 10 ^ l'.length * scanDigits l + scanDigits l' := by
  have hboth : ∀ a ∈ l ++ l', isDigit a = true := fun a ha =>
    (List.mem_append.mp ha).elim (h a) (h' a)
  rw [scanDigits, scanDigits, scanDigits, takeWhile_all h, takeWhile_all h', takeWhile_all hboth,
    List.map_append, Nat.ofDigitChars_append, Nat.ofDigitChars_eq_ofDigitChars_zero, List.length_map]

theorem toReal_pointed {l : List UInt8} (hdigits : ∀ a ∈ digits, isDigit a = true)
    (h : ∀ a ∈ l, isDigit a = true) : toReal false digits l (false, 0) =
      (scanDigits digits : Rat) + (scanDigits l : Rat) / (10 ^ l.length : Nat) := by
  have hpos : ((10 ^ l.length : Nat) : Rat) ≠ 0 := by
    rw [ne_eq, Nat.cast_eq_zero]
    exact (Nat.pow_pos (by decide)).ne'
  rw [toReal, scanDigits_append hdigits h]
  dsimp only
  rw [if_neg Bool.false_ne_true, if_neg Bool.false_ne_true, pow_zero, Nat.cast_one, mul_one,
    Nat.cast_add, Nat.cast_mul, add_div, mul_div_cancel_left₀ _ hpos]

end Digits

end Scanning

end TsunamiUdp.Library

import TsunamiUdp.Control.FileLists
import TsunamiUdp.Control.Hosts
import TsunamiUdp.Client.Main

/-! `command_set` of the client, and the way of the target rate from there to the server. -/
namespace TsunamiUdp.Control
open Library Client

inductive Setting
  | server
  | port
  | udpport
  | buffer
  | blocksize
  | verbose
  | transcript
  | ip
  | output
  | rateadjust
  | rate
  | error
  | slowdown
  | speedup
  | history
  | lossless
  | losswindow
  | blockdump
  | passphrase
deriving DecidableEq

namespace Setting

def text : Setting → List UInt8
  | .server => [115, 101, 114, 118, 101, 114]
  | .port => [112, 111, 114, 116]
  | .udpport => [117, 100, 112, 112, 111, 114, 116]
  | .buffer => [98, 117, 102, 102, 101, 114]
  | .blocksize => [98, 108, 111, 99, 107, 115, 105, 122, 101]
  | .verbose => [118, 101, 114, 98, 111, 115, 101]
  | .transcript => [116, 114, 97, 110, 115, 99, 114, 105, 112, 116]
  | .ip => [105, 112]
  | .output => [111, 117, 116, 112, 117, 116]
  | .rateadjust => [114, 97, 116, 101, 97, 100, 106, 117, 115, 116]
  | .rate => [114, 97, 116, 101]
  | .error => [101, 114, 114, 111, 114]
  | .slowdown => [115, 108, 111, 119, 100, 111, 119, 110]
  | .speedup => [115, 112, 101, 101, 100, 117, 112]
  | .history => [104, 105, 115, 116, 111, 114, 121]
  | .lossless => [108, 111, 115, 115, 108, 101, 115, 115]
  | .losswindow => [108, 111, 115, 115, 119, 105, 110, 100, 111, 119]
  | .blockdump => [98, 108, 111, 99, 107, 100, 117, 109, 112]
  | .passphrase => [112, 97, 115, 115, 112, 104, 114, 97, 115, 101]

def all : List Setting :=
  [server, port, udpport, buffer, blocksize, verbose, transcript, ip, output, rateadjust, rate,
    error, slowdown, speedup, history, lossless, losswindow, blockdump, passphrase]

end Setting

/-- The setting for which `strcasecmp` finds no difference. -/
def settingOf (word : List UInt8) : Option Setting :=
  Setting.all.find? fun setting => word.map lower == setting.text

/-- `ttp_parameter_t` of the client. -/
structure ClientParameter where
  serverName : List UInt8
  serverPort : UInt16
  clientPort : UInt16
  udpBuffer : UInt32
  verboseYn : Bool
  transcriptYn : Bool
  ipv6Yn : Bool
  lineMode : Bool
  blockSize : UInt32
  targetRate : UInt32
  rateAdjust : Bool
  errorRate : UInt32
  slowerNum : UInt16
  slowerDen : UInt16
  fasterNum : UInt16
  fasterDen : UInt16
  history : UInt16
  lossless : Bool
  losswindowMs : UInt32
  blockdump : Bool
  passphrase : Option (List UInt8)

def ClientParameter.submitted (parameter : ClientParameter) : Received where
  blockSize := parameter.blockSize
  targetRate := parameter.targetRate
  errorRate := parameter.errorRate
  slowerNum := parameter.slowerNum
  slowerDen := parameter.slowerDen
  fasterNum := parameter.fasterNum
  fasterDen := parameter.fasterDen

/-- `localhost` -/
def defaultServerName : List UInt8 := [108, 111, 99, 97, 108, 104, 111, 115, 116]

def resetClient : ClientParameter where
  serverName := defaultServerName
  serverPort := 46224
  clientPort := 46224
  udpBuffer := 20000000
  verboseYn := true
  transcriptYn := false
  ipv6Yn := false
  lineMode := true
  blockSize := 1024
  targetRate := 650000000
  rateAdjust := false
  errorRate := 7500
  slowerNum := 25
  slowerDen := 24
  fasterNum := 5
  fasterDen := 6
  history := 25
  lossless := true
  losswindowMs := 1000
  blockdump := false
  passphrase := none

theorem resetClient_inRange : resetClient.submitted.InRange := by
  constructor <;> decide

def upper (b : UInt8) : UInt8 := if 97 ≤ b.toNat ∧ b.toNat ≤ 122 then b - 32 else b

def cutSuffix (cpy : List UInt8) (l : Nat) : Int × List UInt8 :=
  if 1 < l ∧ upper (cpy.getD (l - 1) 0) = 77 then (1000000, cpy.set (l - 1) 0)
  else if 1 < l ∧ upper (cpy.getD (l - 1) 0) = 71 then (1000000000, cpy.set (l - 1) 0)
  else (1, cpy)

/-- The product of two `long`s; `none` if it overflows, which is undefined. -/
def mulLong (a b : Int) : Option Int :=
  if -9223372036854775808 ≤ a * b ∧ a * b ≤ 9223372036854775807 then some (a * b) else none

/-- The branch of `command_set` for the rate, with what happens to be in `cpy`. -/
def readRate (cpy cmd : List UInt8) : Option UInt32 :=
  (strcpy cpy cmd).bind fun cpy =>
    let (multiplier, cpy) := cutSuffix cpy cmd.length
    (mulLong multiplier (atol (cString cpy))).map UInt32.ofInt

/-- `parse_fraction`; without a slash the fraction stays as it is. -/
def parseFraction (fraction : List UInt8) (num den : UInt16) : UInt16 × UInt16 :=
  match fraction.dropWhile (· ≠ 47) with
  | [] => (num, den)
  | _ :: behind => (UInt16.ofInt (atol fraction), UInt16.ofInt (atol behind))

def yes : List UInt8 := [121, 101, 115]

/-- The new value of a setting. `thousandfold` is the conversion of the error rate, which is
done in floating point; `none` if the behaviour is undefined. -/
def setValue (thousandfold : List UInt8 → UInt32) (cpy : List UInt8) (setting : Setting)
    (value : List UInt8) (parameter : ClientParameter) : Option ClientParameter :=
  match setting with
  | .server => some { parameter with serverName := value }
  | .port => some { parameter with serverPort := UInt16.ofInt (atol value) }
  | .udpport => some { parameter with clientPort := UInt16.ofInt (atol value) }
  | .buffer => some { parameter with udpBuffer := UInt32.ofInt (atol value) }
  | .blocksize => some { parameter with blockSize := UInt32.ofInt (atol value) }
  | .verbose => some { parameter with verboseYn := value == yes }
  | .transcript => some { parameter with transcriptYn := value == yes }
  | .ip => some { parameter with ipv6Yn := value == [118, 54] }
  | .output => some { parameter with lineMode := value != [115, 99, 114, 101, 101, 110] }
  | .rateadjust => some { parameter with rateAdjust := value == yes }
  | .rate => (readRate cpy value).map fun rate => { parameter with targetRate := rate }
  | .error => some { parameter with errorRate := thousandfold value }
  | .slowdown =>
    let (num, den) := parseFraction value parameter.slowerNum parameter.slowerDen
    some { parameter with slowerNum := num, slowerDen := den }
  | .speedup =>
    let (num, den) := parseFraction value parameter.fasterNum parameter.fasterDen
    some { parameter with fasterNum := num, fasterDen := den }
  | .history => some { parameter with history := UInt16.ofInt (atol value) }
  | .lossless => some { parameter with lossless := value == yes }
  | .losswindow => some { parameter with losswindowMs := UInt32.ofInt (atol value) }
  | .blockdump => some { parameter with blockdump := value == yes }
  | .passphrase => some { parameter with passphrase := some value }

/-- `command_set`: with three words something is set, otherwise values are only shown. -/
def commandSet (thousandfold : List UInt8 → UInt32) (cpy : List UInt8)
    (words : List (List UInt8)) (parameter : ClientParameter) : Option ClientParameter :=
  match words with
  | [_, name, value] =>
    match settingOf name with
    | none => some parameter
    | some setting => setValue thousandfold cpy setting value parameter
  | _ => some parameter

inductive RateSuffix
  | one
  | m
  | M
  | g
  | G

namespace RateSuffix

def text : RateSuffix → List UInt8
  | one => []
  | m => [109]
  | M => [77]
  | g => [103]
  | G => [71]

def factor : RateSuffix → Nat
  | one => 1
  | m => 1000000
  | M => 1000000
  | g => 1000000000
  | G => 1000000000

end RateSuffix

structure WrittenRate where
  digits : List UInt8
  suffix : RateSuffix
  begun : digits ≠ []
  number : ∀ b ∈ digits, isDigit b = true
  short : digits.length ≤ 250

namespace WrittenRate

def text (w : WrittenRate) : List UInt8 := w.digits ++ w.suffix.text

def rate (w : WrittenRate) : Nat := scanDigits w.digits * w.suffix.factor

end WrittenRate

/-- On whatever machines, and however the bytes arrive, the server derives its delay from
this rate. -/
def DelayFrom (rate : Nat) (param : Received) : Prop :=
  ∀ (client server : Host) (network : Network) (config : Config) (s : Connection)
    (contents : List UInt8) (epoch : Nat), ∃ enough, ∀ fuel ≥ enough, ∃ r rest t,
      receive server fuel (network.up (submit client param)) = some (r, rest) ∧
      run (Connection.step config) (s.requested (some contents) r)
        (readParameters (some contents) epoch) = some t ∧
      t.server.targetRate = rate ∧
      (r.blockSize.toNat ≠ 0 → rate ≠ 0 →
        t.server.param.ipdTime = wrap32 (8000000 * r.blockSize.toNat / rate))

/-- Whatever the parameters are before, `set rate` leaves the target rate alone or stores what
is written, and the server derives its delay from the rate that is stored then. -/
def WrittenRate.Stored (w : WrittenRate) : Prop :=
  ∀ (thousandfold : List UInt8 → UInt32) (cpy command : List UInt8) (parameter : ClientParameter),
    cpy.length = 256 → ∃ after,
      commandSet thousandfold cpy [command, Setting.rate.text, w.text] parameter = some after ∧
      (after.targetRate = parameter.targetRate ∨ after.targetRate.toNat = w.rate) ∧
      DelayFrom after.targetRate.toNat after.submitted

section Suffix
variable {digits : List UInt8} {cpy : List UInt8}

theorem cutSuffix_append (front : List UInt8) (last : UInt8) (more : List UInt8) :
    cutSuffix (front ++ last :: more) (front.length + 1) =
      if front ≠ [] ∧ upper last = 77 then (1000000, front ++ 0 :: more)
      else if front ≠ [] ∧ upper last = 71 then (1000000000, front ++ 0 :: more)
      else (1, front ++ last :: more) := by
  have hlast : (front ++ last :: more).getD front.length 0 = last := by
    simp [List.getD_eq_getElem?_getD]
  have hset : (front ++ last :: more).set front.length 0 = front ++ 0 :: more := by
    rw [List.set_append_right _ _ le_rfl, Nat.sub_self, List.set_cons_zero]
  have hfront : 1 < front.length + 1 ↔ front ≠ [] := by
    rw [← List.length_pos_iff]
    omega
  unfold cutSuffix
  rw [Nat.add_sub_cancel, hlast, hset]
  simp only [hfront]

theorem upper_digit {b : UInt8} (h : isDigit b = true) : upper b ≠ 77 ∧ upper b ≠ 71 := by
  have hrange : 48 ≤ b.toNat ∧ b.toNat ≤ 57 := of_decide_eq_true h
  rw [upper, if_neg (by omega)]
  constructor <;> rintro rfl <;> exact absurd hrange (by decide)

theorem atol_digits (hbegun : digits ≠ []) (hnumber : ∀ b ∈ digits, isDigit b = true) :
    atol digits = min 9223372036854775807 (scanDigits digits : Int) := by
  obtain ⟨b, digits, rfl⟩ := List.exists_cons_of_ne_nil hbegun
  have hrange : 48 ≤ b.toNat ∧ b.toNat ≤ 57 := of_decide_eq_true (hnumber b List.mem_cons_self)
  have hspace : ¬isSpace b = true := by
    rw [isSpace, decide_eq_true_eq]
    omega
  have hsign : ∀ c : UInt8, ¬(48 ≤ c.toNat ∧ c.toNat ≤ 57) → (b :: digits).head? ≠ some c := by
    rintro c hc ⟨⟩
    exact hc hrange
  rw [atol, List.dropWhile_cons_of_neg hspace, if_neg (hsign 45 (by decide)), if_neg (hsign 43 (by decide))]

end Suffix

namespace WrittenRate
variable (w : WrittenRate)

theorem text_length : w.text.length ≤ 251 := by
  have hshort := w.short
  have hsuffix : w.suffix.text.length ≤ 1 := by
    cases w.suffix <;> decide
  rw [text, List.length_append]
  omega

theorem digits_cString (more : List UInt8) : cString (w.digits ++ 0 :: more) = w.digits :=
  cString_eq (fun hzero => absurd (w.number 0 hzero) (by decide)) more

theorem cutSuffix_text (more : List UInt8) : ∃ more',
    cutSuffix (w.text ++ 0 :: more) w.text.length = ((w.suffix.factor : Int), w.digits ++ 0 :: more') := by
  have hletter : ∀ letter, w.suffix.text = [letter] →
      cutSuffix (w.text ++ 0 :: more) w.text.length =
        cutSuffix (w.digits ++ letter :: 0 :: more) (w.digits.length + 1) := by
    intro letter hsuffix
    rw [text, hsuffix, List.append_assoc, List.length_append]
    rfl
  have hdigits := w.begun
  cases hsuffix : w.suffix with
  | one =>
    obtain ⟨front, last, hlast⟩ := (List.eq_nil_or_concat' w.digits).resolve_left hdigits
    have hmem : last ∈ w.digits := by
      rw [hlast]
      exact List.mem_concat_self
    have hupper := upper_digit (w.number last hmem)
    have htext : w.text = front ++ [last] := by
      rw [text, hsuffix, hlast]
      exact List.append_nil _
    refine ⟨more, ?_⟩
    rw [htext, hlast, List.append_assoc, List.length_append]
    refine (cutSuffix_append front last (0 :: more)).trans ?_
    rw [if_neg fun h => hupper.1 h.2, if_neg fun h => hupper.2 h.2]
    rfl
  | m =>
    rw [hletter 109 (by rw [hsuffix]; rfl), cutSuffix_append, if_pos ⟨hdigits, by decide⟩]
    exact ⟨_, rfl⟩
  | M =>
    rw [hletter 77 (by rw [hsuffix]; rfl), cutSuffix_append, if_pos ⟨hdigits, by decide⟩]
    exact ⟨_, rfl⟩
  | g =>
    rw [hletter 103 (by rw [hsuffix]; rfl), cutSuffix_append, if_neg fun h => absurd h.2 (by decide),
      if_pos ⟨hdigits, by decide⟩]
    exact ⟨_, rfl⟩
  | G =>
    rw [hletter 71 (by rw [hsuffix]; rfl), cutSuffix_append, if_neg fun h => absurd h.2 (by decide),
      if_pos ⟨hdigits, by decide⟩]
    exact ⟨_, rfl⟩

theorem readRate_text {cpy : List UInt8} (hcpy : cpy.length = 256) :
    readRate cpy w.text = (mulLong w.suffix.factor
      (min 9223372036854775807 (scanDigits w.digits : Int))).map UInt32.ofInt := by
  have hlength := w.text_length
  have hcopy : strcpy cpy w.text = some _ := if_pos (by omega)
  obtain ⟨more, hcut⟩ := w.cutSuffix_text (cpy.drop (w.text.length + 1))
  rw [readRate, hcopy, Option.bind_some, hcut]
  dsimp only
  rw [w.digits_cString, atol_digits w.begun w.number]

theorem factor_pos : 0 < w.suffix.factor := by
  cases w.suffix <;> decide

theorem readRate_small {cpy : List UInt8} (hcpy : cpy.length = 256) (hrate : w.rate < 4294967296) :
    ∃ rate, readRate cpy w.text = some rate ∧ rate.toNat = w.rate := by
  have hnumber : scanDigits w.digits ≤ w.rate := Nat.le_mul_of_pos_right _ w.factor_pos
  have hmin : min (9223372036854775807 : Int) (scanDigits w.digits) = scanDigits w.digits := by
    omega
  have hproduct : (w.suffix.factor : Int) * scanDigits w.digits = w.rate := by
    rw [rate, Nat.mul_comm, Int.natCast_mul]
  have hmul : mulLong w.suffix.factor (scanDigits w.digits) = some (w.rate : Int) := by
    rw [mulLong, hproduct, if_pos (by omega)]
  refine ⟨UInt32.ofInt w.rate, ?_, ?_⟩
  · rw [w.readRate_text hcpy, hmin, hmul]
    rfl
  · have hmod : ((w.rate : Int) % 2 ^ 32).toNat = w.rate := by omega
    rw [UInt32.ofInt, hmod, UInt32.toNat_ofNat_of_lt' hrate]

end WrittenRate

theorem settingOf_text (setting : Setting) : settingOf setting.text = some setting := by
  cases setting <;> decide +kernel

theorem commandSet_rate (thousandfold : List UInt8 → UInt32) (cpy command value : List UInt8)
    (parameter : ClientParameter) :
    commandSet thousandfold cpy [command, Setting.rate.text, value] parameter =
      (readRate cpy value).map fun rate => { parameter with targetRate := rate } := by
  rw [commandSet, settingOf_text]
  rfl

/-- The rate that the client has is the one from which the server derives its delay. -/
theorem delayFrom_submitted (param : Received) : DelayFrom param.targetRate.toNat param := by
  intro client server network config s contents epoch
  refine ⟨9, fun fuel hfuel => ?_⟩
  obtain ⟨rest, hreceive, -⟩ := receive_submit client server param fuel
    (network.up (submit client param)) [] (by omega) (by rw [network.up_whole, List.append_nil])
  obtain ⟨t, hrun, ht⟩ := readParameters_items config epoch
    (s := s.requested (some contents) param) param.items_width (by simp [Received.items]) rfl rfl
  refine ⟨param, rest, t, hreceive, hrun, ?_, fun hsize hrate => ?_⟩
  · rw [ht, storeAll_received]
    unfold describeFile
    dsimp only
    split
    · rfl
    · split <;> rfl
  · rw [ht, storeAll_received]
    unfold describeFile
    dsimp only
    rw [if_neg hsize, if_neg hrate]

/-- `set rate` stores what is written, or refuses it, if and only if the rate is less than
2^32. -/
theorem rate_stored_iff (w : WrittenRate) : w.Stored ↔ w.rate < 4294967296 := by
  constructor
  · intro h
    -- Some other rate before, so that leaving it alone is no way out.
    have hany : ∀ old : UInt32, ∃ new, readRate (List.replicate 256 0) w.text = some new ∧
        (new = old ∨ new.toNat = w.rate) := by
      intro old
      obtain ⟨after, hset, hrate, -⟩ := h (fun _ => 0) (List.replicate 256 0) []
        ⟨[], 0, 0, 0, true, true, true, true, 0, old, true, 0, 0, 0, 0, 0, 0, true, 0, true, none⟩
        List.length_replicate
      rw [commandSet_rate] at hset
      obtain ⟨new, hnew, rfl⟩ := Option.map_eq_some_iff.mp hset
      exact ⟨new, hnew, hrate⟩
    obtain ⟨new, hnew, -⟩ := hany 0
    obtain ⟨new', hnew', hrate⟩ := hany (new + 1)
    cases hnew.symm.trans hnew'
    have hdiffers : new ≠ new + 1 := by
      intro heq
      have hnat := (congrArg UInt32.toNat heq).trans (UInt32.toNat_add new 1)
      rw [show (1 : UInt32).toNat = 1 from rfl] at hnat
      omega
    rw [← hrate.resolve_left hdiffers]
    exact new.toNat_lt
  · intro hrate thousandfold cpy command parameter hcpy
    obtain ⟨rate, hread, hrate⟩ := w.readRate_small hcpy hrate
    refine ⟨{ parameter with targetRate := rate }, ?_, .inr hrate, delayFrom_submitted _⟩
    rw [commandSet_rate, hread]
    rfl

/-- `5G` -/
def fiveGigabit : WrittenRate :=
  ⟨[53], .G, List.cons_ne_nil 53 [], List.forall_mem_singleton.mpr rfl, by decide⟩

/-- Of 5 Gbps the rate of 705032704 bps is left. -/
theorem five_gigabit_narrowed :
    (∀ (thousandfold : List UInt8 → UInt32) (command : List UInt8) (parameter : ClientParameter),
      commandSet thousandfold (List.replicate 256 0)
        [command, Setting.rate.text, fiveGigabit.text] parameter =
          some { parameter with targetRate := 705032704 }) ∧
      fiveGigabit.rate = 5000000000 ∧ ¬fiveGigabit.Stored := by
  have hrate : fiveGigabit.rate = 5000000000 := by decide +kernel
  have hread : readRate (List.replicate 256 0) fiveGigabit.text = some 705032704 := by
    decide +kernel
  refine ⟨fun thousandfold command parameter => ?_, hrate, fun h => ?_⟩
  · rw [commandSet_rate, hread]
    rfl
  · obtain ⟨after, hset, hstored, -⟩ := h (fun _ => 0) (List.replicate 256 0) []
      ⟨[], 0, 0, 0, true, true, true, true, 0, 0, true, 0, 0, 0, 0, 0, 0, true, 0, true, none⟩
      List.length_replicate
    rw [commandSet_rate, hread] at hset
    cases hset
    rw [hrate] at hstored
    exact absurd hstored (by decide)

end TsunamiUdp.Control

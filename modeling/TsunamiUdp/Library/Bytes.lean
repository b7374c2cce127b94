import Mathlib.Tactic.Ring
import Mathlib.Tactic.NormNum

/-! Fixed-width byte encodings of natural numbers, most significant byte first. -/
namespace TsunamiUdp.Library

def toBytes : Nat → Nat → List UInt8
  | 0, _ => []
  | width + 1, n => UInt8.ofNat (n / 256 ^ width % 256) :: toBytes width n

def ofBytes : List UInt8 → Nat
  | [] => 0
  | b :: bs => b.toNat * 256 ^ bs.length + ofBytes bs

@[simp] theorem toBytes_length (width n : Nat) : (toBytes width n).length = width := by
  induction width with
  | zero => rfl
  | succ width ih => simp [toBytes, ih]

theorem ofBytes_toBytes_mod (width n : Nat) : ofBytes (toBytes width n) = n % 256 ^ width := by
  induction width with
  | zero => simp [toBytes, ofBytes, Nat.mod_one]
  | succ width ih =>
    have hdigit : (UInt8.ofNat (n / 256 ^ width % 256)).toNat = n / 256 ^ width % 256 := by
      simp
    rw [toBytes, ofBytes, ih, toBytes_length, hdigit, pow_succ, Nat.mod_mul]
    ring

theorem ofBytes_toBytes {width n : Nat} (h : n < 256 ^ width) : ofBytes (toBytes width n) = n := by
  rw [ofBytes_toBytes_mod, Nat.mod_eq_of_lt h]

theorem ofBytes_lt (bs : List UInt8) : ofBytes bs < 256 ^ bs.length := by
  induction bs with
  | nil => simp [ofBytes]
  | cons b bs ih =>
    have hb : b.toNat < 256 := b.toNat_lt
    rw [ofBytes, List.length_cons, pow_succ]
    calc b.toNat * 256 ^ bs.length + ofBytes bs
        < b.toNat * 256 ^ bs.length + 256 ^ bs.length := by omega
      _ = (b.toNat + 1) * 256 ^ bs.length := by ring
      _ ≤ 256 * 256 ^ bs.length := Nat.mul_le_mul_right _ (by omega)
      _ = 256 ^ bs.length * 256 := by ring

@[simp] theorem ofBytes_append (high low : List UInt8) :
    ofBytes (high ++ low) = ofBytes high * 256 ^ low.length + ofBytes low := by
  induction high with
  | nil => rw [ofBytes, Nat.zero_mul, Nat.zero_add, List.nil_append]
  | cons b high ih =>
    rw [List.cons_append, ofBytes, ofBytes, ih, List.length_append, pow_add]
    ring

@[simp] theorem toBytes_add_mul (width n k : Nat) :
    toBytes width (n + k * 256 ^ width) = toBytes width n := by
  induction width generalizing k with
  | zero => rfl
  | succ width ih =>
    have hpow : k * 256 ^ (width + 1) = k * 256 * 256 ^ width := by ring
    have hpos : 0 < 256 ^ width := Nat.pow_pos (by decide)
    rw [toBytes, toBytes, hpow, ih, Nat.add_mul_div_right _ _ hpos, Nat.add_mul_mod_self_right]

theorem toBytes_ofBytes (bs : List UInt8) : toBytes bs.length (ofBytes bs) = bs := by
  induction bs with
  | nil => rfl
  | cons b bs ih =>
    have hpos : 0 < 256 ^ bs.length := Nat.pow_pos (by decide)
    have hfirst : (b.toNat * 256 ^ bs.length + ofBytes bs) / 256 ^ bs.length = b.toNat := by
      rw [Nat.add_comm, Nat.add_mul_div_right _ _ hpos, Nat.div_eq_of_lt (ofBytes_lt bs), Nat.zero_add]
    rw [List.length_cons, toBytes, ofBytes, hfirst, Nat.mod_eq_of_lt b.toNat_lt, UInt8.ofNat_toNat,
      Nat.add_comm, toBytes_add_mul, ih]

theorem toBytes_append (high low n : Nat) :
    toBytes (high + low) n = toBytes high (n / 256 ^ low) ++ toBytes low n := by
  induction high with
  | zero => rw [Nat.zero_add]; rfl
  | succ high ih =>
    have hdiv : n / 256 ^ (high + low) = n / 256 ^ low / 256 ^ high := by
      rw [Nat.div_div_eq_div_mul, ← pow_add, Nat.add_comm low]
    rw [Nat.add_right_comm, toBytes, ih, hdiv]
    rfl

section Records
variable {α : Type*} {width : Nat}

theorem flatten_length {records : List (List α)} (h : ∀ r ∈ records, r.length = width) :
    records.flatten.length = width * records.length := by
  induction records with
  | nil => rfl
  | cons r records ih =>
    rw [List.flatten_cons, List.length_append, h r List.mem_cons_self,
      ih fun r' hr' => h r' (List.mem_cons_of_mem r hr'), List.length_cons, Nat.mul_succ,
      Nat.add_comm]

theorem next_record {done rest : List (List α)} {bytes : List α} (hwidth : 0 < width)
    (hrest : ∀ r ∈ rest, r.length = width) (hbytes : bytes.length = width)
    (h : done.flatten ++ bytes <+: (done ++ rest).flatten) :
    ∃ rest', rest = bytes :: rest' := by
  rw [List.flatten_append, List.prefix_append_right_inj] at h
  cases rest with
  | nil =>
    have hle : bytes.length ≤ 0 := h.length_le
    omega
  | cons r rest' =>
    obtain ⟨tail, htail⟩ := h
    rw [List.flatten_cons] at htail
    have hsame := (List.append_inj htail (by rw [hbytes, hrest r List.mem_cons_self])).1
    exact ⟨rest', by rw [hsame]⟩

theorem record_at {records : List (List α)} {before bytes : List α} (hwidth : 0 < width)
    (hrecords : ∀ r ∈ records, r.length = width) (hbefore : width ∣ before.length)
    (hbytes : bytes.length = width) (h : before ++ bytes <+: records.flatten) :
    records[before.length / width]? = some bytes := by
  obtain ⟨k, hk⟩ := hbefore
  rw [hk, Nat.mul_div_cancel_left k hwidth]
  have hle : width * k + width ≤ width * records.length := by
    rw [← flatten_length hrecords, ← hk, ← hbytes, ← List.length_append]
    exact h.length_le
  have hmore : k + 1 ≤ records.length := Nat.le_of_mul_le_mul_left (by rwa [Nat.mul_succ]) hwidth
  have hfront : (records.take k).flatten.length = width * k := by
    rw [flatten_length fun r hr => hrecords r (List.mem_of_mem_take hr), List.length_take,
      Nat.min_eq_left (by omega)]
  obtain ⟨tail, htail⟩ := h
  have hcut : before = (records.take k).flatten := by
    rw [← List.take_append_drop k records, List.flatten_append, List.append_assoc] at htail
    exact (List.append_inj htail (by rw [hk, hfront])).1
  have hnext : (records.take k).flatten ++ bytes <+: (records.take k ++ records.drop k).flatten := by
    rw [List.take_append_drop, ← hcut]
    exact ⟨tail, htail⟩
  obtain ⟨rest, hrest⟩ := next_record hwidth (fun r hr => hrecords r (List.mem_of_mem_drop hr)) hbytes hnext
  rw [← Nat.add_zero k, ← List.getElem?_drop, hrest]
  rfl

end Records

end TsunamiUdp.Library

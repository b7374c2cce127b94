import TsunamiUdp.Library.Skipping
import TsunamiUdp.RtServer.Datagram

/-! `build_datagram` of the realtime server with `MODE_34TH`: of every four bytes of the
VSIB the first three are sent. -/
namespace TsunamiUdp.RtServer
open Library

def packingSize : Nat := 4 * maxBlockSize / 3 + 8

def wrap64 (n : Nat) : Nat := n % 18446744073709551616

/-- The bytes sent so far, and those that were left out. -/
def vsibBytePos (blockSize blockIndex : Nat) : Nat :=
  let sent := wrap64 (blockSize * wrap32 (blockIndex + 4294967295))
  wrap64 (sent + sent / 3)

/-- The loop that packs what was loaded; `none` if it reads anything else, or if the fuel does
not suffice. -/
def packLoop (loaded : List UInt8) (blockSize : Nat) :
    Nat → Nat → Nat → List UInt8 → Option (List UInt8)
  | 0, _, _, _ => none
  | fuel + 1, inbufpos, vsibBytePos, out =>
    if out.length < blockSize then
      if vsibBytePos % 4 = 3 then packLoop loaded blockSize fuel (inbufpos + 1) (wrap64 (vsibBytePos + 1)) out
      else loaded[inbufpos]?.bind fun b =>
        packLoop loaded blockSize fuel (inbufpos + 1) (wrap64 (vsibBytePos + 1)) (out ++ [b])
    else some out

/-- The payload of a datagram; `none` if more is loaded than `packingbuffer` takes. -/
def packedPayload (vsib : Nat → UInt8) (position blockSize blockIndex fuel : Nat) :
    Option (List UInt8) :=
  let start := vsibBytePos blockSize blockIndex
  let load := wrap32 (2 * blockSize + 4)
  if load ≤ packingSize then
    packLoop (readVsibBlock vsib (fseeko position start) load) blockSize fuel 0 start []
  else none

/-- `bskp.c`: what `putc` makes of the end of the input is a byte of its own. -/
def bskp : List UInt8 → List UInt8
  | a :: b :: c :: _ :: rest => a :: b :: c :: bskp rest
  | [a, b, c] => [a, b, c]
  | rest => rest ++ [255]

/-- The payload is the block of the stream that `bskp` makes of all that the VSIB delivers. -/
def PacksBlock (vsib : Nat → UInt8) (position blockSize blockIndex : Nat) : Prop :=
  ∃ fuel payload, packedPayload vsib position blockSize blockIndex fuel = some payload ∧
    payload.length = blockSize ∧
    ∃ enough, ∀ size ≥ enough, blockAt blockSize (bskp (readVsibBlock vsib 0 size)) blockIndex = payload

section Filter

theorem bskp_getElem? (l : List UInt8) {k : Nat} (h : keptAt k < l.length) :
    (bskp l)[k]? = l[keptAt k]? := by
  induction l using bskp.induct generalizing k with
  | case1 a b c d rest ih =>
    match k with
    | 0 => rfl
    | 1 => rfl
    | 2 => rfl
    | k + 3 =>
      rw [keptAt_add_three] at h ⊢
      exact ih (by simpa using h)
  | case2 a b c =>
    have hk : keptAt k < 3 := h
    unfold keptAt at hk ⊢
    match k with
    | 0 => rfl
    | 1 => rfl
    | 2 => rfl
    | k + 3 => omega
  | case3 rest hfour hthree =>
    have hlen : rest.length < 3 := by
      match rest with
      | [] => decide
      | [a] => simp
      | [a, b] => simp
      | [a, b, c] => exact absurd rfl (hthree a b c)
      | a :: b :: c :: d :: rest => exact absurd rfl (hfour a b c d rest)
    have hsame : keptAt k = k := by
      unfold keptAt at h ⊢
      omega
    have hbskp : bskp rest = rest ++ [255] := by
      match rest with
      | [] => rfl
      | [a] => rfl
      | [a, b] => rfl
      | [a, b, c] => exact absurd rfl (hthree a b c)
      | a :: b :: c :: d :: rest => exact absurd rfl (hfour a b c d rest)
    rw [hsame] at h ⊢
    rw [hbskp, List.getElem?_append_left h]

def keptBytes (vsib : Nat → UInt8) (start count : Nat) : List UInt8 :=
  (List.range count).map fun k : Nat => vsib (keptAt (start + k))

@[simp] theorem keptBytes_length (vsib : Nat → UInt8) (start count : Nat) :
    (keptBytes vsib start count).length = count := by
  simp [keptBytes]

theorem keptBytes_succ (vsib : Nat → UInt8) (start count : Nat) :
    keptBytes vsib start (count + 1) = keptBytes vsib start count ++ [vsib (keptAt (start + count))] := by
  rw [keptBytes, List.range_succ, List.map_append]
  rfl

theorem blockAt_bskp (vsib : Nat → UInt8) (blockSize blockIndex : Nat) {size : Nat}
    (h : keptAt (blockStart blockSize blockIndex + blockSize) ≤ size) :
    blockAt blockSize (bskp (readVsibBlock vsib 0 size)) blockIndex =
      keptBytes vsib (blockStart blockSize blockIndex) blockSize := by
  apply List.ext_getElem?
  intro k
  rw [blockAt_getElem?]
  by_cases hk : k < blockSize
  · have hkept := keptAt_mono (show blockStart blockSize blockIndex + k + 1 ≤
      blockStart blockSize blockIndex + blockSize by omega)
    have hlt : keptAt (blockStart blockSize blockIndex + k) < size := by
      rcases keptAt_succ (blockStart blockSize blockIndex + k) with hnext | hnext <;> omega
    rw [if_pos hk, bskp_getElem? _ (by rwa [readVsibBlock_length]), readVsibBlock_getElem?, if_pos hlt,
      Nat.zero_add]
    simp [keptBytes, hk]
  · rw [if_neg hk, List.getElem?_eq_none]
    simp
    omega

end Filter

section Loop
variable {vsib : Nat → UInt8} {first blockSize load : Nat}

/-- The loop stands at the next byte to be kept, or at the one in front of it that is left
out. It needs a pass for each, and loads enough for a third more than it keeps. -/
theorem packLoop_kept (hload : blockSize + blockSize / 3 + 1 ≤ load)
    (hnarrow : keptAt (first + blockSize) < 18446744073709551615) {fuel inbufpos count : Nat}
    (hcount : count ≤ blockSize)
    (hplace : keptAt first + inbufpos = keptAt (first + count) ∨
      keptAt first + inbufpos + 1 = keptAt (first + count) ∧ (keptAt first + inbufpos) % 4 = 3)
    (hfuel : 2 * (blockSize - count) + (keptAt (first + count) - (keptAt first + inbufpos)) < fuel) :
    packLoop (readVsibBlock vsib (keptAt first) load) blockSize fuel inbufpos
      (keptAt first + inbufpos) (keptBytes vsib first count) =
        some (keptBytes vsib first blockSize) := by
  induction fuel generalizing inbufpos count with
  | zero => omega
  | succ fuel ih =>
    by_cases hmore : count < blockSize
    · have hspread := keptAt_add_le first count
      have hbefore := keptAt_mono (show first + count ≤ first + blockSize by omega)
      have hwrap : wrap64 (keptAt first + inbufpos + 1) = keptAt first + (inbufpos + 1) := by
        unfold wrap64
        omega
      rw [packLoop, keptBytes_length, if_pos hmore, hwrap]
      rcases hplace with hkept | ⟨hnext, hskip⟩
      · have hmod := keptAt_mod (first + count)
        have hbyte : (readVsibBlock vsib (keptAt first) load)[inbufpos]? =
            some (vsib (keptAt (first + count))) := by
          rw [readVsibBlock_getElem?, if_pos (by omega), hkept]
        rw [if_neg (by omega), hbyte, Option.bind_some, ← keptBytes_succ]
        have hsucc := keptAt_succ (first + count)
        rw [Nat.add_assoc] at hsucc
        refine ih hmore ?_ ?_
        · rcases hsucc with hone | ⟨hthree, htwo⟩
          · exact .inl (by omega)
          · exact .inr ⟨by omega, by omega⟩
        · omega
      · rw [if_pos hskip]
        exact ih hcount (.inl (by omega)) (by omega)
    · have hall : count = blockSize := by omega
      rw [packLoop, keptBytes_length, if_neg hmore, hall]

theorem packLoop_le {loaded : List UInt8} {fuel inbufpos vsibBytePos : Nat} {out payload : List UInt8}
    (h : packLoop loaded blockSize fuel inbufpos vsibBytePos out = some payload)
    (hin : out.length ≤ inbufpos) (hout : out.length ≤ loaded.length) :
    blockSize ≤ loaded.length := by
  induction fuel generalizing inbufpos vsibBytePos out with
  | zero => cases h
  | succ fuel ih =>
    rw [packLoop] at h
    split at h
    · split at h
      · exact ih h (by omega) hout
      · obtain ⟨b, hb, hrest⟩ := Option.bind_eq_some_iff.mp h
        obtain ⟨hlt, -⟩ := List.getElem?_eq_some_iff.mp hb
        exact ih hrest (by rw [List.length_append, List.length_singleton]; omega)
          (by rw [List.length_append, List.length_singleton]; omega)
    · omega

end Loop

theorem vsibBytePos_eq {blockSize blockIndex : Nat} (hsize : blockSize ≤ maxBlockSize)
    (h1 : 1 ≤ blockIndex) (hnarrow : blockIndex < 4294967296) :
    vsibBytePos blockSize blockIndex = keptAt (blockStart blockSize blockIndex) ∧
      blockStart blockSize blockIndex < 281474976710656 := by
  have hwrap : wrap32 (blockIndex + 4294967295) = blockIndex - 1 := by
    unfold wrap32
    omega
  have hle : blockSize * (blockIndex - 1) ≤ maxBlockSize * 4294967295 :=
    Nat.mul_le_mul hsize (by omega)
  unfold maxBlockSize at hle
  unfold vsibBytePos blockStart keptAt
  rw [hwrap]
  generalize blockSize * (blockIndex - 1) = sent at hle
  unfold wrap64
  dsimp only
  omega

/-- Each block is packed as the filter of the whole stream has it if and only if what is
loaded for it fits into the buffer. -/
theorem packed_iff (vsib : Nat → UInt8) (position blockSize blockIndex : Nat)
    (hsize : blockSize < 4294967296) (h1 : 1 ≤ blockIndex) (hnarrow : blockIndex < 4294967296) :
    PacksBlock vsib position blockSize blockIndex ↔ 2 * blockSize + 4 ≤ packingSize := by
  have hpacking : packingSize = 87381 := by decide
  unfold PacksBlock packedPayload
  dsimp only
  constructor
  · rintro ⟨fuel, payload, hpack, -⟩
    split at hpack
    · rename_i hfits
      have hle := packLoop_le hpack (Nat.zero_le _) (Nat.zero_le _)
      rw [readVsibBlock_length] at hle
      unfold wrap32 at hle hfits
      omega
    · cases hpack
  · intro hfits
    have hmax : blockSize ≤ maxBlockSize := by
      unfold maxBlockSize
      omega
    obtain ⟨hstart, hfar⟩ := vsibBytePos_eq hmax h1 hnarrow
    have hload : wrap32 (2 * blockSize + 4) = 2 * blockSize + 4 := wrap32_of_lt (by omega)
    have hnear : keptAt (blockStart blockSize blockIndex + blockSize) < 9223372036854775808 := by
      unfold keptAt
      omega
    have hbegin := keptAt_mono (Nat.le_add_right (blockStart blockSize blockIndex) blockSize)
    have hpack : packLoop (readVsibBlock vsib (keptAt (blockStart blockSize blockIndex))
        (2 * blockSize + 4)) blockSize (2 * blockSize + 1) 0
        (keptAt (blockStart blockSize blockIndex) + 0)
        (keptBytes vsib (blockStart blockSize blockIndex) 0) =
          some (keptBytes vsib (blockStart blockSize blockIndex) blockSize) :=
      packLoop_kept (by omega) (by omega) (Nat.zero_le _) (.inl rfl) (by simp)
    refine ⟨2 * blockSize + 1, keptBytes vsib (blockStart blockSize blockIndex) blockSize, ?_,
      keptBytes_length _ _ _, keptAt (blockStart blockSize blockIndex + blockSize), fun size hlong =>
        blockAt_bskp vsib blockSize blockIndex hlong⟩
    rw [hload, if_pos hfits, hstart, fseeko, if_pos (by omega)]
    exact hpack

theorem packed_iff_sample : PacksBlock (fun k => UInt8.ofNat k) 0 5 3 :=
  (packed_iff _ 0 5 3 (by decide) (by decide) (by decide)).mpr (by decide)

/-- A block of 43689 bytes: more is loaded than the buffer takes. -/
theorem packingbuffer_too_small : ¬PacksBlock (fun _ => 0) 0 43689 1 := by
  rintro ⟨fuel, payload, hpack, -⟩
  unfold packedPayload at hpack
  rw [if_neg (by decide)] at hpack
  cases hpack

end TsunamiUdp.RtServer

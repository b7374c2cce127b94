import Mathlib.Data.List.GetD
import TsunamiUdp.Common.Md5
import TsunamiUdp.Server.Handler

/-! `ttp_authenticate` of the client and of the server, run against each other. -/
namespace TsunamiUdp.Control
open Common

/-- A machine, with what is in memory where `md5_init` finds its buffer. -/
structure Machine where
  order : Server.ByteOrder
  memory : List UInt8
  size : memory.length = 64

def Machine.md5 (machine : Machine) : List UInt8 → List UInt8 :=
  match machine.order with
  | .little => md5Digest
  | .big => md5DigestBig machine.memory

def sameDigest (clientDigest serverDigest : List UInt8) : Bool :=
  (List.range 16).all fun i => clientDigest.getD i 0 == serverDigest.getD i 0

def serverVerdict (machine : Machine) (secret random clientDigest : List UInt8) :
    Option (Int × UInt8) :=
  (prepareProof machine.md5 secret random).map fun serverDigest =>
    if sameDigest clientDigest serverDigest then (0, 0) else (-1, 1)

/-- What the two functions return; `none` if one of the programs divides by zero. -/
def exchange (server client : Machine) (secret secret' random : List UInt8) : Option (Int × Int) :=
  (prepareProof client.md5 secret' random).bind fun digest =>
    (serverVerdict server secret random digest).map fun (status, result) =>
      (status, if result = 0 then 0 else -1)

def stretched (secret : List UInt8) (offset : Nat) : UInt8 :=
  secret.getD (offset % wrap32 secret.length) 0

section Secrets
variable {secret secret' random : List UInt8}

theorem Machine.md5_eq (machine : Machine) {message : List UInt8} (h : message.length = 64) :
    machine.md5 message = md5Digest message := by
  unfold Machine.md5
  cases machine.order with
  | little => rfl
  | big =>
    show md5DigestBig machine.memory message = md5Digest message
    rw [md5Digest_standard (by omega) (by omega), md5DigestBig_eq machine.size (by omega)]

theorem sameDigest_iff {d d' : List UInt8} (h : d.length = 16) (h' : d'.length = 16) :
    sameDigest d d' = true ↔ d = d' := by
  rw [sameDigest, List.all_eq_true]
  constructor
  · intro hsame
    apply List.ext_getElem (h.trans h'.symm)
    intro i hi hi'
    have heq := hsame i (List.mem_range.mpr (h ▸ hi))
    rwa [beq_iff_eq, List.getD_eq_getElem _ _ hi, List.getD_eq_getElem _ _ hi'] at heq
  · rintro rfl i -
    exact beq_self_eq_true _

/-- Two secrets change a challenge in the same way if and only if they are the same when
they are laid over it. -/
theorem overlay_eq_iff (h : random.length = 64) :
    overlay secret random = overlay secret' random ↔
      ∀ offset < 64, stretched secret offset = stretched secret' offset := by
  unfold overlay
  rw [List.mapIdx_eq_mapIdx_iff]
  constructor
  · intro hsame offset hlt
    exact (UInt8.xor_right_inj _).mp (hsame offset (by omega))
  · intro hsame offset hlt
    exact (UInt8.xor_right_inj _).mpr (hsame offset (h ▸ hlt))

theorem stretched_injective (hlen : secret.length = secret'.length) (hle : secret.length ≤ 64)
    (h : ∀ offset < 64, stretched secret offset = stretched secret' offset) : secret = secret' := by
  apply List.ext_getElem hlen
  intro i hi hi'
  have hwrap : wrap32 secret.length = secret.length := wrap32_of_lt (by omega)
  have heq := h i (by omega)
  unfold stretched at heq
  rwa [← hlen, hwrap, Nat.mod_eq_of_lt hi, List.getD_eq_getElem _ _ hi,
    List.getD_eq_getElem _ _ hi'] at heq

theorem prepareProof_some (machine : Machine) (h : random.length = 64) :
    prepareProof machine.md5 secret random =
      if wrap32 secret.length = 0 then none else some (md5Digest (overlay secret random)) := by
  have hsome : random ≠ [] := List.ne_nil_of_length_pos (by omega)
  unfold prepareProof
  rw [machine.md5_eq ((overlay_length secret random).trans h)]
  simp only [hsome, ne_eq, not_false_eq_true, and_true]

end Secrets

/-- The server accepts a client if and only if both secrets are the same when they are laid
over the challenge again and again, unless the digests of two different messages collide. -/
theorem authenticated_iff (server client : Machine) (secret secret' random : List UInt8)
    (hrandom : random.length = 64)
    (hmd5 : md5Digest (overlay secret' random) = md5Digest (overlay secret random) →
      overlay secret' random = overlay secret random) :
    (exchange server client secret secret' random).map Prod.fst = some 0 ↔
      wrap32 secret.length ≠ 0 ∧ wrap32 secret'.length ≠ 0 ∧
        ∀ offset < 64, stretched secret offset = stretched secret' offset := by
  unfold exchange serverVerdict
  rw [prepareProof_some client hrandom, prepareProof_some server hrandom]
  by_cases hclient : wrap32 secret'.length = 0
  · rw [if_pos hclient]
    exact iff_of_false (Option.some_ne_none 0 ·.symm) fun h => h.2.1 hclient
  · rw [if_neg hclient, Option.bind_some]
    by_cases hserver : wrap32 secret.length = 0
    · rw [if_pos hserver]
      exact iff_of_false (Option.some_ne_none 0 ·.symm) fun h => h.1 hserver
    · rw [if_neg hserver, Option.map_some, Option.map_some, Option.map_some]
      have hsame : sameDigest (md5Digest (overlay secret' random)) (md5Digest (overlay secret random)) =
          true ↔ ∀ offset < 64, stretched secret offset = stretched secret' offset := by
        rw [sameDigest_iff (md5Digest_length _) (md5Digest_length _), ← overlay_eq_iff hrandom, eq_comm]
        exact ⟨fun h => (hmd5 h.symm).symm, congrArg md5Digest⟩
      by_cases hproof : sameDigest (md5Digest (overlay secret' random))
          (md5Digest (overlay secret random)) = true
      · rw [if_pos hproof]
        exact iff_of_true rfl ⟨hserver, hclient, hsame.mp hproof⟩
      · rw [if_neg hproof]
        refine iff_of_false (fun h => ?_) fun h => hproof (hsame.mpr h.2.2)
        cases Option.some.inj h

def littleEndian : Machine := ⟨.little, List.replicate 64 0, List.length_replicate⟩

def bigEndian : Machine := ⟨.big, List.replicate 64 0, List.length_replicate⟩

/-- `kitten`, on both sides and on different machines. -/
theorem authenticated_iff_sample :
    (exchange littleEndian bigEndian [107, 105, 116, 116, 101, 110] [107, 105, 116, 116, 101, 110]
      (List.replicate 64 7)).map Prod.fst = some 0 :=
  (authenticated_iff littleEndian bigEndian _ _ _ List.length_replicate fun _ => rfl).mpr
    ⟨by decide, by decide, fun _ _ => rfl⟩

/-- The server's secret is `a`, the client's is `aa`: it is accepted, whatever the digest. -/
theorem repeated_secret_accepted :
    (exchange littleEndian littleEndian [97] [97, 97] (List.replicate 64 0)).map Prod.fst = some 0 ∧
      (∀ md5, prepareProof md5 [97] (List.replicate 64 0) =
        prepareProof md5 [97, 97] (List.replicate 64 0)) ∧
      ([97] : List UInt8) ≠ [97, 97] := by
  have hsame : overlay [97, 97] (List.replicate 64 0) = overlay [97] (List.replicate 64 0) := by
    decide
  refine ⟨?_, fun md5 => ?_, by decide⟩
  · have hproof : prepareProof littleEndian.md5 [97, 97] (List.replicate 64 0) =
        prepareProof littleEndian.md5 [97] (List.replicate 64 0) := by
      rw [prepareProof_some littleEndian List.length_replicate,
        prepareProof_some littleEndian List.length_replicate, hsame]
      rfl
    unfold exchange serverVerdict
    rw [hproof, prepareProof_some littleEndian List.length_replicate, if_neg (by decide),
      Option.bind_some, Option.map_some, (sameDigest_iff (md5Digest_length _) (md5Digest_length _)).mpr rfl]
    rfl
  · unfold prepareProof
    rw [hsame]
    rfl

end TsunamiUdp.Control

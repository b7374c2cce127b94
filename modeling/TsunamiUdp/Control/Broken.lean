import TsunamiUdp.Control.Server
import TsunamiUdp.Library.Streams

/-! What the server reads before a transfer, from a connection that may end anywhere. -/
namespace TsunamiUdp.Control
open Library

/-- `exited` is `error`, `fault` a division by zero. -/
inductive Ended
  | returned (status : Int)
  | exited
  | fault
deriving DecidableEq

def Ended.Negative : Ended → Prop
  | .returned status => status < 0
  | .exited => True
  | .fault => False

instance : (ended : Ended) → Decidable ended.Negative
  | .returned status => inferInstanceAs (Decidable (status < 0))
  | .exited => isTrue trivial
  | .fault => isFalse id

/-- A function by what it reads: `used` tells whether it goes on with the bytes. -/
inductive Reader
  | done (ended : Ended)
  | fullRead (count : Nat) (used : Bool) (next : List UInt8 → Reader)
  | readLine (room : Nat) (next : Option (List UInt8) → Reader)

structure Fetched where
  used : Bool
  complete : Bool
deriving DecidableEq

structure Outcome where
  ended : Ended
  fetched : List Fetched
deriving DecidableEq

def Outcome.cons (f : Fetched) (o : Outcome) : Outcome := { o with fetched := f :: o.fetched }

def lineFetched (line : Option (List UInt8)) : Fetched := ⟨line.isSome, line.isSome⟩

def Reader.exec (fuel : Nat) : Reader → Stream UInt8 → Option Outcome
  | .done ended, _ => some ⟨ended, []⟩
  | .fullRead count used next, s =>
    (s.readAll fuel count []).bind fun (bytes, s) =>
      ((next bytes).exec fuel s).map (.cons ⟨used, bytes.length == count⟩)
  | .readLine room next, s =>
    let (line, s) := s.readUntil endsLine room
    ((next line).exec fuel s).map (.cons (lineFetched line))

/-- `full_read` returns how many bytes it has read, also if that is less than the count;
the contents are what was in memory, up to there overwritten. -/
def fullReadInto (memory : List UInt8) (count : Nat) (next : List UInt8 → Reader) : Reader :=
  .fullRead count true fun bytes =>
    if (bytes.length : Int) < 0 then .done (.returned (-1))
    else next (bytes ++ memory.drop bytes.length)

/-- `random` is what `get_random_data` finds, `prepareProof` the digest of it with the
secret. -/
def ttpAuthenticate (random : Option (List UInt8)) (prepareProof : List UInt8 → List UInt8)
    (memory : List UInt8) : Reader :=
  match random with
  | none => .done (.returned (-1))
  | some random => fullReadInto memory 16 fun clientDigest =>
    if clientDigest = prepareProof random then .done (.returned 0) else .done (.returned (-1))

def ttpNegotiate (serverRevision memory : List UInt8) : Reader :=
  fullReadInto memory 4 fun clientRevision =>
    .done (.returned (if clientRevision = serverRevision then 0 else -1))

/-- `address` says whether the client's address is found, `socket` whether there is a
socket. -/
def ttpOpenPort (address socket : Bool) (memory : List UInt8) : Reader :=
  if address then fullReadInto memory 2 fun _ =>
    .done (.returned (if socket then 0 else -1))
  else .done .exited

/-- The end of `ttp_open_transfer`, with what it divides by. -/
def describe (values : Field → List UInt8) : Ended :=
  if ofBytes (values .blockSize) = 0 then .fault
  else if ofBytes (values .targetRate) = 0 then .fault
  else .returned 0

/-- The parameters hold what an earlier transfer, or the start, has left in them. -/
def readFields (values : Field → List UInt8) : List Field → Reader
  | [] => .done (describe values)
  | field :: left => fullReadInto (values field) field.width fun bytes =>
    readFields (Function.update values field bytes) left

def openRequested (opens : List UInt8 → Bool) (values : Field → List UInt8)
    (filename : List UInt8) : Reader :=
  if opens filename then readFields values parameterFields else .done (.returned (-1))

/-- `opens` tells the files that can be opened, `listing` is what the program lists. What
the client answers to the sizes and to the list is not looked at. -/
def ttpOpenTransfer (config : Config) (listing : List (List UInt8)) (opens : List UInt8 → Bool)
    (values : Field → List UInt8) : Reader :=
  .readLine maxFilenameLength fun
    | none => .done .exited
    | some line =>
      if lineText line = tsDirlistHackCmd then .fullRead 1 false fun _ => .done (.returned (-1))
      else if lineText line = allFiles then .fullRead 8 false fun _ =>
        if config.hook ∧ listing = [] then openRequested opens values allFiles
        else .fullRead 8 false fun _ => .readLine maxFilenameLength fun
          | none => .done .exited
          | some line => openRequested opens values (lineText line)
      else openRequested opens values (lineText line)

/-- A short read ends the function with a negative value or by `error`, and nothing is
used that has not been received whole. -/
structure Outcome.Noticed (o : Outcome) : Prop where
  used : ∀ f ∈ o.fetched, f.used = true → f.complete = true
  negative : (∀ f ∈ o.fetched, f.complete = true) ∨ o.ended.Negative

def Reader.Notices (p : Reader) (s : Stream UInt8) : Prop :=
  ∃ fuel o, p.exec fuel s = some o ∧ o.Noticed

def Outcome.NoticedAfter (short : Bool) (o : Outcome) : Prop :=
  (∀ f ∈ o.fetched, f.used = true → f.complete = true) ∧
    ((short = false ∧ ∀ f ∈ o.fetched, f.complete = true) ∨ o.ended.Negative)

theorem noticed_iff (o : Outcome) : o.Noticed ↔ o.NoticedAfter false := by
  constructor
  · intro h
    exact ⟨h.used, h.negative.imp_left fun hall => ⟨rfl, hall⟩⟩
  · intro h
    exact ⟨h.1, h.2.imp_left And.right⟩

@[simp] theorem noticedAfter_cons (short : Bool) (f : Fetched) (o : Outcome) :
    (o.cons f).NoticedAfter short ↔
      (f.used = true → f.complete = true) ∧ o.NoticedAfter (short || !f.complete) := by
  unfold Outcome.NoticedAfter Outcome.cons
  simp only [List.forall_mem_cons, Bool.or_eq_false_iff, Bool.not_eq_false']
  tauto

def Reader.Sees (short : Bool) : Reader → List UInt8 → Ending → Prop
  | .done ended, _, _ => short = false ∨ ended.Negative
  | .fullRead count used next, bytes, ending =>
    (count ≤ bytes.length ∨ ending = .failed ∧ used = false) ∧
      (next (bytes.take count)).Sees (short || !decide (count ≤ bytes.length))
        (bytes.drop count) ending
  | .readLine room next, bytes, ending =>
    let line := takeLine endsLine room bytes
    (next (line.map Prod.fst)).Sees (short || line.isNone) ((line.map Prod.snd).getD []) ending

section Equations
variable {short : Bool} {bytes : List UInt8} {ending : Ending}

theorem sees_done_iff {ended : Ended} :
    (Reader.done ended).Sees short bytes ending ↔ short = false ∨ ended.Negative := Iff.rfl

theorem sees_fullRead_iff {count : Nat} {used : Bool} {next : List UInt8 → Reader} :
    (Reader.fullRead count used next).Sees short bytes ending ↔
      (count ≤ bytes.length ∨ ending = .failed ∧ used = false) ∧
        (next (bytes.take count)).Sees (short || !decide (count ≤ bytes.length))
          (bytes.drop count) ending := Iff.rfl

theorem sees_readLine_iff {room : Nat} {next : Option (List UInt8) → Reader} :
    (Reader.readLine room next).Sees short bytes ending ↔
      (next ((takeLine endsLine room bytes).map Prod.fst)).Sees
        (short || (takeLine endsLine room bytes).isNone)
        (((takeLine endsLine room bytes).map Prod.snd).getD []) ending := Iff.rfl

end Equations

section Reading

theorem take_complete (count : Nat) (bytes : List UInt8) :
    ((bytes.take count).length == count) = decide (count ≤ bytes.length) := by
  rw [List.length_take, Bool.eq_iff_iff, beq_iff_eq, decide_eq_true_iff]
  omega

theorem exec_sees {p : Reader} {fuel : Nat} {short : Bool} {s : Stream UInt8} {o : Outcome}
    (h : p.exec fuel s = some o) (hnoticed : o.NoticedAfter short) :
    p.Sees short s.toList s.ending := by
  induction p generalizing short s o with
  | done ended =>
    cases h
    exact hnoticed.2.imp_left And.left
  | fullRead count used next ih =>
    obtain ⟨⟨bytes, s'⟩, hread, hrest⟩ := Option.bind_eq_some_iff.mp h
    obtain ⟨o', ho, rfl⟩ := Option.map_eq_some_iff.mp hrest
    obtain ⟨hends, rfl, hdrop, hending⟩ := Stream.readAll_whole s count hread
    rw [noticedAfter_cons, take_complete] at hnoticed
    have hnext := ih _ ho hnoticed.2
    rw [hdrop, hending] at hnext
    refine ⟨?_, hnext⟩
    by_cases hle : count ≤ s.toList.length
    · exact .inl hle
    · refine .inr ⟨hends.resolve_left hle, ?_⟩
      rw [decide_eq_false hle] at hnoticed
      exact eq_false_of_ne_true fun hused => Bool.false_ne_true (hnoticed.1 hused)
  | readLine room next ih =>
    obtain ⟨hline, hrest, hending⟩ := Stream.readUntil_toList endsLine room s
    obtain ⟨o', ho, rfl⟩ := Option.map_eq_some_iff.mp h
    rw [noticedAfter_cons] at hnoticed
    have hnext := ih _ ho hnoticed.2
    rw [hline, hrest, hending] at hnext
    rw [sees_readLine_iff]
    simpa [lineFetched] using hnext

theorem sees_exec {p : Reader} {short : Bool} {s : Stream UInt8} (h : p.Sees short s.toList s.ending) :
    ∃ enough, ∀ fuel, enough ≤ fuel → ∃ o, p.exec fuel s = some o ∧ o.NoticedAfter short := by
  induction p generalizing short s with
  | done ended =>
    refine ⟨0, fun fuel _ => ⟨_, rfl, ?_⟩⟩
    simpa [Outcome.NoticedAfter] using sees_done_iff.mp h
  | fullRead count used next ih =>
    have hends : count ≤ s.toList.length ∨ s.ending = .failed := h.1.imp_right And.left
    obtain ⟨s', hread, hdrop, hending⟩ := Stream.readAll_enough s count (Nat.lt_succ_self count) hends
    have hnext := h.2
    rw [← hdrop, ← hending] at hnext
    obtain ⟨enough, henough⟩ := ih _ hnext
    refine ⟨max enough (count + 1), fun fuel hfuel => ?_⟩
    obtain ⟨o, ho, hnoticed⟩ := henough fuel ((Nat.le_max_left _ _).trans hfuel)
    have hread := Stream.readAll_mono ((Nat.le_max_right _ _).trans hfuel) hread
    refine ⟨o.cons ⟨used, (s.toList.take count).length == count⟩, ?_, ?_⟩
    · rw [Reader.exec, hread, Option.bind_some]
      dsimp only
      rw [ho, Option.map_some]
    · rw [noticedAfter_cons, take_complete]
      refine ⟨fun hused => ?_, hnoticed⟩
      refine decide_eq_true (h.1.resolve_right fun hfailed => ?_)
      exact Bool.false_ne_true (hfailed.2.symm.trans hused)
  | readLine room next ih =>
    obtain ⟨hline, hrest, hending⟩ := Stream.readUntil_toList endsLine room s
    have hnext : (next (s.readUntil endsLine room).1).Sees (short || (s.readUntil endsLine room).1.isNone)
        (s.readUntil endsLine room).2.toList (s.readUntil endsLine room).2.ending := by
      rw [hline, hrest, hending, Option.isNone_map]
      exact h
    obtain ⟨enough, henough⟩ := ih _ hnext
    refine ⟨enough, fun fuel hfuel => ?_⟩
    obtain ⟨o, ho, hnoticed⟩ := henough fuel hfuel
    refine ⟨o.cons (lineFetched (s.readUntil endsLine room).1), ?_, ?_⟩
    · rw [Reader.exec]
      dsimp only
      rw [ho, Option.map_some]
    · rw [noticedAfter_cons, lineFetched, Option.not_isSome]
      exact ⟨id, hnoticed⟩

theorem notices_iff (p : Reader) (s : Stream UInt8) :
    p.Notices s ↔ p.Sees false s.toList s.ending := by
  constructor
  · intro ⟨fuel, o, ho, hnoticed⟩
    exact exec_sees ho ((noticed_iff o).mp hnoticed)
  · intro h
    obtain ⟨enough, henough⟩ := sees_exec h
    obtain ⟨o, ho, hnoticed⟩ := henough enough (Nat.le_refl enough)
    exact ⟨enough, o, ho, (noticed_iff o).mpr hnoticed⟩

end Reading

section Functions
variable {short : Bool} {bytes : List UInt8} {ending : Ending}

theorem sees_done {ended : Ended} : (Reader.done ended).Sees false bytes ending :=
  .inl rfl

/-- The test of the value that `full_read` returns never fires, and what it has read is
gone on with: all of it has to be there. -/
theorem sees_fullReadInto (memory : List UInt8) (count : Nat) (next : List UInt8 → Reader) :
    (fullReadInto memory count next).Sees short bytes ending ↔ count ≤ bytes.length ∧
      (next (bytes.take count ++ memory.drop count)).Sees short (bytes.drop count) ending := by
  unfold fullReadInto
  rw [sees_fullRead_iff, if_neg (by omega)]
  constructor
  · intro ⟨hends, hnext⟩
    have hle : count ≤ bytes.length := hends.resolve_right fun h => Bool.false_ne_true h.2.symm
    rw [decide_eq_true hle, Bool.not_true, Bool.or_false, List.length_take, Nat.min_eq_left hle] at hnext
    exact ⟨hle, hnext⟩
  · intro ⟨hle, hnext⟩
    rw [decide_eq_true hle, Bool.not_true, Bool.or_false, List.length_take, Nat.min_eq_left hle]
    exact ⟨.inl hle, hnext⟩

theorem fields_of_sees {values : Field → List UInt8} {fields : List Field}
    (h : (readFields values fields).Sees short bytes ending) :
    (fields.map Field.width).sum ≤ bytes.length := by
  induction fields generalizing values bytes with
  | nil => exact Nat.zero_le _
  | cons field left ih =>
    rw [readFields, sees_fullReadInto] at h
    have hleft := ih h.2
    rw [List.length_drop] at hleft
    rw [List.map_cons, List.sum_cons]
    have hfield := h.1
    omega

theorem sees_fields {values : Field → List UInt8} {fields : List Field}
    (h : (fields.map Field.width).sum ≤ bytes.length) :
    (readFields values fields).Sees false bytes ending := by
  induction fields generalizing values bytes with
  | nil => exact sees_done
  | cons field left ih =>
    rw [List.map_cons, List.sum_cons] at h
    rw [readFields, sees_fullReadInto]
    refine ⟨by omega, ih ?_⟩
    rw [List.length_drop]
    omega

section Opening
variable (opens : List UInt8 → Bool) (values : Field → List UInt8) (filename : List UInt8)

theorem sees_openRequested : (openRequested opens values filename).Sees false bytes ending ↔
    (opens filename = true → 20 ≤ bytes.length) := by
  unfold openRequested
  split
  · rename_i hopens
    exact ⟨fun h _ => fields_of_sees h, fun h => sees_fields (h hopens)⟩
  · rename_i hopens
    exact ⟨fun _ h => absurd h hopens, fun _ => sees_done⟩

theorem sees_openRequested_nil : (openRequested opens values filename).Sees true [] ending ↔
    ¬opens filename = true := by
  unfold openRequested
  split
  · rename_i hopens
    refine ⟨fun h => absurd (fields_of_sees h) (by decide), fun h => absurd hopens h⟩
  · rename_i hopens
    exact ⟨fun _ => hopens, fun _ => .inr (by decide)⟩

end Opening

theorem sees_answers (room : Nat) (next : List UInt8 → Reader) :
    (Reader.fullRead 8 false fun _ => .fullRead 8 false fun _ => .readLine (room + 1) fun
      | none => .done .exited
      | some line => next line).Sees false bytes ending ↔
    (16 ≤ bytes.length ∨ ending = .failed) ∧
      match takeLine endsLine (room + 1) (bytes.drop 16) with
      | none => True
      | some (line, rest) => (next line).Sees false rest ending := by
  have hsplit : (bytes.drop 8).drop 8 = bytes.drop 16 := List.drop_drop
  have hrest : (bytes.drop 8).length = bytes.length - 8 := List.length_drop
  rw [sees_fullRead_iff, sees_fullRead_iff, sees_readLine_iff, hsplit, hrest]
  by_cases hle : 16 ≤ bytes.length
  · have hfirst : 8 ≤ bytes.length := by omega
    have hsecond : 8 ≤ bytes.length - 8 := by omega
    cases hline : takeLine endsLine (room + 1) (bytes.drop 16) with
    | none => simp [hle, hfirst, hsecond, sees_done_iff, Ended.Negative]
    | some p => simp [hle, hfirst, hsecond]
  · have hdrop : bytes.drop 16 = [] := List.drop_eq_nil_iff.mpr (by omega)
    have hsecond : ¬8 ≤ bytes.length - 8 := by omega
    cases ending with
    | closed => simp [hle, hsecond]
    | failed => simp [hdrop, takeLine, sees_done_iff, Ended.Negative]

end Functions

/-- What has to arrive of a request for this server's files. -/
def RequestArrives (config : Config) (listing : List (List UInt8)) (opens : List UInt8 → Bool)
    (bytes : List UInt8) (ending : Ending) : Prop :=
  match takeLine endsLine maxFilenameLength bytes with
  | none => True
  | some (line, rest) =>
    if lineText line = tsDirlistHackCmd then 1 ≤ rest.length ∨ ending = .failed
    else if lineText line = allFiles then
      if config.hook ∧ listing = [] then
        (8 ≤ rest.length ∨ ending = .failed) ∧ (opens allFiles = true → 28 ≤ rest.length)
      else
        (16 ≤ rest.length ∨ ending = .failed) ∧
          match takeLine endsLine maxFilenameLength (rest.drop 16) with
          | none => True
          | some (line, rest) => opens (lineText line) = true → 20 ≤ rest.length
    else opens (lineText line) = true → 20 ≤ rest.length

section Request
variable (config : Config) (listing : List (List UInt8)) (opens : List UInt8 → Bool)
  (values : Field → List UInt8) (bytes : List UInt8) (ending : Ending)

theorem sees_lastAnswer :
    (Reader.fullRead 8 false fun _ => openRequested opens values allFiles).Sees false bytes ending ↔
      (8 ≤ bytes.length ∨ ending = .failed) ∧ (opens allFiles = true → 28 ≤ bytes.length) := by
  rw [sees_fullRead_iff]
  by_cases hle : 8 ≤ bytes.length
  · rw [decide_eq_true hle, Bool.not_true, Bool.or_false, sees_openRequested, List.length_drop]
    have hsum : 20 ≤ bytes.length - 8 ↔ 28 ≤ bytes.length := by omega
    simp [hle, hsum]
  · have hdrop : bytes.drop 8 = [] := List.drop_eq_nil_iff.mpr (by omega)
    have hfew : ¬28 ≤ bytes.length := by omega
    rw [decide_eq_false hle, Bool.not_false, Bool.or_true, hdrop, sees_openRequested_nil]
    simp [hle, hfew]

theorem sees_ttpOpenTransfer : (ttpOpenTransfer config listing opens values).Sees false bytes ending ↔
    RequestArrives config listing opens bytes ending := by
  unfold ttpOpenTransfer RequestArrives
  rw [sees_readLine_iff]
  cases hline : takeLine endsLine maxFilenameLength bytes with
  | none => simp [sees_done_iff, Ended.Negative]
  | some p =>
    obtain ⟨line, rest⟩ := p
    simp only [Option.map_some, Option.getD_some, Option.isNone_some, Bool.or_false]
    split
    · simp [sees_fullRead_iff, sees_done_iff, Ended.Negative]
    · split
      · split
        · exact sees_lastAnswer opens values rest ending
        · refine (sees_answers 1023 fun line => openRequested opens values (lineText line)).trans ?_
          refine and_congr_right fun _ => ?_
          change (match takeLine endsLine maxFilenameLength (rest.drop 16) with
            | none => True
            | some (line, rest) => _) ↔ _
          cases takeLine endsLine maxFilenameLength (rest.drop 16) with
          | none => exact Iff.rfl
          | some q => exact sees_openRequested opens values (lineText q.1)
      · exact sees_openRequested opens values (lineText line)

end Request

section Whole
variable (s : Stream UInt8)

theorem ttpNegotiate_iff (serverRevision memory : List UInt8) :
    (ttpNegotiate serverRevision memory).Notices s ↔ 4 ≤ s.toList.length := by
  rw [notices_iff, ttpNegotiate, sees_fullReadInto]
  exact and_iff_left sees_done

theorem ttpAuthenticate_iff (random : Option (List UInt8)) (prepareProof : List UInt8 → List UInt8)
    (memory : List UInt8) : (ttpAuthenticate random prepareProof memory).Notices s ↔
      (random.isSome = true → 16 ≤ s.toList.length) := by
  rw [notices_iff]
  cases random with
  | none =>
    refine iff_of_true sees_done fun h => absurd h (by decide)
  | some random =>
    rw [ttpAuthenticate, sees_fullReadInto]
    have hdone : ∀ clientDigest, (if clientDigest = prepareProof random then
        Reader.done (.returned 0) else .done (.returned (-1))).Sees false (s.toList.drop 16) s.ending := by
      intro clientDigest
      split <;> exact sees_done
    simp [hdone]

theorem ttpOpenPort_iff (address socket : Bool) (memory : List UInt8) :
    (ttpOpenPort address socket memory).Notices s ↔ (address = true → 2 ≤ s.toList.length) := by
  rw [notices_iff]
  cases address with
  | false =>
    refine iff_of_true sees_done fun h => absurd h (by decide)
  | true =>
    rw [ttpOpenPort, if_pos rfl, sees_fullReadInto]
    simp [sees_done_iff]

end Whole

/-- The loop of `full_read` ends if and only if there are enough bytes or the connection
fails, and each function notices a connection that ends if and only if what it reads has
arrived before. -/
theorem broken_noticed_iff (s : Stream UInt8) (config : Config) (listing : List (List UInt8))
    (opens : List UInt8 → Bool) (values : Field → List UInt8) (random : Option (List UInt8))
    (prepareProof : List UInt8 → List UInt8) (address socket : Bool)
    (serverRevision memory : List UInt8) :
    (∀ count, (∃ fuel r, s.readAll fuel count [] = some r) ↔
      count ≤ s.toList.length ∨ s.ending = .failed) ∧
    ((ttpNegotiate serverRevision memory).Notices s ↔ 4 ≤ s.toList.length) ∧
    ((ttpAuthenticate random prepareProof memory).Notices s ↔
      (random.isSome = true → 16 ≤ s.toList.length)) ∧
    ((ttpOpenTransfer config listing opens values).Notices s ↔
      RequestArrives config listing opens s.toList s.ending) ∧
    ((ttpOpenPort address socket memory).Notices s ↔ (address = true → 2 ≤ s.toList.length)) :=
  ⟨s.readAll_ends_iff, ttpNegotiate_iff s serverRevision memory,
    ttpAuthenticate_iff s random prepareProof memory,
    (notices_iff _ s).trans (sees_ttpOpenTransfer config listing opens values s.toList s.ending),
    ttpOpenPort_iff s address socket memory⟩

/-- The client closes the connection at once: `full_read` never returns. It fails in the
middle of the port: the half that has come is used. -/
theorem broken_unnoticed :
    (∀ fuel, Stream.readAll fuel (⟨[], .closed⟩ : Stream UInt8) 4 [] = none) ∧
    (∀ fuel, (ttpNegotiate [32, 6, 16, 37] [0, 0, 0, 0]).exec fuel ⟨[], .closed⟩ = none) ∧
    (ttpOpenPort true true [0, 0]).exec 3 ⟨[⟨180, []⟩], .failed⟩ =
      some ⟨.returned 0, [⟨true, false⟩]⟩ := by
  have hnone : ∀ fuel, Stream.readAll fuel (⟨[], .closed⟩ : Stream UInt8) 4 [] = none :=
    fun fuel => Stream.readAll_none rfl (by decide) fuel
  refine ⟨hnone, fun fuel => ?_, by decide⟩
  rw [ttpNegotiate, fullReadInto, Reader.exec, hnone, Option.bind_none]

end TsunamiUdp.Control

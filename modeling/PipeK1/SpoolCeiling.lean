import PipeK1.SpoolFailures

/-!
# The spool's round trip and its ceiling

What all calls have accepted comes out as it went in, whether it stayed in
memory or went to disk; and with a ceiling on a working disk a call succeeds as
long as the running total is within it.
-/

set_option autoImplicit false

namespace PipeK1

namespace Spool

open ByteData ByteReader SealedData Effects Numbering

variable {aead : Cipher} {spool : Spool} {max : UInt64}

/-- Whether each call succeeds; a failed call leaves its spooler to the next. -/
def replies (aead : Cipher) : List Bytes → Spool → List Bool
  | [], _ => []
  | chunk :: chunks, spool =>
      let first := attempt aead chunk spool
      decide (first.1 = [chunk]) :: replies aead chunks first.2

/-- The calls up to the first failure succeed together. -/
theorem writeChunks_succeeds_iff (chunks : List Bytes) (spool : Spool) :
    (∃ after, writeChunks aead chunks spool = .ok () after) ↔
      ∀ reply ∈ replies aead chunks spool, reply = true := by
  induction chunks generalizing spool with
  | nil => exact ⟨fun _ _ none => absurd none List.not_mem_nil, fun _ => ⟨spool, rfl⟩⟩
  | cons chunk chunks ih =>
      rw [writeChunks, replies, List.forall_mem_cons, decide_eq_true_iff]
      cases written : writeChunk aead chunk spool with
      | ok value next =>
          have attempted : attempt aead chunk spool = ([chunk], next) := by
            rw [attempt, written]
          rw [bind_of_ok written, attempted, ih next, eq_self, true_and]
      | error error next =>
          have attempted : attempt aead chunk spool = ([], next) := by
            rw [attempt, written]
          rw [bind_of_error written, attempted]
          constructor
          · rintro ⟨_, impossible⟩
            cases impossible
          · rintro ⟨impossible, _⟩
            cases impossible

/-! ## Under a ceiling -/

/-- A refused call has only counted its bytes. -/
theorem attempt_of_overCeiling {chunk : Bytes}
    (beyond : overCeiling (counted spool chunk).spooler = some max) :
    attempt aead chunk spool = ([], counted spool chunk) := by
  rw [attempt, writeChunk_of_beyond aead beyond]

/-- `tried` is what the calls so far were given, accepted or not. While it is within the
ceiling, the spool holds it. -/
structure Tried (aead : Cipher) (max : UInt64) (room : Nat) (spool : Spool) (tried : Bytes) :
    Prop where
  total : spool.spooler.totalBytes = UInt64.ofNat tried.length
  limited : spool.spooler.maxSize = some max
  holds : tried.length ≤ max.toNat → Holds aead spool tried
  seals : aead.SealsUpTo spool.spooler.spoolKey spoolChunkSize
  takes : spool.disk.Takes (21 * room)

theorem attempt_tried {room : Nat} {tried chunk : Bytes}
    (before : Tried aead max room spool tried) (short : (tried ++ chunk).length < 2 ^ 64)
    (enough : (tried ++ chunk).length ≤ max.toNat → (tried ++ chunk).length ≤ room) :
    ((attempt aead chunk spool).1 = [chunk] ↔ (tried ++ chunk).length ≤ max.toNat) ∧
      Tried aead max room (attempt aead chunk spool).2 (tried ++ chunk) := by
  have total : spool.spooler.totalBytes + UInt64.ofNat chunk.length =
      UInt64.ofNat (tried ++ chunk).length := by
    rw [before.total, List.length_append, UInt64.ofNat_add]
  have value : (UInt64.ofNat (tried ++ chunk).length).toNat = (tried ++ chunk).length :=
    UInt64.toNat_ofNat_of_lt' short
  by_cases within : (tried ++ chunk).length ≤ max.toNat
  · have holds := before.holds (by rw [List.length_append] at within; omega)
    have writing := writeChunk_ends aead chunk tried spool holds
    cases written : writeChunk aead chunk spool with
    | ok _ after =>
        obtain ⟨holds', continues, _⟩ := writing.ok written
        have attempted : attempt aead chunk spool = ([chunk], after) := by
          rw [attempt, written]
        rw [attempted]
        exact ⟨⟨fun _ => within, fun _ => rfl⟩, holds'.total, continues.maxSize.trans before.limited,
          fun _ => holds', continues.spoolKey ▸ before.seals,
          continues.takes before.takes (Nat.le_refl _)⟩
    | error error after =>
        rcases writing.error written with ⟨max', limited, beyond⟩ | stuck
        · rw [before.limited] at limited
          cases limited
          rw [UInt64.lt_iff_toNat_lt, value] at beyond
          omega
        · refine absurd ⟨before.seals, ?_⟩ stuck
          exact (Continues.refl spool).takes before.takes
            (Nat.mul_le_mul_left 21 (enough within))
  · have exceeds : max < UInt64.ofNat (tried ++ chunk).length := by
      rw [UInt64.lt_iff_toNat_lt, value]
      omega
    have beyond : overCeiling (counted spool chunk).spooler = some max := by
      simp only [overCeiling, counted, before.limited, total, Option.filter_some, exceeds,
        decide_true, ↓reduceIte]
    rw [attempt_of_overCeiling beyond]
    exact ⟨⟨fun impossible => absurd impossible (List.cons_ne_nil _ _).symm, fun fits => absurd fits within⟩, total,
      before.limited, fun fits => absurd fits within, before.seals, before.takes⟩

theorem replies_tried {room : Nat} {tried : Bytes} (chunks : List Bytes)
    (before : Tried aead max room spool tried)
    (short : (tried ++ chunks.flatten).length < 2 ^ 64)
    (enough : min (tried ++ chunks.flatten).length max.toNat ≤ room) {i : Nat}
    (inside : i < chunks.length) :
    (replies aead chunks spool)[i]? =
      some (decide ((tried ++ (chunks.take (i + 1)).flatten).length ≤ max.toNat)) := by
  induction chunks generalizing spool tried i with
  | nil => exact absurd inside (Nat.not_lt_zero i)
  | cons chunk chunks ih =>
      have whole : tried ++ (chunk :: chunks).flatten = (tried ++ chunk) ++ chunks.flatten := by
        rw [List.flatten_cons, List.append_assoc]
      rw [whole] at short enough
      have growing : (tried ++ chunk).length ≤ ((tried ++ chunk) ++ chunks.flatten).length := by
        rw [@List.length_append _ (tried ++ chunk)]
        exact Nat.le_add_right _ _
      obtain ⟨accepts, after⟩ := attempt_tried before (Nat.lt_of_le_of_lt growing short)
        fun within => Nat.le_trans (Nat.le_min.mpr ⟨growing, within⟩) enough
      rw [replies]
      cases i with
      | zero =>
          have first : ((chunk :: chunks).take (0 + 1)).flatten = chunk := by simp
          rw [List.getElem?_cons_zero, first, Option.some.injEq, decide_eq_decide]
          exact accepts
      | succ i =>
          rw [List.getElem?_cons_succ, List.take_succ_cons, List.flatten_cons, ← List.append_assoc]
          exact ih after short enough (Nat.lt_of_succ_lt_succ inside)

theorem length_replies (chunks : List Bytes) (spool : Spool) :
    (replies aead chunks spool).length = chunks.length := by
  induction chunks generalizing spool with
  | nil => rfl
  | cons chunk chunks ih => rw [replies, List.length_cons, List.length_cons, ih]

/-- The calls all succeed when the last running total is within the ceiling. -/
theorem all_replies_iff {room : Nat} {tried : Bytes} (chunks : List Bytes)
    (before : Tried aead max room spool tried) (start : tried.length ≤ max.toNat)
    (short : (tried ++ chunks.flatten).length < 2 ^ 64)
    (enough : min (tried ++ chunks.flatten).length max.toNat ≤ room) :
    (∀ reply ∈ replies aead chunks spool, reply = true) ↔
      (tried ++ chunks.flatten).length ≤ max.toNat := by
  constructor
  · intro all
    rcases List.eq_nil_or_concat' chunks with rfl | ⟨early, last, rfl⟩
    · rw [List.flatten_nil, List.append_nil]
      exact start
    · have inside : early.length < (early ++ [last]).length := by simp
      have found := replies_tried (early ++ [last]) before short enough inside
      have accepted := all _ (List.mem_of_getElem? found)
      rw [decide_eq_true_iff, List.take_of_length_le (by simp)] at accepted
      exact accepted
  · intro within reply member
    obtain ⟨i, found⟩ := List.mem_iff_getElem?.mp member
    have inside := (List.getElem?_eq_some_iff.mp found).1
    rw [length_replies] at inside
    rw [replies_tried chunks before short enough inside] at found
    cases found
    rw [decide_eq_true_iff]
    refine Nat.le_trans ?_ within
    rw [List.length_append, List.length_append]
    have shorter : (chunks.take (i + 1)).flatten.length ≤ chunks.flatten.length :=
      ((List.take_prefix (i + 1) chunks).flatten).length_le
    omega

/-! ## The contract -/

/-- Chunks of any sizes come out as they went in when all calls have accepted them; and under a
ceiling, with totals below 2^64, a call succeeds exactly while the running total is within it. -/
theorem spool_round_trip (aead : Cipher) (host : Host)
    (inverts : aead.Inverts host.spoolKey spoolChunkSize) (chunks : List Bytes) :
    (∀ maxSize spool, writeChunks aead chunks (start host maxSize) = .ok () spool →
      host.disk.Honest →
      ∃ rest, releaseTo aead spool.spooler (spool.disk.readBack spool.file) =
        .ok () ⟨rest, chunks.flatten⟩) ∧
    ∀ max : UInt64, chunks.flatten.length < 2 ^ 64 →
      host.disk.Takes (21 * min chunks.flatten.length max.toNat) →
      ((∃ spool, writeChunks aead chunks (start host (some max)) = .ok () spool) ↔
        chunks.flatten.length ≤ max.toNat) ∧
      ∀ i, i < chunks.length →
        (replies aead chunks (start host (some max)))[i]? =
          some (decide ((chunks.take (i + 1)).flatten.length ≤ max.toNat)) := by
  constructor
  · intro maxSize spool accepted honest
    obtain ⟨holds, continues⟩ := (writeChunks_ends aead chunks [] (start host maxSize)
      (holds_start aead host maxSize)).ok accepted
    rw [List.nil_append] at holds
    exact releaseTo_of_holds holds (continues.spoolKey ▸ inverts) (continues.honest honest)
  · intro max short takes
    have begun : Tried aead max (min chunks.flatten.length max.toNat) (start host (some max)) [] :=
      ⟨rfl, rfl, fun _ => holds_start aead host (some max), inverts.sealsUpTo, takes⟩
    refine ⟨?_, fun i inside => replies_tried chunks begun short (Nat.le_refl _) inside⟩
    rw [writeChunks_succeeds_iff]
    exact all_replies_iff chunks begun (Nat.zero_le _) short (Nat.le_refl _)

theorem length_wrapped (chunk : Bytes) :
    [[0x01], chunk, [0x02]].flatten.length = chunk.length + 2 := by
  simp only [List.flatten_cons, List.flatten_nil, List.length_append, List.length_cons,
    List.length_nil]
  omega

open Reference in
/-- Three chunks that reach the file, and a ceiling of two bytes. -/
theorem spool_round_trip_sample :
    (∃ spool rest, writeChunks ChaCha20Poly1305.cipher [[0x01], sampleChunk, [0x02]]
        (start (keyHost sampleRecipient sampleEphemeral) (some 4294967296)) = .ok () spool ∧
      spool.spooler.diskFile ≠ none ∧
      releaseTo ChaCha20Poly1305.cipher spool.spooler (spool.disk.readBack spool.file) =
        .ok () ⟨rest, [[0x01], sampleChunk, [0x02]].flatten⟩) ∧
    (replies ChaCha20Poly1305.cipher [[0x01], sampleChunk, [0x02]]
        (start (keyHost sampleRecipient sampleEphemeral) (some 2)))[1]? = some false := by
  have size : sampleChunk.length = memorySpoolLimit + 1 := by simpa using length_sampleChunk
  have whole : [[0x01], sampleChunk, [0x02]].flatten.length = memorySpoolLimit + 3 := by
    rw [length_wrapped, size]
  obtain ⟨back, limits⟩ := spool_round_trip ChaCha20Poly1305.cipher
    (keyHost sampleRecipient sampleEphemeral) (cipher_inverts _) [[0x01], sampleChunk, [0x02]]
  constructor
  · obtain ⟨spool, accepted⟩ := (limits 4294967296 (by rw [whole]; decide)
      ⟨fun _ none => absurd none List.not_mem_nil, by rw [whole]; decide⟩).1.mpr
      (by rw [whole]; decide)
    obtain ⟨rest, released⟩ :=
      back (some 4294967296) spool accepted (keyHost_disk_honest sampleRecipient sampleEphemeral)
    let written : Written ChaCha20Poly1305.cipher := ⟨_, _, _, spool, accepted⟩
    have long : memorySpoolLimit < written.chunks.flatten.length := by
      change memorySpoolLimit < [[0x01], sampleChunk, [0x02]].flatten.length
      rw [whole]
      decide
    exact ⟨spool, rest, accepted, Written.spilled_of_long long, released⟩
  · rw [(limits 2 (by rw [whole]; decide)
      ⟨fun _ none => absurd none List.not_mem_nil, by rw [whole]; decide⟩).2 1 (by decide)]
    refine congrArg some (decide_eq_false fun within => ?_)
    have early : [[0x01], sampleChunk].flatten.length ≤ 2 := within
    rw [List.flatten_cons, List.length_append, List.flatten_singleton, size] at early
    exact absurd early (by decide)

end Spool

end PipeK1

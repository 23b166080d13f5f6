import PipeK1.SpoolRelease
import PipeK1.Reference

/-!
# The spool against a hostile disk

What `release_to` may emit when the temporary file holds anything at all: the
first blocks of what was written, and all of it when the release succeeds; and
exactly when a failing release has emitted nothing.
-/

set_option autoImplicit false

namespace PipeK1

namespace Spool

open ByteData ByteReader SealedData Effects Numbering

/-! ## Spools after writing -/

/-- A spool with the chunks it has accepted since it was started. -/
structure Written (aead : Cipher) where
  host : Host
  maxSize : Option UInt64
  chunks : List Bytes
  spool : Spool
  accepted : writeChunks aead chunks (start host maxSize) = .ok () spool

namespace Written

variable {aead : Cipher} (written : Written aead)

def key : FixedBytes 32 := written.spool.spooler.spoolKey

/-- The number of blocks the spooler has counted. -/
def count : Nat := written.spool.spooler.blockCounter.toNat

def Spilled : Prop := written.spool.spooler.diskFile ≠ none

theorem holds : Holds aead written.spool written.chunks.flatten := by
  have writing := writeChunks_ends aead written.chunks [] (start written.host written.maxSize)
    (holds_start aead written.host written.maxSize)
  exact (writing.ok written.accepted).1

theorem continues : Continues (start written.host written.maxSize) written.spool := by
  have writing := writeChunks_ends aead written.chunks [] (start written.host written.maxSize)
    (holds_start aead written.host written.maxSize)
  exact (writing.ok written.accepted).2

variable {written}

theorem releaseTo_eq (spilled : written.Spilled) (file : Reader) :
    releaseTo aead written.spool.spooler file =
      releaseBlocks aead written.key written.count 0 ⟨file, []⟩ := by
  obtain ⟨content, opened⟩ := Option.ne_none_iff_exists'.mp spilled
  rw [releaseTo, opened]
  rfl

/-- Files are shorter than 2^64 bytes, so the counter has not wrapped. -/
theorem count_eq (capacity : written.host.disk.capacity < 2 ^ 64) :
    written.count = written.spool.sealings.length := by
  have few := written.holds.onDisk.length_file
  have fits := written.holds.onDisk.fits
  have room : written.spool.disk.capacity = written.host.disk.capacity :=
    written.continues.capacity
  rw [count, written.holds.onDisk.counter, UInt64.toNat_ofNat_of_lt' (by
    change _ < 2 ^ 64
    omega)]

end Written

/-! ## Long inputs -/

/-- What does not fit into memory is on disk. -/
theorem Written.spilled_of_long {aead : Cipher} {written : Written aead}
    (long : memorySpoolLimit < written.chunks.flatten.length) : written.Spilled := by
  intro unopened
  have bounded := written.holds.bounded
  rw [written.holds.memBuffer_eq unopened] at bounded
  omega

/-- A spilled input longer than one block has a first block and others after it. -/
theorem Written.file_eq_cons {aead : Cipher} {written : Written aead} (spilled : written.Spilled)
    (long : spoolChunkSize < written.chunks.flatten.length) :
    ∃ first second later, written.spool.sealings = first :: second :: later ∧
      written.spool.file = blockBytes first ++ (second :: later).flatMap blockBytes := by
  have stored := written.holds.stored
  rw [written.holds.separate spilled, List.append_nil] at stored
  have onDisk := written.holds.onDisk
  cases sealings : written.spool.sealings with
  | nil =>
      rw [plaintexts, sealings] at stored
      rw [← stored] at long
      exact absurd long (Nat.not_lt_zero _)
  | cons first rest =>
      cases rest with
      | nil =>
          have sealedAs := onDisk.sealedAs
          rw [sealings] at sealedAs
          have fits := (numbered_singleton_iff.mp sealedAs).fits
          rw [plaintexts, sealings] at stored
          rw [← stored] at long
          simp only [List.map_cons, List.map_nil, List.flatten_cons, List.flatten_nil,
            List.append_nil] at long
          omega
      | cons second later =>
          refine ⟨first, second, later, rfl, ?_⟩
          rw [onDisk.file_eq, sealings, List.flatMap_cons]

section Sample

open Reference

/-- One byte more than what stays in memory. -/
def sampleChunk : Bytes := List.replicate (memorySpoolLimit + 1) 0x00

theorem length_sampleChunk : [sampleChunk].flatten.length = memorySpoolLimit + 1 := by
  rw [List.flatten_singleton, sampleChunk, List.length_replicate]

attribute [irreducible] sampleChunk

theorem exists_written :
    ∃ written : Written ChaCha20Poly1305.cipher,
      written.host = keyHost sampleRecipient sampleEphemeral ∧
      written.chunks = [sampleChunk] := by
  let host := keyHost sampleRecipient sampleEphemeral
  have writing := writeChunks_ends ChaCha20Poly1305.cipher [sampleChunk] [] (start host none)
    (holds_start _ host none)
  cases outcome : writeChunks ChaCha20Poly1305.cipher [sampleChunk] (start host none) with
  | ok _ spool => exact ⟨⟨host, none, [sampleChunk], spool, outcome⟩, rfl, rfl⟩
  | error error spool =>
      rcases writing.error outcome with limited | stuck
      · exact absurd rfl limited
      · refine absurd ⟨(cipher_inverts _).sealsUpTo, fun _ none => absurd none List.not_mem_nil, ?_⟩
          stuck
        rw [List.nil_append, length_sampleChunk]
        decide

theorem long_of_sampleChunk {aead : Cipher} {written : Written aead}
    (chunks : written.chunks = [sampleChunk]) :
    memorySpoolLimit < written.chunks.flatten.length := by
  rw [chunks, length_sampleChunk]
  exact Nat.lt_succ_self _

/-- Writing does not depend on what the cipher opens. -/
theorem writeChunks_restrict (aead : Cipher) (key : FixedBytes 32) (log : List Block)
    (chunks : List Bytes) :
    writeChunks (aead.restrict key log) chunks = writeChunks aead chunks := by
  have flushed : ∀ context blocks,
      flushBlocks (aead.restrict key log) context blocks = flushBlocks aead context blocks := by
    intro context blocks
    induction blocks with
    | nil => rfl
    | cons block blocks ih =>
        rw [flushBlocks, flushBlocks, ih]
        rfl
  have single : ∀ chunk, writeChunk (aead.restrict key log) chunk = writeChunk aead chunk := by
    intro chunk
    simp only [writeChunk, storeChunk, flushed]
  induction chunks with
  | nil => rfl
  | cons chunk chunks ih => rw [writeChunks, writeChunks, ih, single]

end Sample

/-! ## Authenticity and order -/

/-- Blocks that open under an ideal cipher are the first ones sealed. -/
theorem OpenFrom.prefix_sealings {aead : Cipher} {spoolKey : FixedBytes 32}
    {sealings blocks : List Block} (ideal : aead.OpensOnly spoolKey sealings)
    (sealedAs : Numbered (SealedAs aead spoolKey) 0 sealings)
    (opens : OpenFrom aead spoolKey 0 blocks) (few : sealings.length ≤ 2 ^ 64)
    (few' : blocks.length ≤ 2 ^ 64) : blocks <+: sealings := by
  refine prefix_of_numbered Sealing.nonce (fun i => buildSpoolNonce (UInt64.ofNat i)) ?_ ?_ ?_
  · intro i block found
    rw [(sealedAs i block found).nonce_eq, UInt64.zero_add]
  · intro i j inside inside' same
    have numbers := congrArg UInt64.toNat (buildSpoolNonce_injective same)
    rwa [UInt64.toNat_ofNat_of_lt' (show i < 2 ^ 64 by omega),
      UInt64.toNat_ofNat_of_lt' (show j < 2 ^ 64 by omega)] at numbers
  · intro j block found
    have opensAs := opens j block found
    refine ⟨ideal _ _ _ _ _ opensAs.decrypted, ?_⟩
    rw [opensAs.nonce_eq, UInt64.zero_add]

/-- Whatever the temporary file holds and however it is read, the release emits the first
blocks of what was written, and all of it when it succeeds. -/
theorem releaseTo_emits_prefix (aead : Cipher) (written : Written aead)
    (capacity : written.host.disk.capacity < 2 ^ 64)
    (ideal : aead.OpensOnly written.key written.spool.sealings) (file : Reader) :
    Ends (fun _ after => after.out = written.chunks.flatten)
      (fun _ after => after.out <+: written.chunks.flatten ∧
        ∃ count, after.out = (written.spool.plaintexts.take count).flatten)
      (releaseTo aead written.spool.spooler file) := by
  have holds := written.holds
  by_cases spilled : written.Spilled
  · have stored := holds.stored
    rw [holds.separate spilled, List.append_nil] at stored
    have count_eq := Written.count_eq capacity
    have bounded : written.count < 2 ^ 64 := UInt64.toNat_lt _
    have first : ∀ blocks, OpenFrom aead written.key 0 blocks → blocks.length ≤ written.count →
        blocks <+: written.spool.sealings := fun blocks opens few =>
      opens.prefix_sealings ideal holds.onDisk.sealedAs (by omega) (by omega)
    rw [Written.releaseTo_eq spilled]
    refine (releaseBlocks_ends aead written.key written.count 0 ⟨file, []⟩).mono ?_ ?_
    · rintro _ after ⟨blocks, whole, opens, _, out_eq⟩
      have all : blocks = written.spool.sealings :=
        (first blocks opens (Nat.le_of_eq whole)).eq_of_length (whole.trans count_eq)
      rw [out_eq, all, ← stored]
      rfl
    · rintro _ after ⟨blocks, _, short, opens, _, out_eq⟩
      have taken := (first blocks opens (Nat.le_of_lt short)).map Sealing.plaintext
      have out_eq' : after.out = (blocks.map Sealing.plaintext).flatten := out_eq
      refine ⟨?_, (blocks.map Sealing.plaintext).length, ?_⟩
      · rw [out_eq', ← stored]
        exact taken.flatten
      · rw [out_eq']
        exact congrArg List.flatten (List.prefix_iff_eq_take.mp taken)
  · have unopened : written.spool.spooler.diskFile = none := not_not.mp spilled
    rw [releaseTo, unopened, ← holds.memBuffer_eq unopened]
    rfl

open Reference in
/-- One byte more than fits into memory, whatever becomes of the file. -/
theorem releaseTo_emits_prefix_sample :
    ∃ (log : List Block)
      (written : Written (ChaCha20Poly1305.cipher.restrict (FixedBytes.zeros 32) log)),
      written.chunks = [sampleChunk] ∧ written.Spilled ∧
      ∀ file, Ends (fun _ after => after.out = written.chunks.flatten)
        (fun _ after => after.out <+: written.chunks.flatten ∧
          ∃ count, after.out = (written.spool.plaintexts.take count).flatten)
        (releaseTo (ChaCha20Poly1305.cipher.restrict (FixedBytes.zeros 32) log)
          written.spool.spooler file) := by
  obtain ⟨plain, host, chunks⟩ := exists_written
  let log := plain.spool.sealings
  let written : Written (ChaCha20Poly1305.cipher.restrict (FixedBytes.zeros 32) log) :=
    ⟨plain.host, plain.maxSize, plain.chunks, plain.spool,
      (congrFun (writeChunks_restrict _ _ log plain.chunks) _).trans plain.accepted⟩
  have key : written.key = FixedBytes.zeros 32 := by
    have same := plain.continues.spoolKey
    rw [host] at same
    exact same
  refine ⟨log, written, chunks, Written.spilled_of_long (long_of_sampleChunk chunks), ?_⟩
  intro file
  refine releaseTo_emits_prefix _ written ?_ ?_ file
  · rw [show written.host = keyHost sampleRecipient sampleEphemeral from host]
    exact (keyHost_disk_honest sampleRecipient sampleEphemeral).capacity_lt
  · rw [key]
    exact SealedData.Aead.restrict_opensOnly _ _ log

/-! ## All or nothing -/

/-- A file whose first blocks verify is released that far. -/
theorem Verifies.released {aead : Cipher} {spoolKey : FixedBytes 32} {count : Nat} {file : Reader}
    (verifies : Verifies aead spoolKey count (content file)) (patient : Patient file)
    (remaining : Nat) :
    ∃ blocks rest, blocks.length = count ∧ OpenFrom aead spoolKey 0 blocks ∧
      content file = blocks.flatMap blockBytes ++ content rest ∧
      releaseBlocks aead spoolKey (count + remaining) 0 ⟨file, []⟩ =
        releaseBlocks aead spoolKey remaining (UInt64.ofNat count)
          ⟨rest, (blocks.map Sealing.plaintext).flatten⟩ := by
  obtain ⟨blocks, later, rfl, content_eq, opens⟩ := verifies
  obtain ⟨rest, _, content_rest, released⟩ :=
    @releaseBlocks_of_openFrom aead spoolKey 0 blocks opens remaining ⟨file, []⟩ patient later
      content_eq
  refine ⟨blocks, rest, rfl, opens, by rw [content_rest, content_eq], ?_⟩
  rw [released, UInt64.zero_add]
  rfl

/-- A failing release has emitted nothing exactly when the first block of the file does not
verify or all of them do. -/
theorem releaseTo_all_or_nothing_iff (aead : Cipher) (written : Written aead)
    (spilled : written.Spilled) (file : Reader) (patient : Patient file) :
    (∀ error after, releaseTo aead written.spool.spooler file = .error error after →
      after.out = []) ↔
      ¬ Verifies aead written.key 1 (content file) ∨
        Verifies aead written.key written.count (content file) := by
  rw [Written.releaseTo_eq spilled]
  have releasing := releaseBlocks_ends aead written.key written.count 0 ⟨file, []⟩
  constructor
  · intro silent
    by_contra neither
    obtain ⟨first, partly⟩ := not_or.mp neither
    obtain ⟨blocks, rest, one, opens, content_eq, released⟩ :=
      (not_not.mp first).released patient (written.count - 1)
    have many : written.count ≠ 0 := by
      intro zero
      exact partly (by rw [zero]; exact ⟨[], content file, rfl, rfl, numbered_nil⟩)
    rw [show 1 + (written.count - 1) = written.count by omega] at released
    cases outcome : releaseBlocks aead written.key written.count 0 ⟨file, []⟩ with
    | ok _ after =>
        obtain ⟨all, whole, opensAll, content_all, _⟩ := releasing.ok outcome
        exact partly ⟨all, _, whole, content_all, opensAll⟩
    | error error after =>
        have nothing := silent error after outcome
        rw [released] at outcome
        obtain ⟨_, _, _, _, _, out_eq⟩ :=
          (releaseBlocks_ends aead written.key _ _ ⟨rest, _⟩).error outcome
        obtain ⟨block, rfl⟩ := List.length_eq_one_iff.mp one
        have nonempty := (numbered_singleton_iff.mp opens).nonempty
        rw [nothing] at out_eq
        have empty := (List.append_eq_nil_iff.mp out_eq.symm).1
        simp only [List.map_cons, List.map_nil, List.flatten_cons, List.flatten_nil,
          List.append_nil] at empty
        rw [empty] at nonempty
        exact absurd nonempty (Nat.lt_irrefl 0)
  · intro verified error after failed
    obtain ⟨blocks, later, short, opens, content_eq, out_eq⟩ := releasing.error failed
    cases blocks with
    | nil => exact out_eq
    | cons block blocks =>
        obtain ⟨opensFirst, _⟩ := numbered_cons_iff.mp opens
        have first : Verifies aead written.key 1 (content file) := by
          refine ⟨[block], blocks.flatMap blockBytes ++ later, rfl, ?_,
            numbered_singleton_iff.mpr opensFirst⟩
          have content_eq' : content file = (block :: blocks).flatMap blockBytes ++ later :=
            content_eq
          rw [content_eq']
          simp
        have all := verified.resolve_left (not_not.mpr first)
        obtain ⟨_, _, _, _, _, released⟩ := all.released patient 0
        rw [Nat.add_zero, failed, releaseBlocks] at released
        cases released

/-- A file cut after its first block: the block is emitted before the release fails. -/
theorem releaseTo_of_cut (aead : Cipher) (written : Written aead)
    (inverts : aead.Inverts written.key spoolChunkSize)
    (capacity : written.host.disk.capacity < 2 ^ 64) (spilled : written.Spilled)
    (long : spoolChunkSize < written.chunks.flatten.length) :
    ∃ cut error after, cut < written.spool.file.length ∧
      releaseTo aead written.spool.spooler (ofBytes (written.spool.file.take cut)) =
        .error error after ∧ after.out ≠ [] := by
  obtain ⟨first, second, later, sealings, file_eq⟩ := Written.file_eq_cons spilled long
  have onDisk := written.holds.onDisk
  have sealedAs := onDisk.sealedAs
  rw [sealings] at sealedAs
  have sealedFirst := (numbered_cons_iff.mp sealedAs).1
  have count_eq := Written.count_eq capacity
  rw [sealings] at count_eq
  have more := onDisk.bounds second (by rw [sealings]; simp)
  have cut : written.spool.file.take (blockBytes first).length = blockBytes first := by
    rw [file_eq, List.take_left]
  have opens : OpenFrom aead written.key 0 [first] :=
    numbered_singleton_iff.mpr (sealedFirst.opensAs inverts)
  obtain ⟨rest, patient, content_rest, released⟩ := @releaseBlocks_of_openFrom aead written.key 0
    [first] opens (later.length + 1)
    ⟨ofBytes (blockBytes first), []⟩
    (smooth_ofBytes (blockBytes first)).patient []
    (by rw [content_ofBytes]; simp)
  -- Nothing is left for the second block's length field.
  obtain ⟨rest', short⟩ := @readExact_patient_short 4 rest patient (by rw [content_rest]; decide)
  have failing : ∀ remaining index out,
      releaseBlocks aead written.key (remaining + 1) index ⟨rest, out⟩ =
        .error endInsideBuffer ⟨rest', out⟩ := by
    intro remaining index out
    have reading : readFile 4 ⟨rest, out⟩ = .error endInsideBuffer ⟨rest', out⟩ := by
      rw [readFile, short]
    have opening : openBlock aead written.key index ⟨rest, out⟩ =
        .error endInsideBuffer ⟨rest', out⟩ := by
      rw [openBlock, bind_of_error reading]
    rw [releaseBlocks, bind_of_error opening]
  refine ⟨(blockBytes first).length, endInsideBuffer, ⟨rest', [] ++ [first.plaintext].flatten⟩,
    ?_, ?_, ?_⟩
  · rw [file_eq, List.length_append, List.flatMap_cons, List.length_append]
    omega
  · rw [Written.releaseTo_eq spilled, cut, count_eq]
    have blocks : (first :: second :: later).length = [first].length + (later.length + 1) := by
      simp only [List.length_cons, List.length_nil]
      omega
    rw [blocks, released]
    exact failing _ _ _
  · change [] ++ [first.plaintext].flatten ≠ []
    rw [List.nil_append, List.flatten_singleton]
    exact List.ne_nil_of_length_pos sealedFirst.nonempty

open Reference in
/-- Of a file that was removed nothing is emitted. -/
theorem releaseTo_all_or_nothing_iff_sample :
    ∃ written : Written ChaCha20Poly1305.cipher, written.chunks = [sampleChunk] ∧
      ∀ error after, releaseTo ChaCha20Poly1305.cipher written.spool.spooler [] =
        .error error after → after.out = [] := by
  obtain ⟨written, _, chunks⟩ := exists_written
  refine ⟨written, chunks, (releaseTo_all_or_nothing_iff _ written
    (Written.spilled_of_long (long_of_sampleChunk chunks)) [] Smooth.nil.patient).mpr (.inl ?_)⟩
  rintro ⟨blocks, rest, one, empty, _⟩
  obtain ⟨block, rfl⟩ := List.length_eq_one_iff.mp one
  have lengths := congrArg List.length empty
  simp only [content_nil, List.flatMap_cons, List.flatMap_nil, blockBytes, List.length_append,
    FixedBytes.length_toList, List.length_nil] at lengths
  omega

open Reference in
/-- One byte more than fits into memory, and a file cut after its first block: what this block
held is on the output of a release that fails. -/
theorem releaseTo_emits_before_failing :
    ∃ written : Written ChaCha20Poly1305.cipher, written.chunks = [sampleChunk] ∧
      written.Spilled ∧
      ∃ cut error after, cut < written.spool.file.length ∧
        releaseTo ChaCha20Poly1305.cipher written.spool.spooler
          (ofBytes (written.spool.file.take cut)) = .error error after ∧ after.out ≠ [] := by
  obtain ⟨written, host, chunks⟩ := exists_written
  have long := long_of_sampleChunk chunks
  have spilled := Written.spilled_of_long long
  refine ⟨written, chunks, spilled, releaseTo_of_cut _ written (cipher_inverts _) ?_ spilled ?_⟩
  · rw [host]
    exact (keyHost_disk_honest sampleRecipient sampleEphemeral).capacity_lt
  · exact Nat.lt_trans (by decide) long

end Spool

end PipeK1

import PipeK1.SpoolFailures

/-!
# The spool's blocks

The representation of a spooler that every accepted write keeps, in terms of its
memory, its file and its counters; and the numbers under which blocks are sealed
when calls go on after a failed one.
-/

set_option autoImplicit false

namespace PipeK1

namespace Spool

open ByteData ByteReader SealedData Effects Numbering

/-! ## The representation -/

/-- A block as it stands at this place of the file. -/
structure StoredBlock (aead : Cipher) (spoolKey : FixedBytes 32) (index : Nat) (block : Block) :
    Prop where
  nonce_eq : block.nonce.toList = beList 8 index ++ [0x00, 0x00, 0x00, 0x00]
  aad_eq : block.aad = beList 8 index ++ beList 4 block.plaintext.length
  nonempty : 0 < block.plaintext.length
  fits : block.plaintext.length ≤ 65536
  encrypted : aead.encrypt spoolKey block.nonce block.aad block.plaintext =
    .ok (block.ciphertext, block.tag)

/-- `Len || Ciphertext || Tag`. -/
def framed (block : Block) : Bytes :=
  beList 4 block.ciphertext.length ++ block.ciphertext ++ block.tag.toList

/-- The spooler's memory and file hold the bytes written, in as many blocks as were counted. -/
structure Represents (aead : Cipher) (spooler : StreamSpooler) (written : Bytes) : Prop where
  bounded : spooler.memBuffer.length ≤ 16 * 1024 * 1024
  separate : spooler.diskFile ≠ none → spooler.memBuffer = []
  blocks : ∃ blocks : List Block,
    blocks.length = spooler.blockCounter.toNat ∧
      spooler.diskFile.getD [] = (blocks.map framed).flatten ∧
      (∀ i block, blocks[i]? = some block → StoredBlock aead spooler.spoolKey i block) ∧
      (blocks.map Sealing.plaintext).flatten ++ spooler.memBuffer = written
  total : spooler.totalBytes.toNat = written.length

theorem SealedAs.length_toNat {aead : Cipher} {spoolKey : FixedBytes 32} {number : UInt64}
    {block : Block} (sealedAs : SealedAs aead spoolKey number block) :
    (UInt32.ofNat block.plaintext.length).toNat = block.plaintext.length := by
  have fits : block.plaintext.length ≤ 65536 := sealedAs.fits
  exact UInt32.toNat_ofNat_of_lt' (by change _ < 2 ^ 32; omega)

theorem SealedAs.storedBlock {aead : Cipher} {spoolKey : FixedBytes 32} {number : UInt64}
    {block : Block} (sealedAs : SealedAs aead spoolKey number block) :
    StoredBlock aead spoolKey number.toNat block where
  nonce_eq := by
    rw [sealedAs.nonce_eq]
    rfl
  aad_eq := by
    rw [sealedAs.aad_eq, buildSpoolAad, FixedBytes.toList_append, toList_u64Be, toList_u32Be,
      sealedAs.length_toNat]
  nonempty := sealedAs.nonempty
  fits := sealedAs.fits
  encrypted := sealedAs.encrypted

theorem SealedAs.framed_eq {aead : Cipher} {spoolKey : FixedBytes 32} {number : UInt64}
    {block : Block} (sealedAs : SealedAs aead spoolKey number block) :
    framed block = blockBytes block := by
  rw [framed, blockBytes, toList_u32Be, sealedAs.length_toNat,
    aead.length_encrypt sealedAs.encrypted]

theorem Holds.represents {aead : Cipher} {spool : Spool} {written : Bytes}
    (holds : Holds aead spool written) (capacity : spool.disk.capacity < 2 ^ 64) :
    Represents aead spool.spooler written := by
  have onDisk := holds.onDisk
  obtain ⟨sum, _⟩ := onDisk.length_file
  have fits := onDisk.fits
  have few : spool.sealings.length < 2 ^ 64 := by omega
  refine ⟨holds.bounded, holds.separate, ⟨spool.sealings, ?_, ?_, ?_, holds.stored⟩, ?_⟩
  · rw [onDisk.counter, UInt64.toNat_ofNat_of_lt' few]
  · have same : ∀ block ∈ spool.sealings, framed block = blockBytes block := by
      intro block member
      obtain ⟨_, sealedAs⟩ := onDisk.sealedAs.exists_of_mem member
      exact sealedAs.framed_eq
    rw [List.map_congr_left same, ← List.flatMap_def]
    exact onDisk.file_eq
  · intro i block found
    have stored := (onDisk.sealedAs i block found).storedBlock
    have inside : i < spool.sealings.length := (List.getElem?_eq_some_iff.mp found).1
    rwa [UInt64.zero_add, UInt64.toNat_ofNat_of_lt' (show i < 2 ^ 64 by omega)] at stored
  · rw [holds.total, UInt64.toNat_ofNat_of_lt' (holds.length_lt capacity)]

/-- Whatever chunks have been accepted, the spooler represents them. -/
theorem spooler_represents_accepted (aead : Cipher) (host : Host) (maxSize : Option UInt64)
    (capacity : host.disk.capacity < 2 ^ 64) (chunks : List Bytes) (spool : Spool)
    (accepted : writeChunks aead chunks (start host maxSize) = .ok () spool) :
    Represents aead spool.spooler chunks.flatten := by
  obtain ⟨holds, continues⟩ := (writeChunks_ends aead chunks [] (start host maxSize)
    (holds_start aead host maxSize)).ok accepted
  exact holds.represents (continues.capacity ▸ capacity)

open Reference in
/-- One byte more than fits into memory: all of it is in the file. -/
theorem spooler_represents_accepted_sample :
    ∃ written : Written ChaCha20Poly1305.cipher, written.chunks = [sampleChunk] ∧
      written.Spilled ∧
      Represents ChaCha20Poly1305.cipher written.spool.spooler [sampleChunk].flatten := by
  obtain ⟨written, host, chunks⟩ := exists_written
  refine ⟨written, chunks, Written.spilled_of_long (long_of_sampleChunk chunks), ?_⟩
  rw [← chunks]
  refine spooler_represents_accepted _ written.host written.maxSize ?_ written.chunks
    written.spool written.accepted
  rw [host]
  exact (keyHost_disk_honest sampleRecipient sampleEphemeral).capacity_lt

/-! ## Nonces -/

/-- No two different plaintexts were sealed under one nonce. -/
def NeverReused (sealings : List Block) : Prop :=
  ∀ left ∈ sealings, ∀ right ∈ sealings, left.nonce = right.nonce →
    left.plaintext = right.plaintext

/-- A block was sealed under the number that is still to come: writing it has failed. -/
structure Uncounted (spool : Spool) (block : Block) : Prop where
  sealed : block ∈ spool.sealings
  nonce_eq : block.nonce = buildSpoolNonce spool.spooler.blockCounter

/-- There is a file, or one can be opened, and the cipher seals the block. -/
structure Reaches (aead : Cipher) (spool : Spool) (data : Bytes) : Prop where
  opened : ∀ outcome ∈ spool.disk.outcomes.take (openings spool), outcome = .done
  seals : SealsBlock aead spool.spooler.spoolKey spool.spooler.blockCounter data

/-- A first block that is sealed is the block whose writing has failed, if there is one. -/
def Resumes (aead : Cipher) (spool : Spool) (first : Option Bytes) : Prop :=
  ∀ data ∈ first, Reaches aead spool data →
    ∀ block, Uncounted spool block → block.plaintext = data

theorem neverReused_concat {sealings : List Block} {block : Block} :
    NeverReused (sealings ++ [block]) ↔ NeverReused sealings ∧
      ∀ earlier ∈ sealings, earlier.nonce = block.nonce →
        earlier.plaintext = block.plaintext := by
  constructor
  · intro never
    refine ⟨fun left first right second => never left (List.mem_append_left _ first) right
      (List.mem_append_left _ second), fun earlier member => ?_⟩
    exact never earlier (List.mem_append_left _ member) block
      (List.mem_append_right _ List.mem_cons_self)
  · rintro ⟨never, last⟩ left first right second same
    rcases List.mem_append.mp first with first | first <;>
      rcases List.mem_append.mp second with second | second
    · exact never left first right second same
    · cases List.mem_singleton.mp second
      exact last left first same
    · cases List.mem_singleton.mp first
      exact (last right second same.symm).symm
    · rw [List.mem_singleton.mp first, List.mem_singleton.mp second]

/-- Blocks were sealed under the numbers up to the coming one, which has not wrapped. -/
structure Logged (spool : Spool) : Prop where
  numbers : ∀ block ∈ spool.sealings, ∃ number : UInt64,
    number ≤ spool.spooler.blockCounter ∧ block.nonce = buildSpoolNonce number
  few : spool.spooler.blockCounter.toNat ≤ spool.file.length
  fits : spool.file.length ≤ spool.disk.capacity
  capacity : spool.disk.capacity < 2 ^ 64

variable {aead : Cipher} {spool after : Spool}

theorem ensureFile_sealings (spool : Spool) :
    Ends (fun _ after => after.sealings = spool.sealings)
      (fun _ after => after.sealings = spool.sealings) (ensureFile spool) := by
  cases opened : spool.spooler.diskFile with
  | some file => simp only [ensureFile, ends_bind, ends_get, opened, ends_pure]
  | none =>
      simp only [ensureFile, openAnonymousTmpfile, nextOutcome, ends_bind, ends_get, opened,
        ends_modifyGet]
      cases spool.disk.outcomes.head?.getD .done with
      | failed written error => simp only [ends_throw]
      | done => simp only [setFile, ends_modify]

theorem writeAll_sealings (bytes : Bytes) (spool : Spool) :
    Ends (fun _ after => after.sealings = spool.sealings)
      (fun _ after => after.sealings = spool.sealings) (writeAll bytes spool) := by
  simp only [writeAll, nextOutcome, ends_bind, ends_modifyGet, ends_get]
  cases spool.disk.outcomes.head?.getD .done with
  | failed written error => simp only [setFile, ends_bind, ends_modify, ends_throw]
  | done =>
      dsimp only
      split
      · simp only [setFile, ends_modify]
      · simp only [setFile, ends_bind, ends_modify, ends_throw]

/-- The log grows by this one block, sealed under the coming number. -/
def LogsOne (data : Bytes) (before after : Spool) : Prop :=
  ∃ block : Block, block.nonce = buildSpoolNonce before.spooler.blockCounter ∧
    block.plaintext = data ∧ after.sealings = before.sealings ++ [block]

/-- A block is sealed if and only if it reaches the cipher, whatever becomes of its writing. -/
theorem flushSingleBlockToDisk_sealings (aead : Cipher) (data : Bytes) (spool : Spool) :
    Ends (fun _ after => Reaches aead spool data ∧ LogsOne data spool after)
      (fun _ after => Reaches aead spool data ∧ LogsOne data spool after ∨
        ¬ Reaches aead spool data ∧ after.sealings = spool.sealings)
      (flushSingleBlockToDisk aead data spool) := by
  rw [flushSingleBlockToDisk, ends_bind]
  refine ((ensureFile_ends spool).and (ensureFile_sealings spool)).mono ?_ ?_
  · rintro _ opened ⟨⟨continues, _, spooler_eq, done, _⟩, sealings_eq⟩
    rw [ends_bind, ends_get, continues.spoolKey,
      show opened.spooler.blockCounter = spool.spooler.blockCounter by rw [spooler_eq]]
    cases encrypted : aead.encrypt spool.spooler.spoolKey
        (buildSpoolNonce spool.spooler.blockCounter)
        (buildSpoolAad spool.spooler.blockCounter (UInt32.ofNat data.length)).toList data with
    | error e =>
        rw [ends_throw]
        refine .inr ⟨fun reaches => ?_, sealings_eq⟩
        obtain ⟨_, sealed⟩ := reaches.seals
        rw [sealed] at encrypted
        cases encrypted
    | ok output =>
        obtain ⟨ct, tag⟩ := output
        have reaches : Reaches aead spool data := ⟨done, _, encrypted⟩
        let block : Block := ⟨buildSpoolNonce spool.spooler.blockCounter, (buildSpoolAad
          spool.spooler.blockCounter (UInt32.ofNat data.length)).toList, data, ct, tag⟩
        have logged : ∀ after : Spool, after.sealings = opened.sealings ++ [block] →
            LogsOne data spool after := by
          intro after same
          exact ⟨block, rfl, rfl, by rw [same, sealings_eq]⟩
        rw [ends_bind, logSealing, ends_modify, ends_bind]
        refine (writeAll_sealings _ _).mono ?_ fun _ _ same => .inl ⟨reaches, logged _ same⟩
        intro _ first same
        rw [ends_bind]
        refine (writeAll_sealings _ _).mono ?_
          fun _ _ same' => .inl ⟨reaches, logged _ (same'.trans same)⟩
        intro _ second same'
        rw [ends_bind]
        refine (writeAll_sealings _ _).mono ?_
          fun _ _ same'' => .inl ⟨reaches, logged _ (same''.trans (same'.trans same))⟩
        intro _ third same''
        rw [countBlock, ends_modify]
        exact ⟨reaches, logged _ (same''.trans (same'.trans same))⟩
  · rintro _ after ⟨⟨_, stuck⟩, sealings_eq⟩
    exact .inr ⟨fun reaches => stuck reaches.opened, sealings_eq⟩

theorem LogsOne.neverReused_iff {data : Bytes} (logs : LogsOne data spool after) :
    NeverReused after.sealings ↔ NeverReused spool.sealings ∧
      ∀ block, Uncounted spool block → block.plaintext = data := by
  obtain ⟨last, nonce_eq, rfl, sealings_eq⟩ := logs
  rw [sealings_eq, neverReused_concat, nonce_eq]
  refine and_congr_right fun _ => ⟨fun same block uncounted => ?_, fun same block member named => ?_⟩
  · exact same block uncounted.sealed uncounted.nonce_eq
  · exact same block ⟨member, named⟩

/-- A call or a part of it: the log keeps its numbers, and a nonce is reused if it was before or
if the first block does not resume the one whose writing has failed. -/
structure Logs (aead : Cipher) (first : Option Bytes) (before after : Spool) : Prop where
  logged : Logged after
  never_iff : NeverReused after.sealings ↔
    NeverReused before.sealings ∧ Resumes aead before first

theorem resumes_none : Resumes aead spool none := by
  intro data none
  cases none

theorem resumes_some_iff {data : Bytes} :
    Resumes aead spool (some data) ↔
      (Reaches aead spool data → ∀ block, Uncounted spool block → block.plaintext = data) := by
  simp only [Resumes, Option.mem_def, Option.some.injEq, forall_eq']

theorem logs_of_unchanged (logged : Logged after) (sealings_eq : after.sealings = spool.sealings) :
    Logs aead none spool after :=
  ⟨logged, by rw [sealings_eq, and_iff_left resumes_none]⟩

theorem Logged.interrupted (logged : Logged spool) (interrupted : Interrupted spool after)
    (numbers : ∀ block ∈ after.sealings, block ∈ spool.sealings ∨
      block.nonce = buildSpoolNonce spool.spooler.blockCounter) : Logged after where
  numbers block member := by
    have counter : after.spooler.blockCounter = spool.spooler.blockCounter := by
      rw [interrupted.spooler_eq]
    rw [counter]
    rcases numbers block member with earlier | coming
    · exact logged.numbers block earlier
    · exact ⟨_, UInt64.le_refl _, coming⟩
  few := by
    obtain ⟨torn, file_eq⟩ := interrupted.file_eq
    rw [interrupted.spooler_eq, file_eq, List.length_append]
    exact Nat.le_add_right_of_le logged.few
  fits := interrupted.fits logged.fits
  capacity := interrupted.continues.capacity ▸ logged.capacity

theorem Logged.flushed {data : Bytes} {block : Block} (logged : Logged spool)
    (flushed : Flushed aead data spool after block) :
    Logged after ∧ ∀ other, ¬ Uncounted after other := by
  have counter : after.spooler.blockCounter = spool.spooler.blockCounter + 1 := by
    rw [flushed.spooler_eq]
  have length : after.file.length = spool.file.length + (block.plaintext.length + 20) := by
    rw [Spool.file, flushed.spooler_eq, Option.getD_some, List.length_append,
      length_blockBytes flushed.sealedAs]
  have few := logged.few
  have fits := flushed.fits
  have capacity : after.disk.capacity < 2 ^ 64 := flushed.continues.capacity ▸ logged.capacity
  have next : (spool.spooler.blockCounter + 1).toNat = spool.spooler.blockCounter.toNat + 1 := by
    rw [UInt64.toNat_add]
    exact Nat.mod_eq_of_lt (by change _ + 1 < 2 ^ 64; omega)
  have numbers : ∀ other ∈ after.sealings, ∃ number : UInt64,
      number ≤ spool.spooler.blockCounter ∧ other.nonce = buildSpoolNonce number := by
    intro other member
    rw [flushed.sealings_eq] at member
    rcases List.mem_append.mp member with earlier | last
    · exact logged.numbers other earlier
    · rw [List.mem_singleton.mp last]
      exact ⟨_, UInt64.le_refl _, flushed.sealedAs.nonce_eq⟩
  refine ⟨⟨?_, ?_, fits, capacity⟩, ?_⟩
  · intro other member
    obtain ⟨number, below, nonce_eq⟩ := numbers other member
    refine ⟨number, UInt64.le_iff_toNat_le.mpr ?_, nonce_eq⟩
    rw [counter, next]
    exact Nat.le_succ_of_le (UInt64.le_iff_toNat_le.mp below)
  · rw [counter, next, length]
    omega
  · intro other uncounted
    obtain ⟨number, below, nonce_eq⟩ := numbers other uncounted.sealed
    have same := buildSpoolNonce_injective (nonce_eq.symm.trans uncounted.nonce_eq)
    have bound := UInt64.le_iff_toNat_le.mp below
    rw [same, counter, next] at bound
    omega

theorem flushBlocks_logs (context : String) (datas : List Bytes)
    (bounds : ∀ data ∈ datas, 0 < data.length ∧ data.length ≤ spoolChunkSize)
    (logged : Logged spool) :
    Ends (fun _ after => Logs aead datas.head? spool after ∧
        (datas ≠ [] → ∀ block, ¬ Uncounted after block) ∧ (datas = [] → after = spool))
      (fun _ after => Logs aead datas.head? spool after ∧ datas ≠ [])
      (flushBlocks aead context datas spool) := by
  induction datas generalizing spool with
  | nil =>
      rw [flushBlocks, ends_pure]
      exact ⟨logs_of_unchanged logged rfl, fun some => absurd rfl some, fun _ => rfl⟩
  | cons data datas ih =>
      obtain ⟨nonempty, fits⟩ := bounds data List.mem_cons_self
      rw [flushBlocks, ends_bind, ends_adaptExcept]
      refine ((flushSingleBlockToDisk_exact aead data nonempty fits spool).and
        (flushSingleBlockToDisk_sealings aead data spool)).mono ?_ ?_
      · rintro _ middle ⟨⟨⟨block, flushed⟩, _⟩, reaches, logs⟩
        obtain ⟨logged', counted⟩ := logged.flushed flushed
        have resumes : ∀ next, Resumes aead middle next := fun _ _ _ _ other uncounted =>
          absurd uncounted (counted other)
        have first : Resumes aead spool (some data) ↔
            ∀ block, Uncounted spool block → block.plaintext = data := by
          rw [resumes_some_iff, forall_prop_of_true reaches]
        have whole : ∀ after, Logs aead datas.head? middle after →
            Logs aead (some data) spool after := by
          intro after later
          refine ⟨later.logged, ?_⟩
          rw [later.never_iff, and_iff_left (resumes _), logs.neverReused_iff, first]
        refine (ih (fun other member => bounds other (List.mem_cons_of_mem _ member))
          logged').mono ?_ ?_
        · rintro _ after ⟨later, fresh, unchanged⟩
          refine ⟨whole after later, fun _ => ?_, fun none => absurd none (List.cons_ne_nil _ _)⟩
          by_cases last : datas = []
          · rw [unchanged last]
            exact counted
          · exact fresh last
        · rintro _ after ⟨later, _⟩
          exact ⟨whole after later, List.cons_ne_nil _ _⟩
      · rintro _ after ⟨⟨interrupted, _⟩, outcome⟩
        refine ⟨?_, List.cons_ne_nil _ _⟩
        rcases outcome with ⟨reaches, logs⟩ | ⟨missed, sealings_eq⟩
        · refine ⟨logged.interrupted interrupted ?_, ?_⟩
          · obtain ⟨block, nonce_eq, _, sealings_eq⟩ := logs
            intro other member
            rw [sealings_eq] at member
            refine (List.mem_append.mp member).imp id fun last => ?_
            rw [List.mem_singleton.mp last, nonce_eq]
          · rw [logs.neverReused_iff, List.head?_cons, resumes_some_iff,
              forall_prop_of_true reaches]
        · refine ⟨logged.interrupted interrupted ?_, ?_⟩
          · intro other member
            rw [sealings_eq] at member
            exact .inl member
          · rw [sealings_eq, List.head?_cons, resumes_some_iff, and_iff_left]
            exact fun reaches => absurd reaches missed

/-- The block that storing a chunk writes first. -/
def storedFirst (spool : Spool) (chunk : Bytes) : Option Bytes :=
  if spool.spooler.diskFile = none ∧
      spool.spooler.memBuffer.length + chunk.length ≤ memorySpoolLimit then
    none
  else (spoolBlocks spool.spooler.memBuffer ++ spoolBlocks chunk).head?

/-- The block that a call writes first. -/
def writtenFirst (spool : Spool) (chunk : Bytes) : Option Bytes :=
  match overCeiling (counted spool chunk).spooler with
  | some _ => none
  | none => storedFirst spool chunk

/-- The spool with other bytes in memory and another total; its file, key and numbers stay. -/
def remembering (spool : Spool) (memory : Bytes) (total : UInt64) : Spool :=
  { spool with spooler := { spool.spooler with memBuffer := memory, totalBytes := total } }

theorem Logged.remembering (logged : Logged spool) (memory : Bytes) (total : UInt64) :
    Logged (spool.remembering memory total) :=
  ⟨logged.numbers, logged.few, logged.fits, logged.capacity⟩

theorem Logs.of_remembering {memory : Bytes} {total : UInt64} {first : Option Bytes}
    (logs : Logs aead first (spool.remembering memory total) after) :
    Logs aead first spool after := by
  refine ⟨logs.logged, logs.never_iff.trans (and_congr_right fun _ => ?_)⟩
  constructor
  · intro resuming data found reaches block uncounted
    exact resuming data found ⟨reaches.opened, reaches.seals⟩ block
      ⟨uncounted.sealed, uncounted.nonce_eq⟩
  · intro resuming data found reaches block uncounted
    exact resuming data found ⟨reaches.opened, reaches.seals⟩ block
      ⟨uncounted.sealed, uncounted.nonce_eq⟩

theorem storeChunk_logs (chunk : Bytes) (logged : Logged spool) :
    Ends (fun _ after => Logs aead (storedFirst spool chunk) spool after)
      (fun _ after => Logs aead (storedFirst spool chunk) spool after)
      (storeChunk aead chunk spool) := by
  rw [storeChunk, ends_bind, ends_get, storedFirst]
  split
  · rw [ends_set]
    exact logs_of_unchanged ⟨logged.numbers, logged.few, logged.fits, logged.capacity⟩ rfl
  · have logged' := logged.remembering [] spool.spooler.totalBytes
    rw [ends_bind, takeMemory, ends_modifyGet, ends_bind]
    refine (flushBlocks_logs _ _ (fun _ => spoolBlocks_bounds) logged').mono ?_ ?_
    · rintro _ middle ⟨logs, fresh, unchanged⟩
      by_cases none : spoolBlocks spool.spooler.memBuffer = []
      · rw [unchanged none, none, List.nil_append]
        refine (flushBlocks_logs _ _ (fun _ => spoolBlocks_bounds) logged').mono ?_ ?_
        · exact fun _ _ stored => stored.1.of_remembering
        · exact fun _ _ stopped => stopped.1.of_remembering
      · rw [List.head?_append_of_ne_nil _ none]
        have whole : ∀ first after, Logs aead first middle after →
            Logs aead (spoolBlocks spool.spooler.memBuffer).head? spool after := by
          intro first after later
          refine Logs.of_remembering ⟨later.logged,
            later.never_iff.trans ((and_iff_left ?_).trans logs.never_iff)⟩
          exact fun _ _ _ other uncounted => absurd uncounted (fresh none other)
        refine (flushBlocks_logs _ _ (fun _ => spoolBlocks_bounds) logs.logged).mono ?_ ?_
        · exact fun _ after stored => whole _ after stored.1
        · exact fun _ after stopped => whole _ after stopped.1
    · rintro _ after ⟨logs, some⟩
      rw [List.head?_append_of_ne_nil _ some]
      exact logs.of_remembering

theorem writeChunk_logs (chunk : Bytes) (logged : Logged spool) :
    Ends (fun _ after => Logs aead (writtenFirst spool chunk) spool after)
      (fun _ after => Logs aead (writtenFirst spool chunk) spool after)
      (writeChunk aead chunk spool) := by
  have logged' : Logged (counted spool chunk) := logged.remembering _ _
  rw [writtenFirst]
  cases ceiling : overCeiling (counted spool chunk).spooler with
  | some max =>
      rw [writeChunk_of_beyond aead ceiling]
      exact logs_of_unchanged logged' rfl
  | none =>
      rw [writeChunk_of_within aead ceiling]
      exact (storeChunk_logs chunk logged').mono (fun _ _ logs => Logs.of_remembering logs)
        (fun _ _ logs => Logs.of_remembering logs)

/-! ## Runs -/

/-- Every call that seals a block behind one whose writing has failed starts with that block. -/
def ResumingRun (aead : Cipher) : List Bytes → Spool → Prop
  | [], _ => True
  | chunk :: chunks, spool =>
      Resumes aead spool (writtenFirst spool chunk) ∧
        ResumingRun aead chunks (attempt aead chunk spool).2

theorem logged_start {host : Host} (maxSize : Option UInt64)
    (capacity : host.disk.capacity < 2 ^ 64) : Logged (start host maxSize) where
  numbers _ member := absurd member List.not_mem_nil
  few := Nat.le_refl _
  fits := Nat.zero_le _
  capacity := capacity

theorem attempt_logs (chunk : Bytes) (logged : Logged spool) :
    Logs aead (writtenFirst spool chunk) spool (attempt aead chunk spool).2 := by
  have writing := @writeChunk_logs aead spool chunk logged
  unfold attempt
  cases written : writeChunk aead chunk spool with
  | ok _ after => exact writing.ok written
  | error error after => exact writing.error written

theorem attempts_neverReused_iff (chunks : List Bytes) (logged : Logged spool) :
    NeverReused (attempts aead chunks spool).2.sealings ↔
      NeverReused spool.sealings ∧ ResumingRun aead chunks spool := by
  induction chunks generalizing spool with
  | nil => exact (and_iff_left trivial).symm
  | cons chunk chunks ih =>
      have logs := @attempt_logs aead spool chunk logged
      change NeverReused (attempts aead chunks (attempt aead chunk spool).2).2.sealings ↔ _
      rw [ih logs.logged, logs.never_iff, ResumingRun, and_assoc]

theorem Holds.logged {written : Bytes} (holds : Holds aead spool written)
    (capacity : spool.disk.capacity < 2 ^ 64) :
    Logged spool ∧ ∀ block, ¬ Uncounted spool block := by
  have onDisk := holds.onDisk
  obtain ⟨sum, _⟩ := onDisk.length_file
  have fits := onDisk.fits
  have count : spool.spooler.blockCounter.toNat = spool.sealings.length := by
    rw [onDisk.counter, UInt64.toNat_ofNat_of_lt' (by change _ < 2 ^ 64; omega)]
  have numbers : ∀ block ∈ spool.sealings, ∃ number : UInt64,
      number < spool.spooler.blockCounter ∧ block.nonce = buildSpoolNonce number := by
    intro block member
    obtain ⟨i, found⟩ := List.mem_iff_getElem?.mp member
    have inside : i < spool.sealings.length := (List.getElem?_eq_some_iff.mp found).1
    refine ⟨0 + UInt64.ofNat i, ?_, (onDisk.sealedAs i block found).nonce_eq⟩
    rw [UInt64.zero_add, UInt64.lt_iff_toNat_lt, count,
      UInt64.toNat_ofNat_of_lt' (by change _ < 2 ^ 64; omega)]
    exact inside
  refine ⟨⟨?_, by omega, fits, capacity⟩, ?_⟩
  · intro block member
    obtain ⟨number, below, nonce_eq⟩ := numbers block member
    exact ⟨number, UInt64.le_of_lt below, nonce_eq⟩
  · intro block uncounted
    obtain ⟨number, below, nonce_eq⟩ := numbers block uncounted.sealed
    rw [buildSpoolNonce_injective (nonce_eq.symm.trans uncounted.nonce_eq)] at below
    exact absurd below (UInt64.lt_irrefl _)

/-- Writing that stops at the first failed call never uses a nonce again. -/
theorem writeChunks_neverReused (chunks : List Bytes) {written : Bytes}
    (holds : Holds aead spool written) (capacity : spool.disk.capacity < 2 ^ 64)
    (never : NeverReused spool.sealings) :
    Ends (fun _ after => NeverReused after.sealings) (fun _ after => NeverReused after.sealings)
      (writeChunks aead chunks spool) := by
  induction chunks generalizing spool written with
  | nil => exact never
  | cons chunk chunks ih =>
      obtain ⟨logged, counted⟩ := holds.logged capacity
      have kept : ∀ after, Logs aead (writtenFirst spool chunk) spool after →
          NeverReused after.sealings := fun after logs => logs.never_iff.mpr
        ⟨never, fun _ _ _ block uncounted => absurd uncounted (counted block)⟩
      rw [writeChunks, ends_bind]
      refine ((writeChunk_ends aead chunk written spool holds).and
        (writeChunk_logs chunk logged)).mono ?_ fun _ after failed => kept after failed.2
      rintro _ middle ⟨⟨holds', continues, _⟩, logs⟩
      exact ih holds' (continues.capacity ▸ capacity) (kept middle logs)

/-- The first block of a chunk is sealed, and the first write fails. -/
theorem attempt_torn {chunk first : Bytes} {rest : List Bytes} {written : Nat} {error : IoError}
    {later : List DiskOutcome} (unopened : spool.spooler.diskFile = none)
    (empty : spool.spooler.memBuffer = []) (long : memorySpoolLimit < chunk.length)
    (unlimited : spool.spooler.maxSize = none) (blocks : spoolBlocks chunk = first :: rest)
    (failing : spool.disk.outcomes = .done :: .failed written error :: later)
    (seals : SealsBlock aead spool.spooler.spoolKey spool.spooler.blockCounter first) :
    let after := (attempt aead chunk spool).2
    LogsOne first spool after ∧ after.spooler.diskFile ≠ none ∧
      after.spooler.blockCounter = spool.spooler.blockCounter ∧ after.spooler.memBuffer = [] ∧
      after.spooler.spoolKey = spool.spooler.spoolKey ∧ after.spooler.maxSize = none ∧
      after.disk.outcomes = later := by
  obtain ⟨output, sealed⟩ := seals
  have ceiling := overCeiling_of_unlimited chunk unlimited
  have spills : ¬ ((counted spool chunk).spooler.diskFile = none ∧
      (counted spool chunk).spooler.memBuffer.length + chunk.length ≤ memorySpoolLimit) := by
    rintro ⟨_, room⟩
    omega
  have failed : Ends (fun _ _ => False)
      (fun _ after => LogsOne first spool after ∧ after.spooler.diskFile ≠ none ∧
        after.spooler.blockCounter = spool.spooler.blockCounter ∧ after.spooler.memBuffer = [] ∧
        after.spooler.spoolKey = spool.spooler.spoolKey ∧ after.spooler.maxSize = none ∧
        after.disk.outcomes = later) (writeChunk aead chunk spool) := by
    rw [writeChunk_of_within aead ceiling, storeChunk, ends_bind, ends_get, if_neg spills, ends_bind, takeMemory,
      ends_modifyGet, ends_bind]
    change Ends _ _ (flushBlocks aead _ (spoolBlocks spool.spooler.memBuffer) _)
    rw [empty, show spoolBlocks [] = [] from Chunking.chunks_nil, flushBlocks, ends_pure, blocks,
      flushBlocks, ends_bind, ends_adaptExcept, flushSingleBlockToDisk, ends_bind]
    simp only [ensureFile, openAnonymousTmpfile, setFile, nextOutcome, ends_bind, ends_get, counted,
      unopened, ends_modifyGet, failing, List.head?_cons, Option.getD_some, ends_modify, sealed,
      logSealing, writeAll, List.tail_cons, ends_throw]
    exact ⟨⟨_, rfl, rfl, rfl⟩, Option.some_ne_none _, trivial, trivial, trivial, unlimited, trivial⟩
  unfold attempt
  cases outcome : writeChunk aead chunk spool with
  | ok _ after => exact (failed.ok outcome).elim
  | error _ after => exact failed.error outcome

/-- A temporary file can be opened, and the first write to it fails. -/
def tornHost : Host :=
  { Reference.keyHost Reference.sampleRecipient Reference.sampleEphemeral with
    disk := ⟨[.done, .failed 0 noSpace], 2 ^ 40, ofBytes⟩ }

/-- What a call writes first, once memory is empty and a file is open. -/
theorem writtenFirst_of_opened {chunk : Bytes} (opened : spool.spooler.diskFile ≠ none)
    (empty : spool.spooler.memBuffer = []) (unlimited : spool.spooler.maxSize = none) :
    writtenFirst spool chunk = (spoolBlocks chunk).head? := by
  have ceiling := overCeiling_of_unlimited chunk unlimited
  have spills : ¬ (spool.spooler.diskFile = none ∧
      spool.spooler.memBuffer.length + chunk.length ≤ memorySpoolLimit) :=
    fun inMemory => opened inMemory.1
  rw [writtenFirst, ceiling]
  dsimp only
  rw [storedFirst, if_neg spills, empty, show spoolBlocks [] = [] from Chunking.chunks_nil,
    List.nil_append]

/-- The spool after one byte more than fits into memory, whose first block was sealed and not
written. -/
structure TornOnce (aead : Cipher) (after : Spool) : Prop where
  logged : ∃ block : Block, after.sealings = [block] ∧ Uncounted after block ∧
    block.plaintext = sampleChunk.take spoolChunkSize
  first : ∀ chunk, writtenFirst after chunk = (spoolBlocks chunk).head?
  reaches : ∀ data : Bytes, data.length ≤ spoolChunkSize → Reaches aead after data

theorem spoolBlocks_sampleChunk :
    ∃ rest, spoolBlocks sampleChunk = sampleChunk.take spoolChunkSize :: rest := by
  refine ⟨_, Chunking.chunks_of_ne_nil fun empty => ?_⟩
  have length := length_sampleChunk
  rw [empty] at length
  exact absurd length (by decide)

open Reference in
theorem tornOnce :
    TornOnce ChaCha20Poly1305.cipher
      (attempt ChaCha20Poly1305.cipher sampleChunk (start tornHost none)).2 := by
  have seals : ∀ data : Bytes, data.length ≤ spoolChunkSize →
      SealsBlock ChaCha20Poly1305.cipher tornHost.spoolKey 0 data := by
    intro data fits
    obtain ⟨ct, tag, sealed⟩ := (cipher_inverts tornHost.spoolKey).sealsUpTo
      (buildSpoolNonce 0) (buildSpoolAad 0 (UInt32.ofNat data.length)).toList data fits
    exact ⟨(ct, tag), sealed⟩
  have long : memorySpoolLimit < sampleChunk.length := by
    have length := length_sampleChunk
    rw [List.flatten_singleton] at length
    rw [length]
    exact Nat.lt_succ_self _
  obtain ⟨rest, blocks⟩ := spoolBlocks_sampleChunk
  have torn := @attempt_torn ChaCha20Poly1305.cipher (start tornHost none) sampleChunk _ rest 0
    noSpace [] rfl rfl long rfl blocks rfl (seals _ (List.length_take_le _ _))
  generalize (attempt ChaCha20Poly1305.cipher sampleChunk (start tornHost none)).2 = after at *
  obtain ⟨⟨block, nonce_eq, plaintext_eq, sealings_eq⟩, opened, counter, empty, key, unlimited,
    outcomes⟩ := torn
  refine ⟨⟨block, sealings_eq, ⟨?_, ?_⟩, plaintext_eq⟩,
    fun _ => writtenFirst_of_opened opened empty unlimited, fun data fits => ⟨?_, ?_⟩⟩
  · rw [sealings_eq]
    exact List.mem_cons_self
  · rw [nonce_eq, counter]
  · intro outcome member
    rw [outcomes, List.take_nil] at member
    exact absurd member List.not_mem_nil
  · rw [key, counter]
    exact seals data fits

/-- A nonce is used for two plaintexts exactly when a call goes on, with another block, behind
one that was sealed but not written. -/
theorem nonces_never_reused_iff (aead : Cipher) (host : Host) (maxSize : Option UInt64)
    (capacity : host.disk.capacity < 2 ^ 64) (chunks : List Bytes) :
    NeverReused (attempts aead chunks (start host maxSize)).2.sealings ↔
      ResumingRun aead chunks (start host maxSize) := by
  rw [attempts_neverReused_iff chunks (logged_start maxSize capacity), and_iff_right]
  exact fun left member => absurd member List.not_mem_nil

open Reference in
/-- The same chunk a second time, after the first write has failed. -/
theorem nonces_never_reused_iff_sample :
    NeverReused (attempts ChaCha20Poly1305.cipher [sampleChunk, sampleChunk]
      (start tornHost none)).2.sealings := by
  have torn := tornOnce
  refine (nonces_never_reused_iff _ tornHost none (by decide) [sampleChunk, sampleChunk]).mpr
    ⟨?_, ?_, trivial⟩
  · rintro _ _ _ earlier ⟨none, _⟩
    exact absurd none List.not_mem_nil
  · generalize (attempt ChaCha20Poly1305.cipher sampleChunk (start tornHost none)).2 = after at *
    obtain ⟨block, sealings_eq, _, plaintext_eq⟩ := torn.logged
    obtain ⟨rest, blocks⟩ := spoolBlocks_sampleChunk
    rw [torn.first, blocks, List.head?_cons, resumes_some_iff]
    rintro _ earlier ⟨member, _⟩
    rw [sealings_eq] at member
    rw [List.mem_singleton.mp member, plaintext_eq]

open Reference in
/-- Another chunk after the first write has failed: its block is sealed under the same nonce. -/
theorem nonce_reused_after_failed_write :
    ¬ NeverReused (attempts ChaCha20Poly1305.cipher [sampleChunk, [0x01]]
      (start tornHost none)).2.sealings := by
  intro never
  have resuming := ((attempts_neverReused_iff _ (logged_start none (by decide))).mp never).2.2.1
  have torn := tornOnce
  generalize (attempt ChaCha20Poly1305.cipher sampleChunk (start tornHost none)).2 = after at *
  obtain ⟨block, _, uncounted, plaintext_eq⟩ := torn.logged
  have single : spoolBlocks [0x01] = [[0x01]] := by
    rw [spoolBlocks, Chunking.chunks_of_ne_nil (List.cons_ne_nil _ _)]
    exact congrArg _ Chunking.chunks_nil
  rw [torn.first, single, List.head?_cons, resumes_some_iff] at resuming
  have same := resuming (torn.reaches [0x01] (by decide)) block uncounted
  have lengths := congrArg List.length (plaintext_eq.symm.trans same)
  have width := length_sampleChunk
  rw [List.flatten_singleton] at width
  rw [List.length_take, width] at lengths
  exact absurd lengths (by decide)

end Spool

end PipeK1

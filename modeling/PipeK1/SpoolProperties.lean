import PipeK1.Spool
import PipeK1.Library.Numbered

/-!
# What the spool holds

The representation invariant of the spool, kept by every accepted write; what
writing needs of the disk; and the release of a file that reads back as it was
written.
-/

set_option autoImplicit false

namespace PipeK1

namespace Spool

open ByteData ByteReader SealedData Effects Numbering

/-! ## One block -/

def blockBytes (block : Block) : Bytes :=
  (u32Be (UInt32.ofNat block.plaintext.length)).toList ++ block.ciphertext ++ block.tag.toList

/-- The block with this index, as `flush_single_block_to_disk` seals it. -/
structure SealedAs (aead : Cipher) (spoolKey : FixedBytes 32) (index : UInt64)
    (block : Block) : Prop where
  nonce_eq : block.nonce = buildSpoolNonce index
  aad_eq : block.aad = (buildSpoolAad index (UInt32.ofNat block.plaintext.length)).toList
  nonempty : 0 < block.plaintext.length
  fits : block.plaintext.length ≤ spoolChunkSize
  encrypted : aead.encrypt spoolKey block.nonce block.aad block.plaintext =
    .ok (block.ciphertext, block.tag)

theorem buildSpoolNonce_injective {left right : UInt64}
    (same : buildSpoolNonce left = buildSpoolNonce right) : left = right := by
  have lists : (u64Be left).toList ++ (FixedBytes.zeros 4).toList =
      (u64Be right).toList ++ (FixedBytes.zeros 4).toList := congrArg FixedBytes.toList same
  exact u64Be_injective (FixedBytes.ext (List.append_cancel_right lists))

theorem length_blockBytes {aead : Cipher} {spoolKey : FixedBytes 32} {index : UInt64}
    {block : Block} (sealedAs : SealedAs aead spoolKey index block) :
    (blockBytes block).length = block.plaintext.length + 20 := by
  have width := aead.length_encrypt sealedAs.encrypted
  simp only [blockBytes, List.length_append, FixedBytes.length_toList, width]
  omega

/-! ## Frames -/

/-- What no operation changes: key, ceiling, capacity and the way a file reads
back; and the disk's coming outcomes are only used up. -/
structure Continues (before after : Spool) : Prop where
  spoolKey : after.spooler.spoolKey = before.spooler.spoolKey
  maxSize : after.spooler.maxSize = before.spooler.maxSize
  capacity : after.disk.capacity = before.disk.capacity
  readBack : after.disk.readBack = before.disk.readBack
  outcomes : after.disk.outcomes ⊆ before.disk.outcomes

theorem Continues.refl (spool : Spool) : Continues spool spool :=
  ⟨rfl, rfl, rfl, rfl, fun _ member => member⟩

theorem Continues.trans {first second third : Spool} (early : Continues first second)
    (late : Continues second third) : Continues first third where
  spoolKey := late.spoolKey.trans early.spoolKey
  maxSize := late.maxSize.trans early.maxSize
  capacity := late.capacity.trans early.capacity
  readBack := late.readBack.trans early.readBack
  outcomes := fun _ member => early.outcomes (late.outcomes member)

theorem Continues.takes {before after : Spool} (continues : Continues before after)
    {size smaller : Nat} (takes : before.disk.Takes size) (fits : smaller ≤ size) :
    after.disk.Takes smaller where
  done outcome member := takes.done outcome (continues.outcomes member)
  fits := by
    rw [continues.capacity]
    exact Nat.le_trans fits takes.fits

theorem Continues.honest {before after : Spool} (continues : Continues before after)
    (honest : before.disk.Honest) : after.disk.Honest where
  capacity_lt := continues.capacity ▸ honest.capacity_lt
  patient := continues.readBack ▸ honest.patient
  content_readBack := continues.readBack ▸ honest.content_readBack

def file (spool : Spool) : Bytes := spool.spooler.diskFile.getD []

/-! ## Writing one block -/

/-- `bytes` at the end of the file, and nothing else. -/
structure Appended (bytes : Bytes) (before after : Spool) : Prop where
  continues : Continues before after
  sealings_eq : after.sealings = before.sealings
  spooler_eq : after.spooler =
    { before.spooler with diskFile := some (before.file ++ bytes) }
  fits : after.file.length ≤ after.disk.capacity

theorem Appended.file_eq {bytes : Bytes} {before after : Spool}
    (appended : Appended bytes before after) : after.file = before.file ++ bytes := by
  rw [Spool.file, appended.spooler_eq, Option.getD_some]

theorem Appended.trans {left right : Bytes} {first second third : Spool}
    (early : Appended left first second) (late : Appended right second third) :
    Appended (left ++ right) first third where
  continues := early.continues.trans late.continues
  sealings_eq := late.sealings_eq.trans early.sealings_eq
  spooler_eq := by
    rw [late.spooler_eq, early.file_eq, early.spooler_eq, List.append_assoc]
  fits := late.fits

theorem Appended.takes {bytes : Bytes} {before after : Spool}
    (appended : Appended bytes before after) {rest : Nat}
    (takes : before.disk.Takes (before.file.length + (bytes.length + rest))) :
    after.disk.Takes (after.file.length + rest) := by
  refine appended.continues.takes takes ?_
  rw [appended.file_eq, List.length_append]
  omega

/-- A write that failed: a part of its bytes may stand at the end of the file. -/
structure Interrupted (before after : Spool) : Prop where
  continues : Continues before after
  file_eq : ∃ torn, after.file = before.file ++ torn
  spooler_eq : after.spooler = { before.spooler with diskFile := after.spooler.diskFile }
  fits : before.file.length ≤ before.disk.capacity → after.file.length ≤ after.disk.capacity

/-- The next `count` operations succeed, and a file of `size` bytes fits. -/
structure TakesNext (disk : Disk) (count size : Nat) : Prop where
  done : ∀ outcome ∈ disk.outcomes.take count, outcome = .done
  fits : size ≤ disk.capacity

theorem takesNext_of_takes {disk : Disk} {size : Nat} (takes : disk.Takes size) (count : Nat) :
    TakesNext disk count size :=
  ⟨fun outcome member => takes.done outcome (List.mem_of_mem_take member), takes.fits⟩

/-- `count` operations have succeeded and put `size` bytes into the file. -/
structure Spent (count size : Nat) (before after : Spool) : Prop where
  takes : TakesNext before.disk count (before.file.length + size)
  outcomes_eq : after.disk.outcomes = before.disk.outcomes.drop count

theorem nextDone_iff {disk : Disk} :
    disk.outcomes.head?.getD .done = .done ↔ ∀ outcome ∈ disk.outcomes.take 1, outcome = .done := by
  cases disk.outcomes with
  | nil => simp
  | cons first rest => simp

theorem writeAll_ends (bytes : Bytes) (spool : Spool) :
    Ends (fun _ after => Appended bytes spool after ∧ Spent 1 bytes.length spool after)
      (fun _ after => Interrupted spool after ∧
        ¬ TakesNext spool.disk 1 (spool.file.length + bytes.length))
      (writeAll bytes spool) := by
  have frame : ∀ file : Option Bytes, Continues spool
      ⟨{ spool.spooler with diskFile := file },
        { spool.disk with outcomes := spool.disk.outcomes.tail }, spool.sealings⟩ := fun _ =>
    ⟨rfl, rfl, rfl, rfl, List.tail_subset _⟩
  have partly : ∀ written, spool.file.length ≤ spool.disk.capacity →
      (spool.file ++ bytes.take (min written (spool.disk.capacity - spool.file.length))).length ≤
        spool.disk.capacity := by
    intro written room
    rw [List.length_append, List.length_take]
    omega
  simp only [writeAll, nextOutcome, ends_bind, ends_modifyGet, ends_get]
  cases coming : spool.disk.outcomes.head?.getD .done with
  | failed written error =>
      simp only [setFile, ends_bind, ends_modify, ends_throw]
      refine ⟨⟨frame _, ⟨_, rfl⟩, rfl, partly written⟩, fun takes => ?_⟩
      rw [nextDone_iff.mpr takes.done] at coming
      cases coming
  | done =>
      by_cases room : spool.file.length + bytes.length ≤ spool.disk.capacity
      · have room' := room
        unfold file at room'
        simp only [room', ↓reduceIte, setFile, ends_modify]
        refine ⟨⟨frame _, rfl, rfl, ?_⟩, ⟨nextDone_iff.mp coming, room⟩, List.drop_one.symm⟩
        rwa [← List.length_append] at room
      · have room' := room
        unfold file at room'
        simp only [room', ↓reduceIte, setFile, ends_bind, ends_modify, ends_throw]
        refine ⟨⟨frame _, ⟨_, rfl⟩, rfl, fun short => ?_⟩, fun takes => room takes.fits⟩
        have cut := partly (spool.disk.capacity - spool.file.length) short
        rwa [Nat.min_self] at cut

/-- One write and what follows it: `count` operations that put `rest` bytes into the file. -/
theorem writeAll_then {count rest : Nat} {bytes : Bytes} {next : EStateM IoError Spool Unit}
    {post : Spool → Prop} {spool : Spool}
    (continued : ∀ after, Appended bytes spool after →
      Ends (fun _ final => post final ∧ Spent count rest after final)
        (fun _ final => Interrupted after final ∧
          ¬ TakesNext after.disk count (after.file.length + rest)) (next after)) :
    Ends (fun _ final => post final ∧ Spent (1 + count) (bytes.length + rest) spool final)
      (fun _ final => Interrupted spool final ∧
        ¬ TakesNext spool.disk (1 + count) (spool.file.length + (bytes.length + rest)))
      ((writeAll bytes >>= fun _ => next) spool) := by
  rw [ends_bind]
  refine (writeAll_ends bytes spool).mono ?_ ?_
  · rintro _ middle ⟨appended, spent⟩
    have length : middle.file.length + rest =
        spool.file.length + (bytes.length + rest) := by
      rw [appended.file_eq, List.length_append, Nat.add_assoc]
    refine (continued middle appended).mono ?_ ?_
    · rintro _ final ⟨reached, later⟩
      refine ⟨reached, ⟨?_, ?_⟩, ?_⟩
      · intro outcome member
        rw [List.take_add] at member
        rcases List.mem_append.mp member with first | others
        · exact spent.takes.done outcome first
        · rw [← spent.outcomes_eq] at others
          exact later.takes.done outcome others
      · rw [← length, ← appended.continues.capacity]
        exact later.takes.fits
      · rw [later.outcomes_eq, spent.outcomes_eq, List.drop_drop]
    · rintro _ final ⟨interrupted, stuck⟩
      refine ⟨⟨appended.continues.trans interrupted.continues, ?_, ?_, fun _ =>
        interrupted.fits appended.fits⟩, fun takes => stuck ⟨?_, ?_⟩⟩
      · obtain ⟨torn, file_eq⟩ := interrupted.file_eq
        exact ⟨bytes ++ torn, by rw [file_eq, appended.file_eq, List.append_assoc]⟩
      · rw [interrupted.spooler_eq, appended.spooler_eq]
      · intro outcome member
        rw [spent.outcomes_eq] at member
        refine takes.done outcome ?_
        rw [List.take_add]
        exact List.mem_append_right _ member
      · rw [length, appended.continues.capacity]
        exact takes.fits
  · rintro _ final ⟨interrupted, stuck⟩
    refine ⟨interrupted, fun takes => stuck ⟨fun outcome member => takes.done outcome ?_, ?_⟩⟩
    · rw [List.take_add]
      exact List.mem_append_left _ member
    · have fits := takes.fits
      omega

/-- A spooler without a file opens one first. -/
def openings (spool : Spool) : Nat := if spool.spooler.diskFile = none then 1 else 0

theorem ensureFile_ends (spool : Spool) :
    Ends (fun _ after => Continues spool after ∧ after.sealings = spool.sealings ∧
        after.spooler = { spool.spooler with diskFile := some spool.file } ∧
        (∀ outcome ∈ spool.disk.outcomes.take (openings spool), outcome = .done) ∧
        after.disk.outcomes = spool.disk.outcomes.drop (openings spool))
      (fun _ after => Interrupted spool after ∧
        ¬ ∀ outcome ∈ spool.disk.outcomes.take (openings spool), outcome = .done)
      (ensureFile spool) := by
  cases opened : spool.spooler.diskFile with
  | some file =>
      simp only [ensureFile, ends_bind, ends_get, opened, ends_pure, Spool.file, Option.getD_some,
        openings, reduceCtorEq, ↓reduceIte, List.take_zero, List.drop_zero, List.not_mem_nil]
      refine ⟨Continues.refl spool, trivial, ?_, fun _ impossible => impossible.elim, trivial⟩
      rw [← opened]
  | none =>
      simp only [ensureFile, openAnonymousTmpfile, nextOutcome, ends_bind, ends_get, opened,
        ends_modifyGet, Spool.file, Option.getD_none, openings, ↓reduceIte]
      cases coming : spool.disk.outcomes.head?.getD .done with
      | failed written error =>
          simp only [ends_throw]
          refine ⟨⟨⟨rfl, rfl, rfl, rfl, List.tail_subset _⟩, ⟨[], (List.append_nil _).symm⟩, rfl,
            id⟩, fun done => ?_⟩
          rw [nextDone_iff.mpr done] at coming
          cases coming
      | done =>
          simp only [setFile, ends_modify]
          exact ⟨⟨rfl, rfl, rfl, rfl, List.tail_subset _⟩, trivial, trivial,
            nextDone_iff.mp coming, List.drop_one.symm⟩

/-- One block more, sealed under the coming counter and appended to the file. -/
structure Flushed (aead : Cipher) (data : Bytes) (before after : Spool) (block : Block) :
    Prop where
  continues : Continues before after
  plaintext_eq : block.plaintext = data
  sealedAs : SealedAs aead before.spooler.spoolKey before.spooler.blockCounter block
  sealings_eq : after.sealings = before.sealings ++ [block]
  spooler_eq : after.spooler =
    { before.spooler with
      diskFile := some (before.file ++ blockBytes block)
      blockCounter := before.spooler.blockCounter + 1 }
  fits : after.file.length ≤ after.disk.capacity

/-- What the blocks need of the disk. -/
def needed (blocks : List Bytes) : Nat := (blocks.map fun block => block.length + 20).sum

/-- The cipher seals this block under this number. -/
def SealsBlock (aead : Cipher) (spoolKey : FixedBytes 32) (index : UInt64) (data : Bytes) : Prop :=
  ∃ output, aead.encrypt spoolKey (buildSpoolNonce index)
    (buildSpoolAad index (UInt32.ofNat data.length)).toList data = .ok output

/-- Nothing stops the blocks on their way into the file: the cipher seals them, the operations
on the file succeed, and there is room. -/
structure Appendable (aead : Cipher) (spool : Spool) (blocks : List Bytes) : Prop where
  seals : Numbered (SealsBlock aead spool.spooler.spoolKey) spool.spooler.blockCounter blocks
  takes : TakesNext spool.disk (openings spool + 3 * blocks.length)
    (spool.file.length + needed blocks)

/-- A block is appended if and only if nothing stops it. -/
theorem flushSingleBlockToDisk_exact (aead : Cipher) (data : Bytes) (nonempty : 0 < data.length)
    (fits : data.length ≤ spoolChunkSize) (spool : Spool) :
    Ends (fun _ after => (∃ block, Flushed aead data spool after block) ∧
        Appendable aead spool [data] ∧
        after.disk.outcomes = spool.disk.outcomes.drop (openings spool + 3))
      (fun _ after => Interrupted spool after ∧ ¬ Appendable aead spool [data])
      (flushSingleBlockToDisk aead data spool) := by
  rw [flushSingleBlockToDisk, ends_bind]
  refine (ensureFile_ends spool).mono ?_ ?_
  · rintro _ opened ⟨continues, sealings_eq, spooler_eq, done, outcomes_eq⟩
    have file_eq : opened.file = spool.file := by rw [Spool.file, spooler_eq, Option.getD_some]
    have count : 3 * [data].length = 3 := rfl
    have cost : needed [data] = data.length + 20 := rfl
    rw [ends_bind, ends_get, continues.spoolKey,
      show opened.spooler.blockCounter = spool.spooler.blockCounter by rw [spooler_eq]]
    cases encrypted : aead.encrypt spool.spooler.spoolKey
        (buildSpoolNonce spool.spooler.blockCounter)
        (buildSpoolAad spool.spooler.blockCounter (UInt32.ofNat data.length)).toList data with
    | error e =>
        rw [ends_throw]
        refine ⟨⟨continues, ⟨[], by rw [file_eq, List.append_nil]⟩, by rw [spooler_eq], ?_⟩, ?_⟩
        · rw [file_eq, continues.capacity]
          exact id
        · intro appendable
          obtain ⟨_, sealed⟩ := numbered_singleton_iff.mp appendable.seals
          rw [sealed] at encrypted
          cases encrypted
    | ok output =>
        obtain ⟨ct, tag⟩ := output
        have width : ct.length = data.length := aead.length_encrypt encrypted
        rw [ends_bind, logSealing, ends_modify]
        let block : Block := ⟨buildSpoolNonce spool.spooler.blockCounter, (buildSpoolAad
          spool.spooler.blockCounter (UInt32.ofNat data.length)).toList, data, ct, tag⟩
        let logged : Spool := { opened with sealings := opened.sealings ++ [block] }
        have size : (u32Be (UInt32.ofNat data.length)).toList.length +
            (ct.length + (tag.toList.length + 0)) = data.length + 20 := by
          rw [FixedBytes.length_toList, FixedBytes.length_toList, width]
          omega
        have counted : ∀ third : Spool, Appended (blockBytes block) logged third →
            Ends (fun _ final => Flushed aead data spool final block ∧ Spent 0 0 third final)
              (fun _ final => Interrupted third final ∧
                ¬ TakesNext third.disk 0 (third.file.length + 0)) (countBlock third) := by
          intro third whole
          rw [countBlock, ends_modify]
          refine ⟨?_, ⟨fun _ impossible => absurd impossible List.not_mem_nil, whole.fits⟩, rfl⟩
          exact {
            continues := continues.trans ⟨whole.continues.spoolKey, whole.continues.maxSize,
              whole.continues.capacity, whole.continues.readBack, whole.continues.outcomes⟩
            plaintext_eq := rfl
            sealedAs := ⟨rfl, rfl, nonempty, fits, encrypted⟩
            sealings_eq := whole.sealings_eq.trans (congrArg (· ++ [block]) sealings_eq)
            spooler_eq := by
              simp only [whole.spooler_eq, logged, spooler_eq, Spool.file, Option.getD_some]
            fits := whole.fits }
        refine (writeAll_then fun first appended₁ => writeAll_then fun second appended₂ =>
          writeAll_then fun third appended₃ =>
            counted third ((appended₁.trans appended₂).trans appended₃)).mono ?_ ?_
        · rintro _ final ⟨flushed, spent⟩
          refine ⟨⟨block, flushed⟩, ⟨numbered_singleton_iff.mpr ⟨_, encrypted⟩, ?_, ?_⟩, ?_⟩
          · intro outcome member
            rw [count, List.take_add] at member
            rcases List.mem_append.mp member with first | others
            · exact done outcome first
            · rw [← outcomes_eq] at others
              exact spent.takes.done outcome others
          · rw [← file_eq, ← continues.capacity, cost, ← size]
            exact spent.takes.fits
          · exact spent.outcomes_eq.trans
              ((congrArg (List.drop 3) outcomes_eq).trans List.drop_drop)
        · rintro _ final ⟨interrupted, stuck⟩
          refine ⟨⟨continues.trans ⟨interrupted.continues.spoolKey,
            interrupted.continues.maxSize, interrupted.continues.capacity,
            interrupted.continues.readBack, interrupted.continues.outcomes⟩, ?_, ?_, ?_⟩,
            fun appendable => stuck ⟨?_, ?_⟩⟩
          · obtain ⟨torn, torn_eq⟩ := interrupted.file_eq
            exact ⟨torn, torn_eq.trans (congrArg (· ++ torn) file_eq)⟩
          · rw [interrupted.spooler_eq]
            simp only [logged, spooler_eq]
          · intro room
            refine interrupted.fits ?_
            rw [← file_eq, ← continues.capacity] at room
            exact room
          · intro outcome member
            refine appendable.takes.done outcome ?_
            rw [count, List.take_add, ← outcomes_eq]
            exact List.mem_append_right _ member
          · have room := appendable.takes.fits
            rw [cost, ← size, ← file_eq, ← continues.capacity] at room
            exact room
  · rintro _ after ⟨interrupted, stuck⟩
    refine ⟨interrupted, fun appendable => stuck fun outcome member => ?_⟩
    refine appendable.takes.done outcome ?_
    rw [List.take_add]
    exact List.mem_append_left _ member

theorem flushSingleBlockToDisk_ends (aead : Cipher) (data : Bytes) (nonempty : 0 < data.length)
    (fits : data.length ≤ spoolChunkSize) (spool : Spool) :
    Ends (fun _ after => ∃ block, Flushed aead data spool after block)
      (fun _ _ => ¬ (aead.SealsUpTo spool.spooler.spoolKey spoolChunkSize ∧
        spool.disk.Takes (spool.file.length + (data.length + 20))))
      (flushSingleBlockToDisk aead data spool) := by
  refine (flushSingleBlockToDisk_exact aead data nonempty fits spool).mono
    (fun _ _ appended => appended.1) ?_
  rintro _ _ ⟨_, stuck⟩ ⟨capable, takes⟩
  obtain ⟨ct, tag, sealed⟩ := capable (buildSpoolNonce spool.spooler.blockCounter)
    (buildSpoolAad spool.spooler.blockCounter (UInt32.ofNat data.length)).toList data fits
  exact stuck ⟨numbered_singleton_iff.mpr ⟨(ct, tag), sealed⟩, takesNext_of_takes takes _⟩

/-! ## The representation -/

/-- The plaintexts of the sealed blocks. -/
def plaintexts (spool : Spool) : List Bytes := spool.sealings.map Sealing.plaintext

/-- The file is the sealed blocks, numbered from zero. -/
structure OnDisk (aead : Cipher) (spool : Spool) : Prop where
  sealedAs : Numbered (SealedAs aead spool.spooler.spoolKey) 0 spool.sealings
  counter : spool.spooler.blockCounter = UInt64.ofNat spool.sealings.length
  file_eq : spool.file = spool.sealings.flatMap blockBytes
  fits : spool.file.length ≤ spool.disk.capacity

/-- What the spooler has taken so far is the blocks followed by the memory buffer. -/
structure Holds (aead : Cipher) (spool : Spool) (written : Bytes) : Prop where
  onDisk : OnDisk aead spool
  stored : spool.plaintexts.flatten ++ spool.spooler.memBuffer = written
  separate : spool.spooler.diskFile ≠ none → spool.spooler.memBuffer = []
  bounded : spool.spooler.memBuffer.length ≤ memorySpoolLimit
  total : spool.spooler.totalBytes = UInt64.ofNat written.length

theorem holds_start (aead : Cipher) (host : Host) (maxSize : Option UInt64) :
    Holds aead (start host maxSize) [] where
  onDisk := {
    sealedAs := numbered_nil
    counter := rfl
    file_eq := rfl
    fits := Nat.zero_le _ }
  stored := rfl
  separate := fun opened => absurd rfl opened
  bounded := Nat.zero_le _
  total := rfl

theorem OnDisk.bounds {aead : Cipher} {spool : Spool} (onDisk : OnDisk aead spool) :
    ∀ block ∈ spool.sealings,
      (blockBytes block).length = block.plaintext.length + 20 ∧ 0 < block.plaintext.length := by
  intro block member
  obtain ⟨_, sealedAs⟩ := onDisk.sealedAs.exists_of_mem member
  exact ⟨length_blockBytes sealedAs, sealedAs.nonempty⟩

theorem length_flatMap_blockBytes {blocks : List Block}
    (bounds : ∀ block ∈ blocks,
      (blockBytes block).length = block.plaintext.length + 20 ∧ 0 < block.plaintext.length) :
    (blocks.map Sealing.plaintext).flatten.length + 20 * blocks.length =
        (blocks.flatMap blockBytes).length ∧
      blocks.length ≤ (blocks.map Sealing.plaintext).flatten.length := by
  induction blocks with
  | nil => exact ⟨rfl, Nat.le_refl _⟩
  | cons block blocks ih =>
      obtain ⟨sum, count⟩ := ih fun other member => bounds other (List.mem_cons_of_mem _ member)
      obtain ⟨width, nonempty⟩ := bounds block List.mem_cons_self
      simp only [List.flatMap_cons, List.map_cons, List.flatten_cons, List.length_append,
        List.length_cons, width]
      omega

/-- The file's length, and that every block holds at least one byte. -/
theorem OnDisk.length_file {aead : Cipher} {spool : Spool} (onDisk : OnDisk aead spool) :
    spool.plaintexts.flatten.length + 20 * spool.sealings.length = spool.file.length ∧
      spool.sealings.length ≤ spool.plaintexts.flatten.length := by
  rw [onDisk.file_eq]
  exact length_flatMap_blockBytes onDisk.bounds

theorem OnDisk.flushed {aead : Cipher} {data : Bytes} {before after : Spool} {block : Block}
    (onDisk : OnDisk aead before) (flushed : Flushed aead data before after block) :
    OnDisk aead after ∧ after.plaintexts = before.plaintexts ++ [data] ∧
      after.file.length = before.file.length + (data.length + 20) := by
  have file_eq : after.file = before.file ++ blockBytes block := by
    rw [Spool.file, flushed.spooler_eq, Option.getD_some]
  refine ⟨⟨?_, ?_, ?_, flushed.fits⟩, ?_, ?_⟩
  · rw [flushed.continues.spoolKey, flushed.sealings_eq]
    refine onDisk.sealedAs.concat ?_
    rw [UInt64.zero_add, ← onDisk.counter]
    exact flushed.sealedAs
  · rw [flushed.spooler_eq, flushed.sealings_eq, List.length_append, List.length_singleton]
    simp only [onDisk.counter]
    rw [UInt64.ofNat_add]
    rfl
  · rw [file_eq, onDisk.file_eq, flushed.sealings_eq, List.flatMap_append]
    simp
  · rw [plaintexts, flushed.sealings_eq, List.map_append, plaintexts]
    simp [flushed.plaintext_eq]
  · rw [file_eq, List.length_append, length_blockBytes flushed.sealedAs, flushed.plaintext_eq]

theorem needed_le {blocks : List Bytes} (nonempty : ∀ block ∈ blocks, 0 < block.length) :
    needed blocks ≤ 21 * blocks.flatten.length := by
  induction blocks with
  | nil => exact Nat.le_refl _
  | cons block blocks ih =>
      have later := ih fun other member => nonempty other (List.mem_cons_of_mem _ member)
      have here := nonempty block List.mem_cons_self
      simp only [needed, List.map_cons, List.sum_cons, List.flatten_cons,
        List.length_append] at later ⊢
      omega

/-- Blocks are appended in order; memory, totals and ceiling stay. -/
structure Extended (aead : Cipher) (blocks : List Bytes) (before after : Spool) : Prop where
  onDisk : OnDisk aead after
  continues : Continues before after
  plaintexts_eq : after.plaintexts = before.plaintexts ++ blocks
  length_file : after.file.length = before.file.length + needed blocks
  memBuffer_eq : after.spooler.memBuffer = before.spooler.memBuffer
  totalBytes_eq : after.spooler.totalBytes = before.spooler.totalBytes

theorem flushBlocks_ends (aead : Cipher) (context : String) (blocks : List Bytes)
    (bounds : ∀ block ∈ blocks, 0 < block.length ∧ block.length ≤ spoolChunkSize)
    (spool : Spool) (onDisk : OnDisk aead spool) :
    Ends (fun _ after => Extended aead blocks spool after)
      (fun _ _ => ¬ (aead.SealsUpTo spool.spooler.spoolKey spoolChunkSize ∧
        spool.disk.Takes (spool.file.length + needed blocks)))
      (flushBlocks aead context blocks spool) := by
  induction blocks generalizing spool with
  | nil =>
      rw [flushBlocks, ends_pure]
      exact ⟨onDisk, Continues.refl spool, (List.append_nil _).symm, rfl, rfl, rfl⟩
  | cons block blocks ih =>
      obtain ⟨nonempty, fits⟩ := bounds block List.mem_cons_self
      have cost : needed (block :: blocks) = block.length + 20 + needed blocks := rfl
      rw [flushBlocks, ends_bind, ends_adaptExcept]
      refine (flushSingleBlockToDisk_ends aead block nonempty fits spool).mono ?_ ?_
      · rintro _ middle ⟨sealing, flushed⟩
        obtain ⟨onDisk', plaintexts_eq, length_file⟩ := onDisk.flushed flushed
        have later := ih (fun other member => bounds other (List.mem_cons_of_mem _ member))
          middle onDisk'
        refine later.mono ?_ ?_
        · intro _ after extended
          exact {
            onDisk := extended.onDisk
            continues := flushed.continues.trans extended.continues
            plaintexts_eq := by
              rw [extended.plaintexts_eq, plaintexts_eq, List.append_assoc]
              rfl
            length_file := by
              rw [extended.length_file, length_file, cost]
              omega
            memBuffer_eq := by rw [extended.memBuffer_eq, flushed.spooler_eq]
            totalBytes_eq := by rw [extended.totalBytes_eq, flushed.spooler_eq] }
        · rintro _ _ stuck ⟨capable, takes⟩
          refine stuck ⟨flushed.continues.spoolKey ▸ capable, flushed.continues.takes takes ?_⟩
          rw [length_file, cost]
          omega
      · rintro _ _ stuck ⟨capable, takes⟩
        refine stuck ⟨capable, (Continues.refl spool).takes takes ?_⟩
        rw [cost]
        omega

theorem spoolBlocks_bounds {bytes block : Bytes} (member : block ∈ spoolBlocks bytes) :
    0 < block.length ∧ block.length ≤ spoolChunkSize :=
  Chunking.chunks_bounds member

private theorem needed_spoolBlocks (bytes : Bytes) :
    needed (spoolBlocks bytes) ≤ 21 * bytes.length := by
  have bound := needed_le fun block member => (@spoolBlocks_bounds bytes block member).1
  rwa [spoolBlocks, Chunking.flatten_chunks] at bound

/-! ## Writing one chunk -/

/-- The total once `chunk` is counted, before it is stored anywhere. -/
structure Counted (aead : Cipher) (spool : Spool) (written chunk : Bytes) : Prop where
  onDisk : OnDisk aead spool
  stored : spool.plaintexts.flatten ++ spool.spooler.memBuffer = written
  separate : spool.spooler.diskFile ≠ none → spool.spooler.memBuffer = []
  bounded : spool.spooler.memBuffer.length ≤ memorySpoolLimit
  total : spool.spooler.totalBytes = UInt64.ofNat (written ++ chunk).length

theorem OnDisk.length_file_le {aead : Cipher} {spool : Spool} (onDisk : OnDisk aead spool) :
    spool.file.length ≤ 21 * spool.plaintexts.flatten.length := by
  obtain ⟨sum, count⟩ := onDisk.length_file
  omega

theorem storeChunk_ends (aead : Cipher) (chunk written : Bytes) (spool : Spool)
    (counted : Counted aead spool written chunk) :
    Ends (fun _ after => Holds aead after (written ++ chunk) ∧ Continues spool after)
      (fun _ _ => ¬ (aead.SealsUpTo spool.spooler.spoolKey spoolChunkSize ∧
        spool.disk.Takes (21 * (written ++ chunk).length)))
      (storeChunk aead chunk spool) := by
  rw [storeChunk, ends_bind, ends_get]
  split
  · next inMemory =>
      rw [ends_set]
      obtain ⟨unopened, room⟩ := inMemory
      refine ⟨⟨⟨counted.onDisk.sealedAs, counted.onDisk.counter, counted.onDisk.file_eq,
        counted.onDisk.fits⟩, ?_, fun opened => absurd unopened opened, ?_, counted.total⟩,
        ⟨rfl, rfl, rfl, rfl, fun _ member => member⟩⟩
      · rw [← counted.stored, List.append_assoc]
        rfl
      · simpa only [List.length_append] using room
  · rw [ends_bind, takeMemory, ends_modifyGet, ends_bind]
    have emptied : OnDisk aead { spool with spooler := { spool.spooler with memBuffer := [] } } :=
      ⟨counted.onDisk.sealedAs, counted.onDisk.counter, counted.onDisk.file_eq,
        counted.onDisk.fits⟩
    have fileRoom := counted.onDisk.length_file_le
    have memRoom := needed_spoolBlocks spool.spooler.memBuffer
    have chunkRoom := needed_spoolBlocks chunk
    have split_length : written.length =
        spool.plaintexts.flatten.length + spool.spooler.memBuffer.length := by
      rw [← counted.stored, List.length_append]
    have whole : 21 * (written ++ chunk).length = 21 * spool.plaintexts.flatten.length +
        21 * spool.spooler.memBuffer.length + 21 * chunk.length := by
      rw [List.length_append]
      omega
    refine (flushBlocks_ends aead _ _ (fun _ => spoolBlocks_bounds) _ emptied).mono ?_ ?_
    · intro _ spilled spill
      have spill_plaintexts : spilled.plaintexts.flatten = written := by
        rw [spill.plaintexts_eq, List.flatten_append, spoolBlocks, Chunking.flatten_chunks,
          ← counted.stored]
        rfl
      have spill_length : spilled.file.length =
          spool.file.length + needed (spoolBlocks spool.spooler.memBuffer) := spill.length_file
      refine (flushBlocks_ends aead _ _ (fun _ => spoolBlocks_bounds) spilled spill.onDisk).mono
        ?_ ?_
      · intro _ after flush
        have emptyMemory : after.spooler.memBuffer = [] :=
          flush.memBuffer_eq.trans spill.memBuffer_eq
        have continues : Continues spool after := by
          have frame := spill.continues.trans flush.continues
          exact ⟨frame.spoolKey, frame.maxSize, frame.capacity, frame.readBack, frame.outcomes⟩
        refine ⟨⟨flush.onDisk, ?_, fun _ => emptyMemory, ?_, ?_⟩, continues⟩
        · rw [emptyMemory, List.append_nil, flush.plaintexts_eq, List.flatten_append,
            spill_plaintexts, spoolBlocks, Chunking.flatten_chunks]
        · rw [emptyMemory]
          exact Nat.zero_le _
        · rw [flush.totalBytes_eq, spill.totalBytes_eq]
          exact counted.total
      · rintro _ _ stuck ⟨capable, takes⟩
        refine stuck ⟨spill.continues.spoolKey ▸ capable, spill.continues.takes takes ?_⟩
        omega
    · rintro _ _ stuck ⟨capable, takes⟩
      refine stuck ⟨capable, ?_⟩
      refine (Continues.refl spool).takes takes ?_
      change spool.file.length + needed (spoolBlocks spool.spooler.memBuffer) ≤ _
      omega

/-- The spool once the chunk's length is added to the total. -/
def counted (spool : Spool) (chunk : Bytes) : Spool :=
  { spool with spooler :=
    { spool.spooler with totalBytes := spool.spooler.totalBytes + UInt64.ofNat chunk.length } }

/-- A call beyond the ceiling has only counted its bytes. -/
theorem writeChunk_of_beyond (aead : Cipher) {spool : Spool} {chunk : Bytes} {max : UInt64}
    (beyond : overCeiling (counted spool chunk).spooler = some max) :
    writeChunk aead chunk spool =
      .error ("Stream exceeded maximum allowed size ceiling (" ++ toString max.toNat ++ " bytes)")
        (counted spool chunk) := by
  rw [writeChunk, bind_of_ok (show countBytes chunk.length spool = .ok () (counted spool chunk) from
    rfl), bind_of_ok (show (get : EStateM String Spool Spool) _ = .ok _ _ from rfl)]
  rw [beyond]
  rfl

/-- A call within the ceiling stores its bytes. -/
theorem writeChunk_of_within (aead : Cipher) {spool : Spool} {chunk : Bytes}
    (within : overCeiling (counted spool chunk).spooler = none) :
    writeChunk aead chunk spool = storeChunk aead chunk (counted spool chunk) := by
  rw [writeChunk, bind_of_ok (show countBytes chunk.length spool = .ok () (counted spool chunk) from
    rfl), bind_of_ok (show (get : EStateM String Spool Spool) _ = .ok _ _ from rfl)]
  rw [within]

theorem overCeiling_of_unlimited {spool : Spool} (chunk : Bytes)
    (unlimited : spool.spooler.maxSize = none) :
    overCeiling (counted spool chunk).spooler = none := by
  simp only [overCeiling, counted, unlimited, Option.filter_none]

theorem Continues.of_counted {spool after : Spool} {chunk : Bytes}
    (continues : Continues (counted spool chunk) after) : Continues spool after :=
  ⟨continues.spoolKey, continues.maxSize, continues.capacity, continues.readBack,
    continues.outcomes⟩

/-- An accepted chunk is at the end of what the spool holds, and the total is within
the ceiling; a refused one was over the ceiling or the disk did not take it. -/
theorem writeChunk_ends (aead : Cipher) (chunk written : Bytes) (spool : Spool)
    (holds : Holds aead spool written) :
    Ends (fun _ after => Holds aead after (written ++ chunk) ∧ Continues spool after ∧
        ∀ max, spool.spooler.maxSize = some max → UInt64.ofNat (written ++ chunk).length ≤ max)
      (fun _ _ =>
        (∃ max, spool.spooler.maxSize = some max ∧
          max < UInt64.ofNat (written ++ chunk).length) ∨
        ¬ (aead.SealsUpTo spool.spooler.spoolKey spoolChunkSize ∧
          spool.disk.Takes (21 * (written ++ chunk).length)))
      (writeChunk aead chunk spool) := by
  have total : spool.spooler.totalBytes + UInt64.ofNat chunk.length =
      UInt64.ofNat (written ++ chunk).length := by
    rw [holds.total, List.length_append, UInt64.ofNat_add]
  have storing := storeChunk_ends aead chunk written (counted spool chunk)
    ⟨⟨holds.onDisk.sealedAs, holds.onDisk.counter, holds.onDisk.file_eq, holds.onDisk.fits⟩,
      holds.stored, holds.separate, holds.bounded, total⟩
  cases ceiling : overCeiling (counted spool chunk).spooler with
  | none =>
      rw [writeChunk_of_within aead ceiling]
      refine storing.mono ?_ (fun _ _ stuck => Or.inr stuck)
      rintro _ after ⟨stored, continues⟩
      refine ⟨stored, continues.of_counted, fun max limited => ?_⟩
      have within := Option.filter_eq_none_iff.mp ceiling max limited
      rw [decide_eq_true_eq, UInt64.not_lt] at within
      exact total ▸ within
  | some max =>
      rw [writeChunk_of_beyond aead ceiling]
      obtain ⟨limited, beyond⟩ := Option.filter_eq_some_iff.mp ceiling
      exact Or.inl ⟨max, limited, total ▸ of_decide_eq_true beyond⟩

/-- One call after the other, as far as they are accepted. -/
def writeChunks (aead : Cipher) : List Bytes → EStateM String Spool Unit
  | [] => pure ()
  | chunk :: chunks => do
      writeChunk aead chunk
      writeChunks aead chunks

theorem writeChunks_ends (aead : Cipher) (chunks : List Bytes) (written : Bytes) (spool : Spool)
    (holds : Holds aead spool written) :
    Ends (fun _ after => Holds aead after (written ++ chunks.flatten) ∧ Continues spool after)
      (fun _ _ => spool.spooler.maxSize ≠ none ∨
        ¬ (aead.SealsUpTo spool.spooler.spoolKey spoolChunkSize ∧
          spool.disk.Takes (21 * (written ++ chunks.flatten).length)))
      (writeChunks aead chunks spool) := by
  induction chunks generalizing written spool with
  | nil =>
      rw [writeChunks, ends_pure, List.flatten_nil, List.append_nil]
      exact ⟨holds, Continues.refl spool⟩
  | cons chunk chunks ih =>
      have whole : written ++ (chunk :: chunks).flatten =
          (written ++ chunk) ++ chunks.flatten := by
        rw [List.flatten_cons, List.append_assoc]
      rw [writeChunks, ends_bind, whole]
      refine (writeChunk_ends aead chunk written spool holds).mono ?_ ?_
      · rintro _ middle ⟨holds', continues, _⟩
        refine (ih (written ++ chunk) middle holds').mono ?_ ?_
        · rintro _ after ⟨holds'', continues'⟩
          exact ⟨holds'', continues.trans continues'⟩
        · rintro _ _ (limited | stuck)
          · exact .inl (continues.maxSize ▸ limited)
          · refine .inr fun room => stuck ⟨continues.spoolKey ▸ room.1, ?_⟩
            exact continues.takes room.2 (Nat.le_refl _)
      · rintro _ _ (⟨max, limited, _⟩ | stuck)
        · exact .inl (by rw [limited]; exact Option.some_ne_none max)
        · refine .inr fun room => stuck ⟨room.1, (Continues.refl spool).takes room.2 ?_⟩
          rw [@List.length_append _ (written ++ chunk)]
          omega

end Spool

end PipeK1

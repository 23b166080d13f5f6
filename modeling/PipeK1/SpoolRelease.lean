import PipeK1.SpoolProperties

/-!
# Releasing what the spool holds

What `release_to` emits for whatever the temporary file holds: the blocks that
verify, in order, up to the first that does not. On a file that reads back as
it was written these are all blocks.
-/

set_option autoImplicit false

namespace PipeK1

namespace Spool

open ByteData ByteReader SealedData Effects Numbering

/-- The block with this index, as `release_to` accepts it. -/
structure OpensAs (aead : Cipher) (spoolKey : FixedBytes 32) (index : UInt64)
    (block : Block) : Prop where
  nonce_eq : block.nonce = buildSpoolNonce index
  aad_eq : block.aad = (buildSpoolAad index (UInt32.ofNat block.plaintext.length)).toList
  nonempty : 0 < block.plaintext.length
  fits : block.plaintext.length ≤ spoolChunkSize
  decrypted : aead.decrypt spoolKey block.nonce block.aad block.ciphertext block.tag =
    .ok block.plaintext

theorem SealedAs.opensAs {aead : Cipher} {spoolKey : FixedBytes 32} {index : UInt64}
    {block : Block} (sealedAs : SealedAs aead spoolKey index block)
    (inverts : aead.Inverts spoolKey spoolChunkSize) : OpensAs aead spoolKey index block :=
  ⟨sealedAs.nonce_eq, sealedAs.aad_eq, sealedAs.nonempty, sealedAs.fits,
    inverts.decrypt_encrypt sealedAs.fits sealedAs.encrypted⟩

/-- Consecutive blocks from `index` on. -/
abbrev OpenFrom (aead : Cipher) (spoolKey : FixedBytes 32) (index : UInt64)
    (blocks : List Block) : Prop :=
  Numbered (OpensAs aead spoolKey) index blocks

/-- The file starts with this many blocks that verify under the indices from 0 on. -/
def Verifies (aead : Cipher) (spoolKey : FixedBytes 32) (count : Nat) (file : Bytes) : Prop :=
  ∃ blocks rest, blocks.length = count ∧ file = blocks.flatMap blockBytes ++ rest ∧
    OpenFrom aead spoolKey 0 blocks

/-! ## Reading one block -/

theorem readFile_of_readExact {width : Nat} {release : Release} {buffer : FixedBytes width}
    {rest : Reader} (reading : readExact width release.file = (.ok buffer, rest)) :
    readFile width release = .ok buffer ⟨rest, release.out⟩ := by
  rw [readFile, reading]

theorem readFile_ends (width : Nat) (release : Release) :
    Ends (fun buffer after => content release.file = buffer.toList ++ content after.file ∧
        after.out = release.out)
      (fun _ after => after.out = release.out) (readFile width release) := by
  unfold readFile
  cases reading : readExact width release.file with
  | mk outcome rest =>
      cases outcome with
      | error error => rfl
      | ok buffer => exact ⟨readExact_ok_content reading, rfl⟩

theorem openBlock_ends (aead : Cipher) (spoolKey : FixedBytes 32) (index : UInt64)
    (release : Release) :
    Ends (fun plaintext after => ∃ block, block.plaintext = plaintext ∧
        OpensAs aead spoolKey index block ∧
        content release.file = blockBytes block ++ content after.file ∧
        after.out = release.out)
      (fun _ after => after.out = release.out) (openBlock aead spoolKey index release) := by
  rw [openBlock, ends_bind]
  refine (readFile_ends 4 release).mono ?_ (fun _ _ same => same)
  rintro lenBytes first ⟨content₁, out₁⟩
  split
  · exact out₁
  · next framed =>
      rw [ends_bind]
      refine (readFile_ends _ first).mono ?_ (fun _ _ same => same.trans out₁)
      rintro ct second ⟨content₂, out₂⟩
      rw [ends_bind]
      refine (readFile_ends _ second).mono ?_ (fun _ _ same => same.trans (out₂.trans out₁))
      rintro tag third ⟨content₃, out₃⟩
      cases opened : aead.decrypt spoolKey (buildSpoolNonce index)
          (buildSpoolAad index (UInt32.ofNat (u32FromBe lenBytes).toNat)).toList ct.toList tag with
      | error _ => exact out₃.trans (out₂.trans out₁)
      | ok plaintext =>
          have width : plaintext.length = (u32FromBe lenBytes).toNat := by
            rw [aead.length_decrypt opened, ct.length_toList]
          have lenField : u32Be (UInt32.ofNat plaintext.length) = lenBytes := by
            rw [width, UInt32.ofNat_toNat, u32Be_u32FromBe]
          refine ⟨⟨buildSpoolNonce index, (buildSpoolAad index (UInt32.ofNat
            (u32FromBe lenBytes).toNat)).toList, plaintext, ct.toList, tag⟩, rfl,
            ⟨rfl, ?_, ?_, ?_, opened⟩, ?_, out₃.trans (out₂.trans out₁)⟩
          · rw [width]
          · change 0 < plaintext.length
            omega
          · change plaintext.length ≤ _
            omega
          · rw [blockBytes, lenField, content₁, content₂, content₃]
            simp only [List.append_assoc]

/-- A block that verifies is read whatever pieces the file comes in. -/
theorem openBlock_of_opensAs {aead : Cipher} {spoolKey : FixedBytes 32} {index : UInt64}
    {block : Block} (opens : OpensAs aead spoolKey index block) {release : Release}
    (patient : Patient release.file) {later : Bytes}
    (upcoming : content release.file = blockBytes block ++ later) :
    ∃ rest, openBlock aead spoolKey index release = .ok block.plaintext ⟨rest, release.out⟩ ∧
      Patient rest ∧ content rest = later := by
  have fits := opens.fits
  have nonempty := opens.nonempty
  have width : block.ciphertext.length = block.plaintext.length :=
    (aead.length_decrypt opens.decrypted).symm
  have small : block.plaintext.length < 2 ^ 32 := Nat.lt_of_le_of_lt fits (by decide)
  have lenNat : (UInt32.ofNat block.plaintext.length).toNat = block.plaintext.length :=
    UInt32.toNat_ofNat_of_lt' small
  obtain ⟨file₁, read₁, content₁, patient₁, _⟩ := readExact_patient patient
    (u32Be (UInt32.ofNat block.plaintext.length)) (block.ciphertext ++ (block.tag.toList ++ later))
    (by rw [upcoming, blockBytes]; simp only [List.append_assoc])
  have lenRead : (u32FromBe (u32Be (UInt32.ofNat block.plaintext.length))).toNat =
      block.plaintext.length := by
    rw [u32FromBe_u32Be, lenNat]
  obtain ⟨file₂, read₂, content₂, patient₂, _⟩ := readExact_patient patient₁
    (⟨block.ciphertext, width.trans lenRead.symm⟩ : FixedBytes (u32FromBe (u32Be
      (UInt32.ofNat block.plaintext.length))).toNat) (block.tag.toList ++ later) content₁
  obtain ⟨file₃, read₃, content₃, patient₃, _⟩ := readExact_patient patient₂ block.tag later
    content₂
  refine ⟨file₃, ?_, patient₃, content₃⟩
  have framed : ¬ ((u32FromBe (u32Be (UInt32.ofNat block.plaintext.length))).toNat >
      spoolChunkSize ∨ (u32FromBe (u32Be (UInt32.ofNat block.plaintext.length))).toNat = 0) := by
    rw [lenRead]
    omega
  have decrypted := opens.decrypted
  rw [opens.nonce_eq, opens.aad_eq] at decrypted
  rw [openBlock, bind_of_ok (readFile_of_readExact read₁)]
  simp only [framed, ↓reduceIte]
  rw [bind_of_ok (readFile_of_readExact read₂), bind_of_ok (readFile_of_readExact read₃)]
  simp only [lenRead, decrypted]
  rfl

/-! ## Reading all blocks -/

/-- Whatever the file holds, the output is the plaintext of verified blocks, all of
them or fewer when the release failed. -/
theorem releaseBlocks_ends (aead : Cipher) (spoolKey : FixedBytes 32) (remaining : Nat)
    (index : UInt64) (release : Release) :
    Ends (fun _ after => ∃ blocks, blocks.length = remaining ∧
        OpenFrom aead spoolKey index blocks ∧
        content release.file = blocks.flatMap blockBytes ++ content after.file ∧
        after.out = release.out ++ (blocks.map Sealing.plaintext).flatten)
      (fun _ after => ∃ blocks later, blocks.length < remaining ∧
        OpenFrom aead spoolKey index blocks ∧
        content release.file = blocks.flatMap blockBytes ++ later ∧
        after.out = release.out ++ (blocks.map Sealing.plaintext).flatten)
      (releaseBlocks aead spoolKey remaining index release) := by
  induction remaining generalizing index release with
  | zero =>
      rw [releaseBlocks, ends_pure]
      exact ⟨[], rfl, numbered_nil, rfl, (List.append_nil _).symm⟩
  | succ remaining ih =>
      rw [releaseBlocks, ends_bind]
      refine (openBlock_ends aead spoolKey index release).mono ?_ ?_
      · rintro _ opened ⟨block, rfl, opens, content_eq, out_eq⟩
        rw [ends_bind, emit, ends_modify]
        refine (ih (index + 1) ⟨opened.file, opened.out ++ block.plaintext⟩).mono ?_ ?_
        · rintro _ after ⟨blocks, count, opensLater, content_later, out_later⟩
          refine ⟨block :: blocks, by rw [List.length_cons, count],
            numbered_cons_iff.mpr ⟨opens, opensLater⟩, ?_, ?_⟩
          · rw [content_eq, content_later, List.flatMap_cons, List.append_assoc]
          · rw [out_later, out_eq, List.map_cons, List.flatten_cons, List.append_assoc]
        · rintro _ after ⟨blocks, later, count, opensLater, content_later, out_later⟩
          refine ⟨block :: blocks, later, by rw [List.length_cons]; omega,
            numbered_cons_iff.mpr ⟨opens, opensLater⟩, ?_, ?_⟩
          · rw [content_eq, content_later, List.flatMap_cons, List.append_assoc]
          · rw [out_later, out_eq, List.map_cons, List.flatten_cons, List.append_assoc]
      · intro _ after out_eq
        exact ⟨[], _, Nat.succ_pos _, numbered_nil, rfl,
          by rw [out_eq]; exact (List.append_nil _).symm⟩

/-- Blocks that verify are released one after the other. -/
theorem releaseBlocks_of_openFrom {aead : Cipher} {spoolKey : FixedBytes 32} {index : UInt64}
    {blocks : List Block} (opens : OpenFrom aead spoolKey index blocks) (remaining : Nat)
    {release : Release} (patient : Patient release.file) {later : Bytes}
    (upcoming : content release.file = blocks.flatMap blockBytes ++ later) :
    ∃ rest, Patient rest ∧ content rest = later ∧
      releaseBlocks aead spoolKey (blocks.length + remaining) index release =
        releaseBlocks aead spoolKey remaining (index + UInt64.ofNat blocks.length)
          ⟨rest, release.out ++ (blocks.map Sealing.plaintext).flatten⟩ := by
  induction blocks generalizing index release with
  | nil =>
      refine ⟨release.file, patient, upcoming, ?_⟩
      simp
  | cons block blocks ih =>
      obtain ⟨opensFirst, opensLater⟩ := numbered_cons_iff.mp opens
      rw [List.flatMap_cons, List.append_assoc] at upcoming
      obtain ⟨rest, opened, patient', content_rest⟩ :=
        openBlock_of_opensAs opensFirst patient upcoming
      obtain ⟨final, patient_final, content_final, released⟩ :=
        @ih _ opensLater ⟨rest, release.out ++ block.plaintext⟩ patient' content_rest
      refine ⟨final, patient_final, content_final, ?_⟩
      rw [List.length_cons, Nat.succ_add, releaseBlocks, bind_of_ok opened]
      change releaseBlocks aead spoolKey (blocks.length + remaining) (index + 1)
        ⟨rest, release.out ++ block.plaintext⟩ = _
      rw [released, add_ofNat_succ, List.map_cons, List.flatten_cons, List.append_assoc]

/-! ## Releasing the spool -/

/-- Before the spill everything is in memory. -/
theorem Holds.memBuffer_eq {aead : Cipher} {spool : Spool} {written : Bytes}
    (holds : Holds aead spool written) (unopened : spool.spooler.diskFile = none) :
    spool.spooler.memBuffer = written := by
  have empty : spool.file = [] := by rw [Spool.file, unopened, Option.getD_none]
  obtain ⟨sum, _⟩ := holds.onDisk.length_file
  rw [empty, List.length_nil] at sum
  have noBlocks : spool.sealings = [] := List.length_eq_zero_iff.mp (by omega)
  have stored := holds.stored
  rwa [plaintexts, noBlocks] at stored

/-- What is written through a spool is shorter than the longest file. -/
theorem Holds.length_lt {aead : Cipher} {spool : Spool} {written : Bytes}
    (holds : Holds aead spool written) (capacity : spool.disk.capacity < 2 ^ 64) :
    written.length < 2 ^ 64 := by
  cases opened : spool.spooler.diskFile with
  | none =>
      have bounded := holds.bounded
      rw [holds.memBuffer_eq opened] at bounded
      exact Nat.lt_of_le_of_lt bounded (by decide)
  | some file =>
      have stored := congrArg List.length holds.stored
      rw [holds.separate (by rw [opened]; exact Option.some_ne_none file), List.append_nil]
        at stored
      obtain ⟨sum, _⟩ := holds.onDisk.length_file
      have fits := holds.onDisk.fits
      omega

/-- A file that reads back as it was written releases everything. -/
theorem releaseTo_of_holds {aead : Cipher} {spool : Spool} {written : Bytes}
    (holds : Holds aead spool written)
    (inverts : aead.Inverts spool.spooler.spoolKey spoolChunkSize)
    (honest : spool.disk.Honest) :
    ∃ rest, releaseTo aead spool.spooler (spool.disk.readBack spool.file) =
      .ok () ⟨rest, written⟩ := by
  cases opened : spool.spooler.diskFile with
  | none =>
      refine ⟨spool.disk.readBack spool.file, ?_⟩
      rw [releaseTo, opened, ← holds.memBuffer_eq opened]
  | some file =>
      have memory := holds.separate (by rw [opened]; exact Option.some_ne_none file)
      have stored := holds.stored
      rw [memory, List.append_nil] at stored
      have few : spool.sealings.length < 2 ^ 64 := by
        obtain ⟨sum, nonempty⟩ := holds.onDisk.length_file
        have fits := holds.onDisk.fits
        have capacity := honest.capacity_lt
        omega
      have counter : spool.spooler.blockCounter.toNat = spool.sealings.length := by
        rw [holds.onDisk.counter, UInt64.toNat_ofNat_of_lt' few]
      have opens : OpenFrom aead spool.spooler.spoolKey 0 spool.sealings := by
        exact holds.onDisk.sealedAs.mono fun _ _ _ sealedAs => sealedAs.opensAs inverts
      obtain ⟨rest, _, _, released⟩ := @releaseBlocks_of_openFrom aead _ 0 spool.sealings opens 0
        ⟨spool.disk.readBack spool.file, []⟩ (honest.patient _) []
        (by rw [honest.content_readBack, holds.onDisk.file_eq, List.append_nil])
      refine ⟨rest, ?_⟩
      rw [Nat.add_zero] at released
      rw [releaseTo, opened]
      change releaseBlocks aead spool.spooler.spoolKey spool.spooler.blockCounter.toNat 0 _ = _
      rw [counter, released, releaseBlocks, ← stored]
      rfl

end Spool

end PipeK1

import PipeK1.SpoolContract

/-!
# The spool after failed writes

A spooler stays usable after a write that failed. What it then holds, when a
later release still gives out every accepted chunk, and a run in which it does
not.
-/

set_option autoImplicit false

namespace PipeK1

namespace Spool

open ByteData ByteReader SealedData Effects Numbering

/-! ## Counted blocks and a torn one -/

/-- The file is the counted blocks, and behind them what a failed write has left. -/
structure OnFile (aead : Cipher) (spool : Spool) (blocks : List Block) (torn : Bytes) : Prop where
  sealedAs : Numbered (SealedAs aead spool.spooler.spoolKey) 0 blocks
  counter : spool.spooler.blockCounter = UInt64.ofNat blocks.length
  file_eq : spool.file = blocks.flatMap blockBytes ++ torn
  fits : spool.file.length ≤ spool.disk.capacity

variable {aead : Cipher} {spool after : Spool} {blocks : List Block} {torn : Bytes}

theorem OnFile.flushed {data : Bytes} {block : Block} (onFile : OnFile aead spool blocks [])
    (flushed : Flushed aead data spool after block) : OnFile aead after (blocks ++ [block]) [] := by
  refine ⟨?_, ?_, ?_, flushed.fits⟩
  · rw [flushed.continues.spoolKey]
    refine onFile.sealedAs.concat ?_
    rw [UInt64.zero_add, ← onFile.counter]
    exact flushed.sealedAs
  · rw [flushed.spooler_eq, List.length_append, UInt64.ofNat_add, ← onFile.counter]
    rfl
  · rw [Spool.file, flushed.spooler_eq, Option.getD_some, onFile.file_eq]
    simp

theorem OnFile.interrupted (onFile : OnFile aead spool blocks torn)
    (interrupted : Interrupted spool after) : ∃ torn', OnFile aead after blocks torn' := by
  obtain ⟨more, file_eq⟩ := interrupted.file_eq
  refine ⟨torn ++ more, ?_, ?_, ?_, interrupted.fits onFile.fits⟩
  · rw [interrupted.continues.spoolKey]
    exact onFile.sealedAs
  · rw [interrupted.spooler_eq]
    exact onFile.counter
  · rw [file_eq, onFile.file_eq, List.append_assoc]

/-- Without a file nothing is on it. -/
theorem OnFile.unopened (onFile : OnFile aead spool blocks torn)
    (unopened : spool.spooler.diskFile = none) : blocks = [] ∧ torn = [] := by
  have file_eq := onFile.file_eq
  rw [Spool.file, unopened, Option.getD_none] at file_eq
  obtain ⟨empty, rfl⟩ := List.append_eq_nil_iff.mp file_eq.symm
  refine ⟨?_, rfl⟩
  cases blocks with
  | nil => rfl
  | cons block blocks =>
      have sealedAs := (numbered_cons_iff.mp onFile.sealedAs).1
      have width := length_blockBytes sealedAs
      rw [List.flatMap_cons, List.append_eq_nil_iff] at empty
      rw [empty.1, List.length_nil] at width
      omega

/-- Reading as many blocks as were counted gives the plaintexts and leaves what is torn. -/
theorem OnFile.released (onFile : OnFile aead spool blocks torn)
    (inverts : aead.Inverts spool.spooler.spoolKey spoolChunkSize) {file : Reader}
    (patient : Patient file) (content_eq : content file = spool.file) :
    ∃ rest, content rest = torn ∧
      releaseBlocks aead spool.spooler.spoolKey blocks.length 0 ⟨file, []⟩ =
        .ok () ⟨rest, (blocks.map Sealing.plaintext).flatten⟩ := by
  have opens : OpenFrom aead spool.spooler.spoolKey 0 blocks :=
    onFile.sealedAs.mono fun _ _ _ sealedAs => sealedAs.opensAs inverts
  obtain ⟨rest, _, content_rest, released⟩ := @releaseBlocks_of_openFrom aead _ 0 blocks opens 0
    ⟨file, []⟩ patient torn (content_eq.trans onFile.file_eq)
  exact ⟨rest, content_rest, released⟩

theorem OnFile.few (onFile : OnFile aead spool blocks torn)
    (capacity : spool.disk.capacity < 2 ^ 64) : blocks.length < 2 ^ 64 := by
  obtain ⟨sum, nonempty⟩ := @length_flatMap_blockBytes blocks fun block member => by
    obtain ⟨_, sealedAs⟩ := onFile.sealedAs.exists_of_mem member
    exact ⟨length_blockBytes sealedAs, sealedAs.nonempty⟩
  have fits := onFile.fits
  rw [onFile.file_eq, List.length_append] at fits
  omega

/-- A file without a torn block. -/
def Whole (aead : Cipher) (spool : Spool) : Prop := ∃ blocks, OnFile aead spool blocks []

theorem OnFile.torn_eq_nil (onFile : OnFile aead spool blocks torn) (whole : Whole aead spool)
    (inverts : aead.Inverts spool.spooler.spoolKey spoolChunkSize)
    (capacity : spool.disk.capacity < 2 ^ 64) : torn = [] := by
  obtain ⟨blocks', onFile'⟩ := whole
  have counts : UInt64.ofNat blocks'.length = UInt64.ofNat blocks.length :=
    onFile'.counter.symm.trans onFile.counter
  have same : blocks'.length = blocks.length := by
    have numbers := congrArg UInt64.toNat counts
    rwa [UInt64.toNat_ofNat_of_lt' (onFile'.few capacity),
      UInt64.toNat_ofNat_of_lt' (onFile.few capacity)] at numbers
  obtain ⟨rest, content_rest, released⟩ :=
    onFile.released inverts (smooth_ofBytes _).patient (content_ofBytes spool.file)
  obtain ⟨rest', content_rest', released'⟩ :=
    onFile'.released inverts (smooth_ofBytes _).patient (content_ofBytes spool.file)
  rw [same, released] at released'
  have rests := (Release.mk.inj (EStateM.Result.ok.inj released').2).1
  rw [← content_rest, rests, content_rest']

/-! ## Writing blocks -/

/-- What a list of blocks leaves of the spool: more blocks on file, memory as it was. -/
structure Grown (aead : Cipher) (blocks more : List Block) (torn : Bytes) (before after : Spool) :
    Prop where
  onFile : OnFile aead after (blocks ++ more) torn
  continues : Continues before after
  memBuffer_eq : after.spooler.memBuffer = before.spooler.memBuffer

/-- Behind the first of appendable blocks the others are appendable. -/
theorem Appendable.tail {data : Bytes} {datas : List Bytes} {block : Block}
    (appendable : Appendable aead spool (data :: datas)) (flushed : Flushed aead data spool after block)
    (outcomes_eq : after.disk.outcomes = spool.disk.outcomes.drop (openings spool + 3)) :
    Appendable aead after datas := by
  obtain ⟨_, seals⟩ := numbered_cons_iff.mp appendable.seals
  have count : openings spool + 3 * (data :: datas).length =
      openings spool + 3 + 3 * datas.length := by
    rw [List.length_cons]
    omega
  have opened : openings after = 0 := by rw [openings, flushed.spooler_eq]; rfl
  refine ⟨?_, ?_, ?_⟩
  · rw [flushed.continues.spoolKey, flushed.spooler_eq]
    exact seals
  · intro outcome member
    rw [opened, Nat.zero_add, outcomes_eq] at member
    refine appendable.takes.done outcome ?_
    rw [count, List.take_add]
    exact List.mem_append_right _ member
  · have fits := appendable.takes.fits
    have file_eq : after.file = spool.file ++ blockBytes block := by
      rw [Spool.file, flushed.spooler_eq, Option.getD_some]
    rw [flushed.continues.capacity, file_eq, List.length_append,
      length_blockBytes flushed.sealedAs, flushed.plaintext_eq]
    change spool.file.length + (data.length + 20 + needed datas) ≤ _ at fits
    omega

theorem Appendable.head {data : Bytes} {datas : List Bytes}
    (appendable : Appendable aead spool (data :: datas)) : Appendable aead spool [data] := by
  obtain ⟨sealed, _⟩ := numbered_cons_iff.mp appendable.seals
  have count : openings spool + 3 * (data :: datas).length =
      openings spool + 3 * [data].length + 3 * datas.length := by
    rw [List.length_cons, List.length_singleton]
    omega
  refine ⟨numbered_singleton_iff.mpr sealed, ?_, ?_⟩
  · intro outcome member
    refine appendable.takes.done outcome ?_
    rw [count, List.take_add]
    exact List.mem_append_left _ member
  · have fits := appendable.takes.fits
    change spool.file.length + (data.length + 20 + needed datas) ≤ _ at fits
    change spool.file.length + (data.length + 20) ≤ _
    omega

theorem flushBlocks_whole (context : String) (datas : List Bytes)
    (bounds : ∀ data ∈ datas, 0 < data.length ∧ data.length ≤ spoolChunkSize)
    (onFile : OnFile aead spool blocks []) :
    Ends (fun _ after => ∃ more, more.map Sealing.plaintext = datas ∧
        Grown aead blocks more [] spool after)
      (fun _ after => (∃ more torn, Grown aead blocks more torn spool after) ∧
        ¬ Appendable aead spool datas)
      (flushBlocks aead context datas spool) := by
  induction datas generalizing spool blocks with
  | nil =>
      rw [flushBlocks, ends_pure]
      refine ⟨[], rfl, ?_, Continues.refl spool, rfl⟩
      rw [List.append_nil]
      exact onFile
  | cons data datas ih =>
      obtain ⟨nonempty, fits⟩ := bounds data List.mem_cons_self
      rw [flushBlocks, ends_bind, ends_adaptExcept]
      refine (flushSingleBlockToDisk_exact aead data nonempty fits spool).mono ?_ ?_
      · rintro _ middle ⟨⟨block, flushed⟩, _, outcomes_eq⟩
        refine (ih (fun other member => bounds other (List.mem_cons_of_mem _ member))
          (onFile.flushed flushed)).mono ?_ ?_
        · rintro _ after ⟨more, plaintexts, grown⟩
          refine ⟨block :: more, ?_, ?_, flushed.continues.trans grown.continues, ?_⟩
          · rw [List.map_cons, plaintexts, flushed.plaintext_eq]
          · rw [List.append_cons]
            exact grown.onFile
          · rw [grown.memBuffer_eq, flushed.spooler_eq]
        · rintro _ after ⟨⟨more, torn, grown⟩, stuck⟩
          refine ⟨⟨block :: more, torn, ?_, flushed.continues.trans grown.continues, ?_⟩,
            fun appendable => stuck (appendable.tail flushed outcomes_eq)⟩
          · rw [List.append_cons]
            exact grown.onFile
          · rw [grown.memBuffer_eq, flushed.spooler_eq]
      · rintro _ after ⟨interrupted, stuck⟩
        obtain ⟨torn, onFile'⟩ := onFile.interrupted interrupted
        refine ⟨⟨[], torn, ?_, interrupted.continues, ?_⟩,
          fun appendable => stuck appendable.head⟩
        · rw [List.append_nil]
          exact onFile'
        · rw [interrupted.spooler_eq]

/-- Where the first block does not get through nothing is counted. -/
theorem flushBlocks_torn (context : String) (datas : List Bytes)
    (bounds : ∀ data ∈ datas, 0 < data.length ∧ data.length ≤ spoolChunkSize)
    (stuck : ∀ first ∈ datas.head?, ¬ Appendable aead spool [first])
    (onFile : OnFile aead spool blocks torn) :
    Ends (fun _ after => datas = [] ∧ after = spool)
      (fun _ after => ∃ torn, Grown aead blocks [] torn spool after)
      (flushBlocks aead context datas spool) := by
  cases datas with
  | nil => exact ⟨rfl, rfl⟩
  | cons data datas =>
      obtain ⟨nonempty, fits⟩ := bounds data List.mem_cons_self
      rw [flushBlocks, ends_bind, ends_adaptExcept]
      refine (flushSingleBlockToDisk_exact aead data nonempty fits spool).mono ?_ ?_
      · rintro _ middle ⟨_, appendable, _⟩
        exact absurd appendable (stuck data rfl)
      · rintro _ after ⟨interrupted, _⟩
        obtain ⟨torn', onFile'⟩ := onFile.interrupted interrupted
        refine ⟨torn', ?_, interrupted.continues, ?_⟩
        · rw [List.append_nil]
          exact onFile'
        · rw [interrupted.spooler_eq]

/-! ## Writing chunks that may fail -/

/-- The chunks stand in this order in the output, with anything between them. -/
inductive ContainsInOrder : Bytes → List Bytes → Prop where
  | nil (rest) : ContainsInOrder rest []
  | cons {gap chunk rest chunks} : ContainsInOrder rest chunks →
      ContainsInOrder (gap ++ (chunk ++ rest)) (chunk :: chunks)

theorem ContainsInOrder.append_right {output : Bytes} {chunks : List Bytes}
    (contains : ContainsInOrder output chunks) (more : Bytes) :
    ContainsInOrder (output ++ more) chunks := by
  induction contains with
  | nil rest => exact .nil _
  | cons later ih =>
      rw [List.append_assoc, List.append_assoc]
      exact .cons ih

theorem ContainsInOrder.concat {output : Bytes} {chunks : List Bytes}
    (contains : ContainsInOrder output chunks) (chunk : Bytes) :
    ContainsInOrder (output ++ chunk) (chunks ++ [chunk]) := by
  induction contains with
  | nil rest =>
      have last := @ContainsInOrder.cons rest chunk [] [] (.nil [])
      rwa [List.append_nil] at last
  | cons later ih =>
      rw [List.append_assoc, List.append_assoc]
      exact .cons ih

theorem ContainsInOrder.length_le {output : Bytes} {chunks : List Bytes}
    (contains : ContainsInOrder output chunks) : chunks.flatten.length ≤ output.length := by
  induction contains with
  | nil rest => exact Nat.zero_le _
  | cons later ih =>
      simp only [List.flatten_cons, List.length_append]
      omega

/-- The step loses nothing: the ceiling refuses the chunk, or memory takes it; or what memory
holds gets onto the file, and no block is completed behind a torn one. -/
inductive Sparing (aead : Cipher) (spool : Spool) (chunk : Bytes) : Prop where
  | refused (max : UInt64) : overCeiling (counted spool chunk).spooler = some max →
      Sparing aead spool chunk
  | inMemory : spool.spooler.diskFile = none →
      spool.spooler.memBuffer.length + chunk.length ≤ memorySpoolLimit → Sparing aead spool chunk
  | onDisk : spool.spooler.memBuffer = [] ∨
        Appendable aead spool (spoolBlocks spool.spooler.memBuffer) →
      (Whole aead spool ∨
        ∀ first ∈ (spoolBlocks chunk).head?, ¬ Appendable aead spool [first]) →
      Sparing aead spool chunk

/-- Everything accepted so far is on file or in memory, in order. -/
structure Keeps (aead : Cipher) (spool : Spool) (accepted : List Bytes) : Prop where
  stored : ∃ blocks torn, OnFile aead spool blocks torn ∧
    ContainsInOrder ((blocks.map Sealing.plaintext).flatten ++ spool.spooler.memBuffer) accepted
  separate : spool.spooler.diskFile ≠ none → spool.spooler.memBuffer = []

theorem keeps_start (aead : Cipher) (host : Host) (maxSize : Option UInt64) :
    Keeps aead (start host maxSize) [] :=
  ⟨⟨[], [], ⟨numbered_nil, rfl, rfl, Nat.zero_le _⟩, .nil _⟩, fun opened => absurd rfl opened⟩

theorem flatten_plaintexts_append {more : List Block} {datas : List Bytes}
    (plaintexts : more.map Sealing.plaintext = datas) :
    ((blocks ++ more).map Sealing.plaintext).flatten =
      (blocks.map Sealing.plaintext).flatten ++ datas.flatten := by
  rw [List.map_append, List.flatten_append, plaintexts]

/-- The chunk's own blocks, once memory is empty. -/
theorem flushChunk_keeps (chunk : Bytes) {accepted : List Bytes}
    (inverts : aead.Inverts spool.spooler.spoolKey spoolChunkSize)
    (capacity : spool.disk.capacity < 2 ^ 64)
    (keeps : Keeps aead spool accepted) (emptied : spool.spooler.memBuffer = [])
    (goes : Whole aead spool ∨
      ∀ first ∈ (spoolBlocks chunk).head?, ¬ Appendable aead spool [first]) :
    Ends (fun _ after => Keeps aead after (accepted ++ [chunk]) ∧ Continues spool after)
      (fun _ after => Keeps aead after accepted ∧ Continues spool after)
      (flushBlocks aead "Spool disk write error: " (spoolBlocks chunk) spool) := by
  obtain ⟨blocks, torn, onFile, contains⟩ := keeps.stored
  rw [emptied, List.append_nil] at contains
  rcases goes with whole | stuck
  · cases onFile.torn_eq_nil whole inverts capacity
    refine (flushBlocks_whole _ _ (fun _ => spoolBlocks_bounds) onFile).mono ?_ ?_
    · rintro _ after ⟨more, plaintexts, grown⟩
      have memory := grown.memBuffer_eq.trans emptied
      refine ⟨⟨⟨blocks ++ more, [], grown.onFile, ?_⟩, fun _ => memory⟩, grown.continues⟩
      rw [memory, List.append_nil, flatten_plaintexts_append plaintexts, spoolBlocks,
        Chunking.flatten_chunks]
      exact contains.concat chunk
    · rintro _ after ⟨⟨more, torn, grown⟩, _⟩
      have memory := grown.memBuffer_eq.trans emptied
      refine ⟨⟨⟨blocks ++ more, torn, grown.onFile, ?_⟩, fun _ => memory⟩, grown.continues⟩
      rw [memory, List.append_nil, flatten_plaintexts_append rfl]
      exact contains.append_right _
  · refine (flushBlocks_torn _ _ (fun _ => spoolBlocks_bounds) stuck onFile).mono ?_ ?_
    · rintro _ after ⟨none, rfl⟩
      have empty : chunk = [] := by
        rw [← @Chunking.flatten_chunks _ spoolChunkSize (by decide) chunk]
        exact congrArg List.flatten none
      refine ⟨⟨⟨blocks, torn, onFile, ?_⟩, keeps.separate⟩, Continues.refl _⟩
      rw [emptied, empty]
      exact contains.concat []
    · rintro _ after ⟨torn, grown⟩
      have memory := grown.memBuffer_eq.trans emptied
      refine ⟨⟨⟨blocks, torn, ?_, ?_⟩, fun _ => memory⟩, grown.continues⟩
      · have onFile' := grown.onFile
        rwa [List.append_nil] at onFile'
      · rw [memory, List.append_nil]
        exact contains

/-- What memory holds goes onto the file; `emptied` is the spool with its memory taken. -/
theorem spillMemory_keeps {accepted : List Bytes} (keeps : Keeps aead spool accepted)
    (goes : spool.spooler.memBuffer = [] ∨
      Appendable aead spool (spoolBlocks spool.spooler.memBuffer)) :
    Ends (fun _ after => Keeps aead after accepted ∧ after.spooler.memBuffer = [] ∧
        Continues spool after ∧ (spool.spooler.memBuffer ≠ [] → Whole aead after) ∧
        (spool.spooler.memBuffer = [] → after = spool))
      (fun _ _ => False)
      (flushBlocks aead "Spool spill error: " (spoolBlocks spool.spooler.memBuffer)
        { spool with spooler := { spool.spooler with memBuffer := [] } }) := by
  by_cases memory : spool.spooler.memBuffer = []
  · have same : { spool with spooler := { spool.spooler with memBuffer := [] } } = spool := by
      rw [← memory]
    rw [same, memory, spoolBlocks, Chunking.chunks_nil]
    exact ⟨keeps, memory, Continues.refl spool, fun some => absurd rfl some, fun _ => rfl⟩
  · have appendable := goes.resolve_left memory
    have unopened : spool.spooler.diskFile = none := by
      by_contra opened
      exact memory (keeps.separate opened)
    obtain ⟨blocks, torn, onFile, contains⟩ := keeps.stored
    obtain ⟨rfl, rfl⟩ := onFile.unopened unopened
    let emptied : Spool := { spool with spooler := { spool.spooler with memBuffer := [] } }
    have onFile' : OnFile aead emptied [] [] :=
      ⟨onFile.sealedAs, onFile.counter, onFile.file_eq, onFile.fits⟩
    refine (flushBlocks_whole _ _ (fun _ => spoolBlocks_bounds) onFile').mono ?_ ?_
    · rintro _ after ⟨more, plaintexts, grown⟩
      have taken : after.spooler.memBuffer = [] := grown.memBuffer_eq
      have frame := grown.continues
      refine ⟨⟨⟨more, [], grown.onFile, ?_⟩, fun _ => taken⟩, taken,
        ⟨frame.spoolKey, frame.maxSize, frame.capacity, frame.readBack, frame.outcomes⟩,
        fun _ => ⟨more, grown.onFile⟩, fun empty => absurd empty memory⟩
      rw [taken, List.append_nil, plaintexts, spoolBlocks, Chunking.flatten_chunks]
      exact contains
    · rintro _ after ⟨_, stuck⟩
      exact stuck ⟨appendable.seals, appendable.takes⟩

theorem storeChunk_keeps {chunk : Bytes} {accepted : List Bytes}
    (inverts : aead.Inverts spool.spooler.spoolKey spoolChunkSize)
    (capacity : spool.disk.capacity < 2 ^ 64) (keeps : Keeps aead spool accepted)
    (spilled : ¬ (spool.spooler.diskFile = none ∧
        spool.spooler.memBuffer.length + chunk.length ≤ memorySpoolLimit) →
      (spool.spooler.memBuffer = [] ∨
        Appendable aead spool (spoolBlocks spool.spooler.memBuffer)) ∧
      (Whole aead spool ∨
        ∀ first ∈ (spoolBlocks chunk).head?, ¬ Appendable aead spool [first])) :
    Ends (fun _ after => Keeps aead after (accepted ++ [chunk]) ∧ Continues spool after)
      (fun _ after => Keeps aead after accepted ∧ Continues spool after)
      (storeChunk aead chunk spool) := by
  rw [storeChunk, ends_bind, ends_get]
  by_cases inMemory : spool.spooler.diskFile = none ∧
      spool.spooler.memBuffer.length + chunk.length ≤ memorySpoolLimit
  · rw [if_pos inMemory, ends_set]
    obtain ⟨blocks, torn, onFile, contains⟩ := keeps.stored
    refine ⟨⟨⟨blocks, torn, ⟨onFile.sealedAs, onFile.counter, onFile.file_eq, onFile.fits⟩, ?_⟩,
      fun opened => absurd inMemory.1 opened⟩, ⟨rfl, rfl, rfl, rfl, fun _ member => member⟩⟩
    rw [← List.append_assoc]
    exact contains.concat chunk
  · obtain ⟨memory, file⟩ := spilled inMemory
    rw [if_neg inMemory, ends_bind, takeMemory, ends_modifyGet, ends_bind]
    refine (spillMemory_keeps keeps memory).mono ?_ (fun _ _ => False.elim)
    rintro _ middle ⟨keeps', emptied, continues, whole, unchanged⟩
    have goes : Whole aead middle ∨
        ∀ first ∈ (spoolBlocks chunk).head?, ¬ Appendable aead middle [first] := by
      by_cases empty : spool.spooler.memBuffer = []
      · rw [unchanged empty]
        exact file
      · exact .inl (whole empty)
    refine (flushChunk_keeps chunk (continues.spoolKey ▸ inverts)
      (continues.capacity ▸ capacity) keeps' emptied goes).mono ?_ ?_
    · rintro _ after ⟨keeps'', continues'⟩
      exact ⟨keeps'', continues.trans continues'⟩
    · rintro _ after ⟨keeps'', continues'⟩
      exact ⟨keeps'', continues.trans continues'⟩

theorem writeChunk_keeps {chunk : Bytes} {accepted : List Bytes}
    (inverts : aead.Inverts spool.spooler.spoolKey spoolChunkSize)
    (capacity : spool.disk.capacity < 2 ^ 64) (keeps : Keeps aead spool accepted)
    (sparing : Sparing aead spool chunk) :
    Ends (fun _ after => Keeps aead after (accepted ++ [chunk]) ∧ Continues spool after)
      (fun _ after => Keeps aead after accepted ∧ Continues spool after)
      (writeChunk aead chunk spool) := by
  obtain ⟨blocks, torn, onFile, contains⟩ := keeps.stored
  have keeps' : Keeps aead (counted spool chunk) accepted :=
    ⟨⟨blocks, torn, ⟨onFile.sealedAs, onFile.counter, onFile.file_eq, onFile.fits⟩, contains⟩,
      keeps.separate⟩
  cases ceiling : overCeiling (counted spool chunk).spooler with
  | some max =>
      rw [writeChunk_of_beyond aead ceiling]
      exact ⟨keeps', ⟨rfl, rfl, rfl, rfl, fun _ member => member⟩⟩
  | none =>
      rw [writeChunk_of_within aead ceiling]
      refine (@storeChunk_keeps aead (counted spool chunk) chunk accepted inverts capacity keeps'
        ?_).mono ?_ ?_
      · intro spills
        cases sparing with
        | refused max beyond =>
            rw [ceiling] at beyond
            cases beyond
        | inMemory unopened room => exact absurd ⟨unopened, room⟩ spills
        | onDisk memory file =>
            refine ⟨memory.imp id fun appendable => ⟨appendable.seals, appendable.takes⟩,
              file.imp ?_ ?_⟩
            · rintro ⟨blocks, onFile⟩
              exact ⟨blocks, onFile.sealedAs, onFile.counter, onFile.file_eq, onFile.fits⟩
            · intro stuck first member appendable
              exact stuck first member ⟨appendable.seals, appendable.takes⟩
      · rintro _ after ⟨kept, continues⟩
        exact ⟨kept, continues.of_counted⟩
      · rintro _ after ⟨kept, continues⟩
        exact ⟨kept, continues.of_counted⟩

/-! ## Runs -/

/-- One call, and the chunk if it was accepted; a failed call leaves its spooler behind. -/
def attempt (aead : Cipher) (chunk : Bytes) (spool : Spool) : List Bytes × Spool :=
  match writeChunk aead chunk spool with
  | .ok () after => ([chunk], after)
  | .error _ after => ([], after)

/-- Calls one after the other, whether they fail or not. -/
def attempts (aead : Cipher) : List Bytes → Spool → List Bytes × Spool
  | [], spool => ([], spool)
  | chunk :: chunks, spool =>
      let first := attempt aead chunk spool
      let later := attempts aead chunks first.2
      (first.1 ++ later.1, later.2)

def SparingRun (aead : Cipher) : List Bytes → Spool → Prop
  | [], _ => True
  | chunk :: chunks, spool =>
      Sparing aead spool chunk ∧ SparingRun aead chunks (attempt aead chunk spool).2

theorem attempt_keeps {chunk : Bytes} {accepted : List Bytes}
    (inverts : aead.Inverts spool.spooler.spoolKey spoolChunkSize)
    (capacity : spool.disk.capacity < 2 ^ 64) (keeps : Keeps aead spool accepted)
    (sparing : Sparing aead spool chunk) :
    Keeps aead (attempt aead chunk spool).2 (accepted ++ (attempt aead chunk spool).1) ∧
      Continues spool (attempt aead chunk spool).2 := by
  have writing := writeChunk_keeps inverts capacity keeps sparing
  unfold attempt
  cases written : writeChunk aead chunk spool with
  | ok _ after => exact writing.ok written
  | error error after =>
      obtain ⟨kept, continues⟩ := writing.error written
      refine ⟨?_, continues⟩
      rw [List.append_nil]
      exact kept

theorem attempts_keeps {chunks accepted : List Bytes}
    (inverts : aead.Inverts spool.spooler.spoolKey spoolChunkSize)
    (capacity : spool.disk.capacity < 2 ^ 64) (keeps : Keeps aead spool accepted)
    (sparing : SparingRun aead chunks spool) :
    Keeps aead (attempts aead chunks spool).2 (accepted ++ (attempts aead chunks spool).1) ∧
      Continues spool (attempts aead chunks spool).2 := by
  induction chunks generalizing spool accepted with
  | nil =>
      rw [attempts, List.append_nil]
      exact ⟨keeps, Continues.refl spool⟩
  | cons chunk chunks ih =>
      obtain ⟨now, next⟩ := sparing
      obtain ⟨kept, continues⟩ := attempt_keeps inverts capacity keeps now
      obtain ⟨kept', continues'⟩ := ih (continues.spoolKey ▸ inverts)
        (continues.capacity ▸ capacity) kept next
      rw [List.append_assoc] at kept'
      exact ⟨kept', continues.trans continues'⟩

theorem Keeps.released {accepted : List Bytes} (keeps : Keeps aead spool accepted)
    (inverts : aead.Inverts spool.spooler.spoolKey spoolChunkSize) (honest : spool.disk.Honest) :
    Ends (fun _ release => ContainsInOrder release.out accepted) (fun _ _ => False)
      (releaseTo aead spool.spooler (spool.disk.readBack spool.file)) := by
  obtain ⟨blocks, torn, onFile, contains⟩ := keeps.stored
  unfold releaseTo
  cases opened : spool.spooler.diskFile with
  | none =>
      obtain ⟨rfl, _⟩ := onFile.unopened opened
      exact contains
  | some file =>
      have memory := keeps.separate (by rw [opened]; exact Option.some_ne_none file)
      rw [memory, List.append_nil] at contains
      have count : spool.spooler.blockCounter.toNat = blocks.length := by
        rw [onFile.counter, UInt64.toNat_ofNat_of_lt' (onFile.few honest.capacity_lt)]
      obtain ⟨rest, _, released⟩ := onFile.released inverts (honest.patient _)
        (honest.content_readBack spool.file)
      dsimp only
      rw [count, released]
      exact contains

/-- In a run whose steps lose nothing, a release after any number of calls gives out every
accepted chunk, complete and in order. -/
theorem release_contains_accepted (aead : Cipher) (host : Host) (maxSize : Option UInt64)
    (inverts : aead.Inverts host.spoolKey spoolChunkSize) (honest : host.disk.Honest)
    (chunks : List Bytes) (sparing : SparingRun aead chunks (start host maxSize)) :
    let ran := attempts aead chunks (start host maxSize)
    ∀ release, releaseTo aead ran.2.spooler (ran.2.disk.readBack ran.2.file) = .ok () release →
      ContainsInOrder release.out ran.1 := by
  intro ran release released
  obtain ⟨keeps, continues⟩ := attempts_keeps inverts (honest.capacity_lt)
    (keeps_start aead host maxSize) sparing
  exact (keeps.released (continues.spoolKey ▸ inverts) (continues.honest honest)).ok released

section Sample

open Reference

/-- A ceiling one byte above the sample chunk. -/
def sampleCeiling : UInt64 := UInt64.ofNat (memorySpoolLimit + 2)

/-- Under it the chunk is accepted, and goes to disk. -/
theorem exists_spilled :
    ∃ after, writeChunk ChaCha20Poly1305.cipher sampleChunk
        (start (keyHost sampleRecipient sampleEphemeral) (some sampleCeiling)) = .ok () after ∧
      Holds ChaCha20Poly1305.cipher after sampleChunk ∧
      Continues (start (keyHost sampleRecipient sampleEphemeral) (some sampleCeiling)) after ∧
      after.spooler.diskFile ≠ none := by
  let host := keyHost sampleRecipient sampleEphemeral
  have size : sampleChunk.length = memorySpoolLimit + 1 := by
    simpa using length_sampleChunk
  have writing := writeChunk_ends ChaCha20Poly1305.cipher sampleChunk []
    (start host (some sampleCeiling)) (holds_start _ host _)
  rw [List.nil_append, size] at writing
  cases written : writeChunk ChaCha20Poly1305.cipher sampleChunk
      (start host (some sampleCeiling)) with
  | ok _ after =>
      obtain ⟨holds, continues, _⟩ := writing.ok written
      refine ⟨after, rfl, holds, continues, fun unopened => ?_⟩
      have bounded := holds.bounded
      rw [holds.memBuffer_eq unopened, size] at bounded
      exact absurd bounded (by decide)
  | error error after =>
      rcases writing.error written with ⟨max, limited, beyond⟩ | stuck
      · rw [← Option.some.inj limited] at beyond
        exact absurd beyond (by decide)
      · exact absurd ⟨(cipher_inverts _).sealsUpTo,
          fun _ none => absurd none List.not_mem_nil, by decide⟩ stuck

end Sample

open Reference in
/-- A chunk that goes to disk, and one more that would exceed the ceiling. -/
theorem release_contains_accepted_sample :
    ∃ (final : Spool) (rest : Reader) (out : Bytes),
      attempts ChaCha20Poly1305.cipher [sampleChunk, [0x02, 0x03]]
        (start (keyHost sampleRecipient sampleEphemeral) (some sampleCeiling)) =
          ([sampleChunk], final) ∧
      final.spooler.diskFile ≠ none ∧
      releaseTo ChaCha20Poly1305.cipher final.spooler (final.disk.readBack final.file) =
        .ok () ⟨rest, out⟩ ∧
      ContainsInOrder out [sampleChunk] := by
  obtain ⟨after, written, holds, continues, spilled⟩ := exists_spilled
  have first : attempt ChaCha20Poly1305.cipher sampleChunk
      (start (keyHost sampleRecipient sampleEphemeral) (some sampleCeiling)) =
        ([sampleChunk], after) := by
    rw [attempt, written]
  have total : (counted after [0x02, 0x03]).spooler.totalBytes =
      UInt64.ofNat (memorySpoolLimit + 1) + 2 := by
    have size : sampleChunk.length = memorySpoolLimit + 1 := by simpa using length_sampleChunk
    rw [counted, holds.total, size]
    rfl
  have beyond : overCeiling (counted after [0x02, 0x03]).spooler = some sampleCeiling := by
    have limited : (counted after [0x02, 0x03]).spooler.maxSize = some sampleCeiling :=
      continues.maxSize
    rw [overCeiling, limited, total]
    decide
  have second : attempt ChaCha20Poly1305.cipher [0x02, 0x03] after =
      ([], counted after [0x02, 0x03]) := by
    rw [attempt, writeChunk_of_beyond _ beyond]
  have both : attempts ChaCha20Poly1305.cipher [sampleChunk, [0x02, 0x03]]
      (start (keyHost sampleRecipient sampleEphemeral) (some sampleCeiling)) =
        ([sampleChunk], counted after [0x02, 0x03]) := by
    simp only [attempts, first, second, List.append_nil]
  have sparing : SparingRun ChaCha20Poly1305.cipher [sampleChunk, [0x02, 0x03]]
      (start (keyHost sampleRecipient sampleEphemeral) (some sampleCeiling)) := by
    refine ⟨.onDisk (.inl rfl) (.inl ⟨[], numbered_nil, rfl, rfl, Nat.zero_le _⟩), ?_⟩
    rw [first]
    exact ⟨.refused sampleCeiling beyond, trivial⟩
  obtain ⟨rest, released⟩ := releaseTo_of_holds holds (continues.spoolKey ▸ cipher_inverts _)
    (continues.honest (keyHost_disk_honest sampleRecipient sampleEphemeral))
  have contains := release_contains_accepted ChaCha20Poly1305.cipher
    (keyHost sampleRecipient sampleEphemeral) (some sampleCeiling) (cipher_inverts _)
    (keyHost_disk_honest sampleRecipient sampleEphemeral) [sampleChunk, [0x02, 0x03]] sparing
    ⟨rest, sampleChunk⟩
  rw [both] at contains
  exact ⟨_, rest, sampleChunk, both, spilled, released, contains released⟩

/-- A temporary file that cannot be opened costs what memory held. -/
theorem writeChunk_unopened {chunk : Bytes} {written : Nat} {error : IoError}
    {rest : List DiskOutcome} (unopened : spool.spooler.diskFile = none)
    (memory : spool.spooler.memBuffer ≠ [])
    (long : ¬ spool.spooler.memBuffer.length + chunk.length ≤ memorySpoolLimit)
    (unlimited : spool.spooler.maxSize = none)
    (failing : spool.disk.outcomes = .failed written error :: rest) :
    Ends (fun _ _ => False)
      (fun _ after => after.spooler.diskFile = none ∧ after.spooler.memBuffer = [])
      (writeChunk aead chunk spool) := by
  have ceiling := overCeiling_of_unlimited chunk unlimited
  have spills : ¬ ((counted spool chunk).spooler.diskFile = none ∧
      (counted spool chunk).spooler.memBuffer.length + chunk.length ≤ memorySpoolLimit) :=
    fun inMemory => long inMemory.2
  rw [writeChunk_of_within aead ceiling, storeChunk, ends_bind, ends_get, if_neg spills, ends_bind, takeMemory,
    ends_modifyGet, ends_bind]
  change Ends _ _ (flushBlocks aead _ (spoolBlocks spool.spooler.memBuffer) _)
  rw [show spoolBlocks spool.spooler.memBuffer = _ from Chunking.chunks_of_ne_nil memory,
    flushBlocks, ends_bind, ends_adaptExcept, flushSingleBlockToDisk, ends_bind]
  simp only [ensureFile, openAnonymousTmpfile, nextOutcome, ends_bind, ends_get, counted, unopened,
    ends_modifyGet, failing, List.head?_cons, Option.getD_some, ends_throw]
  exact ⟨trivial, trivial⟩

/-- No temporary file can be opened. -/
def fullHost : Host :=
  { Reference.keyHost Reference.sampleRecipient Reference.sampleEphemeral with
    disk := ⟨[.failed 0 noSpace], 2 ^ 40, ofBytes⟩ }

theorem fullHost_honest : fullHost.disk.Honest :=
  ⟨by decide, fun written => (smooth_ofBytes written).patient, content_ofBytes⟩

open Reference in
/-- One byte in memory, then a chunk that does not fit, and no temporary file can be opened: the
first chunk was accepted, and a release that succeeds gives out nothing. -/
theorem release_loses_accepted :
    fullHost.disk.Honest ∧
      let ran := attempts ChaCha20Poly1305.cipher [[0x01], sampleChunk] (start fullHost none)
      ran.1 = [[0x01]] ∧
      ∃ release, releaseTo ChaCha20Poly1305.cipher ran.2.spooler
          (ran.2.disk.readBack ran.2.file) = .ok () release ∧
        ¬ ContainsInOrder release.out ran.1 := by
  refine ⟨fullHost_honest, ?_⟩
  let first : Spool := (attempt ChaCha20Poly1305.cipher [0x01] (start fullHost none)).2
  have tooLong : ¬ first.spooler.memBuffer.length + sampleChunk.length ≤ memorySpoolLimit := by
    have width := length_sampleChunk
    rw [List.flatten_singleton] at width
    rw [width]
    exact Nat.not_le_of_lt (Nat.lt_add_left _ (Nat.lt_succ_self _))
  have failing := @writeChunk_unopened ChaCha20Poly1305.cipher first sampleChunk 0 noSpace [] rfl
    (List.cons_ne_nil _ _) tooLong rfl rfl
  cases written : writeChunk ChaCha20Poly1305.cipher sampleChunk first with
  | ok _ after => exact (failing.ok written).elim
  | error message after =>
      obtain ⟨unopened, emptied⟩ := failing.error written
      have ran : attempts ChaCha20Poly1305.cipher [[0x01], sampleChunk] (start fullHost none) =
          ([[0x01]], after) := by
        have second : attempt ChaCha20Poly1305.cipher sampleChunk first = ([], after) := by
          rw [attempt, written]
        have later : attempts ChaCha20Poly1305.cipher [sampleChunk] first = ([], after) := by
          rw [attempts, second]
          rfl
        change ([[0x01]] ++ (attempts ChaCha20Poly1305.cipher [sampleChunk] first).1,
          (attempts ChaCha20Poly1305.cipher [sampleChunk] first).2) = _
        rw [later]
        rfl
      rw [ran]
      refine ⟨rfl, ⟨after.disk.readBack after.file, []⟩, ?_, fun contains => ?_⟩
      · rw [releaseTo, unopened, emptied]
      · exact absurd contains.length_le (show ¬ 1 ≤ 0 by decide)

end Spool

end PipeK1

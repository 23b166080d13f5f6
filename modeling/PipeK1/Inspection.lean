import PipeK1.Encodings
import PipeK1.PublishedKeys

/-!
# The inspectors

`inspect-header` and `inspect-chunk` on a stream that `decrypt` accepts: from one
framing header to the next they lead through the chunks, to the trailer.
-/

set_option autoImplicit false

namespace PipeK1

open ByteData ByteReader Effects Numbering

variable {crates : Crates} {host : Host} {rounds : Nat} {exe : String} {args : List String}

/-! ## Reports -/

def printed (lines : List String) : Bytes := lines.flatMap fun line => Text.utf8 (line ++ "\n")

/-- What `inspect-header` prints. -/
def headerReport (crates : Crates) (header : FixedBytes wireHeaderSize) : Bytes :=
  let hex (bytes : Bytes) : String := crates.encodings.hexEncode bytes
  printed ["Valid pipe-k1 Wire Header (97 bytes):",
    "  Magic:        PK01",
    "  Version:      0x" ++ Text.hexByte (header.byteAt 4 header_version),
    "  Mode:         0x" ++ Text.hexByte (header.byteAt 5 header_mode),
    "  EphemeralPub: " ++ hex (header.slice 6 32 header_ephemeralPub).toList,
    "  RecipientPub: " ++ hex (header.slice 38 32 header_recipientPub).toList,
    "  Salt (11B):   " ++ hex (header.slice 70 11 header_salt).toList,
    "  HMAC (16B):   " ++ hex (header.slice 81 16 header_hmac).toList]

/-- What `inspect-chunk` prints. -/
def chunkReport (length : Nat) (termTag : UInt8) : Bytes :=
  printed ["Valid pipe-k1 Chunk Header (5 bytes):",
    "  Payload Length: " ++ toString length ++ " bytes",
    "  Terminal Tag:   0x" ++ Text.hexByte termTag ++ " (" ++
      (if termTag = 0x01 then "TERMINAL" else "INTERMEDIATE") ++ ")"]

/-- A report tells the length, and a terminal chunk from an intermediate one. -/
theorem chunkReport_inj {length length' : Nat} {termTag termTag' : UInt8}
    (same : chunkReport length termTag = chunkReport length' termTag') :
    length = length' ∧ (termTag = 0x01 ↔ termTag' = 0x01) := by
  simp only [chunkReport, printed, List.flatMap_cons, List.flatMap_nil, List.append_nil,
    ← Text.utf8_append] at same
  have texts := congrArg String.toList (Text.utf8_injective same)
  simp only [String.toList_append, List.append_assoc] at texts
  have numbers := List.append_cancel_left (List.append_cancel_left (List.append_cancel_left texts))
  simp only [Nat.toString_eq_ofList_toDigits, String.toList_ofList] at numbers
  obtain ⟨lengths, rest⟩ := @Text.toDigits_append_inj _ _ ' ' (by decide) _ _ numbers
  refine ⟨lengths, ?_⟩
  -- The third character from the end.
  have third := congrArg (fun text => text.reverse[2]?) rest
  by_cases one : termTag = 0x01
  · by_cases one' : termTag' = 0x01
    · exact iff_of_true one one'
    · simp [one, one'] at third
  · by_cases one' : termTag' = 0x01
    · simp [one, one'] at third
    · exact iff_of_false one one'

/-! ## Runs of the inspectors -/

/-- The program succeeds on these bytes over every delivery, and prints `report`. -/
def Reports (crates : Crates) (host : Host) (rounds : Nat) (argv : List String)
    (bytes report : Bytes) : Prop :=
  ∀ stdin, Smooth stdin → content stdin = bytes →
    (realMain crates host rounds argv stdin).1 = some 0 ∧
      (realMain crates host rounds argv stdin).2.stdout = report

theorem Reports.unique {argv : List String} {bytes report report' : Bytes}
    (prints : Reports crates host rounds argv bytes report)
    (prints' : Reports crates host rounds argv bytes report') : report = report' := by
  rw [← (prints (ofBytes bytes) (smooth_ofBytes _) (content_ofBytes _)).2,
    ← (prints' (ofBytes bytes) (smooth_ofBytes _) (content_ofBytes _)).2]

theorem inspectHeader_reports (direct : Direct exe) {header : FixedBytes wireHeaderSize}
    (magic : header.slice 0 4 = magicHeader) (later : Bytes) :
    Reports crates host rounds (exe :: "inspect-header" :: args) (header.toList ++ later)
      (headerReport crates header) := by
  intro stdin smooth front
  obtain ⟨rest, reading, _⟩ := readExact_of_smooth smooth header later front
  have read : readStdin .io wireHeaderSize (Process.start stdin) = .ok header ⟨rest, []⟩ :=
    readStdin_of_readExact reading
  have not_git := @Direct.not_git exe "inspect-header" direct (by decide)
  simp only [realMain, runCommand, not_git, Bool.false_eq_true, ↓reduceIte, dispatchCommand,
    inspectHeaderCommand, bind_of_ok read, magic, ne_eq, not_true_eq_false]
  exact ⟨rfl, rfl⟩

theorem inspectChunk_reports (direct : Direct exe) {chunk : WireChunk}
    (fits : chunk.ciphertext.length ≤ chunkSize) (later : Bytes) :
    Reports crates host rounds (exe :: "inspect-chunk" :: args) (chunk.bytes ++ later)
      (chunkReport chunk.ciphertext.length chunk.termTag) := by
  intro stdin smooth front
  let lenField := u32Be (UInt32.ofNat chunk.ciphertext.length)
  let chunkHdr : FixedBytes chunkHeaderSize := lenField.append (FixedBytes.single chunk.termTag)
  obtain ⟨rest, reading, _⟩ := readExact_of_smooth smooth chunkHdr
    (chunk.ciphertext ++ (chunk.tag.toList ++ later)) (by
      rw [front]
      simp [chunkHdr, lenField, WireChunk.bytes])
  have read : readStdin .io chunkHeaderSize (Process.start stdin) = .ok chunkHdr ⟨rest, []⟩ :=
    readStdin_of_readExact reading
  have lenRead : (u32FromBe (chunkHdr.slice 0 4)).toNat = chunk.ciphertext.length := by
    rw [FixedBytes.slice_append_left _ _ 0 4 (by decide), FixedBytes.slice_whole,
      u32FromBe_u32Be, UInt32.toNat_ofNat_of_lt' (Nat.lt_of_le_of_lt fits (by decide))]
  have tagRead : chunkHdr.byteAt 4 = chunk.termTag :=
    FixedBytes.byteAt_append_single lenField chunk.termTag (by decide)
  have not_git := @Direct.not_git exe "inspect-chunk" direct (by decide)
  simp only [realMain, runCommand, not_git, Bool.false_eq_true, ↓reduceIte, dispatchCommand,
    inspectChunkCommand, bind_of_ok read, lenRead, tagRead]
  exact ⟨rfl, rfl⟩

/-! ## From chunk to chunk -/

/-- The payload lengths that `prints` reports from one framing header to the next, and what
follows the terminal chunk. -/
inductive Walk (prints : Bytes → Bytes → Prop) : Bytes → List Nat → Bytes → Prop where
  | last {bytes length} : prints bytes (chunkReport length 0x01) →
      Walk prints bytes [length] (bytes.drop (length + 21))
  | next {bytes length lengths trailer} : prints bytes (chunkReport length 0x00) →
      Walk prints (bytes.drop (length + 21)) lengths trailer →
      Walk prints bytes (length :: lengths) trailer

section Walk

variable {prints : Bytes → Bytes → Prop}

theorem Walk.unique
    (functional : ∀ bytes report report', prints bytes report → prints bytes report' →
      report = report')
    {bytes trailer trailer' : Bytes} {lengths lengths' : List Nat}
    (walk : Walk prints bytes lengths trailer) (walk' : Walk prints bytes lengths' trailer') :
    lengths = lengths' ∧ trailer = trailer' := by
  induction walk generalizing lengths' with
  | last report =>
      cases walk' with
      | last report' =>
          obtain ⟨rfl, _⟩ := chunkReport_inj (functional _ _ _ report report')
          exact ⟨rfl, rfl⟩
      | next report' _ =>
          obtain ⟨_, tags⟩ := chunkReport_inj (functional _ _ _ report report')
          exact absurd (tags.mp rfl) (by decide)
  | next report _ ih =>
      cases walk' with
      | last report' =>
          obtain ⟨_, tags⟩ := chunkReport_inj (functional _ _ _ report report')
          exact absurd (tags.mpr rfl) (by decide)
      | next report' later' =>
          obtain ⟨rfl, _⟩ := chunkReport_inj (functional _ _ _ report report')
          obtain ⟨rfl, sameTrailer⟩ := ih later'
          exact ⟨rfl, sameTrailer⟩

theorem WireChunk.drop_bytes (chunk : WireChunk) (later : Bytes) :
    (chunk.bytes ++ later).drop (chunk.ciphertext.length + 21) = later := by
  refine List.drop_left' ?_
  simp only [WireChunk.bytes, List.length_append, List.length_cons, FixedBytes.length_toList,
    tagSize]
  omega

theorem walk_chunks
    (reports : ∀ (chunk : WireChunk) (later : Bytes), chunk.ciphertext.length ≤ chunkSize →
      prints (chunk.bytes ++ later) (chunkReport chunk.ciphertext.length chunk.termTag))
    {full : List StreamChunk} {last : StreamChunk} (allFull : ∀ chunk ∈ full, chunk.Full)
    (terminal : last.Terminal) (trailer : Bytes) :
    Walk prints (wireBytes (full ++ [last]) ++ trailer)
      ((full ++ [last]).map (·.wire.ciphertext.length)) trailer := by
  induction full with
  | nil =>
      obtain ⟨tag, fits⟩ := terminal
      have report := reports last.wire trailer fits
      rw [tag] at report
      have walk := Walk.last report
      rw [WireChunk.drop_bytes] at walk
      simpa [wireBytes] using walk
  | cons chunk full ih =>
      obtain ⟨tag, whole⟩ := allFull chunk List.mem_cons_self
      have later := ih fun other member => allFull other (List.mem_cons_of_mem _ member)
      have report := reports chunk.wire (wireBytes (full ++ [last]) ++ trailer)
        (Nat.le_of_eq whole)
      rw [tag] at report
      rw [← WireChunk.drop_bytes chunk.wire (wireBytes (full ++ [last]) ++ trailer)] at later
      have walk := Walk.next report later
      simpa only [wireBytes, List.cons_append, List.flatMap_cons, List.append_assoc,
        List.map_cons] using walk

end Walk

theorem sum_lengths {header : StreamHeader} {counter : UInt64} {chunks : List StreamChunk}
    (opens : Numbered (StreamChunk.Opens crates header) counter chunks) :
    (chunks.map (·.wire.ciphertext.length)).sum = (plaintextOf chunks).length := by
  induction chunks generalizing counter with
  | nil => rfl
  | cons chunk chunks ih =>
      obtain ⟨opened, later⟩ := numbered_cons_iff.mp opens
      have whole := ih later
      rw [plaintextOf] at whole
      rw [plaintextOf, List.flatMap_cons, List.length_append, List.map_cons, List.sum_cons, whole,
        crates.aead.length_decrypt opened]

/-- What `decrypt` accepts, `inspect-header` and then `inspect-chunk` lead through in one way: to
as many bytes as `decrypt` writes, and to a trailer of the length for the mode shown. -/
theorem inspectors_agree (crates : Crates) (host : Host) (rounds : Nat) (exe : String)
    (direct : Direct exe) (argsD argsH argsC : List String) (stdin : Reader)
    (smooth : Smooth stdin)
    (trusted : (decryptArgs argsD).allowUnverifiedStream = false → SpoolTrusted crates host)
    (exited : (realMain crates host rounds (exe :: "decrypt" :: argsD) stdin).1 = some 0) :
    ∃ (header : FixedBytes wireHeaderSize) (lengths : List Nat) (trailer : Bytes),
      header.toList = (content stdin).take wireHeaderSize ∧
      Reports crates host rounds (exe :: "inspect-header" :: argsH) (content stdin)
        (headerReport crates header) ∧
      Walk (Reports crates host rounds (exe :: "inspect-chunk" :: argsC))
        ((content stdin).drop wireHeaderSize) lengths trailer ∧
      (∀ lengths' trailer', Walk (Reports crates host rounds (exe :: "inspect-chunk" :: argsC))
        ((content stdin).drop wireHeaderSize) lengths' trailer' →
          lengths' = lengths ∧ trailer' = trailer) ∧
      lengths.sum =
        (realMain crates host rounds (exe :: "decrypt" :: argsD) stdin).2.stdout.length ∧
      trailer.length = trailerLength (header.byteAt 5) := by
  rw [realMain_decrypt (@Direct.not_git exe "decrypt" direct (by decide))] at exited ⊢
  obtain ⟨final, finished⟩ := exitStatus_eq_zero_iff.mp exited
  rw [finished]
  obtain ⟨stream, accepted⟩ :=
    (runDecrypt_ends crates host (decryptArgs argsD) stdin).ok finished
  obtain ⟨recipPriv, recipKey, loaded, valid, conforms⟩ := accepted.conforms
  have whole : content stdin = stream.bytes := by
    rw [accepted.content_eq, accepted.exhausted smooth, List.append_nil]
  have chunks : stream.bytes.drop wireHeaderSize = wireBytes stream.chunks ++ stream.trailer :=
    List.drop_left' stream.headerBytes.length_toList
  have walk := walk_chunks
    (fun chunk later fits => @inspectChunk_reports crates host rounds exe argsC direct chunk fits
      later) conforms.full conforms.last stream.trailer
  rw [whole, chunks]
  refine ⟨stream.headerBytes, _, stream.trailer, stream.take_bytes.symm,
    inspectHeader_reports direct conforms.header.magic _, walk, ?_, ?_, ?_⟩
  · intro lengths' trailer' walk'
    exact walk'.unique (fun _ _ _ reports reports' => reports.unique reports') walk
  · have output : final.stdout = stream.plaintext := accepted.stdout trusted
    change _ = final.stdout.length
    rw [output]
    exact sum_lengths conforms.opens
  · rw [← conforms.header.mode_eq]
    exact conforms.trailer.length

open Reference in
/-- Through the anonymous stream of five bytes, to its end. -/
theorem inspectors_agree_sample :
    ∃ lengths, Walk (Reports packages (keyHost sampleRecipient sampleEphemeral) 0
        ["pipe-k1", "inspect-chunk"])
        ((content (sealedStream true sampleSender sampleRecipient sampleEphemeral
          sampleData)).drop wireHeaderSize) lengths [] ∧ lengths.sum = 5 := by
  obtain ⟨final, finished, output⟩ :=
    @sealedStream_accepted true false sampleSender sampleRecipient sampleEphemeral sampleData
      (by decide)
  have direct : Direct "pipe-k1" := by
    unfold Direct
    decide
  have ran : realMain packages (keyHost sampleRecipient sampleEphemeral) 0 ["pipe-k1", "decrypt"]
      (sealedStream true sampleSender sampleRecipient sampleEphemeral sampleData) =
        (some 0, final) := by
    rw [realMain_decrypt (@Direct.not_git "pipe-k1" "decrypt" direct (by decide))]
    change (exitStatus (runDecrypt packages _ (openArgs true sampleSender false) _),
      reported (runDecrypt packages _ (openArgs true sampleSender false) _)) = _
    rw [finished]
    rfl
  obtain ⟨header, lengths, trailer, front, _, walk, _, total, width⟩ :=
    inspectors_agree packages (keyHost sampleRecipient sampleEphemeral) 0 "pipe-k1" direct [] [] []
      (sealedStream true sampleSender sampleRecipient sampleEphemeral sampleData)
      (smooth_sealedStream true sampleSender sampleRecipient sampleEphemeral (by decide))
      (fun _ => keyHost_trusted sampleRecipient sampleEphemeral) (by rw [ran])
  -- The mode is in the header, and in Mode 2 there is no trailer.
  have mode : header.byteAt 5 = 0x02 := by
    have shown := header.getElem?_eq_byteAt 5 (by decide)
    rw [front, List.getElem?_take_of_lt (by decide),
      sealedStream_mode true sampleSender sampleRecipient sampleEphemeral (by decide)] at shown
    exact (Option.some.inj shown).symm
  rw [mode] at width
  rw [List.length_eq_zero_iff.mp width] at walk
  rw [ran] at total
  change lengths.sum = final.stdout.length at total
  rw [output] at total
  exact ⟨lengths, walk, total⟩

end PipeK1

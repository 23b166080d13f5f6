import PipeK1.CanonicalFraming
import PipeK1.StreamIntegrity
import PipeK1.Library.Chunking

/-!
# The encodings of a plaintext

Under one header and one trailer a plaintext has one encoding that is accepted.
Where its length is a positive multiple of the chunk size there is one more:
the last chunk can be intermediate, with an empty terminal chunk after it.
-/

set_option autoImplicit false

namespace PipeK1

open ByteData ByteReader Effects Numbering SealedData Chunking

variable {crates : Crates}

/-! ## Headers and trailers -/

def trailerLength (mode : UInt8) : Nat := if mode = 0x01 then trailerSize else 0

/-- Two byte strings with the same header and the same trailer. -/
structure SameEnds (mode : UInt8) (left right : Bytes) : Prop where
  header : left.take wireHeaderSize = right.take wireHeaderSize
  trailer : left.drop (left.length - trailerLength mode) =
    right.drop (right.length - trailerLength mode)

/-- The last chunk of `written`, a full one, is intermediate in `other`, and an empty terminal chunk
follows it. All else is the same. -/
structure Padded (mode : UInt8) (written other front trailer : Bytes)
    (last moved empty : WireChunk) : Prop where
  written_eq : written = front ++ (last.bytes ++ trailer)
  other_eq : other = front ++ (moved.bytes ++ (empty.bytes ++ trailer))
  last_terminal : last.termTag = 0x01
  last_full : last.ciphertext.length = chunkSize
  moved_intermediate : moved.termTag = 0x00
  moved_full : moved.ciphertext.length = chunkSize
  empty_terminal : empty.termTag = 0x01
  empty_empty : empty.ciphertext = []
  trailer_length : trailer.length = trailerLength mode

theorem Padded.length {mode : UInt8} {written other front trailer : Bytes}
    {last moved empty : WireChunk}
    (padded : Padded mode written other front trailer last moved empty) :
    other.length = written.length + 21 := by
  rw [padded.written_eq, padded.other_eq]
  simp only [WireChunk.bytes, List.length_append, List.length_cons, FixedBytes.length_toList,
    padded.last_full, padded.moved_full, padded.empty_empty, List.length_nil, tagSize]
  omega

theorem Stream.take_bytes (stream : Stream) :
    stream.bytes.take wireHeaderSize = stream.headerBytes.toList :=
  List.take_left' stream.headerBytes.length_toList

theorem wireBytes_append (left right : List StreamChunk) :
    wireBytes (left ++ right) = wireBytes left ++ wireBytes right := List.flatMap_append

theorem wireBytes_singleton (chunk : StreamChunk) : wireBytes [chunk] = chunk.wire.bytes :=
  List.flatMap_singleton _ chunk

theorem Stream.drop_bytes {stream : Stream} {length : Nat}
    (width : stream.trailer.length = length) :
    stream.bytes.drop (stream.bytes.length - length) = stream.trailer := by
  rw [Stream.bytes, ← List.append_assoc]
  refine List.drop_left' ?_
  rw [@List.length_append _ _ stream.trailer, width]
  omega

theorem sameEnds_iff {mode : UInt8} {stream stream' : Stream}
    (width : stream.trailer.length = trailerLength mode)
    (width' : stream'.trailer.length = trailerLength mode) :
    SameEnds mode stream.bytes stream'.bytes ↔
      stream.headerBytes = stream'.headerBytes ∧ stream.trailer = stream'.trailer := by
  constructor
  · rintro ⟨header, trailer⟩
    rw [stream.take_bytes, stream'.take_bytes] at header
    rw [Stream.drop_bytes width, Stream.drop_bytes width'] at trailer
    exact ⟨FixedBytes.ext header, trailer⟩
  · rintro ⟨header, trailer⟩
    refine ⟨?_, ?_⟩
    · rw [stream.take_bytes, stream'.take_bytes, header]
    · rw [Stream.drop_bytes width, Stream.drop_bytes width', trailer]

/-! ## Chunks from their plaintexts -/

section Chunks

variable {host : Host} {session : EncryptSession crates} {counter : UInt64}

theorem StreamChunk.Opens.seals {chunk : StreamChunk}
    (opens : StreamChunk.Opens crates (session.streamHeader host) counter chunk)
    (exact : crates.aead.OpensSealed session.payloadKey) : session.Seals counter chunk := by
  have width : chunk.plaintext.length = chunk.wire.ciphertext.length :=
    crates.aead.length_decrypt opens
  rw [EncryptSession.Seals, width]
  exact exact _ _ _ _ _ opens

theorem sealed_unique {left right : List StreamChunk}
    (seals : Numbered session.Seals counter left) (seals' : Numbered session.Seals counter right)
    (plaintexts : left.map StreamChunk.plaintext = right.map StreamChunk.plaintext)
    (tags : left.map (·.wire.termTag) = right.map (·.wire.termTag)) : left = right := by
  induction left generalizing right counter with
  | nil => exact (List.map_eq_nil_iff.mp plaintexts.symm).symm
  | cons chunk left ih =>
      cases right with
      | nil => cases plaintexts
      | cons chunk' right =>
          obtain ⟨plaintext, plaintexts⟩ := List.cons.inj plaintexts
          obtain ⟨tag, tags⟩ := List.cons.inj tags
          change chunk.wire.termTag = chunk'.wire.termTag at tag
          obtain ⟨first, later⟩ := numbered_cons_iff.mp seals
          obtain ⟨first', later'⟩ := numbered_cons_iff.mp seals'
          rw [ih later later' plaintexts tags]
          rw [EncryptSession.Seals, plaintext, tag, first'] at first
          obtain ⟨wire, _⟩ := chunk
          obtain ⟨wire', _⟩ := chunk'
          cases wire
          cases wire'
          cases plaintext
          cases tag
          cases first
          rfl

/-- Intermediate chunks first and a terminal one last. -/
theorem tags_eq {full : List StreamChunk} {last : StreamChunk}
    (intermediate : ∀ chunk ∈ full, chunk.wire.termTag = 0x00)
    (terminal : last.wire.termTag = 0x01) :
    (full ++ [last]).map (·.wire.termTag) = List.replicate full.length 0x00 ++ [0x01] := by
  rw [List.map_append, List.map_congr_left intermediate, List.map_const', List.map_singleton,
    terminal]

/-- The plaintexts determine the chunks. -/
theorem sealed_eq {full full' : List StreamChunk} {last last' : StreamChunk}
    (seals : Numbered session.Seals counter (full ++ [last]))
    (seals' : Numbered session.Seals counter (full' ++ [last']))
    (intermediate : ∀ chunk ∈ full, chunk.wire.termTag = 0x00)
    (intermediate' : ∀ chunk ∈ full', chunk.wire.termTag = 0x00)
    (terminal : last.wire.termTag = 0x01) (terminal' : last'.wire.termTag = 0x01)
    (fulls : full.map StreamChunk.plaintext = full'.map StreamChunk.plaintext)
    (lasts : last.plaintext = last'.plaintext) : full ++ [last] = full' ++ [last'] := by
  have count := congrArg List.length fulls
  rw [List.length_map, List.length_map] at count
  refine sealed_unique seals seals' ?_ ?_
  · rw [List.map_append, List.map_append, fulls, List.map_singleton, List.map_singleton, lasts]
  · rw [tags_eq intermediate terminal, tags_eq intermediate' terminal', count]

theorem plaintextOf_eq (full : List StreamChunk) (last : StreamChunk) :
    plaintextOf (full ++ [last]) =
      (full.map StreamChunk.plaintext).flatten ++ last.plaintext := by
  rw [plaintextOf, List.flatMap_append, List.flatMap_singleton, List.flatMap_def]

end Chunks

/-! ## Accepted encodings -/

section Accepted

variable {sender recipient : Host} {rounds : Nat}
  {argsE : EncryptArgs} {argsD : DecryptArgs} {recipPriv : FixedBytes 32}
  {recipKey : crates.curve.SigningKey} {session : EncryptSession crates} {stdinE : Reader}
  {full : List StreamChunk} {last : StreamChunk} {trailer : Bytes} {finalE : Process}

theorem EncryptedRun.pieces (smooth : Smooth stdinE)
    (run : EncryptedRun crates sender rounds argsE stdinE session full last trailer finalE) :
    Pieces chunkSize (content stdinE) (full.map StreamChunk.plaintext) last.plaintext where
  whole := by
    have whole := run.content_eq
    rw [run.exhausted smooth, List.append_nil, plaintextOf_eq] at whole
    exact whole.symm
  exact := by
    intro piece member
    obtain ⟨chunk, inside, rfl⟩ := List.mem_map.mp member
    exact run.allFull smooth chunk inside
  fits := run.terminal.2

theorem Stream.Conforms.pieces {stream : Stream} {recipPub : FixedBytes 32}
    (conforms : stream.Conforms crates argsD recipPriv recipPub) :
    Pieces chunkSize stream.plaintext (stream.full.map StreamChunk.plaintext)
      stream.last.plaintext where
  whole := (plaintextOf_eq stream.full stream.last).symm
  exact := by
    intro piece member
    obtain ⟨chunk, inside, rfl⟩ := List.mem_map.mp member
    obtain ⟨counter, opened⟩ :=
      conforms.opens.exists_of_mem (List.mem_append_left _ inside)
    exact (crates.aead.length_decrypt opened).trans (conforms.full chunk inside).2
  fits := by
    obtain ⟨counter, opened⟩ := conforms.opens.exists_of_mem
      (List.mem_append_right _ (List.mem_singleton_self stream.last))
    rw [crates.aead.length_decrypt opened]
    exact conforms.last.2

/-- The sender never ends with an empty chunk after another one. -/
theorem EncryptedRun.last_ne_nil (smooth : Smooth stdinE)
    (run : EncryptedRun crates sender rounds argsE stdinE session full last trailer finalE)
    (buffered : BufferedUp stdinE (full ++ [last]) finalE.stdin) (several : full ≠ []) :
    last.plaintext ≠ [] := by
  intro none
  have framing := run.framing smooth buffered
  have found : (full ++ [last])[full.length]? = some last := by simp
  obtain ⟨_, _, length⟩ := framing.last full.length last found (by simp)
  have size := congrArg List.length (run.pieces smooth).whole
  rw [List.length_append, (run.pieces smooth).length_flatten, none, List.length_nil,
    Nat.add_zero, List.length_map] at size
  have nonempty : (content stdinE).length ≠ 0 := by
    rw [← size]
    exact Nat.mul_ne_zero (List.length_eq_zero_iff.not.mpr several) (by decide)
  rw [none, if_pos ⟨nonempty, Dvd.intro_left _ size⟩] at length
  exact absurd length (by decide)

/-- What was accepted for the sender's input has the sender's chunks, unless the last one is full
and an empty one follows its plaintext. -/
theorem EncryptedRun.chunks_cases (smooth : Smooth stdinE)
    (run : EncryptedRun crates sender rounds argsE stdinE session full last trailer finalE)
    (buffered : BufferedUp stdinE (full ++ [last]) finalE.stdin) {stream : Stream}
    {recipPub : FixedBytes 32} (conforms : stream.Conforms crates argsD recipPriv recipPub)
    (seals : Numbered session.Seals 0 stream.chunks)
    (plaintext : stream.plaintext = content stdinE) :
    stream.chunks = full ++ [last] ∨
      last.plaintext.length = chunkSize ∧ stream.last.plaintext = [] ∧
        stream.full.map StreamChunk.plaintext =
          full.map StreamChunk.plaintext ++ [last.plaintext] := by
  have theirs := run.pieces smooth
  have pieces := conforms.pieces
  rw [plaintext] at pieces
  rcases theirs.unique_or_padded (by decide) pieces with
    ⟨fulls, lasts⟩ | ⟨fulls, none⟩ | ⟨fulls, none⟩
  · exact .inl (sealed_eq seals run.seals (fun chunk member => (conforms.full chunk member).1)
      (fun chunk member => (run.intermediate chunk member).1) conforms.last.1 run.terminal.1
      fulls.symm lasts.symm)
  · refine .inr ⟨pieces.exact _ ?_, none, fulls⟩
    rw [fulls]
    exact List.mem_append_right _ (List.mem_singleton_self _)
  · refine absurd none (run.last_ne_nil smooth buffered fun empty => ?_)
    rw [empty, List.map_nil] at fulls
    exact List.append_ne_nil_of_right_ne_nil _ (List.cons_ne_nil _ _) fulls.symm

/-- A conforming stream is accepted, and its plaintext written. -/
theorem runDecrypt_outputs {host : Host}
    (loaded : loadSecretKey crates host argsD.keyArgs = .ok recipPriv)
    (valid : crates.curve.signingKey recipPriv = .ok recipKey) {stream : Stream}
    (conforms : stream.Conforms crates argsD recipPriv (crates.curve.publicBytes recipKey))
    (ready : argsD.allowUnverifiedStream = false →
      SpoolReady crates host argsD.maxSize stream.plaintext)
    {stdin : Reader} (smooth : Smooth stdin) (content_eq : content stdin = stream.bytes) :
    ∃ final, runDecrypt crates host argsD (Process.start stdin) = .ok () final ∧
      final.stdout = stream.plaintext := by
  obtain ⟨final, finished⟩ := runDecrypt_of_conforms loaded valid conforms ready smooth content_eq
  obtain ⟨stream', accepted⟩ := (runDecrypt_ends crates host argsD stdin).ok finished
  obtain ⟨recipPriv', recipKey', loaded', valid', conforms'⟩ := accepted.conforms
  rw [loaded] at loaded'
  cases loaded'
  rw [valid] at valid'
  cases valid'
  have same : stream' = stream := by
    refine conforms'.unique crates conforms ?_
    rw [← content_eq, accepted.content_eq, accepted.exhausted smooth, List.append_nil]
  exact ⟨final, finished,
    same ▸ accepted.stdout fun spooling => (ready spooling).trusted⟩

variable (crates recipient argsD) in
/-- An input that decrypts to `plaintext`, with the header and the trailer of `written`. -/
structure EncodingOf (mode : UInt8) (written plaintext : Bytes) (stdin : Reader) : Prop where
  smooth : Smooth stdin
  ends : SameEnds mode (content stdin) written
  accepted : ∃ final, runDecrypt crates recipient argsD (Process.start stdin) = .ok () final ∧
    final.stdout = plaintext

theorem Correspondents.encoding_conforms
    (agree : Correspondents crates sender recipient rounds argsE argsD recipPriv recipKey)
    (run : EncryptedRun crates sender rounds argsE stdinE session full last trailer finalE)
    (trusted : argsD.allowUnverifiedStream = false → SpoolTrusted crates recipient)
    {plaintext : Bytes} {stdinD : Reader}
    (encoding : EncodingOf crates recipient argsD argsE.mode finalE.stdout plaintext stdinD) :
    ∃ stream : Stream, content stdinD = stream.bytes ∧
      stream.Conforms crates argsD recipPriv (crates.curve.publicBytes recipKey) ∧
      stream.headerBytes = session.header sender ∧ stream.trailer = trailer ∧
      stream.plaintext = plaintext := by
  obtain ⟨ephPriv, ephKey, keys⟩ := encryptSession_eq_ok run.session_eq
  obtain ⟨final, finished, output⟩ := encoding.accepted
  obtain ⟨stream, accepted⟩ := (runDecrypt_ends crates recipient argsD stdinD).ok finished
  obtain ⟨recipPriv', recipKey', loaded', valid', conforms⟩ := accepted.conforms
  rw [agree.loaded] at loaded'
  cases loaded'
  rw [agree.valid] at valid'
  cases valid'
  have whole : content stdinD = stream.bytes := by
    rw [accepted.content_eq, accepted.exhausted encoding.smooth, List.append_nil]
  have ends := encoding.ends
  rw [whole, show finalE.stdout = (session.stream sender full last trailer).bytes from
    run.stdout_eq] at ends
  -- The mode is in the header, so the trailers have one length.
  have header : stream.headerBytes = session.header sender := by
    have first := ends.header
    rw [Stream.take_bytes, Stream.take_bytes] at first
    exact FixedBytes.ext first
  have mode_eq : stream.header.mode = argsE.mode := by
    have field := conforms.header.mode_eq
    rw [header] at field
    exact (field.trans (wireHeader_mode _ _ _ _ _)).trans keys.mode_eq
  have width := conforms.trailer.length
  rw [mode_eq] at width
  obtain ⟨_, trailers⟩ := (sameEnds_iff width run.length_trailer).mp ends
  exact ⟨stream, whole, conforms, header, trailers, (accepted.stdout trusted).symm.trans output⟩

variable [AddCommGroup crates.curve.Point]

/-- What the recipient opens under a session's header is sealed as the session seals. -/
theorem Correspondents.seals_of_conforms (laws : Lawful crates)
    (exact : ∀ key, crates.aead.OpensSealed key)
    (agree : Correspondents crates sender recipient rounds argsE argsD recipPriv recipKey)
    (accepted : encryptSession crates sender rounds argsE = .ok session) {stream : Stream}
    (conforms : stream.Conforms crates argsD recipPriv (crates.curve.publicBytes recipKey))
    (header : stream.headerBytes = session.header sender) :
    Numbered session.Seals 0 stream.chunks := by
  obtain ⟨ephPriv, ephKey, keys⟩ := encryptSession_eq_ok accepted
  have known := conforms.header
  rw [header] at known
  have opened := conforms.opens
  rw [known.of_session laws.prime keys agree.valid] at opened
  exact opened.mono fun _ _ _ opens => opens.seals (exact session.payloadKey)

/-- A full last chunk can be sealed as an intermediate one, before an empty last one. -/
theorem Correspondents.padded (laws : Lawful crates)
    (agree : Correspondents crates sender recipient rounds argsE argsD recipPriv recipKey)
    (smooth : Smooth stdinE)
    (run : EncryptedRun crates sender rounds argsE stdinE session full last trailer finalE)
    (width : last.plaintext.length = chunkSize) :
    ∃ moved empty : StreamChunk,
      (session.stream sender (full ++ [moved]) empty trailer).Conforms crates argsD recipPriv
        (crates.curve.publicBytes recipKey) ∧
      moved.plaintext = last.plaintext ∧ empty.plaintext = [] ∧
      (session.stream sender (full ++ [moved]) empty trailer).plaintext = content stdinE := by
  have inverts := laws.inverts session.payloadKey
  have opens := run.chunks_open laws
  have conforms := agree.conforms laws.toEncryptLaws run (run.allFull smooth) opens
  obtain ⟨early, _⟩ := numbered_append_iff.mp opens
  have sealing : ∀ counter termTag (plaintext : Bytes), plaintext.length ≤ chunkSize →
      ∃ chunk : StreamChunk, chunk.wire.termTag = termTag ∧ chunk.plaintext = plaintext ∧
        session.Seals counter chunk := by
    intro counter termTag plaintext fits
    obtain ⟨ciphertext, tag, sealed⟩ := inverts.sealsUpTo (buildNonce counter termTag)
      (streamAad session.mode session.recipX plaintext.length counter termTag) plaintext fits
    exact ⟨⟨⟨termTag, ciphertext, tag⟩, plaintext⟩, rfl, rfl, sealed⟩
  obtain ⟨moved, movedTag, movedPlaintext, movedSeals⟩ :=
    sealing (0 + UInt64.ofNat full.length) 0x00 last.plaintext (Nat.le_of_eq width)
  obtain ⟨empty, emptyTag, emptyPlaintext, emptySeals⟩ :=
    sealing (0 + UInt64.ofNat (full ++ [moved]).length) 0x01 [] (Nat.zero_le _)
  have plaintext : plaintextOf ((full ++ [moved]) ++ [empty]) = content stdinE := by
    rw [plaintextOf_eq, emptyPlaintext, List.append_nil, List.map_append, List.map_singleton,
      movedPlaintext, List.flatten_append, List.flatten_singleton]
    exact (run.pieces smooth).whole
  refine ⟨moved, empty, ⟨conforms.header, ?_, ?_, ?_, ?_⟩, movedPlaintext, emptyPlaintext,
    plaintext⟩
  · intro chunk member
    rcases List.mem_append.mp member with before | here
    · exact conforms.full chunk before
    · rw [List.mem_singleton.mp here]
      refine ⟨movedTag, (crates.aead.length_encrypt movedSeals).trans ?_⟩
      rw [movedPlaintext, width]
  · refine ⟨emptyTag, ?_⟩
    rw [EncryptSession.stream, crates.aead.length_encrypt emptySeals, emptyPlaintext]
    exact Nat.zero_le _
  · refine (early.concat (movedSeals.opens inverts ?_)).concat (emptySeals.opens inverts ?_)
    · rw [movedPlaintext, width]
    · rw [emptyPlaintext]
      exact Nat.zero_le _
  · have signed := conforms.trailer
    have same : (session.stream sender full last trailer).plaintext = content stdinE :=
      (plaintextOf_eq full last).trans (run.pieces smooth).whole
    rw [same, ← plaintext] at signed
    exact signed

section Encodings

variable (agree : Correspondents crates sender recipient rounds argsE argsD recipPriv recipKey)
  (ready : argsD.allowUnverifiedStream = false →
    SpoolReady crates recipient argsD.maxSize (content stdinE))
  (run : EncryptedRun crates sender rounds argsE stdinE session full last trailer finalE)
include agree ready run

omit [AddCommGroup crates.curve.Point] in
/-- A conforming stream with the sender's header and trailer is an encoding. -/
theorem Correspondents.encoding_of_conforms {stream : Stream}
    (conforms : stream.Conforms crates argsD recipPriv (crates.curve.publicBytes recipKey))
    (header : stream.headerBytes = session.header sender) (sameTrailer : stream.trailer = trailer)
    (plaintext : stream.plaintext = content stdinE) {stdinD : Reader} (smoothD : Smooth stdinD)
    (bytes : content stdinD = stream.bytes) :
    EncodingOf crates recipient argsD argsE.mode finalE.stdout (content stdinE) stdinD := by
  obtain ⟨final, finished, output⟩ := runDecrypt_outputs agree.loaded agree.valid conforms
    (fun spooling => plaintext ▸ ready spooling) smoothD bytes
  refine ⟨smoothD, ?_, final, finished, output.trans plaintext⟩
  rw [bytes, show finalE.stdout = (session.stream sender full last trailer).bytes from
    run.stdout_eq]
  refine (sameEnds_iff ?_ run.length_trailer).mpr ⟨header, sameTrailer⟩
  rw [sameTrailer]
  exact run.length_trailer

/-- What the sender has written is an encoding. -/
theorem Correspondents.encoding_of_written (laws : Lawful crates) (smooth : Smooth stdinE)
    {stdinD : Reader} (smoothD : Smooth stdinD) (bytes : content stdinD = finalE.stdout) :
    EncodingOf crates recipient argsD argsE.mode finalE.stdout (content stdinE) stdinD :=
  agree.encoding_of_conforms ready run
    (agree.conforms laws.toEncryptLaws run (run.allFull smooth) (run.chunks_open laws)) rfl rfl
    ((plaintextOf_eq full last).trans (run.pieces smooth).whole) smoothD
    (bytes.trans run.stdout_eq)

end Encodings

/-- Under one header and one trailer, a plaintext has the encoding the sender writes and no other,
unless its length is a positive multiple of 64 KiB: then it has exactly one other, in which the
last chunk is intermediate and an empty one follows it. -/
theorem accepted_encodings (crates : Crates) [AddCommGroup crates.curve.Point]
    (laws : Lawful crates) (exact : ∀ key, crates.aead.OpensSealed key) (sender recipient : Host)
    (rounds : Nat) (argsE : EncryptArgs) (argsD : DecryptArgs) (recipPriv : FixedBytes 32)
    (recipKey : crates.curve.SigningKey)
    (agree : Correspondents crates sender recipient rounds argsE argsD recipPriv recipKey)
    (stdinE : Reader) (smooth : Smooth stdinE)
    (ready : argsD.allowUnverifiedStream = false →
      SpoolReady crates recipient argsD.maxSize (content stdinE))
    (finalE : Process)
    (ran : runEncrypt crates sender rounds argsE (Process.start stdinE) = .ok () finalE) :
    (¬ (content stdinE ≠ [] ∧ chunkSize ∣ (content stdinE).length) → ∀ stdinD,
      EncodingOf crates recipient argsD argsE.mode finalE.stdout (content stdinE) stdinD ↔
        Smooth stdinD ∧ content stdinD = finalE.stdout) ∧
    (content stdinE ≠ [] ∧ chunkSize ∣ (content stdinE).length →
      ∃ other front trailer last moved empty,
        Padded argsE.mode finalE.stdout other front trailer last moved empty ∧ ∀ stdinD,
          EncodingOf crates recipient argsD argsE.mode finalE.stdout (content stdinE) stdinD ↔
            Smooth stdinD ∧ (content stdinD = finalE.stdout ∨ content stdinD = other)) := by
  obtain ⟨session, full, last, trailer, run, buffered⟩ :=
    (runEncrypt_buffers crates sender rounds argsE stdinE).ok ran
  have theirs := run.pieces smooth
  have written : finalE.stdout = (session.stream sender full last trailer).bytes := run.stdout_eq
  have size := congrArg List.length theirs.whole
  rw [List.length_append, theirs.length_flatten] at size
  have own : ∀ stdinD, Smooth stdinD → content stdinD = finalE.stdout →
      EncodingOf crates recipient argsD argsE.mode finalE.stdout (content stdinE) stdinD :=
    fun stdinD smoothD => agree.encoding_of_written ready run laws smooth smoothD
  have cases : ∀ stdinD,
      EncodingOf crates recipient argsD argsE.mode finalE.stdout (content stdinE) stdinD →
      content stdinD = finalE.stdout ∨ last.plaintext.length = chunkSize ∧
        ∃ stream : Stream, content stdinD = stream.bytes ∧
          stream.Conforms crates argsD recipPriv (crates.curve.publicBytes recipKey) ∧
          stream.headerBytes = session.header sender ∧ stream.trailer = trailer ∧
          stream.last.plaintext = [] ∧ stream.full.map StreamChunk.plaintext =
            full.map StreamChunk.plaintext ++ [last.plaintext] := by
    intro stdinD encoding
    obtain ⟨stream, whole, conforms, header, sameTrailer, plaintext⟩ :=
      agree.encoding_conforms run (fun spooling => (ready spooling).trusted) encoding
    have seals := agree.seals_of_conforms laws exact run.session_eq conforms header
    rcases run.chunks_cases smooth buffered conforms seals plaintext with
      same | ⟨width, none, fulls⟩
    · refine .inl ?_
      rw [whole, written, Stream.bytes, Stream.bytes, header, same, sameTrailer]
      rfl
    · exact .inr ⟨width, stream, whole, conforms, header, sameTrailer, none, fulls⟩
  constructor
  · intro odd stdinD
    refine ⟨fun encoding => ⟨encoding.smooth, ?_⟩, fun delivered =>
      own stdinD delivered.1 delivered.2⟩
    refine (cases stdinD encoding).resolve_right fun longer => odd ?_
    rw [longer.1, ← Nat.succ_mul] at size
    refine ⟨fun empty => ?_, Dvd.intro_left _ size⟩
    rw [empty, List.length_nil] at size
    exact absurd size (Nat.mul_ne_zero (Nat.succ_ne_zero _) (by decide))
  · rintro ⟨nonempty, divides⟩
    have width : last.plaintext.length = chunkSize := by
      have framing := run.framing smooth buffered
      have found : (full ++ [last])[full.length]? = some last := by simp
      obtain ⟨_, _, length⟩ := framing.last full.length last found (by simp)
      rwa [if_pos ⟨List.length_eq_zero_iff.not.mpr nonempty, divides⟩] at length
    obtain ⟨moved, empty, conforms, movedPlaintext, emptyPlaintext, plaintext⟩ :=
      agree.padded laws smooth run width
    have seals := agree.seals_of_conforms laws exact run.session_eq conforms rfl
    have inside : moved ∈ (session.stream sender (full ++ [moved]) empty trailer).full :=
      List.mem_append_right _ (List.mem_singleton_self moved)
    obtain ⟨_, lastSeals⟩ :=
      run.seals.exists_of_mem (List.mem_append_right full (List.mem_singleton_self last))
    obtain ⟨_, emptySeals⟩ :=
      seals.exists_of_mem (List.mem_append_right _ (List.mem_singleton_self empty))
    refine ⟨(session.stream sender (full ++ [moved]) empty trailer).bytes,
      (session.header sender).toList ++ wireBytes full, trailer, last.wire, moved.wire, empty.wire,
      ?_, fun stdinD => ⟨fun encoding => ⟨encoding.smooth, ?_⟩, ?_⟩⟩
    · exact {
        written_eq := by
          rw [written, Stream.bytes, EncryptSession.stream, Stream.chunks, wireBytes_append,
            wireBytes_singleton, List.append_assoc, List.append_assoc]
        other_eq := by
          rw [Stream.bytes, EncryptSession.stream, Stream.chunks, wireBytes_append,
            wireBytes_append, wireBytes_singleton, wireBytes_singleton]
          simp only [List.append_assoc]
        last_terminal := run.terminal.1
        last_full := (crates.aead.length_encrypt lastSeals).trans width
        moved_intermediate := (conforms.full moved inside).1
        moved_full := (conforms.full moved inside).2
        empty_terminal := conforms.last.1
        empty_empty := List.length_eq_zero_iff.mp
          ((crates.aead.length_encrypt emptySeals).trans (congrArg List.length emptyPlaintext))
        trailer_length := run.length_trailer }
    · refine (cases stdinD encoding).imp_right ?_
      rintro ⟨_, stream, whole, conforms', header, sameTrailer, none, fulls⟩
      have seals' := agree.seals_of_conforms laws exact run.session_eq conforms' header
      have chunks : stream.chunks = (full ++ [moved]) ++ [empty] := by
        refine sealed_eq seals' seals (fun chunk member => (conforms'.full chunk member).1)
          (fun chunk member => (conforms.full chunk member).1) conforms'.last.1 conforms.last.1 ?_
          (none.trans emptyPlaintext.symm)
        rw [fulls, List.map_append, List.map_singleton, movedPlaintext]
      rw [whole, Stream.bytes, Stream.bytes, header, chunks, sameTrailer]
      rfl
    · rintro ⟨smoothD, bytes | bytes⟩
      · exact own stdinD smoothD bytes
      · exact agree.encoding_of_conforms ready run conforms rfl rfl plaintext smoothD bytes

end Accepted

open Reference in
/-- A plaintext of 128 KiB has a second encoding, and decrypts from it. -/
theorem accepted_encodings_sample :
    ∃ (finalE final : Process) (other front trailer : Bytes) (last moved empty : WireChunk),
      runEncrypt packages (keyHost sampleSender sampleEphemeral) 0
        (sealArgs false sampleRecipient)
        (Process.start (ofBytes (List.replicate (2 * chunkSize) 0))) = .ok () finalE ∧
      Padded 0x01 finalE.stdout other front trailer last moved empty ∧
      other.length = finalE.stdout.length + 21 ∧
      runDecrypt packages (keyHost sampleRecipient sampleEphemeral)
        (openArgs false sampleSender false) (Process.start (ofBytes other)) = .ok () final ∧
      final.stdout = List.replicate (2 * chunkSize) 0 ∧
      ∀ stdinD, EncodingOf packages (keyHost sampleRecipient sampleEphemeral)
          (openArgs false sampleSender false) 0x01 finalE.stdout
          (List.replicate (2 * chunkSize) 0) stdinD ↔
        Smooth stdinD ∧ (content stdinD = finalE.stdout ∨ content stdinD = other) := by
  have agree := correspondents ChaCha20Poly1305.cipher sampleSender sampleRecipient
    sampleEphemeral 0 false false
  have whole : content (ofBytes (List.replicate (2 * chunkSize) 0)) =
      List.replicate (2 * chunkSize) 0 := content_ofBytes _
  have size : (content (ofBytes (List.replicate (2 * chunkSize) 0))).length = 2 * chunkSize := by
    rw [whole, List.length_replicate]
  obtain ⟨finalE, ran⟩ := agree.encrypts lawful.toEncryptLaws
    (smooth_ofBytes (List.replicate (2 * chunkSize) 0)) (by rw [size]; decide)
  obtain ⟨_, several⟩ := accepted_encodings packages lawful
    ChaCha20Poly1305.cipher_opensSealed (keyHost sampleSender sampleEphemeral)
    (keyHost sampleRecipient sampleEphemeral) 0 (sealArgs false sampleRecipient)
    (openArgs false sampleSender false) (secretBytes sampleRecipient) sampleRecipient agree
    (ofBytes (List.replicate (2 * chunkSize) 0)) (smooth_ofBytes _)
    (fun _ => ⟨keyHost_trusted sampleRecipient sampleEphemeral,
      keyHost_takes sampleRecipient sampleEphemeral (by rw [size]; decide),
      by intro max limited; cases limited⟩) finalE ran
  obtain ⟨other, front, trailer, last, moved, empty, padded, encodings⟩ := several
    ⟨List.ne_nil_of_length_pos (by rw [size]; decide), by rw [size]; exact Nat.dvd_mul_left _ _⟩
  rw [whole] at encodings
  obtain ⟨_, _, final, accepted, output⟩ :=
    (encodings (ofBytes other)).mpr ⟨smooth_ofBytes other, .inr (content_ofBytes other)⟩
  exact ⟨finalE, final, other, front, trailer, last, moved, empty, ran, padded, padded.length,
    accepted, output, encodings⟩

end PipeK1

import PipeK1.Decrypt
import PipeK1.Library.Numbered

/-!
# Streams

The grammar of encrypted streams, stated without reference to the decryptor's
control flow, and the uniqueness of a stream's decomposition.
-/

set_option autoImplicit false

namespace PipeK1

open ByteData Numbering

variable (crates : Crates)

/-! ## Parts of a stream -/

/-- The header fields, the keys they lead to, and what the flags allow. -/
structure HeaderConforms (args : DecryptArgs) (recipPriv recipPub : FixedBytes 32)
    (bytes : FixedBytes wireHeaderSize) (header : StreamHeader) : Prop where
  magic : bytes.slice 0 4 = magicHeader
  version : bytes.byteAt 4 = 0x01
  mode_eq : header.mode = bytes.byteAt 5
  permitted : (header.mode = 0x01 ∧
      (args.expectedSender.isSome ∨ args.allowUntrustedSender = true)) ∨
    (header.mode = 0x02 ∧ args.expectedSender = none)
  recipient : bytes.slice 38 32 = recipPub
  recipPub_eq : header.recipPub = recipPub
  hmac_eq : header.hmac16 = bytes.slice 81 16
  liftable : ∃ point, liftX crates (bytes.slice 6 32) = .ok point
  authentic : ∃ ikm headerKey, ecdhSharedX crates recipPriv (bytes.slice 6 32) = .ok ikm ∧
    deriveKeys crates ikm (bytes.slice 70 11) = .ok (headerKey, header.payloadKey) ∧
    computeHeaderHmac crates headerKey (bytes.slice 0 81) = header.hmac16

/-- A chunk with the plaintext behind it. -/
structure StreamChunk where
  wire : WireChunk
  plaintext : Bytes

namespace StreamChunk

/-- The chunk opens under the payload key at this number. -/
def Opens (header : StreamHeader) (counter : UInt64) (chunk : StreamChunk) : Prop :=
  crates.aead.decrypt header.payloadKey (buildNonce counter chunk.wire.termTag)
    (streamAad header.mode header.recipPub chunk.wire.ciphertext.length counter
      chunk.wire.termTag) chunk.wire.ciphertext chunk.wire.tag = .ok chunk.plaintext

def Full (chunk : StreamChunk) : Prop :=
  chunk.wire.termTag = 0x00 ∧ chunk.wire.ciphertext.length = chunkSize

def Terminal (chunk : StreamChunk) : Prop :=
  chunk.wire.termTag = 0x01 ∧ chunk.wire.ciphertext.length ≤ chunkSize

end StreamChunk

/-- A signature over the header HMAC and the plaintext, by the expected sender. -/
structure TrailerVerifies (args : DecryptArgs) (hmac16 : FixedBytes 16) (plaintext : Bytes)
    (trailer : FixedBytes trailerSize) : Prop where
  authentic : ∃ senderVk sig,
    crates.curve.verifyingKey (trailer.slice 0 32) = .ok senderVk ∧
    crates.curve.signature (trailer.slice 32 64) = .ok sig ∧
    crates.curve.verifyRaw senderVk (taggedHash crates tagAuth
      (authTranscript hmac16 (crates.digests.sha256 plaintext)).toList) sig = .ok ()
  sender : ∀ exp, args.expectedSender = some exp →
    parseKeyBytes crates exp = .ok (trailer.slice 0 32)

def TrailerConforms (args : DecryptArgs) (header : StreamHeader) (plaintext trailer : Bytes) :
    Prop :=
  (header.mode = 0x02 ∧ trailer = []) ∨
    (header.mode = 0x01 ∧ ∃ array : FixedBytes trailerSize, trailer = array.toList ∧
      TrailerVerifies crates args header.hmac16 plaintext array)

/-! ## Streams -/

def wireBytes (chunks : List StreamChunk) : Bytes := chunks.flatMap fun chunk => chunk.wire.bytes

def plaintextOf (chunks : List StreamChunk) : Bytes := chunks.flatMap StreamChunk.plaintext

/-- A decomposition: header, full chunks, the last chunk, trailer. -/
structure Stream where
  headerBytes : FixedBytes wireHeaderSize
  header : StreamHeader
  full : List StreamChunk
  last : StreamChunk
  trailer : Bytes

namespace Stream

def chunks (stream : Stream) : List StreamChunk := stream.full ++ [stream.last]

def plaintext (stream : Stream) : Bytes := plaintextOf stream.chunks

def bytes (stream : Stream) : Bytes :=
  stream.headerBytes.toList ++ (wireBytes stream.chunks ++ stream.trailer)

structure Conforms (args : DecryptArgs) (recipPriv recipPub : FixedBytes 32)
    (stream : Stream) : Prop where
  header : HeaderConforms crates args recipPriv recipPub stream.headerBytes stream.header
  full : ∀ chunk ∈ stream.full, chunk.Full
  last : stream.last.Terminal
  opens : Numbered (StreamChunk.Opens crates stream.header) 0 stream.chunks
  trailer : TrailerConforms crates args stream.header stream.plaintext stream.trailer

end Stream

/-- The mode stands at the same place in every stream. -/
theorem Stream.Conforms.mode_of_bytes {args : DecryptArgs} {stream : Stream}
    {recipPriv recipPub : FixedBytes 32}
    (conforms : stream.Conforms crates args recipPriv recipPub) (rest : Bytes) :
    (stream.bytes ++ rest)[5]? = some stream.header.mode := by
  rw [Stream.bytes, List.append_assoc, List.getElem?_append_left
    (by rw [stream.headerBytes.length_toList]; decide), conforms.header.mode_eq]
  exact stream.headerBytes.getElem?_eq_byteAt 5 (by decide)

/-! ## Uniqueness -/

theorem WireChunk.bytes_append_inj {left right : WireChunk} {leftRest rightRest : Bytes}
    (leftFits : left.ciphertext.length ≤ chunkSize)
    (rightFits : right.ciphertext.length ≤ chunkSize)
    (same : left.bytes ++ leftRest = right.bytes ++ rightRest) :
    left = right ∧ leftRest = rightRest := by
  simp only [WireChunk.bytes, List.append_assoc, List.cons_append] at same
  obtain ⟨lenFields, same⟩ := List.append_inj same (by
    rw [FixedBytes.length_toList, FixedBytes.length_toList])
  obtain ⟨tags, same⟩ := List.cons.inj same
  have fieldValue := u32Be_injective (FixedBytes.ext lenFields)
  have lengths : left.ciphertext.length = right.ciphertext.length := by
    have values := congrArg UInt32.toNat fieldValue
    rwa [UInt32.toNat_ofNat_of_lt' (Nat.lt_of_le_of_lt leftFits (by decide)),
      UInt32.toNat_ofNat_of_lt' (Nat.lt_of_le_of_lt rightFits (by decide))] at values
  obtain ⟨ciphertexts, same⟩ := List.append_inj same lengths
  obtain ⟨aeadTags, rests⟩ := List.append_inj same (by
    rw [FixedBytes.length_toList, FixedBytes.length_toList])
  refine ⟨?_, rests⟩
  cases left
  cases right
  simp only [WireChunk.mk.injEq]
  exact ⟨tags, ciphertexts, FixedBytes.ext aeadTags⟩

/-- Where the terminal tag stands first, the wire chunks end. -/
theorem wires_unique {full full' : List StreamChunk} {last last' : StreamChunk}
    {trailer trailer' : Bytes} (early : ∀ chunk ∈ full, chunk.wire.termTag = 0x00)
    (early' : ∀ chunk ∈ full', chunk.wire.termTag = 0x00) (late : last.wire.termTag = 0x01)
    (late' : last'.wire.termTag = 0x01)
    (fits : ∀ chunk ∈ full ++ [last], chunk.wire.ciphertext.length ≤ chunkSize)
    (fits' : ∀ chunk ∈ full' ++ [last'], chunk.wire.ciphertext.length ≤ chunkSize)
    (same : wireBytes (full ++ [last]) ++ trailer = wireBytes (full' ++ [last']) ++ trailer') :
    full.map StreamChunk.wire = full'.map StreamChunk.wire ∧ last.wire = last'.wire ∧
      trailer = trailer' := by
  induction full generalizing full' with
  | nil =>
      have fitsLast := fits last List.mem_cons_self
      cases full' with
      | nil =>
          simp only [wireBytes, List.nil_append, List.flatMap_cons, List.flatMap_nil,
            List.append_nil] at same
          obtain ⟨wires, rests⟩ :=
            WireChunk.bytes_append_inj fitsLast (fits' last' List.mem_cons_self) same
          exact ⟨rfl, wires, rests⟩
      | cons first' full' =>
          simp only [wireBytes, List.nil_append, List.cons_append, List.flatMap_cons,
            List.append_assoc] at same
          obtain ⟨wires, _⟩ :=
            WireChunk.bytes_append_inj fitsLast (fits' first' List.mem_cons_self) same
          rw [wires, early' first' List.mem_cons_self] at late
          exact absurd late (by decide)
  | cons first full ih =>
      have fitsFirst := fits first List.mem_cons_self
      cases full' with
      | nil =>
          simp only [wireBytes, List.nil_append, List.cons_append, List.flatMap_cons,
            List.append_assoc] at same
          obtain ⟨wires, _⟩ :=
            WireChunk.bytes_append_inj fitsFirst (fits' last' List.mem_cons_self) same
          rw [← wires, early first List.mem_cons_self] at late'
          exact absurd late' (by decide)
      | cons first' full' =>
          simp only [wireBytes, List.cons_append, List.flatMap_cons, List.append_assoc] at same
          obtain ⟨wires, rests⟩ :=
            WireChunk.bytes_append_inj fitsFirst (fits' first' List.mem_cons_self) same
          obtain ⟨sameFull, sameLast, sameTrailer⟩ := ih
            (fun chunk member => early chunk (List.mem_cons_of_mem _ member))
            (fun chunk member => early' chunk (List.mem_cons_of_mem _ member))
            (fun chunk member => fits chunk (List.mem_cons_of_mem _ member))
            (fun chunk member => fits' chunk (List.mem_cons_of_mem _ member))
            (by simpa only [wireBytes] using rests)
          exact ⟨by rw [List.map_cons, List.map_cons, wires, sameFull], sameLast, sameTrailer⟩

/-- A wire chunk opens to one plaintext at each number. -/
theorem opens_unique {header : StreamHeader} {counter : UInt64} {left right : List StreamChunk}
    (opens : Numbered (StreamChunk.Opens crates header) counter left)
    (opens' : Numbered (StreamChunk.Opens crates header) counter right)
    (wires : left.map StreamChunk.wire = right.map StreamChunk.wire) : left = right := by
  induction left generalizing right counter with
  | nil => exact (List.map_eq_nil_iff.mp wires.symm).symm
  | cons first left ih =>
      cases right with
      | nil => cases wires
      | cons first' right =>
          obtain ⟨wire, later⟩ := List.cons.inj wires
          obtain ⟨opensFirst, opensLater⟩ := numbered_cons_iff.mp opens
          obtain ⟨opensFirst', opensLater'⟩ := numbered_cons_iff.mp opens'
          rw [ih opensLater opensLater' later]
          cases first
          cases first'
          simp only [StreamChunk.Opens] at opensFirst opensFirst' wire
          subst wire
          rw [opensFirst] at opensFirst'
          cases opensFirst'
          rfl

theorem length_ciphertext_le {full : List StreamChunk} {last : StreamChunk}
    (allFull : ∀ chunk ∈ full, chunk.Full) (terminal : last.Terminal) :
    ∀ chunk ∈ full ++ [last], chunk.wire.ciphertext.length ≤ chunkSize := by
  intro chunk member
  rcases List.mem_append.mp member with early | late
  · exact Nat.le_of_eq (allFull chunk early).2
  · rw [List.mem_singleton.mp late]
    exact terminal.2

/-- The chunks of a stream are determined by the bytes that follow its header. -/
theorem chunks_unique {header : StreamHeader} {counter : UInt64}
    {full full' : List StreamChunk} {last last' : StreamChunk} {trailer trailer' : Bytes}
    (opens : Numbered (StreamChunk.Opens crates header) counter (full ++ [last]))
    (opens' : Numbered (StreamChunk.Opens crates header) counter (full' ++ [last']))
    (allFull : ∀ chunk ∈ full, chunk.Full) (allFull' : ∀ chunk ∈ full', chunk.Full)
    (terminal : last.Terminal) (terminal' : last'.Terminal)
    (same : wireBytes (full ++ [last]) ++ trailer = wireBytes (full' ++ [last']) ++ trailer') :
    full = full' ∧ last = last' ∧ trailer = trailer' := by
  obtain ⟨fulls, lasts, trailers⟩ := wires_unique (fun chunk member => (allFull chunk member).1)
    (fun chunk member => (allFull' chunk member).1) terminal.1 terminal'.1
    (length_ciphertext_le allFull terminal) (length_ciphertext_le allFull' terminal') same
  have wires : (full ++ [last]).map StreamChunk.wire = (full' ++ [last']).map StreamChunk.wire := by
    rw [List.map_append, List.map_append, fulls, List.map_singleton, List.map_singleton, lasts]
  obtain ⟨chunks, last_eq⟩ :=
    List.append_inj' (opens_unique crates opens opens' wires) rfl
  exact ⟨chunks, List.singleton_inj.mp last_eq, trailers⟩

theorem HeaderConforms.unique {args : DecryptArgs} {recipPriv recipPub : FixedBytes 32}
    {bytes : FixedBytes wireHeaderSize} {header header' : StreamHeader}
    (conforms : HeaderConforms crates args recipPriv recipPub bytes header)
    (conforms' : HeaderConforms crates args recipPriv recipPub bytes header') :
    header = header' := by
  obtain ⟨ikm, headerKey, shared, derived, _⟩ := conforms.authentic
  obtain ⟨ikm', headerKey', shared', derived', _⟩ := conforms'.authentic
  rw [shared] at shared'
  cases shared'
  rw [derived] at derived'
  have keys := Except.ok.inj derived'
  have modes := conforms.mode_eq.trans conforms'.mode_eq.symm
  have recipients := conforms.recipPub_eq.trans conforms'.recipPub_eq.symm
  have hmacs := conforms.hmac_eq.trans conforms'.hmac_eq.symm
  have payloads := congrArg Prod.snd keys
  cases header
  cases header'
  simp only [StreamHeader.mk.injEq] at *
  exact ⟨modes, recipients, hmacs, payloads⟩

/-- A byte string is a conforming stream in at most one way. -/
theorem Stream.Conforms.unique {args : DecryptArgs} {recipPriv recipPub : FixedBytes 32}
    {stream stream' : Stream} (conforms : stream.Conforms crates args recipPriv recipPub)
    (conforms' : stream'.Conforms crates args recipPriv recipPub)
    (same : stream.bytes = stream'.bytes) : stream = stream' := by
  obtain ⟨headerBytes, rest⟩ := List.append_inj same (by
    rw [FixedBytes.length_toList, FixedBytes.length_toList])
  have sameHeader := FixedBytes.ext headerBytes
  have header := conforms.header
  rw [sameHeader] at header
  have headers := header.unique crates conforms'.header
  have opens := conforms.opens
  rw [headers] at opens
  obtain ⟨fulls, lasts, trailers⟩ := chunks_unique crates opens conforms'.opens conforms.full
    conforms'.full conforms.last conforms'.last rest
  cases stream
  cases stream'
  simp only [Stream.mk.injEq]
  exact ⟨sameHeader, headers, fulls, lasts, trailers⟩

end PipeK1

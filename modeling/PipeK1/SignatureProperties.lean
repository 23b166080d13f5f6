import PipeK1.Armor
import PipeK1.Reference

/-!
# Signatures read back

A signer's payload verifies and carries the signer's key and the timestamp;
the armored text printed for it is read back as the payload.
-/

set_option autoImplicit false

namespace PipeK1

open ByteData

variable {crates : Crates}

/-! ## Payload fields -/

section Fields

variable (timestamp : UInt32) (pub : FixedBytes 32) (sig : FixedBytes 64)

def signaturePayload : SignaturePayload :=
  (((magicSignature.append (FixedBytes.single 0x01)).append (u32Be timestamp)).append pub).append
    sig

theorem signaturePayload_formed : PayloadFormed (signaturePayload timestamp pub sig) where
  magic := FixedBytes.ext rfl
  version := Option.some.inj
    (FixedBytes.getElem?_eq_byteAt (signaturePayload timestamp pub sig) 4 (by decide)).symm

theorem signaturePayload_timestamp :
    (signaturePayload timestamp pub sig).slice 5 4 = u32Be timestamp :=
  ((FixedBytes.slice_append_left _ sig 5 4 (by decide) (by decide)).trans
    (FixedBytes.slice_append_left _ pub 5 4 (by decide) (by decide))).trans
    (FixedBytes.slice_append_right (magicSignature.append (FixedBytes.single 0x01))
      (u32Be timestamp) (by decide))

theorem signaturePayload_signer : (signaturePayload timestamp pub sig).slice 9 32 = pub :=
  (FixedBytes.slice_append_left _ sig 9 32 (by decide) (by decide)).trans
    (FixedBytes.slice_append_right ((magicSignature.append (FixedBytes.single 0x01)).append
      (u32Be timestamp)) pub (by decide))

theorem signaturePayload_signature : (signaturePayload timestamp pub sig).slice 41 64 = sig :=
  FixedBytes.slice_append_right (((magicSignature.append (FixedBytes.single 0x01)).append
    (u32Be timestamp)).append pub) sig (by decide)

end Fields

/-! ## Signing -/

/-- A payload that verifies, by this key and with this timestamp. -/
structure SignedBy (crates : Crates) (signer msgDigest : FixedBytes 32) (timestamp : UInt32)
    (payload : SignaturePayload) : Prop where
  verifies : PayloadVerifies crates payload msgDigest
  signer_eq : payload.slice 9 32 = signer
  timestamp_eq : u32FromBe (payload.slice 5 4) = timestamp

/-- A valid key signs, and what it signs verifies. -/
theorem signStreamPayload_exists (signs : crates.curve.SignsAndVerifies)
    {secret : FixedBytes 32} {signingKey : crates.curve.SigningKey}
    (valid : crates.curve.signingKey secret = .ok signingKey) (msgDigest : FixedBytes 32)
    (timestamp : UInt32) :
    ∃ payload, signStreamPayload crates signingKey msgDigest timestamp = .ok payload ∧
      SignedBy crates (crates.curve.publicBytes signingKey) msgDigest timestamp payload := by
  obtain ⟨sig, signing⟩ := signs.signs secret signingKey
    (taggedHash crates tagSign (tsAndDigest timestamp msgDigest).toList) valid
  obtain ⟨verifier, decoded, key, framed, verified⟩ :=
    signs.verifies secret signingKey _ sig valid signing
  let payload := signaturePayload timestamp (crates.curve.publicBytes signingKey)
    (crates.curve.signatureBytes sig)
  have signer : payload.slice 9 32 = crates.curve.publicBytes signingKey :=
    signaturePayload_signer _ _ _
  have time : u32FromBe (payload.slice 5 4) = timestamp := by
    rw [signaturePayload_timestamp, u32FromBe_u32Be]
  refine ⟨payload, ?_, ⟨signaturePayload_formed _ _ _, verifier, decoded, ?_, ?_, tagSign,
    .inl rfl, ?_⟩, signer, time⟩
  · simp only [signStreamPayload, signing]
    rfl
  · rw [signer, key]
  · rw [signaturePayload_signature, framed]
  · rw [time]
    exact verified

/-! ## Armor -/

/-- The standard Base64 engine: its alphabet and padding, and decoding inverts encoding. -/
structure Base64Laws (encodings : Encodings) : Prop where
  inverts : ∀ bytes, encodings.base64Decode (encodings.base64Encode bytes) = .ok bytes
  symbols : ∀ bytes, ∀ c ∈ (encodings.base64Encode bytes).toList, c ∈ '=' :: Base64.alphabet

/-- Bytes are printed as lowercase hexadecimal digits. -/
def HexDigits (encodings : Encodings) : Prop :=
  ∀ bytes, ∀ c ∈ (encodings.hexEncode bytes).toList, c ∈ "0123456789abcdef".toList

/-- Lines of text with their line feeds. -/
def linesText (texts : List (List Char)) : Bytes :=
  Text.utf8 (String.ofList (texts.flatMap fun line => line ++ ['\n']))

theorem utf8_newline (text : String) : Text.utf8 (text ++ "\n") = linesText [text.toList] := by
  rw [linesText, List.flatMap_singleton, String.ofList_append, String.ofList_toList]

theorem linesText_append (first second : List (List Char)) :
    linesText (first ++ second) = linesText first ++ linesText second := by
  rw [linesText, List.flatMap_append, String.ofList_append, Text.utf8_append]
  rfl

def armorLines (label text : String) : List (List Char) :=
  [("-----BEGIN " ++ label ++ "-----").toList, [], text.toList,
    ("-----END " ++ label ++ "-----").toList]

/-- The two labels under which signatures are printed. -/
def printedLabels : List String := ["PIPE-K1 SIGNATURE", "PGP SIGNATURE"]

/-- A line that is none of armor's. -/
structure OutsideArmor (line : List Char) : Prop where
  single : '\n' ∉ line ∧ line.getLast? ≠ some '\r'
  begins : beginsArmor (Text.trim line) = false
  ends : endsArmor (Text.trim line) = false

theorem base64_symbol_spec : ∀ c ∈ '=' :: Base64.alphabet, Text.isWhitespace c = false ∧
    c ≠ ':' ∧ c ≠ ' ' ∧ c ≠ '\n' ∧ c ≠ '\r' := by
  have checked : ('=' :: Base64.alphabet).all (fun c =>
      !Text.isWhitespace c && (c != ':' && (c != ' ' && (c != '\n' && c != '\r')))) = true := by
    decide +kernel
  intro c member
  simpa using List.all_eq_true.mp checked c member

theorem symbols_of_alphabet {text : List Char} (symbols : ∀ c ∈ text, c ∈ '=' :: Base64.alphabet) :
    ArmoredFile.Symbols text := by
  intro c member
  obtain ⟨solid, colon, _⟩ := base64_symbol_spec c (symbols c member)
  exact ⟨solid, colon⟩

/-- The line a signing run of the shim may put before the armor. -/
def createdLine (crates : Crates) (timestamp : UInt32) (pub : FixedBytes 32) : String :=
  "[GNUPG:] SIG_CREATED D 1 8 00 " ++ toString timestamp.toNat ++ " " ++
    crates.encodings.hexEncode pub.toList

/-- The characters that neither end a line nor start the word `END`. -/
def Quiet (c : Char) : Prop := c ≠ 'E' ∧ c ≠ '\n' ∧ c ≠ '\r'

theorem quiet_number (n : Nat) : ∀ c ∈ (toString n).toList, Quiet c := by
  intro c member
  rw [Nat.toString_eq_ofList_toDigits, String.toList_ofList] at member
  have digit : c.isDigit = true := Nat.isDigit_of_mem_toDigits (by decide) (by decide) member
  refine ⟨?_, ?_, ?_⟩ <;> rintro rfl <;> exact absurd digit (by decide)

theorem quiet_of_all {letters : String}
    (checked : letters.toList.all (fun c => c != 'E' && (c != '\n' && c != '\r')) = true) :
    ∀ c ∈ letters.toList, Quiet c := by
  intro c member
  have spared := List.all_eq_true.mp checked c member
  simp only [Bool.and_eq_true, bne_iff_ne] at spared
  exact spared

theorem toList_append_four (first second third fourth : String) :
    (first ++ second ++ third ++ fourth).toList =
      first.toList ++ (second.toList ++ (third.toList ++ fourth.toList)) := by
  rw [String.toList_append, String.toList_append, String.toList_append, List.append_assoc,
    List.append_assoc]

/-- After its fixed beginning the line carries digits, a blank and the hexadecimal key. -/
theorem createdLine_split (hex : HexDigits crates.encodings) (timestamp : UInt32)
    (pub : FixedBytes 32) : ∃ back : List Char,
      (createdLine crates timestamp pub).toList =
        "[GNUPG:] SIG_CREATED D 1 8 00 ".toList ++ back ∧ ' ' ∈ back ∧ ∀ c ∈ back, Quiet c := by
  refine ⟨(toString timestamp.toNat).toList ++ (" ".toList ++
    (crates.encodings.hexEncode pub.toList).toList), toList_append_four _ _ _ _, ?_, ?_⟩
  · exact List.mem_append_right _ (List.mem_append_left _ List.mem_cons_self)
  · intro c member
    rcases List.mem_append.mp member with number | rest
    · exact quiet_number _ c number
    · rcases List.mem_append.mp rest with space | key
      · exact quiet_of_all (by decide) c space
      · exact quiet_of_all (by decide) c (hex _ c key)

theorem outsideArmor_createdLine (hex : HexDigits crates.encodings) (timestamp : UInt32)
    (pub : FixedBytes 32) : OutsideArmor (createdLine crates timestamp pub).toList := by
  obtain ⟨back, split, filled, quiet⟩ := createdLine_split hex timestamp pub
  let front := "[GNUPG:] SIG_CREATED D 1 8 00 ".toList
  have absent : ∀ start : List Char, ¬ start ++ ['E'] <:+: front →
      Text.contains (start ++ ['E']) (Text.trim (createdLine crates timestamp pub).toList) =
        false := by
    intro start missing
    rw [Bool.eq_false_iff, ne_eq, Text.contains_iff, split]
    intro found
    exact missing (Text.infix_of_append (found.trans (Text.infix_of_trim _))
      fun member => (quiet 'E' member).1 rfl)
  refine ⟨⟨?_, ?_⟩, ?_, ?_⟩
  · rw [split, List.mem_append, not_or]
    exact ⟨by decide, fun member => (quiet _ member).2.1 rfl⟩
  · intro last
    rw [split, List.getLast?_append_of_ne_nil _ (List.ne_nil_of_mem filled)] at last
    exact (quiet _ (List.mem_of_getLast? last)).2.2 rfl
  · simp only [beginsArmor, Bool.or_eq_false_iff]
    exact ⟨⟨absent "BEGIN PGP SIGNATUR".toList (by decide),
      absent "BEGIN PIPE-K1 SIGNATUR".toList (by decide)⟩,
      absent "BEGIN PIPEK1 SIGNATUR".toList (by decide)⟩
  · simp only [endsArmor, Bool.or_eq_false_iff]
    exact ⟨⟨absent "END PGP SIGNATUR".toList (by decide),
      absent "END PIPE-K1 SIGNATUR".toList (by decide)⟩,
      absent "END PIPEK1 SIGNATUR".toList (by decide)⟩

/-- Lines that end with line feeds. -/
theorem exists_textLines {texts : List (List Char)} (single : ∀ line ∈ texts, '\n' ∉ line) :
    ∃ lines : List Text.Line, lines.map Text.Line.body = texts ∧
      lines.flatMap Text.Line.text = texts.flatMap fun line => line ++ ['\n'] := by
  induction texts with
  | nil => exact ⟨[], rfl, rfl⟩
  | cons line texts ih =>
      obtain ⟨lines, bodies, text⟩ := ih fun other member =>
        single other (List.mem_cons_of_mem line member)
      refine ⟨⟨line, false, single line List.mem_cons_self⟩ :: lines, ?_, ?_⟩
      · rw [List.map_cons, bodies]
      · rw [List.flatMap_cons, text, List.flatMap_cons]
        rfl

/-- What is printed is one of the layouts. -/
theorem exists_armoredFile {label : String} (printed : label ∈ printedLabels)
    {before : List (List Char)} (outside : ∀ line ∈ before, OutsideArmor line) {text : String}
    (single : '\n' ∉ text.toList) :
    ∃ file : ArmoredFile text.toList, beginsArmor file.closing = false ∧
      linesText (before ++ armorLines label text) = Text.utf8 (String.ofList file.text) := by
  obtain ⟨preamble, bodies, preambleText⟩ :=
    exists_textLines fun line member => (outside line member).single.1
  have unmarked : ∀ line ∈ preamble, Unmarked line.body := by
    intro line member
    have named : line.body ∈ before := by
      rw [← bodies]
      exact List.mem_map_of_mem member
    exact ⟨beginsArmor_trim line.body ▸ (outside _ named).begins,
      endsArmor_trim line.body ▸ (outside _ named).ends⟩
  have opens : beginsArmor ("-----BEGIN " ++ label ++ "-----").toList = true := by
    revert label
    decide
  have closes : beginsArmor ("-----END " ++ label ++ "-----").toList = false ∧
      endsArmor ("-----END " ++ label ++ "-----").toList = true := by
    revert label
    decide
  have ends : ∀ line ∈ [("-----BEGIN " ++ label ++ "-----").toList,
      ("-----END " ++ label ++ "-----").toList], '\n' ∉ line := by
    revert label
    decide
  let file : ArmoredFile text.toList := {
    preamble := preamble
    opening := ⟨("-----BEGIN " ++ label ++ "-----").toList, false, ends _ (by simp)⟩
    headers := [⟨[], false, List.not_mem_nil⟩]
    pieces := [⟨[], text.toList, [], false, fun _ none => absurd none List.not_mem_nil, by
      rwa [List.nil_append, List.append_nil]⟩]
    closing := ("-----END " ++ label ++ "-----").toList
    rest := ['\n']
    outside := unmarked
    opens := opens
    unmarked := by
      intro line member
      rw [List.mem_singleton.mp member]
      exact .of_solid List.not_mem_nil
    skipped := by
      intro line member
      rw [List.mem_singleton.mp member]
      exact .inr fun _ none => absurd none List.not_mem_nil
    cut := by rw [List.flatMap_singleton]
    closes := closes.2
    single := ends _ (by simp)
    ended := .inr ⟨[], rfl⟩ }
  refine ⟨file, closes.1, ?_⟩
  rw [linesText, ArmoredFile.text, List.flatMap_append, ← preambleText]
  simp [file, armorLines, Text.Line.text, PaddedPiece.line]

/-- What is printed for some bytes is read back, whatever stands before it. -/
theorem detachArmor_armorLines (base64 : Base64Laws crates.encodings) {label : String}
    (printed : label ∈ printedLabels) {before : List (List Char)}
    (outside : ∀ line ∈ before, OutsideArmor line) (bytes : Bytes) :
    detachArmor crates (linesText (before ++
      armorLines label (crates.encodings.base64Encode bytes))) = .ok bytes := by
  have symbols := base64.symbols bytes
  obtain ⟨file, distinct, text⟩ := exists_armoredFile printed outside fun member =>
    (base64_symbol_spec _ (symbols _ member)).2.2.2.1 rfl
  rw [text]
  refine detachArmor_armored file (symbols_of_alphabet symbols) distinct ?_
  rw [String.ofList_toList, base64.inverts]

/-! ## On the reference crates -/

namespace Reference

theorem base64Laws : Base64Laws packages.encodings where
  inverts := Base64.decode_encode
  symbols _ _ member := Base64.mem_encode member

theorem hexDigits : HexDigits packages.encodings := by
  intro bytes c member
  obtain ⟨value, small, rfl⟩ := Hex.exists_digit member
  have all : ∀ value < 16, Hex.digit value ∈ "0123456789abcdef".toList := by decide
  exact all value small

theorem mem_publicBytes : (0xf9 : UInt8) ∈ (publicBytes sampleSender).toList := by
  decide +kernel

/-- The public key of the sender has a byte that UTF-8 never has. -/
theorem high_byte_of_signer {payload : SignaturePayload}
    (signer : payload.slice 9 32 = publicBytes sampleSender) :
    Text.fromUtf8 payload.toList = none := by
  have first := mem_publicBytes
  rw [← signer, FixedBytes.toList_slice] at first
  exact Text.fromUtf8_eq_none (List.mem_of_mem_drop (List.mem_of_mem_take first)) (by decide)

theorem exists_samplePayload (timestamp : UInt32) :
    ∃ payload : SignaturePayload,
      signStreamPayload packages sampleSender (packages.digests.sha256 sampleData) timestamp =
        .ok payload ∧
      SignedBy packages (publicBytes sampleSender) (packages.digests.sha256 sampleData) timestamp
        payload ∧
      detachArmor packages payload.toList = .ok payload.toList := by
  obtain ⟨payload, signing, signed⟩ := @signStreamPayload_exists packages signs
    (secretBytes sampleSender) sampleSender (signingKey_secretBytes sampleSender)
    (packages.digests.sha256 sampleData) timestamp
  refine ⟨payload, signing, signed, detachArmor_raw fun text decoded => ?_⟩
  rw [high_byte_of_signer signed.signer_eq] at decoded
  cases decoded

/-- A payload in the name of the key 3, with a signature that key never gives. -/
def forgedPayload : SignaturePayload :=
  signaturePayload 1700000000 (publicBytes sampleSender) (FixedBytes.zeros 64)

theorem signature_ne_zeros (hash : FixedBytes 32) :
    signature (publicBytes sampleSender) hash ≠ FixedBytes.zeros 64 := by
  have named : (publicBytes sampleSender).append hash ≠ FixedBytes.zeros 64 := by
    intro same
    have zero : (0xf9 : UInt8) ∈ (FixedBytes.zeros 64).toList :=
      same ▸ List.mem_append_left _ mem_publicBytes
    exact absurd (List.eq_of_mem_replicate zero) (by decide)
  unfold signature
  cases found : recorded.lookup (beNat hash.toList) with
  | none => exact named
  | some value =>
      dsimp only
      split
      · have listed : value ∈ recorded.map Prod.snd := by
          obtain ⟨early, late, whole, _⟩ := List.lookup_eq_some_iff.mp found
          rw [whole]
          simp
        have filled : ∀ value ∈ recorded.map Prod.snd,
            (⟨beList 64 value, length_beList 64 value⟩ : FixedBytes 64) ≠ FixedBytes.zeros 64 := by
          decide +kernel
        exact filled value listed
      · exact named

theorem forgedPayload_refused (digest : FixedBytes 32) :
    ¬ PayloadVerifies packages forgedPayload digest := by
  rintro ⟨_, vk, sig, key, parsed, tag, _, verified⟩
  rw [forgedPayload, signaturePayload_signer] at key
  rw [forgedPayload, signaturePayload_signature] at parsed
  cases (verifyingKey_publicBytes sampleSender).symm.trans key
  cases parsed
  change verifyRaw _ _ _ = _ at verified
  rw [verifyRaw, if_neg fun same => signature_ne_zeros _ same.symm] at verified
  cases verified

theorem detachArmor_forgedPayload :
    detachArmor packages forgedPayload.toList = .ok forgedPayload.toList :=
  detachArmor_raw fun text decoded => by
    have binary : Text.fromUtf8 forgedPayload.toList = none :=
      high_byte_of_signer (signaturePayload_signer _ _ _)
    rw [binary] at decoded
    cases decoded

end Reference

end PipeK1

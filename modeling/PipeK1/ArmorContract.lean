import PipeK1.VerifyContract

/-!
# Reading signature files

`verify` and the git shim recover a payload from every layout of its armor, and
take a file in which no armor begins as it is.
-/

set_option autoImplicit false

namespace PipeK1

open ByteData Effects

variable {crates : Crates}

/-- Both readers go on with `sigBytes` where the signature file holds `sigRaw`. -/
structure ReadAs (crates : Crates) (sigRaw sigBytes : Bytes) : Prop where
  verify : ∀ (host : Host) (options : VerifyOptions) (path : String), options.sigPath = some path →
    host.fileContents (PathBuf.parse path) = .ok sigRaw →
    loadSignature crates host options = payloadOfBytes sigBytes
  shim : ∀ (host : Host) (args : ShimArgs) (path : String), args.verifySigPath = some path →
    host.fileContents (PathBuf.parse path) = .ok sigRaw →
    shimVerify crates host args = checkPayload crates host args sigBytes

theorem readAs_of_detached {sigRaw sigBytes : Bytes}
    (detached : detachArmor crates sigRaw = .ok sigBytes) : ReadAs crates sigRaw sigBytes where
  verify host options path named contents := loadSignature_of_detached named contents detached
  shim host args path named contents := by
    simp only [shimVerify, named, contents]
    change (orFail id (detachArmor crates sigRaw) >>= checkPayload crates host args) = _
    rw [detached]
    rfl

/-! ## Files without a marker -/

/-- None of the texts that begin armor occurs among the bytes. -/
def NoArmorBegins (sigRaw : Bytes) : Prop :=
  ∀ marker ∈ ["BEGIN PGP SIGNATURE", "BEGIN PIPE-K1 SIGNATURE", "BEGIN PIPEK1 SIGNATURE"],
    ¬ Text.utf8 marker <:+: sigRaw

theorem infix_utf8_of {marker : String} {text : List Char} (found : marker.toList <:+: text) :
    Text.utf8 marker <:+: Text.utf8 (String.ofList text) := by
  obtain ⟨before, after, rfl⟩ := found
  refine ⟨Text.utf8 (String.ofList before), Text.utf8 (String.ofList after), ?_⟩
  rw [← Text.utf8_append, ← Text.utf8_append, String.ofList_append, String.ofList_append,
    String.ofList_toList]

theorem NoArmorBegins.beginsArmor_eq {sigRaw : Bytes} (unbegun : NoArmorBegins sigRaw)
    {text : List Char} (decoded : Text.fromUtf8 sigRaw = some text) : beginsArmor text = false := by
  have absent : ∀ marker ∈ ["BEGIN PGP SIGNATURE", "BEGIN PIPE-K1 SIGNATURE",
      "BEGIN PIPEK1 SIGNATURE"], Text.contains marker.toList text = false := by
    intro marker known
    rw [Bool.eq_false_iff, ne_eq, Text.contains_iff]
    intro found
    rw [Text.fromUtf8_eq_some_iff.mp decoded] at unbegun
    exact unbegun marker known (infix_utf8_of found)
  rw [beginsArmor, absent _ (by simp), absent _ (by simp), absent _ (by simp)]
  rfl

/-! ## The readers -/

/-- Every layout whose closing line begins no armor is read as its payload, and a file in which
no armor begins as itself. -/
theorem armor_recovers_payload (crates : Crates) (base64 : Base64Laws crates.encodings) :
    (∀ (payload : SignaturePayload)
      (file : ArmoredFile (crates.encodings.base64Encode payload.toList).toList),
      beginsArmor file.closing = false →
        ReadAs crates (Text.utf8 (String.ofList file.text)) payload.toList ∧
          payloadOfBytes payload.toList = .ok payload) ∧
    ∀ sigRaw, NoArmorBegins sigRaw → ReadAs crates sigRaw sigRaw := by
  constructor
  · intro payload file distinct
    have symbols := symbols_of_alphabet (base64.symbols payload.toList)
    have decodes : crates.encodings.base64Decode (String.ofList
        (crates.encodings.base64Encode payload.toList).toList) = .ok payload.toList := by
      rw [String.ofList_toList, base64.inverts]
    refine ⟨readAs_of_detached (detachArmor_armored file symbols distinct decodes), ?_⟩
    rw [payloadOfBytes, FixedBytes.ofList?_toList]
  · intro sigRaw unbegun
    exact readAs_of_detached (detachArmor_raw fun _ decoded => unbegun.beginsArmor_eq decoded)

section Sample

open Reference

theorem base64Encode_zeros :
    (packages.encodings.base64Encode (FixedBytes.zeros signaturePayloadSize).toList).toList =
      List.replicate 140 'A' := by
  change (Base64.encode (List.replicate 105 0)).toList = _
  rw [Base64.encode, String.toList_ofList]
  decide +kernel

theorem blank_singleton {blank : Char} (white : Text.isWhitespace blank = true) :
    ∀ c ∈ [blank], Text.isWhitespace c = true := by
  intro c member
  rwa [List.mem_singleton.mp member]

/-- A payload of zeros, folded in two, with a version header. -/
def foldedFile (closing rest : List Char) (closes : endsArmor closing = true)
    (single : '\n' ∉ closing) (ended : rest = [] ∨ ∃ later, rest = '\n' :: later) :
    ArmoredFile (packages.encodings.base64Encode
      (FixedBytes.zeros signaturePayloadSize).toList).toList where
  preamble := []
  opening := ⟨"-----BEGIN PIPE-K1 SIGNATURE-----".toList, true, by decide⟩
  headers := [⟨"Version: pipe-k1-v1".toList, true, by decide⟩, ⟨[], true, List.not_mem_nil⟩]
  pieces := [⟨[], List.replicate 64 'A', [' '], true, blank_singleton rfl, by decide⟩,
    ⟨['\t'], List.replicate 76 'A', [], true, blank_singleton rfl, by decide⟩]
  closing := closing
  rest := rest
  outside _ none := absurd none List.not_mem_nil
  opens := by decide
  unmarked := by
    intro line member
    simp only [List.mem_cons, List.not_mem_nil, or_false] at member
    rcases member with rfl | rfl
    · exact ⟨by decide, by decide⟩
    · exact ⟨by decide, by decide⟩
  skipped := by
    intro line member
    simp only [List.mem_cons, List.not_mem_nil, or_false] at member
    rcases member with rfl | rfl
    · exact .inl (by decide)
    · exact .inr fun _ none => absurd none List.not_mem_nil
  cut := by
    rw [base64Encode_zeros]
    rfl
  closes := closes
  single := single
  ended := ended

/-- A folded file with a signed commit's other text after it. -/
theorem armor_recovers_payload_sample :
    ReadAs packages (Text.utf8 (String.ofList (foldedFile "-----END PIPE-K1 SIGNATURE-----".toList
        ('\n' :: "Signed-off-by: A".toList) (by decide) (by decide) (.inr ⟨_, rfl⟩)).text))
      (FixedBytes.zeros signaturePayloadSize).toList ∧
    ReadAs packages [0x50, 0x4b, 0x53, 0x47] [0x50, 0x4b, 0x53, 0x47] := by
  obtain ⟨armored, raw⟩ := armor_recovers_payload packages base64Laws
  have distinct : beginsArmor "-----END PIPE-K1 SIGNATURE-----".toList = false := by decide
  refine ⟨(armored (FixedBytes.zeros signaturePayloadSize) (foldedFile
    "-----END PIPE-K1 SIGNATURE-----".toList ('\n' :: "Signed-off-by: A".toList) _ _ _) distinct).1,
    raw _ ?_⟩
  unfold NoArmorBegins
  decide +kernel

/-- A closing line that begins armor again lets the next line in. -/
theorem armor_reopened_by_closing_line :
    ¬ ∀ (payload : SignaturePayload)
        (file : ArmoredFile (packages.encodings.base64Encode payload.toList).toList),
        ReadAs packages (Text.utf8 (String.ofList file.text)) payload.toList := by
  intro recovers
  let file := foldedFile "-----END PGP SIGNATURE----- (BEGIN PGP SIGNATURE)".toList
    ('\n' :: "AAAA".toList) (by decide) (by decide) (.inr ⟨_, rfl⟩)
  have symbols := symbols_of_alphabet
    (base64Laws.symbols (FixedBytes.zeros signaturePayloadSize).toList)
  have reopened : armorBody true (Text.lines (file.closing ++ file.rest)) = "AAAA".toList := by
    decide +kernel
  have longer : List.replicate 140 'A' ++ "AAAA".toList =
      (packages.encodings.base64Encode (List.replicate 108 0)).toList := by
    change _ = (Base64.encode (List.replicate 108 0)).toList
    rw [Base64.encode, String.toList_ofList]
    decide +kernel
  have detached : detachArmor packages (Text.utf8 (String.ofList file.text)) =
      .ok (List.replicate 108 0) := by
    rw [detachArmor_text, file.armorBody_text_eq symbols, reopened, base64Encode_zeros, longer,
      String.ofList_toList, base64Laws.inverts]
  let host := signatureHost (Text.utf8 (String.ofList file.text))
  have claimed := (recovers (FixedBytes.zeros signaturePayloadSize) file).verify host
    ⟨some "data.sig", none, none, false⟩ "data.sig" rfl rfl
  have read := (readAs_of_detached detached).verify host
    ⟨some "data.sig", none, none, false⟩ "data.sig" rfl rfl
  rw [claimed, payloadOfBytes, FixedBytes.ofList?_toList, payloadOfBytes] at read
  have short : FixedBytes.ofList? signaturePayloadSize (List.replicate 108 0) = none := by
    decide +kernel
  rw [short] at read
  cases read

end Sample

end PipeK1

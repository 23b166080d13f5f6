import PipeK1.TrustContract

/-!
# Status lines

Every status line is one that the shim chose to write. Names from trust files
and keys cannot end a line; a key id that is echoed back can.
-/

set_option autoImplicit false

namespace PipeK1

open ByteData ByteReader Effects

variable {crates : Crates} {host : Host}

/-! ## Lines and reports -/

/-- A text without a line feed. -/
def Single (text : String) : Prop := '\n' ∉ text.toList

instance (text : String) : Decidable (Single text) := inferInstanceAs (Decidable (¬ _))

/-- One line of the protocol: its beginning, this keyword, and fields without a line feed. -/
def IsLine (keyword text : String) : Prop :=
  ∃ fields : String, text = "[GNUPG:] " ++ keyword ++ fields ++ "\n" ∧ Single fields ∧
    (fields = "" ∨ ∃ rest, fields = " " ++ rest)

/-- The text is made of one line for each keyword, in order. -/
def Framed (keywords : List String) (text : String) : Prop :=
  ∃ lines, text = String.join lines ∧ List.Forall₂ IsLine keywords lines

/-- The reports the shim can choose between. -/
def reports : List (List String) :=
  [[], ["NEWSIG", "ERRSIG"], ["NEWSIG", "BADSIG"],
    ["NEWSIG", "GOODSIG", "VALIDSIG", "TRUST_ULTIMATE"],
    ["NEWSIG", "GOODSIG", "VALIDSIG", "TRUST_UNDEFINED"], ["SIG_CREATED"], ["INV_SGNR"]]

/-- The text is one of the reports, line for line. -/
def WellFramed (text : String) : Prop := ∃ keywords ∈ reports, Framed keywords text

theorem framed_nil : Framed [] "" := ⟨[], rfl, .nil⟩

theorem Framed.cons {keyword line text : String} {keywords : List String}
    (first : IsLine keyword line) (later : Framed keywords text) :
    Framed (keyword :: keywords) (line ++ text) := by
  obtain ⟨lines, rfl, all⟩ := later
  exact ⟨line :: lines, by rw [String.join_cons], .cons first all⟩

theorem Framed.single {keyword line : String} (first : IsLine keyword line) :
    Framed [keyword] line := by
  have framed := Framed.cons first framed_nil
  rwa [String.append_empty] at framed

theorem isLine_bare {keyword text : String} (whole : text = "[GNUPG:] " ++ keyword ++ "\n") :
    IsLine keyword text :=
  ⟨"", by rw [whole, String.append_empty], by decide, .inl rfl⟩

theorem Single.append {left right : String} (leftSingle : Single left)
    (rightSingle : Single right) : Single (left ++ right) := by
  unfold Single
  rw [String.toList_append, List.mem_append, not_or]
  exact ⟨leftSingle, rightSingle⟩

theorem isLine_fields {keyword front fields : String}
    (begins : front = "[GNUPG:] " ++ keyword ++ " ") (single : Single fields) :
    IsLine keyword (front ++ fields ++ "\n") := by
  refine ⟨" " ++ fields, ?_, .append (by decide) single, .inr ⟨fields, rfl⟩⟩
  rw [begins]
  simp only [String.append_assoc]

/-! ## What cannot end a line -/

theorem single_of_solid {text : List Char} (solid : ∀ c ∈ text, Text.isWhitespace c = false) :
    '\n' ∉ text :=
  fun member => absurd (solid '\n' member) (by decide)

theorem single_digits {base n : Nat} (positive : 0 < base) (small : base ≤ 10) :
    '\n' ∉ Nat.toDigits base n :=
  fun member => absurd (Nat.isDigit_of_mem_toDigits positive small member) (by decide)

theorem single_toString (n : Nat) : Single (toString n) := by
  rw [Single, Nat.toString_eq_ofList_toDigits, String.toList_ofList]
  exact single_digits (by decide) (by decide)

theorem single_padDecimal (width n : Nat) : Single (Text.padDecimal width n) := by
  rw [Single, Text.padDecimal, String.toList_ofList, List.mem_append, not_or]
  refine ⟨fun member => ?_, single_digits (by decide) (by decide)⟩
  exact absurd (List.eq_of_mem_replicate member) (by decide)

theorem single_dateStr (timestamp : UInt32) : Single (dateStr timestamp) := by
  have year : ∀ value, Single (padYear value) := by
    intro value
    unfold padYear
    split
    · exact .append (by decide) (single_padDecimal _ _)
    · exact single_padDecimal _ _
  unfold dateStr
  exact ((((year _).append (by decide)).append (single_padDecimal _ _)).append
    (by decide)).append (single_padDecimal _ _)

section Documented

variable (documented : crates.encodings.Documented)
include documented

theorem single_hexEncode (bytes : Bytes) : Single (crates.encodings.hexEncode bytes) :=
  single_of_solid fun c member => (isDigit_spec (documented.hexEncode_digits bytes c member)).1

theorem single_encodeNpub (key : FixedBytes 32) : Single (encodeNpub crates key) :=
  single_of_solid (documented.bech32Encode_solid key)

omit documented in
theorem single_joinWords {words : List (List Char)} (single : ∀ word ∈ words, '\n' ∉ word) :
    Single (joinWords words) := by
  rw [Single, joinWords, String.toList_ofList]
  induction words with
  | nil => exact List.not_mem_nil
  | cons first words ih =>
      have later := ih fun word member => single word (List.mem_cons_of_mem _ member)
      have here := single first List.mem_cons_self
      cases words with
      | nil => simpa using here
      | cons second words =>
          rw [List.intersperse_cons_cons, List.flatten_cons, List.flatten_cons, List.mem_append,
            List.mem_append, not_or, not_or]
          exact ⟨here, by decide, later⟩

theorem single_identityOn (line : List Char) (key : FixedBytes 32) :
    Single (identityOn crates line key) := by
  unfold identityOn
  cases words : (Text.splitWhitespace (Text.trim line)).dropLast with
  | nil => exact single_encodeNpub documented key
  | cons first others =>
      refine single_joinWords fun word member => ?_
      rw [← words] at member
      exact single_of_solid
        (Text.solid_of_mem_splitWhitespace (List.mem_of_mem_dropLast member)).2

/-! ## The lines -/

omit documented in
theorem isLine_newSig : IsLine "NEWSIG" newSigLine := isLine_bare (by decide)

omit documented in
theorem isLine_errSig : IsLine "ERRSIG" errSigLine := by
  have split : errSigLine =
      "[GNUPG:] ERRSIG " ++ "0000000000000000 1 8 00 0000000000 9" ++ "\n" := by decide
  rw [split]
  exact isLine_fields (by decide) (by decide)

theorem isLine_badSig (key : FixedBytes 32) (bytes : Bytes) :
    IsLine "BADSIG" (badSigLine (crates.encodings.hexEncode bytes) (encodeNpub crates key)) := by
  have split : badSigLine (crates.encodings.hexEncode bytes) (encodeNpub crates key) =
      "[GNUPG:] BADSIG " ++ (crates.encodings.hexEncode bytes ++ (" " ++ encodeNpub crates key)) ++
        "\n" := by
    unfold badSigLine
    simp only [String.append_assoc]
  rw [split]
  exact isLine_fields (by decide) ((single_hexEncode documented bytes).append
    (.append (by decide) (single_encodeNpub documented key)))

theorem isLine_goodSig {name : String} (single : Single name) (bytes : Bytes) :
    IsLine "GOODSIG" (goodSigLine (crates.encodings.hexEncode bytes) name) := by
  have split : goodSigLine (crates.encodings.hexEncode bytes) name =
      "[GNUPG:] GOODSIG " ++ (crates.encodings.hexEncode bytes ++ (" " ++ name)) ++ "\n" := by
    unfold goodSigLine
    simp only [String.append_assoc]
  rw [split]
  exact isLine_fields (by decide) ((single_hexEncode documented bytes).append
    (.append (by decide) single))

theorem isLine_validSig (bytes : Bytes) (timestamp : UInt32) :
    IsLine "VALIDSIG" (validSigLine (crates.encodings.hexEncode bytes) (dateStr timestamp)
      timestamp) := by
  let hexPk := crates.encodings.hexEncode bytes
  have hexSingle := single_hexEncode documented bytes
  have split : validSigLine hexPk (dateStr timestamp) timestamp = "[GNUPG:] VALIDSIG " ++
      (hexPk ++ (" " ++ (dateStr timestamp ++ (" " ++ (toString timestamp.toNat ++
        (" 0 4 0 1 8 00 " ++ hexPk)))))) ++ "\n" := by
    unfold validSigLine
    simp only [String.append_assoc]
  rw [split]
  exact isLine_fields (by decide) (hexSingle.append (.append (by decide)
    ((single_dateStr timestamp).append (.append (by decide)
      ((single_toString _).append (.append (by decide) hexSingle))))))

theorem isLine_sigCreated (timestamp : UInt32) (bytes : Bytes) :
    IsLine "SIG_CREATED" ("[GNUPG:] SIG_CREATED D 1 8 00 " ++ toString timestamp.toNat ++ " " ++
      crates.encodings.hexEncode bytes ++ "\n") := by
  have split : "[GNUPG:] SIG_CREATED D 1 8 00 " ++ toString timestamp.toNat ++ " " ++
      crates.encodings.hexEncode bytes ++ "\n" = "[GNUPG:] SIG_CREATED " ++
      ("D 1 8 00 " ++ (toString timestamp.toNat ++ (" " ++ crates.encodings.hexEncode bytes))) ++
        "\n" := by
    rw [show "[GNUPG:] SIG_CREATED D 1 8 00 " = "[GNUPG:] SIG_CREATED " ++ "D 1 8 00 " by decide]
    simp only [String.append_assoc]
  rw [split]
  exact isLine_fields (by decide) (.append (by decide) ((single_toString _).append
    (.append (by decide) (single_hexEncode documented bytes))))

/-! ## The reports -/

omit documented in
theorem wellFramed_empty : WellFramed "" := ⟨[], by decide, framed_nil⟩

omit documented in
theorem wellFramed_malformed : WellFramed malformedReport :=
  ⟨["NEWSIG", "ERRSIG"], by decide, .cons isLine_newSig (.single isLine_errSig)⟩

theorem wellFramed_bad (payload : SignaturePayload) : WellFramed (badReport crates payload) :=
  ⟨["NEWSIG", "BADSIG"], by decide,
    .cons isLine_newSig (.single (isLine_badSig documented _ _))⟩

theorem wellFramed_good (payload : SignaturePayload) :
    WellFramed (goodReport crates host payload) := by
  have decision := @signerTrust_decision crates host (payload.slice 9 32)
  have trust : ∀ {level : String}, "[GNUPG:] TRUST_" ++ level = "[GNUPG:] " ++ ("TRUST_" ++ level) →
      IsLine ("TRUST_" ++ level) (trustLine level) := by
    intro level begins
    have split : trustLine level = "[GNUPG:] TRUST_" ++ level ++ " " ++ "0 pgp" ++ "\n" := by
      unfold trustLine
      simp only [String.append_assoc]
      rfl
    rw [split]
    exact isLine_fields (by rw [begins]) (by decide)
  have framed : ∀ {name level : String}, Single name →
      IsLine ("TRUST_" ++ level) (trustLine level) →
      Framed ["NEWSIG", "GOODSIG", "VALIDSIG", "TRUST_" ++ level] (newSigLine ++
        (goodSigLine (crates.encodings.hexEncode (payload.slice 9 32).toList) name ++
          (validSigLine (crates.encodings.hexEncode (payload.slice 9 32).toList)
            (dateStr (u32FromBe (payload.slice 5 4))) (u32FromBe (payload.slice 5 4)) ++
            trustLine level))) :=
    fun single trust => .cons isLine_newSig (.cons (isLine_goodSig documented single _)
      (.cons (isLine_validSig documented _ _) (.single trust)))
  rw [goodReport]
  rcases decision with ⟨level, line, _, name⟩ | ⟨level, _, name⟩
  · rw [level, name]
    refine ⟨_, ?_, framed (single_identityOn documented line _) ?_⟩
    · decide
    · exact trust (by decide)
  · rw [level, name]
    refine ⟨_, ?_, framed (single_encodeNpub documented _) ?_⟩
    · decide
    · exact trust (by decide)

end Documented

/-! ## What a run reports -/

/-- The status output so far is this text. -/
def StatusIs (text : String) (process : Process) : Prop := process.statusOutput = text

theorem statusIs_start (stdin : Reader) : StatusIs "" (Process.start stdin) := rfl

theorem StatusIs.record {text line : String} {process : Process} (same : StatusIs text process) (fd : Int) :
    StatusIs (text ++ line) ⟨process.stdin, process.events ++ [.status fd line]⟩ := by
  rw [StatusIs, @Process.statusOutput_of_events process _ [.status fd line] rfl, same]
  simp [Event.statusText]

section Quiet

variable {text : String} {α : Type}

theorem record_quiet {event : Event} (silent : event.statusText = "") :
    Preserves (StatusIs text) (record event) := by
  intro process same
  rw [ends_record, StatusIs, @Process.statusOutput_of_events process _ [event] rfl, same]
  simp [silent]

theorem eprintln_quiet (line : String) : Preserves (StatusIs text) (eprintln line) := record_quiet rfl

theorem onStdin_quiet (operation : Reader → Except IoError α × Reader) :
    Preserves (StatusIs text) (onStdin operation) :=
  fun _ same => same

theorem orStop_quiet (outcome : Except Stop α) : Preserves (StatusIs text) (orStop outcome) := by
  cases outcome with
  | ok value => exact .pure value
  | error stop => exact .throw stop

theorem readData_quiet (path : String) : Preserves (StatusIs text) (readData host path) := by
  unfold readData
  split
  · exact .bind (onStdin_quiet _) fun _ => orStop_quiet _
  · exact orStop_quiet _

theorem currentTimestamp_quiet : Preserves (StatusIs text) (currentTimestamp host) :=
  .bind (orStop_quiet _) fun _ => .pure _

theorem printArmored_quiet (label : String) (payload : SignaturePayload) :
    Preserves (StatusIs text) (printArmored crates label payload) :=
  .bind (record_quiet rfl) fun _ => .bind (record_quiet rfl) fun _ =>
    .bind (record_quiet rfl) fun _ => record_quiet rfl

/-- No status line goes anywhere. -/
def Closed (statusFd : Option Int) : Prop := statusFd = none ∨ statusFd = some (-1)

theorem exists_open {statusFd : Option Int} (notClosed : ¬ Closed statusFd) :
    ∃ fd, statusFd = some fd ∧ fd ≠ -1 := by
  cases statusFd with
  | none => exact absurd (.inl rfl) notClosed
  | some fd => exact ⟨fd, rfl, fun same => notClosed (.inr (congrArg some same))⟩

theorem writeStatusFd_quiet {statusFd : Option Int} (closed : Closed statusFd) (line : String) :
    Preserves (StatusIs text) (writeStatusFd statusFd line) := by
  rcases closed with rfl | rfl
  · exact .pure ()
  · exact .throw _

theorem checkPayload_quiet {args : ShimArgs} (closed : Closed args.statusFd) (sigBytes : Bytes) :
    Preserves (StatusIs text) (checkPayload crates host args sigBytes) := by
  have write := fun line => @writeStatusFd_quiet text args.statusFd closed line
  unfold checkPayload
  split
  · exact .bind (write _) fun _ => .bind (eprintln_quiet _) fun _ => .throw _
  · refine .bind (readData_quiet _) fun dataBytes => ?_
    split
    · refine .bind (write _) fun _ => ?_
      split
      · exact .bind (eprintln_quiet _) fun _ => .bind (eprintln_quiet _) fun _ =>
          .bind (write _) fun _ => .bind (write _) fun _ => write _
      · exact .bind (eprintln_quiet _) fun _ => .bind (eprintln_quiet _) fun _ =>
          .bind (write _) fun _ => .bind (write _) fun _ => write _
    · exact .bind (write _) fun _ => .bind (write _) fun _ => .bind (eprintln_quiet _) fun _ =>
        .throw _

theorem checkKeyId_quiet {args : ShimArgs} (closed : Closed args.statusFd) (pkX : FixedBytes 32) :
    Preserves (StatusIs text) (checkKeyId crates args pkX) := by
  unfold checkKeyId
  split
  · exact .pure ()
  · split
    · exact .pure ()
    · split
      · exact .bind (writeStatusFd_quiet closed _) fun _ => .bind (eprintln_quiet _) fun _ =>
          .throw _
      · exact .pure ()

theorem shimVerify_quiet {args : ShimArgs} (closed : Closed args.statusFd) :
    Preserves (StatusIs text) (shimVerify crates host args) := by
  unfold shimVerify
  split
  · exact .throw _
  · exact .bind (orStop_quiet _) fun _ => .bind (orStop_quiet _) fun _ =>
      checkPayload_quiet closed _

theorem shimSign_quiet {args : ShimArgs} (closed : Closed args.statusFd) :
    Preserves (StatusIs text) (shimSign crates host args) := by
  unfold shimSign
  exact .bind (orStop_quiet _) fun _ => .bind (orStop_quiet _) fun _ =>
    .bind (checkKeyId_quiet closed _) fun _ =>
      .bind (.bind (onStdin_quiet _) fun _ => orStop_quiet _) fun _ =>
        .bind currentTimestamp_quiet fun _ => .bind (orStop_quiet _) fun _ =>
          .bind (writeStatusFd_quiet closed _) fun _ => printArmored_quiet _ _

end Quiet

/-! ## Runs with a status descriptor -/

def ReportsWell {α : Type} (result : EStateM.Result Stop Process α) : Prop :=
  Ends (fun _ after => WellFramed after.statusOutput) (fun _ after => WellFramed after.statusOutput)
    result

theorem reportsWell_of_quiet {α : Type} {text : String} {program : Run α} {process : Process}
    (quiet : Preserves (StatusIs text) program) (same : StatusIs text process)
    (framed : WellFramed text) : ReportsWell (program process) :=
  (quiet process same).mono (fun _ _ after => after ▸ framed) (fun _ _ after => after ▸ framed)

theorem reportsWell_stop {α : Type} {process : Process} (same : StatusIs "" process) (stop : Stop) :
    ReportsWell (.error stop process : EStateM.Result Stop Process α) := by
  unfold ReportsWell
  rw [ends_error, same]
  exact wellFramed_empty

/-- A quiet step before a program that reports well. -/
theorem reportsWell_bind {α β : Type} {text : String} {program : Run β} {next : β → Run α}
    {process : Process} (quiet : Preserves (StatusIs text) program) (same : StatusIs text process)
    (framed : WellFramed text)
    (later : ∀ value after, StatusIs text after → ReportsWell (next value after)) :
    ReportsWell ((program >>= next) process) := by
  unfold ReportsWell
  rw [ends_bind]
  exact (quiet process same).mono later (fun _ _ after => after ▸ framed)

section Open

variable {args : ShimArgs} {fd : Int} (statusFd : args.statusFd = some fd) (opened : fd ≠ -1)
include statusFd opened

theorem checkPayload_reportsWell (documented : crates.encodings.Documented) (sigBytes : Bytes)
    {process : Process} (same : StatusIs "" process) :
    ReportsWell (checkPayload crates host args sigBytes process) := by
  unfold checkPayload
  cases FixedBytes.ofList? signaturePayloadSize sigBytes with
  | none =>
      simp only [statusFd]
      refine (reportMalformed_ends opened process).mono (fun _ _ impossible => impossible.elim) ?_
      rintro stop after ⟨_, report⟩
      rw [report, same, String.empty_append]
      exact wellFramed_malformed
  | some payload =>
      refine reportsWell_bind (readData_quiet _) same wellFramed_empty fun data after same => ?_
      simp only [statusFd]
      cases verdict : verifyStreamPayload crates payload (crates.digests.sha256 data) with
      | ok signerPk =>
          obtain ⟨_, rfl⟩ := (verifyStreamPayload_eq_ok_iff crates).mp verdict
          refine (reportGood_ends opened after payload).mono ?_
            (fun _ _ impossible => impossible.elim)
          intro _ final report
          rw [report, same, String.empty_append]
          exact wellFramed_good documented payload
      | error e =>
          refine (reportBad_ends opened after payload e).mono
            (fun _ _ impossible => impossible.elim) ?_
          rintro stop final ⟨_, report⟩
          rw [report, same, String.empty_append]
          exact wellFramed_bad documented payload

theorem shimVerify_reportsWell (documented : crates.encodings.Documented) {process : Process}
    (same : StatusIs "" process) : ReportsWell (shimVerify crates host args process) := by
  unfold shimVerify
  cases args.verifySigPath with
  | none => exact reportsWell_stop same _
  | some path =>
      refine reportsWell_bind (orStop_quiet _) same wellFramed_empty fun sigRaw first same => ?_
      refine reportsWell_bind (orStop_quiet _) same wellFramed_empty fun sigBytes second same => ?_
      exact checkPayload_reportsWell statusFd opened documented sigBytes same

/-- A key id that does not name the configured key is echoed back. -/
theorem checkKeyId_echoes {kid : String} (given : args.keyId = some kid) {named pkX : FixedBytes 32}
    (parsed : parseKeyBytes crates kid = .ok named) (other : named ≠ pkX) (process : Process) :
    ∃ error final, checkKeyId crates args pkX process = .error (.failed (.usageError error)) final ∧
      final.statusOutput = process.statusOutput ++ ("[GNUPG:] INV_SGNR 0 " ++ kid ++ "\n") := by
  simp only [checkKeyId, given, parsed, ne_eq, other, not_false_eq_true, ↓reduceIte, statusFd,
    writeStatusFd_some opened]
  refine ⟨_, _, rfl, ?_⟩
  rw [@Process.statusOutput_of_events process _ [.status fd ("[GNUPG:] INV_SGNR 0 " ++ kid ++ "\n"),
    .stderr _] (List.append_assoc _ _ _)]
  simp [Event.statusText]

end Open

/-- The key id of a signing run that is echoed back: it names another key than the configured. -/
structure EchoedKeyId (crates : Crates) (host : Host) (args : ShimArgs) (kid : String) : Prop where
  isVerify : args.isVerify = false
  status : ∃ fd, args.statusFd = some fd ∧ fd ≠ -1
  given : args.keyId = some kid
  other : ∃ secret signingKey named, loadSecretKey crates host {} = .ok secret ∧
    crates.curve.signingKey secret = .ok signingKey ∧ parseKeyBytes crates kid = .ok named ∧
    named ≠ crates.curve.publicBytes signingKey

theorem isLine_invSgnr {kid : String} (single : Single kid) :
    IsLine "INV_SGNR" ("[GNUPG:] INV_SGNR 0 " ++ kid ++ "\n") := by
  have split : "[GNUPG:] INV_SGNR 0 " ++ kid ++ "\n" =
      "[GNUPG:] INV_SGNR " ++ ("0 " ++ kid) ++ "\n" := by
    rw [show "[GNUPG:] INV_SGNR 0 " = "[GNUPG:] INV_SGNR " ++ "0 " by decide]
    simp only [String.append_assoc]
  rw [split]
  exact isLine_fields (by decide) (.append (by decide) single)

theorem shimSign_reportsWell (documented : crates.encodings.Documented) {args : ShimArgs} {fd : Int}
    (statusFd : args.statusFd = some fd) (opened : fd ≠ -1) (isVerify : args.isVerify = false)
    (single : ∀ kid, EchoedKeyId crates host args kid → Single kid) {process : Process}
    (same : StatusIs "" process) : ReportsWell (shimSign crates host args process) := by
  rw [shimSign]
  cases loaded : loadSecretKey crates host {} with
  | error stop => exact reportsWell_stop same stop
  | ok secret =>
      rw [bind_of_ok (orStop_ok secret process)]
      cases valid : crates.curve.signingKey secret with
      | error e => exact reportsWell_stop same _
      | ok signingKey =>
          rw [bind_of_ok (orFail_ok _ signingKey process)]
          have signing : ReportsWell ((do
              let commitData ← readAllStdin
              let now ← currentTimestamp host
              let sigPayload ← orStop
                (signStreamPayload crates signingKey (crates.digests.sha256 commitData) now)
              writeStatusFd args.statusFd ("[GNUPG:] SIG_CREATED D 1 8 00 " ++
                toString now.toNat ++ " " ++ crates.encodings.hexEncode
                  (crates.curve.publicBytes signingKey).toList ++ "\n")
              printArmored crates "PGP SIGNATURE" sigPayload : Run Unit) process) := by
            refine reportsWell_bind (.bind (onStdin_quiet _) fun _ => orStop_quiet _) same
              wellFramed_empty fun commitData first same => ?_
            refine reportsWell_bind currentTimestamp_quiet same wellFramed_empty
              fun now second same => ?_
            refine reportsWell_bind (orStop_quiet _) same wellFramed_empty
              fun sigPayload third same => ?_
            rw [statusFd, writeStatusFd_some opened]
            unfold ReportsWell
            rw [ends_bind, ends_record]
            have created := @StatusIs.record _ ("[GNUPG:] SIG_CREATED D 1 8 00 " ++
              toString now.toNat ++ " " ++ crates.encodings.hexEncode
                (crates.curve.publicBytes signingKey).toList ++ "\n") _ same fd
            rw [String.empty_append] at created
            exact reportsWell_of_quiet (printArmored_quiet _ _) created
              ⟨["SIG_CREATED"], by decide, .single (isLine_sigCreated documented now _)⟩
          change ReportsWell ((checkKeyId crates args (crates.curve.publicBytes signingKey) >>= _)
            process)
          by_cases matching : ∀ kid, args.keyId = some kid → ∀ named,
              parseKeyBytes crates kid = .ok named → named = crates.curve.publicBytes signingKey
          · rw [bind_of_ok (checkKeyId_of_matches matching process)]
            exact signing
          · push Not at matching
            obtain ⟨kid, given, named, parsed, other⟩ := matching
            obtain ⟨error, final, refused, report⟩ :=
              checkKeyId_echoes statusFd opened given parsed other process
            rw [bind_of_error refused]
            unfold ReportsWell
            rw [ends_error, report, same, String.empty_append]
            refine ⟨["INV_SGNR"], by decide, .single (isLine_invSgnr (single kid ?_))⟩
            exact ⟨isVerify, ⟨fd, statusFd, opened⟩, given, secret, signingKey, named, loaded, valid,
              parsed, other⟩

/-! ## A key id with a line feed -/

theorem IsLine.body {keyword text : String} (line : IsLine keyword text) (single : Single keyword) :
    ∃ body, text = body ++ "\n" ∧ Single body := by
  obtain ⟨fields, rfl, plain, _⟩ := line
  exact ⟨_, rfl, (Single.append (by decide) single).append plain⟩

/-- The keyword starts at the tenth character. -/
theorem IsLine.keyword_at {keyword text rest : String} (line : IsLine keyword text) {c : Char}
    (starts : keyword.toList.head? = some c) : (text ++ rest).toList[9]? = some c := by
  obtain ⟨fields, rfl, _, _⟩ := line
  obtain ⟨others, split⟩ := List.head?_eq_some_iff.mp starts
  have front : "[GNUPG:] ".toList.length = 9 := by decide
  simp only [String.toList_append, List.append_assoc]
  rw [List.getElem?_append_right (Nat.le_of_eq front), front, split]
  rfl

theorem not_wellFramed_echo {kid : String} (broken : ¬ Single kid) :
    ¬ WellFramed ("[GNUPG:] INV_SGNR 0 " ++ kid ++ "\n") := by
  let echo := "[GNUPG:] INV_SGNR 0 " ++ kid ++ "\n"
  have letter : echo.toList[9]? = some 'I' := by
    simp only [echo, String.toList_append, List.append_assoc]
    rw [List.getElem?_append_left (by decide)]
    decide
  rintro ⟨keywords, member, lines, whole, all⟩
  have whole : echo = String.join lines := whole
  cases all with
  | nil =>
      rw [whole] at letter
      cases letter
  | @cons keyword line keywords lines first later =>
      rw [String.join_cons] at whole
      have initial : ∀ c, keyword.toList.head? = some c → c = 'I' := by
        intro c starts
        have here := @IsLine.keyword_at _ _ (String.join lines) first _ starts
        rw [← whole, letter] at here
        exact (Option.some.inj here).symm
      have known : keyword = "INV_SGNR" ∧ keywords = [] := by
        simp only [reports, List.mem_cons, List.cons.injEq, List.not_mem_nil, or_false,
          reduceCtorEq, false_or] at member
        rcases member with ⟨rfl, _⟩ | ⟨rfl, _⟩ | ⟨rfl, _⟩ | ⟨rfl, _⟩ | ⟨rfl, _⟩ | same
        · exact absurd (initial 'N' (by decide)) (by decide)
        · exact absurd (initial 'N' (by decide)) (by decide)
        · exact absurd (initial 'N' (by decide)) (by decide)
        · exact absurd (initial 'N' (by decide)) (by decide)
        · exact absurd (initial 'S' (by decide)) (by decide)
        · exact same
      obtain ⟨rfl, rfl⟩ := known
      cases later
      obtain ⟨body, rfl, single⟩ := first.body (by decide)
      have bodies : "[GNUPG:] INV_SGNR 0 " ++ kid = body := by
        rw [String.join_nil, String.append_empty] at whole
        exact (String.append_left_inj _).mp whole
      refine broken fun inside => single ?_
      rw [← bodies, String.toList_append]
      exact List.mem_append_right _ inside

theorem EchoedKeyId.breaks {args : List String} {kid : String}
    (echoed : EchoedKeyId crates host (scanShim {} args) kid) (broken : ¬ Single kid)
    (stdin : Reader) :
    ¬ WellFramed (reported (runGitShim crates host args (Process.start stdin))).statusOutput := by
  obtain ⟨fd, statusFd, opened⟩ := echoed.status
  obtain ⟨secret, signingKey, named, loaded, valid, parsed, other⟩ := echoed.other
  obtain ⟨error, final, refused, report⟩ :=
    checkKeyId_echoes statusFd opened echoed.given parsed other (Process.start stdin)
  have ran : runGitShim crates host args (Process.start stdin) =
      .error (.failed (.usageError error)) final := by
    simp only [runGitShim, echoed.isVerify, Bool.false_eq_true, ↓reduceIte]
    rw [shimSign, loaded, bind_of_ok (orStop_ok secret _), valid,
      bind_of_ok (orFail_ok _ signingKey _)]
    exact bind_of_error refused
  have nothing : (Process.start stdin).statusOutput = "" := rfl
  rw [ran, statusOutput_reported, report, nothing, String.empty_append]
  exact not_wellFramed_echo broken

/-! ## The protocol -/

/-- The status output is made of the lines that the shim chose to write, except when a key id
that names another key than the configured one has a line feed in it. -/
theorem status_lines_unforged_iff (crates : Crates) (documented : crates.encodings.Documented)
    (host : Host) (args : List String) (stdin : Reader) :
    WellFramed (reported (runGitShim crates host args (Process.start stdin))).statusOutput ↔
      ∀ kid, EchoedKeyId crates host (scanShim {} args) kid → Single kid := by
  constructor
  · intro framed kid echoed
    by_contra broken
    exact echoed.breaks broken stdin framed
  · intro single
    have reportsWell : ReportsWell (runGitShim crates host args (Process.start stdin)) := by
      have start := statusIs_start stdin
      cases isVerify : (scanShim {} args).isVerify with
      | true =>
          simp only [runGitShim, isVerify, ↓reduceIte]
          by_cases closed : Closed (scanShim {} args).statusFd
          · exact reportsWell_of_quiet (shimVerify_quiet closed) start wellFramed_empty
          · obtain ⟨fd, statusFd, opened⟩ := exists_open closed
            exact shimVerify_reportsWell statusFd opened documented start
      | false =>
          simp only [runGitShim, isVerify, Bool.false_eq_true, ↓reduceIte]
          by_cases closed : Closed (scanShim {} args).statusFd
          · exact reportsWell_of_quiet (shimSign_quiet closed) start wellFramed_empty
          · obtain ⟨fd, statusFd, opened⟩ := exists_open closed
            exact shimSign_reportsWell documented statusFd opened isVerify single start
    cases result : runGitShim crates host args (Process.start stdin) with
    | ok value final => exact reportsWell.ok result
    | error stop final =>
        rw [statusOutput_reported]
        exact reportsWell.error result

theorem trimmedString_newline (text : String) :
    trimmedString ("\n" ++ text) = trimmedString text := by
  have blank : Text.isWhitespace '\n' = true := by decide
  have front : ("\n" ++ text).toList = '\n' :: text.toList := by
    rw [String.toList_append]
    rfl
  rw [trimmedString, trimmedString, Text.trim, Text.trim, front, List.dropWhile_cons, blank,
    if_pos rfl]

theorem parseKeyBytes_newline (text : String) :
    parseKeyBytes crates ("\n" ++ text) = parseKeyBytes crates text := by
  rw [parseKeyBytes, trimmedString_newline, parseKeyBytes]

open Reference in
/-- The key 3 signs under its own key id. -/
theorem status_lines_unforged_iff_sample :
    WellFramed (reported (runGitShim packages (keyHost sampleSender sampleEphemeral)
      (signingArgs (publicHex sampleSender)) (Process.start (ofBytes sampleData)))).statusOutput := by
  refine (status_lines_unforged_iff packages encodings_documented
    (keyHost sampleSender sampleEphemeral) (signingArgs (publicHex sampleSender))
    (ofBytes sampleData)).mpr fun kid echoed => ?_
  have given := echoed.given
  rw [scanShim_signingArgs] at given
  cases given
  exact single_hexEncode encodings_documented _

open Reference in
/-- Another key's text behind a line feed ends the status line early. -/
theorem status_line_broken_by_key_id :
    ¬ WellFramed (reported (runGitShim packages (keyHost sampleSender sampleEphemeral)
      (signingArgs ("\n" ++ publicHex sampleRecipient))
      (Process.start (ofBytes sampleData)))).statusOutput := by
  have echoed : EchoedKeyId packages (keyHost sampleSender sampleEphemeral)
      (scanShim {} (signingArgs ("\n" ++ publicHex sampleRecipient)))
      ("\n" ++ publicHex sampleRecipient) := by
    rw [scanShim_signingArgs]
    refine ⟨rfl, ⟨2, rfl, by decide⟩, rfl, secretBytes sampleSender, sampleSender,
      publicBytes sampleRecipient, loadSecretKey_keyHost _ _ _, signingKey_secretBytes _, ?_, ?_⟩
    · rw [parseKeyBytes_newline]
      exact parseKeyBytes_hex _ _
    · change publicBytes sampleRecipient ≠ publicBytes sampleSender
      decide +kernel
  refine echoed.breaks (fun single => single ?_) _
  rw [String.toList_append]
  exact List.mem_append_left _ (by decide)

end PipeK1

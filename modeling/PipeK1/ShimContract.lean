import PipeK1.Cli
import PipeK1.RoundTrip
import PipeK1.SignatureProperties

/-!
# The status protocol of the git shim

What a verification reports on the status descriptor and exits with, and for
which signature files that is what the protocol asks for.
-/

set_option autoImplicit false

namespace PipeK1

open ByteData ByteReader Effects

variable {crates : Crates} {host : Host}

/-! ## The protocol -/

instance (payload : SignaturePayload) : Decidable (PayloadFormed payload) :=
  decidable_of_iff
    (payload.slice 0 4 payload_magic = magicSignature ∧ payload.byteAt 4 payload_version = 0x01)
    ⟨fun ⟨magic, version⟩ => ⟨magic, version⟩, fun formed => ⟨formed.magic, formed.version⟩⟩

/-- The payload a signature file unpacks to: 105 bytes, `PKSG`, version 1. -/
def unpackSignature (crates : Crates) (sigRaw : Bytes) : Option SignaturePayload :=
  match detachArmor crates sigRaw with
  | .error _ => none
  | .ok sigBytes =>
      (FixedBytes.ofList? signaturePayloadSize sigBytes).filter fun payload =>
        PayloadFormed payload

def malformedReport : String := newSigLine ++ errSigLine

def badReport (crates : Crates) (payload : SignaturePayload) : String :=
  newSigLine ++ badSigLine (crates.encodings.hexEncode (payload.slice 9 32 payload_signer).toList)
    (encodeNpub crates (payload.slice 9 32 payload_signer))

/-- The name and the trust level of a signer. -/
def signerTrust (crates : Crates) (host : Host) (signerPk : FixedBytes 32) : String × String :=
  match (resolveAllowedSigners crates host).find? fun signer => signer.2 = signerPk with
  | some (ident, _) => (ident, "ULTIMATE")
  | none => (encodeNpub crates signerPk, "UNDEFINED")

def goodReport (crates : Crates) (host : Host) (payload : SignaturePayload) : String :=
  let signerPk := payload.slice 9 32 payload_signer
  let hexPk := crates.encodings.hexEncode signerPk.toList
  let timestamp := u32FromBe (payload.slice 5 4 payload_timestamp)
  let trust := signerTrust crates host signerPk
  newSigLine ++ (goodSigLine hexPk trust.1 ++
    (validSigLine hexPk (dateStr timestamp) timestamp ++ trustLine trust.2))

/-- One of three reports, by what the signature file is and whether it verifies. -/
def StatusProtocol (crates : Crates) (host : Host) (sigRaw data : Bytes) (status : Option Nat)
    (report : String) : Prop :=
  match unpackSignature crates sigRaw with
  | none => report = malformedReport ∧ status = some 1
  | some payload =>
      (PayloadVerifies crates payload (crates.digests.sha256 data) →
        report = goodReport crates host payload ∧ status = some 0) ∧
      (¬ PayloadVerifies crates payload (crates.digests.sha256 data) →
        report = badReport crates payload ∧ status = some 1)

/-- Armor whose Base64 text decodes, and no 105 bytes of another format. -/
def Recognisable (crates : Crates) (sigRaw : Bytes) : Prop :=
  ∃ sigBytes, detachArmor crates sigRaw = .ok sigBytes ∧
    ∀ payload : SignaturePayload, payload.toList = sigBytes → PayloadFormed payload

theorem badSigLine_ne_errSigLine (hexPk name : String) : badSigLine hexPk name ≠ errSigLine := by
  intro same
  let rest := hexPk ++ (" " ++ (name ++ "\n"))
  have split : badSigLine hexPk name = "[GNUPG:] BADSIG " ++ rest := by
    change "[GNUPG:] BADSIG " ++ hexPk ++ " " ++ name ++ "\n" = _
    rw [String.append_assoc, String.append_assoc, String.append_assoc]
  have lines : "[GNUPG:] BADSIG ".toList ++ rest.toList = errSigLine.toList := by
    rw [← String.toList_append, ← split, same]
  have long : 9 < "[GNUPG:] BADSIG ".toList.length := by decide
  have letter : "[GNUPG:] BADSIG ".toList[9]? = errSigLine.toList[9]? := by
    rw [← lines, List.getElem?_append_left long]
  exact absurd letter (by decide)

/-- A malformed file and a bad signature are told apart on the descriptor. -/
theorem badReport_ne_malformedReport (payload : SignaturePayload) :
    badReport crates payload ≠ malformedReport := by
  unfold badReport malformedReport
  rw [ne_eq, String.append_right_inj]
  exact badSigLine_ne_errSigLine _ _

/-! ## Status lines -/

theorem Process.statusOutput_of_events {before after : Process} {events : List Event}
    (recorded : after.events = before.events ++ events) :
    after.statusOutput = before.statusOutput ++ String.join (events.map Event.statusText) := by
  rw [Process.statusOutput, recorded, List.map_append, String.join_append, Process.statusOutput]

theorem writeStatusFd_some {fd : Int} (opened : fd ≠ -1) (line : String) :
    writeStatusFd (some fd) line = record (.status fd line) := by
  simp only [writeStatusFd, opened, ↓reduceIte]

section Reports

variable {fd : Int} (opened : fd ≠ -1) (process : Process)
include opened

theorem reportMalformed_ends :
    Ends (fun _ _ => False)
      (fun stop after => stop.exitCode = some 1 ∧
        after.statusOutput = process.statusOutput ++ malformedReport)
      (reportMalformed (some fd) process) := by
  simp only [reportMalformed, writeStatusFd_some opened, ends_bind, ends_record, ends_eprintln,
    ends_fail]
  refine ⟨rfl, ?_⟩
  rw [@Process.statusOutput_of_events process _ [.status fd malformedReport, .stderr _]
    (List.append_assoc _ _ _)]
  simp [Event.statusText]

theorem reportBad_ends (payload : SignaturePayload) (error : String) :
    Ends (fun _ _ => False)
      (fun stop after => stop.exitCode = some 1 ∧
        after.statusOutput = process.statusOutput ++ badReport crates payload)
      (reportBad crates (some fd) payload error process) := by
  simp only [reportBad, writeStatusFd_some opened, ends_bind, ends_record, ends_eprintln,
    ends_fail]
  refine ⟨rfl, ?_⟩
  rw [@Process.statusOutput_of_events process _ [.status fd newSigLine, .status fd _, .stderr _]
    (by simp only [List.append_assoc, List.cons_append, List.nil_append]; rfl)]
  simp [Event.statusText, badReport]

theorem reportGood_ends (payload : SignaturePayload) :
    Ends (fun _ after =>
        after.statusOutput = process.statusOutput ++ goodReport crates host payload)
      (fun _ _ => False)
      (reportGood crates host (some fd) payload (payload.slice 9 32) process) := by
  have recorded : ∀ good valid trust first second,
      Process.statusOutput ⟨process.stdin, process.events ++ [.status fd newSigLine] ++
          [.stderr first] ++ [.stderr second] ++ [.status fd good] ++ [.status fd valid] ++
          [.status fd trust]⟩ =
        process.statusOutput ++ (newSigLine ++ (good ++ (valid ++ trust))) := by
    intro good valid trust first second
    simp [Process.statusOutput, Event.statusText]
  cases known : (resolveAllowedSigners crates host).find? fun signer =>
      signer.2 = payload.slice 9 32 with
  | some signer =>
      have trust : signerTrust crates host (payload.slice 9 32) = (signer.1, "ULTIMATE") := by
        rw [signerTrust, known]
      simp only [reportGood, known, writeStatusFd_some opened, ends_bind, ends_record,
        ends_eprintln, goodReport, trust]
      exact recorded _ _ _ _ _
  | none =>
      have trust : signerTrust crates host (payload.slice 9 32) =
          (encodeNpub crates (payload.slice 9 32), "UNDEFINED") := by
        rw [signerTrust, known]
      simp only [reportGood, known, writeStatusFd_some opened, ends_bind, ends_record,
        ends_eprintln, goodReport, trust]
      exact recorded _ _ _ _ _

end Reports

/-! ## Verification runs -/

/-- A verification with a status descriptor, whose signature file and data can be read. -/
structure ReadableRun (host : Host) (args : List String) (stdin : Reader) (sigRaw data : Bytes) :
    Prop where
  isVerify : (scanShim {} args).isVerify = true
  status : ∃ fd, (scanShim {} args).statusFd = some fd ∧ fd ≠ -1
  signature : ∃ path, (scanShim {} args).verifySigPath = some path ∧
    host.fileContents (PathBuf.parse path) = .ok sigRaw
  data : ∃ process, readData host ((scanShim {} args).verifyDataPath.getD "-")
    (Process.start stdin) = .ok data process

theorem readData_events {dataP : String} {process after : Process} {data : Bytes}
    (reading : readData host dataP process = .ok data after) : after.events = process.events := by
  have quiet : Ends (fun _ after => after.events = process.events) (fun _ _ => True)
      (readData host dataP process) := by
    unfold readData
    split
    · simp only [readAllStdin, ends_bind, onStdin, ends_modifyGet]
      exact ends_orFail (fun _ _ => rfl) fun _ _ => trivial
    · exact ends_orFail (fun _ _ => rfl) fun _ _ => trivial
  exact quiet.ok reading

theorem statusOutput_reported (stop : Stop) (process : Process) :
    (reported (.error stop process)).statusOutput = process.statusOutput := by
  cases stop with
  | failed error => simp [reported, Process.statusOutput, Event.statusText]
  | panicked message => rfl
  | unfinished => rfl

/-- What a run does with a file that was detached from its armor. -/
theorem checkPayload_ends {args : ShimArgs} {fd : Int} {sigBytes data : Bytes} {stdin : Reader}
    (statusFd : args.statusFd = some fd) (opened : fd ≠ -1)
    (readable : ∃ process, readData host (args.verifyDataPath.getD "-") (Process.start stdin) =
      .ok data process) :
    Ends (fun _ after => ∃ payload : SignaturePayload, payload.toList = sigBytes ∧
        PayloadVerifies crates payload (crates.digests.sha256 data) ∧
        after.statusOutput = goodReport crates host payload)
      (fun stop after => stop.exitCode = some 1 ∧
        ((sigBytes.length ≠ signaturePayloadSize ∧ after.statusOutput = malformedReport) ∨
          ∃ payload : SignaturePayload, payload.toList = sigBytes ∧
            ¬ PayloadVerifies crates payload (crates.digests.sha256 data) ∧
            after.statusOutput = badReport crates payload))
      (checkPayload crates host args sigBytes (Process.start stdin)) := by
  have nothing : ∀ {process : Process}, process.events = [] → process.statusOutput = "" := by
    intro process quiet
    rw [Process.statusOutput, quiet]
    rfl
  unfold checkPayload
  cases sized : FixedBytes.ofList? signaturePayloadSize sigBytes with
  | none =>
      simp only [statusFd]
      refine (reportMalformed_ends opened _).mono (fun _ _ impossible => impossible.elim) ?_
      rintro stop after ⟨one, report⟩
      refine ⟨one, .inl ⟨FixedBytes.ofList?_eq_none_iff.mp sized, ?_⟩⟩
      rw [report, nothing (Process.events_start stdin), String.empty_append]
  | some payload =>
      have bytes := FixedBytes.ofList?_eq_some_iff.mp sized
      obtain ⟨process, reading⟩ := readable
      have quiet := nothing ((readData_events reading).trans (Process.events_start stdin))
      simp only [statusFd, bind_of_ok reading]
      cases verdict : verifyStreamPayload crates payload (crates.digests.sha256 data) with
      | ok signerPk =>
          obtain ⟨verifies, rfl⟩ := (verifyStreamPayload_eq_ok_iff crates).mp verdict
          refine (reportGood_ends opened process payload).mono ?_
            (fun _ _ impossible => impossible.elim)
          intro _ after report
          exact ⟨payload, bytes, verifies, by rw [report, quiet, String.empty_append]⟩
      | error e =>
          refine (reportBad_ends opened process payload e).mono
            (fun _ _ impossible => impossible.elim) ?_
          rintro stop after ⟨one, report⟩
          refine ⟨one, .inr ⟨payload, bytes, fun verifies => ?_, ?_⟩⟩
          · have accepted := (verifyStreamPayload_eq_ok_iff crates).mpr ⟨verifies, rfl⟩
            rw [verdict] at accepted
            cases accepted
          · rw [report, quiet, String.empty_append]

theorem unpackSignature_of_payload {sigRaw : Bytes} {payload : SignaturePayload}
    (detached : detachArmor crates sigRaw = .ok payload.toList) :
    unpackSignature crates sigRaw = if PayloadFormed payload then some payload else none := by
  rw [unpackSignature, detached]
  simp only [FixedBytes.ofList?_toList, Option.filter_some, decide_eq_true_eq]

theorem recognisable_iff_of_payload {sigRaw : Bytes} {payload : SignaturePayload}
    (detached : detachArmor crates sigRaw = .ok payload.toList) :
    Recognisable crates sigRaw ↔ PayloadFormed payload := by
  constructor
  · rintro ⟨sigBytes, detached', formed⟩
    rw [detached] at detached'
    exact formed payload (Except.ok.inj detached')
  · intro formed
    refine ⟨payload.toList, detached, fun payload' same => ?_⟩
    rw [FixedBytes.ext same]
    exact formed

/-- A run once its signature file has been read. -/
theorem ReadableRun.runGitShim_eq {args : List String} {stdin : Reader} {sigRaw data : Bytes}
    (run : ReadableRun host args stdin sigRaw data) :
    runGitShim crates host args (Process.start stdin) =
      (orFail id (detachArmor crates sigRaw) >>=
        checkPayload crates host (scanShim {} args)) (Process.start stdin) := by
  obtain ⟨path, sigPath, readable⟩ := run.signature
  simp only [runGitShim, run.isVerify, ↓reduceIte, shimVerify, sigPath, readable]
  rfl

/-- Armor that does not decode ends a run before any report. -/
theorem ReadableRun.refuted_of_undecodable {args : List String} {stdin : Reader}
    {sigRaw data : Bytes} (run : ReadableRun host args stdin sigRaw data) {error : Pipek1Error}
    (undecodable : detachArmor crates sigRaw = .error error) :
    ¬ StatusProtocol crates host sigRaw data
      (exitStatus (runGitShim crates host args (Process.start stdin)))
      (reported (runGitShim crates host args (Process.start stdin))).statusOutput := by
  have unknown : unpackSignature crates sigRaw = none := by rw [unpackSignature, undecodable]
  have silent : malformedReport ≠ "" := by decide
  rw [run.runGitShim_eq, undecodable,
    bind_of_error (show orFail id (.error error) _ = .error (.failed error) _ from rfl),
    statusOutput_reported, StatusProtocol, unknown]
  rintro ⟨report, _⟩
  exact silent report.symm

/-- A verification follows the protocol exactly when the signature file is one the shim can
tell: armor that does not decode ends the run before any report, and 105 bytes of a foreign
format are reported as a bad signature. -/
theorem runGitShim_status_protocol_iff (crates : Crates) (host : Host) (args : List String)
    (stdin : Reader) (sigRaw data : Bytes) (run : ReadableRun host args stdin sigRaw data) :
    StatusProtocol crates host sigRaw data
        (exitStatus (runGitShim crates host args (Process.start stdin)))
        (reported (runGitShim crates host args (Process.start stdin))).statusOutput ↔
      Recognisable crates sigRaw := by
  obtain ⟨fd, statusFd, opened⟩ := run.status
  cases detached : detachArmor crates sigRaw with
  | error e =>
      refine iff_of_false (run.refuted_of_undecodable detached) ?_
      rintro ⟨sigBytes, detached', _⟩
      rw [detached] at detached'
      cases detached'
  | ok sigBytes =>
      rw [run.runGitShim_eq, detached, bind_of_ok (show orFail id (.ok sigBytes) _ = .ok sigBytes _ from rfl)]
      have checking :=
        @checkPayload_ends crates host _ fd sigBytes data stdin statusFd opened run.data
      cases outcome : checkPayload crates host (scanShim {} args) sigBytes
          (Process.start stdin) with
      | ok value process =>
          obtain ⟨payload, rfl, verifies, report⟩ := checking.ok outcome
          rw [StatusProtocol, unpackSignature_of_payload detached, if_pos verifies.formed,
            recognisable_iff_of_payload detached]
          exact iff_of_true ⟨fun _ => ⟨report, rfl⟩, fun refuted => absurd verifies refuted⟩
            verifies.formed
      | error stop process =>
          rw [statusOutput_reported, StatusProtocol]
          obtain ⟨one, ⟨misfit, report⟩ | ⟨payload, rfl, refuted, report⟩⟩ :=
            checking.error outcome
          · have unknown : unpackSignature crates sigRaw = none := by
              rw [unpackSignature, detached]
              simp only [FixedBytes.ofList?_eq_none_iff.mpr misfit, Option.filter_none]
            rw [unknown]
            refine iff_of_true ⟨report, one⟩ ⟨sigBytes, detached, fun payload same => ?_⟩
            exact absurd (by rw [← same, payload.length_toList]) misfit
          · rw [unpackSignature_of_payload detached, recognisable_iff_of_payload detached]
            by_cases formed : PayloadFormed payload
            · rw [if_pos formed]
              exact iff_of_true ⟨fun verifies => absurd verifies refuted,
                fun _ => ⟨report, one⟩⟩ formed
            · rw [if_neg formed]
              refine iff_of_false ?_ formed
              rintro ⟨malformed, _⟩
              exact badReport_ne_malformedReport payload (report.symm.trans malformed)

section Sample

open Reference

def sampleShimArgs : List String := ["--status-fd=2", "--verify", "commit.sig", "-"]

/-- Git asks for a signature under this key id. -/
def signingArgs (kid : String) : List String := ["--status-fd=2", "-bsau", kid]

theorem scanShim_signingArgs (kid : String) :
    scanShim {} (signingArgs kid) = { statusFd := some 2, keyId := some kid } := by
  have number : Text.parseI32 ("--status-fd=2".toList.drop 12) = some 2 := by decide
  have cluster : isUserCluster "-bsau".toList = true := by decide
  have first : "--status-fd=".toList.isPrefixOf "--status-fd=2".toList = true := by decide
  have second : "--status-fd=".toList.isPrefixOf "-bsau".toList = false := by decide
  have third : "-u".toList.isPrefixOf "-bsau".toList = false := by decide
  simp only [signingArgs, scanShim, first, second, third, cluster, number, ↓reduceIte,
    Bool.false_eq_true, String.reduceEq, or_self]

/-- On any host with the signature in `commit.sig`. -/
theorem sampleRun_on {host : Host} {sigRaw : Bytes}
    (readable : host.fileContents (PathBuf.parse "commit.sig") = .ok sigRaw) (data : Bytes) :
    ReadableRun host sampleShimArgs (ofBytes data) sigRaw data where
  isVerify := by decide
  status := ⟨2, by decide, by decide⟩
  signature := ⟨"commit.sig", by decide, readable⟩
  data := by
    have whole : readToEnd (ofBytes data) = (.ok data, []) := by
      rw [readToEnd_smooth (smooth_ofBytes data), content_ofBytes]
    refine ⟨⟨[], []⟩, ?_⟩
    have path : (scanShim {} sampleShimArgs).verifyDataPath.getD "-" = "-" := by decide
    have read : onStdin readToEnd (Process.start (ofBytes data)) = .ok (.ok data) ⟨[], []⟩ := by
      change EStateM.Result.ok _ _ = _
      rw [Process.stdin_start, whole]
      rfl
    rw [path, readData, if_pos rfl, readAllStdin, bind_of_ok read]
    rfl

theorem sampleRun (sigRaw data : Bytes) :
    ReadableRun (signatureHost sigRaw) sampleShimArgs (ofBytes data) sigRaw data :=
  sampleRun_on rfl data

/-- Armor around a text that is not Base64. -/
def undecodableArmor : String := "-----BEGIN PGP SIGNATURE-----\n\n!!!!\n-----END PGP SIGNATURE-----\n"

theorem detachArmor_undecodableArmor :
    detachArmor packages (Text.utf8 undecodableArmor) =
      .error (.wireCorruption "Base64 decode error: Invalid symbol 33, offset 0.") := by
  have armored : isArmored undecodableArmor.toList = true := by decide
  have body : armorBody false (Text.lines undecodableArmor.toList) = "!!!!".toList := by decide
  have refused : packages.encodings.base64Decode "!!!!" =
      .error "Invalid symbol 33, offset 0." := by decide
  simp only [detachArmor, Text.fromUtf8_utf8, armored, body, ↓reduceIte, String.ofList_toList,
    refused]
  rfl

end Sample

open Reference in
/-- A signature of the key 3 over five bytes is reported as good. -/
theorem runGitShim_status_protocol_iff_sample :
    ∃ payload : SignaturePayload,
      PayloadVerifies packages payload (packages.digests.sha256 sampleData) ∧
      StatusProtocol packages (signatureHost payload.toList) payload.toList sampleData
        (exitStatus (runGitShim packages (signatureHost payload.toList) sampleShimArgs
          (Process.start (ofBytes sampleData))))
        (reported (runGitShim packages (signatureHost payload.toList) sampleShimArgs
          (Process.start (ofBytes sampleData)))).statusOutput := by
  obtain ⟨payload, _, signed, detached⟩ := exists_samplePayload 1700000000
  refine ⟨payload, signed.verifies, ?_⟩
  exact (runGitShim_status_protocol_iff packages (signatureHost payload.toList) sampleShimArgs
    (ofBytes sampleData) payload.toList sampleData (sampleRun payload.toList sampleData)).mpr
    ((recognisable_iff_of_payload detached).mpr signed.verifies.formed)

open Reference in
/-- With `!!!!` inside the armor nothing is reported. -/
theorem runGitShim_undecodable_armor :
    ¬ StatusProtocol packages (signatureHost (Text.utf8 undecodableArmor))
      (Text.utf8 undecodableArmor) sampleData
      (exitStatus (runGitShim packages (signatureHost (Text.utf8 undecodableArmor)) sampleShimArgs
        (Process.start (ofBytes sampleData))))
      (reported (runGitShim packages (signatureHost (Text.utf8 undecodableArmor)) sampleShimArgs
        (Process.start (ofBytes sampleData)))).statusOutput :=
  (sampleRun (Text.utf8 undecodableArmor) sampleData).refuted_of_undecodable
    detachArmor_undecodableArmor

end PipeK1

import PipeK1.CommandRules
import PipeK1.DeliveryContract
import PipeK1.MaxSizeContract

/-!
# The two verifiers

`verify` ends with the exit code a signature file, a key and the data deserve,
and without a key to compare it ends as the git shim's `--verify` does.
-/

set_option autoImplicit false

namespace PipeK1

open ByteData ByteReader Effects

variable {crates : Crates} {host : Host}

/-! ## `verify` -/

section Verify

variable {options : VerifyOptions}

/-- Pass-through of more than the ceiling allows. -/
def passesBeyond (options : VerifyOptions) (data : Bytes) : Bool :=
  options.passThrough && options.maxSize.any fun max => max.toNat < data.length

/-- The exit code of `verify` for data that is read without errors. -/
def verifyStatus (crates : Crates) (host : Host) (options : VerifyOptions) (data : Bytes) : Nat :=
  if options.passThrough ∧ options.expectedPub.isNone then 2
  else
    match loadSignature crates host options with
    | .error error => error.exitCode
    | .ok payload =>
        verifyCode (if passesBeyond options data then .refused else .whole)
          (verdictOf crates options payload data)

/-- Pass-through has a spool that takes the data. -/
def PassThroughRoom (crates : Crates) (host : Host) (options : VerifyOptions) (data : Bytes) :
    Prop :=
  options.passThrough = true → SpoolSuffices crates host data

/-- Nothing but the path matters without pass-through and without a key to compare. -/
theorem verifyStatus_of_plain {path : String} (given : options.sigPath = some path)
    (plain : options.passThrough = false) (unnamed : options.expectedPub = none) (data : Bytes) :
    verifyStatus crates host options data =
      verifyStatus crates host { sigPath := some path } data := by
  have loads : loadSignature crates host options =
      loadSignature crates host { sigPath := some path } := by
    unfold loadSignature
    rw [given]
  unfold verifyStatus passesBeyond verdictOf
  rw [loads, plain, unnamed]
  rfl

theorem holds_passThroughSpool (spool : Spool)
    (begun : passThroughSpool host options = some spool) :
    Spool.Holds crates.aead spool [] := by
  unfold passThroughSpool at begun
  split at begun
  · cases begun
    exact Spool.holds_start crates.aead host options.maxSize
  · cases begun

/-- A spool with enough disk refuses exactly what is over the ceiling. -/
theorem readingOf_passThroughSpool {stdin : Reader} (smooth : Smooth stdin)
    (room : PassThroughRoom crates host options (content stdin)) :
    readingOf crates (passThroughSpool host options) stdin =
      if passesBeyond options (content stdin) then .refused else .whole := by
  cases passing : options.passThrough with
  | false =>
      rw [passThroughSpool, passing, passesBeyond, passing, if_neg Bool.false_ne_true,
        readingOf_none, (smooth.patient.smooth_iff.mp smooth)]
      rfl
  | true =>
      have enough : SpoolSuffices crates host (content stdin) := room passing
      have begun : passThroughSpool host options = some (Spool.start host options.maxSize) := by
        rw [passThroughSpool, if_pos passing]
      have beyond_iff : passesBeyond options (content stdin) = true ↔
          ∃ max, options.maxSize = some max ∧ max.toNat < (content stdin).length := by
        simp only [passesBeyond, passing, Bool.true_and, Option.any_eq_true, decide_eq_true_eq]
      have reaches := @absorbStdin_reaches crates stdin smooth.patient
        (passThroughSpool host options)
      have absorbs := @absorbStdin_ends crates (passThroughSpool host options)
        holds_passThroughSpool (Process.start stdin)
      have refuses := @absorbStdin_refuses crates (passThroughSpool host options)
        (Process.start stdin) smooth
      cases ran : absorbStdin crates (passThroughSpool host options) (Process.start stdin) with
      | ok state final =>
          obtain ⟨whole, hashed, _⟩ := reaches.ok ran
          have took := (absorbs.ok ran).1.spooled
          rw [hashed, begun] at took
          cases spooled : state.spool with
          | none =>
              rw [spooled] at took
              cases took
          | some spool =>
              rw [spooled] at took
              cases took with
              | some took =>
                  rw [whole, if_neg]
                  intro beyond
                  obtain ⟨max, limited, longer⟩ := beyond_iff.mp beyond
                  have within := UInt64.le_iff_toNat_le.mp (took.2.2 max limited)
                  rw [UInt64.toNat_ofNat_of_lt' enough.short] at within
                  exact absurd within (Nat.not_le_of_lt longer)
      | error stop final =>
          obtain ⟨error, rfl⟩ := refuses.error ran
          obtain ⟨_, ⟨refused, _⟩ | ⟨_, code⟩⟩ := reaches.error ran
          · rw [refused, if_pos]
            by_contra within
            refine (absorbs.error ran).2 ⟨smooth, fun spool same => ?_⟩
            rw [begun] at same
            cases same
            refine ⟨enough.trusted.inverts.sealsUpTo, enough.takes, fun max limited => ?_⟩
            exact Nat.le_of_not_lt fun longer => within (beyond_iff.mpr ⟨max, limited, longer⟩)
          · cases code

theorem verifyCommand_outcome {args : List String} {stdin : Reader} (smooth : Smooth stdin)
    (room : PassThroughRoom crates host (verifyOptions args) (content stdin)) :
    (outcomeOf (verifyCommand crates host args (Process.start stdin))).1 =
        some (verifyStatus crates host (verifyOptions args) (content stdin)) ∧
      (outcomeOf (verifyCommand crates host args (Process.start stdin))).2.stdout =
        if verifyStatus crates host (verifyOptions args) (content stdin) = 0 ∧
          (verifyOptions args).passThrough = true then content stdin else [] := by
  unfold verifyCommand verifyStatus
  by_cases unguarded : (verifyOptions args).passThrough = true ∧
      (verifyOptions args).expectedPub.isNone = true
  · simp only [unguarded, and_self, ↓reduceIte]
    exact ⟨rfl, rfl⟩
  · simp only [unguarded, ↓reduceIte]
    cases loaded : loadSignature crates host (verifyOptions args) with
    | error error =>
        refine ⟨rfl, ?_⟩
        rw [if_neg fun zero => error.exitCode_ne_zero zero.1]
        rfl
    | ok payload =>
        rw [bind_of_ok (show orFail _ _ _ = .ok payload _ from rfl),
          ← readingOf_passThroughSpool smooth room]
        exact verifyStdin_outcome (fun passing => (room passing).trusted) smooth.patient rfl

/-- With input that is read without errors and a spool that takes it, `verify` ends with the exit
code its signature file, its key and its data deserve, and passes the data on only with success. -/
theorem verify_exit_codes (crates : Crates) (host : Host) (rounds : Nat) (exe : String)
    (args : List String) (direct : isGitInvocation exe "verify" = false) (stdin : Reader)
    (smooth : Smooth stdin)
    (room : PassThroughRoom crates host (verifyOptions args) (content stdin)) :
    (realMain crates host rounds (exe :: "verify" :: args) stdin).1 =
        some (verifyStatus crates host (verifyOptions args) (content stdin)) ∧
      (realMain crates host rounds (exe :: "verify" :: args) stdin).2.stdout =
        if verifyStatus crates host (verifyOptions args) (content stdin) = 0 ∧
          (verifyOptions args).passThrough = true then content stdin else [] := by
  rw [realMain_verify direct]
  exact verifyCommand_outcome smooth room

/-- Within the ceiling the verdict on the payload decides. -/
theorem verifyStatus_of_loaded {payload : SignaturePayload} {data : Bytes}
    (guarded : options.passThrough = true → options.expectedPub ≠ none)
    (loaded : loadSignature crates host options = .ok payload)
    (within : passesBeyond options data = false) :
    verifyStatus crates host options data =
      verifyCode .whole (verdictOf crates options payload data) := by
  have known : ¬ (options.passThrough = true ∧ options.expectedPub.isNone = true) :=
    fun both => guarded both.1 (Option.isNone_iff_eq_none.mp both.2)
  rw [verifyStatus, if_neg known, loaded]
  dsimp only
  rw [within, if_neg Bool.false_ne_true]

theorem verdictOf_of_refused {payload : SignaturePayload} {data : Bytes}
    (refused : ¬ PayloadVerifies crates payload (crates.digests.sha256 data)) :
    verdictOf crates options payload data = .rejected := by
  rw [verdictOf]
  cases verified : verifyStreamPayload crates payload (crates.digests.sha256 data) with
  | error _ => rfl
  | ok signer => exact absurd ((verifyStreamPayload_eq_ok_iff crates).mp verified).1 refused

theorem verdictOf_of_signed {payload : SignaturePayload} {data : Bytes} {signer : FixedBytes 32}
    {timestamp : UInt32}
    (signed : SignedBy crates signer (crates.digests.sha256 data) timestamp payload)
    (expected : ∀ exp, options.expectedPub = some exp → parseKeyBytes crates exp = .ok signer) :
    verdictOf crates options payload data = .accepted := by
  rw [verdictOf,
    (verifyStreamPayload_eq_ok_iff crates).mpr ⟨signed.verifies, signed.signer_eq.symm⟩]
  cases named : options.expectedPub with
  | none => rfl
  | some exp =>
      dsimp only
      rw [expected exp named]
      exact if_pos rfl

open Reference in
def samplePassThrough : List String :=
  ["--sig", "commit.sig", "--pub", publicHex sampleSender, "--pass-through"]

open Reference in
/-- Five bytes are passed through under their signer's key, and not with a forged signature. -/
theorem verify_exit_codes_sample :
    (∃ payload : SignaturePayload,
      (realMain packages (signatureHost payload.toList) 0
        ("pipe-k1" :: "verify" :: samplePassThrough) (ofBytes sampleData)).1 = some 0 ∧
      (realMain packages (signatureHost payload.toList) 0
        ("pipe-k1" :: "verify" :: samplePassThrough) (ofBytes sampleData)).2.stdout =
          sampleData) ∧
    (realMain packages (signatureHost forgedPayload.toList) 0
        ("pipe-k1" :: "verify" :: samplePassThrough) (ofBytes sampleData)).1 = some 1 ∧
    (realMain packages (signatureHost forgedPayload.toList) 0
        ("pipe-k1" :: "verify" :: samplePassThrough) (ofBytes sampleData)).2.stdout = [] := by
  have room : ∀ sigRaw, PassThroughRoom packages (signatureHost sigRaw)
      (verifyOptions samplePassThrough) (content (ofBytes sampleData)) := by
    intro sigRaw _
    rw [content_ofBytes]
    exact ⟨⟨lawful.inverts _, keyHost_disk_honest sampleSender sampleEphemeral⟩,
      keyHost_takes sampleSender sampleEphemeral (by decide)⟩
  have codes := fun sigRaw => verify_exit_codes packages (signatureHost sigRaw) 0 "pipe-k1"
    samplePassThrough (by decide) (ofBytes sampleData) (smooth_ofBytes _) (room sigRaw)
  have status : ∀ payload : SignaturePayload,
      detachArmor packages payload.toList = .ok payload.toList →
      verifyStatus packages (signatureHost payload.toList) (verifyOptions samplePassThrough)
        sampleData =
      verifyCode .whole (verdictOf packages (verifyOptions samplePassThrough) payload
        sampleData) := by
    intro payload detached
    exact verifyStatus_of_loaded (fun _ => Option.some_ne_none _)
      ((loadSignature_of_detached rfl rfl detached).trans (payloadOfBytes_toList payload)) rfl
  simp only [content_ofBytes] at codes
  constructor
  · obtain ⟨payload, _, signed, detached⟩ := exists_samplePayload 1700000000
    have accepted : verdictOf packages (verifyOptions samplePassThrough) payload sampleData =
        .accepted := by
      refine verdictOf_of_signed signed fun exp named => ?_
      rw [← Option.some.inj named]
      exact parseKeyBytes_hex _ _
    obtain ⟨ended, written⟩ := codes payload.toList
    rw [status payload detached, accepted] at ended written
    exact ⟨payload, ended, written⟩
  · obtain ⟨ended, written⟩ := codes forgedPayload.toList
    rw [status forgedPayload detachArmor_forgedPayload,
      verdictOf_of_refused (forgedPayload_refused _)] at ended written
    exact ⟨ended, written⟩

end Verify

/-! ## The shim -/

theorem exitStatus_of_infallible {program : Run Unit} (infallible : Infallible program)
    (process : Process) : exitStatus (program process) = some 0 := by
  obtain ⟨_, _, ran, _⟩ := (infallible process).succeeds
  rw [ran]
  rfl

/-- What comes after decides. -/
theorem exitStatus_bind {α : Type} {program : Run α} {next : α → Run Unit} {status : Option Nat}
    (first : Infallible program) (rest : ∀ value process, exitStatus (next value process) = status)
    (process : Process) : exitStatus ((program >>= next) process) = status := by
  obtain ⟨value, later, ran, _⟩ := (first process).succeeds
  rw [bind_of_ok ran]
  exact rest value later

section Shim

variable {args : ShimArgs} {statusFd : Option Int}

theorem writeStatusFd_infallible (opened : statusFd ≠ some (-1)) (line : String) :
    Infallible (writeStatusFd statusFd line) := by
  intro process
  cases statusFd with
  | none => trivial
  | some fd =>
      have known : fd ≠ -1 := fun same => opened (congrArg some same)
      rw [writeStatusFd_some known]
      trivial

theorem reportGood_infallible (opened : statusFd ≠ some (-1)) (payload : SignaturePayload)
    (signerPk : FixedBytes 32) : Infallible (reportGood crates host statusFd payload signerPk) := by
  have status := writeStatusFd_infallible opened
  unfold reportGood
  refine (status _).bind fun _ => ?_
  split
  · exact (record_infallible _).bind fun _ => (record_infallible _).bind fun _ =>
      (status _).bind fun _ => (status _).bind fun _ => status _
  · exact (record_infallible _).bind fun _ => (record_infallible _).bind fun _ =>
      (status _).bind fun _ => (status _).bind fun _ => status _

theorem reportBad_status (opened : statusFd ≠ some (-1)) (payload : SignaturePayload)
    (error : String) (process : Process) :
    exitStatus (reportBad crates statusFd payload error process) = some 1 := by
  have status := writeStatusFd_infallible opened
  unfold reportBad
  refine exitStatus_bind (status _) (fun _ => exitStatus_bind (status _) fun _ =>
    exitStatus_bind (record_infallible _) fun _ _ => ?_) process
  rfl

theorem reportMalformed_status (opened : statusFd ≠ some (-1)) (process : Process) :
    exitStatus (reportMalformed statusFd process) = some 1 := by
  unfold reportMalformed
  refine exitStatus_bind (writeStatusFd_infallible opened _)
    (fun _ => exitStatus_bind (record_infallible _) fun _ _ => ?_) process
  rfl

theorem checkPayload_status (opened : args.statusFd ≠ some (-1)) {process : Process} {data : Bytes}
    (readable : ∃ after, readData host (args.verifyDataPath.getD "-") process = .ok data after)
    (sigBytes : Bytes) :
    exitStatus (checkPayload crates host args sigBytes process) =
      some (match payloadOfBytes sigBytes with
        | .error error => error.exitCode
        | .ok payload => verifyCode .whole (verdictOf crates {} payload data)) := by
  obtain ⟨after, reading⟩ := readable
  unfold checkPayload payloadOfBytes
  cases FixedBytes.ofList? signaturePayloadSize sigBytes with
  | none => exact reportMalformed_status opened process
  | some payload =>
      dsimp only
      rw [bind_of_ok reading, verdictOf]
      cases verifyStreamPayload crates payload (crates.digests.sha256 data) with
      | ok signerPk => exact exitStatus_of_infallible (reportGood_infallible opened payload signerPk) after
      | error e => exact reportBad_status opened payload e after

/-- The shim ends with the exit code of `verify` without a key to compare. -/
theorem shimVerify_status (opened : args.statusFd ≠ some (-1)) {path : String}
    (given : args.verifySigPath = some path) {process : Process} {data : Bytes}
    (readable : ∃ after, readData host (args.verifyDataPath.getD "-") process = .ok data after) :
    exitStatus (shimVerify crates host args process) =
      some (verifyStatus crates host { sigPath := some path } data) := by
  unfold shimVerify verifyStatus loadSignature
  rw [given]
  simp only [Bool.false_eq_true, false_and, ↓reduceIte]
  change exitStatus ((orFail _ (host.fileContents (PathBuf.parse path)) >>= fun sigRaw =>
    orFail id (detachArmor crates sigRaw) >>= fun sigBytes =>
      checkPayload crates host args sigBytes) process) =
    some (match (host.fileContents (PathBuf.parse path)).mapError _ >>= fun sigRaw =>
        detachArmor crates sigRaw >>= payloadOfBytes with
      | .error error => error.exitCode
      | .ok payload => verifyCode .whole (verdictOf crates _ payload data))
  cases host.fileContents (PathBuf.parse path) with
  | error e => rfl
  | ok sigRaw =>
      rw [bind_of_ok (show orFail _ _ _ = .ok sigRaw _ from rfl)]
      change _ = some (match detachArmor crates sigRaw >>= payloadOfBytes with
        | .error error => error.exitCode
        | .ok payload => verifyCode .whole (verdictOf crates _ payload data))
      cases detachArmor crates sigRaw with
      | error e => rfl
      | ok sigBytes =>
          rw [bind_of_ok (show orFail _ _ _ = .ok sigBytes _ from rfl),
            checkPayload_status opened readable]
          rfl

end Shim

/-! ## Agreement -/

/-- The shim is asked to verify the file at `path`, and reads `data`. -/
structure ShimVerifies (host : Host) (args : ShimArgs) (path : String) (stdin : Reader)
    (data : Bytes) : Prop where
  isVerify : args.isVerify = true
  opened : args.statusFd ≠ some (-1)
  signature : args.verifySigPath = some path
  data : ∃ process, readData host (args.verifyDataPath.getD "-") (Process.start stdin) =
    .ok data process

/-- For every signature file and all data, `verify` without a key and the shim's `--verify` end
with the same exit code, wherever the shim takes the data from. -/
theorem verifiers_agree (crates : Crates) (host : Host) (rounds : Nat) (exe exe' command : String)
    (args args' : List String) (path : String) (stdin stdin' : Reader)
    (direct : isGitInvocation exe "verify" = false) (shim : isGitInvocation exe' command = true)
    (given : (verifyOptions args).sigPath = some path)
    (plain : (verifyOptions args).passThrough = false)
    (unnamed : (verifyOptions args).expectedPub = none) (smooth : Smooth stdin)
    (verifies : ShimVerifies host (scanShim {} (shimVector command args')) path stdin'
      (content stdin)) :
    (realMain crates host rounds (exe :: "verify" :: args) stdin).1 =
      (realMain crates host rounds (exe' :: command :: args') stdin').1 := by
  have room : PassThroughRoom crates host (verifyOptions args) (content stdin) := by
    intro passing
    rw [plain] at passing
    cases passing
  have shown : (realMain crates host rounds (exe' :: command :: args') stdin').1 =
      exitStatus (shimVerify crates host (scanShim {} (shimVector command args'))
        (Process.start stdin')) := by
    simp only [realMain, runCommand_shim shim]
    unfold runGitShim
    simp only [verifies.isVerify, ↓reduceIte]
  have known := (verifyCommand_outcome smooth room).1
  rw [realMain_verify direct, show exitStatus _ = _ from known, shown,
    shimVerify_status verifies.opened verifies.signature verifies.data,
    verifyStatus_of_plain given plain unnamed]

open Reference in
/-- Both accept a signature of the key 3, and both refuse a forged one. -/
theorem verifiers_agree_sample :
    (∃ payload : SignaturePayload,
      (realMain packages (signatureHost payload.toList) 0
        ["pipe-k1", "verify", "--sig", "commit.sig"] (ofBytes sampleData)).1 = some 0 ∧
      (realMain packages (signatureHost payload.toList) 0 ("git-shim" :: sampleShimArgs)
        (ofBytes sampleData)).1 = some 0) ∧
    (realMain packages (signatureHost forgedPayload.toList) 0
        ["pipe-k1", "verify", "--sig", "commit.sig"] (ofBytes sampleData)).1 = some 1 ∧
    (realMain packages (signatureHost forgedPayload.toList) 0 ("git-shim" :: sampleShimArgs)
        (ofBytes sampleData)).1 = some 1 := by
  have agree : ∀ sigRaw, (realMain packages (signatureHost sigRaw) 0
        ["pipe-k1", "verify", "--sig", "commit.sig"] (ofBytes sampleData)).1 =
      (realMain packages (signatureHost sigRaw) 0 ("git-shim" :: sampleShimArgs)
        (ofBytes sampleData)).1 := fun sigRaw =>
    verifiers_agree packages (signatureHost sigRaw) 0 "pipe-k1" "git-shim" "--status-fd=2"
      ["--sig", "commit.sig"] ["--verify", "commit.sig", "-"] "commit.sig" (ofBytes sampleData)
      (ofBytes sampleData) (by decide) (by decide) rfl rfl rfl (smooth_ofBytes _)
      ⟨by decide, by decide, by decide, ⟨[], []⟩, by
        unfold readData
        rfl⟩
  have status : ∀ payload : SignaturePayload,
      detachArmor packages payload.toList = .ok payload.toList →
      (realMain packages (signatureHost payload.toList) 0
        ["pipe-k1", "verify", "--sig", "commit.sig"] (ofBytes sampleData)).1 =
      some (verifyCode .whole (verdictOf packages (verifyOptions ["--sig", "commit.sig"]) payload
        sampleData)) := by
    intro payload detached
    have direct : isGitInvocation "pipe-k1" "verify" = false := by decide
    rw [realMain_verify direct]
    have known := (@verifyCommand_outcome packages (signatureHost payload.toList)
      ["--sig", "commit.sig"] (ofBytes sampleData) (smooth_ofBytes _)
      (fun passing => absurd passing (by decide))).1
    rw [content_ofBytes] at known
    rw [verifyStatus_of_loaded (fun passing => absurd passing (by decide))
      ((loadSignature_of_detached rfl rfl detached).trans (payloadOfBytes_toList payload)) rfl]
      at known
    exact known
  constructor
  · obtain ⟨payload, _, signed, detached⟩ := exists_samplePayload 1700000000
    have ended := status payload detached
    rw [verdictOf_of_signed signed (fun exp named => by cases named)] at ended
    exact ⟨payload, ended, (agree _).symm.trans ended⟩
  · have ended := status forgedPayload detachArmor_forgedPayload
    rw [verdictOf_of_refused (forgedPayload_refused _)] at ended
    exact ⟨ended, (agree _).symm.trans ended⟩

end PipeK1

import PipeK1.Cli
import PipeK1.RoundTrip

/-!
# The sender option

What `--sender` on the command line of `decrypt` enforces, and when.
-/

set_option autoImplicit false

namespace PipeK1

open ByteData ByteReader Effects Numbering Arguments

variable {crates : Crates}

/-! ## What the scanner makes of the option -/

/-- The tokens of a `decrypt` command line that stand in option position. -/
def decryptItems (args : List String) : List Item := items decryptTakesValue args

theorem decryptOptions_sender (args : List String) :
    (decryptOptions args).sender = lastValue "--sender" (decryptItems args) := by
  have changes : ∀ options item, (decryptItem options item).sender =
      if item.token = "--sender" ∧ item.value.isSome then item.value else options.sender := by
    intro options item
    unfold decryptItem
    split
    · rfl
    · split
      · rfl
      · split
        · rfl
        · split <;> rfl
  rw [decryptOptions, foldl_lastValue "--sender" changes, decryptItems]
  exact Option.or_none

/-- The key options of a command line lead to a valid key on some host. -/
def KeyLoads (crates : Crates) (args : List String) : Prop :=
  ∃ host recipPriv recipKey,
    loadSecretKey crates host (parseKeyIntakeArgs args) = .ok recipPriv ∧
    crates.curve.signingKey recipPriv = .ok recipKey

/-! ## What is enforced -/

/-- The stream read is in Mode 1, and its trailer's signature is by the key that the value of
`--sender` parses to. -/
def SenderEnforced (crates : Crates) (args : List String) (stdin : Reader) (final : Process) :
    Prop :=
  ∃ (headerBytes : FixedBytes wireHeaderSize) (chunks : Bytes) (trailer : FixedBytes trailerSize)
      (value : String) (plaintext : Bytes),
    content stdin = headerBytes.toList ++ (chunks ++ trailer.toList) ++ content final.stdin ∧
    headerBytes.byteAt 5 header_mode = 0x01 ∧
    lastValue "--sender" (decryptItems args) = some value ∧
    parseKeyBytes crates value = .ok (trailer.slice 0 32 trailer_sender) ∧
    verifyTrailer crates (headerBytes.slice 81 16 header_hmac) plaintext trailer = .ok ()

theorem AcceptedRun.sender_enforced {host : Host} {args : List String} {stdin : Reader}
    {stream : Stream} {final : Process} {value : String}
    (accepted : AcceptedRun crates host (decryptArgs args) stdin stream final)
    (sender : lastValue "--sender" (decryptItems args) = some value) :
    SenderEnforced crates args stdin final := by
  have expected : (decryptArgs args).expectedSender = some value :=
    (decryptOptions_sender args).trans sender
  obtain ⟨recipPriv, recipKey, _, _, conforms⟩ := accepted.conforms
  have one : stream.header.mode = 0x01 := by
    rcases conforms.header.permitted with ⟨one, _⟩ | ⟨_, unexpected⟩
    · exact one
    · rw [expected] at unexpected
      cases unexpected
  rcases conforms.trailer with ⟨two, _⟩ | ⟨_, trailer, trailer_eq, verifies⟩
  · rw [one] at two
    exact absurd two (by decide)
  · have authentic := verifies.authentic
    rw [conforms.header.hmac_eq] at authentic
    refine ⟨stream.headerBytes, wireBytes stream.chunks, trailer, value, stream.plaintext, ?_, ?_,
      sender, verifies.sender value expected, verifyTrailer_eq_ok_iff.mpr authentic⟩
    · rw [accepted.content_eq, Stream.bytes, trailer_eq]
    · rw [← conforms.header.mode_eq, one]

theorem realMain_decrypt {host : Host} {rounds : Nat} {exe : String} {args : List String}
    {stdin : Reader} (direct : isGitInvocation exe "decrypt" = false) :
    realMain crates host rounds (exe :: "decrypt" :: args) stdin =
      (exitStatus (runDecrypt crates host (decryptArgs args) (Process.start stdin)),
        reported (runDecrypt crates host (decryptArgs args) (Process.start stdin))) := by
  simp only [realMain, runCommand, direct, Bool.false_eq_true, ↓reduceIte, dispatchCommand]
  rfl

/-- A disk that takes nothing and gives back what it took. -/
def emptyDisk : Disk := ⟨[], 0, ofBytes⟩

theorem emptyDisk_honest : emptyDisk.Honest :=
  ⟨by decide, fun written => (smooth_ofBytes written).patient, content_ofBytes⟩

/-- With no value for `--sender`, a stream that anybody could have made goes through. -/
theorem anonymous_stream_accepted [AddCommGroup crates.curve.Point] (laws : Lawful crates)
    {args : List String} (loads : KeyLoads crates args)
    (unset : lastValue "--sender" (decryptItems args) = none) (rounds : Nat) {exe : String}
    (direct : isGitInvocation exe "decrypt" = false) :
    ∃ host stdin final,
      realMain crates host rounds (exe :: "decrypt" :: args) stdin = (some 0, final) ∧
      (content stdin)[5]? = some 0x02 := by
  obtain ⟨host, recipPriv, recipKey, loaded, valid⟩ := loads
  have unexpected : (decryptArgs args).expectedSender = none :=
    (decryptOptions_sender args).trans unset
  obtain ⟨stream, conforms, empty, two⟩ := laws.exists_anonymous_stream host valid unexpected
  let host' : Host := { host with disk := emptyDisk }
  have loaded' : loadSecretKey crates host' (decryptArgs args).keyArgs = .ok recipPriv :=
    (loadSecretKey_withDisk crates host emptyDisk _).trans loaded
  obtain ⟨final, finished⟩ := runDecrypt_of_conforms loaded' valid conforms
    (fun _ => ⟨⟨laws.inverts _, emptyDisk_honest⟩,
      ⟨fun _ none => absurd none List.not_mem_nil, by rw [empty]; exact Nat.le_refl 0⟩,
      fun max _ => by rw [empty]; exact Nat.zero_le _⟩)
    (smooth_ofBytes stream.bytes) (content_ofBytes _)
  refine ⟨host', ofBytes stream.bytes, final, ?_, ?_⟩
  · rw [realMain_decrypt direct, finished]
    rfl
  · rw [content_ofBytes, ← two]
    have mode := conforms.mode_of_bytes crates []
    rwa [List.append_nil] at mode

/-- A sender is enforced on every run exactly when some `--sender` in option position has a
value, or when the key options can never lead to a key. A `--sender` at the end of the command
line, which has none, enforces nothing by itself. -/
theorem decrypt_enforces_sender_iff (crates : Crates) [AddCommGroup crates.curve.Point]
    (laws : Lawful crates) (rounds : Nat) (exe : String) (args : List String)
    (direct : isGitInvocation exe "decrypt" = false) :
    (∀ host stdin final,
      realMain crates host rounds (exe :: "decrypt" :: args) stdin = (some 0, final) →
        SenderEnforced crates args stdin final) ↔
      (∃ value, ⟨"--sender", some value⟩ ∈ decryptItems args) ∨ ¬ KeyLoads crates args := by
  constructor
  · intro enforced
    by_contra neither
    obtain ⟨missing, loads⟩ := not_or.mp neither
    have unset : lastValue "--sender" (decryptItems args) = none := by
      rw [← Option.not_isSome_iff_eq_none, lastValue_isSome_iff]
      exact missing
    obtain ⟨host, stdin, final, exited, _⟩ :=
      anonymous_stream_accepted laws (not_not.mp loads) unset rounds direct
    obtain ⟨_, _, _, value, _, _, _, set, _⟩ := enforced host stdin final exited
    rw [unset] at set
    cases set
  · intro condition host stdin final exited
    rw [realMain_decrypt direct, Prod.mk.injEq, exitStatus_eq_zero_iff] at exited
    obtain ⟨⟨process, finished⟩, final_eq⟩ := exited
    rw [finished] at final_eq
    cases final_eq
    obtain ⟨stream, accepted⟩ := (runDecrypt_ends crates host _ stdin).ok finished
    obtain ⟨recipPriv, recipKey, loaded, valid, _⟩ := accepted.conforms
    have given := condition.resolve_right fun never =>
      never ⟨host, recipPriv, recipKey, loaded, valid⟩
    obtain ⟨value, sender⟩ := Option.isSome_iff_exists.mp (lastValue_isSome_iff.mpr given)
    exact accepted.sender_enforced sender

open Reference in
/-- With its key after `--sender`, the sample stream is accepted and the sender enforced. -/
theorem decrypt_enforces_sender_iff_sample :
    ∃ final, realMain packages (keyHost sampleRecipient sampleEphemeral) 0
        ["pipe-k1", "decrypt", "--sender", publicHex sampleSender]
        (sealedStream false sampleSender sampleRecipient sampleEphemeral sampleData) =
          (some 0, final) ∧
      SenderEnforced packages ["--sender", publicHex sampleSender]
        (sealedStream false sampleSender sampleRecipient sampleEphemeral sampleData) final := by
  obtain ⟨final, finished, _⟩ :=
    @sealedStream_accepted false false sampleSender sampleRecipient sampleEphemeral sampleData
      (by decide)
  have options : decryptArgs ["--sender", publicHex sampleSender] =
      openArgs false sampleSender false := rfl
  have exited : realMain packages (keyHost sampleRecipient sampleEphemeral) 0
      ["pipe-k1", "decrypt", "--sender", publicHex sampleSender]
      (sealedStream false sampleSender sampleRecipient sampleEphemeral sampleData) =
        (some 0, final) := by
    rw [realMain_decrypt rfl, options, finished]
    rfl
  exact ⟨final, exited, (decrypt_enforces_sender_iff packages lawful 0 "pipe-k1"
    ["--sender", publicHex sampleSender] rfl).mpr
      (.inl ⟨publicHex sampleSender, List.mem_singleton_self _⟩) _ _ _ exited⟩

open Reference in
/-- `decrypt --sender`, as when a shell variable is empty, accepts an anonymous stream. -/
theorem decrypt_sender_without_value :
    ∃ final, realMain packages (keyHost sampleRecipient sampleEphemeral) 0
        ["pipe-k1", "decrypt", "--sender"]
        (sealedStream true sampleSender sampleRecipient sampleEphemeral sampleData) =
          (some 0, final) ∧
      (content (sealedStream true sampleSender sampleRecipient sampleEphemeral
        sampleData))[5]? = some 0x02 ∧
      ¬ SenderEnforced packages ["--sender"]
        (sealedStream true sampleSender sampleRecipient sampleEphemeral sampleData) final := by
  obtain ⟨final, finished, _⟩ :=
    @sealedStream_accepted true false sampleSender sampleRecipient sampleEphemeral sampleData
      (by decide)
  have unset : decryptArgs ["--sender"] = openArgs true sampleSender false := rfl
  refine ⟨final, ?_, sealedStream_mode true sampleSender sampleRecipient sampleEphemeral
    (by decide), ?_⟩
  · rw [realMain_decrypt rfl, unset, finished]
    rfl
  · rintro ⟨_, _, _, value, _, _, _, given, _⟩
    cases given

end PipeK1

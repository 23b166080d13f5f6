import PipeK1.RoundTrip
import PipeK1.SetupFailures

/-!
# The encryptor's failures

Whatever can fail because of the arguments, the environment or the inherited
descriptors fails before the first wire byte, as a usage error.
-/

set_option autoImplicit false

namespace PipeK1

open ByteData ByteReader Effects

/-! ## Failures of the setup -/

/-- A usage error, the abort over a descriptor number that is none, or a search that does not
end. -/
inductive SetupStop (badDescriptor : Prop) : Stop → Prop
  | usage (message : String) : SetupStop badDescriptor (.failed (.usageError message))
  | aborted (message : String) (given : badDescriptor) :
      SetupStop badDescriptor (.panicked message)
  | unfinished : SetupStop badDescriptor .unfinished

/-- The descriptors an encryption names. -/
def EncryptArgs.descriptors (args : EncryptArgs) : List (Option Int) :=
  args.entropyFd :: args.keyArgs.descriptors

theorem encryptSession_stops {crates : Crates} {host : Host} {rounds : Nat} {args : EncryptArgs} :
    FailsOnly (SetupStop (some (-1) ∈ args.descriptors))
      (encryptSession crates host rounds args) := by
  refine encryptSession_failsOnly .usage
    (fun bad message => .aborted message (List.mem_cons_of_mem _ bad))
    (ephPrivBytes_failsOnly .usage (fun bad message => .aborted message ?_) fun _ => .unfinished)
  rw [EncryptArgs.descriptors, bad]
  exact List.mem_cons_self

/-! ## The first wire byte -/

/-- With sealing and signing that work, an encryption that ends with an error has met a read
error or has run out of chunk numbers, or it has written nothing and exits with code 2. Nor has
it written anything when it aborts, over a descriptor number that no file has. -/
theorem runEncrypt_fails_before_writing (crates : Crates)
    (seals : ∀ key, crates.aead.SealsUpTo key chunkSize)
    (signs : crates.curve.SignsAndVerifies) (host : Host) (rounds : Nat) (args : EncryptArgs)
    (stdin : Reader) (stop : Stop) (final : Process)
    (failed : runEncrypt crates host rounds args (Process.start stdin) = .error stop final) :
    StreamFailure stdin stop ∨
      (final.stdout = [] ∧ (∀ error, stop = .failed error → error.exitCode = 2) ∧
        ∀ message, stop = .panicked message → some (-1) ∈ args.descriptors) := by
  rcases (runEncrypt_buffers crates host rounds args stdin).error failed with
    ⟨refused, rfl⟩ | ⟨session, accepted, stopped⟩
  · refine .inr ⟨rfl, ?_, ?_⟩
    · rintro error rfl
      cases encryptSession_stops _ refused with
      | usage message => rfl
    · rintro message rfl
      cases encryptSession_stops _ refused with
      | aborted message bad => exact bad
  · refine .inl (stopped.failure (seals _) fun signingKey hash signer => ?_)
    obtain ⟨ephPriv, ephKey, keys⟩ := encryptSession_eq_ok accepted
    rcases senderSigningKey_eq_ok keys.sender with
      ⟨_, anonymous⟩ | ⟨_, senderPriv, senderKey, _, valid, sender⟩
    · rw [anonymous] at signer
      cases signer
    · rw [sender] at signer
      cases signer
      exact signs.signs senderPriv signingKey hash valid

open Reference in
/-- A recipient that is no key fails in the setup: nothing in the stream has failed. -/
theorem runEncrypt_fails_before_writing_sample :
    ∃ error final,
      runEncrypt packages (keyHost sampleSender sampleEphemeral) 0 ⟨"", 0x02, {}, none⟩
        (Process.start (ofBytes sampleData)) = .error (.failed error) final ∧
      ¬ StreamFailure (ofBytes sampleData) (.failed error) ∧
      error.exitCode = 2 ∧ final.stdout = [] := by
  have refused : encryptSession packages (keyHost sampleSender sampleEphemeral) 0
      ⟨"", 0x02, {}, none⟩ = .error (.failed (.usageError "Expected 32 bytes of hex, got 0")) := by
    refine encryptSession_of_unparsed ?_ 0
    rw [parseKeyBytes]
    rfl
  have failed := runEncrypt_of_refused refused (ofBytes sampleData)
  have inSetup : ¬ StreamFailure (ofBytes sampleData)
      (.failed (.usageError "Expected 32 bytes of hex, got 0")) := by
    generalize stopped : Stop.failed (.usageError "Expected 32 bytes of hex, got 0") = stop
    rintro (_ | _)
    · cases stopped
    · exact absurd stopped (by decide)
  obtain ⟨silent, code, _⟩ := (runEncrypt_fails_before_writing packages lawful.seals signs
    (keyHost sampleSender sampleEphemeral) 0 ⟨"", 0x02, {}, none⟩ (ofBytes sampleData) _ _
    failed).resolve_left inSetup
  exact ⟨_, _, failed, inSetup, code _ rfl, silent⟩

end PipeK1

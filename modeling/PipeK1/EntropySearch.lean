import PipeK1.ExitContract
import PipeK1.ModeContract

/-!
# The search for an ephemeral key

With entropy of the caller's, `encrypt` hashes until it finds a scalar, without a
bound on the rounds. When a run ends at all, a larger bound changes nothing; when
it does not, no hash so far was a scalar; and its key is the first that was one.
-/

set_option autoImplicit false

namespace PipeK1

open ByteData ByteReader Effects Search

variable {crates : Crates} {host : Host}

/-- The bytes come from a search, or do not depend on its bound. -/
theorem ephPrivBytes_cases (entropyFd : Option Int) :
    (∃ start, SearchStart crates host entropyFd start ∧ ∀ rounds,
      ephPrivBytes crates host rounds entropyFd =
        found (search (Usable crates) (remix crates) rounds start)) ∨
    ((∀ start, ¬ SearchStart crates host entropyFd start) ∧
      ∃ outcome, FailsOnly (Orderly True False) outcome ∧
        ∀ rounds, ephPrivBytes crates host rounds entropyFd = outcome) := by
  cases entropyFd with
  | none =>
      refine .inr ⟨?_, .ok host.osEntropy, .ok _, fun _ => rfl⟩
      rintro start ⟨fd, entropy, impossible, _⟩
      cases impossible
  | some fd =>
      rcases @entropy_cases crates host fd with rfl | ⟨descriptor, none⟩ | ⟨start, begins⟩
      · refine .inr ⟨?_, .error (.panicked "fd != -1"), .error trivial, fun _ => rfl⟩
        rintro start ⟨_, _, same, good, _⟩
        cases same
        exact good rfl
      · obtain ⟨message, refused⟩ := @ephPrivBytes_of_noEntropy crates host fd descriptor none
        exact .inr ⟨fun start => not_searchStart_of_noEntropy none,
          .error (.failed (.usageError message)), .error trivial, refused⟩
      · exact .inl ⟨start, begins, begins.ephPrivBytes⟩

/-! ## Sessions -/

section Session

variable {args : EncryptArgs}

variable (crates host) in
/-- The search of an encryption starts here. -/
def SessionSearch (args : EncryptArgs) (start : FixedBytes 32) : Prop :=
  (∃ recipX, parseKeyBytes crates args.recipientHex = .ok recipX) ∧
    SearchStart crates host args.entropyFd start

/-- Only the search can go on without an end. -/
theorem encryptSession_of_ephemeral {rounds : Nat}
    (ends : FailsOnly (Orderly True False) (ephPrivBytes crates host rounds args.entropyFd)) :
    FailsOnly (Orderly True False) (encryptSession crates host rounds args) :=
  encryptSession_failsOnly (fun _ => trivial) (fun _ _ => trivial) ends

/-- Sessions under two bounds are alike where the bytes for the ephemeral key are. -/
theorem encryptSession_congr {rounds rounds' : Nat}
    (same : ephPrivBytes crates host rounds args.entropyFd =
      ephPrivBytes crates host rounds' args.entropyFd) :
    encryptSession crates host rounds args = encryptSession crates host rounds' args := by
  simp only [encryptSession, same]

theorem encryptSession_of_endless {recipX : FixedBytes 32} {rounds : Nat}
    (parsed : parseKeyBytes crates args.recipientHex = .ok recipX)
    (endless : ephPrivBytes crates host rounds args.entropyFd = .error .unfinished) :
    encryptSession crates host rounds args = .error .unfinished := by
  simp only [encryptSession, parsed, endless]
  rfl

/-- A session waits for a search, or does not depend on its bound. -/
theorem encryptSession_cases (args : EncryptArgs) :
    (∃ start, SessionSearch crates host args start ∧
      (∀ rounds, search (Usable crates) (remix crates) rounds start = none →
        encryptSession crates host rounds args = .error .unfinished) ∧
      ∀ rounds key, search (Usable crates) (remix crates) rounds start = some key →
        FailsOnly (Orderly True False) (encryptSession crates host rounds args) ∧
        ∀ rounds', rounds ≤ rounds' →
          encryptSession crates host rounds args = encryptSession crates host rounds' args) ∨
    ((∀ start, ¬ SessionSearch crates host args start) ∧
      ∀ rounds, FailsOnly (Orderly True False) (encryptSession crates host rounds args) ∧
        ∀ rounds',
          encryptSession crates host rounds args = encryptSession crates host rounds' args) := by
  cases parsed : parseKeyBytes crates args.recipientHex with
  | error e =>
      have refused := @encryptSession_of_unparsed crates host args e parsed
      refine .inr ⟨?_, fun rounds => ?_⟩
      · rintro start ⟨⟨recipX, parsed'⟩, _⟩
        cases parsed.symm.trans parsed'
      · rw [refused rounds]
        exact ⟨.error trivial, fun rounds' => (refused rounds').symm⟩
  | ok recipX =>
      rcases @ephPrivBytes_cases crates host args.entropyFd with
        ⟨start, begins, bytes⟩ | ⟨none, outcome, orderly, bytes⟩
      · refine .inl ⟨start, ⟨⟨recipX, parsed⟩, begins⟩, fun rounds endless => ?_,
          fun rounds key ended => ⟨?_, fun rounds' more => ?_⟩⟩
        · refine encryptSession_of_endless parsed ?_
          rw [bytes, endless]
          rfl
        · refine encryptSession_of_ephemeral ?_
          rw [bytes, ended]
          exact .ok key
        · refine encryptSession_congr ?_
          rw [bytes, bytes, ended, search_mono more ended]
      · refine .inr ⟨fun start begins => none start begins.2, fun rounds => ⟨?_, fun rounds' => ?_⟩⟩
        · refine encryptSession_of_ephemeral ?_
          rw [bytes]
          exact orderly
        · refine encryptSession_congr ?_
          rw [bytes, bytes]

/-! ## Runs -/

theorem runEncrypt_congr {rounds rounds' : Nat}
    (same : encryptSession crates host rounds args = encryptSession crates host rounds' args) :
    runEncrypt crates host rounds args = runEncrypt crates host rounds' args := by
  simp only [runEncrypt, same]

theorem exitStatus_isSome_of_orderly {program : Run Unit}
    (orderly : StopsOnly (Orderly True False) program) (process : Process) :
    exitStatus (program process) ≠ none := by
  cases ran : program process with
  | ok value final => exact Option.some_ne_none _
  | error stop final =>
      have known := (orderly process).error ran
      cases stop with
      | failed error => exact Option.some_ne_none _
      | panicked message => exact Option.some_ne_none _
      | unfinished => exact known.elim

theorem exitStatus_of_endless {rounds : Nat}
    (endless : encryptSession crates host rounds args = .error .unfinished) (process : Process) :
    exitStatus (runEncrypt crates host rounds args process) = none := by
  rw [runEncrypt, endless]
  rfl

end Session

/-! ## The program -/

section Program

variable {exe command : String} {args : List String}

variable (crates host) in
/-- An invocation searches from here. -/
def Searches (exe command : String) (args : List String) (start : FixedBytes 32) : Prop :=
  isGitInvocation exe command = false ∧ command = "encrypt" ∧
    ∃ recip, (encryptOptions args).recipient = some recip ∧
      SessionSearch crates host (encryptArgs args recip) start

theorem realMain_encrypt_congr (direct : isGitInvocation exe "encrypt" = false)
    {rounds rounds' : Nat} (same : ∀ recip, (encryptOptions args).recipient = some recip →
      encryptSession crates host rounds (encryptArgs args recip) =
        encryptSession crates host rounds' (encryptArgs args recip)) (stdin : Reader) :
    realMain crates host rounds (exe :: "encrypt" :: args) stdin =
      realMain crates host rounds' (exe :: "encrypt" :: args) stdin := by
  cases given : (encryptOptions args).recipient with
  | some recip =>
      rw [realMain_encrypt direct given, realMain_encrypt direct given,
        runEncrypt_congr (same recip given)]
  | none =>
      simp only [realMain, runCommand, direct, Bool.false_eq_true, ↓reduceIte, dispatchCommand,
        encryptCommand, given]
      rfl

/-- Other commands know no bound. -/
theorem realMain_of_other (other : ¬ (isGitInvocation exe command = false ∧ command = "encrypt"))
    (rounds rounds' : Nat) (stdin : Reader) :
    realMain crates host rounds (exe :: command :: args) stdin =
      realMain crates host rounds' (exe :: command :: args) stdin := by
  unfold realMain runCommand
  by_cases git : isGitInvocation exe command = true
  · simp only [if_pos git]
  · have named : command ≠ "encrypt" :=
      fun same => other ⟨Bool.eq_false_of_not_eq_true git, same⟩
    simp only [if_neg git]
    unfold dispatchCommand
    split
    case h_1 => exact absurd rfl named
    all_goals rfl

theorem realMain_ends_of_other (signs : crates.curve.SignsAndVerifies)
    (other : ¬ (isGitInvocation exe command = false ∧ command = "encrypt")) (rounds : Nat)
    (stdin : Reader) :
    (realMain crates host rounds (exe :: command :: args) stdin).1 ≠ none := by
  have orderly := @runCommand_orderly crates host signs rounds exe command args
    (Process.start stdin)
  simp only [realMain]
  cases ran : runCommand crates host rounds exe command args (Process.start stdin) with
  | ok value final => exact Option.some_ne_none _
  | error stop final =>
      have known := orderly.error ran
      cases stop with
      | failed error => exact Option.some_ne_none _
      | panicked message => exact Option.some_ne_none _
      | unfinished => exact absurd ⟨known.1, known.2.1⟩ other

/-- A run waits for a search, or does not depend on its bound. -/
theorem realMain_cases (signs : crates.curve.SignsAndVerifies) (stdin : Reader) :
    (∃ start, Searches crates host exe command args start ∧
      (∀ rounds, search (Usable crates) (remix crates) rounds start = none →
        (realMain crates host rounds (exe :: command :: args) stdin).1 = none) ∧
      ∀ rounds key, search (Usable crates) (remix crates) rounds start = some key →
        (realMain crates host rounds (exe :: command :: args) stdin).1 ≠ none ∧
        ∀ rounds', rounds ≤ rounds' → realMain crates host rounds (exe :: command :: args) stdin =
          realMain crates host rounds' (exe :: command :: args) stdin) ∨
    ((∀ start, ¬ Searches crates host exe command args start) ∧
      ∀ rounds, (realMain crates host rounds (exe :: command :: args) stdin).1 ≠ none ∧
        ∀ rounds', realMain crates host rounds (exe :: command :: args) stdin =
          realMain crates host rounds' (exe :: command :: args) stdin) := by
  by_cases searching : isGitInvocation exe command = false ∧ command = "encrypt"
  · obtain ⟨direct, rfl⟩ := searching
    cases given : (encryptOptions args).recipient with
    | none =>
        refine .inr ⟨?_, fun rounds => ⟨?_, fun rounds' => realMain_encrypt_congr direct ?_ stdin⟩⟩
        · rintro start ⟨_, _, recip, given', _⟩
          cases given.symm.trans given'
        · obtain ⟨error, refused⟩ := @realMain_encrypt_without_recipient crates host rounds exe
            args stdin direct given
          rw [refused]
          exact Option.some_ne_none _
        · intro recip given'
          cases given.symm.trans given'
    | some recip =>
        have congr : ∀ rounds rounds', encryptSession crates host rounds (encryptArgs args recip) =
            encryptSession crates host rounds' (encryptArgs args recip) →
            realMain crates host rounds (exe :: "encrypt" :: args) stdin =
              realMain crates host rounds' (exe :: "encrypt" :: args) stdin := by
          intro rounds rounds' same
          refine realMain_encrypt_congr direct (fun recip' given' => ?_) stdin
          cases given.symm.trans given'
          exact same
        have ends : ∀ rounds, FailsOnly (Orderly True False)
            (encryptSession crates host rounds (encryptArgs args recip)) →
            (realMain crates host rounds (exe :: "encrypt" :: args) stdin).1 ≠ none := by
          intro rounds orderly
          rw [realMain_encrypt direct given]
          exact exitStatus_isSome_of_orderly (runEncrypt_orderly orderly) _
        rcases @encryptSession_cases crates host (encryptArgs args recip) with
          ⟨start, begins, endless, ended⟩ | ⟨none, sessions⟩
        · refine .inl ⟨start, ⟨direct, rfl, recip, given, begins⟩, fun rounds never => ?_,
            fun rounds key hit => ⟨ends rounds (ended rounds key hit).1,
              fun rounds' more => congr rounds rounds' ((ended rounds key hit).2 rounds' more)⟩⟩
          rw [realMain_encrypt direct given]
          exact exitStatus_of_endless (endless rounds never) _
        · refine .inr ⟨?_, fun rounds => ⟨ends rounds (sessions rounds).1,
            fun rounds' => congr rounds rounds' ((sessions rounds).2 rounds')⟩⟩
          rintro start ⟨_, _, recip', given', begins⟩
          cases given.symm.trans given'
          exact none start begins
  · refine .inr ⟨fun start begins => searching ⟨begins.1, begins.2.1⟩, fun rounds =>
      ⟨realMain_ends_of_other signs searching rounds stdin,
        fun rounds' => realMain_of_other searching rounds rounds' stdin⟩⟩

theorem Searches.unique {start start' : FixedBytes 32}
    (begins : Searches crates host exe command args start)
    (begins' : Searches crates host exe command args start') : start = start' := by
  obtain ⟨_, _, recip, given, _, begins⟩ := begins
  obtain ⟨_, _, recip', given', _, begins'⟩ := begins'
  cases given.symm.trans given'
  exact begins.unique begins'

/-- The key of a search that succeeds is in the header. -/
theorem Searches.published {start : FixedBytes 32}
    (searches : Searches crates host exe command args start) {rounds : Nat} {stdin : Reader}
    {final : Process}
    (exited : realMain crates host rounds (exe :: command :: args) stdin = (some 0, final)) :
    ∃ count key signingKey, FirstUsable (Usable crates) (remix crates) start count key ∧
      crates.curve.signingKey key = .ok signingKey ∧
      (final.stdout.drop 6).take 32 = (crates.curve.publicBytes signingKey).toList := by
  obtain ⟨direct, rfl, recip, given, _, begins⟩ := searches
  obtain ⟨recip', given', ran⟩ := realMain_encrypt_succeeds direct exited
  cases given.symm.trans given'
  obtain ⟨session, full, last, trailer, run⟩ :=
    (runEncrypt_ends crates host rounds _ stdin).ok ran
  obtain ⟨ephPriv, ephKey, keys⟩ := encryptSession_eq_ok run.session_eq
  have drawn := keys.ephemeral
  rcases @ephPrivBytes_cases crates host (encryptArgs args recip).entropyFd with
    ⟨start', begins', bytes⟩ | ⟨none, _⟩
  · rw [begins'.unique begins] at bytes
    rw [bytes] at drawn
    cases hit : search (Usable crates) (remix crates) rounds start with
    | none =>
        rw [hit] at drawn
        cases drawn
    | some key =>
        rw [hit] at drawn
        cases drawn
        obtain ⟨count, _, first⟩ := search_eq_some_iff.mp hit
        refine ⟨count, ephPriv, ephKey, first, keys.valid, ?_⟩
        have field : (session.header host).slice 6 32 = session.ephPubX :=
          wireHeader_ephPub _ _ _ _ _
        have width : (session.header host).toList.length = 97 := FixedBytes.length_toList _
        rw [← keys.ephPubX_eq, ← field, run.stdout_eq, FixedBytes.toList_slice,
          List.drop_append_of_le_length (by omega),
          List.take_append_of_le_length (by rw [List.length_drop]; omega)]
  · exact absurd begins (none start)

end Program

/-- How the search's bound shows in a run of the program: a run that ends is the same under every
larger bound; it does not end exactly if it searches and none of the hashes within the bound is a
scalar; and a search that has ended has put the public key of the first scalar in the header. -/
theorem realMain_search (crates : Crates) (signs : crates.curve.SignsAndVerifies) (host : Host)
    (exe command : String) (args : List String) (stdin : Reader) :
    (∀ rounds rounds', rounds ≤ rounds' →
      (realMain crates host rounds (exe :: command :: args) stdin).1 ≠ none →
      realMain crates host rounds' (exe :: command :: args) stdin =
        realMain crates host rounds (exe :: command :: args) stdin) ∧
    (∀ rounds, (realMain crates host rounds (exe :: command :: args) stdin).1 = none ↔
      ∃ start, Searches crates host exe command args start ∧
        ∀ count < rounds, ¬ Usable crates (Nat.iterate (remix crates) count start)) ∧
    ∀ rounds start final, Searches crates host exe command args start →
      realMain crates host rounds (exe :: command :: args) stdin = (some 0, final) →
      ∃ count key signingKey, FirstUsable (Usable crates) (remix crates) start count key ∧
        crates.curve.signingKey key = .ok signingKey ∧
        (final.stdout.drop 6).take 32 = (crates.curve.publicBytes signingKey).toList := by
  refine ⟨fun rounds rounds' more ends => ?_, fun rounds => ?_,
    fun rounds start final searches exited => searches.published exited⟩
  · rcases @realMain_cases crates host exe command args signs stdin with
      ⟨start, _, endless, ended⟩ | ⟨_, ended⟩
    · cases hit : search (Usable crates) (remix crates) rounds start with
      | none => exact absurd (endless rounds hit) ends
      | some key => exact ((ended rounds key hit).2 rounds' more).symm
    · exact ((ended rounds).2 rounds').symm
  · rcases @realMain_cases crates host exe command args signs stdin with
      ⟨start, searches, endless, ended⟩ | ⟨none, ended⟩
    · cases hit : search (Usable crates) (remix crates) rounds start with
      | none =>
          exact iff_of_true (endless rounds hit) ⟨start, searches, search_eq_none_iff.mp hit⟩
      | some key =>
          refine iff_of_false (ended rounds key hit).1 ?_
          rintro ⟨start', searches', never⟩
          rw [searches'.unique searches, ← search_eq_none_iff, hit] at never
          cases never
    · exact iff_of_false (ended rounds).1 fun searching => none _ searching.choose_spec.1

namespace Reference

/-- A letter behind every descriptor. -/
def entropyHost : Host :=
  { keyHost sampleSender sampleEphemeral with descriptor := fun _ => ofBytes [0x68] }

def entropyArgs : List String := ["--entropy-fd", "5", "--recipient", publicHex sampleRecipient]

def entropyStart : FixedBytes 32 :=
  taggedHash packages tagEntropy ((secretBytes sampleEphemeral).toList ++ [0x68])

theorem entropyArgs_search : Searches packages entropyHost "pipe-k1" "encrypt" entropyArgs
    entropyStart :=
  ⟨by decide, rfl, publicHex sampleRecipient, rfl,
    ⟨publicBytes sampleRecipient, parseKeyBytes_hex _ _⟩,
    ⟨5, [0x68], by decide, by decide, by decide, List.cons_ne_nil _ _, rfl⟩⟩

end Reference

open Reference in
/-- The first hash is none of the reference curve's scalars. -/
theorem realMain_search_sample :
    (realMain packages entropyHost 1 ("pipe-k1" :: "encrypt" :: entropyArgs) []).1 = none :=
  ((realMain_search packages signs entropyHost "pipe-k1" "encrypt" entropyArgs []).2.1 1).mpr
    ⟨entropyStart, entropyArgs_search, by decide +kernel⟩

end PipeK1

import PipeK1.Encrypt
import PipeK1.Library.Search
import PipeK1.Library.Stops

/-!
# Failures before the first byte

What key intake and the setup of `run_encrypt` can fail with, in one traversal of
their code; then which key sources, and which entropy, are refused, said of what
the sources hold.
-/

set_option autoImplicit false

namespace PipeK1

open ByteData ByteReader Effects Search

variable {crates : Crates} {host : Host}

/-! ## Rules -/

/-- The descriptors a key intake names. -/
def KeyIntakeArgs.descriptors (args : KeyIntakeArgs) : List (Option Int) :=
  [args.secFd, args.mnemonicFd, args.passphraseFd]

section Rules

variable {allowed : Stop → Prop} {α ε : Type}
  (usage : ∀ message, allowed (.failed (.usageError message)))
include usage

theorem usageError_failsOnly {text : ε → String} {outcome : Except ε α} :
    FailsOnly allowed (Stop.mapErr (fun error => .usageError (text error)) outcome) := by
  cases outcome with
  | ok value => exact .ok value
  | error error => exact .error (usage _)

omit usage in
theorem fromRawFd_failsOnly {fd : Int}
    (given : fd = -1 → ∀ message, allowed (.panicked message)) :
    FailsOnly allowed (fromRawFd host fd) := by
  unfold fromRawFd
  split
  · next minus => exact .error (given minus _)
  · exact .ok _

theorem readSecretFd_failsOnly {option : String} {fd : Int}
    (given : fd = -1 → ∀ message, allowed (.panicked message)) :
    FailsOnly allowed (readSecretFd host option fd) :=
  (fromRawFd_failsOnly given).bind fun _ => usageError_failsOnly usage

theorem deriveBip85OperationalKey_failsOnly (mnemonic passphrase : String)
    (identity index : UInt32) :
    FailsOnly allowed (deriveBip85OperationalKey crates mnemonic passphrase identity index) := by
  refine .bind (usageError_failsOnly usage) fun _ => .bind (usageError_failsOnly usage) fun _ =>
    .bind (usageError_failsOnly usage) fun _ =>
    .bind (.foldlM (fun _ _ => usageError_failsOnly usage) _ _) fun _ => ?_
  dsimp only
  split
  · exact .error (usage _)
  · exact .bind (usageError_failsOnly usage) fun _ => .ok _

/-- Apart from usage errors, key intake stops over a descriptor of -1 only. -/
theorem loadSecretKey_failsOnly {args : KeyIntakeArgs}
    (given : some (-1) ∈ args.descriptors → ∀ message, allowed (.panicked message)) :
    FailsOnly allowed (loadSecretKey crates host args) := by
  simp only [KeyIntakeArgs.descriptors, List.mem_cons, List.not_mem_nil, or_false] at given
  unfold loadSecretKey
  split
  · next fd source =>
      refine (readSecretFd_failsOnly usage fun minus => given (.inl ?_)).bind fun _ =>
        usageError_failsOnly usage
      rw [source, minus]
  · exact .bind (usageError_failsOnly usage) fun _ => usageError_failsOnly usage
  · refine .bind ?_ fun mnemonic => ?_
    · unfold mnemonicInput
      split
      · next fd source =>
          refine (readSecretFd_failsOnly usage fun minus => given (.inr (.inl ?_))).bind
            fun _ => .ok _
          rw [source, minus]
      · exact .ok _
    · cases mnemonic with
      | some mnemonic =>
          refine .bind ?_ fun _ => deriveBip85OperationalKey_failsOnly usage _ _ _ _
          unfold passphraseInput
          split
          · next fd source =>
              refine readSecretFd_failsOnly usage fun minus => given (.inr (.inr ?_))
              rw [source, minus]
          · exact .ok _
      | none =>
          dsimp only
          split
          · exact usageError_failsOnly usage
          · exact .ok _
          · exact .error (usage _)

theorem senderSigningKey_failsOnly {mode : UInt8} {keyArgs : KeyIntakeArgs}
    (given : some (-1) ∈ keyArgs.descriptors → ∀ message, allowed (.panicked message)) :
    FailsOnly allowed (senderSigningKey crates host mode keyArgs) := by
  unfold senderSigningKey
  split
  · split
    · exact .error (usage _)
    · next stop _ failed => exact .error (loadSecretKey_failsOnly usage given stop failed)
    · exact .bind (usageError_failsOnly usage) fun _ => .ok _
  · exact .ok _

/-- Without an entropy descriptor there is no search. -/
theorem ephPrivBytes_failsOnly {rounds : Nat} {entropyFd : Option Int}
    (given : entropyFd = some (-1) → ∀ message, allowed (.panicked message))
    (mixing : entropyFd.isSome = true → allowed .unfinished) :
    FailsOnly allowed (ephPrivBytes crates host rounds entropyFd) := by
  unfold ephPrivBytes
  split
  · exact .ok _
  · next fd =>
      have rehashes : ∀ rounds mixed, FailsOnly allowed (rehash crates rounds mixed) := by
        intro rounds
        induction rounds with
        | zero => exact fun _ => .error (mixing rfl)
        | succ rounds ih =>
            intro mixed
            rw [rehash]
            split
            · exact .ok _
            · exact ih _
      refine (fromRawFd_failsOnly fun minus => given (congrArg some minus)).bind fun _ =>
        .bind (usageError_failsOnly usage) fun entropy => ?_
      split
      · exact .error (usage _)
      · exact rehashes _ _

theorem encryptSession_failsOnly {rounds : Nat} {args : EncryptArgs}
    (given : some (-1) ∈ args.keyArgs.descriptors → ∀ message, allowed (.panicked message))
    (ephemeral : FailsOnly allowed (ephPrivBytes crates host rounds args.entropyFd)) :
    FailsOnly allowed (encryptSession crates host rounds args) := by
  unfold encryptSession
  exact .bind (usageError_failsOnly usage) fun _ => .bind ephemeral fun _ =>
    .bind (usageError_failsOnly usage) fun _ => .bind (senderSigningKey_failsOnly usage given)
      fun _ => .bind (usageError_failsOnly usage) fun _ =>
    .bind (usageError_failsOnly usage) fun _ => .ok _

end Rules

/-! ## Key sources -/

section Sources

variable (crates host)

/-- A text that is a key, and one the curve takes. -/
def UsableKey (text : String) : Prop :=
  ∃ secret key, parseKeyBytes crates text = .ok secret ∧ crates.curve.signingKey secret = .ok key

/-- What was read is no text, or a text that is no key. -/
def HoldsNoKey (read : Except IoError String) : Prop :=
  ∀ text, read = .ok text → ¬ UsableKey crates text

def descriptorText (fd : Int) : Except IoError String :=
  asString (readToEnd (host.descriptor fd)).1

/-- The descriptor that an option names does not hold a text. -/
def Unreadable (option : Option Int) : Prop :=
  ∃ fd error, option = some fd ∧ fd ≠ -1 ∧ descriptorText host fd = .error error

/-- Neither `--sec-fd` nor `--sec-file` is given. -/
def KeyIntakeArgs.Unnamed (args : KeyIntakeArgs) : Prop :=
  args.secFd = none ∧ args.secFile = none

/-- The source that comes first holds no key. A descriptor of -1 is none of these cases: it
aborts the program. -/
inductive NoUsableKey (args : KeyIntakeArgs) : Prop
  | secFd {fd : Int} (given : args.secFd = some fd) (descriptor : fd ≠ -1)
      (none : HoldsNoKey crates (descriptorText host fd))
  | secFile {path : String} (left : args.secFd = none) (given : args.secFile = some path)
      (none : HoldsNoKey crates (asString (host.fileContents (PathBuf.parse path))))
  | mnemonic (left : args.Unnamed) (unreadable : Unreadable host args.mnemonicFd)
  | passphrase {phrase : String} (left : args.Unnamed)
      (given : mnemonicInput host args = .ok (some phrase))
      (unreadable : Unreadable host args.passphraseFd)
  | derivation {phrase passphrase : String} (left : args.Unnamed)
      (given : mnemonicInput host args = .ok (some phrase))
      (protecting : passphraseInput host args = .ok passphrase)
      (none : ∀ secret, deriveBip85OperationalKey crates phrase passphrase
        (args.bip85Identity.getD 0) (args.bip85Index.getD 0) ≠ .ok secret)
  | environment {text : String} (left : args.Unnamed)
      (words : mnemonicInput host args = .ok none)
      (given : envVarOr host "PIPE_K1_SEC_KEY" "PIPEK1_SEC_KEY" = some text)
      (none : ¬ UsableKey crates text)
  | gitKey {secret : FixedBytes 32} {message : String} (left : args.Unnamed)
      (words : mnemonicInput host args = .ok none)
      (unset : envVarOr host "PIPE_K1_SEC_KEY" "PIPEK1_SEC_KEY" = none)
      (given : gitFallbackKey crates host = some secret)
      (invalid : crates.curve.signingKey secret = .error message)
  | nowhere (left : args.Unnamed) (words : mnemonicInput host args = .ok none)
      (unset : envVarOr host "PIPE_K1_SEC_KEY" "PIPEK1_SEC_KEY" = none)
      (absent : gitFallbackKey crates host = none)

/-- An error of the program's own, or bytes that are no scalar. -/
def Unusable (outcome : Except Stop (FixedBytes 32)) : Prop :=
  Stop.Refuses outcome ∨
    ∃ secret message, outcome = .ok secret ∧ crates.curve.signingKey secret = .error message

/-- The sources lead to no valid key. -/
def KeyRefusedOn (args : KeyIntakeArgs) : Prop := Unusable crates (loadSecretKey crates host args)

variable {crates host}

theorem Unusable.failed (error : Pipek1Error) :
    Unusable crates (.error (.failed error)) := .inl ⟨error, rfl⟩

theorem not_unusable_panicked (message : String) :
    ¬ Unusable crates (.error (.panicked message)) := by
  rintro (⟨_, impossible⟩ | ⟨_, _, impossible, _⟩) <;> cases impossible

theorem not_unusable_unfinished : ¬ Unusable crates (.error .unfinished) := by
  rintro (⟨_, impossible⟩ | ⟨_, _, impossible, _⟩) <;> cases impossible

theorem unusable_ok_iff {secret : FixedBytes 32} :
    Unusable crates (.ok secret) ↔ ∃ message, crates.curve.signingKey secret = .error message := by
  constructor
  · rintro (⟨_, impossible⟩ | ⟨_, message, same, invalid⟩)
    · cases impossible
    · cases same
      exact ⟨message, invalid⟩
  · rintro ⟨message, invalid⟩
    exact .inr ⟨secret, message, rfl, invalid⟩

theorem unusable_parsed_iff {text : String} :
    Unusable crates (Stop.mapErr .usageError (parseKeyBytes crates text)) ↔
      ¬ UsableKey crates text := by
  cases parsed : parseKeyBytes crates text with
  | error message =>
      refine iff_of_true (.failed _) ?_
      rintro ⟨secret, _, parsed', _⟩
      cases parsed.symm.trans parsed'
  | ok secret =>
      rw [Stop.mapErr_ok, unusable_ok_iff]
      constructor
      · rintro ⟨message, invalid⟩ ⟨secret', key, parsed', valid⟩
        cases parsed.symm.trans parsed'
        cases invalid.symm.trans valid
      · intro none
        cases valid : crates.curve.signingKey secret with
        | error message => exact ⟨message, rfl⟩
        | ok key => exact absurd ⟨secret, key, parsed, valid⟩ none

/-- A source that is read and parsed. -/
theorem unusable_read_iff {convert : IoError → Pipek1Error} {read : Except IoError String} :
    Unusable crates (Stop.mapErr convert read >>= fun text =>
        Stop.mapErr .usageError (parseKeyBytes crates text)) ↔ HoldsNoKey crates read := by
  cases read with
  | error e =>
      refine iff_of_true (.failed _) ?_
      intro text impossible
      cases impossible
  | ok text =>
      refine unusable_parsed_iff.trans ⟨fun none => ?_, fun none => none text rfl⟩
      rintro text' same
      cases same
      exact none

/-- The derivation has checked its scalar. -/
theorem signingKey_of_derived {phrase passphrase : String} {identity index : UInt32}
    {secret : FixedBytes 32}
    (derived : deriveBip85OperationalKey crates phrase passphrase identity index = .ok secret) :
    ∃ key, crates.curve.signingKey secret = .ok key := by
  unfold deriveBip85OperationalKey at derived
  obtain ⟨mnemonic, _, derived⟩ := Stop.bind_eq_ok derived
  obtain ⟨rootXprv, _, derived⟩ := Stop.bind_eq_ok derived
  obtain ⟨path, _, derived⟩ := Stop.bind_eq_ok derived
  obtain ⟨currentXprv, _, derived⟩ := Stop.bind_eq_ok derived
  obtain ⟨_, derived⟩ := Stop.guard_eq_ok_iff.mp derived
  obtain ⟨key, valid, derived⟩ := Stop.bind_eq_ok derived
  cases derived
  exact ⟨key, Stop.mapErr_eq_ok_iff.mp valid⟩

theorem unusable_derived_iff {phrase passphrase : String} {identity index : UInt32} :
    Unusable crates (deriveBip85OperationalKey crates phrase passphrase identity index) ↔
      ∀ secret, deriveBip85OperationalKey crates phrase passphrase identity index ≠ .ok secret := by
  cases derived : deriveBip85OperationalKey crates phrase passphrase identity index with
  | ok secret =>
      obtain ⟨key, valid⟩ := signingKey_of_derived derived
      refine iff_of_false (fun refused => ?_) fun none => none secret rfl
      obtain ⟨message, invalid⟩ := unusable_ok_iff.mp refused
      cases invalid.symm.trans valid
  | error stop =>
      have only : FailsOnly (fun stop => ∃ error, stop = Stop.failed error)
          (deriveBip85OperationalKey crates phrase passphrase identity index) :=
        deriveBip85OperationalKey_failsOnly (fun _ => ⟨_, rfl⟩) _ _ _ _
      obtain ⟨error, rfl⟩ := only stop derived
      refine iff_of_true (.failed _) ?_
      intro secret impossible
      cases impossible

theorem readSecretFd_eq {option : String} {fd : Int} (descriptor : fd ≠ -1) :
    readSecretFd host option fd =
      Stop.mapErr (fun e => .usageError ("Failed to read " ++ option ++ ": " ++ e.message))
        (descriptorText host fd) := by
  unfold readSecretFd fromRawFd
  rw [if_neg descriptor]
  rfl

theorem readSecretFd_refuses_iff {option : String} {fd : Int} :
    Stop.Refuses (readSecretFd host option fd) ↔ Unreadable host (some fd) := by
  by_cases minus : fd = -1
  · rw [minus]
    refine iff_of_false (Stop.not_refuses_panicked _) ?_
    rintro ⟨_, error, same, descriptor, _⟩
    cases same
    exact descriptor rfl
  · rw [readSecretFd_eq minus, Stop.refuses_mapErr_iff]
    constructor
    · rintro ⟨error, read⟩
      exact ⟨fd, error, rfl, minus, read⟩
    · rintro ⟨_, error, same, _, read⟩
      cases same
      exact ⟨error, read⟩

theorem not_unreadable_none : ¬ Unreadable host none := by
  rintro ⟨_, _, impossible, _⟩
  cases impossible

theorem mnemonicInput_refuses_iff {args : KeyIntakeArgs} :
    Stop.Refuses (mnemonicInput host args) ↔ Unreadable host args.mnemonicFd := by
  unfold mnemonicInput
  cases args.mnemonicFd with
  | none => exact iff_of_false (Stop.not_refuses_ok _) not_unreadable_none
  | some fd =>
      rw [← @readSecretFd_refuses_iff host "--mnemonic-fd" fd]
      refine Stop.refuses_bind_iff.trans (or_iff_left ?_)
      rintro ⟨text, _, impossible⟩
      exact Stop.not_refuses_ok _ impossible

theorem passphraseInput_refuses_iff {args : KeyIntakeArgs} :
    Stop.Refuses (passphraseInput host args) ↔ Unreadable host args.passphraseFd := by
  unfold passphraseInput
  cases args.passphraseFd with
  | none => exact iff_of_false (Stop.not_refuses_ok _) not_unreadable_none
  | some fd => exact readSecretFd_refuses_iff

theorem keyRefusedOn_secFd_iff {args : KeyIntakeArgs} {fd : Int} (given : args.secFd = some fd) :
    KeyRefusedOn crates host args ↔
      fd ≠ -1 ∧ HoldsNoKey crates (descriptorText host fd) := by
  unfold KeyRefusedOn loadSecretKey
  simp only [given]
  by_cases minus : fd = -1
  · rw [minus]
    exact iff_of_false (not_unusable_panicked _) fun refused => refused.1 rfl
  · rw [readSecretFd_eq minus, unusable_read_iff, and_iff_right minus]

theorem keyRefusedOn_secFile_iff {args : KeyIntakeArgs} {path : String}
    (left : args.secFd = none) (given : args.secFile = some path) :
    KeyRefusedOn crates host args ↔
      HoldsNoKey crates (asString (host.fileContents (PathBuf.parse path))) := by
  unfold KeyRefusedOn loadSecretKey
  simp only [left, given]
  exact unusable_read_iff

theorem keyRefusedOn_words_iff {args : KeyIntakeArgs} {phrase : String} (left : args.Unnamed)
    (given : mnemonicInput host args = .ok (some phrase)) :
    KeyRefusedOn crates host args ↔ Unreadable host args.passphraseFd ∨
      ∃ passphrase, passphraseInput host args = .ok passphrase ∧
        ∀ secret, deriveBip85OperationalKey crates phrase passphrase
          (args.bip85Identity.getD 0) (args.bip85Index.getD 0) ≠ .ok secret := by
  rw [← passphraseInput_refuses_iff]
  unfold KeyRefusedOn loadSecretKey
  simp only [left.1, left.2, given, bind, Except.bind]
  cases passphraseInput host args with
  | ok passphrase =>
      refine unusable_derived_iff.trans ⟨fun none => .inr ⟨passphrase, rfl, none⟩, ?_⟩
      rintro (⟨error, impossible⟩ | ⟨_, same, none⟩)
      · cases impossible
      · cases same
        exact none
  | error stop =>
      constructor
      · rintro (⟨error, failed⟩ | ⟨_, _, impossible, _⟩)
        · cases failed
          exact .inl ⟨error, rfl⟩
        · cases impossible
      · rintro (⟨error, failed⟩ | ⟨_, impossible, _⟩)
        · cases failed
          exact .failed error
        · cases impossible

theorem keyRefusedOn_wordless_iff {args : KeyIntakeArgs} (left : args.Unnamed)
    (words : mnemonicInput host args = .ok none) :
    KeyRefusedOn crates host args ↔
      match envVarOr host "PIPE_K1_SEC_KEY" "PIPEK1_SEC_KEY", gitFallbackKey crates host with
      | some text, _ => ¬ UsableKey crates text
      | none, some secret => ∃ message, crates.curve.signingKey secret = .error message
      | none, none => True := by
  unfold KeyRefusedOn loadSecretKey
  simp only [left.1, left.2, words, bind, Except.bind]
  cases envVarOr host "PIPE_K1_SEC_KEY" "PIPEK1_SEC_KEY" with
  | some text => exact unusable_parsed_iff
  | none =>
      cases gitFallbackKey crates host with
      | some secret => exact unusable_ok_iff
      | none => exact iff_of_true (.failed _) trivial

theorem keyRefusedOn_of_unread {args : KeyIntakeArgs} {stop : Stop} (left : args.Unnamed)
    (stopped : mnemonicInput host args = .error stop) :
    KeyRefusedOn crates host args ↔ Unreadable host args.mnemonicFd := by
  rw [← mnemonicInput_refuses_iff, stopped]
  unfold KeyRefusedOn loadSecretKey
  simp only [left.1, left.2, stopped, bind, Except.bind]
  constructor
  · rintro (⟨error, failed⟩ | ⟨_, _, impossible, _⟩)
    · cases failed
      exact ⟨error, rfl⟩
    · cases impossible
  · rintro ⟨error, failed⟩
    cases failed
    exact .failed error

/-- The first source decides, by what it holds. -/
theorem keyRefusedOn_iff {args : KeyIntakeArgs} :
    KeyRefusedOn crates host args ↔ NoUsableKey crates host args := by
  constructor
  · intro refused
    cases first : args.secFd with
    | some fd =>
        obtain ⟨descriptor, none⟩ := (keyRefusedOn_secFd_iff first).mp refused
        exact .secFd first descriptor none
    | none =>
        cases second : args.secFile with
        | some path => exact .secFile first second ((keyRefusedOn_secFile_iff first second).mp refused)
        | none =>
            have left : args.Unnamed := ⟨first, second⟩
            cases words : mnemonicInput host args with
            | error stop =>
                exact .mnemonic left ((keyRefusedOn_of_unread left words).mp refused)
            | ok mnemonic =>
                cases mnemonic with
                | some phrase =>
                    rcases (keyRefusedOn_words_iff left words).mp refused with
                      unreadable | ⟨passphrase, protecting, none⟩
                    · exact .passphrase left words unreadable
                    · exact .derivation left words protecting none
                | none =>
                    have last := (keyRefusedOn_wordless_iff left words).mp refused
                    cases unset : envVarOr host "PIPE_K1_SEC_KEY" "PIPEK1_SEC_KEY" with
                    | some text =>
                        simp only [unset] at last
                        exact .environment left words unset last
                    | none =>
                        cases absent : gitFallbackKey crates host with
                        | some secret =>
                            simp only [unset, absent] at last
                            obtain ⟨message, invalid⟩ := last
                            exact .gitKey left words unset absent invalid
                        | none => exact .nowhere left words unset absent
  · intro none
    cases none with
    | secFd given descriptor none => exact (keyRefusedOn_secFd_iff given).mpr ⟨descriptor, none⟩
    | secFile left given none => exact (keyRefusedOn_secFile_iff left given).mpr none
    | mnemonic left unreadable =>
        obtain ⟨error, failed⟩ := mnemonicInput_refuses_iff.mpr unreadable
        exact (keyRefusedOn_of_unread left failed).mpr unreadable
    | passphrase left given unreadable =>
        exact (keyRefusedOn_words_iff left given).mpr (.inl unreadable)
    | derivation left given protecting none =>
        exact (keyRefusedOn_words_iff left given).mpr (.inr ⟨_, protecting, none⟩)
    | environment left words given none =>
        refine (keyRefusedOn_wordless_iff left words).mpr ?_
        simp only [given]
        exact none
    | gitKey left words unset given invalid =>
        refine (keyRefusedOn_wordless_iff left words).mpr ?_
        simp only [unset, given]
        exact ⟨_, invalid⟩
    | nowhere left words unset absent =>
        refine (keyRefusedOn_wordless_iff left words).mpr ?_
        simp only [unset, absent]

end Sources

/-! ## Entropy -/

section Entropy

variable (crates host)

/-- What the loop of `run_encrypt` stops at. -/
def Usable (mixed : FixedBytes 32) : Prop :=
  (crates.curve.signingKey mixed).isOk ∧ mixed ≠ FixedBytes.zeros 32

instance : DecidablePred (Usable crates) := fun mixed =>
  inferInstanceAs (Decidable ((crates.curve.signingKey mixed).isOk ∧ mixed ≠ FixedBytes.zeros 32))

def remix (mixed : FixedBytes 32) : FixedBytes 32 := taggedHash crates tagEntropy mixed.toList

/-- Where the search starts, if there is one. -/
def SearchStart (entropyFd : Option Int) (start : FixedBytes 32) : Prop :=
  ∃ fd entropy, entropyFd = some fd ∧ fd ≠ -1 ∧
    (fill chunkSize (host.descriptor fd)).1 = .ok entropy ∧ entropy ≠ [] ∧
    start = taggedHash crates tagEntropy (host.osEntropy.toList ++ entropy)

/-- What a search comes to. -/
def found : Option (FixedBytes 32) → Except Stop (FixedBytes 32)
  | some key => .ok key
  | none => .error .unfinished

/-- The descriptor has no entropy to give: it cannot be read, or it is empty. -/
def NoEntropy (fd : Int) : Prop :=
  ∀ entropy, (fill chunkSize (host.descriptor fd)).1 = .ok entropy → entropy = []

/-- What the ephemeral key is made from, as the options leave it: the system's bytes, or the first
scalar that is found from the caller's. -/
inductive Drawn (rounds : Nat) :
    Option Int → FixedBytes 32 → Prop
  | system : Drawn rounds none host.osEntropy
  | hashed {entropyFd : Option Int} {start key : FixedBytes 32} {count : Nat}
      (begins : SearchStart crates host entropyFd start) (inside : count < rounds)
      (first : FirstUsable (Usable crates) (remix crates) start count key) :
      Drawn rounds entropyFd key

variable {crates host}

theorem rehash_eq (rounds : Nat) (mixed : FixedBytes 32) :
    rehash crates rounds mixed = found (search (Usable crates) (remix crates) rounds mixed) := by
  induction rounds generalizing mixed with
  | zero => rfl
  | succ rounds ih =>
      rw [rehash, search]
      by_cases good : Usable crates mixed
      · rw [if_pos good]
        exact if_pos good
      · rw [if_neg good]
        exact (if_neg good).trans (ih _)

theorem SearchStart.unique {entropyFd : Option Int} {start start' : FixedBytes 32}
    (begins : SearchStart crates host entropyFd start)
    (begins' : SearchStart crates host entropyFd start') : start = start' := by
  obtain ⟨fd, entropy, given, _, read, _, rfl⟩ := begins
  obtain ⟨fd', entropy', given', _, read', _, rfl⟩ := begins'
  cases given.symm.trans given'
  cases read.symm.trans read'
  rfl

theorem SearchStart.ephPrivBytes {entropyFd : Option Int} {start : FixedBytes 32}
    (begins : SearchStart crates host entropyFd start) (rounds : Nat) :
    ephPrivBytes crates host rounds entropyFd =
      found (search (Usable crates) (remix crates) rounds start) := by
  obtain ⟨fd, entropy, rfl, descriptor, read, nonempty, rfl⟩ := begins
  rw [← rehash_eq]
  simp only [PipeK1.ephPrivBytes, fromRawFd, if_neg descriptor, pure_bind, read, Stop.mapErr_ok]
  exact if_neg nonempty

theorem ephPrivBytes_of_noEntropy {fd : Int} (descriptor : fd ≠ -1) (none : NoEntropy host fd) :
    ∃ message, ∀ rounds, ephPrivBytes crates host rounds (some fd) =
      .error (.failed (.usageError message)) := by
  cases read : (fill chunkSize (host.descriptor fd)).1 with
  | error e =>
      refine ⟨"Failed to read entropy fd: " ++ e.message, fun rounds => ?_⟩
      simp only [ephPrivBytes, fromRawFd, if_neg descriptor, pure_bind, read]
      rfl
  | ok entropy =>
      refine ⟨"Entropy file descriptor was empty", fun rounds => ?_⟩
      simp only [ephPrivBytes, fromRawFd, if_neg descriptor, pure_bind, read, none entropy read]
      rfl

/-- The abort, the refusal, or a search. -/
theorem entropy_cases (fd : Int) :
    fd = -1 ∨ (fd ≠ -1 ∧ NoEntropy host fd) ∨ ∃ start, SearchStart crates host (some fd) start := by
  by_cases minus : fd = -1
  · exact .inl minus
  · by_cases none : NoEntropy host fd
    · exact .inr (.inl ⟨minus, none⟩)
    · obtain ⟨entropy, given⟩ := not_forall.mp none
      obtain ⟨read, nonempty⟩ := Classical.not_imp.mp given
      exact .inr (.inr ⟨_, fd, entropy, rfl, minus, read, nonempty, rfl⟩)

theorem not_searchStart_of_noEntropy {fd : Int} {start : FixedBytes 32}
    (none : NoEntropy host fd) : ¬ SearchStart crates host (some fd) start := by
  rintro ⟨_, entropy, same, _, read, nonempty, _⟩
  cases same
  exact nonempty (none entropy read)

theorem ephPrivBytes_refuses_iff {rounds : Nat} {entropyFd : Option Int} :
    Stop.Refuses (ephPrivBytes crates host rounds entropyFd) ↔
      ∃ fd, entropyFd = some fd ∧ fd ≠ -1 ∧ NoEntropy host fd := by
  constructor
  · rintro ⟨error, failed⟩
    cases entropyFd with
    | none => cases failed
    | some fd =>
        rcases @entropy_cases crates host fd with rfl | ⟨descriptor, none⟩ | ⟨start, begins⟩
        · cases failed
        · exact ⟨fd, rfl, descriptor, none⟩
        · rw [begins.ephPrivBytes] at failed
          cases hit : search (Usable crates) (remix crates) rounds start <;> rw [hit] at failed <;>
            cases failed
  · rintro ⟨fd, rfl, descriptor, none⟩
    obtain ⟨message, refused⟩ := @ephPrivBytes_of_noEntropy crates host fd descriptor none
    exact ⟨_, refused rounds⟩

theorem ephPrivBytes_eq_ok_iff {rounds : Nat} {entropyFd : Option Int} {key : FixedBytes 32} :
    ephPrivBytes crates host rounds entropyFd = .ok key ↔
      Drawn crates host rounds entropyFd key := by
  constructor
  · intro made
    cases entropyFd with
    | none =>
        cases made
        exact .system
    | some fd =>
        rcases @entropy_cases crates host fd with rfl | ⟨descriptor, none⟩ | ⟨start, begins⟩
        · cases made
        · obtain ⟨message, refused⟩ := @ephPrivBytes_of_noEntropy crates host fd descriptor none
          cases (refused rounds).symm.trans made
        · rw [begins.ephPrivBytes] at made
          cases hit : search (Usable crates) (remix crates) rounds start with
          | none =>
              rw [hit] at made
              cases made
          | some found =>
              rw [hit] at made
              cases made
              obtain ⟨count, inside, first⟩ := search_eq_some_iff.mp hit
              exact .hashed begins inside first
  · intro drawn
    cases drawn with
    | system => rfl
    | hashed begins inside first =>
        rw [begins.ephPrivBytes, search_eq_some_iff.mpr ⟨_, inside, first⟩]
        rfl

/-- Only the system's bytes can be no scalar. -/
theorem Drawn.of_invalid {rounds : Nat} {entropyFd : Option Int} {key : FixedBytes 32}
    {message : String} (drawn : Drawn crates host rounds entropyFd key)
    (invalid : crates.curve.signingKey key = .error message) :
    entropyFd = none ∧ key = host.osEntropy := by
  cases drawn with
  | system => exact ⟨rfl, rfl⟩
  | hashed _ _ first =>
      have valid := first.good.1
      rw [invalid] at valid
      cases valid

end Entropy

end PipeK1

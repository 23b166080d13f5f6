import PipeK1.KeyRoles
import PipeK1.StatusLines

/-!
# The key id of a signing run

However the key id is given, the shim refuses another key's. A key id that is no
key at all is passed over, and the configured key signs.
-/

set_option autoImplicit false

namespace PipeK1

open ByteData ByteReader Effects

variable {crates : Crates} {host : Host}

/-! ## Options of a signing run -/

/-- An option as it may stand on the command line of a signing run. -/
inductive ShimOption where
  /-- `-u K` -/
  | user (kid : String)
  /-- `-uK` -/
  | userJoined (kid : String)
  /-- Short flags with `u` among them, such as `-bsau K`. -/
  | cluster (flags kid : String)
  /-- `--status-fd N` -/
  | statusFd (number : String)
  /-- `--status-fd=N` -/
  | statusFdJoined (number : String)
  /-- Any other argument, such as `-b` or `--armor`. -/
  | cosmetic (flag : String)

namespace ShimOption

def args : ShimOption → List String
  | user kid => ["-u", kid]
  | userJoined kid => ["-u" ++ kid]
  | cluster flags kid => [flags, kid]
  | statusFd number => ["--status-fd", number]
  | statusFdJoined number => ["--status-fd=" ++ number]
  | cosmetic flag => [flag]

/-- Short flags with `u` among them, but not in front, where it takes what follows it. -/
structure IsCluster (flags : String) : Prop where
  short : ['-'] <+: flags.toList
  notLong : ¬ ['-', '-'] <+: flags.toList
  notFirst : ¬ ['-', 'u'] <+: flags.toList
  user : 'u' ∈ flags.toList

/-- An argument that is none of the options that the shim knows. -/
structure IsCosmetic (flag : String) : Prop where
  notVerify : flag ≠ "--verify" ∧ flag ≠ "-v"
  notStatusFd : flag ≠ "--status-fd" ∧ ¬ "--status-fd=".toList <+: flag.toList
  notUser : ¬ ['-', 'u'] <+: flag.toList
  notCluster : ¬ IsCluster flag

def WellFormed : ShimOption → Prop
  | userJoined kid => kid ≠ ""
  | cluster flags _ => IsCluster flags
  | cosmetic flag => IsCosmetic flag
  | _ => True

def keyId? : ShimOption → Option String
  | user kid => some kid
  | userJoined kid => some kid
  | cluster _ kid => some kid
  | _ => none

def statusFd? : ShimOption → Option (Option Int)
  | statusFd number => some (Text.parseI32 number.toList)
  | statusFdJoined number => some (Text.parseI32 number.toList)
  | _ => none

end ShimOption

/-- The last option that says something about it counts. -/
def lastOf {α : Type} (field : ShimOption → Option α) (options : List ShimOption) : Option α :=
  (options.filterMap field).getLast?

/-- An option at the end whose value is missing. -/
def Dangling (flag : String) : Prop :=
  flag = "-u" ∨ flag = "--status-fd" ∨ ShimOption.IsCluster flag

theorem lastOf_cons {α : Type} (field : ShimOption → Option α) (option : ShimOption)
    (options : List ShimOption) :
    lastOf field (option :: options) = (lastOf field options).or (field option) := by
  unfold lastOf
  rw [List.filterMap_cons]
  cases field option with
  | none => rw [Option.or_none]
  | some value =>
      dsimp only
      rw [List.getLast?_cons]
      cases (options.filterMap field).getLast? with
      | none => rfl
      | some last => rfl

/-! ## The scanner -/

theorem ne_of_not_prefix {start : List Char} {text other : String}
    (absent : ¬ start <+: text.toList) (here : start <+: other.toList) : text ≠ other := by
  rintro rfl
  exact absent here

section Scanner

variable (parsed : ShimArgs) (rest : List String)

theorem scanShim_user {flag kid : String} (first : flag = "-u" ∨ ShimOption.IsCluster flag) :
    scanShim parsed (flag :: kid :: rest) = scanShim { parsed with keyId := some kid } rest ∧
      scanShim parsed [flag] = parsed := by
  have tail : (['-', '-'] : List Char) <+: "--status-fd=".toList := by decide
  rcases first with rfl | cluster
  · have notStatus : "--status-fd=".toList.isPrefixOf "-u".toList = false := by decide
    simp only [scanShim, notStatus, Bool.false_eq_true, ↓reduceIte, String.reduceEq, or_self,
      and_self]
  · have notStatus : "--status-fd=".toList.isPrefixOf flag.toList = false := by
      rw [Bool.eq_false_iff, ne_eq, List.isPrefixOf_iff_prefix]
      exact fun found => cluster.notLong (tail.trans found)
    have notSeparate : flag ≠ "--status-fd" := ne_of_not_prefix cluster.notLong (by decide)
    have notVerify : ¬ (flag = "--verify" ∨ flag = "-v") := by
      rintro (same | rfl)
      · exact ne_of_not_prefix cluster.notLong (by decide) same
      · exact absurd cluster.user (by decide)
    have notUser : flag ≠ "-u" := ne_of_not_prefix cluster.notFirst (by decide)
    have notJoined : "-u".toList.isPrefixOf flag.toList = false := by
      rw [Bool.eq_false_iff, ne_eq, List.isPrefixOf_iff_prefix]
      exact cluster.notFirst
    have isCluster : isUserCluster flag.toList = true := by
      have short := List.isPrefixOf_iff_prefix.mpr cluster.short
      have long : "--".toList.isPrefixOf flag.toList = false := by
        rw [Bool.eq_false_iff, ne_eq, List.isPrefixOf_iff_prefix]
        exact cluster.notLong
      have user : flag.toList.contains 'u' = true := List.contains_iff_mem.mpr cluster.user
      simp only [isUserCluster, user, short, long, Bool.not_false, Bool.and_self]
    simp only [scanShim, notStatus, notSeparate, notVerify, notUser, notJoined, isCluster,
      Bool.false_eq_true, ↓reduceIte, and_self]

theorem scanShim_option (option : ShimOption) (formed : option.WellFormed) :
    scanShim parsed (option.args ++ rest) = scanShim { parsed with
      keyId := option.keyId?.or parsed.keyId
      statusFd := option.statusFd?.getD parsed.statusFd } rest := by
  cases option with
  | user kid => exact (scanShim_user parsed rest (.inl rfl)).1
  | cluster flags kid => exact (scanShim_user parsed rest (.inr formed)).1
  | userJoined kid =>
      have filled : kid ≠ "" := formed
      have text : ("-u" ++ kid).toList = '-' :: 'u' :: kid.toList := by
        rw [String.toList_append]
        rfl
      have second : ∀ {other : String} {c : Char}, c ≠ 'u' → other.toList[1]? = some c →
          "-u" ++ kid ≠ other := by
        rintro other c different here rfl
        rw [text] at here
        exact different (Option.some.inj here).symm
      have notStatus : "--status-fd=".toList.isPrefixOf ("-u" ++ kid).toList = false := by
        rw [text]
        rfl
      have notSeparate : "-u" ++ kid ≠ "--status-fd" := @second _ '-' (by decide) (by decide)
      have notVerify : ¬ ("-u" ++ kid = "--verify" ∨ "-u" ++ kid = "-v") := by
        rintro (long | short)
        · exact @second _ '-' (by decide) (by decide) long
        · exact @second _ 'v' (by decide) (by decide) short
      have notUser : "-u" ++ kid ≠ "-u" := by
        intro same
        have short := congrArg String.toList same
        rw [text] at short
        exact filled (String.toList_eq_nil_iff.mp (List.cons.inj (List.cons.inj short).2).2)
      have joined : "-u".toList.isPrefixOf ("-u" ++ kid).toList = true := by
        rw [text]
        rfl
      have value : String.ofList (("-u" ++ kid).toList.drop 2) = kid := by
        rw [text]
        exact String.ofList_toList
      rw [ShimOption.args, List.cons_append, List.nil_append, scanShim.eq_def]
      simp only [notStatus, notSeparate, notVerify, notUser, joined, value, Bool.false_eq_true,
        ↓reduceIte]
      rfl
  | statusFd number =>
      have notStatus : "--status-fd=".toList.isPrefixOf "--status-fd".toList = false := by decide
      simp only [ShimOption.args, List.cons_append, List.nil_append, scanShim, notStatus,
        Bool.false_eq_true, ↓reduceIte]
      rfl
  | statusFdJoined number =>
      have joined : "--status-fd=".toList.isPrefixOf ("--status-fd=" ++ number).toList = true := by
        rw [List.isPrefixOf_iff_prefix, String.toList_append]
        exact List.prefix_append _ _
      have value : ("--status-fd=" ++ number).toList.drop 12 = number.toList := by
        rw [String.toList_append]
        exact List.drop_left' (by decide)
      rw [ShimOption.args, List.cons_append, List.nil_append, scanShim.eq_def]
      simp only [joined, value, ↓reduceIte]
      rfl
  | cosmetic flag =>
      have cosmetic : ShimOption.IsCosmetic flag := formed
      have notStatus : "--status-fd=".toList.isPrefixOf flag.toList = false := by
        rw [Bool.eq_false_iff, ne_eq, List.isPrefixOf_iff_prefix]
        exact cosmetic.notStatusFd.2
      have notVerify : ¬ (flag = "--verify" ∨ flag = "-v") :=
        not_or.mpr cosmetic.notVerify
      have notUser : flag ≠ "-u" := ne_of_not_prefix cosmetic.notUser (by decide)
      have notJoined : "-u".toList.isPrefixOf flag.toList = false := by
        rw [Bool.eq_false_iff, ne_eq, List.isPrefixOf_iff_prefix]
        exact cosmetic.notUser
      have notCluster : isUserCluster flag.toList = false := by
        rw [Bool.eq_false_iff]
        intro found
        simp only [isUserCluster, Bool.and_eq_true, Bool.not_eq_true'] at found
        obtain ⟨⟨user, short⟩, long⟩ := found
        refine cosmetic.notCluster ⟨List.isPrefixOf_iff_prefix.mp short, fun twice => ?_,
          cosmetic.notUser, List.contains_iff_mem.mp user⟩
        rw [List.isPrefixOf_iff_prefix.mpr (show "--".toList <+: flag.toList from twice)] at long
        cases long
      rw [ShimOption.args, List.cons_append, List.nil_append, scanShim.eq_def]
      simp only [notStatus, cosmetic.notStatusFd.1, notVerify, notUser, notJoined, notCluster,
        Bool.false_eq_true, ↓reduceIte]
      rfl

theorem scanShim_options (options : List ShimOption)
    (formed : ∀ option ∈ options, option.WellFormed) :
    scanShim parsed (options.flatMap ShimOption.args ++ rest) = scanShim { parsed with
      keyId := (lastOf ShimOption.keyId? options).or parsed.keyId
      statusFd := (lastOf ShimOption.statusFd? options).getD parsed.statusFd } rest := by
  induction options generalizing parsed with
  | nil => rfl
  | cons option options ih =>
      rw [List.flatMap_cons, List.append_assoc,
        scanShim_option parsed _ option (formed option List.mem_cons_self),
        ih _ fun other member => formed other (List.mem_cons_of_mem _ member), lastOf_cons, lastOf_cons, Option.or_assoc]
      cases lastOf ShimOption.statusFd? options with
      | none => rfl
      | some last => rfl

end Scanner

/-! ## Argument vectors -/

/-- The command line of a signing run. -/
structure SigningArgs where
  options : List ShimOption
  trailing : Option String
  formed : ∀ option ∈ options, option.WellFormed
  dangling : ∀ flag, trailing = some flag → Dangling flag

namespace SigningArgs

variable (signing : SigningArgs)

def vector : List String := signing.options.flatMap ShimOption.args ++ signing.trailing.toList

def keyId : Option String := lastOf ShimOption.keyId? signing.options

def statusFd : Option Int := (lastOf ShimOption.statusFd? signing.options).join

end SigningArgs

theorem scanShim_dangling (parsed : ShimArgs) {flag : String} (dangling : Dangling flag) :
    scanShim parsed [flag] = parsed := by
  rcases dangling with user | rfl | cluster
  · exact (@scanShim_user parsed [] flag "" (.inl user)).2
  · have notStatus : "--status-fd=".toList.isPrefixOf "--status-fd".toList = false := by decide
    simp only [scanShim, notStatus, Bool.false_eq_true, ↓reduceIte]
  · exact (@scanShim_user parsed [] flag "" (.inr cluster)).2

theorem SigningArgs.scanShim_vector (signing : SigningArgs) :
    scanShim {} signing.vector =
      { keyId := signing.keyId, statusFd := signing.statusFd } := by
  have options : scanShim {} signing.vector = scanShim
      { keyId := signing.keyId, statusFd := signing.statusFd } signing.trailing.toList := by
    rw [SigningArgs.vector, scanShim_options {} _ signing.options signing.formed]
    congr 1
    rw [SigningArgs.keyId, SigningArgs.statusFd, Option.or_none]
    cases lastOf ShimOption.statusFd? signing.options with
    | none => rfl
    | some last => rfl
  rw [options]
  cases ending : signing.trailing with
  | none => rfl
  | some flag => exact scanShim_dangling _ (signing.dangling flag ending)

/-! ## The key id -/

def invSgnrLine (kid : String) : String := "[GNUPG:] INV_SGNR 0 " ++ kid ++ "\n"

/-- What a run prints by itself, other than a status line that goes to descriptor 1. -/
def Prints (process : Process) : Prop := ∃ bytes, Event.stdout bytes ∈ process.events

/-- A run that refuses the key id. -/
structure RefusesKeyId (kid : String) (statusFd : Option Int)
    (result : EStateM.Result Stop Process Unit) : Prop where
  status : ∀ fd, statusFd = some fd → (reported result).statusOutput = invSgnrLine kid
  silent : ¬ Prints (reported result)
  exit : exitStatus result = some 2

/-- A run that signs as the key id asks. -/
structure HonoursKeyId (crates : Crates) (kid : String) (statusFd : Option Int)
    (signer : FixedBytes 32) (result : EStateM.Result Stop Process Unit) : Prop where
  signs : Prints (reported result) → parseKeyBytes crates kid = .ok signer
  refuses : parseKeyBytes crates kid ≠ .ok signer → RefusesKeyId kid statusFd result

section KeyId

variable {args : ShimArgs} {kid : String} (given : args.keyId = some kid)
include given

variable {named signer : FixedBytes 32} (parsed : parseKeyBytes crates kid = .ok named)
  (other : named ≠ signer)
include parsed other

theorem checkKeyId_refuses (status : args.statusFd ≠ some (-1)) (process : Process) :
    ∃ error note, checkKeyId crates args signer process = .error (.failed (.usageError error))
      ⟨process.stdin, process.events ++ statusEvents args.statusFd (invSgnrLine kid) ++
        [.stderr note]⟩ := by
  simp only [checkKeyId, given, parsed, ne_eq, other, not_false_eq_true, ↓reduceIte]
  rw [bind_of_ok (writeStatusFd_ok status _ process)]
  exact ⟨_, _, rfl⟩

/-- No descriptor is -1: opening it stops the process. -/
theorem checkKeyId_panics (status : args.statusFd = some (-1)) (process : Process) :
    checkKeyId crates args signer process = .error (.panicked "fd != -1") process := by
  simp only [checkKeyId, given, parsed, ne_eq, other, not_false_eq_true, ↓reduceIte, status]
  rfl

end KeyId

section Signing

variable {args : ShimArgs} {secret : FixedBytes 32} {signingKey : crates.curve.SigningKey}
  (loaded : loadSecretKey crates host {} = .ok secret)
  (valid : crates.curve.signingKey secret = .ok signingKey)
include loaded valid

theorem shimSign_of_refused {process after : Process} {stop : Stop}
    (refused : checkKeyId crates args (crates.curve.publicBytes signingKey) process =
      .error stop after) : shimSign crates host args process = .error stop after := by
  rw [shimSign, loaded, bind_of_ok (orStop_ok secret process), valid,
    bind_of_ok (orFail_ok _ signingKey process)]
  exact bind_of_error refused

theorem shimSign_of_unreadable {process : Process}
    (passed : checkKeyId crates args (crates.curve.publicBytes signingKey) process =
      .ok () process) {error : IoError} {rest : Reader}
    (unreadable : readToEnd process.stdin = (.error error, rest)) :
    shimSign crates host args process = .error (.failed (.io error)) ⟨rest, process.events⟩ := by
  have read : onStdin readToEnd process = .ok (.error error) ⟨rest, process.events⟩ := by
    change EStateM.Result.ok _ _ = _
    rw [unreadable]
  have reading : readAllStdin process = .error (.failed (.io error)) ⟨rest, process.events⟩ := by
    rw [readAllStdin, bind_of_ok read]
    rfl
  rw [shimSign, loaded, bind_of_ok (orStop_ok secret process), valid,
    bind_of_ok (orFail_ok _ signingKey process)]
  change (checkKeyId crates args (crates.curve.publicBytes signingKey) >>= _) process = _
  rw [bind_of_ok passed]
  exact bind_of_error reading

end Signing

/-- A signing run honours its key id exactly when that is a key's text, and names the configured
key unless the status descriptor is the one that cannot be opened. -/
theorem key_id_honoured_iff (crates : Crates) (host : Host) (signing : SigningArgs) (kid : String)
    (given : signing.keyId = some kid) (secret : FixedBytes 32)
    (signingKey : crates.curve.SigningKey)
    (loaded : loadSecretKey crates host {} = .ok secret)
    (valid : crates.curve.signingKey secret = .ok signingKey) :
    (∀ stdin, HonoursKeyId crates kid signing.statusFd (crates.curve.publicBytes signingKey)
        (runGitShim crates host signing.vector (Process.start stdin))) ↔
      ∃ named, parseKeyBytes crates kid = .ok named ∧
        (named = crates.curve.publicBytes signingKey ∨ signing.statusFd ≠ some (-1)) := by
  let signer := crates.curve.publicBytes signingKey
  let args : ShimArgs := { keyId := signing.keyId, statusFd := signing.statusFd }
  have given : args.keyId = some kid := given
  have run : ∀ stdin, runGitShim crates host signing.vector (Process.start stdin) =
      shimSign crates host args (Process.start stdin) := by
    intro stdin
    simp only [runGitShim, signing.scanShim_vector, Bool.false_eq_true, ↓reduceIte]
    rfl
  simp only [run]
  constructor
  · intro honoured
    cases parsed : parseKeyBytes crates kid with
    | error e =>
        -- Past the check, a read error ends the run with another exit code.
        have unresolved : parseKeyBytes crates kid ≠ .ok signer := by
          rw [parsed]
          intro same
          cases same
        have failing := (honoured [.failed ⟨.other, ""⟩]).refuses unresolved
        have exit := failing.exit
        rw [shimSign_of_unreadable loaded valid (checkKeyId_of_error given parsed _ _)
          (show readToEnd [.failed ⟨.other, ""⟩] = (.error ⟨.other, ""⟩, []) from rfl)] at exit
        cases exit
    | ok named =>
        refine ⟨named, rfl, ?_⟩
        by_contra neither
        obtain ⟨other, status⟩ := not_or.mp neither
        have status := not_not.mp status
        have unresolved : parseKeyBytes crates kid ≠ .ok signer := by
          rw [parsed]
          exact fun same => other (Except.ok.inj same)
        have exit := ((honoured []).refuses unresolved).exit
        rw [shimSign_of_refused loaded valid
          (checkKeyId_panics given parsed other status _)] at exit
        cases exit
  · rintro ⟨named, parsed, answer⟩ stdin
    by_cases same : named = signer
    · subst same
      exact ⟨fun _ => parsed, fun unresolved => absurd parsed unresolved⟩
    · have status := answer.resolve_left same
      obtain ⟨error, note, refused⟩ :=
        checkKeyId_refuses given parsed same status (Process.start stdin)
      have refuses : RefusesKeyId kid signing.statusFd
          (shimSign crates host args (Process.start stdin)) := by
        rw [shimSign_of_refused loaded valid refused]
        constructor
        · intro fd chosen
          simp [args, chosen, reported, Process.statusOutput, statusEvents, Event.statusText]
        · rintro ⟨bytes, printed⟩
          simp [reported, statusEvents] at printed
        · rfl
      exact ⟨fun printed => absurd printed refuses.silent, fun _ => refuses⟩

section Sample

open Reference

/-- Git asks for a signature under this key id. -/
def sampleSigning (kid : String) : SigningArgs where
  options := [.statusFdJoined "2", .cluster "-bsau" kid]
  trailing := none
  formed := by
    intro option member
    simp only [List.mem_cons, List.not_mem_nil, or_false] at member
    rcases member with rfl | rfl
    · trivial
    · exact ⟨by decide, by decide, by decide, by decide⟩
  dangling := nofun

/-- An e-mail address is no key's text. -/
theorem parseKeyBytes_address : ∃ error, parseKeyBytes packages "alice@example.com" = .error error := by
  have refused : parseKeyBytes packages "alice@example.com" =
      .error "Hex decode error: Odd number of digits" := by
    rw [parseKeyBytes]
    rfl
  exact ⟨_, refused⟩

end Sample

open Reference in
/-- The key 3 signs under its own key id, and under the recipient's refuses to. -/
theorem key_id_honoured_iff_sample :
    HonoursKeyId packages (publicHex sampleSender) (some 2) (publicBytes sampleSender)
      (runGitShim packages (keyHost sampleSender sampleEphemeral)
        (sampleSigning (publicHex sampleSender)).vector (Process.start (ofBytes sampleData))) ∧
    RefusesKeyId (publicHex sampleRecipient) (some 2)
      (runGitShim packages (keyHost sampleSender sampleEphemeral)
        (sampleSigning (publicHex sampleRecipient)).vector
        (Process.start (ofBytes sampleData))) := by
  have honours : ∀ named : Scalar,
      HonoursKeyId packages (publicHex named) (some 2) (publicBytes sampleSender)
        (runGitShim packages (keyHost sampleSender sampleEphemeral)
          (sampleSigning (publicHex named)).vector (Process.start (ofBytes sampleData))) := by
    intro named
    have opened : (sampleSigning (publicHex named)).statusFd = some 2 := rfl
    refine (key_id_honoured_iff packages (keyHost sampleSender sampleEphemeral)
      (sampleSigning (publicHex named)) (publicHex named) rfl
      (secretBytes sampleSender) sampleSender (loadSecretKey_keyHost _ _ _)
      (signingKey_secretBytes _)).mpr
      ⟨publicBytes named, parseKeyBytes_hex _ _, .inr ?_⟩ (ofBytes sampleData)
    rw [opened]
    decide
  refine ⟨honours sampleSender, (honours sampleRecipient).refuses ?_⟩
  have parsed : parseKeyBytes packages (publicHex sampleRecipient) =
      .ok (publicBytes sampleRecipient) := parseKeyBytes_hex _ _
  rw [parsed]
  exact fun same => absurd (Except.ok.inj same) (by decide)

open Reference in
/-- Asked for a signature of `alice@example.com`, the key 3 signs. -/
theorem key_id_passed_over :
    ¬ HonoursKeyId packages "alice@example.com" (some 2) (publicBytes sampleSender)
      (runGitShim packages (keyHost sampleSender sampleEphemeral)
        ["--status-fd=2", "-bsau", "alice@example.com"] (Process.start (ofBytes sampleData))) := by
  obtain ⟨error, unresolved⟩ := parseKeyBytes_address
  intro honoured
  have refused := honoured.refuses (by rw [unresolved]; nofun)
  have wanted : ShimSigns packages { statusFd := some 2, keyId := some "alice@example.com" }
      (publicBytes sampleSender) := by
    refine ⟨rfl, by decide, fun kid given named parsed => ?_⟩
    cases given
    rw [unresolved] at parsed
    cases parsed
  obtain ⟨_, final, signed, _⟩ := (shimSign_ends signs base64Laws hexDigits
    (signingKey_secretBytes sampleSender) sampleSigningHost wanted
    (smooth_ofBytes sampleData)).succeeds
  have exit := refused.exit
  simp only [runGitShim] at exit
  rw [show ["--status-fd=2", "-bsau", "alice@example.com"] = signingArgs "alice@example.com" from rfl,
    scanShim_signingArgs] at exit
  simp only [Bool.false_eq_true, ↓reduceIte] at exit
  rw [signed] at exit
  cases exit

end PipeK1

import PipeK1.KeyRoles
import PipeK1.SignatureContract

/-!
# Trust

A good signature is trusted when a line of a trust file names its key. The first
such line in priority order gives the signer's name.
-/

set_option autoImplicit false

namespace PipeK1

open ByteData ByteReader Effects

variable {crates : Crates} {host : Host}

/-! ## Lines that name a key -/

/-- A line that is neither blank nor a comment, and whose last token is the key. -/
def NamesKey (crates : Crates) (line : List Char) (key : FixedBytes 32) : Prop :=
  Text.trim line ≠ [] ∧ ¬ ['#'] <+: Text.trim line ∧
    ∃ words keyToken, Text.splitWhitespace (Text.trim line) = words ++ [keyToken] ∧
      parseKeyBytes crates (String.ofList keyToken) = .ok key

/-- The words joined by single spaces; without words, the npub of the key. -/
def identityOf (crates : Crates) (key : FixedBytes 32) : List (List Char) → String
  | [] => encodeNpub crates key
  | words => joinWords words

/-- The identity is what stands before the key. -/
def identityOn (crates : Crates) (line : List Char) (key : FixedBytes 32) : String :=
  identityOf crates key (Text.splitWhitespace (Text.trim line)).dropLast

/-- The lines of a trust file that can be read. -/
def fileLines (host : Host) (path : PathBuf) : List (List Char) :=
  if host.pathExists path then ((readText host path).map Text.lines).getD [] else []

/-- The lines of all trust files in priority order. -/
def trustLines (host : Host) : List (List Char) := (candidatePaths host).flatMap (fileLines host)

/-- `line` is the first of the lines that names the key. -/
def FirstNaming (crates : Crates) (lines : List (List Char)) (key : FixedBytes 32)
    (line : List Char) : Prop :=
  NamesKey crates line key ∧ ∃ early late, lines = early ++ line :: late ∧
    ∀ other ∈ early, ¬ NamesKey crates other key

theorem parseSignerLine_eq_some_iff {line : List Char} {signer : Signer} :
    parseSignerLine crates line = some signer ↔
      NamesKey crates line signer.2 ∧ signer.1 = identityOn crates line signer.2 := by
  obtain ⟨identity, key⟩ := signer
  by_cases skipped : ((Text.trim line).isEmpty || ['#'].isPrefixOf (Text.trim line)) = true
  · rw [parseSignerLine, if_pos skipped]
    refine iff_of_false (fun impossible => nomatch impossible) ?_
    rintro ⟨⟨filled, uncommented, _⟩, _⟩
    rw [Bool.or_eq_true, List.isEmpty_iff, List.isPrefixOf_iff_prefix] at skipped
    exact skipped.elim filled uncommented
  · rw [parseSignerLine, if_neg skipped]
    rw [Bool.or_eq_true, List.isEmpty_iff, List.isPrefixOf_iff_prefix, not_or] at skipped
    rcases List.eq_nil_or_concat' (Text.splitWhitespace (Text.trim line)) with
      empty | ⟨words, keyToken, tokens⟩
    · simp only [empty, List.getLast?_nil]
      refine iff_of_false (fun impossible => nomatch impossible) ?_
      rintro ⟨⟨_, _, words, keyToken, split, _⟩, _⟩
      rw [empty] at split
      exact absurd split.symm (by simp)
    · have named : ∀ key, NamesKey crates line key ↔
          parseKeyBytes crates (String.ofList keyToken) = .ok key := by
        intro key
        constructor
        · rintro ⟨_, _, words', keyToken', split, parsed⟩
          rw [tokens] at split
          obtain ⟨_, same⟩ := List.append_inj' split rfl
          rw [(List.cons.inj same).1]
          exact parsed
        · exact fun parsed => ⟨skipped.1, skipped.2, words, keyToken, tokens, parsed⟩
      simp only [named, tokens, List.getLast?_concat, identityOn, List.dropLast_concat]
      cases parsed : parseKeyBytes crates (String.ofList keyToken) with
      | error e =>
          refine iff_of_false (fun impossible => nomatch impossible) ?_
          rintro ⟨impossible, _⟩
          cases impossible
      | ok keyBytes =>
          have choice : (if (words ++ [keyToken]).length > 1 then joinWords words
              else encodeNpub crates keyBytes) = identityOf crates keyBytes words := by
            cases words with
            | nil => rfl
            | cons first others => simp [identityOf]
          simp only [choice, Option.some.injEq, Prod.mk.injEq, Except.ok.injEq]
          constructor
          · rintro ⟨rfl, rfl⟩
            exact ⟨rfl, rfl⟩
          · rintro ⟨rfl, rfl⟩
            exact ⟨rfl, rfl⟩

/-! ## The first entry of a key is kept -/

theorem find?_foldl_addSigner (key : FixedBytes 32) (entries signers : List Signer) :
    (entries.foldl addSigner signers).find? (fun known => known.2 = key) =
      (signers ++ entries).find? fun known => known.2 = key := by
  induction entries generalizing signers with
  | nil => rw [List.foldl_nil, List.append_nil]
  | cons entry entries ih =>
      rw [List.foldl_cons, ih, addSigner]
      by_cases present : (signers.any fun known => known.2 = entry.2) = true
      · rw [if_pos present, List.find?_append, List.find?_append, List.find?_cons]
        by_cases same : entry.2 = key
        · obtain ⟨known, member, matched⟩ := List.any_eq_true.mp present
          have found : (signers.find? fun known => known.2 = key).isSome = true := by
            rw [List.find?_isSome]
            exact ⟨known, member, by simpa [← same] using matched⟩
          obtain ⟨first, first_eq⟩ := Option.isSome_iff_exists.mp found
          rw [first_eq, Option.some_or, Option.some_or]
        · simp only [same, decide_false]
      · rw [if_neg present, List.append_assoc, List.singleton_append]

theorem nodup_foldl_addSigner (entries : List Signer) {signers : List Signer}
    (distinct : (signers.map Prod.snd).Nodup) :
    ((entries.foldl addSigner signers).map Prod.snd).Nodup := by
  induction entries generalizing signers with
  | nil => exact distinct
  | cons entry entries ih =>
      refine ih ?_
      unfold addSigner
      by_cases present : (signers.any fun known => known.2 = entry.2) = true
      · rw [if_pos present]
        exact distinct
      · rw [if_neg present, List.map_append, List.nodup_append]
        refine ⟨distinct, List.nodup_singleton _, ?_⟩
        intro key member other last same
        obtain ⟨known, inside, rfl⟩ := List.mem_map.mp member
        rw [List.map_singleton, List.mem_singleton] at last
        refine present (List.any_eq_true.mpr ⟨known, inside, ?_⟩)
        rw [decide_eq_true_iff, same, last]

theorem resolveAllowedSigners_eq :
    resolveAllowedSigners crates host =
      ((trustLines host).filterMap (parseSignerLine crates)).foldl addSigner [] := by
  have perFile : ∀ path, fileSigners crates host path =
      (fileLines host path).filterMap (parseSignerLine crates) := by
    intro path
    unfold fileSigners fileLines
    split
    · cases readText host path with
      | none => rfl
      | some text => rfl
    · rfl
  rw [resolveAllowedSigners, trustLines, List.filterMap_flatMap]
  congr 1
  exact List.flatMap_congr fun path _ => perFile path

theorem parseSignerLine_any_iff {line : List Char} {key : FixedBytes 32} :
    ((parseSignerLine crates line).any fun known => known.2 = key) = true ↔
      NamesKey crates line key := by
  rw [Option.any_eq_true]
  constructor
  · rintro ⟨signer, entry, same⟩
    rw [← of_decide_eq_true same]
    exact (parseSignerLine_eq_some_iff.mp entry).1
  · intro named
    exact ⟨(identityOn crates line key, key), parseSignerLine_eq_some_iff.mpr ⟨named, rfl⟩,
      decide_eq_true rfl⟩

/-- The entry found for a key is the one of the first line that names it. -/
theorem find?_resolveAllowedSigners {key : FixedBytes 32} :
    (∀ signer, (resolveAllowedSigners crates host).find? (fun known => known.2 = key) = some signer →
      ∃ line, FirstNaming crates (trustLines host) key line ∧
        signer = (identityOn crates line key, key)) ∧
    ((resolveAllowedSigners crates host).find? (fun known => known.2 = key) = none →
      ∀ line ∈ trustLines host, ¬ NamesKey crates line key) := by
  rw [resolveAllowedSigners_eq, find?_foldl_addSigner, List.nil_append, List.find?_filterMap]
  cases found : (trustLines host).find? fun line =>
      (parseSignerLine crates line).any fun known => known.2 = key with
  | none =>
      refine ⟨fun _ impossible => (nomatch impossible), fun _ line member named => ?_⟩
      exact List.find?_eq_none.mp found line member (parseSignerLine_any_iff.mpr named)
  | some line =>
      obtain ⟨here, early, late, split, before⟩ := List.find?_eq_some_iff_append.mp found
      have named := parseSignerLine_any_iff.mp here
      have entry : parseSignerLine crates line = some (identityOn crates line key, key) :=
        parseSignerLine_eq_some_iff.mpr ⟨named, rfl⟩
      rw [Option.bind_some, entry]
      refine ⟨fun signer same => ?_, fun impossible => nomatch impossible⟩
      cases same
      refine ⟨line, ⟨named, early, late, split, fun other member naming => ?_⟩, rfl⟩
      have passed := before other member
      rw [parseSignerLine_any_iff.mpr naming] at passed
      cases passed

/-! ## The trust decision -/

/-- The name and the level that the lines give a key. -/
def TrustDecision (crates : Crates) (lines : List (List Char)) (key : FixedBytes 32)
    (name level : String) : Prop :=
  (level = "ULTIMATE" ∧ ∃ line, FirstNaming crates lines key line ∧
    name = identityOn crates line key) ∨
  (level = "UNDEFINED" ∧ (∀ line ∈ lines, ¬ NamesKey crates line key) ∧
    name = encodeNpub crates key)

theorem signerTrust_decision (key : FixedBytes 32) :
    TrustDecision crates (trustLines host) key (signerTrust crates host key).1
      (signerTrust crates host key).2 := by
  obtain ⟨known, unknown⟩ := @find?_resolveAllowedSigners crates host key
  unfold signerTrust
  cases found : (resolveAllowedSigners crates host).find? fun known => known.2 = key with
  | some signer =>
      obtain ⟨line, first, same⟩ := known signer found
      subst same
      exact .inl ⟨rfl, line, first, rfl⟩
  | none => exact .inr ⟨rfl, unknown found, rfl⟩

theorem FirstNaming.mem {lines : List (List Char)} {key : FixedBytes 32} {line : List Char}
    (first : FirstNaming crates lines key line) : line ∈ lines := by
  obtain ⟨_, early, late, split, _⟩ := first
  rw [split]
  exact List.mem_append_right _ List.mem_cons_self

theorem TrustDecision.ultimate_iff {lines : List (List Char)} {key : FixedBytes 32}
    {name level : String} (decision : TrustDecision crates lines key name level) :
    level = "ULTIMATE" ↔ ∃ line ∈ lines, NamesKey crates line key := by
  rcases decision with ⟨rfl, line, first, _⟩ | ⟨rfl, unnamed, _⟩
  · exact ⟨fun _ => ⟨line, first.mem, first.1⟩, fun _ => rfl⟩
  · refine iff_of_false (by decide) ?_
    rintro ⟨line, member, named⟩
    exact unnamed line member named

theorem encodeNpub_ne_empty (documented : crates.encodings.Documented) (key : FixedBytes 32) :
    encodeNpub crates key ≠ "" := by
  obtain ⟨after, splits⟩ :=
    documented.bech32_splits _ _ _ (documented.bech32Decode_bech32Encode key)
  intro empty
  have text := Bech32.eq_of_splitLast splits
  change (encodeNpub crates key).toList = _ at text
  rw [empty] at text
  cases text

theorem joinWords_ne_empty {first : List Char} {others : List (List Char)} (filled : first ≠ []) :
    joinWords (first :: others) ≠ "" := by
  obtain ⟨c, rest, rfl⟩ := List.exists_cons_of_ne_nil filled
  have text : (joinWords ((c :: rest) :: others)).toList ≠ [] := by
    rw [joinWords, String.toList_ofList]
    cases others with
    | nil => simp
    | cons second others => simp
  intro empty
  rw [empty] at text
  exact text rfl

theorem identityOn_ne_empty (documented : crates.encodings.Documented) (line : List Char)
    (key : FixedBytes 32) : identityOn crates line key ≠ "" := by
  unfold identityOn
  cases words : (Text.splitWhitespace (Text.trim line)).dropLast with
  | nil => exact encodeNpub_ne_empty documented key
  | cons first others =>
      have member : first ∈ (Text.splitWhitespace (Text.trim line)).dropLast := by
        rw [words]
        exact List.mem_cons_self
      exact joinWords_ne_empty
        (Text.solid_of_mem_splitWhitespace (List.mem_of_mem_dropLast member)).1

theorem TrustDecision.name_ne_empty (documented : crates.encodings.Documented)
    {lines : List (List Char)} {key : FixedBytes 32} {name level : String}
    (decision : TrustDecision crates lines key name level) : name ≠ "" := by
  rcases decision with ⟨_, line, _, rfl⟩ | ⟨_, _, rfl⟩
  · exact identityOn_ne_empty documented line key
  · exact encodeNpub_ne_empty documented key

/-- A good signature is reported with the name on the first line that names its key, as trusted
ultimately; without such a line it is reported with its npub, and its trust is undefined. -/
theorem trust_decision (crates : Crates) (documented : crates.encodings.Documented) (host : Host)
    (args : List String) (stdin : Reader) (sigRaw data : Bytes) (payload : SignaturePayload)
    (run : ReadableRun host args stdin sigRaw data)
    (detached : detachArmor crates sigRaw = .ok payload.toList)
    (verifies : PayloadVerifies crates payload (crates.digests.sha256 data)) :
    (∃ final name level, runGitShim crates host args (Process.start stdin) = .ok () final ∧
      final.statusOutput = newSigLine ++
        (goodSigLine (crates.encodings.hexEncode (payload.slice 9 32).toList) name ++
          (validSigLine (crates.encodings.hexEncode (payload.slice 9 32).toList)
            (dateStr (u32FromBe (payload.slice 5 4))) (u32FromBe (payload.slice 5 4)) ++
            trustLine level)) ∧
      TrustDecision crates (trustLines host) (payload.slice 9 32) name level ∧ name ≠ "" ∧
      (level = "ULTIMATE" ↔
        ∃ line ∈ trustLines host, NamesKey crates line (payload.slice 9 32))) ∧
    ((resolveAllowedSigners crates host).map Prod.snd).Nodup := by
  have decision := @signerTrust_decision crates host (payload.slice 9 32)
  refine ⟨?_, ?_⟩
  · obtain ⟨fd, statusFd, opened⟩ := run.status
    have checking := @checkPayload_ends crates host _ fd payload.toList data stdin statusFd opened
      run.data
    have started := @ReadableRun.runGitShim_eq crates _ _ _ _ _ run
    rw [detached, bind_of_ok (orFail_ok id payload.toList _)] at started
    cases outcome : checkPayload crates host (scanShim {} args) payload.toList
        (Process.start stdin) with
    | ok value final =>
        obtain ⟨payload', same, _, report⟩ := checking.ok outcome
        rw [FixedBytes.ext same] at report
        exact ⟨final, _, _, started.trans outcome, report, decision,
          decision.name_ne_empty documented, decision.ultimate_iff⟩
    | error stop final =>
        obtain ⟨_, ⟨misfit, _⟩ | ⟨payload', same, refuted, _⟩⟩ := checking.error outcome
        · exact absurd payload.length_toList misfit
        · rw [FixedBytes.ext same] at refuted
          exact absurd verifies refuted
  · rw [resolveAllowedSigners_eq]
    exact nodup_foldl_addSigner _ List.nodup_nil

namespace Reference

/-- A host with this signature in `commit.sig` and this text in its trust files. -/
def trustingHost (sigRaw : Bytes) (text : String) : Host :=
  { signatureHost sigRaw with
    envVar := fun name => if name = "HOME" then some "/home/git" else none
    pathExists := fun _ => true
    fileContents := fun path =>
      .ok (if path = PathBuf.parse "commit.sig" then sigRaw else Text.utf8 text) }

def sampleTrustText : String :=
  "# keys\nAda  L. f9308a019258c31049344f85f89d5229b531c845836f99b08601f113bce036f9\n"

theorem candidatePaths_trustingHost (sigRaw : Bytes) (text : String) :
    candidatePaths (trustingHost sigRaw text) =
      [PathBuf.parse "/home/git/.config/pipe-k1/allowed_signers",
        PathBuf.parse "/home/git/.config/pipek1/allowed_signers"] := by
  have inTree : inTreeFiles (trustingHost sigRaw text) = [] := rfl
  have home : homeFiles (trustingHost sigRaw text) =
      [PathBuf.parse "/home/git/.config/pipe-k1/allowed_signers",
        PathBuf.parse "/home/git/.config/pipek1/allowed_signers"] := by
    change [(PathBuf.parse "/home/git").join (PathBuf.parse ".config/pipe-k1/allowed_signers"),
      (PathBuf.parse "/home/git").join (PathBuf.parse ".config/pipek1/allowed_signers")] = _
    decide +kernel
  rw [candidatePaths, inTree, home]
  rfl

theorem fileLines_trustingHost (sigRaw : Bytes) (text : String) {path : PathBuf}
    (other : path ≠ PathBuf.parse "commit.sig") :
    fileLines (trustingHost sigRaw text) path = Text.lines text.toList := by
  have contents : (trustingHost sigRaw text).fileContents path = .ok (Text.utf8 text) :=
    congrArg Except.ok (if_neg other)
  have present : (trustingHost sigRaw text).pathExists path = true := rfl
  rw [fileLines, if_pos present, readText, contents, asString_utf8]
  rfl

/-- The key 3 under a name of two words. -/
theorem namesKey_sample :
    ∃ line ∈ Text.lines sampleTrustText.toList, NamesKey packages line (publicBytes sampleSender) := by
  let hex := "f9308a019258c31049344f85f89d5229b531c845836f99b08601f113bce036f9"
  have digits : hex = Hex.encode (publicBytes sampleSender).toList := by decide +kernel
  refine ⟨("Ada  L. " ++ hex).toList, by decide +kernel, by decide +kernel, by decide +kernel,
    ["Ada".toList, "L.".toList], hex.toList, by decide +kernel, ?_⟩
  rw [String.ofList_toList, digits]
  exact parseKeyBytes_hex _ _

end Reference

open Reference in
/-- A signature of the key 3 over five bytes, with the key in both trust files. -/
theorem trust_decision_sample :
    ∃ (payload : SignaturePayload) (final : Process) (name : String),
      runGitShim packages (trustingHost payload.toList sampleTrustText) sampleShimArgs
        (Process.start (ofBytes sampleData)) = .ok () final ∧ name ≠ "" ∧
      TrustDecision packages (trustLines (trustingHost payload.toList sampleTrustText))
        (publicBytes sampleSender) name "ULTIMATE" := by
  obtain ⟨payload, _, signed, detached⟩ := exists_samplePayload 1700000000
  obtain ⟨final, name, level, ran, _, decision, filled, ultimate⟩ := (trust_decision packages
    encodings_documented (trustingHost payload.toList sampleTrustText) sampleShimArgs
    (ofBytes sampleData) payload.toList sampleData payload
    (sampleRun_on (congrArg Except.ok (if_pos rfl)) sampleData) detached signed.verifies).1
  rw [signed.signer_eq] at decision ultimate
  obtain ⟨line, member, named⟩ := namesKey_sample
  have trusted := ultimate.mpr ⟨line, List.mem_flatMap.mpr
    ⟨PathBuf.parse "/home/git/.config/pipe-k1/allowed_signers", ?_, ?_⟩, named⟩
  · rw [trusted] at decision
    exact ⟨payload, final, name, ran, filled, decision⟩
  · rw [candidatePaths_trustingHost]
    exact List.mem_cons_self
  · rw [fileLines_trustingHost _ _ (by decide +kernel)]
    exact member

end PipeK1

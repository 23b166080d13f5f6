import PipeK1.Cli
import PipeK1.RoundTrip
import PipeK1.SignatureProperties

/-!
# Pass-through verification

`verify --pass-through` emits its input, all of it, or nothing, and emits it
only when the signature of the expected key covers it.
-/

set_option autoImplicit false

namespace PipeK1

open ByteData ByteReader Effects

variable {crates : Crates} {host : Host}

/-! ## The signature file -/

/-- The armor of a readable signature file decides what payload is looked for. -/
theorem loadSignature_of_detached {options : VerifyOptions} {path : String}
    {sigRaw sigBytes : Bytes} (named : options.sigPath = some path)
    (readable : host.fileContents (PathBuf.parse path) = .ok sigRaw)
    (detached : detachArmor crates sigRaw = .ok sigBytes) :
    loadSignature crates host options = payloadOfBytes sigBytes := by
  rw [loadSignature, named]
  change ((host.fileContents (PathBuf.parse path)).mapError _ >>= fun sigRaw =>
    detachArmor crates sigRaw >>= payloadOfBytes) = _
  rw [readable]
  change (detachArmor crates sigRaw >>= payloadOfBytes) = _
  rw [detached]
  rfl

theorem payloadOfBytes_toList (payload : SignaturePayload) :
    payloadOfBytes payload.toList = .ok payload := by
  rw [payloadOfBytes, FixedBytes.ofList?_toList]

/-! ## The loop over standard input -/

/-- What a spool in use has taken, and that the total is within its ceiling. -/
def SpoolTook (crates : Crates) (taken : Bytes) (begun spool : Spool) : Prop :=
  Spool.Holds crates.aead spool taken ∧ Spool.Continues begun spool ∧
    ∀ max, begun.spooler.maxSize = some max → UInt64.ofNat taken.length ≤ max

/-- The same bytes have been hashed and spooled. -/
structure Absorbed (crates : Crates) (start : Process) (begun : Option Spool)
    (state : AbsorbState) (process : Process) : Prop where
  content_eq : content start.stdin = state.hashed ++ content process.stdin
  events : process.events = start.events
  smooth : Smooth start.stdin → Smooth process.stdin
  spooled : Option.Rel (SpoolTook crates state.hashed) begun state.spool

/-- A spool that has room for all of `total`. -/
structure SpoolFits (crates : Crates) (begun : Spool) (total : Bytes) : Prop where
  seals : crates.aead.SealsUpTo begun.spooler.spoolKey spoolChunkSize
  takes : begun.disk.Takes (21 * total.length)
  ceiling : ∀ max, begun.spooler.maxSize = some max → total.length ≤ max.toNat

theorem SpoolTook.write {begun spool : Spool} {taken total : Bytes}
    (took : SpoolTook crates taken begun spool) (bytes : Bytes)
    (within : (taken ++ bytes).length ≤ total.length) :
    Ends (fun _ after => SpoolTook crates (taken ++ bytes) begun after)
      (fun _ _ => ¬ SpoolFits crates begun total) (spool.writeChunk crates.aead bytes) := by
  obtain ⟨holds, continues, _⟩ := took
  refine (Spool.writeChunk_ends crates.aead bytes taken spool holds).mono ?_ ?_
  · rintro _ after ⟨holds', continues', ceiling⟩
    exact ⟨holds', continues.trans continues', continues.maxSize ▸ ceiling⟩
  · rintro _ _ (⟨max, limited, beyond⟩ | stuck) fits
    · rw [continues.maxSize] at limited
      have allowed := within.trans (fits.ceiling max limited)
      have exceeds := UInt64.lt_iff_toNat_lt.mp beyond
      rw [UInt64.toNat_ofNat_of_lt' (Nat.lt_of_le_of_lt allowed max.toNat_lt)] at exceeds
      omega
    · exact stuck ⟨continues.spoolKey ▸ fits.seals, continues.takes fits.takes (by omega)⟩

theorem spoolBytes_cases {begun spool : Option Spool} {taken total : Bytes}
    (took : Option.Rel (SpoolTook crates taken) begun spool) (bytes : Bytes)
    (within : (taken ++ bytes).length ≤ total.length) :
    (∃ after, spoolBytes crates bytes spool = .ok after ∧
      Option.Rel (SpoolTook crates (taken ++ bytes)) begun after) ∨
    ∃ error, spoolBytes crates bytes spool = .error error ∧
      ¬ ∀ spool, begun = some spool → SpoolFits crates spool total := by
  cases took with
  | none => exact .inl ⟨none, rfl, .none⟩
  | @some begun spool took =>
      have writing := took.write bytes within
      simp only [spoolBytes]
      cases written : spool.writeChunk crates.aead bytes with
      | ok _ after => exact .inl ⟨some after, rfl, .some (writing.ok written)⟩
      | error error after =>
          exact .inr ⟨error, rfl, fun fits => writing.error written (fits begun rfl)⟩

theorem absorbStep_ends {start : Process} {begun : Option Spool} {state : AbsorbState}
    {process : Process} (absorbed : Absorbed crates start begun state process) :
    Ends (fun outcome after =>
        match outcome with
        | .inl next => Absorbed crates start begun next after
        | .inr final => Absorbed crates start begun final after ∧
            (Smooth start.stdin → final.hashed = content start.stdin))
      (fun _ after => after.events = start.events ∧
        ¬ (Smooth start.stdin ∧
          ∀ spool, begun = some spool → SpoolFits crates spool (content start.stdin)))
      (absorbStep crates state process) := by
  rw [absorbStep, ends_bind, onStdin, ends_modifyGet, ends_bind]
  refine ends_orFail ?_ ?_
  · intro bytes reading
    have consumed : content process.stdin =
        bytes ++ content (read chunkSize process.stdin).2 :=
      (read_ok_content (Prod.ext reading rfl)).1
    have quiet : Smooth start.stdin → Smooth (read chunkSize process.stdin).2 ∧
        (bytes = [] → content process.stdin = []) := by
      intro smooth
      obtain ⟨bytes', rest, reading', _, smooth', ended⟩ :=
        read_smooth (by decide : 0 < chunkSize) (absorbed.smooth smooth)
      rw [reading'] at reading ⊢
      cases reading
      exact ⟨smooth', ended⟩
    cases bytes with
    | nil =>
        rw [ends_pure]
        refine ⟨⟨?_, absorbed.events, fun smooth => (quiet smooth).1, absorbed.spooled⟩,
          fun smooth => ?_⟩
        · rw [absorbed.content_eq, consumed]
          rfl
        · rw [absorbed.content_eq, (quiet smooth).2 rfl, List.append_nil]
    | cons byte bytes =>
        have whole : content start.stdin = (state.hashed ++ byte :: bytes) ++
            content (read chunkSize process.stdin).2 := by
          rw [absorbed.content_eq, consumed, List.append_assoc]
        have within : (state.hashed ++ byte :: bytes).length ≤ (content start.stdin).length := by
          rw [whole, @List.length_append _ (state.hashed ++ byte :: bytes)]
          omega
        simp only [ends_bind]
        rcases spoolBytes_cases absorbed.spooled (byte :: bytes) within with
          ⟨after, written, took⟩ | ⟨error, refused, stuck⟩
        · rw [written]
          exact ⟨whole, absorbed.events, fun smooth => (quiet smooth).1, took⟩
        · rw [refused]
          exact ⟨absorbed.events, fun room => stuck room.2⟩
  · intro error failed
    refine ⟨absorbed.events, ?_⟩
    rintro ⟨smooth, _⟩
    obtain ⟨bytes', rest, reading', _⟩ :=
      read_smooth (by decide : 0 < chunkSize) (absorbed.smooth smooth)
    rw [reading'] at failed
    cases failed

theorem absorbStdin_ends (begun : Option Spool)
    (empty : ∀ spool, begun = some spool → Spool.Holds crates.aead spool []) (start : Process) :
    Ends (fun final after => Absorbed crates start begun final after ∧
        (Smooth start.stdin → final.hashed = content start.stdin))
      (fun _ after => after.events = start.events ∧
        ¬ (Smooth start.stdin ∧
          ∀ spool, begun = some spool → SpoolFits crates spool (content start.stdin)))
      (absorbStdin crates begun start) := by
  unfold absorbStdin
  refine loop_ends (Absorbed crates start begun) ?_ ⟨rfl, rfl, id, ?_⟩
  · intro state process absorbed
    refine (absorbStep_ends absorbed).mono ?_ (fun _ _ stuck => stuck)
    intro outcome after advanced
    cases outcome with
    | inl next => exact advanced
    | inr final => exact advanced
  · cases begun with
    | none => exact .none
    | some spool =>
        exact .some ⟨empty spool rfl, Spool.Continues.refl spool, fun max _ => UInt64.zero_le⟩

/-! ## The verdict -/

/-- What pass-through asks of the options, the signature file and the data. -/
structure PassThroughVerified (crates : Crates) (host : Host) (options : VerifyOptions)
    (data : Bytes) : Prop where
  passThrough : options.passThrough = true
  verified : ∃ payload exp, loadSignature crates host options = .ok payload ∧
    options.expectedPub = some exp ∧
    parseKeyBytes crates exp = .ok (payload.slice 9 32) ∧
    PayloadVerifies crates payload (crates.digests.sha256 data)
  ceiling : ∀ max, options.maxSize = some max → data.length ≤ max.toNat

theorem checkSigner_ends (options : VerifyOptions) (signerPk : FixedBytes 32)
    (process : Process) :
    Ends (fun _ after => after.stdin = process.stdin ∧ after.stdout = process.stdout ∧
        ∀ exp, options.expectedPub = some exp → parseKeyBytes crates exp = .ok signerPk)
      (fun _ after => after.stdout = process.stdout ∧
        ∃ exp, options.expectedPub = some exp ∧ parseKeyBytes crates exp ≠ .ok signerPk)
      (checkSigner crates options signerPk process) := by
  unfold checkSigner
  cases expected : options.expectedPub with
  | none =>
      rw [ends_eprintln]
      exact ⟨rfl, Process.stdout_of_events rfl |>.trans (List.append_nil _),
        fun _ impossible => nomatch impossible⟩
  | some exp =>
      simp only [ends_bind]
      refine ends_orFail ?_ ?_
      · intro expPk parsed
        split
        · next differs =>
            rw [ends_fail]
            refine ⟨rfl, exp, rfl, ?_⟩
            rw [parsed]
            intro same
            exact differs (Except.ok.inj same)
        · next same =>
            rw [ends_pure]
            refine ⟨rfl, rfl, ?_⟩
            intro _ named
            cases named
            rw [parsed, not_not.mp same]
      · intro error refused
        refine ⟨rfl, exp, rfl, ?_⟩
        rw [refused]
        intro impossible
        cases impossible

/-- What a successful run has written. -/
def VerifiedOutput (crates : Crates) (host : Host) (options : VerifyOptions) (data output : Bytes) :
    Prop :=
  if options.passThrough then output = data ∧ PassThroughVerified crates host options data
  else output = []

/-- The spool a command in pass-through mode starts with. -/
def passThroughSpool (host : Host) (options : VerifyOptions) : Option Spool :=
  if options.passThrough then some (Spool.start host options.maxSize) else none

/-- The release at the end of a verified run. -/
theorem releaseVerified_ends {options : VerifyOptions} {signerPk : FixedBytes 32} {data : Bytes}
    {spool : Option Spool} (trusted : SpoolTrusted crates host)
    (took : Option.Rel (SpoolTook crates data) (passThroughSpool host options) spool)
    {process : Process} (quiet : process.stdout = []) :
    Ends (fun _ final =>
        if options.passThrough then
          final.stdout = data ∧ ∀ max, options.maxSize = some max → data.length ≤ max.toNat
        else final.stdout = [])
      (fun _ _ => False) (releaseVerified crates signerPk spool process) := by
  unfold passThroughSpool at took
  cases passing : options.passThrough with
  | false =>
      rw [passing] at took
      cases took
      simp only [releaseVerified, ends_eprintln, Bool.false_eq_true, ↓reduceIte]
      rw [Process.stdout_of_events rfl, quiet]
      rfl
  | true =>
      rw [passing] at took
      cases took with
      | @some _ spool took =>
          obtain ⟨holds, continues, ceiling⟩ := took
          have honest := continues.honest trusted.honest
          simp only [releaseVerified, ↓reduceIte, releaseToStdout_of_holds holds
            (continues.spoolKey ▸ trusted.inverts) honest, ends_ok]
          refine ⟨?_, fun max limited => ?_⟩
          · rw [Process.stdout_of_events rfl, quiet]
            simp [Event.stdoutBytes]
          · have within := UInt64.le_iff_toNat_le.mp (ceiling max limited)
            rwa [UInt64.toNat_ofNat_of_lt' (holds.length_lt honest.capacity_lt)] at within

/-- A run from the first read on writes nothing, or in pass-through mode all of a verified
input. -/
theorem verifyStdin_ends {options : VerifyOptions} {payload : SignaturePayload} {stdin : Reader}
    (trusted : SpoolTrusted crates host) (smooth : Smooth stdin)
    (guarded : options.passThrough = true → options.expectedPub ≠ none)
    (loaded : loadSignature crates host options = .ok payload) :
    Ends (fun _ final => VerifiedOutput crates host options (content stdin) final.stdout)
      (fun _ final => final.stdout = [] ∧
        ¬ (PassThroughVerified crates host options (content stdin) ∧
          host.disk.Takes (21 * (content stdin).length)))
      (verifyStdin crates host options payload (Process.start stdin)) := by
  have only : ∀ {payload'}, loadSignature crates host options = .ok payload' →
      payload' = payload := by
    intro payload' same
    rw [loaded] at same
    exact (Except.ok.inj same).symm
  rw [verifyStdin, ends_bind]
  refine (absorbStdin_ends (passThroughSpool host options) ?_ (Process.start stdin)).mono ?_ ?_
  · intro spool begun
    unfold passThroughSpool at begun
    split at begun
    · cases begun
      exact Spool.holds_start crates.aead host options.maxSize
    · cases begun
  · rintro absorbed first ⟨reached, whole⟩
    have hashed : absorbed.hashed = content stdin := whole smooth
    have quiet : first.stdout = [] := Process.stdout_of_events_start reached.events
    have took := reached.spooled
    rw [hashed] at took
    rw [hashed, ends_bind]
    refine ends_orFail ?_ ?_
    · intro signerPk verified
      obtain ⟨verifies, rfl⟩ := (verifyStreamPayload_eq_ok_iff crates).mp verified
      rw [ends_bind]
      refine (checkSigner_ends options (payload.slice 9 32) first).mono ?_ ?_
      · rintro _ second ⟨_, stdout_eq, named⟩
        refine (releaseVerified_ends trusted took (stdout_eq.trans quiet)).mono ?_
          (fun _ _ impossible => impossible.elim)
        intro _ final released
        unfold VerifiedOutput
        by_cases passing : options.passThrough = true
        · rw [if_pos passing] at released ⊢
          obtain ⟨exp, expected⟩ := Option.ne_none_iff_exists'.mp (guarded passing)
          exact ⟨released.1, passing, ⟨payload, exp, loaded, expected, named exp expected,
            verifies⟩, released.2⟩
        · rwa [if_neg passing] at released ⊢
      · rintro _ after ⟨stdout_eq, exp, expected, differs⟩
        refine ⟨stdout_eq.trans quiet, ?_⟩
        rintro ⟨⟨_, ⟨payload', exp', loaded', expected', parsed, _⟩, _⟩, _⟩
        rw [expected] at expected'
        cases expected'
        rw [only loaded'] at parsed
        exact differs parsed
    · intro error refused
      refine ⟨quiet, ?_⟩
      rintro ⟨⟨_, ⟨payload', _, loaded', _, _, verifies⟩, _⟩, _⟩
      rw [only loaded'] at verifies
      have accepted := (verifyStreamPayload_eq_ok_iff crates).mpr ⟨verifies, rfl⟩
      rw [refused] at accepted
      cases accepted
  · rintro _ after ⟨events_eq, stuck⟩
    refine ⟨Process.stdout_of_events_start events_eq, ?_⟩
    rintro ⟨verified, takes⟩
    refine stuck ⟨smooth, ?_⟩
    intro spool begun
    rw [passThroughSpool, if_pos verified.passThrough] at begun
    cases begun
    exact ⟨trusted.inverts.sealsUpTo, takes, verified.ceiling⟩

/-! ## The command -/

theorem loadSignature_of_verified {options : VerifyOptions} {data : Bytes}
    (verified : PassThroughVerified crates host options data) :
    options.expectedPub ≠ none ∧ ∃ payload, loadSignature crates host options = .ok payload := by
  obtain ⟨payload, exp, loaded, expected, _⟩ := verified.verified
  exact ⟨by rw [expected]; exact Option.some_ne_none exp, payload, loaded⟩

theorem verifyCommand_ends (args : List String) {stdin : Reader}
    (trusted : SpoolTrusted crates host) (smooth : Smooth stdin) :
    Ends (fun _ final =>
        VerifiedOutput crates host (verifyOptions args) (content stdin) final.stdout)
      (fun _ final => final.stdout = [] ∧
        ¬ (PassThroughVerified crates host (verifyOptions args) (content stdin) ∧
          host.disk.Takes (21 * (content stdin).length)))
      (verifyCommand crates host args (Process.start stdin)) := by
  unfold verifyCommand
  by_cases unguarded : (verifyOptions args).passThrough = true ∧
      (verifyOptions args).expectedPub.isNone = true
  · simp only [unguarded, and_self, ↓reduceIte, ends_fail]
    refine ⟨rfl, fun verified => ?_⟩
    exact (loadSignature_of_verified verified.1).1 (Option.isNone_iff_eq_none.mp unguarded.2)
  · simp only [unguarded, ↓reduceIte, ends_bind]
    refine ends_orFail ?_ ?_
    · intro payload loaded
      refine verifyStdin_ends trusted smooth ?_ loaded
      exact fun passing missing => unguarded ⟨passing, Option.isNone_iff_eq_none.mpr missing⟩
    · intro error refused
      refine ⟨rfl, fun verified => ?_⟩
      obtain ⟨payload, loaded⟩ := (loadSignature_of_verified verified.1).2
      rw [refused] at loaded
      cases loaded

/-- Standard output stays empty unless pass-through was asked for and the signature of the
expected key covers all of standard input, which is then what is written, and the program
exits with 0. -/
theorem verify_releases_verified_input (crates : Crates) (host : Host) (rounds : Nat)
    (exe : String) (args : List String) (stdin : Reader) (status : Option Nat) (final : Process)
    (direct : isGitInvocation exe "verify" = false) (trusted : SpoolTrusted crates host)
    (smooth : Smooth stdin)
    (ran : realMain crates host rounds (exe :: "verify" :: args) stdin = (status, final)) :
    (final.stdout ≠ [] →
      PassThroughVerified crates host (verifyOptions args) (content stdin) ∧
        final.stdout = content stdin ∧ status = some 0) ∧
    (PassThroughVerified crates host (verifyOptions args) (content stdin) →
      host.disk.Takes (21 * (content stdin).length) →
        final.stdout = content stdin ∧ status = some 0) := by
  have running := verifyCommand_ends args trusted smooth
  have command : runCommand crates host rounds exe "verify" args =
      verifyCommand crates host args := by
    simp only [runCommand, direct, Bool.false_eq_true, ↓reduceIte, dispatchCommand]
  simp only [realMain, command, Prod.mk.injEq] at ran
  obtain ⟨rfl, rfl⟩ := ran
  cases outcome : verifyCommand crates host args (Process.start stdin) with
  | ok value process =>
      have written := running.ok outcome
      unfold VerifiedOutput at written
      by_cases passing : (verifyOptions args).passThrough = true
      · rw [if_pos passing] at written
        exact ⟨fun _ => ⟨written.2, written.1, rfl⟩, fun _ _ => ⟨written.1, rfl⟩⟩
      · rw [if_neg passing] at written
        exact ⟨fun some => absurd written some,
          fun verified => absurd verified.passThrough passing⟩
  | error stop process =>
      obtain ⟨silent, refused⟩ := running.error outcome
      have quiet := (stdout_reported_error stop process).trans silent
      exact ⟨fun some => absurd quiet some,
        fun verified takes => absurd ⟨verified, takes⟩ refused⟩

open Reference in
/-- Five bytes signed with the key 3, passed through under the expected key. -/
theorem verify_releases_verified_input_sample :
    ∃ (payload : SignaturePayload) (final : Process),
      realMain packages (signatureHost payload.toList) 0
        ["pipe-k1", "verify", "--sig", "data.sig", "--pub", publicHex sampleSender,
          "--pass-through"] (ofBytes sampleData) = (some 0, final) ∧
      final.stdout = sampleData := by
  obtain ⟨payload, _, signed, detached⟩ := exists_samplePayload 1700000000
  let args := ["--sig", "data.sig", "--pub", publicHex sampleSender, "--pass-through"]
  have loaded : loadSignature packages (signatureHost payload.toList) (verifyOptions args) =
      .ok payload :=
    (loadSignature_of_detached rfl rfl detached).trans (payloadOfBytes_toList payload)
  have verified : PassThroughVerified packages (signatureHost payload.toList) (verifyOptions args)
      (content (ofBytes sampleData)) := by
    refine ⟨rfl, ⟨payload, publicHex sampleSender, loaded, rfl, ?_, ?_⟩, fun _ limited => nomatch limited⟩
    · rw [signed.signer_eq]
      exact parseKeyBytes_hex _ (publicBytes sampleSender)
    · rw [content_ofBytes]
      exact signed.verifies
  cases ran : realMain packages (signatureHost payload.toList) 0 ("pipe-k1" :: "verify" :: args)
      (ofBytes sampleData) with
  | mk status final =>
      obtain ⟨_, complete⟩ := verify_releases_verified_input packages
        (signatureHost payload.toList) 0 "pipe-k1" args (ofBytes sampleData) status final rfl
        ⟨lawful.inverts _, keyHost_disk_honest sampleSender sampleEphemeral⟩
        (smooth_ofBytes sampleData) ran
      obtain ⟨output, rfl⟩ := complete verified
        (keyHost_takes sampleSender sampleEphemeral (by rw [content_ofBytes]; decide))
      exact ⟨payload, final, ran, by rw [output, content_ofBytes]⟩

end PipeK1

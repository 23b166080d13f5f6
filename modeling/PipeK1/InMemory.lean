import PipeK1.CanonicalFraming
import PipeK1.SenderContract
import PipeK1.Library.Lockstep

/-!
# Small inputs stay in memory

A spool that was given no more than its memory limit has looked neither at its
disk nor at its key, so a run over a small input is the same on every disk.
-/

set_option autoImplicit false

namespace PipeK1

open ByteData ByteReader Effects

/-! ## Spools without a file -/

namespace Spool

/-- Two spools that differ in their disk and their key only, neither with a file. -/
structure InMemory (left right : Spool) : Prop where
  noFile : left.spooler.diskFile = none
  noFile' : right.spooler.diskFile = none
  memBuffer : left.spooler.memBuffer = right.spooler.memBuffer
  totalBytes : left.spooler.totalBytes = right.spooler.totalBytes
  maxSize : left.spooler.maxSize = right.spooler.maxSize

/-- The number of bytes in memory. -/
def held (spool : Spool) : Nat := spool.spooler.memBuffer.length

variable {aead : Cipher} {spool left right : Spool} {chunk : Bytes}

def kept (spool : Spool) (chunk : Bytes) : Spool :=
  { spool with spooler := { spool.spooler with memBuffer := spool.spooler.memBuffer ++ chunk } }

theorem storeChunk_of_fits (noFile : spool.spooler.diskFile = none)
    (fits : spool.held + chunk.length ≤ memorySpoolLimit) :
    storeChunk aead chunk spool = .ok () (spool.kept chunk) := by
  rw [storeChunk, bind_of_ok (show (get : EStateM String Spool Spool) spool = .ok spool spool from
    rfl), if_pos ⟨noFile, fits⟩]
  rfl

theorem InMemory.overCeiling_eq (inMemory : InMemory left right) :
    overCeiling (counted left chunk).spooler = overCeiling (counted right chunk).spooler := by
  simp only [overCeiling, counted, inMemory.maxSize, inMemory.totalBytes]
  rfl

/-- A chunk that fits goes into both, or both refuse it for the ceiling. -/
theorem InMemory.writeChunk (inMemory : InMemory left right)
    (fits : left.held + chunk.length ≤ memorySpoolLimit) :
    (∃ error after after', writeChunk aead chunk left = .error error after ∧
      writeChunk aead chunk right = .error error after') ∨
    ∃ after after', writeChunk aead chunk left = .ok () after ∧
      writeChunk aead chunk right = .ok () after' ∧ InMemory after after' ∧
      after.held = left.held + chunk.length := by
  have fits' : right.held + chunk.length ≤ memorySpoolLimit := by
    rw [held, ← inMemory.memBuffer]
    exact fits
  cases ceiling : overCeiling (counted left chunk).spooler with
  | some max =>
      refine .inl ⟨_, _, _, writeChunk_of_beyond aead ceiling, writeChunk_of_beyond aead ?_⟩
      rw [← inMemory.overCeiling_eq, ceiling]
  | none =>
      have ceiling' := ceiling
      rw [inMemory.overCeiling_eq] at ceiling'
      refine .inr ⟨_, _, (writeChunk_of_within aead ceiling).trans
        (storeChunk_of_fits inMemory.noFile fits), (writeChunk_of_within aead ceiling').trans
        (storeChunk_of_fits inMemory.noFile' fits'), ⟨inMemory.noFile, inMemory.noFile', ?_, ?_,
        inMemory.maxSize⟩, ?_⟩
      · exact congrArg (· ++ chunk) inMemory.memBuffer
      · exact congrArg (· + _) inMemory.totalBytes
      · rw [held, kept, List.length_append]
        rfl

theorem InMemory.releaseToStdout (inMemory : InMemory left right) :
    left.releaseToStdout aead = right.releaseToStdout aead := by
  simp only [Spool.releaseToStdout, releaseTo, inMemory.noFile, inMemory.noFile',
    inMemory.memBuffer]

end Spool

/-! ## Hosts -/

/-- The same host with another place to spool to. -/
def Host.withSpool (host : Host) (disk : Disk) (spoolKey : FixedBytes 32) : Host :=
  { host with disk := disk, spoolKey := spoolKey }

variable {crates : Crates} {host : Host} {disk : Disk} {spoolKey : FixedBytes 32}

theorem inMemory_start (maxSize : Option UInt64) :
    Spool.InMemory (Spool.start (host.withSpool disk spoolKey) maxSize)
      (Spool.start host maxSize) :=
  ⟨rfl, rfl, rfl, rfl, rfl⟩

theorem loadSecretKey_withSpool (keyArgs : KeyIntakeArgs) :
    loadSecretKey crates (host.withSpool disk spoolKey) keyArgs =
      loadSecretKey crates host keyArgs := by
  unfold loadSecretKey
  rfl

/-! ## Decryption -/

section Decrypt

variable {args : DecryptArgs} {header : StreamHeader}

/-- Two loops that have read the same and hold no more than was read. -/
structure SameChunks (state : DecryptState) (process : Process) (state' : DecryptState)
    (process' : Process) : Prop where
  processes : process = process'
  counter : state.chunkCounter = state'.chunkCounter
  hashed : state.hashed = state'.hashed
  inMemory : Spool.InMemory state.spool state'.spool
  room : state.spool.held + (content process.stdin).length ≤ memorySpoolLimit

theorem deliverChunk_sameChunks {left right : Spool} (inMemory : Spool.InMemory left right)
    {plaintext : Bytes} (fits : left.held + plaintext.length ≤ memorySpoolLimit)
    (process : Process) :
    Lockstep (fun spool later spool' later' => later = later' ∧ later.stdin = process.stdin ∧
        Spool.InMemory spool spool' ∧ spool.held ≤ left.held + plaintext.length) identical
      (deliverChunk crates args plaintext left process)
      (deliverChunk crates args plaintext right process) := by
  unfold deliverChunk
  split
  · exact .both ⟨rfl, rfl, inMemory, Nat.le_add_right _ _⟩
  · rcases @Spool.InMemory.writeChunk crates.aead _ _ _ inMemory fits with
      ⟨error, after, after', refused, refused'⟩ | ⟨after, after', written, written', kept, size⟩
    · rw [refused, refused']
      exact .stop ⟨rfl, rfl⟩
    · rw [written, written']
      exact .both ⟨rfl, rfl, kept, Nat.le_of_eq size⟩

theorem decryptStep_sameChunks {state state' : DecryptState} {left right : Process}
    (same : SameChunks state left state' right) :
    Lockstep (AfterRound SameChunks SameChunks) identical
      (decryptStep crates args header state left) (decryptStep crates args header state' right) := by
  obtain ⟨rfl, counter, hashed, inMemory, room⟩ := same
  unfold decryptStep
  refine (Lockstep.refl (readChunk_ends left)).bind ?_
  rintro chunk first _ _ ⟨rfl, rfl, content_eq, _, _, _⟩
  have taken := congrArg List.length content_eq
  rw [List.length_append, WireChunk.bytes, List.length_append, List.length_cons,
    List.length_append] at taken
  rw [← counter, ← hashed]
  cases opened : openChunk crates header state.chunkCounter chunk with
  | error e => exact .stop ⟨rfl, rfl⟩
  | ok plaintext =>
      have width : plaintext.length = chunk.ciphertext.length :=
        crates.aead.length_decrypt opened
      have fits : state.spool.held + plaintext.length ≤ memorySpoolLimit := by omega
      refine (deliverChunk_sameChunks inMemory fits _).bind ?_
      rintro spool second spool' _ ⟨rfl, stdin_eq, inMemory', size⟩
      change (second.stdin = first.stdin) at stdin_eq
      have next : SameChunks
          ⟨state.chunkCounter + 1, spool, if header.mode = 0x01 then state.hashed ++ plaintext
            else state.hashed⟩ second
          ⟨state.chunkCounter + 1, spool', if header.mode = 0x01 then state.hashed ++ plaintext
            else state.hashed⟩ second := by
        refine ⟨rfl, rfl, rfl, inMemory', ?_⟩
        rw [stdin_eq]
        dsimp only
        omega
      dsimp only
      split
      · exact .both next
      · exact .both next

theorem decryptChunks_sameChunks {state state' : DecryptState} {left right : Process}
    (same : SameChunks state left state' right) :
    Lockstep SameChunks identical (decryptChunks crates args header state left)
      (decryptChunks crates args header state' right) := by
  unfold decryptChunks
  exact lockstep_loop SameChunks (fun _ _ _ _ => decryptStep_sameChunks) same

/-- With an input within the memory limit, every disk and every spool key give the same run. -/
theorem runDecrypt_withSpool {process : Process}
    (small : (content process.stdin).length ≤ memorySpoolLimit) :
    runDecrypt crates (host.withSpool disk spoolKey) args process =
      runDecrypt crates host args process := by
  unfold runDecrypt
  rw [loadSecretKey_withSpool]
  refine bind_eq_of_ends (ends_orStop (fun recipPriv _ => ?_) (fun _ _ => trivial))
  refine bind_eq_of_ends (ends_orFail (fun signingKey _ => ?_) (fun _ _ => trivial))
  refine bind_eq_of_ends ((readStdin_ends _ _ _).mono ?_ (fun _ _ _ => trivial))
  rintro headerBytes first ⟨content_eq, _⟩
  refine bind_eq_of_ends (ends_orFail (fun header _ => ?_) (fun _ _ => trivial))
  have room : (content first.stdin).length ≤ memorySpoolLimit := by
    rw [content_eq, List.length_append] at small
    omega
  have start : SameChunks ⟨0, Spool.start (host.withSpool disk spoolKey) args.maxSize, []⟩ first
      ⟨0, Spool.start host args.maxSize, []⟩ first :=
    ⟨rfl, rfl, rfl, inMemory_start args.maxSize, by simpa [Spool.held, Spool.start,
      StreamSpooler.new] using room⟩
  refine Lockstep.eq_of_identical ((decryptChunks_sameChunks start).bind ?_)
  rintro state second state' _ ⟨rfl, _, hashed, inMemory, _⟩
  rw [hashed, inMemory.releaseToStdout]
  exact .of_eq rfl

end Decrypt

/-! ## Verification -/

section Verify

/-- No spool, or two that differ in their disk and key only and hold `size` bytes at most. -/
inductive SameSpools (size : Nat) : Option Spool → Option Spool → Prop where
  | none : SameSpools size none none
  | some {left right : Spool} (inMemory : Spool.InMemory left right) (fits : left.held ≤ size) :
      SameSpools size (some left) (some right)

/-- Two loops that have read the same and spooled no more than that. -/
structure SameAbsorbed (state : AbsorbState) (process : Process) (state' : AbsorbState)
    (process' : Process) : Prop where
  processes : process = process'
  hashed : state.hashed = state'.hashed
  spools : SameSpools state.hashed.length state.spool state'.spool
  room : state.hashed.length + (content process.stdin).length ≤ memorySpoolLimit

theorem SameSpools.write {size : Nat} {left right : Option Spool} (same : SameSpools size left right)
    {bytes : Bytes} (fits : size + bytes.length ≤ memorySpoolLimit) :
    (∃ error, spoolBytes crates bytes left = .error error ∧
      spoolBytes crates bytes right = .error error) ∨
    ∃ after after', spoolBytes crates bytes left = .ok after ∧
      spoolBytes crates bytes right = .ok after' ∧
      SameSpools (size + bytes.length) after after' := by
  cases same with
  | none => exact .inr ⟨_, _, rfl, rfl, .none⟩
  | some inMemory within =>
      rcases @Spool.InMemory.writeChunk crates.aead _ _ bytes inMemory (by omega) with
        ⟨error, after, after', refused, refused'⟩ | ⟨after, after', written, written', kept, grown⟩
      · refine .inl ⟨error, ?_, ?_⟩
        · rw [spoolBytes, refused]
        · rw [spoolBytes, refused']
      · refine .inr ⟨.some after, .some after', ?_, ?_, .some kept (by omega)⟩
        · rw [spoolBytes, written]
        · rw [spoolBytes, written']

theorem absorbStep_sameAbsorbed {state state' : AbsorbState} {left right : Process}
    (same : SameAbsorbed state left state' right) :
    Lockstep (AfterRound SameAbsorbed SameAbsorbed) identical (absorbStep crates state left)
      (absorbStep crates state' right) := by
  obtain ⟨rfl, hashed, spools, room⟩ := same
  unfold absorbStep
  have reading : Ends (fun outcome later => ∀ bytes, outcome = .ok bytes →
        content left.stdin = bytes ++ content later.stdin) (fun _ _ => True)
      (onStdin (read chunkSize) left) := by
    rw [onStdin, ends_modifyGet]
    exact fun bytes taken => (read_ok_content (Prod.ext taken rfl)).1
  refine (Lockstep.refl reading).bind ?_
  rintro outcome first _ _ ⟨rfl, rfl, taken⟩
  cases outcome with
  | error error => exact .stop ⟨rfl, rfl⟩
  | ok bytes =>
      have content_eq := congrArg List.length (taken bytes rfl)
      rw [List.length_append] at content_eq
      cases bytes with
      | nil =>
          refine .both ⟨rfl, hashed, spools, ?_⟩
          rw [List.length_nil] at content_eq
          omega
      | cons byte bytes =>
          let next (hashed : Bytes) (spool : Option Spool) : Run (AbsorbState ⊕ AbsorbState) :=
            pure (.inl ⟨spool, hashed ++ byte :: bytes⟩)
          change Lockstep _ _
            ((orFail .usageError (spoolBytes crates (byte :: bytes) state.spool) >>=
              next state.hashed) first)
            ((orFail .usageError (spoolBytes crates (byte :: bytes) state'.spool) >>=
              next state'.hashed) first)
          rw [← hashed]
          rcases @SameSpools.write crates _ _ _ spools (byte :: bytes) (by omega) with
            ⟨error, refused, refused'⟩ | ⟨after, after', written, written', kept⟩
          · rw [refused, refused']
            exact .stop ⟨rfl, rfl⟩
          · rw [written, written']
            rw [← List.length_append] at kept
            refine .both ⟨rfl, rfl, kept, ?_⟩
            dsimp only
            rw [List.length_append]
            omega

theorem absorbStdin_sameAbsorbed {left right : Option Spool} (spools : SameSpools 0 left right)
    {process : Process} (small : (content process.stdin).length ≤ memorySpoolLimit) :
    Lockstep SameAbsorbed identical (absorbStdin crates left process)
      (absorbStdin crates right process) := by
  unfold absorbStdin
  refine lockstep_loop SameAbsorbed (fun _ _ _ _ => absorbStep_sameAbsorbed) ⟨rfl, rfl, spools, ?_⟩
  rw [List.length_nil, Nat.zero_add]
  exact small

theorem SameSpools.releaseVerified {size : Nat} {left right : Option Spool}
    (same : SameSpools size left right) (signerPk : FixedBytes 32) :
    releaseVerified crates signerPk left = releaseVerified crates signerPk right := by
  cases same with
  | none => rfl
  | some inMemory _ => exact inMemory.releaseToStdout

theorem verifyStdin_withSpool {options : VerifyOptions} {payload : SignaturePayload}
    {process : Process} (small : (content process.stdin).length ≤ memorySpoolLimit) :
    verifyStdin crates (host.withSpool disk spoolKey) options payload process =
      verifyStdin crates host options payload process := by
  unfold verifyStdin
  have spools : SameSpools 0
      (if options.passThrough then
        some (Spool.start (host.withSpool disk spoolKey) options.maxSize) else none)
      (if options.passThrough then some (Spool.start host options.maxSize) else none) := by
    split
    · exact .some (inMemory_start options.maxSize) (Nat.le_refl 0)
    · exact .none
  refine Lockstep.eq_of_identical ((absorbStdin_sameAbsorbed spools small).bind ?_)
  rintro absorbed first absorbed' _ ⟨rfl, hashed, spools', _⟩
  refine .of_eq ?_
  simp only [hashed, spools'.releaseVerified]

theorem verifyCommand_withSpool {args : List String} {process : Process}
    (small : (content process.stdin).length ≤ memorySpoolLimit) :
    verifyCommand crates (host.withSpool disk spoolKey) args process =
      verifyCommand crates host args process := by
  unfold verifyCommand
  have signatures : ∀ options, loadSignature crates (host.withSpool disk spoolKey) options =
      loadSignature crates host options := fun _ => rfl
  simp only [signatures]
  split
  · rfl
  · exact bind_eq_of_ends
      (ends_orFail (fun _ _ => verifyStdin_withSpool small) (fun _ _ => trivial))

end Verify

/-! ## The program -/

theorem repositoryFiles_withSpool (curr : PathBuf) :
    repositoryFiles (host.withSpool disk spoolKey) curr = repositoryFiles host curr := by
  induction curr using repositoryFiles.induct host with
  | case1 curr dotGit isDir =>
      rw [repositoryFiles.eq_def, repositoryFiles.eq_def host]
      exact (if_pos isDir).trans (if_pos isDir).symm
  | case2 curr dotGit noDir isFile =>
      rw [repositoryFiles.eq_def, repositoryFiles.eq_def host]
      exact ite_congr rfl (fun _ => rfl) fun _ => (if_pos isFile).trans (if_pos isFile).symm
  | case3 curr dotGit noDir isFile =>
      rw [repositoryFiles.eq_def, repositoryFiles.eq_def host]
      exact ite_congr rfl (fun _ => rfl) fun _ => (if_pos isFile).trans (if_pos isFile).symm
  | case4 curr dotGit noDir noFile top =>
      rw [repositoryFiles.eq_def, repositoryFiles.eq_def host]
      exact ite_congr rfl (fun _ => rfl) fun _ => ite_congr rfl (fun _ => rfl) fun _ =>
        dite_congr rfl (fun _ => rfl) fun below => absurd top below
  | case5 curr dotGit noDir noFile below ih =>
      rw [repositoryFiles.eq_def, repositoryFiles.eq_def host]
      exact ite_congr rfl (fun _ => rfl) fun _ => ite_congr rfl (fun _ => rfl) fun _ =>
        dite_congr rfl (fun _ => rfl) fun _ => ih

theorem resolveAllowedSigners_withSpool :
    resolveAllowedSigners crates (host.withSpool disk spoolKey) =
      resolveAllowedSigners crates host := by
  have files : inTreeFiles (host.withSpool disk spoolKey) = inTreeFiles host := by
    unfold inTreeFiles
    simp only [repositoryFiles_withSpool]
    rfl
  unfold resolveAllowedSigners candidatePaths
  rw [files]
  rfl

theorem runGitShim_withSpool (args : List String) :
    runGitShim crates (host.withSpool disk spoolKey) args = runGitShim crates host args := by
  have verifying : ∀ shimArgs, shimVerify crates (host.withSpool disk spoolKey) shimArgs =
      shimVerify crates host shimArgs := by
    intro shimArgs
    unfold shimVerify checkPayload reportGood
    simp only [resolveAllowedSigners_withSpool]
    rfl
  have signing : ∀ shimArgs, shimSign crates (host.withSpool disk spoolKey) shimArgs =
      shimSign crates host shimArgs := by
    intro shimArgs
    unfold shimSign
    simp only [loadSecretKey_withSpool]
    rfl
  unfold runGitShim
  simp only [verifying, signing]

theorem encryptCommand_withSpool (rounds : Nat) (args : List String) :
    encryptCommand crates (host.withSpool disk spoolKey) rounds args =
      encryptCommand crates host rounds args := by
  unfold encryptCommand runEncrypt encryptSession senderSigningKey
  simp only [loadSecretKey_withSpool]
  rfl

theorem runCommand_withSpool {rounds : Nat} {exe command : String} {args : List String}
    {process : Process} (small : (content process.stdin).length ≤ memorySpoolLimit) :
    runCommand crates (host.withSpool disk spoolKey) rounds exe command args process =
      runCommand crates host rounds exe command args process := by
  unfold runCommand
  split
  · rw [runGitShim_withSpool]
  · unfold dispatchCommand
    split
    · rw [encryptCommand_withSpool]
    · exact runDecrypt_withSpool small
    · simp only [pubkeyCommand, loadSigningKey, loadSecretKey_withSpool]
    · unfold signCommand
      simp only [loadSigningKey, loadSecretKey_withSpool]
      rfl
    · exact verifyCommand_withSpool small
    · rfl
    · rfl
    · rfl
    · rfl

/-- Over an input of at most 16 MiB a run has nothing to do with the disk it could spool to, nor
with the spool's key: no fault of the disk can show. -/
theorem small_input_needs_no_disk (crates : Crates) (host : Host) (disk : Disk)
    (spoolKey : FixedBytes 32) (rounds : Nat) (argv : List String) (stdin : Reader)
    (small : (content stdin).length ≤ memorySpoolLimit) :
    realMain crates (host.withSpool disk spoolKey) rounds argv stdin =
      realMain crates host rounds argv stdin := by
  unfold realMain
  split
  · next exe command args =>
      rw [runCommand_withSpool small]
  · rfl

section Sample

open Reference

/-- A disk that takes nothing. -/
def deadDisk : Disk :=
  { (keyHost sampleRecipient sampleEphemeral).disk with
    capacity := 0, outcomes := [.failed 0 ⟨.other, "Input/output error"⟩] }

theorem small_sealedStream (anonymous : Bool) :
    (content (sealedStream anonymous sampleSender sampleRecipient sampleEphemeral
      sampleData)).length ≤ memorySpoolLimit := by
  obtain ⟨final, encrypted, whole⟩ := @exists_encrypted anonymous sampleSender sampleRecipient
    sampleEphemeral sampleData (by decide)
  obtain ⟨session, full, last, trailer, run, buffered⟩ := (runEncrypt_buffers _ _ _ _ _).ok encrypted
  have framing := run.framing (smooth_ofBytes _) buffered
  have length := framing.length_stdout
  have one : chunkCount sampleData.length = 1 := by decide
  have five : sampleData.length = 5 := rfl
  rw [framing.count, content_ofBytes, one, five] at length
  rw [whole, content_ofBytes, length]
  split
  · decide
  · decide

end Sample

open Reference in
/-- A disk that takes nothing does not stop the decryption of a short stream. -/
theorem small_input_needs_no_disk_sample :
    ∃ final, realMain packages
        ((keyHost sampleRecipient sampleEphemeral).withSpool deadDisk (FixedBytes.zeros 32)) 0
        ["pipe-k1", "decrypt", "--sender", publicHex sampleSender]
        (sealedStream false sampleSender sampleRecipient sampleEphemeral sampleData) =
          (some 0, final) ∧
      final.stdout = sampleData := by
  obtain ⟨final, accepted, output⟩ := @sealedStream_accepted false false sampleSender
    sampleRecipient sampleEphemeral sampleData (by decide)
  have direct : isGitInvocation "pipe-k1" "decrypt" = false := by decide
  have options : decryptArgs ["--sender", publicHex sampleSender] =
      openArgs false sampleSender false := rfl
  refine ⟨final, ?_, output⟩
  rw [small_input_needs_no_disk packages (keyHost sampleRecipient sampleEphemeral) deadDisk
    (FixedBytes.zeros 32) 0 _ _ (small_sealedStream false), realMain_decrypt direct, options,
    accepted]
  rfl

end PipeK1

import PipeK1.DecryptProperties
import PipeK1.EncryptProperties
import PipeK1.SignatureProperties

/-!
# What a signature is made for

Detached signatures and stream trailers are signed under different tags. With
no collision among the messages hashed, a signature made for one of them, or
for one timestamp and digest, is accepted for nothing else.
-/

set_option autoImplicit false

namespace PipeK1

open ByteData Effects

/-! ## Contexts -/

/-- The statement a signature is made for. -/
inductive SigningContext where
  | detached (legacy : Bool) (timestamp : UInt32) (msgDigest : FixedBytes 32)
  | trailer (hmac16 : FixedBytes 16) (ptDigest : FixedBytes 32)
deriving DecidableEq

namespace SigningContext

def tag : SigningContext → String
  | detached false _ _ => tagSign
  | detached true _ _ => tagSignLegacy
  | trailer _ _ => tagAuth

def transcript : SigningContext → Bytes
  | detached _ timestamp msgDigest => (tsAndDigest timestamp msgDigest).toList
  | trailer hmac16 ptDigest => (authTranscript hmac16 ptDigest).toList

/-- What is hashed in the end. -/
def message (crates : Crates) (context : SigningContext) : Bytes :=
  let tagHash := crates.digests.sha256 (Text.utf8 context.tag)
  tagHash.toList ++ tagHash.toList ++ context.transcript

def hash (crates : Crates) (context : SigningContext) : FixedBytes 32 :=
  taggedHash crates context.tag context.transcript

theorem hash_eq (crates : Crates) (context : SigningContext) :
    context.hash crates = crates.digests.sha256 (context.message crates) := rfl

/-- Tag and transcript are the whole statement. -/
theorem eq_of_tag_of_transcript {left right : SigningContext} (tags : left.tag = right.tag)
    (transcripts : left.transcript = right.transcript) : left = right := by
  have separated : tagSign ≠ tagSignLegacy ∧ tagSign ≠ tagAuth ∧ tagSignLegacy ≠ tagAuth := by
    decide
  have fields : ∀ {first second : Nat} {front front' : FixedBytes first}
      {back back' : FixedBytes second},
      (front.append back).toList = (front'.append back').toList →
      front = front' ∧ back = back' := by
    intro first second front front' back back' same
    obtain ⟨fronts, backs⟩ := List.append_inj same (by
      rw [FixedBytes.length_toList, FixedBytes.length_toList])
    exact ⟨FixedBytes.ext fronts, FixedBytes.ext backs⟩
  cases left with
  | detached legacy timestamp msgDigest =>
      cases right with
      | detached legacy' timestamp' msgDigest' =>
          obtain ⟨times, digests⟩ := fields transcripts
          have kinds : legacy = legacy' := by
            cases legacy <;> cases legacy'
            · rfl
            · exact absurd tags separated.1
            · exact absurd tags.symm separated.1
            · rfl
          rw [kinds, u32Be_injective times, digests]
      | trailer hmac16 ptDigest =>
          cases legacy
          · exact absurd tags separated.2.1
          · exact absurd tags separated.2.2
  | trailer hmac16 ptDigest =>
      cases right with
      | detached legacy timestamp msgDigest =>
          cases legacy
          · exact absurd tags.symm separated.2.1
          · exact absurd tags.symm separated.2.2
      | trailer hmac16' ptDigest' =>
          obtain ⟨hmacs, digests⟩ := fields transcripts
          rw [hmacs, digests]

end SigningContext

/-- The tags signatures are made under. -/
def signingTags : List String := [tagSign, tagSignLegacy, tagAuth]

/-- SHA-256 has no collision among the messages hashed for these statements: the tags, and
the tagged transcripts. -/
def CollisionFree (crates : Crates) (contexts : Set SigningContext) : Prop :=
  Set.InjOn crates.digests.sha256
    ({message | ∃ tag ∈ signingTags, message = Text.utf8 tag} ∪
      SigningContext.message crates '' contexts)

theorem tag_mem_signingTags (context : SigningContext) : context.tag ∈ signingTags := by
  cases context with
  | detached legacy _ _ => cases legacy <;> simp [SigningContext.tag, signingTags]
  | trailer _ _ => simp [SigningContext.tag, signingTags]

/-- The hash that is signed determines the statement. -/
theorem CollisionFree.hash_injOn {crates : Crates} {contexts : Set SigningContext}
    (free : CollisionFree crates contexts) :
    Set.InjOn (SigningContext.hash crates) contexts := by
  intro left known right known' same
  have messages : left.message crates = right.message crates :=
    free (.inr ⟨left, known, rfl⟩) (.inr ⟨right, known', rfl⟩) same
  obtain ⟨tagHashes, transcripts⟩ := List.append_inj messages (by simp)
  obtain ⟨tagHash, _⟩ := List.append_inj tagHashes (by simp)
  have tags : Text.utf8 left.tag = Text.utf8 right.tag :=
    free (.inl ⟨_, tag_mem_signingTags left, rfl⟩) (.inl ⟨_, tag_mem_signingTags right, rfl⟩)
      (FixedBytes.ext tagHash)
  exact SigningContext.eq_of_tag_of_transcript (Text.utf8_injective tags) transcripts

/-! ## Signings -/

section Acts

variable (crates : Crates)

/-- One signing: the key, and what it was used for. -/
structure SigningAct where
  key : crates.curve.SigningKey
  context : SigningContext

variable {crates}

namespace SigningAct

def signer (act : SigningAct crates) : FixedBytes 32 := crates.curve.publicBytes act.key

/-- The encoded signature a signing makes. -/
def Yields (act : SigningAct crates) (bytes : FixedBytes 64) : Prop :=
  ∃ signature, crates.curve.signRaw act.key (act.context.hash crates) (FixedBytes.zeros 32) =
    .ok signature ∧ crates.curve.signatureBytes signature = bytes

end SigningAct

/-- `sign_stream_payload` is a signing of the timestamp and the digest. -/
theorem signStreamPayload_eq_ok_iff {key : crates.curve.SigningKey} {msgDigest : FixedBytes 32}
    {timestamp : UInt32} {payload : SignaturePayload} :
    signStreamPayload crates key msgDigest timestamp = .ok payload ↔
      ∃ bytes, (SigningAct.mk key (.detached false timestamp msgDigest)).Yields bytes ∧
        payload = signaturePayload timestamp (crates.curve.publicBytes key) bytes := by
  unfold signStreamPayload
  constructor
  · intro made
    cases signing : crates.curve.signRaw key
        (taggedHash crates tagSign (tsAndDigest timestamp msgDigest).toList)
        (FixedBytes.zeros 32) with
    | error e =>
        simp only [signing] at made
        cases made
    | ok signature =>
        simp only [signing] at made
        cases made
        exact ⟨_, ⟨signature, signing, rfl⟩, rfl⟩
  · rintro ⟨_, ⟨signature, signing, rfl⟩, rfl⟩
    change crates.curve.signRaw key
      (taggedHash crates tagSign (tsAndDigest timestamp msgDigest).toList)
      (FixedBytes.zeros 32) = _ at signing
    simp only [signing]
    rfl

/-- The Mode 1 trailer is a signing of the header HMAC and the plaintext's digest. -/
theorem trailerSigned_iff {host : Host} {session : EncryptSession crates}
    {key : crates.curve.SigningKey} (sender : session.sender = some key)
    {plaintext trailer : Bytes} :
    TrailerSigned host session plaintext trailer ↔ ∃ bytes,
      (SigningAct.mk key
        (.trailer (session.hmac16 host) (crates.digests.sha256 plaintext))).Yields bytes ∧
      trailer = (crates.curve.publicBytes key).toList ++ bytes.toList := by
  simp only [TrailerSigned, sender]
  constructor
  · rintro ⟨signature, signing, trailer_eq⟩
    exact ⟨_, ⟨signature, signing, rfl⟩, trailer_eq⟩
  · rintro ⟨_, ⟨signature, signing, rfl⟩, trailer_eq⟩
    exact ⟨signature, signing, trailer_eq⟩

/-- What is taken of secp256k1 signatures, of which these are all that were ever made: only
what was made is accepted, and a signature value stems from one key and one hash (BIP-340
derives the nonce from both). -/
structure OnlyMadeAccepted (acts : Set (SigningAct crates)) : Prop where
  unforgeable : ∀ pk bytes verifier signature hash, crates.curve.verifyingKey pk = .ok verifier →
    crates.curve.signature bytes = .ok signature →
    crates.curve.verifyRaw verifier hash signature = .ok () →
    ∃ act ∈ acts, act.signer = pk ∧ act.context.hash crates = hash ∧ act.Yields bytes
  once : ∀ act ∈ acts, ∀ other ∈ acts, ∀ bytes, act.Yields bytes → other.Yields bytes →
    act.signer = other.signer ∧ act.context.hash crates = other.context.hash crates

/-! ## Binding -/

/-- The statements a verifier checks a payload against. -/
def detachedContexts (payload : SignaturePayload) (msgDigest : FixedBytes 32) :
    Set SigningContext :=
  {context | ∃ legacy,
    context = .detached legacy (u32FromBe (payload.slice 5 4 payload_timestamp)) msgDigest}

variable {acts : Set (SigningAct crates)} {contexts : Set SigningContext}

/-- An accepted payload was made, by the key it names, for its timestamp and the digest. -/
theorem OnlyMadeAccepted.detached (only : OnlyMadeAccepted acts)
    (free : CollisionFree crates contexts) (known : ∀ act ∈ acts, act.context ∈ contexts)
    {payload : SignaturePayload} {msgDigest : FixedBytes 32}
    (checked : detachedContexts payload msgDigest ⊆ contexts)
    (verifies : PayloadVerifies crates payload msgDigest) :
    ∃ act ∈ acts, act.signer = payload.slice 9 32 ∧
      act.context ∈ detachedContexts payload msgDigest ∧ act.Yields (payload.slice 41 64) := by
  obtain ⟨verifier, signature, key, framed, tag, named, accepted⟩ := verifies.signed
  obtain ⟨legacy, tagged⟩ : ∃ legacy,
      SigningContext.hash crates (.detached legacy (u32FromBe (payload.slice 5 4)) msgDigest) =
        taggedHash crates tag (tsAndDigest (u32FromBe (payload.slice 5 4)) msgDigest).toList := by
    rcases named with rfl | rfl
    · exact ⟨false, rfl⟩
    · exact ⟨true, rfl⟩
  obtain ⟨act, member, signer, hashed, yields⟩ :=
    only.unforgeable _ _ verifier signature _ key framed accepted
  refine ⟨act, member, signer, ?_, yields⟩
  have context := free.hash_injOn (known act member) (checked ⟨legacy, rfl⟩)
    (hashed.trans tagged.symm)
  exact ⟨legacy, context⟩

/-- An accepted trailer was made as one. -/
theorem OnlyMadeAccepted.trailer (only : OnlyMadeAccepted acts)
    (free : CollisionFree crates contexts) (known : ∀ act ∈ acts, act.context ∈ contexts)
    {hmac16 : FixedBytes 16} {hashed : Bytes} {trailer : FixedBytes trailerSize}
    (checked : .trailer hmac16 (crates.digests.sha256 hashed) ∈ contexts)
    (accepted : verifyTrailer crates hmac16 hashed trailer = .ok ()) :
    ∃ act ∈ acts, act.signer = trailer.slice 0 32 ∧
      act.context = .trailer hmac16 (crates.digests.sha256 hashed) ∧
      act.Yields (trailer.slice 32 64) := by
  obtain ⟨verifier, signature, key, framed, verified⟩ := verifyTrailer_eq_ok_iff.mp accepted
  obtain ⟨act, member, signer, hash_eq, yields⟩ :=
    only.unforgeable _ _ verifier signature _ key framed verified
  exact ⟨act, member, signer, free.hash_injOn (known act member) checked hash_eq, yields⟩

/-- Signings that make the same signature are one and the same. -/
theorem OnlyMadeAccepted.same (only : OnlyMadeAccepted acts)
    (free : CollisionFree crates contexts) (known : ∀ act ∈ acts, act.context ∈ contexts)
    {act other : SigningAct crates} (member : act ∈ acts) (member' : other ∈ acts)
    {bytes : FixedBytes 64} (yields : act.Yields bytes) (yields' : other.Yields bytes) :
    act.signer = other.signer ∧ act.context = other.context := by
  obtain ⟨signers, hashes⟩ := only.once act member other member' bytes yields yields'
  exact ⟨signers, free.hash_injOn (known act member) (known other member') hashes⟩

end Acts

/-! ## What verification binds -/

/-- An accepted payload was signed, for its timestamp and the digest, by the key it names. A
trailer's signature is in no accepted payload, a payload's in no accepted trailer, and with
another timestamp, key or digest an accepted payload's signature is refused. -/
theorem verifyStreamPayload_binds (crates : Crates) (acts : Set (SigningAct crates))
    (contexts : Set SigningContext) (free : CollisionFree crates contexts)
    (known : ∀ act ∈ acts, act.context ∈ contexts) (only : OnlyMadeAccepted acts)
    (payload : SignaturePayload) (msgDigest : FixedBytes 32)
    (checked : detachedContexts payload msgDigest ⊆ contexts) :
    (∀ pk, verifyStreamPayload crates payload msgDigest = .ok pk →
      ∃ act ∈ acts, act.signer = pk ∧ act.context ∈ detachedContexts payload msgDigest ∧
        act.Yields (payload.slice 41 64)) ∧
    (∀ act ∈ acts, ∀ hmac16 ptDigest, act.context = .trailer hmac16 ptDigest →
      act.Yields (payload.slice 41 64) →
      ∀ pk, verifyStreamPayload crates payload msgDigest ≠ .ok pk) ∧
    (∀ act ∈ acts, ∀ legacy timestamp digest, act.context = .detached legacy timestamp digest →
      ∀ trailer hmac16 hashed, .trailer hmac16 (crates.digests.sha256 hashed) ∈ contexts →
      act.Yields (trailer.slice 32 64) → verifyTrailer crates hmac16 hashed trailer ≠ .ok ()) ∧
    (∀ pk, verifyStreamPayload crates payload msgDigest = .ok pk →
      ∀ payload' msgDigest', detachedContexts payload' msgDigest' ⊆ contexts →
      payload'.slice 41 64 = payload.slice 41 64 →
      payload'.slice 5 4 ≠ payload.slice 5 4 ∨ payload'.slice 9 32 ≠ payload.slice 9 32 ∨
        msgDigest' ≠ msgDigest →
      ∀ pk', verifyStreamPayload crates payload' msgDigest' ≠ .ok pk') := by
  have signed : ∀ payload msgDigest pk, detachedContexts payload msgDigest ⊆ contexts →
      verifyStreamPayload crates payload msgDigest = .ok pk →
      ∃ act ∈ acts, act.signer = payload.slice 9 32 ∧
        act.context ∈ detachedContexts payload msgDigest ∧ act.Yields (payload.slice 41 64) :=
    fun _ _ _ checked accepted =>
      only.detached free known checked ((verifyStreamPayload_eq_ok_iff crates).mp accepted).1
  refine ⟨?_, ?_, ?_, ?_⟩
  · intro pk accepted
    obtain ⟨act, member, signer, context, yields⟩ := signed payload msgDigest pk checked accepted
    have named := ((verifyStreamPayload_eq_ok_iff crates).mp accepted).2
    exact ⟨act, member, signer.trans named.symm, context, yields⟩
  · intro act member hmac16 ptDigest context yields pk accepted
    obtain ⟨other, member', _, ⟨legacy, context'⟩, yields'⟩ :=
      signed payload msgDigest pk checked accepted
    have same := (only.same free known member member' yields yields').2
    rw [context, context'] at same
    cases same
  · intro act member legacy timestamp digest context trailer hmac16 hashed checked' yields accepted
    obtain ⟨other, member', _, context', yields'⟩ :=
      only.trailer free known checked' accepted
    have same := (only.same free known member member' yields yields').2
    rw [context, context'] at same
    cases same
  · intro pk accepted payload' msgDigest' checked' carried changed pk' accepted'
    obtain ⟨act, member, signer, ⟨legacy, context⟩, yields⟩ :=
      signed payload msgDigest pk checked accepted
    obtain ⟨other, member', signer', ⟨legacy', context'⟩, yields'⟩ :=
      signed payload' msgDigest' pk' checked' accepted'
    rw [carried] at yields'
    obtain ⟨signers, same⟩ := only.same free known member member' yields yields'
    rw [context, context', SigningContext.detached.injEq] at same
    obtain ⟨_, times, digests⟩ := same
    have fields : payload'.slice 5 4 = payload.slice 5 4 := by
      rw [← u32Be_u32FromBe (payload'.slice 5 4), ← times, u32Be_u32FromBe]
    rcases changed with time | key | digest
    · exact time fields
    · exact key (signer'.symm.trans (signers.symm.trans signer))
    · exact digest digests.symm

/-! ### Two signings of the key 3 -/

section Sample

open Reference

def sampleDigest : FixedBytes 32 :=
  fieldBytes 0x2cf24dba5fb0a30e26e83b2ac5b9e29e1b161e5c1fa7425e73043362938b9824

/-- The header HMAC of the sample stream in Mode 1. -/
def sampleHmac16 : FixedBytes 16 :=
  ⟨beList 16 0x35052e733d63f91ed50e00a0537f9521, length_beList 16 _⟩

def sampleDetached : SigningContext := .detached false 1700000000 sampleDigest

def sampleTrailer : SigningContext := .trailer sampleHmac16 sampleDigest

def sampleContexts : List SigningContext :=
  [sampleDetached, .detached true 1700000000 sampleDigest, sampleTrailer]

/-- The hashes signed for a detached signature and for a trailer over the sample data. -/
def detachedHash : FixedBytes 32 :=
  fieldBytes 0x87c623179b6506bd14f9f6113d5659ddf2891840be78a974008e2a92375c69b6

def trailerHash : FixedBytes 32 :=
  fieldBytes 0xa59a6b02c42b8c69801dde80a87871c8a484743c08d08c702bfc7d334f7dcd6b

def sampleMessages : List Bytes :=
  signingTags.map Text.utf8 ++ sampleContexts.map (SigningContext.message packages)

theorem sampleMessages_hashes : sampleMessages.map packages.digests.sha256 =
    [0xa615e61bab380853b8df2ce6e2535818aaddb953e653808b3bcf06cd8afd281d,
      0x66fff851888fe953d2554a402d2c21734d137688f269369cda06ce2b2799b581,
      0x29a68170ebf0a6f8095bd3d0c82a51fcd7ead965a37fb14739d485160dbca48f,
      0x87c623179b6506bd14f9f6113d5659ddf2891840be78a974008e2a92375c69b6,
      0xe4f5dfb5fdd3044dfc3556c8fd2c94140c2fff92aa0ac8bf1b45c4f3ddb842c4,
      0xa59a6b02c42b8c69801dde80a87871c8a484743c08d08c702bfc7d334f7dcd6b].map fieldBytes := by
  decide +kernel

/-- Of the reference curve's signatures, those that the key 3 made for these two hashes. -/
def verifySigned (key hash : FixedBytes 32) (sig : FixedBytes 64) : Except String Unit :=
  if key = publicBytes sampleSender ∧ (hash = detachedHash ∨ hash = trailerHash) then
    verifyRaw key hash sig
  else .error "signature error"

def signedPackages : Crates :=
  { packages with curve := { curve with verifyRaw := verifySigned } }

def sampleActs : Set (SigningAct signedPackages) :=
  {⟨sampleSender, sampleDetached⟩, ⟨sampleSender, sampleTrailer⟩}

theorem sampleHashes : sampleDetached.hash signedPackages = detachedHash ∧
    sampleTrailer.hash signedPackages = trailerHash := by
  have hashes := sampleMessages_hashes
  simp only [sampleMessages, sampleContexts, signingTags, List.map_cons, List.map_nil,
    List.cons_append, List.nil_append, List.cons.injEq] at hashes
  exact ⟨hashes.2.2.2.1, hashes.2.2.2.2.2.1⟩

theorem sampleCollisionFree :
    CollisionFree signedPackages {context | context ∈ sampleContexts} := by
  have distinct : (sampleMessages.map packages.digests.sha256).Nodup := by
    rw [sampleMessages_hashes]
    decide +kernel
  have listed : ∀ message, message ∈ ({message | ∃ tag ∈ signingTags, message = Text.utf8 tag} ∪
      SigningContext.message signedPackages '' {context | context ∈ sampleContexts}) →
      message ∈ sampleMessages := by
    rintro message (⟨tag, member, rfl⟩ | ⟨context, member, rfl⟩)
    · exact List.mem_append_left _ (List.mem_map_of_mem member)
    · exact List.mem_append_right _ (List.mem_map_of_mem member)
  intro left member right member' same
  exact List.inj_on_of_nodup_map distinct (listed left member) (listed right member') same

theorem sampleAct_yields {act : SigningAct signedPackages} (member : act ∈ sampleActs)
    {bytes : FixedBytes 64} : act.Yields bytes ↔
      signature (publicBytes sampleSender) (act.context.hash signedPackages) = bytes := by
  have key : act.key = sampleSender := by
    rcases member with rfl | rfl
    · rfl
    · rfl
  constructor
  · rintro ⟨sig, signing, rfl⟩
    rw [key] at signing
    exact Except.ok.inj signing
  · rintro rfl
    refine ⟨_, ?_, rfl⟩
    rw [key]
    rfl

theorem sampleOnlyMadeAccepted : OnlyMadeAccepted sampleActs where
  unforgeable pk bytes verifier sig hash decoded framed verified := by
    have named : pk = verifier := by
      change verifyingKey pk = _ at decoded
      unfold verifyingKey at decoded
      split at decoded
      · exact Except.ok.inj decoded
      · cases decoded
    have same : bytes = sig := Except.ok.inj framed
    subst named same
    change verifySigned pk hash bytes = _ at verified
    unfold verifySigned verifyRaw at verified
    split at verified
    · next made =>
        obtain ⟨rfl, hashes⟩ := made
        split at verified
        · next signed =>
            rcases hashes with rfl | rfl
            · refine ⟨⟨sampleSender, sampleDetached⟩, .inl rfl, rfl, sampleHashes.1, ?_⟩
              rw [sampleAct_yields (.inl rfl), sampleHashes.1, signed]
            · refine ⟨⟨sampleSender, sampleTrailer⟩, .inr rfl, rfl, sampleHashes.2, ?_⟩
              rw [sampleAct_yields (.inr rfl), sampleHashes.2, signed]
        · cases verified
    · cases verified
  once act member other member' bytes yields yields' := by
    have differ : signature (publicBytes sampleSender) detachedHash ≠
        signature (publicBytes sampleSender) trailerHash := by decide +kernel
    rw [sampleAct_yields member] at yields
    rw [sampleAct_yields member', ← yields] at yields'
    rcases member with rfl | rfl
    · rcases member' with rfl | rfl
      · exact ⟨rfl, rfl⟩
      · rw [sampleHashes.1, sampleHashes.2] at yields'
        exact absurd yields'.symm differ
    · rcases member' with rfl | rfl
      · rw [sampleHashes.1, sampleHashes.2] at yields'
        exact absurd yields' differ
      · exact ⟨rfl, rfl⟩

/-- The payload of the detached signing, with the signature for this hash in it. -/
def samplePayload (hash : FixedBytes 32) : SignaturePayload :=
  signaturePayload 1700000000 (publicBytes sampleSender) (signature (publicBytes sampleSender) hash)

theorem samplePayload_contexts (hash : FixedBytes 32) :
    detachedContexts (samplePayload hash) sampleDigest ⊆ {context | context ∈ sampleContexts} := by
  rintro context ⟨legacy, rfl⟩
  rw [samplePayload, signaturePayload_timestamp, u32FromBe_u32Be]
  cases legacy
  · exact List.mem_cons_self
  · exact List.mem_cons_of_mem _ List.mem_cons_self

theorem sampleActs_known :
    ∀ act ∈ sampleActs, act.context ∈ {context | context ∈ sampleContexts} := by
  rintro act (rfl | rfl)
  · exact List.mem_cons_self
  · exact List.mem_cons_of_mem _ (List.mem_cons_of_mem _ List.mem_cons_self)

/-- The payload is accepted. -/
theorem samplePayload_verifies : PayloadVerifies signedPackages (samplePayload detachedHash)
    sampleDigest where
  formed := signaturePayload_formed _ _ _
  signed := by
    refine ⟨publicBytes sampleSender, signature (publicBytes sampleSender) detachedHash, ?_, ?_,
      tagSign, .inl rfl, ?_⟩
    · rw [samplePayload, signaturePayload_signer]
      exact verifyingKey_publicBytes sampleSender
    · rw [samplePayload, signaturePayload_signature]
      rfl
    · rw [samplePayload, signaturePayload_timestamp, u32FromBe_u32Be]
      change verifySigned _ (sampleDetached.hash signedPackages) _ = _
      rw [sampleHashes.1, verifySigned, if_pos ⟨rfl, .inl rfl⟩, verifyRaw, if_pos rfl]

end Sample

open Reference in
/-- The detached signature of the key 3 is accepted as one; its trailer signature is not. -/
theorem verifyStreamPayload_binds_sample :
    (∃ act ∈ sampleActs, act.signer = publicBytes sampleSender ∧
      act.context ∈ detachedContexts (samplePayload detachedHash) sampleDigest) ∧
    verifyStreamPayload signedPackages (samplePayload trailerHash) sampleDigest ≠
      .ok (publicBytes sampleSender) := by
  have binds := fun hash => verifyStreamPayload_binds signedPackages sampleActs
    {context | context ∈ sampleContexts} sampleCollisionFree sampleActs_known
    sampleOnlyMadeAccepted (samplePayload hash) sampleDigest (samplePayload_contexts hash)
  constructor
  · obtain ⟨act, member, signer, context, _⟩ := (binds detachedHash).1 (publicBytes sampleSender)
      ((verifyStreamPayload_eq_ok_iff signedPackages).mpr ⟨samplePayload_verifies, by
        rw [samplePayload, signaturePayload_signer]⟩)
    exact ⟨act, member, signer, context⟩
  · refine (binds trailerHash).2.1 ⟨sampleSender, sampleTrailer⟩ (.inr rfl) sampleHmac16
      sampleDigest rfl ?_ (publicBytes sampleSender)
    rw [sampleAct_yields (.inr rfl), sampleHashes.2, samplePayload, signaturePayload_signature]

end PipeK1

import PipeK1.Library.ByteData

/-!
# Authenticated encryption with detached tags

The interface of an AEAD that encrypts a buffer in place, the two properties
developments rely on (opening inverts sealing; opening accepts only what was
sealed), and what the second one gives for a log whose entries are numbered.
-/

set_option autoImplicit false

namespace SealedData

open ByteData

/-- An AEAD working in place on the caller's buffer, so that no operation can
change its length. `Key`, `Nonce` and `Tag` are the cipher's own types. -/
structure Aead (Key Nonce Tag : Type) where
  encrypt : Key → Nonce → Bytes → Bytes → Except String (Bytes × Tag)
  decrypt : Key → Nonce → Bytes → Bytes → Tag → Except String Bytes
  length_encrypt : ∀ {key nonce aad plaintext ciphertext tag},
    encrypt key nonce aad plaintext = .ok (ciphertext, tag) →
      ciphertext.length = plaintext.length
  length_decrypt : ∀ {key nonce aad ciphertext tag plaintext},
    decrypt key nonce aad ciphertext tag = .ok plaintext →
      plaintext.length = ciphertext.length

/-- One sealed message with everything that was bound to it. -/
structure Sealing (Nonce Tag : Type) where
  nonce : Nonce
  aad : Bytes
  plaintext : Bytes
  ciphertext : Bytes
  tag : Tag
deriving DecidableEq

namespace Aead

variable {Key Nonce Tag : Type} (aead : Aead Key Nonce Tag)

/-- Under `key`, messages of at most `limit` bytes can be sealed. -/
def SealsUpTo (key : Key) (limit : Nat) : Prop :=
  ∀ nonce aad plaintext, plaintext.length ≤ limit →
    ∃ ciphertext tag, aead.encrypt key nonce aad plaintext = .ok (ciphertext, tag)

/-- Under `key`, messages of at most `limit` bytes can be sealed and open again. -/
def Inverts (key : Key) (limit : Nat) : Prop :=
  ∀ nonce aad plaintext, plaintext.length ≤ limit →
    ∃ ciphertext tag, aead.encrypt key nonce aad plaintext = .ok (ciphertext, tag) ∧
      aead.decrypt key nonce aad ciphertext tag = .ok plaintext

/-- Under `key`, only messages sealed in `log` open, and they open to what was sealed. -/
def OpensOnly (key : Key) (log : List (Sealing Nonce Tag)) : Prop :=
  ∀ nonce aad ciphertext tag plaintext,
    aead.decrypt key nonce aad ciphertext tag = .ok plaintext →
      ⟨nonce, aad, plaintext, ciphertext, tag⟩ ∈ log

/-- Under `key`, what opens is what sealing its plaintext gives. -/
def OpensSealed (key : Key) : Prop :=
  ∀ nonce aad ciphertext tag plaintext,
    aead.decrypt key nonce aad ciphertext tag = .ok plaintext →
      aead.encrypt key nonce aad plaintext = .ok (ciphertext, tag)

variable {aead}

theorem Inverts.sealsUpTo {key : Key} {limit : Nat} (inverts : aead.Inverts key limit) :
    aead.SealsUpTo key limit := by
  intro nonce aad plaintext small
  obtain ⟨ciphertext, tag, sealed, _⟩ := inverts nonce aad plaintext small
  exact ⟨ciphertext, tag, sealed⟩

theorem Inverts.decrypt_encrypt {key : Key} {limit : Nat} (inverts : aead.Inverts key limit)
    {nonce : Nonce} {aad plaintext ciphertext : Bytes} {tag : Tag}
    (small : plaintext.length ≤ limit)
    (sealed : aead.encrypt key nonce aad plaintext = .ok (ciphertext, tag)) :
    aead.decrypt key nonce aad ciphertext tag = .ok plaintext := by
  obtain ⟨ciphertext', tag', sealed', opened⟩ := inverts nonce aad plaintext small
  rw [sealed] at sealed'
  cases sealed'
  exact opened

theorem OpensOnly.mono {key : Key} {log log' : List (Sealing Nonce Tag)}
    (ideal : aead.OpensOnly key log) (wider : log ⊆ log') : aead.OpensOnly key log' :=
  fun nonce aad ciphertext tag plaintext opened =>
    wider (ideal nonce aad ciphertext tag plaintext opened)

/-! ## An ideal cipher from a real one -/

section Restrict

variable [DecidableEq Key] [DecidableEq Nonce] [DecidableEq Tag] (aead) (key : Key)
  (log : List (Sealing Nonce Tag))

/-- The same cipher, which under `key` opens nothing but what is in `log`. -/
def restrict : Aead Key Nonce Tag where
  encrypt := aead.encrypt
  decrypt key' nonce aad ciphertext tag :=
    match aead.decrypt key' nonce aad ciphertext tag with
    | .error error => .error error
    | .ok plaintext =>
        if key' ≠ key ∨ ⟨nonce, aad, plaintext, ciphertext, tag⟩ ∈ log then .ok plaintext
        else .error "not in the log"
  length_encrypt := aead.length_encrypt
  length_decrypt := by
    intro key' nonce aad ciphertext tag plaintext opened
    split at opened
    · cases opened
    · next decrypted =>
        split at opened
        · cases opened
          exact aead.length_decrypt decrypted
        · cases opened

theorem restrict_decrypt_iff {key' : Key} {nonce : Nonce} {aad ciphertext plaintext : Bytes}
    {tag : Tag} :
    (aead.restrict key log).decrypt key' nonce aad ciphertext tag = .ok plaintext ↔
      aead.decrypt key' nonce aad ciphertext tag = .ok plaintext ∧
        (key' = key → ⟨nonce, aad, plaintext, ciphertext, tag⟩ ∈ log) := by
  rw [imp_iff_not_or]
  simp only [restrict]
  cases aead.decrypt key' nonce aad ciphertext tag with
  | error error => simp
  | ok opened =>
      simp only [Except.ok.injEq]
      constructor
      · intro allowed
        split at allowed
        · next logged =>
            cases allowed
            exact ⟨rfl, logged⟩
        · cases allowed
      · rintro ⟨rfl, logged⟩
        rw [if_pos logged]

theorem restrict_opensOnly : (aead.restrict key log).OpensOnly key log :=
  fun _ _ _ _ _ opened => ((aead.restrict_decrypt_iff key log).mp opened).2 rfl

/-- The same cipher, which under each of `keys` opens nothing but what is in that key's log. -/
def restrictEach (logs : Key → List (Sealing Nonce Tag)) (keys : List Key) :
    Aead Key Nonce Tag :=
  keys.foldr (fun key restricted => restricted.restrict key (logs key)) aead

variable (logs : Key → List (Sealing Nonce Tag)) {keys : List Key}

theorem restrictEach_encrypt : (aead.restrictEach logs keys).encrypt = aead.encrypt := by
  induction keys with
  | nil => rfl
  | cons key keys ih => exact ih

theorem restrictEach_decrypt_iff {key : Key} {nonce : Nonce} {aad ciphertext plaintext : Bytes}
    {tag : Tag} :
    (aead.restrictEach logs keys).decrypt key nonce aad ciphertext tag = .ok plaintext ↔
      aead.decrypt key nonce aad ciphertext tag = .ok plaintext ∧
        (key ∈ keys → ⟨nonce, aad, plaintext, ciphertext, tag⟩ ∈ logs key) := by
  induction keys with
  | nil => simp [restrictEach]
  | cons first keys ih =>
      rw [restrictEach, List.foldr_cons, restrict_decrypt_iff, ← restrictEach, ih, and_assoc,
        List.mem_cons, or_imp, and_comm (a := key ∈ keys → _)]
      refine and_congr_right fun _ => and_congr_left fun _ => ?_
      constructor
      · rintro logged rfl
        exact logged rfl
      · rintro logged rfl
        exact logged rfl

theorem restrictEach_opensOnly {key : Key} (member : key ∈ keys) :
    (aead.restrictEach logs keys).OpensOnly key (logs key) :=
  fun _ _ _ _ _ opened => ((aead.restrictEach_decrypt_iff logs).mp opened).2 member

end Restrict

end Aead

/-! ## Numbered logs -/

section Numbered

variable {α ι : Type}

/-- Entries that come from a numbered log and carry their own position's number
are the log's first entries, in order. -/
theorem prefix_of_numbered {log taken : List α} (number : α → ι) (position : Nat → ι)
    (numbered : ∀ i entry, log[i]? = some entry → number entry = position i)
    (distinct : ∀ i j, i < log.length → j < taken.length → position i = position j → i = j)
    (comes : ∀ j entry, taken[j]? = some entry → entry ∈ log ∧ number entry = position j) :
    taken <+: log := by
  rw [List.prefix_iff_eq_take]
  apply List.ext_getElem?
  intro j
  by_cases inside : j < taken.length
  · have found : taken[j]? = some taken[j] := List.getElem?_eq_getElem inside
    obtain ⟨member, number_j⟩ := comes j _ found
    obtain ⟨i, at_i⟩ := List.mem_iff_getElem?.mp member
    have bound : i < log.length := by
      by_contra outside
      rw [List.getElem?_eq_none (Nat.le_of_not_lt outside)] at at_i
      cases at_i
    have same : i = j :=
      distinct i j bound inside ((numbered i _ at_i).symm.trans number_j)
    subst same
    rw [found, List.getElem?_take_of_lt inside, at_i]
  · rw [List.getElem?_eq_none (Nat.le_of_not_lt inside),
      List.getElem?_eq_none (by rw [List.length_take]; omega)]

end Numbered

end SealedData

import PipeK1.Library.Text
import Mathlib.Data.List.Forall2
import Mathlib.Data.List.TakeWhile

/-!
# The process environment

`scrub_env_var` and `scrub_all_sensitive_env` over the strings behind `environ`,
and when the secrets are really overwritten.
-/

set_option autoImplicit false

namespace PipeK1

open ByteData

/-! ## Scrubbing -/

/-- A string of the block, and whether `environ` still points at it. -/
structure EnvEntry where
  bytes : Bytes
  linked : Bool
deriving DecidableEq

/-- The strings in the order of `environ`. -/
abbrev EnvBlock := List EnvEntry

namespace EnvEntry

/-- What `CStr::from_ptr` finds: the bytes up to the first zero. -/
def cStr (entry : EnvEntry) : Bytes := entry.bytes.takeWhile (· ≠ 0)

/-- The string is `name=..`. -/
def named (name : Bytes) (entry : EnvEntry) : Bool := (name ++ [0x3d]).isPrefixOf entry.cStr

/-- `to_str` succeeds and the text starts with `key=`. -/
def matchesKey (key : String) (entry : EnvEntry) : Bool :=
  (Text.fromUtf8 entry.cStr).isSome && (Text.utf8 (key ++ "=")).isPrefixOf entry.cStr

/-- `write_bytes` of zeros over the whole string, the name included. -/
def zeroed (entry : EnvEntry) : EnvEntry :=
  { entry with bytes :=
      List.replicate entry.cStr.length 0 ++ entry.bytes.drop entry.cStr.length }

end EnvEntry

/-- The scan of `scrub_env_var`; it ends at the first match. -/
def zeroFirst (key : String) : EnvBlock → EnvBlock
  | [] => []
  | entry :: block =>
      if entry.linked && entry.matchesKey key then entry.zeroed :: block
      else entry :: zeroFirst key block

/-- `env::remove_var`: every entry of the name is unlinked, none is overwritten. -/
def removeVar (key : String) (block : EnvBlock) : EnvBlock :=
  block.map fun entry =>
    if entry.named (Text.utf8 key) then { entry with linked := false } else entry

def scrubEnvVar (key : String) (block : EnvBlock) : EnvBlock := removeVar key (zeroFirst key block)

/-- The six secret variables, in the order they are scrubbed. -/
def secretKeys : List String :=
  ["PIPE_K1_SEC_KEY", "PIPEK1_SEC_KEY", "PIPE_K1_MNEMONIC", "PIPEK1_MNEMONIC",
    "PIPE_K1_PASSPHRASE", "PIPEK1_PASSPHRASE"]

def scrubAllSensitiveEnv (block : EnvBlock) : EnvBlock :=
  secretKeys.foldl (fun block key => scrubEnvVar key block) block

/-- `getenv`: the value of the first linked entry of the name. -/
def lookup (name : Bytes) (block : EnvBlock) : Option Bytes :=
  (block.find? fun entry => entry.linked && entry.named name).map fun entry =>
    entry.cStr.drop (name.length + 1)

/-- The block a process starts with. -/
def startBlock (entries : List Bytes) : EnvBlock := entries.map fun bytes => ⟨bytes, true⟩

/-! ## Names -/

theorem utf8_key_eq (key : String) : Text.utf8 (key ++ "=") = Text.utf8 key ++ [0x3d] := by
  rw [Text.utf8_append]
  exact congrArg (Text.utf8 key ++ ·) (by decide +kernel)

/-- Names without `=`. -/
def PlainName (name : Bytes) : Prop := (0x3d : UInt8) ∉ name

/-- An entry has one name. -/
theorem named_unique {name other : Bytes} (plain : PlainName name) (plain' : PlainName other)
    {entry : EnvEntry} (named : entry.named name = true) (named' : entry.named other = true) :
    name = other := by
  have front : ∀ {front : Bytes}, PlainName front → entry.named front = true →
      entry.cStr.takeWhile (· ≠ 0x3d) = front := by
    intro front plain named
    obtain ⟨value, whole⟩ := List.isPrefixOf_iff_prefix.mp named
    rw [← whole, List.append_assoc, List.takeWhile_append_of_pos]
    · simp
    · intro byte member
      rw [decide_eq_true_iff]
      rintro rfl
      exact plain member
  rw [← front plain named, ← front plain' named']

theorem secretKeys_plain : ∀ key ∈ secretKeys, PlainName (Text.utf8 key) := by
  unfold PlainName
  decide +kernel

/-- The entry at the start of the process. -/
def SecretOf (key : String) (bytes : Bytes) : Prop :=
  (EnvEntry.mk bytes true).named (Text.utf8 key) = true

instance (key : String) (bytes : Bytes) : Decidable (SecretOf key bytes) :=
  inferInstanceAs (Decidable (_ = true))

def IsSecret (bytes : Bytes) : Prop := ∃ key ∈ secretKeys, SecretOf key bytes

theorem SecretOf.unique {key other : String} (known : key ∈ secretKeys)
    (known' : other ∈ secretKeys) {bytes : Bytes} (secret : SecretOf key bytes)
    (secret' : SecretOf other bytes) : key = other :=
  Text.utf8_injective (named_unique (secretKeys_plain key known) (secretKeys_plain other known')
    secret secret')

/-! ## One name after the other -/

/-- An entry that has been zeroed. -/
def zeros (bytes : Bytes) : EnvEntry := ⟨List.replicate bytes.length 0, true⟩

/-- What has become of an entry once the keys in `done` are scrubbed. -/
inductive Kept (done : List String) (bytes : Bytes) : EnvEntry → Prop where
  | untouched (other : ∀ key ∈ done, ¬ SecretOf key bytes) : Kept done bytes ⟨bytes, true⟩
  | unlinked {key : String} (member : key ∈ done) (secret : SecretOf key bytes) :
      Kept done bytes ⟨bytes, false⟩
  | zeroed {key : String} (member : key ∈ done) (secret : SecretOf key bytes) :
      Kept done bytes (zeros bytes)

theorem cStr_zeros (bytes : Bytes) : (zeros bytes).cStr = [] := by
  cases bytes with
  | nil => rfl
  | cons byte bytes => rfl

theorem named_zeros (name bytes : Bytes) : (zeros bytes).named name = false := by
  rw [EnvEntry.named, cStr_zeros]
  cases name <;> rfl

theorem SecretOf.of_matches {key : String} {entry : EnvEntry}
    (found : entry.matchesKey key = true) : entry.named (Text.utf8 key) = true := by
  rw [EnvEntry.matchesKey, utf8_key_eq, Bool.and_eq_true] at found
  exact found.2

/-- What `remove_var` does to an entry. -/
def unlink (key : String) (entry : EnvEntry) : EnvEntry :=
  if entry.named (Text.utf8 key) then { entry with linked := false } else entry

theorem bytes_unlink (key : String) (entry : EnvEntry) : (unlink key entry).bytes = entry.bytes := by
  unfold unlink
  split <;> rfl

theorem unlink_zeros (key : String) (bytes : Bytes) : unlink key (zeros bytes) = zeros bytes := by
  rw [unlink, named_zeros]
  rfl

theorem cStr_of_terminated {bytes : Bytes} (terminated : (0 : UInt8) ∉ bytes) (linked : Bool) :
    (EnvEntry.mk bytes linked).cStr = bytes := by
  rw [EnvEntry.cStr, List.takeWhile_eq_self_iff]
  intro byte member
  rw [decide_eq_true_iff]
  rintro rfl
  exact terminated member

theorem zeroed_of_terminated {bytes : Bytes} (terminated : (0 : UInt8) ∉ bytes) :
    (EnvEntry.mk bytes true).zeroed = zeros bytes := by
  rw [EnvEntry.zeroed, cStr_of_terminated terminated, List.drop_length, List.append_nil, zeros]

namespace Kept

variable {done : List String} {bytes : Bytes} {entry : EnvEntry} {key : String}

theorem unlink (kept : Kept done bytes entry) : Kept (key :: done) bytes (unlink key entry) := by
  cases kept with
  | untouched other =>
      by_cases secret : SecretOf key bytes
      · have found : PipeK1.unlink key ⟨bytes, true⟩ = ⟨bytes, false⟩ := if_pos secret
        rw [found]
        exact .unlinked List.mem_cons_self secret
      · have passed : PipeK1.unlink key ⟨bytes, true⟩ = ⟨bytes, true⟩ := if_neg secret
        rw [passed]
        refine .untouched fun name member => ?_
        rcases List.mem_cons.mp member with rfl | earlier
        · exact secret
        · exact other name earlier
  | unlinked member secret =>
      have same : PipeK1.unlink key ⟨bytes, false⟩ = ⟨bytes, false⟩ := by
        unfold PipeK1.unlink
        split <;> rfl
      rw [same]
      exact .unlinked (List.mem_cons_of_mem key member) secret
  | zeroed member secret =>
      rw [unlink_zeros]
      exact .zeroed (List.mem_cons_of_mem key member) secret

/-- A match is an entry of the key that nothing has touched. -/
theorem eq_of_matches (kept : Kept done bytes entry)
    (found : (entry.linked && entry.matchesKey key) = true) :
    SecretOf key bytes ∧ entry = ⟨bytes, true⟩ := by
  obtain ⟨linked, matched⟩ := Bool.and_eq_true_iff.mp found
  have named := SecretOf.of_matches matched
  cases kept with
  | untouched other => exact ⟨named, rfl⟩
  | unlinked member secret => cases linked
  | zeroed member secret =>
      rw [named_zeros] at named
      cases named

/-- An entry of a key that is not yet scrubbed is untouched. -/
theorem eq_of_secret (kept : Kept done bytes entry) (known : ∀ name ∈ key :: done, name ∈ secretKeys)
    (fresh : key ∉ done) (secret : SecretOf key bytes) : entry = ⟨bytes, true⟩ := by
  have apart : ∀ {name}, name ∈ done → ¬ SecretOf name bytes := by
    intro name member secret'
    have same := secret.unique (known key List.mem_cons_self)
      (known name (List.mem_cons_of_mem key member)) secret'
    exact fresh (same ▸ member)
  cases kept with
  | untouched other => rfl
  | unlinked member secret' => exact absurd secret' (apart member)
  | zeroed member secret' => exact absurd secret' (apart member)

end Kept

/-- Every entry of the key is overwritten. -/
def Overwritten (key : String) (entries : List Bytes) (block : EnvBlock) : Prop :=
  List.Forall₂ (fun bytes entry => SecretOf key bytes →
    entry.bytes = List.replicate bytes.length 0) entries block

/-- At most one entry of the key, and it decodes. -/
structure SingleDecodable (key : String) (entries : List Bytes) : Prop where
  single : entries.countP (fun bytes => SecretOf key bytes) ≤ 1
  decodable : ∀ bytes ∈ entries, SecretOf key bytes → (Text.fromUtf8 bytes).isSome = true

section Step

variable {done : List String} {key : String} {entries : List Bytes} {block : EnvBlock}

theorem removeVar_eq_map (key : String) (block : EnvBlock) :
    removeVar key block = block.map (unlink key) := rfl

theorem removeVar_kept (kept : List.Forall₂ (Kept done) entries block) :
    List.Forall₂ (Kept (key :: done)) entries (removeVar key block) := by
  rw [removeVar_eq_map, List.forall₂_map_right_iff]
  exact kept.imp fun _ _ kept => kept.unlink

theorem scrubEnvVar_cons_of_matches {entry : EnvEntry}
    (found : (entry.linked && entry.matchesKey key) = true) :
    scrubEnvVar key (entry :: block) = unlink key entry.zeroed :: removeVar key block := by
  rw [scrubEnvVar, zeroFirst, if_pos found]
  rfl

theorem scrubEnvVar_cons_of_not_matches {entry : EnvEntry}
    (passed : ¬ (entry.linked && entry.matchesKey key) = true) :
    scrubEnvVar key (entry :: block) = unlink key entry :: scrubEnvVar key block := by
  rw [scrubEnvVar, zeroFirst, if_neg passed]
  rfl

theorem scrubEnvVar_kept (terminated : ∀ bytes ∈ entries, (0 : UInt8) ∉ bytes)
    (kept : List.Forall₂ (Kept done) entries block) :
    List.Forall₂ (Kept (key :: done)) entries (scrubEnvVar key block) := by
  induction kept with
  | nil => exact .nil
  | @cons bytes entry entries block first later ih =>
      have terminated' := fun other member => terminated other (List.mem_cons_of_mem bytes member)
      by_cases found : (entry.linked && entry.matchesKey key) = true
      · obtain ⟨secret, rfl⟩ := first.eq_of_matches found
        rw [scrubEnvVar_cons_of_matches found,
          zeroed_of_terminated (terminated bytes List.mem_cons_self), unlink_zeros]
        exact .cons (.zeroed List.mem_cons_self secret) (removeVar_kept later)
      · rw [scrubEnvVar_cons_of_not_matches found]
        exact .cons first.unlink (ih terminated')

/-- Removing a variable overwrites nothing. -/
theorem overwritten_removeVar_iff {other : String} :
    Overwritten other entries (removeVar key block) ↔ Overwritten other entries block := by
  rw [Overwritten, removeVar_eq_map, List.forall₂_map_right_iff]
  simp only [bytes_unlink]
  rfl

/-- Scrubbing one key overwrites no entry of another. -/
theorem overwritten_scrubEnvVar_iff {other : String} (known : key ∈ secretKeys)
    (known' : other ∈ secretKeys) (distinct : other ≠ key)
    (kept : List.Forall₂ (Kept done) entries block) :
    Overwritten other entries (scrubEnvVar key block) ↔ Overwritten other entries block := by
  induction kept with
  | nil => exact Iff.rfl
  | @cons bytes entry entries block first later ih =>
      by_cases found : (entry.linked && entry.matchesKey key) = true
      · obtain ⟨secret, rfl⟩ := first.eq_of_matches found
        have skipped : ¬ SecretOf other bytes :=
          fun secret' => distinct (secret'.unique known' known secret)
        rw [scrubEnvVar_cons_of_matches found, Overwritten, Overwritten, List.forall₂_cons,
          List.forall₂_cons]
        exact and_congr (iff_of_true (fun secret' => absurd secret' skipped)
          fun secret' => absurd secret' skipped) overwritten_removeVar_iff
      · rw [scrubEnvVar_cons_of_not_matches found, Overwritten, Overwritten, List.forall₂_cons,
          List.forall₂_cons, bytes_unlink]
        exact and_congr Iff.rfl ih

theorem not_zeros_of_secret {bytes : Bytes} (terminated : (0 : UInt8) ∉ bytes)
    (secret : SecretOf key bytes) : bytes ≠ List.replicate bytes.length 0 := by
  intro zeroed
  rw [SecretOf, EnvEntry.named, cStr_of_terminated terminated] at secret
  have nonempty : bytes ≠ [] := by
    rintro rfl
    exact absurd (List.isPrefixOf_iff_prefix.mp secret) (by simp)
  obtain ⟨byte, member⟩ := List.exists_mem_of_ne_nil bytes nonempty
  have zero := List.eq_of_mem_replicate (zeroed ▸ member)
  exact terminated (zero ▸ member)

/-- Entries that are not touched any more are overwritten only if there are none. -/
theorem overwritten_of_untouched_iff (terminated : ∀ bytes ∈ entries, (0 : UInt8) ∉ bytes)
    (known : ∀ name ∈ key :: done, name ∈ secretKeys) (fresh : key ∉ done)
    (kept : List.Forall₂ (Kept done) entries block) :
    Overwritten key entries block ↔ ∀ bytes ∈ entries, ¬ SecretOf key bytes := by
  induction kept with
  | nil => exact iff_of_true .nil fun _ none => absurd none List.not_mem_nil
  | @cons bytes entry entries block first later ih =>
      have terminated' := fun other member => terminated other (List.mem_cons_of_mem bytes member)
      rw [Overwritten, List.forall₂_cons, List.forall_mem_cons]
      refine and_congr ?_ (ih terminated')
      constructor
      · intro overwritten secret
        have same := first.eq_of_secret known fresh secret
        subst same
        exact not_zeros_of_secret (terminated bytes List.mem_cons_self) secret (overwritten secret)
      · exact fun skipped secret => absurd secret skipped

theorem matches_of_decodable {bytes : Bytes} (terminated : (0 : UInt8) ∉ bytes)
    (secret : SecretOf key bytes) :
    ((EnvEntry.mk bytes true).linked && (EnvEntry.mk bytes true).matchesKey key) =
      (Text.fromUtf8 bytes).isSome := by
  rw [SecretOf, EnvEntry.named] at secret
  rw [EnvEntry.matchesKey, utf8_key_eq, secret, cStr_of_terminated terminated, Bool.true_and,
    Bool.and_true]

/-- Scrubbing a key overwrites all its entries only if there is one at most, and it decodes. -/
theorem overwritten_scrubbed_iff (terminated : ∀ bytes ∈ entries, (0 : UInt8) ∉ bytes)
    (known : ∀ name ∈ key :: done, name ∈ secretKeys) (fresh : key ∉ done)
    (kept : List.Forall₂ (Kept done) entries block) :
    Overwritten key entries (scrubEnvVar key block) ↔ SingleDecodable key entries := by
  induction kept with
  | nil => exact iff_of_true .nil ⟨Nat.zero_le 1, fun _ none => absurd none List.not_mem_nil⟩
  | @cons bytes entry entries block first later ih =>
      have ended := terminated bytes List.mem_cons_self
      have terminated' := fun other member => terminated other (List.mem_cons_of_mem bytes member)
      by_cases secret : SecretOf key bytes
      · have same := first.eq_of_secret known fresh secret
        subst same
        have matched := matches_of_decodable ended secret
        by_cases decodes : (Text.fromUtf8 bytes).isSome = true
        · rw [decodes] at matched
          have first' : SecretOf key bytes →
              (zeros bytes).bytes = List.replicate bytes.length 0 := fun _ => rfl
          rw [scrubEnvVar_cons_of_matches matched, zeroed_of_terminated ended, unlink_zeros,
            Overwritten, List.forall₂_cons, and_iff_right first']
          refine (overwritten_removeVar_iff.trans
            (overwritten_of_untouched_iff terminated' known fresh later)).trans ?_
          constructor
          · intro none
            refine ⟨?_, ?_⟩
            · rw [List.countP_cons_of_pos (by simpa using secret),
                List.countP_eq_zero.mpr (by simpa using none)]
            · intro other member secret'
              rcases List.mem_cons.mp member with rfl | inside
              · exact decodes
              · exact absurd secret' (none other inside)
          · rintro ⟨single, _⟩ other member secret'
            rw [List.countP_cons_of_pos (by simpa using secret)] at single
            have positive : 0 < entries.countP fun bytes => SecretOf key bytes :=
              List.countP_pos_iff.mpr ⟨other, member, by simpa using secret'⟩
            omega
        · have passed : ¬ ((EnvEntry.mk bytes true).linked &&
              (EnvEntry.mk bytes true).matchesKey key) = true := by
            rw [matched]
            exact decodes
          rw [scrubEnvVar_cons_of_not_matches passed, Overwritten, List.forall₂_cons, bytes_unlink]
          refine iff_of_false ?_ fun good => decodes (good.decodable bytes List.mem_cons_self secret)
          rintro ⟨overwritten, _⟩
          exact not_zeros_of_secret ended secret (overwritten secret)
      · have passed : ¬ (entry.linked && entry.matchesKey key) = true :=
          fun found => secret (first.eq_of_matches found).1
        rw [scrubEnvVar_cons_of_not_matches passed, Overwritten, List.forall₂_cons,
          and_iff_right (fun impossible => absurd impossible secret)]
        refine (ih terminated').trans ?_
        constructor
        · rintro ⟨single, decodable⟩
          refine ⟨?_, ?_⟩
          · rwa [List.countP_cons_of_neg (by simpa using secret)]
          · intro other member secret'
            rcases List.mem_cons.mp member with rfl | inside
            · exact absurd secret' secret
            · exact decodable other inside secret'
        · rintro ⟨single, decodable⟩
          rw [List.countP_cons_of_neg (by simpa using secret)] at single
          exact ⟨single, fun other member => decodable other (List.mem_cons_of_mem bytes member)⟩

end Step

/-! ## All six names -/

theorem foldl_scrubEnvVar {entries : List Bytes} (terminated : ∀ bytes ∈ entries, (0 : UInt8) ∉ bytes)
    {keys done : List String} {block : EnvBlock} (known : ∀ key ∈ keys ++ done, key ∈ secretKeys)
    (distinct : (keys ++ done).Nodup) (kept : List.Forall₂ (Kept done) entries block) :
    List.Forall₂ (Kept (keys.reverse ++ done)) entries
      (keys.foldl (fun block key => scrubEnvVar key block) block) ∧
    (∀ key ∈ done, Overwritten key entries
      (keys.foldl (fun block key => scrubEnvVar key block) block) ↔
        Overwritten key entries block) ∧
    ∀ key ∈ keys, Overwritten key entries
      (keys.foldl (fun block key => scrubEnvVar key block) block) ↔
        SingleDecodable key entries := by
  induction keys generalizing done block with
  | nil => exact ⟨kept, fun _ _ => Iff.rfl, fun _ none => absurd none List.not_mem_nil⟩
  | cons key keys ih =>
      obtain ⟨fresh, distinct'⟩ := List.nodup_cons.mp distinct
      have fresh' : key ∉ done := fun member => fresh (List.mem_append_right keys member)
      have known' : ∀ name ∈ key :: done, name ∈ secretKeys := by
        intro name member
        rcases List.mem_cons.mp member with rfl | earlier
        · exact known name List.mem_cons_self
        · exact known name (List.mem_append_right _ earlier)
      have moved : (keys ++ key :: done).Perm (key :: (keys ++ done)) := List.perm_middle
      obtain ⟨final, before, later⟩ := @ih (key :: done) (scrubEnvVar key block)
        (fun name member => known name (moved.subset member))
        (moved.nodup_iff.mpr distinct) (scrubEnvVar_kept terminated kept)
      rw [List.reverse_cons, List.append_assoc, List.foldl_cons]
      refine ⟨final, ?_, ?_⟩
      · intro name member
        have apart : name ≠ key := fun same => fresh' (same ▸ member)
        exact (before name (List.mem_cons_of_mem key member)).trans
          (overwritten_scrubEnvVar_iff (known' key List.mem_cons_self)
            (known' name (List.mem_cons_of_mem key member)) apart kept)
      · intro name member
        rcases List.mem_cons.mp member with rfl | inside
        · exact (before name List.mem_cons_self).trans
            (overwritten_scrubbed_iff terminated known' fresh' kept)
        · exact later name inside

theorem startBlock_kept (entries : List Bytes) :
    List.Forall₂ (Kept []) entries (startBlock entries) := by
  rw [startBlock, List.forall₂_map_right_iff, List.forall₂_same]
  intro bytes _
  exact .untouched fun _ none => absurd none List.not_mem_nil

/-- The fate of every entry, and when those of a secret are overwritten. -/
theorem scrubAllSensitiveEnv_spec {entries : List Bytes}
    (terminated : ∀ bytes ∈ entries, (0 : UInt8) ∉ bytes) :
    List.Forall₂ (Kept secretKeys.reverse) entries (scrubAllSensitiveEnv (startBlock entries)) ∧
    ∀ key ∈ secretKeys, Overwritten key entries (scrubAllSensitiveEnv (startBlock entries)) ↔
      SingleDecodable key entries := by
  have scrubbed := @foldl_scrubEnvVar entries terminated secretKeys [] (startBlock entries)
    (fun key member => by rwa [List.append_nil] at member) (by decide) (startBlock_kept entries)
  rw [List.append_nil] at scrubbed
  exact ⟨scrubbed.1, scrubbed.2.2⟩

/-! ## What is left to be looked up -/

/-- The property asked of a scrubbed block. -/
structure Scrubbed (entries : List Bytes) (block : EnvBlock) : Prop where
  overwritten : ∀ key ∈ secretKeys, Overwritten key entries block
  forgotten : ∀ key ∈ secretKeys, lookup (Text.utf8 key) block = none
  others : List.Forall₂ (fun bytes entry => ¬ IsSecret bytes → entry = ⟨bytes, true⟩) entries block
  lookups : ∀ name, PlainName name → (∀ key ∈ secretKeys, name ≠ Text.utf8 key) →
    lookup name block = lookup name (startBlock entries)

section Lookups

variable {entries : List Bytes} {block : EnvBlock}
  (kept : List.Forall₂ (Kept secretKeys.reverse) entries block)
include kept

theorem Kept.lookup_secret {key : String} (known : key ∈ secretKeys) :
    lookup (Text.utf8 key) block = none := by
  rw [lookup, Option.map_eq_none_iff, List.find?_eq_none]
  induction kept with
  | nil => exact fun _ none => absurd none List.not_mem_nil
  | @cons bytes entry entries block fate later ih =>
      rw [List.forall_mem_cons]
      refine ⟨fun found => ?_, ih⟩
      obtain ⟨linked, named⟩ := Bool.and_eq_true_iff.mp found
      cases fate with
      | untouched other => exact other key (List.mem_reverse.mpr known) named
      | unlinked _ _ => cases linked
      | zeroed _ _ =>
          rw [named_zeros] at named
          cases named

theorem Kept.others :
    List.Forall₂ (fun bytes entry => ¬ IsSecret bytes → entry = ⟨bytes, true⟩) entries block := by
  refine kept.imp fun bytes entry fate free => ?_
  cases fate with
  | untouched _ => rfl
  | unlinked member secret => exact absurd ⟨_, List.mem_reverse.mp member, secret⟩ free
  | zeroed member secret => exact absurd ⟨_, List.mem_reverse.mp member, secret⟩ free

theorem Kept.lookup_other {name : Bytes} (plain : PlainName name)
    (other : ∀ key ∈ secretKeys, name ≠ Text.utf8 key) :
    lookup name block = lookup name (startBlock entries) := by
  have skipped : ∀ {key : String} {bytes : Bytes} (linked : Bool), key ∈ secretKeys.reverse →
      SecretOf key bytes → (EnvEntry.mk bytes linked).named name = false := by
    intro key bytes linked member secret
    rw [Bool.eq_false_iff]
    intro named
    have known := List.mem_reverse.mp member
    exact other key known (@named_unique name (Text.utf8 key) plain (secretKeys_plain key known)
      ⟨bytes, true⟩ named secret)
  unfold lookup
  congr 1
  induction kept with
  | nil => rfl
  | @cons bytes entry entries block fate later ih =>
      rw [startBlock, List.map_cons, List.find?_cons, List.find?_cons]
      cases fate with
      | untouched _ =>
          split
          · rfl
          · exact ih
      | unlinked member secret =>
          rw [skipped true member secret]
          exact ih
      | zeroed member secret =>
          rw [skipped true member secret, named_zeros]
          exact ih

end Lookups

/-- The scrub is complete exactly when every secret variable has one entry at most, and that
one is valid UTF-8. -/
theorem scrub_complete_iff (entries : List Bytes)
    (terminated : ∀ bytes ∈ entries, (0 : UInt8) ∉ bytes) :
    Scrubbed entries (scrubAllSensitiveEnv (startBlock entries)) ↔
      ∀ key ∈ secretKeys, SingleDecodable key entries := by
  obtain ⟨kept, overwritten⟩ := scrubAllSensitiveEnv_spec terminated
  constructor
  · intro scrubbed key known
    exact (overwritten key known).mp (scrubbed.overwritten key known)
  · intro good
    exact ⟨fun key known => (overwritten key known).mpr (good key known),
      fun key known => Kept.lookup_secret kept known, Kept.others kept,
      fun name plain other => Kept.lookup_other kept plain other⟩

/-- A path, one secret, and an entry that is not valid UTF-8. -/
theorem scrub_complete_iff_sample :
    Scrubbed [Text.utf8 "PATH=/bin", Text.utf8 "PIPE_K1_SEC_KEY=0001", [0xff, 0x3d, 0x31]]
      (scrubAllSensitiveEnv (startBlock
        [Text.utf8 "PATH=/bin", Text.utf8 "PIPE_K1_SEC_KEY=0001", [0xff, 0x3d, 0x31]])) := by
  refine (scrub_complete_iff
    [Text.utf8 "PATH=/bin", Text.utf8 "PIPE_K1_SEC_KEY=0001", [0xff, 0x3d, 0x31]]
    (by decide +kernel)).mpr fun key known => ⟨?_, ?_⟩
  · revert key
    decide +kernel
  · revert key
    decide +kernel

/-- Of two entries for one secret the second keeps its bytes. -/
theorem scrub_leaves_second_entry :
    ¬ ∀ entries : List Bytes, (∀ bytes ∈ entries, (0 : UInt8) ∉ bytes) →
      Scrubbed entries (scrubAllSensitiveEnv (startBlock entries)) := by
  intro complete
  let entries := [Text.utf8 "PIPEK1_SEC_KEY=0001", Text.utf8 "PIPEK1_SEC_KEY=0002"]
  have terminated : ∀ bytes ∈ entries, (0 : UInt8) ∉ bytes := by decide +kernel
  have known : "PIPEK1_SEC_KEY" ∈ secretKeys := by decide
  have single := ((scrubAllSensitiveEnv_spec terminated).2 _ known).mp
    ((complete entries terminated).overwritten _ known)
  have twice : entries.countP (fun bytes => SecretOf "PIPEK1_SEC_KEY" bytes) = 2 := by
    decide +kernel
  have once := single.single
  rw [twice] at once
  exact absurd once (by decide)

end PipeK1

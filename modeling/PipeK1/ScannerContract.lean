import PipeK1.Cli

/-!
# Two scanners over one argument vector

The key options and a command's own options are read by separate loops, each
with its own table of options that take a value.
-/

set_option autoImplicit false

namespace PipeK1

open Arguments

/-! ## What the loops act on -/

theorem keyIntakeItem_acts_iff (item : Item) :
    (∃ keyArgs, keyIntakeItem keyArgs item ≠ keyArgs) ↔
      keyIntakeTakesValue item.token = true ∧ item.value.isSome = true := by
  obtain ⟨token, value⟩ := item
  cases value with
  | none => simp [keyIntakeItem]
  | some value =>
      rw [Option.isSome_some, and_iff_left rfl]
      constructor
      · rintro ⟨keyArgs, acts⟩
        by_contra unknown
        simp only [keyIntakeTakesValue, List.mem_cons, List.not_mem_nil, or_false,
          decide_eq_true_eq, not_or] at unknown
        simp [keyIntakeItem, unknown] at acts
      · intro known
        by_contra idle
        push Not at idle
        -- No value leaves both an absent and a present field as it is.
        have absent := idle {}
        have present := idle ⟨some 0, none, some 0, some 0, some 0, some 0⟩
        simp only [keyIntakeTakesValue, List.mem_cons, List.not_mem_nil, or_false,
          decide_eq_true_eq] at known
        rcases known with rfl | rfl | rfl | rfl | rfl | rfl <;> simp_all [keyIntakeItem]

theorem encryptItem_acts_iff (item : Item) :
    (∃ options, encryptItem options item ≠ options) ↔
      encryptTakesValue item.token = true ∧ item.value.isSome = true := by
  obtain ⟨token, value⟩ := item
  cases value with
  | none => simp [encryptItem]
  | some value =>
      rw [Option.isSome_some, and_iff_left rfl]
      constructor
      · rintro ⟨options, acts⟩
        by_contra unknown
        simp only [encryptTakesValue, List.mem_cons, List.not_mem_nil, or_false,
          decide_eq_true_eq, not_or] at unknown
        simp [encryptItem, unknown] at acts
      · intro known
        by_contra idle
        push Not at idle
        have first := idle {}
        have second := idle ⟨none, 0x01, some 0⟩
        simp only [encryptTakesValue, List.mem_cons, List.not_mem_nil, or_false,
          decide_eq_true_eq] at known
        rcases known with rfl | rfl | rfl <;> simp_all [encryptItem]

def decryptFlag (token : String) : Bool :=
  token ∈ ["--allow-untrusted-sender", "--allow-unverified-stream"]

theorem decryptItem_acts_iff (item : Item) :
    (∃ options, decryptItem options item ≠ options) ↔ decryptFlag item.token = true ∨
      (decryptTakesValue item.token = true ∧ item.value.isSome = true) := by
  obtain ⟨token, value⟩ := item
  constructor
  · rintro ⟨options, acts⟩
    by_contra unknown
    simp only [decryptFlag, decryptTakesValue, List.mem_cons, List.not_mem_nil, or_false,
      decide_eq_true_eq, not_or, not_and] at unknown
    obtain ⟨⟨untrusted, unverified⟩, valueless⟩ := unknown
    have sender : ¬ (token = "--sender" ∧ value.isSome = true) :=
      fun both => valueless (.inl both.1) both.2
    have maxSize : ¬ (token = "--max-size" ∧ value.isSome = true) :=
      fun both => valueless (.inr both.1) both.2
    simp only [decryptItem, if_neg sender, if_neg untrusted, if_neg unverified, if_neg maxSize,
      ne_eq, not_true_eq_false] at acts
  · intro known
    by_contra idle
    push Not at idle
    have first := idle {}
    have second := idle ⟨none, false, false, some 0⟩
    simp only [decryptFlag, decryptTakesValue, List.mem_cons, List.not_mem_nil, or_false,
      decide_eq_true_eq] at known
    rcases known with (rfl | rfl) | ⟨rfl | rfl, given⟩
    · simp [decryptItem] at first
    · simp [decryptItem] at first
    · obtain ⟨sender, rfl⟩ := Option.isSome_iff_exists.mp given
      simp [decryptItem] at first
    · obtain ⟨size, rfl⟩ := Option.isSome_iff_exists.mp given
      simp_all [decryptItem]

/-! ## The loops -/

/-- `parse_key_intake_args`. -/
def keyIntakeScanner : Scanner KeyIntakeArgs where
  takesValue := keyIntakeTakesValue
  flag _ := false
  apply := keyIntakeItem
  acts_iff item := by
    rw [keyIntakeItem_acts_iff, or_iff_right Bool.false_ne_true]

/-- The loop of `encrypt`. -/
def encryptScanner : Scanner EncryptOptions where
  takesValue := encryptTakesValue
  flag _ := false
  apply := encryptItem
  acts_iff item := by
    rw [encryptItem_acts_iff, or_iff_right Bool.false_ne_true]

/-- The loop of `decrypt`. -/
def decryptScanner : Scanner DecryptOptions where
  takesValue := decryptTakesValue
  flag := decryptFlag
  apply := decryptItem
  acts_iff := decryptItem_acts_iff

/-- The loop of `sign`, which has flags only. -/
def signScanner : Scanner Bool where
  takesValue _ := false
  flag token := token ∈ ["-a", "--armor"]
  apply armor item := armor || item.token ∈ ["-a", "--armor"]
  acts_iff item := by simp

/-- The commands that read key options next to their own. -/
inductive ScannedCommand where
  | encrypt
  | decrypt
  | sign

/-- The variables of the command's loop. -/
def ScannedCommand.Options : ScannedCommand → Type
  | .encrypt => EncryptOptions
  | .decrypt => DecryptOptions
  | .sign => Bool

def ScannedCommand.scanner : (command : ScannedCommand) → Scanner command.Options
  | .encrypt => encryptScanner
  | .decrypt => decryptScanner
  | .sign => signScanner

/-! ## Agreement -/

/-- No option takes a value in both loops. -/
theorem ScannedCommand.disjoint (command : ScannedCommand) (token : String)
    (takes : keyIntakeScanner.takesValue token = true) :
    command.scanner.takesValue token = false := by
  simp only [keyIntakeScanner, keyIntakeTakesValue, List.mem_cons, List.not_mem_nil, or_false,
    decide_eq_true_eq] at takes
  cases command with
  | encrypt => rcases takes with rfl | rfl | rfl | rfl | rfl | rfl <;> rfl
  | decrypt => rcases takes with rfl | rfl | rfl | rfl | rfl | rfl <;> rfl
  | sign => rfl

/-- The loops agree exactly on the vectors in which no option of one, where it reads options,
is followed by an option of the other. -/
theorem scanners_agree_iff (command : ScannedCommand) (args : List String) :
    keyIntakeScanner.Agree command.scanner args ↔
      ¬ keyIntakeScanner.Crosses command.scanner args ∧
        ¬ command.scanner.Crosses keyIntakeScanner args :=
  Scanner.agree_iff command.disjoint

/-- A file name switches on the unverified mode. -/
theorem sec_file_allows_unverified_stream :
    (decryptArgs ["--sec-file", "--allow-unverified-stream"]).allowUnverifiedStream = true ∧
      (decryptArgs ["--sec-file", "--allow-unverified-stream"]).keyArgs.secFile =
        some "--allow-unverified-stream" ∧
      ¬ ∀ (command : ScannedCommand) (args : List String),
        keyIntakeScanner.Agree command.scanner args := by
  refine ⟨by decide, by decide, fun agree => ?_⟩
  have crosses : keyIntakeScanner.Crosses ScannedCommand.decrypt.scanner
      ["--sec-file", "--allow-unverified-stream"] :=
    ⟨[], "--sec-file", "--allow-unverified-stream", [], rfl, rfl, by decide, .inl (by decide)⟩
  obtain ⟨place, consumes, acts⟩ :=
    (Scanner.crosses_iff ScannedCommand.decrypt.disjoint).mp crosses
  exact (agree .decrypt ["--sec-file", "--allow-unverified-stream"]).left place consumes acts

end PipeK1

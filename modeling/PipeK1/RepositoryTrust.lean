import PipeK1.Reference
import PipeK1.TrustDb

/-!
# The trust files of a repository

They belong to the nearest directory, from the working directory upwards, whose
`.git` is a directory or a file; what is above it has no say.
-/

set_option autoImplicit false

namespace PipeK1

open ByteData ByteReader

variable {host : Host} {curr dir : PathBuf}

/-! ## The nearest repository -/

/-- `dir` is `curr` or one of the directories above it. -/
structure Above (dir curr : PathBuf) : Prop where
  absolute : dir.absolute = curr.absolute
  components : dir.components <+: curr.components

def dotGit (dir : PathBuf) : PathBuf := dir.join (PathBuf.parse ".git")

/-- The directory carries a `.git` that is a directory or a file. -/
def CarriesGit (host : Host) (dir : PathBuf) : Prop :=
  host.isDir (dotGit dir) = true ∨ host.isFile (dotGit dir) = true

/-- Of the directories that carry a `.git`, the one with the longest path. -/
structure Nearest (host : Host) (curr dir : PathBuf) : Prop where
  above : Above dir curr
  carries : CarriesGit host dir
  longest : ∀ other, Above other curr → CarriesGit host other →
    other.components.length ≤ dir.components.length

theorem Above.refl (curr : PathBuf) : Above curr curr := ⟨rfl, List.prefix_refl _⟩

/-- Above a directory are itself and what is above its parent. -/
theorem above_iff (nonempty : curr.components ≠ []) :
    Above dir curr ↔
      dir = curr ∨ Above dir { curr with components := curr.components.dropLast } := by
  constructor
  · rintro ⟨absolute, components⟩
    obtain ⟨rest, whole⟩ := components
    rcases List.eq_nil_or_concat' rest with rfl | ⟨rest, last, rfl⟩
    · rw [List.append_nil] at whole
      cases dir
      cases curr
      cases absolute
      cases whole
      exact .inl rfl
    · refine .inr ⟨absolute, rest, ?_⟩
      change dir.components ++ rest = curr.components.dropLast
      rw [← whole, ← List.append_assoc, List.dropLast_concat]
  · rintro (rfl | ⟨absolute, components⟩)
    · exact .refl dir
    · exact ⟨absolute, components.trans (List.dropLast_prefix _)⟩

theorem above_root_iff (root : curr.components = []) : Above dir curr ↔ dir = curr := by
  constructor
  · rintro ⟨absolute, components⟩
    rw [root, List.prefix_nil] at components
    cases dir
    cases curr
    cases absolute
    cases root
    cases components
    rfl
  · rintro rfl
    exact .refl dir

theorem Nearest.of_carries (carries : CarriesGit host curr) : Nearest host curr curr :=
  ⟨.refl curr, carries, fun _ above _ => above.components.length_le⟩

/-- A directory without a `.git` leaves the search to its parent. -/
theorem Nearest.of_parent (nonempty : curr.components ≠ []) (bare : ¬ CarriesGit host curr)
    (nearest : Nearest host { curr with components := curr.components.dropLast } dir) :
    Nearest host curr dir where
  above := (above_iff nonempty).mpr (.inr nearest.above)
  carries := nearest.carries
  longest other above carries := by
    rcases (above_iff nonempty).mp above with rfl | higher
    · exact absurd carries bare
    · exact nearest.longest other higher carries

/-! ## What the repository names -/

/-- The git directories that the lines of a `.git` file point to. -/
def gitDirs (dir : PathBuf) (text : List Char) : List PathBuf :=
  (Text.lines text).filterMap fun line =>
    if "gitdir:".toList <+: line then
      some (dir.join (PathBuf.parse (String.ofList (Text.trim (line.drop 7)))))
    else none

/-- The common directory of a git directory with a readable `commondir` file. -/
def commonDir (host : Host) (gitDir : PathBuf) : Option PathBuf :=
  (readText host (gitDir.join (PathBuf.parse "commondir"))).map fun text =>
    let common := gitDir.join (PathBuf.parse (String.ofList (Text.trim text)))
    (host.canonicalize common).getD common

/-- The signers files that belong to this directory's `.git`. -/
structure NamedBy (host : Host) (dir : PathBuf) (files : List PathBuf) : Prop where
  directory : host.isDir (dotGit dir) = true → files = signersFiles (dotGit dir)
  pointer : host.isDir (dotGit dir) = false → ∀ text, readText host (dotGit dir) = some text →
    files = (gitDirs dir text).flatMap fun gitDir =>
      signersFiles gitDir ++ (commonDir host gitDir).toList.flatMap signersFiles
  unreadable : host.isDir (dotGit dir) = false → readText host (dotGit dir) = none → files = []

theorem commonFiles_eq (gitDir : PathBuf) :
    commonFiles host gitDir = (commonDir host gitDir).toList.flatMap signersFiles := by
  unfold commonFiles commonDir
  cases readText host (gitDir.join (PathBuf.parse "commondir")) with
  | none => rfl
  | some text => exact (List.append_nil _).symm

theorem flatMap_gitdirLineFiles (text : List Char) :
    (Text.lines text).flatMap (gitdirLineFiles host dir) = (gitDirs dir text).flatMap
      fun gitDir => signersFiles gitDir ++ (commonDir host gitDir).toList.flatMap signersFiles := by
  unfold gitDirs
  induction Text.lines text with
  | nil => rfl
  | cons line lines ih =>
      rw [List.flatMap_cons, ih, List.filterMap_cons, gitdirLineFiles, stripPrefix?]
      by_cases pointing : "gitdir:".toList <+: line
      · rw [if_pos pointing, if_pos (List.isPrefixOf_iff_prefix.mpr pointing)]
        simp only [commonFiles_eq, List.flatMap_cons]
        rfl
      · rw [if_neg pointing, if_neg (mt List.isPrefixOf_iff_prefix.mp pointing)]
        rfl

/-- The search stops at the nearest repository, and goes up to the root when there is none. -/
theorem repositoryFiles_spec (host : Host) (curr : PathBuf) :
    (∃ dir, Nearest host curr dir ∧ NamedBy host dir (repositoryFiles host curr)) ∨
      ((∀ dir, Above dir curr → ¬ CarriesGit host dir) ∧ repositoryFiles host curr = []) := by
  have step : repositoryFiles host curr =
      if host.isDir (dotGit curr) then signersFiles (dotGit curr)
      else if host.isFile (dotGit curr) then
        ((readText host (dotGit curr)).map fun text =>
          (Text.lines text).flatMap (gitdirLineFiles host curr)).getD []
      else if curr.components = [] then []
      else repositoryFiles host { curr with components := curr.components.dropLast } := by
    rw [repositoryFiles, show curr.join (PathBuf.parse ".git") = dotGit curr from rfl]
    cases readText host (dotGit curr) <;> rfl
  rw [step]
  cases isDir : host.isDir (dotGit curr) with
  | true =>
      refine .inl ⟨curr, .of_carries (.inl isDir), fun _ => rfl, fun other => ?_, fun other => ?_⟩
      · rw [isDir] at other
        cases other
      · rw [isDir] at other
        cases other
  | false =>
      cases isFile : host.isFile (dotGit curr) with
      | true =>
          refine .inl ⟨curr, .of_carries (.inr isFile), fun other => ?_, fun _ text read => ?_,
            fun _ unread => ?_⟩
          · rw [isDir] at other
            cases other
          · simp only [read, Bool.false_eq_true, ↓reduceIte, Option.map_some, Option.getD_some]
            exact flatMap_gitdirLineFiles text
          · simp only [unread, Bool.false_eq_true, ↓reduceIte, Option.map_none, Option.getD_none]
      | false =>
          have bare : ¬ CarriesGit host curr := by
            rintro (directory | file)
            · rw [isDir] at directory
              cases directory
            · rw [isFile] at file
              cases file
          simp only [Bool.false_eq_true, ↓reduceIte]
          by_cases root : curr.components = []
          · rw [if_pos root]
            refine .inr ⟨fun dir above => ?_, rfl⟩
            rw [(above_root_iff root).mp above]
            exact bare
          · rw [if_neg root]
            rcases repositoryFiles_spec host
              { curr with components := curr.components.dropLast } with
              ⟨dir, nearest, named⟩ | ⟨nowhere, nothing⟩
            · exact .inl ⟨dir, nearest.of_parent root bare, named⟩
            · refine .inr ⟨fun dir above => ?_, nothing⟩
              rcases (above_iff root).mp above with rfl | higher
              · exact bare
              · exact nowhere dir higher
termination_by curr.components.length
decreasing_by
  have nonempty := List.length_pos_of_ne_nil root
  simp only [List.length_dropLast]
  omega

/-- With in-tree signers allowed and no `GIT_DIR`, the signers files of the nearest repository
stand between the configured file and those of the home directory. -/
theorem repository_trust_anchored (host : Host) (curr : PathBuf)
    (here : host.currentDir = some curr) (unset : host.envVar "GIT_DIR" = none)
    (allowed : allowInTree host = true) :
    ∃ files, candidatePaths host = configuredFiles host ++ (files ++ homeFiles host) ∧
      ((∃ dir, Nearest host curr dir ∧ NamedBy host dir files) ∨
        ((∀ dir, Above dir curr → ¬ CarriesGit host dir) ∧ files = [])) := by
  refine ⟨repositoryFiles host curr, ?_, repositoryFiles_spec host curr⟩
  have inTree : inTreeFiles host = repositoryFiles host curr := by
    simp only [inTreeFiles, allowed, ↓reduceIte, unset, here, List.nil_append]
  rw [candidatePaths, inTree, List.append_assoc]

namespace Reference

def pointerText : String := "gitdir: ../main/.git/worktrees/tree\n"

/-- A working directory inside the linked worktree `/tree` of the repository `/main`. -/
def worktreeHost : Host :=
  { keyHost sampleSender sampleEphemeral with
    currentDir := some (PathBuf.parse "/tree/docs")
    isFile := fun path => path = PathBuf.parse "/tree/.git"
    fileContents := fun path => .ok (Text.utf8
      (if path = PathBuf.parse "/tree/.git" then pointerText else "../..\n"))
    canonicalize := fun _ => some (PathBuf.parse "/main/.git") }

theorem readText_worktreeHost {path : PathBuf} (other : path ≠ PathBuf.parse "/tree/.git") :
    readText worktreeHost path = some "../..\n".toList := by
  have contents : worktreeHost.fileContents path = .ok (Text.utf8 "../..\n") :=
    congrArg (fun text => Except.ok (Text.utf8 text)) (if_neg other)
  rw [readText, contents, asString_utf8]
  rfl

theorem readText_pointer :
    readText worktreeHost (PathBuf.parse "/tree/.git") = some pointerText.toList := by
  have contents : worktreeHost.fileContents (PathBuf.parse "/tree/.git") =
      .ok (Text.utf8 pointerText) :=
    congrArg (fun text => Except.ok (Text.utf8 text)) (if_pos rfl)
  rw [readText, contents, asString_utf8]
  rfl

theorem dotGit_injective {left right : PathBuf} (same : dotGit left = dotGit right) :
    left = right := by
  have relative : (PathBuf.parse ".git").absolute = false := by decide
  simp only [dotGit, PathBuf.join, relative, Bool.false_eq_true, ↓reduceIte,
    PathBuf.mk.injEq] at same
  obtain ⟨absolute, components⟩ := same
  cases left
  cases right
  cases absolute
  cases List.append_cancel_right components
  rfl

theorem carriesGit_worktreeHost {dir : PathBuf} :
    CarriesGit worktreeHost dir ↔ dotGit dir = PathBuf.parse "/tree/.git" := by
  unfold CarriesGit
  constructor
  · rintro (impossible | file)
    · cases impossible
    · exact of_decide_eq_true file
  · exact fun same => .inr (decide_eq_true same)

end Reference

open Reference in
/-- The worktree inherits the signers of the main repository. -/
theorem repository_trust_anchored_sample :
    (PathBuf.parse "/main/.git/pipe-k1_signers") ∈ candidatePaths worktreeHost := by
  have split : PathBuf.parse "/tree/.git" = dotGit (PathBuf.parse "/tree") := by decide +kernel
  obtain ⟨files, paths, ⟨dir, nearest, named⟩ | ⟨nowhere, _⟩⟩ :=
    repository_trust_anchored worktreeHost (PathBuf.parse "/tree/docs") rfl rfl rfl
  · obtain rfl := dotGit_injective ((carriesGit_worktreeHost.mp nearest.carries).trans split)
    let gitDir := PathBuf.parse "/tree/../main/.git/worktrees/tree"
    have pointed : gitDirs (PathBuf.parse "/tree") pointerText.toList = [gitDir] := by
      decide +kernel
    have common : commonDir worktreeHost gitDir = some (PathBuf.parse "/main/.git") := by
      rw [commonDir, readText_worktreeHost (by decide +kernel)]
      rfl
    have whole := named.pointer rfl pointerText.toList (by rw [← split]; exact readText_pointer)
    rw [pointed, List.flatMap_singleton, common] at whole
    have inherited : PathBuf.parse "/main/.git/pipe-k1_signers" ∈
        signersFiles (PathBuf.parse "/main/.git") := by decide +kernel
    rw [paths, whole]
    refine List.mem_append_right _ (List.mem_append_left _ (List.mem_append_right _ ?_))
    exact List.mem_flatMap.mpr ⟨_, List.mem_cons_self, inherited⟩
  · exact absurd (carriesGit_worktreeHost.mpr split.symm)
      (nowhere (PathBuf.parse "/tree") ⟨by decide +kernel, by decide +kernel⟩)

end PipeK1

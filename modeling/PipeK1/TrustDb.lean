import PipeK1.Keys

/-!
# The trust database

`resolve_allowed_signers`: the files that may name trusted signers, in priority
order, and the entries read from them.
-/

set_option autoImplicit false

namespace PipeK1

open ByteData

variable (crates : Crates) (host : Host)

/-! ## Git configuration -/

/-- A nonempty configured value. -/
def getConfig (key : String) : Option String :=
  ((host.gitOutput ["config", "--get", key]).map trimmedString).filter (· ≠ "")

/-- ASCII case is all that can turn a text into `false`. -/
def getBool (key : String) : Option Bool :=
  (host.gitOutput ["config", "--bool", "--get", key]).map fun output =>
    decide ((Text.trim output.toList).map Char.toLower ≠ "false".toList)

/-! ## Candidate files -/

def readText (path : PathBuf) : Option (List Char) :=
  (asString (host.fileContents path)).toOption.map String.toList

/-- The current and the legacy signers file of a git directory. -/
def signersFiles (gitDir : PathBuf) : List PathBuf :=
  [gitDir.join (PathBuf.parse "pipe-k1_signers"), gitDir.join (PathBuf.parse "pipek1_signers")]

/-- `str::strip_prefix`. -/
def stripPrefix? (start text : List Char) : Option (List Char) :=
  if start.isPrefixOf text then some (text.drop start.length) else none

/-- The common directory that a linked worktree's git directory points to. -/
def commonFiles (gitDir : PathBuf) : List PathBuf :=
  match readText host (gitDir.join (PathBuf.parse "commondir")) with
  | none => []
  | some text =>
      let common := gitDir.join (PathBuf.parse (String.ofList (Text.trim text)))
      signersFiles ((host.canonicalize common).getD common)

/-- The files a `gitdir:` line of `.git` leads to; other lines lead nowhere. -/
def gitdirLineFiles (curr : PathBuf) (line : List Char) : List PathBuf :=
  match stripPrefix? "gitdir:".toList line with
  | none => []
  | some rest =>
      let gitDir := curr.join (PathBuf.parse (String.ofList (Text.trim rest)))
      signersFiles gitDir ++ commonFiles host gitDir

/-- Up from `curr` to the nearest directory whose `.git` is a directory or a file. -/
def repositoryFiles (curr : PathBuf) : List PathBuf :=
  let dotGit := curr.join (PathBuf.parse ".git")
  if host.isDir dotGit then signersFiles dotGit
  else if host.isFile dotGit then
    match readText host dotGit with
    | none => []
    | some text => (Text.lines text).flatMap (gitdirLineFiles host curr)
  else if _root : curr.components = [] then []
  else repositoryFiles { curr with components := curr.components.dropLast }
termination_by curr.components.length
decreasing_by
  have nonempty := List.length_pos_of_ne_nil _root
  simp only [List.length_dropLast]
  omega

def configuredFiles : List PathBuf :=
  (((getConfig host "pipe-k1.allowedSignersFile").or
    (getConfig host "pipek1.allowedSignersFile")).map PathBuf.parse).toList

def allowInTree : Bool :=
  ((getBool host "pipe-k1.allowInTreeSigners").or
    (getBool host "pipek1.allowInTreeSigners")).getD true

def inTreeFiles : List PathBuf :=
  if allowInTree host then
    (match host.envVar "GIT_DIR" with
      | some gitDir => signersFiles (PathBuf.parse gitDir)
      | none => []) ++
    (match host.currentDir with
      | some curr => repositoryFiles host curr
      | none => [])
  else []

def homeFiles : List PathBuf :=
  match host.envVar "HOME" with
  | none => []
  | some home =>
      [(PathBuf.parse home).join (PathBuf.parse ".config/pipe-k1/allowed_signers"),
        (PathBuf.parse home).join (PathBuf.parse ".config/pipek1/allowed_signers")]

def candidatePaths : List PathBuf := configuredFiles host ++ inTreeFiles host ++ homeFiles host

/-! ## Entries -/

abbrev Signer := String × FixedBytes 32

/-- `slice::join(" ")`. -/
def joinWords (words : List (List Char)) : String :=
  String.ofList ((words.intersperse [' ']).flatten)

/-- The signer a line names: the key is its last token, the identity what precedes it. -/
def parseSignerLine (line : List Char) : Option Signer :=
  let trimmed := Text.trim line
  if trimmed.isEmpty || ['#'].isPrefixOf trimmed then none
  else
    let tokens := Text.splitWhitespace trimmed
    match tokens.getLast? with
    | none => none
    | some keyToken =>
        match parseKeyBytes crates (String.ofList keyToken) with
        | .error _ => none
        | .ok keyBytes =>
            some (if tokens.length > 1 then joinWords tokens.dropLast
              else encodeNpub crates keyBytes, keyBytes)

/-- The first entry of a key is kept. -/
def addSigner (signers : List Signer) (signer : Signer) : List Signer :=
  if signers.any fun known => known.2 = signer.2 then signers else signers ++ [signer]

def fileSigners (path : PathBuf) : List Signer :=
  if host.pathExists path then
    match readText host path with
    | none => []
    | some text => (Text.lines text).filterMap (parseSignerLine crates)
  else []

def resolveAllowedSigners : List Signer :=
  ((candidatePaths host).flatMap (fileSigners crates host)).foldl addSigner []

end PipeK1

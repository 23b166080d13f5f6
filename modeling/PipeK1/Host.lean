import PipeK1.Error
import PipeK1.Crates
import PipeK1.Library.Effects
import PipeK1.Library.Text

/-!
# The process and its surroundings

What the operating system offers one run (environment variables, files, `git`
output, random bytes, temporary-file behaviour) is fixed in `Host`; standard
input and the record of everything the run did are the state `Process`.
-/

set_option autoImplicit false

namespace PipeK1

open ByteData ByteReader

/-! ## Paths -/

/-- A path as the system resolves it: repeated slashes and `.` components dropped. A trailing slash
goes too, though the system refuses one behind a file. -/
structure PathBuf where
  absolute : Bool
  components : List String
deriving DecidableEq

namespace PathBuf

private def split : List Char → List Char → List (List Char)
  | piece, [] => [piece.reverse]
  | piece, '/' :: text => piece.reverse :: split [] text
  | piece, c :: text => split (c :: piece) text

/-- `PathBuf::from`. -/
def parse (text : String) : PathBuf where
  absolute := ['/'].isPrefixOf text.toList
  components := ((split [] text.toList).filter fun piece => piece ≠ [] ∧ piece ≠ ['.']).map
    String.ofList

/-- `Path::join`: an absolute argument replaces the path. -/
def join (path other : PathBuf) : PathBuf :=
  if other.absolute then other
  else { path with components := path.components ++ other.components }

end PathBuf

/-! ## Temporary files -/

/-- How one operation on a temporary file ends. A failed write may have put some
of its bytes into the file. -/
inductive DiskOutcome where
  | done
  | failed (written : Nat) (error : IoError)
deriving DecidableEq

/-- The file system behind `TMPDIR`: the outcomes of the coming operations
(`done` once the list is used up), the largest size a file can have, and how a
file with given content reads when it is read back from its start. -/
structure Disk where
  outcomes : List DiskOutcome
  capacity : Nat
  readBack : Bytes → Reader

namespace Disk

/-- File sizes are 64-bit, and a file reads back as what was written to it. -/
structure Honest (disk : Disk) : Prop where
  capacity_lt : disk.capacity < 2 ^ 64
  patient : ∀ written, Patient (disk.readBack written)
  content_readBack : ∀ written, content (disk.readBack written) = written

/-- No operation fails, and a file of `size` bytes fits. -/
structure Takes (disk : Disk) (size : Nat) : Prop where
  done : ∀ outcome ∈ disk.outcomes, outcome = .done
  fits : size ≤ disk.capacity

end Disk

/-! ## The host -/

structure Host where
  /-- `env::var(..).ok()`. -/
  envVar : String → Option String
  /-- What reading an inherited descriptor delivers. Number 0 too is read apart from standard
  input, of which the program would find only what is left, and which it buffers by 8 KiB. -/
  descriptor : Int → Reader
  fileContents : PathBuf → Except IoError Bytes
  isFile : PathBuf → Bool
  isDir : PathBuf → Bool
  pathExists : PathBuf → Bool
  canonicalize : PathBuf → Option PathBuf
  currentDir : Option PathBuf
  /-- The output of a `git` invocation that succeeds, as (lossily decoded) text. -/
  gitOutput : List String → Option String
  /-- Seconds since the Unix epoch, or the clock error's text. -/
  unixTime : Except String Nat
  /-- The bytes `OsRng` hands out, by the variable they fill. -/
  osEntropy : FixedBytes 32
  salt : FixedBytes 11
  spoolKey : FixedBytes 32
  disk : Disk

/-- `read_to_string` of what was read as bytes. -/
def asString (contents : Except IoError Bytes) : Except IoError String := do
  let bytes ← contents
  match Text.fromUtf8 bytes with
  | some text => .ok (String.ofList text)
  | none => .error ⟨.invalidData, "stream did not contain valid UTF-8"⟩

theorem asString_utf8 (text : String) : asString (.ok (Text.utf8 text)) = .ok text := by
  change (match Text.fromUtf8 (Text.utf8 text) with
    | some text => Except.ok (String.ofList text)
    | none => Except.error _) = _
  rw [Text.fromUtf8_utf8]
  exact congrArg Except.ok String.ofList_toList

/-! ## Events -/

/-- What a run did, in order. Outputs are observable; the other events mark the
points where a check passed or a chunk was sealed, and leave no trace outside. -/
inductive Event where
  | stdout (bytes : Bytes)
  | stderr (text : String)
  /-- One `write_status_fd` call that reached a descriptor. -/
  | status (fd : Int) (text : String)
  /-- `decrypt_in_place_detached` accepted a wire chunk. -/
  | chunkAuthenticated (counter : UInt64) (termTag : UInt8) (plaintext : Bytes)
  /-- The Mode 1 trailer passed every check, the sender comparison included. -/
  | trailerAuthenticated (senderPub : FixedBytes 32)
  /-- The read after the stream reported end of input. -/
  | endOfInput
  /-- `run_encrypt` sealed a chunk under its payload key. -/
  | chunkSealed (payloadKey : FixedBytes 32)
      (sealing : SealedData.Sealing (FixedBytes 12) (FixedBytes 16))

/-- The bytes an event puts on standard output. -/
def Event.stdoutBytes : Event → Bytes
  | .stdout bytes => bytes
  | .status fd text => if fd = 1 then Text.utf8 text else []
  | _ => []

/-- The text an event puts on the status descriptor. -/
def Event.statusText : Event → String
  | .status _ text => text
  | _ => ""

structure Process where
  stdin : Reader
  events : List Event

namespace Process

/-- Everything the run has written to standard output. -/
def stdout (process : Process) : Bytes := process.events.flatMap Event.stdoutBytes

/-- Everything the run has written to the status descriptor. -/
def statusOutput (process : Process) : String :=
  String.join (process.events.map Event.statusText)

/-- A process about to start, with `stdin` to read. -/
def start (stdin : Reader) : Process := ⟨stdin, []⟩

@[simp] theorem stdin_start (stdin : Reader) : (start stdin).stdin = stdin := rfl

@[simp] theorem events_start (stdin : Reader) : (start stdin).events = [] := rfl

end Process

/-! ## Effects -/

abbrev Run := EStateM Stop Process

/-- `return Err(error)`. -/
def fail {α : Type} (error : Pipek1Error) : Run α := throw (.failed error)

/-- `?`. -/
def orStop {α : Type} : Except Stop α → Run α
  | .ok value => pure value
  | .error stop => throw stop

/-- `map_err(convert)?`. -/
def orFail {α ε : Type} (convert : ε → Pipek1Error) (outcome : Except ε α) : Run α :=
  orStop (Stop.mapErr convert outcome)

def record (event : Event) : Run Unit :=
  modify fun process => { process with events := process.events ++ [event] }

def writeStdout (bytes : Bytes) : Run Unit := record (.stdout bytes)

/-- `eprintln!`. -/
def eprintln (text : String) : Run Unit := record (.stderr (text ++ "\n"))

/-- `println!`. -/
def println (text : String) : Run Unit := writeStdout (Text.utf8 (text ++ "\n"))

/-- Run a reader operation on standard input; its `io::Result` is the value. -/
def onStdin {α : Type} (operation : Reader → Except IoError α × Reader) :
    Run (Except IoError α) :=
  modifyGet fun process =>
    ((operation process.stdin).1, { process with stdin := (operation process.stdin).2 })

/-- `stdin.read_exact(..).map_err(convert)?`. -/
def readStdin (convert : IoError → Pipek1Error) (width : Nat) : Run (FixedBytes width) := do
  let outcome ← onStdin (readExact width)
  orFail convert outcome

section Rules

open Effects

variable {α : Type} {post : α → Process → Prop} {failure : Stop → Process → Prop}
  {process : Process}

@[simp] theorem ends_fail (error : Pipek1Error) :
    Ends post failure (fail error process) ↔ failure (.failed error) process := Iff.rfl

@[simp] theorem ends_record {post : Unit → Process → Prop} (event : Event) :
    Ends post failure (record event process) ↔
      post () ⟨process.stdin, process.events ++ [event]⟩ := Iff.rfl

@[simp] theorem ends_writeStdout {post : Unit → Process → Prop} (bytes : Bytes) :
    Ends post failure (writeStdout bytes process) ↔
      post () ⟨process.stdin, process.events ++ [.stdout bytes]⟩ := Iff.rfl

@[simp] theorem ends_eprintln {post : Unit → Process → Prop} (text : String) :
    Ends post failure (eprintln text process) ↔
      post () ⟨process.stdin, process.events ++ [.stderr (text ++ "\n")]⟩ := Iff.rfl

theorem ends_orStop {outcome : Except Stop α}
    (onSuccess : ∀ value, outcome = .ok value → post value process)
    (onStop : ∀ stop, outcome = .error stop → failure stop process) :
    Ends post failure (orStop outcome process) := by
  cases outcome with
  | ok value => exact onSuccess value rfl
  | error stop => exact onStop stop rfl

theorem ends_orFail {ε : Type} {convert : ε → Pipek1Error} {outcome : Except ε α}
    (onSuccess : ∀ value, outcome = .ok value → post value process)
    (onError : ∀ error, outcome = .error error → failure (.failed (convert error)) process) :
    Ends post failure (orFail convert outcome process) := by
  cases outcome with
  | ok value => exact onSuccess value rfl
  | error error => exact onError error rfl

/-- Reading moves bytes from standard input to the buffer and records nothing. -/
theorem readStdin_ends (convert : IoError → Pipek1Error) (width : Nat) (process : Process) :
    Ends (fun buffer after =>
        content process.stdin = buffer.toList ++ content after.stdin ∧
          after.events = process.events ∧ (Smooth process.stdin → Smooth after.stdin))
      (fun _ after => after.events = process.events) (readStdin convert width process) := by
  rw [readStdin, ends_bind, onStdin, ends_modifyGet]
  refine ends_orFail ?_ ?_
  · intro buffer reading
    exact ⟨readExact_ok_content (Prod.ext reading rfl), rfl, readExact_smooth width⟩
  · intro error _
    rfl

theorem readStdin_of_readExact {convert : IoError → Pipek1Error} {width : Nat}
    {buffer : FixedBytes width} {rest : Reader}
    (reading : readExact width process.stdin = (.ok buffer, rest)) :
    readStdin convert width process = .ok buffer ⟨rest, process.events⟩ := by
  have read : onStdin (readExact width) process = .ok (.ok buffer) ⟨rest, process.events⟩ := by
    change EStateM.Result.ok _ _ = _
    rw [reading]
  rw [readStdin, bind_of_ok read]
  rfl

theorem readStdin_of_error {convert : IoError → Pipek1Error} {width : Nat} {error : IoError}
    {rest : Reader} (reading : readExact width process.stdin = (.error error, rest)) :
    readStdin convert width process =
      .error (.failed (convert error)) ⟨rest, process.events⟩ := by
  have read : onStdin (readExact width) process = .ok (.error error) ⟨rest, process.events⟩ := by
    change EStateM.Result.ok _ _ = _
    rw [reading]
  rw [readStdin, bind_of_ok read]
  rfl

end Rules

/-! ### Nothing recorded is taken back -/

/-- What `earlier` recorded stands at the front of the record. -/
def Recorded (earlier : List Event) (process : Process) : Prop := earlier <+: process.events

section Kept

open Effects

variable {earlier : List Event}

theorem record_preserves (event : Event) : Preserves (Recorded earlier) (record event) :=
  fun _ kept => kept.trans (List.prefix_append _ _)

theorem onStdin_preserves {α : Type} (operation : Reader → Except IoError α × Reader) :
    Preserves (Recorded earlier) (onStdin operation) :=
  fun _ kept => kept

theorem orStop_preserves {α : Type} (outcome : Except Stop α) :
    Preserves (Recorded earlier) (orStop outcome) := by
  cases outcome with
  | ok value => exact .pure value
  | error stop => exact .throw stop

end Kept

end PipeK1

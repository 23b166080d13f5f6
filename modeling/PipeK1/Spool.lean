import PipeK1.Host
import PipeK1.Library.Chunking

/-!
# The spool

`StreamSpooler`: plaintext waits in memory, or as sealed blocks in a temporary
file once it outgrows 16 MiB, until `release_to` writes it out. `Spool` puts
the spooler next to the disk it spills to and a log of everything it sealed.
-/

set_option autoImplicit false

namespace PipeK1

open ByteData ByteReader SealedData

abbrev memorySpoolLimit : Nat := 16 * 1024 * 1024

abbrev spoolChunkSize : Nat := 64 * 1024

abbrev spoolTagSize : Nat := 16

abbrev Block := Sealing (FixedBytes 12) (FixedBytes 16)

structure StreamSpooler where
  memBuffer : Bytes
  /-- The content of the temporary file, once there is one. -/
  diskFile : Option Bytes
  spoolKey : FixedBytes 32
  blockCounter : UInt64
  totalBytes : UInt64
  maxSize : Option UInt64
deriving DecidableEq

def StreamSpooler.new (spoolKey : FixedBytes 32) (maxSize : Option UInt64) : StreamSpooler where
  memBuffer := []
  diskFile := none
  spoolKey := spoolKey
  blockCounter := 0
  totalBytes := 0
  maxSize := maxSize

structure Spool where
  spooler : StreamSpooler
  disk : Disk
  sealings : List Block

namespace Spool

/-- The spooler a command starts with. -/
def start (host : Host) (maxSize : Option UInt64) : Spool :=
  ⟨StreamSpooler.new host.spoolKey maxSize, host.disk, []⟩

/-! ## Writing -/

def buildSpoolNonce (blockCounter : UInt64) : FixedBytes 12 :=
  (u64Be blockCounter).append (FixedBytes.zeros 4)

def buildSpoolAad (blockCounter : UInt64) (len : UInt32) : FixedBytes 12 :=
  (u64Be blockCounter).append (u32Be len)

def nextOutcome : EStateM IoError Spool DiskOutcome :=
  modifyGet fun spool =>
    (spool.disk.outcomes.head?.getD .done,
      { spool with disk := { spool.disk with outcomes := spool.disk.outcomes.tail } })

def setFile (file : Option Bytes) : EStateM IoError Spool Unit :=
  modify fun spool => { spool with spooler := { spool.spooler with diskFile := file } }

def openAnonymousTmpfile : EStateM IoError Spool Unit := do
  match ← nextOutcome with
  | .done => setFile (some [])
  | .failed _ error => throw error

def noSpace : IoError := ⟨.other, "No space left on device"⟩

/-- `write_all` at the end of the file: nothing is written past the capacity,
and a failure may leave a part of the bytes behind. -/
def writeAll (bytes : Bytes) : EStateM IoError Spool Unit := do
  let outcome ← nextOutcome
  let spool ← get
  let file := spool.spooler.diskFile.getD []
  match outcome with
  | .failed written error => do
      setFile (some (file ++ bytes.take (min written (spool.disk.capacity - file.length))))
      throw error
  | .done =>
      if file.length + bytes.length ≤ spool.disk.capacity then
        setFile (some (file ++ bytes))
      else do
        setFile (some (file ++ bytes.take (spool.disk.capacity - file.length)))
        throw noSpace

def logSealing (block : Block) : EStateM IoError Spool Unit :=
  modify fun spool => { spool with sealings := spool.sealings ++ [block] }

def countBlock : EStateM IoError Spool Unit :=
  modify fun spool =>
    { spool with spooler :=
      { spool.spooler with blockCounter := spool.spooler.blockCounter + 1 } }

/-- `None` is replaced by a fresh file; an open file is kept. -/
def ensureFile : EStateM IoError Spool Unit := do
  let spool ← get
  match spool.spooler.diskFile with
  | none => openAnonymousTmpfile
  | some _ => pure ()

variable (aead : Cipher)

/-- Seal one block and append `Len[4B BE] || Ciphertext[L] || Tag[16B]`. -/
def flushSingleBlockToDisk (data : Bytes) : EStateM IoError Spool Unit := do
  ensureFile
  let spool ← get
  let nonce := buildSpoolNonce spool.spooler.blockCounter
  let aad := buildSpoolAad spool.spooler.blockCounter (UInt32.ofNat data.length)
  match aead.encrypt spool.spooler.spoolKey nonce aad.toList data with
  | .error e => throw ⟨.other, "Spool encrypt error: " ++ e⟩
  | .ok (ct, tag) => do
      logSealing ⟨nonce, aad.toList, data, ct, tag⟩
      writeAll (u32Be (UInt32.ofNat data.length)).toList
      writeAll ct
      writeAll tag.toList
      countBlock

def flushBlocks (context : String) : List Bytes → EStateM String Spool Unit
  | [] => pure ()
  | block :: blocks => do
      EStateM.adaptExcept (fun e : IoError => context ++ e.message)
        (flushSingleBlockToDisk aead block)
      flushBlocks context blocks

/-- `mem::take` of the memory buffer. -/
def takeMemory : EStateM String Spool Bytes :=
  modifyGet fun spool =>
    (spool.spooler.memBuffer, { spool with spooler := { spool.spooler with memBuffer := [] } })

def spoolBlocks (bytes : Bytes) : List Bytes := Chunking.chunks spoolChunkSize (by decide) bytes

def storeChunk (chunk : Bytes) : EStateM String Spool Unit := do
  let spool ← get
  if spool.spooler.diskFile = none ∧
      spool.spooler.memBuffer.length + chunk.length ≤ memorySpoolLimit then
    set { spool with spooler :=
      { spool.spooler with memBuffer := spool.spooler.memBuffer ++ chunk } }
  else do
    let oldMem ← takeMemory
    flushBlocks aead "Spool spill error: " (spoolBlocks oldMem)
    flushBlocks aead "Spool disk write error: " (spoolBlocks chunk)

def countBytes (length : Nat) : EStateM String Spool Unit :=
  modify fun spool =>
    { spool with spooler :=
      { spool.spooler with totalBytes := spool.spooler.totalBytes + UInt64.ofNat length } }

/-- The ceiling, when the running total is over it. -/
def overCeiling (spooler : StreamSpooler) : Option UInt64 :=
  spooler.maxSize.filter (· < spooler.totalBytes)

def writeChunk (chunk : Bytes) : EStateM String Spool Unit := do
  countBytes chunk.length
  let spool ← get
  match overCeiling spool.spooler with
  | some max => throw ("Stream exceeded maximum allowed size ceiling (" ++
      toString max.toNat ++ " bytes)")
  | none => storeChunk aead chunk

/-! ## Releasing -/

/-- The file being read back and what has reached the output. -/
structure Release where
  file : Reader
  out : Bytes

def readFile (width : Nat) : EStateM IoError Release (FixedBytes width) := fun release =>
  match readExact width release.file with
  | (.ok buffer, rest) => .ok buffer { release with file := rest }
  | (.error error, rest) => .error error { release with file := rest }

def emit (bytes : Bytes) : EStateM IoError Release Unit :=
  modify fun release => { release with out := release.out ++ bytes }

/-- Read and verify one block. -/
def openBlock (spoolKey : FixedBytes 32) (blockIdx : UInt64) : EStateM IoError Release Bytes := do
  let lenBytes ← readFile 4
  let len := (u32FromBe lenBytes).toNat
  if len > spoolChunkSize ∨ len = 0 then
    throw ⟨.invalidData, "Invalid spool block framing header"⟩
  else do
    let ct ← readFile len
    let tag ← readFile spoolTagSize
    let nonce := buildSpoolNonce blockIdx
    let aad := buildSpoolAad blockIdx (UInt32.ofNat len)
    match aead.decrypt spoolKey nonce aad.toList ct.toList tag with
    | .error _ => throw ⟨.invalidData, "Spool disk tampering detected"⟩
    | .ok plaintext => return plaintext

/-- The loop over the blocks from `blockIdx` on. -/
def releaseBlocks (spoolKey : FixedBytes 32) : Nat → UInt64 → EStateM IoError Release Unit
  | 0, _ => pure ()
  | remaining + 1, blockIdx => do
      let plaintext ← openBlock aead spoolKey blockIdx
      emit plaintext
      releaseBlocks spoolKey remaining (blockIdx + 1)

/-- `release_to`, reading the temporary file from its start. -/
def releaseTo (spooler : StreamSpooler) (file : Reader) : EStateM.Result IoError Release Unit :=
  match spooler.diskFile with
  | some _ => releaseBlocks aead spooler.spoolKey spooler.blockCounter.toNat 0 ⟨file, []⟩
  | none => .ok () ⟨file, spooler.memBuffer⟩

/-- The release at the end of a command: the disk reads the file back. -/
def releaseToStdout (spool : Spool) : Run Unit :=
  match releaseTo aead spool.spooler
      (spool.disk.readBack (spool.spooler.diskFile.getD [])) with
  | .ok () release => writeStdout release.out
  | .error error release => do
      writeStdout release.out
      fail (.io error)

end Spool

end PipeK1

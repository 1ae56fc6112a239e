import Mtproto.Lib.Bytes
import Mtproto.Lib.Crash
import Mtproto.Lib.Program

/-!
# The configuration file

`Config.cpp`: a payload is written to the configuration file while the file it replaces waits under
the name with `.bak`, and the next `Config` moves a backup that it finds back into place.  `rename`
and `remove` are atomic; while the new file is open any prefix of what was handed to it may be on
the disk.  Every file operation can fail, and the process can die before it.
-/

namespace Mtproto.Tgnet

open Bytes Lib Lib.Interruptible

/-! ## Files -/

/-- The files `configPath` and `backupPath`. -/
structure Directory where
  config : Option (List UInt8)
  backup : Option (List UInt8)
deriving DecidableEq, Repr

/-- The bytes of a `NativeByteBuffer` up to its position, a `uint32_t`. -/
structure Payload where
  bytes : List UInt8
  length_lt : bytes.length < 2 ^ 32
deriving DecidableEq

/-- What `writeConfig` hands to the file: the size and the bytes. -/
def Payload.file (payload : Payload) : List UInt8 :=
  toLE 4 payload.bytes.length ++ payload.bytes

/-- The operations of `writeConfig` that change a file or report an error. -/
inductive FileOp
  | rename
  | removeOld
  | fopen
  | fwriteSize
  | fwriteData
  | fflush
  | fileno
  | fsync
  | fclose
  | removeNew
  | removeBackup
deriving DecidableEq, Repr

/-- What becomes of an operation: the process may die before it. -/
inductive Outcome
  | crash
  | failed
  | succeeded
deriving DecidableEq, Repr

/-- What the system does during one call: the outcome of each operation, and how much of the open
file is on the disk after it. -/
structure System where
  outcome : FileOp → Outcome
  onDisk : FileOp → ℕ

/-- An operation that has its effect when it succeeds. -/
def attempt (sys : System) (op : FileOp) (effect : Directory → Directory) :
    Interruptible Directory Bool :=
  match sys.outcome op with
  | .crash => crash
  | .failed => pure false
  | .succeeded => do
      modify effect
      pure true

/-- An operation on the open file, to which `data` was handed. -/
def writing (sys : System) (op : FileOp) (data : List UInt8) : Interruptible Directory Bool := do
  let done ← attempt sys op id
  modify fun d => { d with config := some (data.take (sys.onDisk op)) }
  pure done

/-- The same, when the operation before it succeeded. -/
def writingIf (before : Bool) (sys : System) (op : FileOp) (data : List UInt8) (skipped : Bool) :
    Interruptible Directory Bool :=
  if before then writing sys op data else pure skipped

/-! ## `Config` -/

/-- `Config::Config`: a backup takes the place of the file. -/
def openConfig (d : Directory) : Directory :=
  match d.backup with
  | some backup => { config := some backup, backup := none }
  | none => d

/-- The value of a `uint32_t` cast to `int32_t`. -/
def toInt32 (n : ℕ) : Int := if n < 2 ^ 31 then n else (n : Int) - 2 ^ 32

/-- `readConfig`. -/
def readConfig (d : Directory) : Option (List UInt8) :=
  match d.config with
  | none => none
  | some file =>
      let size := leNat (file.take 4)
      if 4 ≤ file.length ∧ 0 < size ∧ toInt32 size < file.length then
        let data := (file.drop 4).take size
        if data.length = size then some data else none
      else none

/-- The file becomes the backup; where there is a backup, the file is removed.  The result says
whether this call made a backup, nothing means an error. -/
def moveAside (sys : System) : Interruptible Directory (Option Bool) := do
  let d ← get
  match d.config, d.backup with
  | none, _ => pure (some false)
  | some file, none => do
      let renamed ← attempt sys .rename fun _ => { config := none, backup := some file }
      pure (if renamed then some true else none)
  | some _, some _ => do
      let _ ← attempt sys .removeOld fun d => { d with config := none }
      pure (some false)

/-- The writes to the open file, up to `fclose`; the result is `!error`. -/
def writeFile (sys : System) (payload : Payload) : Interruptible Directory Bool := do
  let size ← writing sys .fwriteSize (toLE 4 payload.bytes.length)
  let bytes ← writingIf size sys .fwriteData payload.file false
  let flushed ← writing sys .fflush payload.file
  let fd ← writing sys .fileno payload.file
  let synced ← writingIf fd sys .fsync payload.file true
  let closed ← writing sys .fclose payload.file
  if size && bytes && flushed && fd && synced && closed then do
    -- what was written, flushed and closed without an error is in the file
    modify fun d => { d with config := some payload.file }
    pure true
  else pure false

/-- The part of `writeConfig` from `fopen` on. -/
def replaceFile (sys : System) (payload : Payload) (hasBackupFile : Bool) :
    Interruptible Directory Bool := do
  let opened ← attempt sys .fopen fun d => { d with config := some [] }
  if opened then do
    let written ← writeFile sys payload
    if written then do
      if hasBackupFile then do
        let _ ← attempt sys .removeBackup fun d => { d with backup := none }
        pure true
      else pure true
    else do
      let _ ← attempt sys .removeNew fun d => { d with config := none }
      pure false
  else pure false

/-- `writeConfig`; the result says whether it ended without an error. -/
def writeConfig (sys : System) (payload : Payload) : Interruptible Directory Bool := do
  let moved ← moveAside sys
  match moved with
  | none => pure false
  | some hasBackupFile => replaceFile sys payload hasBackupFile

/-! ## Runs -/

/-- The files, whether the process is dead, and what is known of the calls so far: the payload of
the last one that ended without an error and those of the later ones that a crash cut short. -/
structure Store where
  directory : Directory
  crashed : Bool := false
  saved : Option Payload := none
  interrupted : List Payload := []

/-- A call of `writeConfig`, or a restart with a new `Config`. -/
inductive StoreEvent
  | write (payload : Payload) (sys : System)
  | restart

/-- The record after a call of `writeConfig`. -/
def Store.wrote (s : Store) (payload : Payload) : Option Bool × Directory → Store
  | (some true, d) => { directory := d, saved := some payload }
  | (some false, d) => { s with directory := d }
  | (none, d) =>
      { s with directory := d, crashed := true, interrupted := payload :: s.interrupted }

/-- After a crash only a restart can follow. -/
def storeStep : StoreEvent → Program Store Unit
  | .write payload sys => do
      let s ← Program.read
      if s.crashed then Program.fault
      else Program.update fun s => s.wrote payload (writeConfig sys payload s.directory)
  | .restart =>
      Program.update fun s => { s with directory := openConfig s.directory, crashed := false }

/-- A new `Config` over any file. -/
def Store.Fresh (s : Store) : Prop :=
  s.directory.backup = none ∧ s.saved = none ∧ s.interrupted = []

/-- A restart now reads the payload of the last call that ended without an error or of a later one
that was cut short. -/
def Store.Durable (s : Store) : Prop :=
  ∀ p, s.saved = some p →
    ∃ q, readConfig (openConfig s.directory) = some q.bytes ∧ (q = p ∨ q ∈ s.interrupted)

/-! ## Leaving a backup behind -/

/-- The operations whose success makes the new file complete. -/
def System.completes (sys : System) : Bool :=
  [FileOp.fopen, .fwriteSize, .fwriteData, .fflush, .fileno, .fsync, .fclose].all fun op =>
    sys.outcome op == .succeeded

/-- The file is written, but an older one stays under the backup's name: it was there before the
call, or the call made it and cannot remove it. -/
def leavesBackup (d : Directory) (sys : System) : Bool :=
  sys.completes &&
    match d.config, d.backup with
    | none, none => false
    | none, some _ => true
    | some _, some _ => sys.outcome .removeOld != .crash
    | some _, none => sys.outcome .rename == .succeeded && sys.outcome .removeBackup == .failed

/-- The calls that are safe in a state. -/
def Store.Safe (s : Store) : StoreEvent → Prop
  | .write payload sys => payload.bytes ≠ [] ∧ leavesBackup s.directory sys = false
  | .restart => True

end Mtproto.Tgnet

import Wacp.Library.Loops
import Wacp.Model.FsTrail
import Wacp.Model.Types

/-!
# The two snapshot stores

`wacp-trail/src/memory.rs`, and `fs_snapshot.rs` with files in one directory, each with the SHA-256
checksum of its payload in front. The hash is a parameter, and writing succeeds; `parse::<u64>`
refuses more than 64 bits.
-/

namespace Wacp

open Library

/-! ## In memory (memory.rs) -/

structure InMemorySnapshotStorage where
  workspaces : Table String (List UInt8)
  systems : List (ℕ × List UInt8)

namespace InMemorySnapshotStorage

def new : InMemorySnapshotStorage := { workspaces := ∅, systems := [] }

variable (s : InMemorySnapshotStorage) (workspaceId : WorkspaceId)

def writeWorkspace (data : List UInt8) : InMemorySnapshotStorage :=
  { s with workspaces := s.workspaces.set workspaceId.text data }

def readWorkspace : Except StorageError (Option (List UInt8)) :=
  .ok (s.workspaces.get workspaceId.text)

def deleteWorkspace : InMemorySnapshotStorage :=
  { s with workspaces := s.workspaces.remove workspaceId.text }

def writeSystem (sequence : ℕ) (data : List UInt8) : InMemorySnapshotStorage :=
  { s with systems := s.systems ++ [(sequence, data)] }

def readLatestSystem : Except StorageError (Option (ℕ × List UInt8)) :=
  .ok s.systems.getLast?

end InMemorySnapshotStorage

/-! ## In files (fs_snapshot.rs) -/

def dropPlus : List Char → List Char
  | '+' :: rest => rest
  | text => text

/-- `str::parse::<u64>`: an optional sign, then at least one digit, and a value below 2^64. -/
def parseU64 (text : List Char) : Option ℕ :=
  let digits := dropPlus text
  let value := Nat.ofDigitChars 10 digits 0
  if digits ≠ [] ∧ digits.all Char.isDigit ∧ value < UInt64.size then some value else none

def stripAffixes (head tail name : List Char) : Option (List Char) :=
  if head <+: name then
    let rest := name.drop head.length
    if tail <:+ rest then some (rest.take (rest.length - tail.length)) else none
  else none

/-- The files of the directory by name, the file the link points to, and the path of the
directory, which only messages show. -/
structure FileSnapshotStorage where
  dir : String
  files : Table String (List UInt8)
  latest : Option String

namespace FileSnapshotStorage

def new (dir : String) : FileSnapshotStorage := { dir := dir, files := ∅, latest := none }

def workspacePath (workspaceId : WorkspaceId) : String :=
  "ws-" ++ (workspaceId.text ++ ".snapshot")

def systemPath (sequence : ℕ) : String :=
  "system-" ++ (String.ofList (List.leftpad 12 '0' (Nat.toDigits 10 sequence)) ++ ".snapshot")

def latestLink : String := "system-latest.snapshot"

section Sha

variable (sha256 : List UInt8 → ChainHash) (s : FileSnapshotStorage) (workspaceId : WorkspaceId)
  (name : String)

def writeWithChecksum (data : List UInt8) : FileSnapshotStorage :=
  { s with files := s.files.set name ((sha256 data).bytes ++ data) }

def readWithChecksum : Except StorageError (Option (List UInt8)) :=
  match s.files.get name with
  | none => .ok none
  | some raw =>
    if raw.length < 32 then
      .error (.corruption ("snapshot too small: " ++ toString raw.length ++ " bytes"))
    else
      let payload := raw.drop 32
      if raw.take 32 ≠ (sha256 payload).bytes then
        .error (.corruption ("snapshot checksum mismatch in " ++ s.dir ++ "/" ++ name))
      else .ok (some payload)

def writeWorkspace (data : List UInt8) : FileSnapshotStorage :=
  s.writeWithChecksum sha256 (workspacePath workspaceId) data

def readWorkspace : Except StorageError (Option (List UInt8)) :=
  s.readWithChecksum sha256 (workspacePath workspaceId)

def deleteWorkspace : FileSnapshotStorage :=
  { s with files := s.files.remove (workspacePath workspaceId) }

def writeSystem (sequence : ℕ) (data : List UInt8) : FileSnapshotStorage :=
  { s.writeWithChecksum sha256 (systemPath sequence) data with
    latest := some (systemPath sequence) }

def sequenceOf : Option ℕ :=
  match stripAffixes "system-".toList ".snapshot".toList name.toList with
  | none => none
  | some text => if text = "latest".toList then none else parseU64 text

def readLatestSystem (entries : List String) : Except StorageError (Option (ℕ × List UInt8)) :=
  match entries.foldl (keepLargest sequenceOf) none with
  | none => .ok none
  | some (sequence, name) =>
    match s.readWithChecksum sha256 name with
    | .error e => .error e
    | .ok data => .ok (data.map fun d => (sequence, d))

end Sha

end FileSnapshotStorage

end Wacp

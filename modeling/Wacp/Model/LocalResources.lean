import Mathlib.Data.Finset.Basic
import Wacp.Library.Paths

/-!
# Local resources of the command-line client

`wacp-local/src`: the autonomy manager, which holds the operations that need no approval, and the
files below the working directory and the shell. A JavaScript string is the list of its UTF-16 code
units; names of operations are Lean strings, and may be members inherited from `Object.prototype`. A
method returns the calls it makes to the file system or the shell; a call that fails ends it.
-/

namespace Wacp.Local

open Library

abbrev JsString := List UInt16

def js (s : String) : JsString := s.toList.map fun c => c.toNat.toUInt16

def slash : UInt16 := 47

def dot : UInt16 := 46

inductive OperationType where
  | named (text : String)
  | inherited (property : String)
  deriving DecidableEq

instance : Coe String OperationType := ⟨.named⟩

/-! ## Errors (errors.ts) -/

structure AutonomyError where
  operation : String
  message : JsString
  deriving DecidableEq

def AutonomyError.of (operation : String) : AutonomyError :=
  { operation := operation
    message := js ("Operation '" ++ operation ++ "' requires human approval") }

/-! ## Trust (autonomy.ts) -/

inductive AutonomyPreset where
  | supervised | assisted | autonomous
  deriving DecidableEq

def AutonomyPreset.defaults : AutonomyPreset → Finset OperationType
  | .supervised => {.named "llm_call"}
  | .assisted => {.named "file_read", .named "git_read", .named "web_fetch", .named "llm_call"}
  | .autonomous => {.named "file_read", .named "file_write", .named "shell_exec",
      .named "git_read", .named "git_write", .named "web_fetch", .named "llm_call"}

structure AutonomyManager where
  (trusted alwaysTrusted : Finset OperationType)
  always_subset : alwaysTrusted ⊆ trusted

namespace AutonomyManager

def new (preset : AutonomyPreset) : AutonomyManager :=
  { trusted := preset.defaults, alwaysTrusted := ∅, always_subset := Finset.empty_subset _ }

variable (m : AutonomyManager) (op : OperationType)

def check : Bool := decide (op ∈ m.trusted)

def grant : AutonomyManager :=
  { m with
    trusted := insert op m.trusted
    always_subset := m.always_subset.trans (Finset.subset_insert _ _) }

def grantAlways : AutonomyManager :=
  { trusted := insert op m.trusted
    alwaysTrusted := insert op m.alwaysTrusted
    always_subset := Finset.insert_subset_insert op m.always_subset }

def revoke : AutonomyManager :=
  if h : op ∈ m.alwaysTrusted then m
  else
    { m with
      trusted := m.trusted.erase op
      always_subset := Finset.subset_erase.mpr ⟨m.always_subset, h⟩ }

def resetToPreset (preset : AutonomyPreset) : AutonomyManager :=
  { m with
    trusted := preset.defaults ∪ m.alwaysTrusted
    always_subset := Finset.subset_union_right }

end AutonomyManager

/-! ## Resources (resources.ts) -/

structure LocalResources where
  workingDir : JsString
  autonomy : AutonomyManager

inductive HostCall where
  | readFile (path : JsString)
  | mkdir (path : JsString)
  | writeFile (path : JsString) (content : JsString)
  | unlink (path : JsString)
  | readdir (path : JsString)
  | access (path : JsString)
  | spawn (cwd : JsString) (command : JsString) (timeout : ℕ)
  deriving DecidableEq

def HostCall.path : HostCall → JsString
  | .readFile path => path
  | .mkdir path => path
  | .writeFile path _ => path
  | .unlink path => path
  | .readdir path => path
  | .access path => path
  | .spawn cwd _ _ => cwd

def dirname (path : JsString) : JsString :=
  Paths.render slash (Paths.components slash path).dropLast

namespace LocalResources

variable (cwd : JsString) (r : LocalResources)

def requireTrust (op : String) : Except AutonomyError Unit :=
  if r.autonomy.check (.named op) then .ok () else .error (.of op)

def resolved (inputPath : JsString) : JsString :=
  Paths.resolve slash dot cwd [r.workingDir, inputPath]

def resolvePath (inputPath : JsString) : Except AutonomyError JsString :=
  -- `startsWith` compares the two strings
  if r.workingDir.isPrefixOf (r.resolved cwd inputPath) then .ok (r.resolved cwd inputPath)
  else
    .error
      { operation := "file_read"
        message := js "Path '" ++ inputPath ++ js "' escapes working directory" }

def readFile (cwd : JsString) (r : LocalResources) (filePath : JsString) :
    Except AutonomyError (List HostCall) := do
  r.requireTrust "file_read"
  let resolved ← r.resolvePath cwd filePath
  pure [.readFile resolved]

def writeFile (cwd : JsString) (r : LocalResources) (filePath content : JsString) :
    Except AutonomyError (List HostCall) := do
  r.requireTrust "file_write"
  let resolved ← r.resolvePath cwd filePath
  pure [.mkdir (dirname resolved), .writeFile resolved content]

def deleteFile (filePath : JsString) : Except AutonomyError (List HostCall) := do
  r.requireTrust "file_delete"
  let resolved ← r.resolvePath cwd filePath
  pure [.unlink resolved]

def readDir (dirPath : JsString) : Except AutonomyError (List HostCall) := do
  r.requireTrust "file_read"
  let resolved ← r.resolvePath cwd dirPath
  pure [.readdir resolved]

def fileExists (filePath : JsString) : Except AutonomyError (List HostCall) := do
  r.requireTrust "file_read"
  let resolved ← r.resolvePath cwd filePath
  pure [.access resolved]

/-- The directory of the shell: that of the options, if they name one. -/
def execDir (optsCwd : JsString) : Except AutonomyError JsString :=
  if optsCwd = [] then .ok r.workingDir else r.resolvePath cwd optsCwd

def exec (command optsCwd : JsString) (timeout : Option ℕ) :
    Except AutonomyError (List HostCall) := do
  r.requireTrust "shell_exec"
  let dir ← r.execDir cwd optsCwd
  pure [.spawn dir command (timeout.getD 30000)]

end LocalResources

end Wacp.Local

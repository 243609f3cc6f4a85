import ToolNodes.Disk
import ToolNodes.Json.Printer
import ToolNodes.Json.Reader
import ToolNodes.Log
import ToolNodes.State

/-!
# Stores

A store keeps the state of a registry. The file store keeps it as one JSON document in the pretty
form and makes the directories that its path needs; a file that does not exist loads as the empty
state. The memory store counts its saves and can be made to fail them. Opening a registry never
fails: a state that cannot be loaded counts as empty and leaves a warning.
-/

namespace ToolNodes

/-- Why a state cannot be loaded or saved. -/
inductive StoreError where
  | io (cause : DiskError)
  | serialization (cause : Json.Error)
  | readOnly
deriving DecidableEq, Repr

def StoreError.message : StoreError → String
  | io cause => "IO error: " ++ cause.message
  | serialization cause => "Serialization error: " ++ cause.message
  | readOnly => "Store error: memory store is read-only"

structure MemoryStore where
  state : State := {}
  saves : Nat := 0
  failing : Bool := false

structure FileStore where
  path : String
  disk : Disk

namespace FileStore

def present (s : FileStore) : Bool := s.disk.contains s.path

def text (s : FileStore) : Except StoreError String :=
  match s.disk.read s.path with
  | .error e => .error (.io e)
  | .ok bytes =>
    match Text.Utf8.decode? bytes with
    | some text => .ok text
    | none => .error (.io .invalidUtf8)

def load (s : FileStore) : Except StoreError State :=
  if !s.present then .ok .empty
  else
    s.text.bind fun text =>
      match Json.ofString text with
      | .ok doc => .ok (.ofJson doc)
      | .error e => .error (.serialization e)

def document (state : State) : List UInt8 := Text.Utf8.encode state.toJson.pretty

def save (s : FileStore) (state : State) : FileStore × Except StoreError Unit :=
  match s.disk.makeDirectories (pathComponents s.path).reverse.tail with
  | (disk, .error e) => ({ s with disk }, .error (.io e))
  | (disk, .ok ()) =>
    let (disk, result) := disk.write s.path (document state)
    ({ s with disk }, result.mapError .io)

end FileStore

namespace MemoryStore

/-- Keeps a state, unless saves are made to fail. -/
def save (s : MemoryStore) (state : State) : MemoryStore × Except StoreError Unit :=
  if s.failing then (s, .error .readOnly) else ({ s with state, saves := s.saves + 1 }, .ok ())

end MemoryStore

inductive Store where
  | memory (store : MemoryStore)
  | file (store : FileStore)

namespace Store

def load : Store → Except StoreError State
  | memory m => .ok m.state
  | file f => f.load

def save (s : Store) (state : State) : Store × Except StoreError Unit :=
  match s with
  | memory m => ((m.save state).map memory id)
  | file f => ((f.save state).map file id)

def describe : Store → String
  | memory _ => "memory"
  | file f => f.path

/-- The persisted state, or the empty one with a warning. -/
def loadOrEmpty (s : Store) : State × List Message :=
  match s.load with
  | .ok state => (state, [])
  | .error e =>
    (.empty, [.warn ("[NodeStore] Ignoring unreadable node state at " ++ s.describe ++ ": " ++
      e.message)])

end Store

end ToolNodes

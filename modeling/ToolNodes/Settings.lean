import ToolNodes.Disk
import ToolNodes.Text.Words

/-!
# Settings

Where the state of the registry is kept, and how long a request may take. The environment overrides
the defaults: `YXI_MCP_NODES` by a path that is not blank, `YXI_MCP_TIMEOUT` by a positive number of
seconds; a value that is neither is ignored.
-/

namespace ToolNodes

/-- What a run finds around it: the variables, the home directory and the one for temporary files. -/
structure Environment where
  get? : String → Option String
  home : String := "."
  temp : String := "/tmp"

structure Settings where
  statePath : String
  timeoutMs : Nat

namespace Settings

/-- The file in the home directory that keeps the state by default. -/
def stateFile : String := ".yxi_mcp_nodes.json"

def standard (env : Environment) : Settings := ⟨joinPath env.home stateFile, 30000⟩

/-- The value of a text of decimal digits, behind an optional plus sign, that fits 64 bits. -/
def word? (s : List Char) : Option Nat :=
  let digits := if s.head? = some '+' then s.tail else s
  if digits.isEmpty || !digits.all Char.isDigit then none
  else
    (some (digits.foldl (fun n c => n * 10 + (c.toNat - 48)) 0)).filter (· < Nat.pow 2 64)

def withStatePath (s : Settings) (path : String) : Settings := { s with statePath := path }

def withSeconds (s : Settings) (seconds : Nat) : Settings := { s with timeoutMs := seconds * 1000 }

/-- A timeout that counts: a positive number of seconds. -/
def positiveSeconds? (text : String) : Option Nat :=
  (word? (Text.trim text.toList)).filter (0 < ·)

def ofEnvironment (env : Environment) : Settings :=
  let s := match (env.get? "YXI_MCP_NODES").filter fun p => !Text.isBlankText p with
    | some path => (standard env).withStatePath (Text.trimmed path)
    | none => standard env
  match (env.get? "YXI_MCP_TIMEOUT").bind positiveSeconds? with
  | some seconds => s.withSeconds seconds
  | none => s

/-- Whether two settings are the same; paths are compared by their components. -/
def same (s t : Settings) : Bool :=
  pathComponents s.statePath = pathComponents t.statePath && s.timeoutMs = t.timeoutMs

end Settings

end ToolNodes

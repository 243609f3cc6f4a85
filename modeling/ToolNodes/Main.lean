import ToolNodes.CommandLine
import Std.Time.DateTime.Timestamp

/-!
# The program

The outer layer of the command line. It reads the environment and the part of the disk that the state
path leads through, runs the command line on them, and carries out what that run left behind. Standard
input is read for the shell only. The program makes no connections, so no node answers it, and it knows
no internationalized host names.
-/

namespace ToolNodes.Program

def variableNames : List String := ["YXI_MCP_NODES", "YXI_MCP_TIMEOUT", "YXI_DEBUG", "YXI_LOG_LEVEL"]

def environment : IO Environment := do
  let values ← variableNames.mapM fun name => do return (name, ← IO.getEnv name)
  return {
    get? := fun name => (values.lookup name).join
    home := (← IO.getEnv "HOME").getD "."
    temp := (← IO.getEnv "TMPDIR").getD "/tmp" }

def cause : IO.Error → DiskError
  | .permissionDenied _ number words => .os number.toNat words
  | _ => .os 5 "Input/output error"

/-- Why something cannot be done, if that is so. -/
def refusal {α : Type} (action : IO α) : IO (Option DiskError) := do
  match ← action.toBaseIO with
  | .ok _ => return none
  | .error e => return some (cause e)

def look (d : Disk) (path : String) : IO Disk := do
  match d.resolve path with
  | .error _ => return d
  | .ok target =>
    let here := (← IO.currentDir) / path
    if (d.entryAt? target.place).isSome then return d
    else if ← here.isDir then return d.put target.place .directory
    else if ← here.pathExists then
      let access : Disk.Access :=
        { read := ← refusal (IO.FS.readBinFile here)
          write := ← refusal (IO.FS.Handle.mk here .append) }
      let content ← if access.read.isNone then IO.FS.readBinFile here else pure .empty
      let ordinary := (← here.metadata).type == .file
      return d.put target.place
        (if ordinary then .file content.toList access else .device content.toList access)
    else return d

def lookAlong (path : String) : IO Disk := do
  let parts := pathParts path
  (List.range parts.length).foldlM (fun d n => look d ("/".intercalate (parts.take (n + 1)))) {}

/-- Makes the entries of a disk that differ from those before, the directories above them first. -/
def settle (before after : Disk) : IO Unit := do
  for (place, entry) in after.entries.reverse do
    if before.entryAt? place ≠ some entry then
      match entry with
      | .directory _ => IO.FS.createDir (Disk.pathOf place)
      | .file content _ => IO.FS.writeBinFile (Disk.pathOf place) ⟨content.toArray⟩
      | .device _ _ => pure ()

/-- The time stamp of the entries of a trace, in seconds. -/
def stamp : IO String := do
  let now := (← Std.Time.Timestamp.now).toMillisecondsSinceUnixEpoch.val.toNat
  let rest := toString (now % 1000)
  return "[" ++ toString (now / 1000) ++ "." ++ "".pushn '0' (3 - rest.length) ++ rest ++ "] "

def appendTrace (path : String) (entries : List Trace.Entry) : IO Unit := do
  let handle ← IO.FS.Handle.mk path .append
  for entry in entries do
    handle.putStr ((← stamp) ++ entry.line)

/-- Whether the arguments ask for a task that reads standard input. -/
def readsInput (arguments : List String) : Bool :=
  match CommandLine.parse arguments with
  | .run _ task => task = .shell
  | _ => false

def disk (env : Environment) (arguments : List String) : IO Disk :=
  match CommandLine.parse arguments with
  | .run options _ => lookAlong (CommandLine.settings env options).statePath
  | _ => return {}

def usage : String :=
  "Usage: yxi [--state PATH] [--timeout SECONDS] [-v] [nodes ... | tools | invoke | shell]\n"

def run (arguments : List String) : IO UInt32 := do
  let env ← environment
  let before ← disk env arguments
  let input ← if readsInput arguments then (← IO.getStdin).readBinToEnd else pure .empty
  let _ : Url.Idna := .ascii
  let o := CommandLine.run arguments env input.toList ⟨before, none, { reachable := false }⟩
  settle before o.world.disk
  if let some entries := o.world.trace then appendTrace (Trace.path env) entries
  if CommandLine.parse arguments = .help then IO.print usage else IO.print o.stdout
  IO.eprint (o.stderr.getD usage)
  return UInt32.ofNat o.code

end ToolNodes.Program

def main (arguments : List String) : IO UInt32 := ToolNodes.Program.run arguments

import ToolNodes.Settings
import ToolNodes.Text.Case
import ToolNodes.Text.Words

/-!
# The trace file

An opt-in file that records what goes over the wire. It is on when `YXI_DEBUG` is `1` or `true`, and
takes entries from the level that `YXI_LOG_LEVEL` names upwards, from `debug` when that names none.
The file comes into being when it is first asked for, and entries are appended to it.
-/

namespace ToolNodes

namespace Trace

inductive Level where
  | trace
  | debug
  | info
  | warn
  | error
deriving DecidableEq, Repr

def Level.rank : Level → Nat
  | trace => 0
  | debug => 1
  | info => 2
  | warn => 3
  | error => 4

/-- The name of a level, padded to one width. -/
def Level.label : Level → String
  | trace => "TRACE"
  | debug => "DEBUG"
  | info => "INFO "
  | warn => "WARN "
  | error => "ERROR"

/-- The level that a word names, in any case and between blanks. -/
def Level.ofWord? (word : String) : Option Level :=
  match Text.lower (Text.trimmed word) with
  | "trace" => some trace
  | "debug" => some debug
  | "info" => some info
  | "warn" => some warn
  | "error" => some error
  | _ => none

/-- An entry of the trace: its level, the part of the program that it comes from, and its text. -/
structure Entry where
  level : Level
  source : String
  text : String
deriving DecidableEq, Repr

def Entry.line (e : Entry) : String :=
  "[" ++ e.level.label ++ "] [" ++ e.source ++ "] " ++ e.text ++ "\n"

/-- Whether there is a trace file, and the least level that it takes. -/
structure Settings where
  enabled : Bool
  threshold : Level

def Settings.ofEnvironment (env : Environment) : Settings where
  enabled := (env.get? "YXI_DEBUG").any fun v =>
    v = "1" || Text.sameLetters v.toList "true".toList
  threshold := ((env.get? "YXI_LOG_LEVEL").bind Level.ofWord?).getD .debug

def Settings.takes (s : Settings) (level : Level) : Bool :=
  s.enabled && s.threshold.rank ≤ level.rank

def path (env : Environment) : String := joinPath env.temp "yxi-debug.log"

/-- The trace file: its entries, if it exists. -/
abbrev File := Option (List Entry)

def File.opened (s : Settings) (file : File) : File :=
  if s.enabled then some (file.getD []) else file

def File.append (s : Settings) (file : File) (entries : List Entry) : File :=
  if entries.isEmpty then file
  else (file.opened s).map fun old => old ++ entries.filter fun e => s.takes e.level

end Trace

end ToolNodes

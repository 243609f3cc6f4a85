import ToolNodes.Settings

/-!
# Arguments

The arguments of the program select a task through nested levels: the program, `nodes`, and the
tasks. Options may stand on every level, each once per level, and a deeper one counts over one above
it. A value is the next argument, unless that starts with a dash, or follows an equals sign. Behind
`--` every argument is a positional one. Arguments are read in order, and the first that does not
fit refuses them all, as does asking for the version or for help on its level.
-/

namespace ToolNodes.CommandLine

structure Options where
  state : Option String := none
  timeout : Option Nat := none
  verbose : Bool := false
deriving DecidableEq, Repr

inductive Task where
  | listNodes
  | addNode (name url : String) (token : Option String)
  | useNode (name : String)
  | removeNode (name : String)
  | tools (node : Option String)
  | invoke (tool payload : String) (node context : Option String)
  | shell
deriving DecidableEq, Repr

inductive Invocation where
  | run (options : Options) (task : Task)
  | version
  | help
  /-- The arguments do not fit. -/
  | refused
deriving DecidableEq, Repr

inductive Scope where
  | program
  | nodes
  | list
  | add
  | use
  | remove
  | tools
  | invoke
  | shell
deriving DecidableEq, Repr

def Scope.enter? : Scope → String → Option Scope
  | program, "nodes" => some nodes
  | program, "tools" => some tools
  | program, "invoke" => some invoke
  | program, "shell" => some shell
  | nodes, "list" => some list
  | nodes, "add" => some add
  | nodes, "use" => some use
  | nodes, "remove" => some remove
  | _, _ => none

/-- How many positional arguments the level takes at most. -/
def Scope.places : Scope → Nat
  | add => 3
  | use => 1
  | remove => 1
  | invoke => 2
  | _ => 0

/-- Whether the level has levels below it, and with them the word `help`. -/
def Scope.isOuter : Scope → Bool
  | program => true
  | nodes => true
  | _ => false

/-- Whether help can be asked for by these words behind `help`: the way down to a level, or to the
word `help` itself. -/
def Scope.hasHelp : Scope → List String → Bool
  | _, [] => true
  | scope, w :: rest =>
    match scope.enter? w with
    | some scope => scope.hasHelp rest
    | none => scope.isOuter && w = "help" && rest.isEmpty

/-- What was read so far. `seen` are the options of the level, by their names. -/
structure Scan where
  scope : Scope := .program
  seen : List String := []
  options : Options := {}
  node : Option String := none
  context : Option String := none
  words : List String := []

namespace Scan

/-- The task of the level that was reached, with its positional arguments. -/
def task? (s : Scan) : Option Task :=
  match s.scope, s.words with
  | .program, [] => some .shell
  | .list, [] => some .listNodes
  | .add, [name, url] => some (.addNode name url none)
  | .add, [name, url, token] => some (.addNode name url (some token))
  | .use, [name] => some (.useNode name)
  | .remove, [name] => some (.removeNode name)
  | .tools, [] => some (.tools s.node)
  | .invoke, [tool, payload] => some (.invoke tool payload s.node s.context)
  | .shell, [] => some .shell
  | _, _ => none

def finish (s : Scan) : Invocation :=
  match s.task? with
  | some task => .run s.options task
  | none => .refused

/-- Notes an option of the level; none if it was there already. -/
def see? (s : Scan) (name : String) : Option Scan :=
  if s.seen.contains name then none else some { s with seen := name :: s.seen }

def hasValued (s : Scan) (name : String) : Bool :=
  name = "state" || name = "timeout" || (name = "node" && (s.scope = .tools || s.scope = .invoke)) ||
    (name = "context" && s.scope = .invoke)

def set? (s : Scan) (name value : String) : Option Scan :=
  (s.see? name).bind fun s =>
    match name with
    | "state" =>
      if value.isEmpty then none
      else some { s with options := { s.options with state := some value } }
    | "timeout" =>
      (Settings.word? value.toList).map fun n =>
        { s with options := { s.options with timeout := some n } }
    | "node" => some { s with node := some value }
    | "context" => some { s with context := some value }
    | _ => none

def verbose? (s : Scan) : Option Scan :=
  (s.see? "verbose").map fun s => { s with options := { s.options with verbose := true } }

/-- Enters a level or takes a positional argument. -/
def word? (s : Scan) (w : String) : Option Scan :=
  match s.scope.enter? w with
  | some scope => some { s with scope, seen := [] }
  | none =>
    if s.words.length < s.scope.places then some { s with words := s.words ++ [w] } else none

/-- Reads the letters of a short option: on with the scan, or done. -/
def letters (s : Scan) : List Char → Scan ⊕ Invocation
  | [] => .inl s
  | 'v' :: rest =>
    match s.verbose? with
    | some s => s.letters rest
    | none => .inr .refused
  | 'V' :: _ => .inr (if s.scope = .program then .version else .refused)
  | 'h' :: _ => .inr .help
  | _ :: _ => .inr .refused

end Scan

inductive Form where
  | escape
  | long (name : String) (value : Option String)
  | short (letters : List Char)
  | word
deriving DecidableEq, Repr

/-- The form of an argument. A dash of its own is a word. -/
def Form.ofArgument (a : String) : Form :=
  match a.toList with
  | ['-', '-'] => .escape
  | '-' :: '-' :: rest =>
    let value := match rest.dropWhile (· ≠ '=') with
      | [] => none
      | _ :: v => some (String.ofList v)
    .long (String.ofList (rest.takeWhile (· ≠ '='))) value
  | '-' :: c :: rest => .short (c :: rest)
  | _ => .word

def scan (s : Scan) : List String → Invocation
  | [] => s.finish
  | a :: rest =>
    match Form.ofArgument a with
    | .escape => { s with words := s.words ++ rest }.finish
    | .short letters =>
      match s.letters letters with
      | .inl s => scan s rest
      | .inr done => done
    | .word =>
      if s.scope.isOuter && a = "help" then
        if s.scope.hasHelp rest then .help else .refused
      else
        match s.word? a with
        | some s => scan s rest
        | none => .refused
    | .long name value =>
      if name = "verbose" && value.isNone then
        match s.verbose? with
        | some s => scan s rest
        | none => .refused
      else if name = "version" && value.isNone && s.scope = .program then .version
      else if name = "help" && value.isNone then .help
      else if s.hasValued name then
        match value, rest with
        | some v, rest =>
          match s.set? name v with
          | some s => scan s rest
          | none => .refused
        | none, v :: rest =>
          if Form.ofArgument v = .word then
            match s.set? name v with
            | some s => scan s rest
            | none => .refused
          else .refused
        | none, [] => .refused
      else .refused

def parse (arguments : List String) : Invocation := scan {} arguments

end ToolNodes.CommandLine

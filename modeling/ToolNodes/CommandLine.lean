import ToolNodes.CommandLine.Arguments
import ToolNodes.Session

/-!
# The command line

One run of the program: the arguments select a task, the settings come from the environment and the
options, and the registry is opened on the state file. Results go to the standard output; errors,
prompts and, if asked for, log messages go to the error output. The code is 0 on success, 1 on an
error and 2 when the arguments do not fit; what is then said about their use is not part of the
model.
-/

namespace ToolNodes.CommandLine

/-- What a run works on: the disk, the trace file and the peer. -/
structure World where
  disk : Disk
  trace : Trace.File
  peer : Peer

/-- What a run leaves behind. The error output of a refusal is not part of the model. -/
structure Outcome where
  code : Nat
  stdout : String
  stderr : Option String
  world : World

/-- What a task leaves behind. -/
structure Done where
  registry : Registry
  peer : Peer
  stdout : String := ""
  /-- The messages, and what is written to the error output, in order. -/
  outputs : List Session.Output := []
  trace : List Trace.Entry := []
  ok : Bool := true

def versionText : String := "yxi 0.1.0\n"

def failed (registry : Registry) (peer : Peer) (text : String) : Done :=
  { registry, peer, outputs := [.err (text ++ "\n")], ok := false }

def change (peer : Peer) (c : Registry.Change) (done : String) : Done :=
  let messages := c.messages.map Session.Output.log
  match c.result with
  | .ok () => { registry := c.registry, peer, stdout := done ++ "\n", outputs := messages }
  | .error e =>
    { registry := c.registry, peer, outputs := messages ++ [.err (e.rendered ++ "\n")], ok := false }

def call {α : Type} (registry : Registry) (c : Call α) (text : α → String) : Done :=
  let messages := c.messages.map Session.Output.log
  match c.result with
  | .ok v =>
    { registry, peer := c.peer, stdout := text v ++ "\n", outputs := messages, trace := c.trace }
  | .error e =>
    { registry, peer := c.peer, outputs := messages ++ [.err (e.rendered ++ "\n")],
      trace := c.trace, ok := false }

/-- A JSON argument; the error names it. -/
def jsonArgument (name text : String) : Except String Json :=
  (Json.ofString text).mapError fun e => "error: Invalid JSON " ++ name ++ ": " ++ e.message

/-- The payload and the context of a call. -/
def jsonArguments (payload : String) (context : Option String) :
    Except String (Json × Option Json) :=
  match jsonArgument "payload" payload, context with
  | .error e, _ => .error e
  | .ok payload, none => .ok (payload, none)
  | .ok payload, some context => (jsonArgument "context" context).map fun c => (payload, some c)

def perform [Url.Idna] (r : Registry) (peer : Peer) (stdin : List UInt8) : Task → Done
  | .listNodes => { registry := r, peer, stdout := Render.nodes r.list r.activeName ++ "\n" }
  | .addNode name url token =>
    change peer (r.add name url token) ("Added MCP node '" ++ name ++ "' -> " ++ url)
  | .useNode name => change peer (r.use name) ("Active MCP set to '" ++ name ++ "'")
  | .removeNode name => change peer (r.remove name) ("Removed MCP node '" ++ name ++ "'")
  | .tools node => call r (Client.listTools r node peer) Render.tools
  | .invoke tool payload node context =>
    match jsonArguments payload context with
    | .error text => failed r peer text
    | .ok (payload, context) => call r (Client.invoke r tool payload node context peer) Json.pretty
  | .shell =>
    let run := Session.run { registry := r } peer stdin
    let failure := run.failure.map fun e => Session.Output.err ("error: " ++ e.message ++ "\n")
    { registry := run.session.registry, peer := run.peer,
      stdout := Session.Output.outText run.outputs, outputs := run.outputs ++ failure.toList,
      trace := run.trace, ok := run.failure.isNone }

/-- The error output: log messages if the console is verbose, and what is written to it. -/
def errorText (verbose : Bool) (outputs : List Session.Output) : String :=
  let console : Console := { verbose := true }
  String.join (outputs.map fun
    | .out _ => ""
    | .err text => text
    | .log message => if verbose then console.text [message] else "")

def settings (env : Environment) (options : Options) : Settings :=
  let s := Settings.ofEnvironment env
  let s := options.state.elim s s.withStatePath
  (options.timeout.filter (0 < ·)).elim s s.withSeconds

def diskOf (store : Store) (disk : Disk) : Disk :=
  match store with
  | .file f => f.disk
  | .memory _ => disk

def runTask [Url.Idna] (env : Environment) (options : Options) (task : Task) (stdin : List UInt8)
    (w : World) :
    Outcome :=
  let settings := settings env options
  let tracing := Trace.Settings.ofEnvironment env
  let announced := options.verbose && tracing.enabled
  let notice := if announced then [Message.info ("Debug trace file: " ++ Trace.path env)] else []
  let (registry, messages) := Registry.openStore (.file ⟨settings.statePath, w.disk⟩)
  let done := perform registry w.peer stdin task
  let opening := (notice ++ messages).map Session.Output.log
  let trace := if announced then w.trace.opened tracing else w.trace
  { code := if done.ok then 0 else 1
    stdout := done.stdout
    stderr := some (errorText options.verbose (opening ++ done.outputs))
    world :=
      { disk := diskOf done.registry.store w.disk
        trace := trace.append tracing done.trace
        peer := done.peer } }

def run [Url.Idna] (arguments : List String) (env : Environment) (stdin : List UInt8) (w : World) :
    Outcome :=
  match parse arguments with
  | .refused => ⟨2, "", none, w⟩
  | .version => ⟨0, versionText, some "", w⟩
  | .help => ⟨0, "", some "", w⟩
  | .run options task => runTask env options task stdin w

end ToolNodes.CommandLine

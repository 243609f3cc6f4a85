import ToolNodes.Client
import ToolNodes.Command
import ToolNodes.Render
import ToolNodes.Session.History
import ToolNodes.Session.Line

/-!
# Sessions

A session holds a registry, a mode and a history, and takes lines. Slash commands work on the
registry and call tools; in offline mode a plain line is a call to a node, by default to the one that
the mode names. Results go to `out`, notices and errors to `err`. A turn is what one line does; a run
is the turns of all lines of an input, each behind a prompt.
-/

namespace ToolNodes

inductive Mode where
  | online
  /-- Calls, by default to this node. -/
  | offline (node : String)
deriving DecidableEq, Repr

inductive Flow where
  | goOn
  | quit
deriving DecidableEq, Repr

structure Session where
  registry : Registry
  mode : Mode := .online
  history : History := []

/-- What a line leaves behind. -/
structure Turn where
  session : Session
  peer : Peer
  flow : Flow := .goOn
  out : String := ""
  err : String := ""
  messages : List Message := []
  trace : List Trace.Entry := []

namespace Session

/-! ## Turns -/

/-- A turn that only says something. -/
def say (s : Session) (peer : Peer) (out err : String) : Turn :=
  { session := s, peer, out, err }

/-- A turn that only reports an error. -/
def complain (s : Session) (peer : Peer) (message : String) : Turn := s.say peer "" (message ++ "\n")

/-- The turn of a change of the registry; `done` is what it reports on success, and `mode` the mode
that it then leads to. -/
def changeTurn (s : Session) (peer : Peer) (c : Registry.Change) (mode : Mode) (done : String) :
    Turn :=
  match c.result with
  | .ok () =>
    { session := { s with registry := c.registry, mode }, peer, out := done ++ "\n",
      messages := c.messages }
  | .error e =>
    { session := { s with registry := c.registry }, peer, err := e.rendered ++ "\n",
      messages := c.messages }

/-- The turn of a call; `answer` is the entry that a result adds to the history. -/
def callTurn {α : Type} (s : Session) (c : Call α) (text : α → String) (answer : α → List Entry) :
    Turn :=
  match c.result with
  | .ok v =>
    { session := { s with history := s.history ++ answer v }, peer := c.peer, out := text v ++ "\n",
      messages := c.messages, trace := c.trace }
  | .error e =>
    { session := s, peer := c.peer, err := e.rendered ++ "\n", messages := c.messages,
      trace := c.trace }

def commandTurn [Url.Idna] (s : Session) (peer : Peer) : Command → Turn
  | .list => s.say peer (Render.nodes s.registry.list s.registry.activeName ++ "\n") ""
  | .add name url token =>
    s.changeTurn peer (s.registry.add name url token) s.mode
      ("Added MCP node '" ++ name ++ "' -> " ++ url)
  | .use name =>
    s.changeTurn peer (s.registry.use name) s.mode ("Active MCP set to '" ++ name ++ "'")
  | .remove name =>
    if s.mode = .offline name then
      s.changeTurn peer (s.registry.remove name) .online
        ("Removed MCP node '" ++ name ++ "' (back to online mode)")
    else
      s.changeTurn peer (s.registry.remove name) s.mode ("Removed MCP node '" ++ name ++ "'")
  | .tools node =>
    s.callTurn (Client.listTools s.registry node peer) Render.tools fun _ => []
  | .invoke tool payload =>
    s.callTurn (Client.invoke s.registry tool payload none (some s.history.slashContext) peer)
      Json.pretty fun result => [History.slashAnswer tool result]

/-- The turn of the text behind `/mcp`. -/
def slashTurn [Url.Idna] (s : Session) (peer : Peer) (text : String) : Turn :=
  match Command.parse text with
  | .ok command => s.commandTurn peer command
  | .error e => s.complain peer e.message

/-- The turn that enters offline mode, on the named node or else the active one. -/
def offlineTurn (s : Session) (peer : Peer) (node : Option String) : Turn :=
  match node.or s.registry.activeName with
  | none => s.complain peer "Specify a node: /mode offline <node_name>"
  | some node =>
    if s.registry.contains node then
      { session := { s with mode := .offline node }, peer,
        out := "Switched to offline mode targeting MCP '" ++ node ++ "'.\n" }
    else s.complain peer ("Unknown MCP node: " ++ node)

def modeText (s : Session) : String :=
  match s.mode with
  | .online => "online (offline node: not set)"
  | .offline node => "offline (node: " ++ node ++ ")"

/-- The turn of the text behind `/mode`. -/
def modeTurn (s : Session) (peer : Peer) (text : String) : Turn :=
  match Text.words text.toList with
  | [] =>
    s.say peer ("Current mode: " ++ s.modeText ++ "\n")
      "Usage: /mode online | /mode offline <node_name>\n"
  | target :: more =>
    match Text.lower (String.ofList target) with
    | "online" =>
      { session := { s with mode := .online }, peer, out := "Switched to online mode.\n" }
    | "offline" => s.offlineTurn peer (more.head?.map String.ofList)
    | _ => s.complain peer "Unknown mode. Use 'online' or 'offline'."

/-- The turn of a plain line in offline mode on a node. The line enters the history when its node is
registered, before the call is made. -/
def directTurn [Url.Idna] (s : Session) (peer : Peer) (offlineNode line : String) : Turn :=
  match DirectCall.parse line with
  | .error e => s.complain peer e.message
  | .ok call =>
    let node := call.node.getD offlineNode
    if s.registry.contains node then
      let s := { s with history := s.history ++ [(⟨.user, line⟩ : Entry)] }
      s.callTurn
        (Client.invoke s.registry call.tool call.payload (some node) (some s.history.directContext)
          peer)
        Json.pretty fun result => [History.directAnswer call.tool node result]
    else s.complain peer (Error.notFound node).rendered

def turnOf [Url.Idna] (s : Session) (peer : Peer) : Line → Turn
  | .blank => s.say peer "" ""
  | .slash text => s.slashTurn peer text
  | .mode text => s.modeTurn peer text
  | .quit => { s.say peer "" "" with flow := .quit }
  | .plain text =>
    match s.mode with
    | .online =>
      s.complain peer
        "Chat is not available in this shell. Use /mcp ... or /mode offline [node]."
    | .offline node => s.directTurn peer node text

def turn [Url.Idna] (s : Session) (peer : Peer) (line : String) : Turn :=
  s.turnOf peer (Line.read line)

/-! ## Runs -/

inductive Output where
  | out (text : String)
  | err (text : String)
  | log (message : Message)

/-- What a run leaves behind. -/
structure Run where
  session : Session
  peer : Peer
  outputs : List Output := []
  trace : List Trace.Entry := []
  failure : Option DiskError := none

/-- What a turn puts out: its messages come before what it writes. -/
def outputsOf (t : Turn) : List Output := t.messages.map .log ++ [.out t.out, .err t.err]

def prompt (s : Session) : String :=
  match s.mode with
  | .online => "yxi> "
  | .offline node => "yxi[" ++ node ++ "]> "

/-- Runs a session over lines of bytes, up to the one that quits. A line that is no UTF-8 ends the
run with a failure. -/
def runLines [Url.Idna] (s : Session) (peer : Peer) : List (List UInt8) → Run
  | [] => { session := s, peer, outputs := [.err s.prompt] }
  | bytes :: rest =>
    match Text.Utf8.decode? bytes with
    | none => { session := s, peer, outputs := [.err s.prompt], failure := some .invalidUtf8 }
    | some line =>
      let t := s.turn peer line
      let outputs := .err s.prompt :: outputsOf t
      match t.flow with
      | .quit => { session := t.session, peer := t.peer, outputs, trace := t.trace }
      | .goOn =>
        let more := t.session.runLines t.peer rest
        { more with outputs := outputs ++ more.outputs, trace := t.trace ++ more.trace }

/-- A line without the carriage return before its line feed. -/
def withoutReturn (line : List UInt8) : List UInt8 :=
  if line.getLast? = some 13 then line.dropLast else line

/-- The lines of an input. Each ends at a line feed, with one carriage return before it dropped; what
is behind the last line feed is a line unless it is empty. -/
def linesOf (input : List UInt8) : List (List UInt8) :=
  let parts := Text.splitOn (· = 10) input
  parts.dropLast.map withoutReturn ++ (parts.getLast?.filter fun part => !part.isEmpty).toList

def run [Url.Idna] (s : Session) (peer : Peer) (input : List UInt8) : Run :=
  s.runLines peer (linesOf input)

end Session

namespace Session.Output

def outText (outputs : List Output) : String :=
  String.join (outputs.filterMap fun
    | .out text => some text
    | _ => none)

/-- What goes to the error output, messages aside. -/
def errText (outputs : List Output) : String :=
  String.join (outputs.filterMap fun
    | .err text => some text
    | _ => none)

def messages (outputs : List Output) : List Message :=
  outputs.filterMap fun
    | .log message => some message
    | _ => none

end Session.Output

end ToolNodes

import ToolNodes.Exchange
import ToolNodes.Log.Trace
import ToolNodes.Registry
import ToolNodes.Tool
import ToolNodes.Url.Parse

/-!
# Calling tools

A node lists its tools under `tools` and takes calls under `tools` and the tool's name, both behind
the path of its URL. A call makes one attempt: the request is made or refused, it is answered or not,
an answer with an error status is an error, and the body of any other must be empty or JSON.

The client resolves the node of a call in the registry: by name if one is given, else the active
one. A tool name is checked before that, so that an empty name or one that is a dot segment fails in
the same way whatever is registered.
-/

namespace ToolNodes

/-- What a call leaves behind: its result, the messages for the log, the entries for the trace file,
and the peer. -/
structure Call (α : Type) where
  result : Except Error α
  messages : List Message
  trace : List Trace.Entry
  peer : Peer

def Call.map {α β : Type} (f : α → β) (c : Call α) : Call β := { c with result := c.result.map f }

/-- The call behind some messages. -/
def Call.after {α : Type} (messages : List Message) (c : Call α) : Call α :=
  { c with messages := messages ++ c.messages }

def Call.refuse {α : Type} (peer : Peer) (e : Error) : Call α := ⟨.error e, [], [], peer⟩

namespace Client

/-! ## Endpoints -/

/-- The URL behind a node's URL with some segments added. -/
def endpoint [Url.Idna] (node : Node) (added : List String) : Except Error Url :=
  match Url.parse node.url with
  | .error e => .error (.invalidArgument (.urlInvalid node.name e))
  | .ok url =>
    match url.extend? (added.map String.toList) with
    | some url => .ok url
    | none => .error (.invalidArgument (.urlWithoutPath node.name node.url))

def checkToolName (tool : String) : Except Error Unit :=
  if tool = "" then .error (.invalidArgument .toolMissing)
  else if tool = "." || tool = ".." then .error (.invalidArgument (.toolInvalid tool))
  else .ok ()

/-! ## Requests -/

def userAgent : String := "yxi/0.1.0"

def fitsHeader (s : String) : Bool :=
  s.toList.all fun c => (0x20 ≤ c.toNat && c.toNat ≠ 0x7F) || c = '\t'

def fitsRequestLine (host : List Char) : Bool :=
  !host.any fun c => ['"', '`', '{', '}'].contains c

/-- The longest URL that a request can be made to, in bytes, without its credentials but with its
fragment. -/
def maxUrl : Nat := 65534

/-- The header fields of a request to a URL with the token of a node. Credentials in the URL make an
authorization of their own, before that of the token. -/
def headers (node : Node) (url : Url) : List (String × String) :=
  (url.credentials?.map fun c => ("authorization", c.basic)).toList ++
    [("content-type", "application/json")] ++
    (node.token.map fun token => ("authorization", "Bearer " ++ token)).toList ++
    [("accept", "*/*"), ("user-agent", userAgent)]

/-- Makes a request to a URL with the token of a node. Of several reasons to refuse, a missing host
comes first, then the token, then the scheme and the form of the URL. -/
def request (node : Node) (url : Url) (method : Method) (body : String) :
    Except TransportError Request :=
  match url.host? with
  | none => .error (.urlRefused url.toString)
  | some host =>
    if node.token.any fun token => !fitsHeader token then .error .headerRefused
    else if !sendable url.scheme || !fitsRequestLine host || maxUrl < url.bare.text.length then
      .error (.urlRefused url.bare.toString)
    else .ok { method, url := url.bare.withoutFragment, headers := headers node url, body }

/-! ## Answers -/

def excerptLength : Nat := 200

/-- The front of a text, with dots if it goes on. -/
def excerpt (text : String) : String :=
  if excerptLength < text.toList.length then
    String.ofList (text.toList.take excerptLength) ++ "..."
  else text

/-- The text of a body, without a byte order mark at its front. -/
def bodyText (bytes : List UInt8) : String :=
  match bytes with
  | 0xEF :: 0xBB :: 0xBF :: rest => Text.Utf8.decodeLossy rest
  | bytes => Text.Utf8.decodeLossy bytes

def entry (level : Trace.Level) (text : String) : Trace.Entry := ⟨level, "client::http", text⟩

def unanswered (url : String) (cause : TransportError) (peer : Peer) : Call (Option Json) where
  result := .error (.network url cause)
  messages := [.error ("[ToolClient] Request to " ++ url ++ " failed: " ++ cause.message)]
  trace := [entry .debug ("-> " ++ url)]
  peer

/-- An answer with an error status, which came from a place that need not be the URL. -/
def answeredError (url place : String) (reply : Reply) (peer : Peer) : Call (Option Json) :=
  let detail := if reply.isWhole then bodyText reply.content else ""
  let status := statusText reply.status
  { result := .error (.network url (.badStatus reply.status place))
    messages :=
      [.error ("[ToolClient] " ++ url ++ " answered " ++ status ++ ": " ++ excerpt detail)]
    trace :=
      [entry .debug ("-> " ++ url), entry .warn ("<- " ++ status ++ " " ++ url ++ ": " ++ detail)]
    peer }

def answered (url : String) (reply : Reply) (peer : Peer) : Call (Option Json) :=
  let sent := entry .debug ("-> " ++ url)
  if !reply.isWhole then ⟨.error (.network url .bodyBroken), [], [sent], peer⟩
  else
    let body := reply.content
    let received := entry .debug ("<- " ++ statusText reply.status ++ " " ++ url ++ " (" ++
      toString body.length ++ " bytes)")
    if body.isEmpty then ⟨.ok none, [], [sent, received], peer⟩
    else
      let trace := [sent, received, entry .trace (Text.Utf8.decodeLossy body)]
      match Json.ofBytes body with
      | .ok v => ⟨.ok (some v), [], trace, peer⟩
      | .error e =>
        ⟨.error (.malformedResponse url e), [.warn ("[ToolClient] Non-JSON body from " ++ url)],
          trace, peer⟩

def outcome (place : Url) : Delivery.Ending → Except TransportError Reply
  | .answer reply => .ok reply
  | .closed => .error (.unanswered place.toString)
  | .tooMany => .error (.redirected place.toString)
  | .refused url => .error (.urlRefused url.toString)

/-- Makes one attempt; an answer with an empty body gives no value. -/
def send (node : Node) (url : Url) (method : Method) (body : String) (peer : Peer) :
    Call (Option Json) :=
  let text := url.toString
  match request node url method body with
  | .error cause => unanswered text cause peer
  | .ok request =>
    let (peer, delivery) := peer.send request
    let place := delivery.place.getD url.bare
    match outcome place delivery.ending with
    | .error cause => unanswered text cause peer
    | .ok reply =>
      if isErrorStatus reply.status then answeredError text place.toString reply peer
      else answered text reply peer

/-! ## Calls to a node -/

/-- Asks a node for its tools. An empty answer lists none. -/
def listToolsAt [Url.Idna] (node : Node) (peer : Peer) : Call (List Tool) :=
  match endpoint node ["tools"] with
  | .error e => .refuse peer e
  | .ok url =>
    let call := (send node url .get "" peer).map fun payload => payload.elim [] Tool.ofListing
    match call.result with
    | .error _ => call
    | .ok tools =>
      { call with
        messages := call.messages ++ [.info ("[ToolClient] Node '" ++ node.name ++ "' lists " ++
          toString tools.length ++ " tool(s)")] }

def emptyAnswer : Json := .object [("ok", .bool true)]

def invokeAt [Url.Idna] (node : Node) (tool : String) (envelope : Envelope) (peer : Peer) :
    Call Json :=
  match checkToolName tool with
  | .error e => .refuse peer e
  | .ok () =>
    match endpoint node ["tools", tool] with
    | .error e => .refuse peer e
    | .ok url =>
      ((send node url .post envelope.toJson.compact peer).map fun payload =>
          payload.getD emptyAnswer).after
        [.info ("[ToolClient] Calling tool '" ++ tool ++ "' on node '" ++ node.name ++ "'")]

/-! ## Calls by node name -/

/-- Asks the named node, or the active one, for its tools. -/
def listTools [Url.Idna] (registry : Registry) (node : Option String) (peer : Peer) :
    Call (List Tool) :=
  match registry.resolve node with
  | .error e => .refuse peer e
  | .ok node => listToolsAt node peer

/-- Calls a tool of the named node, or of the active one. -/
def invoke [Url.Idna] (registry : Registry) (tool : String) (payload : Json) (node : Option String)
    (context : Option Json) (peer : Peer) : Call Json :=
  match checkToolName tool with
  | .error e => .refuse peer e
  | .ok () =>
    match registry.resolve node with
    | .error e => .refuse peer e
    | .ok node => invokeAt node tool ⟨payload, context⟩ peer

def summary (registry : Registry) : String :=
  "McpClient \x7b registry: " ++ registry.summary ++ ", tools: ToolClient \x7b .. \x7d \x7d"

end Client

end ToolNodes

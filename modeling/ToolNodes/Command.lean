import ToolNodes.Json.Reader
import ToolNodes.Text.Case
import ToolNodes.Text.Words

/-!
# Slash commands and direct calls

The text behind `/mcp` names an action by its first word, in any case, and the trimmed remainder
holds its arguments. `add` takes words; `use`, `remove` and `tools` take the whole remainder as one
name, blanks inside included; `invoke` takes one word and a JSON text.

In offline mode a line is a call: a tool and a JSON text, or a node, a tool and a JSON text. The
two-word form is tried first: when everything behind the first word is JSON, the first word is the
tool.
-/

namespace ToolNodes

inductive Usage where
  | mcp
  | add
  | use
  | remove
  | invoke
  | direct
deriving DecidableEq, Repr

def Usage.text : Usage → String
  | mcp => "/mcp <add|list|use|remove|tools|invoke> ..."
  | add => "/mcp add <name> <url> [token]"
  | use => "/mcp use <name>"
  | remove => "/mcp remove <name>"
  | invoke => "/mcp invoke <tool_name> <json_payload>"
  | direct => "<tool> <json> or <node> <tool> <json>"

inductive CommandError where
  /-- Something is missing. -/
  | usage (form : Usage)
  /-- The first word is no action. -/
  | unknownAction (typed : String)
  /-- The payload is no JSON. -/
  | invalidJson (error : Json.Error)
deriving DecidableEq, Repr

def CommandError.message : CommandError → String
  | usage form => "Usage: " ++ form.text
  | unknownAction typed => "Unknown MCP action: " ++ typed
  | invalidJson error => "Invalid JSON payload: " ++ error.message

inductive Command where
  | list
  | add (name url : String) (token : Option String)
  | use (name : String)
  | remove (name : String)
  | tools (node : Option String)
  | invoke (tool : String) (payload : Json)

namespace Command

inductive Action where
  | list
  | add
  | use
  | remove
  | tools
  | invoke
deriving DecidableEq, Repr

/-- The words for an action, in lower case. -/
def Action.words : Action → List String
  | list => ["list"]
  | add => ["add"]
  | use => ["use", "select"]
  | remove => ["remove"]
  | tools => ["tools"]
  | invoke => ["invoke", "run", "call"]

def Action.all : List Action := [list, add, use, remove, tools, invoke]

def Action.ofWord? (word : String) : Option Action :=
  all.find? fun action => action.words.contains word

def payload (text : List Char) : Except CommandError Json :=
  (Json.ofString (String.ofList text)).mapError .invalidJson

def ofAction (action : Action) (arguments : List Char) : Except CommandError Command :=
  match action with
  | .list => .ok .list
  | .add =>
    match Text.words arguments with
    | name :: url :: more =>
      .ok (.add (String.ofList name) (String.ofList url) (more.head?.map String.ofList))
    | _ => .error (.usage .add)
  | .use => if arguments.isEmpty then .error (.usage .use) else .ok (.use (String.ofList arguments))
  | .remove =>
    if arguments.isEmpty then .error (.usage .remove)
    else .ok (.remove (String.ofList arguments))
  | .tools => .ok (.tools (if arguments.isEmpty then none else some (String.ofList arguments)))
  | .invoke =>
    let (tool, text) := Text.splitFirst arguments
    if tool.isEmpty || text.isEmpty then .error (.usage .invoke)
    else (payload text).map (.invoke (String.ofList tool))

/-- Reads the text behind `/mcp`. -/
def parse (text : String) : Except CommandError Command :=
  let line := Text.trim text.toList
  if line.isEmpty then .error (.usage .mcp)
  else
    let word := String.ofList (Text.firstWord line)
    match Action.ofWord? (Text.lower word) with
    | some action => ofAction action (Text.afterFirstWord line)
    | none => .error (.unknownAction word)

end Command

/-! ## Direct calls -/

/-- A call typed as a line; without a node it goes to the session's offline node. -/
structure DirectCall where
  node : Option String
  tool : String
  payload : Json

/-- Reads a line as a call. A line of two words whose second is no JSON reports the JSON error. -/
def DirectCall.parse (line : String) : Except CommandError DirectCall :=
  let (first, rest) := Text.splitFirst (Text.trim line.toList)
  if first.isEmpty || rest.isEmpty then .error (.usage .direct)
  else
    match Json.ofString (String.ofList rest) with
    | .ok payload => .ok ⟨none, String.ofList first, payload⟩
    | .error e =>
      let (tool, text) := Text.splitFirst rest
      if text.isEmpty then .error (.invalidJson e)
      else
        (Command.payload text).map fun payload =>
          ⟨some (String.ofList first), String.ofList tool, payload⟩

end ToolNodes

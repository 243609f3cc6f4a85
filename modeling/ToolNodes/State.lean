import ToolNodes.Json.Basic
import ToolNodes.Node

/-!
# The state of a registry

The nodes by key and the name of the active one, as a registry holds and persists them. The
document form has the fields `active` and `nodes`, and per node `name`, `url` and `token`, in this
order. Decoding a document is lenient: it keeps every entry that is an object with a usable URL,
names it by its key, and drops the rest; the active name survives if it names a kept node. A state
that was built otherwise may break both rules, and `State.canonical` is what a document of it
decodes to.
-/

namespace ToolNodes

/-- The nodes by key, and the name of the active node. -/
structure State where
  active : Option String := none
  nodes : Table Node := {}
deriving DecidableEq

namespace State

/-- No nodes, and none active. -/
def empty : State := {}

def nodeJson (node : Node) : Json :=
  .object [("name", .string node.name), ("url", .string node.url),
    ("token", Json.ofText? node.token)]

def toJson (s : State) : Json :=
  .object [("active", Json.ofText? s.active),
    ("nodes", .object (s.nodes.entries.map fun entry => (entry.1, nodeJson entry.2)))]

/-- A node named by a key, when the normal form of the URL is not empty. -/
def usable? (key url : String) (token : Option String) : Option Node :=
  if (normalUrl url).isEmpty then none else some (Node.normal key url token)

/-- The node of a document's entry: an object whose `url` is a usable string. A `token` that is no
string counts as absent. -/
def nodeOfJson? (key : String) (entry : Json) : Option Node :=
  if entry.isObject then
    (entry.text? "url").bind fun url => usable? key url (entry.text? "token")
  else none

def nodesOfMembers (members : List (String × Json)) : Table Node :=
  Table.ofList (members.filterMap fun m => (nodeOfJson? m.1 m.2).map fun node => (m.1, node))

def ofJson (doc : Json) : State :=
  let nodes := nodesOfMembers (((doc.get? "nodes").bind Json.members?).getD [])
  ⟨(doc.text? "active").filter nodes.contains, nodes⟩

/-- The state with every node named by its key and in normal form, without those whose URL is
unusable, and with the active name only if it is one of theirs. -/
def canonical (s : State) : State :=
  let nodes := Table.ofList
    (s.nodes.entries.filterMap fun entry =>
      (usable? entry.1 entry.2.url entry.2.token).map fun node => (entry.1, node))
  ⟨s.active.filter nodes.contains, nodes⟩

end State

end ToolNodes

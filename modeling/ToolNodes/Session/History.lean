import ToolNodes.Json.Basic
import ToolNodes.Json.Printer

/-!
# The history of a session

What was typed as a call in offline mode, and what tools answered, in order. A call carries the last
few entries as its context.
-/

namespace ToolNodes

inductive Role where
  | user
  | assistant
deriving DecidableEq, Repr

def Role.name : Role → String
  | user => "user"
  | assistant => "assistant"

structure Entry where
  role : Role
  content : String
deriving DecidableEq, Repr

def Entry.toJson (e : Entry) : Json :=
  .object [("content", .string e.content), ("role", .string e.role.name)]

/-- The entries of a session, oldest first. -/
abbrev History := List Entry

namespace History

def window : Nat := 6

/-- The last entries, at most a window of them. -/
def recent (h : History) : History := h.drop (h.length - window)

/-- The document form of the last entries. -/
def recentJson (h : History) : Json := .array (h.recent.map Entry.toJson)

def slashContext (h : History) : Json := .object [("chat_history", h.recentJson)]

def directContext (h : History) : Json :=
  .object [("chat_history", h.recentJson), ("mode", .string "offline")]

def slashAnswer (tool : String) (result : Json) : Entry :=
  ⟨.assistant, "[MCP:" ++ tool ++ "]\n" ++ result.pretty⟩

def directAnswer (tool node : String) (result : Json) : Entry :=
  ⟨.assistant, "[MCP:" ++ tool ++ "@" ++ node ++ "]\n" ++ result.pretty⟩

end History

end ToolNodes

import ToolNodes.Json.Printer
import ToolNodes.Node
import ToolNodes.Tool

/-!
# Listings

The plain text in which nodes and tools are listed: one line each.
-/

namespace ToolNodes.Render

/-- The line of a node: a star if it is the active one, its name and URL, and a hint if it has a
token. -/
def nodeLine (active : Option String) (node : Node) : String :=
  (if some node.name = active then "*" else " ") ++ " " ++ node.name ++ " -> " ++ node.url ++
    (if node.hasToken then " (token)" else "")

def nodes (nodes : List Node) (active : Option String) : String :=
  if nodes.isEmpty then "No MCP nodes configured. Use /mcp add <name> <url>"
  else "\n".intercalate (nodes.map (nodeLine active))

/-- The line of a tool: name and description of an object, the text of a string, and the compact
form of any other value. -/
def toolLine (tool : Tool) : String :=
  if tool.value.isObject then
    let name := tool.name?.getD "unnamed"
    match tool.description? with
    | some description => if description.isEmpty then name else name ++ " - " ++ description
    | none => name
  else tool.name?.getD tool.value.compact

def tools (tools : List Tool) : String :=
  if tools.isEmpty then "No tools reported by the MCP node."
  else "\n".intercalate (tools.map toolLine)

end ToolNodes.Render

import ToolNodes.Json.Basic

/-!
# Tools, tool lists and envelopes

A node describes its tools in JSON. A descriptor keeps the value as it was reported, and reads the
name, the description and the input schema from it where they usually stand. A tool list is a bare
array of descriptors, an object with an array under `tools`, or an object with an object of objects
under `tools`, whose keys name the tools; every other value lists none.

An envelope is what is posted to a tool: the input, and optionally a context. The document form has
the fields `input` and `context` in this order, the latter only when there is a context. Reading
takes a missing context and one that is null alike for none.
-/

namespace ToolNodes

structure Tool where
  value : Json

namespace Tool

/-- The `name` of an object or else its `id`; a string is its own name. -/
def name? (tool : Tool) : Option String :=
  match tool.value with
  | .string name => some name
  | value => (value.text? "name").or (value.text? "id")

/-- The `description` of an object. -/
def description? (tool : Tool) : Option String := tool.value.text? "description"

/-- The member `input_schema` or else `inputSchema`. -/
def inputSchema? (tool : Tool) : Option Json :=
  (tool.value.get? "input_schema").or (tool.value.get? "inputSchema")

/-- The tool of a keyed entry: the key is its name unless it has a member `name`. -/
def ofEntry (key : String) (value : Json) : Tool :=
  match value with
  | .object members =>
    if (Entries.get? "name" members).isSome then ⟨value⟩
    else ⟨.object (Entries.insert "name" (.string key) members)⟩
  | value => ⟨value⟩

def ofListing : Json → List Tool
  | .array items => items.map Tool.mk
  | listing =>
    match listing.get? "tools" with
    | some (.array items) => items.map Tool.mk
    | some (.object entries) =>
      if entries.all fun entry => entry.2.isObject then
        entries.map fun entry => ofEntry entry.1 entry.2
      else []
    | _ => []

end Tool

/-! ## Envelopes -/

/-- The input for a tool and the caller's context. -/
structure Envelope where
  input : Json
  context : Option Json := none

namespace Envelope

def toJson (e : Envelope) : Json :=
  .object (("input", e.input) :: (e.context.map fun c => ("context", c)).toList)

/-- The context that a member stands for: none if it is null. -/
def contextOf : Json → Option Json
  | .null => none
  | c => some c

/-- The envelope that a document describes: an object with the fields, or an array of them in their
order. -/
def ofJson? : Json → Option Envelope
  | .array [input] => some { input }
  | .array [input, context] => some { input, context := contextOf context }
  | doc =>
    (doc.get? "input").map fun input =>
      { input, context := (doc.get? "context").bind contextOf }

end Envelope

end ToolNodes

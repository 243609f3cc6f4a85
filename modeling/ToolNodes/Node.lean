import ToolNodes.Text.Words

/-!
# Nodes

A node is a remote endpoint that offers tools: the name it is registered under, its base URL, and
the token sent with every request to it. `Node.normal` is the form in which nodes are registered:
the URL without surrounding blanks and without trailing slashes, and no token in place of a blank
one. A token that is not blank keeps its blanks.
-/

namespace ToolNodes

structure Node where
  name : String
  url : String
  token : Option String
deriving DecidableEq, Repr

/-- A URL without surrounding blanks and then without trailing slashes. -/
def normalUrl (url : String) : String :=
  String.ofList (Text.dropTail (· = '/') (Text.trim url.toList))

/-- A token, unless it is blank. -/
def normalToken (token : Option String) : Option String :=
  token.filter fun t => !Text.isBlankText t

/-- The node of a name, a URL and a token in normal form. -/
def Node.normal (name url : String) (token : Option String) : Node :=
  ⟨name, normalUrl url, normalToken token⟩

def Node.hasToken (node : Node) : Bool := node.token.isSome

end ToolNodes

import ToolNodes.Text.Case
import ToolNodes.Text.Words

/-!
# Lines of a session

A trimmed line is a command when it starts with a command word: the letters of the word in any case,
and then a blank or nothing. The word is cut off by its length in bytes; a character that straddles
the cut makes the line no command.
-/

namespace ToolNodes

/-- Cuts a text behind some bytes; none when the text is shorter or the cut falls inside a
character. -/
def Text.cutBytes : Nat → List Char → Option (List Char × List Char)
  | 0, s => some ([], s)
  | _ + 1, [] => none
  | n + 1, c :: s =>
    if c.utf8Size ≤ n + 1 then
      (cutBytes (n + 1 - c.utf8Size) s).map fun parts => (c :: parts.1, parts.2)
    else none

/-- The trimmed text behind a command word, if the line starts with it. -/
def stripCommand (command : String) (line : List Char) : Option (List Char) :=
  (Text.cutBytes command.utf8ByteSize line).bind fun parts =>
    if Text.sameLetters parts.1 command.toList && parts.2.head?.all Text.isBlank then
      some (Text.trim parts.2)
    else none

inductive Line where
  | blank
  /-- Text behind `/mcp`. -/
  | slash (text : String)
  /-- Text behind `/mode`. -/
  | mode (text : String)
  | quit
  /-- Any other text, trimmed. -/
  | plain (text : String)
deriving DecidableEq, Repr

def Line.read (line : String) : Line :=
  let s := Text.trim line.toList
  if s.isEmpty then .blank
  else
    match stripCommand "/mcp" s with
    | some rest => .slash (String.ofList rest)
    | none =>
      match stripCommand "/mode" s with
      | some rest => .mode (String.ofList rest)
      | none =>
        if (stripCommand "/quit" s).isSome || (stripCommand "/exit" s).isSome then .quit
        else .plain (String.ofList s)

end ToolNodes

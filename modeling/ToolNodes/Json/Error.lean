import ToolNodes.Text.Utf8

/-!
# What a JSON text fails on

A failure has a cause and a position. The reader knows a position by the number of bytes that stand
behind it; the error that callers see has the line and the column of it, where lines count from one
and columns count the bytes since the last line feed.
-/

namespace ToolNodes.Json

open ToolNodes.Text

inductive Cause where
  | endInValue
  | endInList
  | endInObject
  | endInString
  | expectedIdent
  | expectedValue
  | expectedColon
  | expectedCommaOrBracket
  | expectedCommaOrBrace
  | trailingComma
  | trailingCharacters
  | keyNotString
  | invalidNumber
  | numberOutOfRange
  | controlCharacter
  | invalidEscape
  | loneSurrogate
  | unpairedSurrogate
  | invalidCodePoint
  | tooDeep
deriving DecidableEq, Repr

def Cause.message : Cause → String
  | endInValue => "EOF while parsing a value"
  | endInList => "EOF while parsing a list"
  | endInObject => "EOF while parsing an object"
  | endInString => "EOF while parsing a string"
  | expectedIdent => "expected ident"
  | expectedValue => "expected value"
  | expectedColon => "expected `:`"
  | expectedCommaOrBracket => "expected `,` or `]`"
  | expectedCommaOrBrace => "expected `,` or `\x7d`"
  | trailingComma => "trailing comma"
  | trailingCharacters => "trailing characters"
  | keyNotString => "key must be a string"
  | invalidNumber => "invalid number"
  | numberOutOfRange => "number out of range"
  | controlCharacter => "control character (\\u0000-\\u001F) found while parsing a string"
  | invalidEscape => "invalid escape"
  | loneSurrogate => "lone leading surrogate in hex escape"
  | unpairedSurrogate => "unexpected end of hex escape"
  | invalidCodePoint => "invalid unicode code point"
  | tooDeep => "recursion limit exceeded"

/-- A failure of the reader: its cause and the number of bytes behind its position. -/
structure Failure where
  cause : Cause
  left : Nat
deriving DecidableEq, Repr

/-- Why and where a text is no JSON value. -/
structure Error where
  cause : Cause
  line : Nat
  column : Nat
deriving DecidableEq, Repr

def Error.message (e : Error) : String :=
  e.cause.message ++ " at line " ++ toString e.line ++ " column " ++ toString e.column

/-- The line and column behind the first `count` bytes of a text that starts in the given line and
column. -/
def locate (count line column : Nat) : List Piece → Nat × Nat
  | [] => (line, column)
  | piece :: rest =>
    if count < piece.width then (line, column + count)
    else if piece = .scalar '\n' then locate (count - piece.width) (line + 1) 0 rest
    else locate (count - piece.width) line (column + piece.width) rest

def Failure.inText (f : Failure) (text : List Piece) : Error :=
  let (line, column) := locate (width text - f.left) 1 0 text
  ⟨f.cause, line, column⟩

end ToolNodes.Json

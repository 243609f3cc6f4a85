import ToolNodes.Json.Number

/-!
# Reading JSON

A text is read as pieces (`Text.Piece`), so that a body of bytes that is no valid UTF-8 is read by
the same rules as a text: bytes that make no character may stand nowhere but in a string, and there
they are an error of their own. Blanks are space, tab, line feed and carriage return. Of several
members with one key the last counts, and members come out ordered by key. Openers nest 127 deep.

The mutual recursion runs on fuel; `valueFuel` of the text is always enough, since each step but one
per character consumes a character.
-/

namespace ToolNodes.Json

open ToolNodes.Text

def maxDepth : Nat := 127

def isSpace (piece : Piece) : Bool :=
  piece = .scalar ' ' || piece = .scalar '\t' || piece = .scalar '\n' || piece = .scalar '\r'

/-- The text behind its leading blanks. -/
def skipSpace (s : List Piece) : List Piece := s.dropWhile isSpace

/-! ## Literals -/

def literal {α : Type} (value : α) : List Char → List Piece → Reading α
  | [], s => .ok (value, s)
  | _ :: _, [] => failAt .endInValue []
  | c :: cs, piece :: rest =>
    if piece = .scalar c then literal value cs rest else failPast .expectedIdent (piece :: rest)

/-! ## Strings -/

def hexDigit? (c : Char) : Option Nat :=
  if c.isDigit then some (c.toNat - 48)
  else if 'a' ≤ c && c ≤ 'f' then some (c.toNat - 87)
  else if 'A' ≤ c && c ≤ 'F' then some (c.toNat - 55)
  else none

/-- The number that four hexadecimal digits at the front of a text make. -/
def hexUnit (s : List Piece) : Except Failure Nat :=
  if width s < 4 then .error ⟨.endInString, 0⟩
  else
    match ((s.take 4).mapM fun piece => piece.char?.bind hexDigit?) with
    | some [a, b, c, d] => .ok (((a * 16 + b) * 16 + c) * 16 + d)
    | _ => .error ⟨.invalidEscape, width s - 4⟩

def isHighSurrogate (n : Nat) : Bool := 0xD800 ≤ n && n ≤ 0xDBFF

def isLowSurrogate (n : Nat) : Bool := 0xDC00 ≤ n && n ≤ 0xDFFF

/-- Reads the low half of a surrogate pair and gives the character of the pair. -/
def surrogatePair (high : Nat) : List Piece → Except Failure Char
  | [] => .error ⟨.endInString, 0⟩
  | .scalar '\\' :: s =>
    match s with
    | [] => .error ⟨.endInString, 0⟩
    | .scalar 'u' :: s => do
      let low ← hexUnit s
      if isLowSurrogate low then
        .ok (Char.ofNat (0x10000 + (high - 0xD800) * 0x400 + (low - 0xDC00)))
      else .error ⟨.loneSurrogate, width (s.drop 4)⟩
    | s => .error ⟨.unpairedSurrogate, width s - 1⟩
  | s => .error ⟨.unpairedSurrogate, width s - 1⟩

/-- The character of a `\u` escape, and how many pieces the escape takes behind the backslash. -/
def unicodeEscape (s : List Piece) : Except Failure (Char × Nat) := do
  let unit ← hexUnit s
  if isLowSurrogate unit then .error ⟨.loneSurrogate, width (s.drop 4)⟩
  else if isHighSurrogate unit then
    let c ← surrogatePair unit (s.drop 4)
    .ok (c, 11)
  else .ok (Char.ofNat unit, 5)

def letterEscape? : Char → Option Char
  | '"' => some '"'
  | '\\' => some '\\'
  | '/' => some '/'
  | 'b' => some '\x08'
  | 'f' => some '\x0c'
  | 'n' => some '\n'
  | 'r' => some '\r'
  | 't' => some '\t'
  | _ => none

/-- The character of an escape, and how many pieces the escape takes behind the backslash. -/
def escape : List Piece → Except Failure (Char × Nat)
  | [] => .error ⟨.endInString, 0⟩
  | .scalar 'u' :: s => unicodeEscape s
  | piece :: s =>
    match piece.char?.bind letterEscape? with
    | some c => .ok (c, 1)
    | none => .error ⟨.invalidEscape, width (piece :: s) - 1⟩

/-- The content of a string up to its closing quote, behind the first `skip` pieces, and the text
behind the quote. -/
def content : Nat → List Piece → Except Failure (List Piece × List Piece)
  | _, [] => failAt .endInString []
  | skip + 1, _ :: s => content skip s
  | 0, piece :: s =>
    if piece = .scalar '"' then .ok ([], s)
    else if piece = .scalar '\\' then do
      let (c, used) ← escape s
      let (inner, rest) ← content used s
      .ok (.scalar c :: inner, rest)
    else if (piece.char?.any fun c => c.toNat < 0x20) then
      failPast .controlCharacter (piece :: s)
    else do
      let (inner, rest) ← content 0 s
      .ok (piece :: inner, rest)

/-- Reads a string behind its opening quote. -/
def stringBody (s : List Piece) : Except Failure (String × List Piece) := do
  let (inner, rest) ← content 0 s
  match inner.mapM Piece.char? with
  | some cs => .ok (String.ofList cs, rest)
  | none =>
    .error ⟨.invalidCodePoint, width rest + width (inner.dropWhile fun p => p.char?.isSome)⟩

/-! ## Values -/

mutual
/-- Reads a value behind leading blanks; `depth` openers may still nest. -/
def value : (fuel depth : Nat) → List Piece → Except Failure (Json × List Piece)
  | 0, _, s => failAt .tooDeep s
  | fuel + 1, depth, s =>
    match skipSpace s with
    | [] => failAt .endInValue []
    | .malformed bytes :: rest => failPast .expectedValue (.malformed bytes :: rest)
    | .scalar c :: rest =>
      if c = 'n' then literal .null ['u', 'l', 'l'] rest
      else if c = 't' then literal (.bool true) ['r', 'u', 'e'] rest
      else if c = 'f' then literal (.bool false) ['a', 'l', 's', 'e'] rest
      else if c = '-' then (Number.read true rest).map fun r => (.number r.1, r.2)
      else if c.isDigit then
        (Number.read false (.scalar c :: rest)).map fun r => (.number r.1, r.2)
      else if c = '"' then (stringBody rest).map fun r => (.string r.1, r.2)
      else if c = '[' then
        match depth with
        | 0 => failPast .tooDeep (.scalar c :: rest)
        | depth + 1 => (items fuel depth rest).map fun r => (.array r.1, r.2)
      else if c = '{' then
        match depth with
        | 0 => failPast .tooDeep (.scalar c :: rest)
        | depth + 1 => (members fuel depth rest).map fun r => (.object (Entries.ofList r.1), r.2)
      else failPast .expectedValue (.scalar c :: rest)

/-- Reads the items of an array behind its opening bracket, and the closing one. -/
def items : (fuel depth : Nat) → List Piece → Except Failure (List Json × List Piece)
  | 0, _, s => failAt .tooDeep s
  | fuel + 1, depth, s =>
    match skipSpace s with
    | [] => failAt .endInList []
    | .scalar ']' :: rest => .ok ([], rest)
    | s => do
      let (first, rest) ← value fuel depth s
      let (more, rest) ← moreItems fuel depth rest
      .ok (first :: more, rest)

/-- Reads on behind an item. -/
def moreItems : (fuel depth : Nat) → List Piece → Except Failure (List Json × List Piece)
  | 0, _, s => failAt .tooDeep s
  | fuel + 1, depth, s =>
    match skipSpace s with
    | [] => failAt .endInList []
    | .scalar ']' :: rest => .ok ([], rest)
    | .scalar ',' :: rest =>
      match skipSpace rest with
      | [] => failAt .endInValue []
      | .scalar ']' :: rest => failPast .trailingComma (.scalar ']' :: rest)
      | s => do
        let (next, rest) ← value fuel depth s
        let (more, rest) ← moreItems fuel depth rest
        .ok (next :: more, rest)
    | s => failPast .expectedCommaOrBracket s

/-- Reads the members of an object behind its opening brace, and the closing one. -/
def members : (fuel depth : Nat) → List Piece →
    Except Failure (List (String × Json) × List Piece)
  | 0, _, s => failAt .tooDeep s
  | fuel + 1, depth, s =>
    match skipSpace s with
    | [] => failAt .endInObject []
    | .scalar '}' :: rest => .ok ([], rest)
    | .scalar '"' :: rest => do
      let (first, rest) ← member fuel depth rest
      let (more, rest) ← moreMembers fuel depth rest
      .ok (first :: more, rest)
    | s => failPast .keyNotString s

/-- Reads on behind a member. -/
def moreMembers : (fuel depth : Nat) → List Piece →
    Except Failure (List (String × Json) × List Piece)
  | 0, _, s => failAt .tooDeep s
  | fuel + 1, depth, s =>
    match skipSpace s with
    | [] => failAt .endInObject []
    | .scalar '}' :: rest => .ok ([], rest)
    | .scalar ',' :: rest =>
      match skipSpace rest with
      | [] => failAt .endInValue []
      | .scalar '}' :: rest => failPast .trailingComma (.scalar '}' :: rest)
      | .scalar '"' :: rest => do
        let (next, rest) ← member fuel depth rest
        let (more, rest) ← moreMembers fuel depth rest
        .ok (next :: more, rest)
      | s => failPast .keyNotString s
    | s => failPast .expectedCommaOrBrace s

/-- Reads a member behind the opening quote of its key. -/
def member : (fuel depth : Nat) → List Piece → Except Failure ((String × Json) × List Piece)
  | 0, _, s => failAt .tooDeep s
  | fuel + 1, depth, s => do
    let (key, rest) ← stringBody s
    match skipSpace rest with
    | [] => failAt .endInObject []
    | .scalar ':' :: rest =>
      let (v, rest) ← value fuel depth rest
      .ok ((key, v), rest)
    | s => failPast .expectedColon s
end

def valueFuel (s : List Piece) : Nat := 3 * s.length + 3

/-- Reads a whole text: one value between blanks. -/
def readPieces (s : List Piece) : Except Failure Json := do
  let (v, rest) ← value (valueFuel s) maxDepth s
  match skipSpace rest with
  | [] => .ok v
  | rest => .error ⟨.trailingCharacters, width rest - 1⟩

def ofPieces (s : List Piece) : Except Error Json :=
  (readPieces s).mapError fun f => f.inText s

def ofString (text : String) : Except Error Json := ofPieces (piecesOf text)

def ofBytes (bytes : List UInt8) : Except Error Json := ofPieces (Utf8.pieces bytes)

end ToolNodes.Json

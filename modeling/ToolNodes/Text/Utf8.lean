/-!
# UTF-8

Bytes are read as a sequence of pieces: characters, and maximal runs that begin a character but do
not complete it (a byte that cannot begin one is such a run of its own). Text that arrives as bytes
is shown with one replacement character for each such run, and a text is well formed when there
is none. Writing gives each character its one to four bytes.
-/

namespace ToolNodes.Text

/-- A piece of a byte sequence read as UTF-8. -/
inductive Piece where
  /-- A complete character. -/
  | scalar (c : Char)
  /-- Bytes that do not make a character, as far as they could have begun one. -/
  | malformed (bytes : List UInt8)
deriving DecidableEq, Repr

namespace Piece

def width : Piece → Nat
  | scalar c => c.utf8Size
  | malformed bytes => bytes.length

/-- The piece as a character; bytes that make none are shown as U+FFFD. -/
def shown : Piece → Char
  | scalar c => c
  | malformed _ => '\uFFFD'

def char? : Piece → Option Char
  | scalar c => some c
  | malformed _ => none

end Piece

def width : List Piece → Nat
  | [] => 0
  | piece :: rest => piece.width + width rest

namespace Utf8

/-- A character that has begun: its bytes, the bits that they hold, how many bytes it still needs
and the range that the next of them must lie in. -/
structure Begun where
  bytes : List UInt8
  bits : Nat
  need : Nat
  low : UInt8
  high : UInt8

/-- The piece that a byte between characters makes, or the character that it begins. -/
def start (b : UInt8) : Piece ⊕ Begun :=
  let n := b.toNat
  if n ≤ 0x7F then .inl (.scalar (Char.ofNat n))
  else if n < 0xC2 then .inl (.malformed [b])
  else if n ≤ 0xDF then .inr ⟨[b], n - 0xC0, 1, 0x80, 0xBF⟩
  else if n = 0xE0 then .inr ⟨[b], 0, 2, 0xA0, 0xBF⟩
  else if n = 0xED then .inr ⟨[b], 0xD, 2, 0x80, 0x9F⟩
  else if n ≤ 0xEF then .inr ⟨[b], n - 0xE0, 2, 0x80, 0xBF⟩
  else if n = 0xF0 then .inr ⟨[b], 0, 3, 0x90, 0xBF⟩
  else if n ≤ 0xF3 then .inr ⟨[b], n - 0xF0, 3, 0x80, 0xBF⟩
  else if n = 0xF4 then .inr ⟨[b], 4, 3, 0x80, 0x8F⟩
  else .inl (.malformed [b])

/-- Reads on from between two characters (`none`) or from within one. -/
def piecesFrom : Option Begun → List UInt8 → List Piece
  | none, [] => []
  | some begun, [] => [.malformed begun.bytes]
  | none, b :: rest =>
    match start b with
    | .inl piece => piece :: piecesFrom none rest
    | .inr begun => piecesFrom (some begun) rest
  | some begun, b :: rest =>
    if begun.low ≤ b && b ≤ begun.high then
      let bits := begun.bits * 64 + (b.toNat - 0x80)
      if begun.need = 1 then .scalar (Char.ofNat bits) :: piecesFrom none rest
      else piecesFrom (some ⟨begun.bytes ++ [b], bits, begun.need - 1, 0x80, 0xBF⟩) rest
    else
      .malformed begun.bytes ::
        match start b with
        | .inl piece => piece :: piecesFrom none rest
        | .inr next => piecesFrom (some next) rest

def pieces (bytes : List UInt8) : List Piece := piecesFrom none bytes

def decode? (bytes : List UInt8) : Option String :=
  ((pieces bytes).mapM Piece.char?).map String.ofList

/-- The text of any byte sequence, with U+FFFD for bytes that make no character. -/
def decodeLossy (bytes : List UInt8) : String :=
  String.ofList ((pieces bytes).map Piece.shown)

def encode (text : String) : List UInt8 :=
  text.toList.flatMap String.utf8EncodeChar

end Utf8

def piecesOf (text : String) : List Piece := text.toList.map Piece.scalar

end ToolNodes.Text

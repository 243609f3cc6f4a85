import ToolNodes.Text.Utf8

/-!
# Percent-encoding

Each part of a URL has a set of characters that it does not hold as they are. Such a character, and
every one beyond ASCII, is written as its UTF-8 bytes, each as a percent sign and two upper-case
hexadecimal digits. Decoding turns every percent sign with two hexadecimal digits into a byte and
leaves all else as it is. Encoding with a set that holds the percent sign is undone by decoding.
-/

namespace ToolNodes.Url

abbrev EncodeSet := Char → Bool

namespace EncodeSet

def control : EncodeSet := fun c => c.toNat < 0x20 || c.toNat = 0x7F

def withChars (set : EncodeSet) (chars : List Char) : EncodeSet := fun c => set c || chars.contains c

def fragment : EncodeSet := control.withChars [' ', '"', '<', '>', '`']

def path : EncodeSet := fragment.withChars ['#', '?', '{', '}']

/-- For a path segment that is added, in a URL whose scheme is special or not. -/
def segment (special : Bool) : EncodeSet :=
  path.withChars (if special then ['/', '%', '\\'] else ['/', '%'])

/-- For queries, in a URL whose scheme is special or not. -/
def query (special : Bool) : EncodeSet :=
  control.withChars (if special then [' ', '"', '#', '<', '>', '\''] else [' ', '"', '#', '<', '>'])

def userInfo : EncodeSet := path.withChars ['/', ':', ';', '=', '@', '[', '\\', ']', '^', '|']

end EncodeSet

def hexUpper (n : Nat) : Char := (Nat.digitChar n).toUpper

/-- A byte as a percent sign and two digits. -/
def encodeByte (b : UInt8) : List Char :=
  ['%', hexUpper (b.toNat / 16), hexUpper (b.toNat % 16)]

/-- Encodes the characters of a set, and those beyond ASCII. -/
def percentEncode (set : EncodeSet) (s : List Char) : List Char :=
  s.flatMap fun c =>
    if c.toNat < 0x80 && !set c then [c] else (String.utf8EncodeChar c).flatMap encodeByte

def hexValue? (c : Char) : Option Nat :=
  if c.isDigit then some (c.toNat - 48)
  else if 'a' ≤ c && c ≤ 'f' then some (c.toNat - 87)
  else if 'A' ≤ c && c ≤ 'F' then some (c.toNat - 55)
  else none

/-- The bytes of a text with its percent-encoded bytes decoded; `skip` characters belong to a byte
that is done. -/
def percentDecodeFrom : (skip : Nat) → List Char → List UInt8
  | _, [] => []
  | skip + 1, _ :: s => percentDecodeFrom skip s
  | 0, c :: s =>
    match c, (s.take 2).map hexValue? with
    | '%', [some high, some low] => UInt8.ofNat (high * 16 + low) :: percentDecodeFrom 2 s
    | c, _ => String.utf8EncodeChar c ++ percentDecodeFrom 0 s

def percentDecode (s : List Char) : List UInt8 := percentDecodeFrom 0 s

end ToolNodes.Url

import ToolNodes.Text.Utf8
import ToolNodes.Text.Words
import ToolNodes.Url.Percent

/-!
# Hosts

The host of a URL with a special scheme is an IPv6 address in brackets, or else a name: it is
percent-decoded and brought into its ASCII form, must not hold a character that URLs use as a delimiter,
and is an IPv4 address if its last label is numeric. Other schemes take any text without such characters.
The ASCII form of a name is the name in lower case. Only an internationalized name, one with characters
beyond ASCII or with an encoded label, needs the tables of IDNA for it, and these are a parameter.
-/

namespace ToolNodes.Url

inductive ParseError where
  | relative
  | emptyHost
  | invalidPort
  | invalidIpv4
  | invalidIpv6
  | invalidDomain
  | invalidDomainCharacter
deriving DecidableEq, Repr

def ParseError.message : ParseError → String
  | relative => "relative URL without a base"
  | emptyHost => "empty host"
  | invalidPort => "invalid port number"
  | invalidIpv4 => "invalid IPv4 address"
  | invalidIpv6 => "invalid IPv6 address"
  | invalidDomain => "invalid international domain name"
  | invalidDomainCharacter => "invalid domain character"

namespace Host

/-! ## IPv4 -/

def number? (base : Nat) (s : List Char) : Option Nat :=
  s.foldl (fun acc c => acc.bind fun n =>
    (hexValue? c).bind fun d => if d < base then some (n * base + d) else none) (some 0)

/-- The number of an IPv4 part: hexadecimal behind `0x`, octal behind `0`, decimal otherwise. -/
def ipv4Part? : List Char → Option Nat
  | [] => none
  | '0' :: 'x' :: digits => number? 16 digits
  | '0' :: 'X' :: digits => number? 16 digits
  | '0' :: c :: digits => number? 8 (c :: digits)
  | digits => number? 10 digits

/-- The labels of a name, without the empty one behind a final dot. -/
def labels (name : List Char) : List (List Char) :=
  let parts := Text.splitOn (· = '.') name
  if parts.getLast? = some [] then parts.dropLast else parts

/-- Whether the last label is numeric. -/
def endsInNumber (name : List Char) : Bool :=
  match (labels name).getLast? with
  | none => false
  | some [] => false
  | some last => last.all Char.isDigit || (ipv4Part? last).isSome

/-- The address of a dotted name; the last part fills the bytes that are left. -/
def ipv4? (name : List Char) : Option Nat := do
  let parts := labels name
  if 4 < parts.length then none
  let numbers ← parts.mapM ipv4Part?
  let last ← numbers.getLast?
  let leading := numbers.dropLast
  if Nat.pow 2 (8 * (4 - leading.length)) ≤ last || leading.any (255 < ·) then none
  let high := leading.foldl (fun acc n => acc * 256 + n) 0
  some (high * Nat.pow 256 (4 - leading.length) + last)

def ipv4Text (address : Nat) : List Char :=
  let byte := fun n => Nat.toDigits 10 (address / Nat.pow 256 n % 256)
  byte 3 ++ '.' :: byte 2 ++ '.' :: byte 1 ++ '.' :: byte 0

/-! ## IPv6 -/

def group? (s : List Char) : Option Nat :=
  if s.isEmpty || 4 < s.length then none else number? 16 s

/-- A decimal byte without leading zeros. -/
def byte? (s : List Char) : Option Nat :=
  match s with
  | [] => none
  | '0' :: _ :: _ => none
  | s => (number? 10 s).filter (· ≤ 255)

def dotted? (s : List Char) : Option (List Nat) :=
  match (Text.splitOn (· = '.') s).mapM byte? with
  | some [a, b, c, d] => some [a * 256 + b, c * 256 + d]
  | _ => none

/-- The groups of a part of an address; the last may be a dotted address where that may stand. -/
def groups? (dotted : Bool) (s : List Char) : Option (List Nat) :=
  if s.isEmpty then some []
  else
    let texts := Text.splitOn (· = ':') s
    let last := texts.getLast?.getD []
    let tail := if dotted && last.contains '.' then dotted? last else (group? last).map ([·])
    (texts.dropLast.mapM group?).bind fun front => tail.map fun back => front ++ back

/-- The text before the first double colon and the text behind it. -/
def splitDoubleColon : List Char → Option (List Char × List Char)
  | ':' :: ':' :: s => some ([], s)
  | c :: s => (splitDoubleColon s).map fun parts => (c :: parts.1, parts.2)
  | [] => none

/-- The eight groups of an address. A double colon stands for at least one group of zeros. -/
def ipv6? (s : List Char) : Option (List Nat) :=
  match splitDoubleColon s with
  | none => (groups? true s).filter fun groups => groups.length = 8
  | some (left, right) => do
    let left ← groups? false left
    let right ← groups? true right
    if 7 < left.length + right.length then none
    else some (left ++ List.replicate (8 - left.length - right.length) 0 ++ right)

def zeros (groups : List Nat) : Nat := (groups.takeWhile (· = 0)).length

/-- The start and the length of the first longest run of zeros. -/
def longestZeros (groups : List Nat) : Nat × Nat :=
  (List.range groups.length).foldl (fun best i =>
    let run := zeros (groups.drop i)
    if best.2 < run then (i, run) else best) (0, 0)

def groupsText (groups : List Nat) : List Char :=
  [':'].intercalate (groups.map (Nat.toDigits 16))

/-- The text of an address; its longest run of two zero groups or more becomes a double colon. -/
def ipv6Text (groups : List Nat) : List Char :=
  let (start, run) := longestZeros groups
  if run < 2 then groupsText groups
  else groupsText (groups.take start) ++ ':' :: ':' :: groupsText (groups.drop (start + run))

end Host

/-! ## Names -/

/-- The IDNA processing of a name, by which it has an ASCII form or none. -/
class Idna where
  toAscii? : List Char → Option (List Char)

/-- The processing that knows no internationalized name. -/
@[reducible] def Idna.ascii : Idna := ⟨fun _ => none⟩

namespace Host

/-- Whether a name has characters beyond ASCII or an encoded label. -/
def internationalized (name : List Char) : Bool :=
  name.any (fun c => 0x80 ≤ c.toNat) ||
    (labels name).any fun label => (label.take 4).map Char.toLower = ['x', 'n', '-', '-']

def asciiForm? [Idna] (name : List Char) : Option (List Char) :=
  if internationalized name then Idna.toAscii? name else some (name.map Char.toLower)

/-! ## Hosts -/

def forbidden (c : Char) : Bool :=
  ['\x00', '\t', '\n', '\r', ' ', '#', '/', ':', '<', '>', '?', '@', '[', '\\', ']', '^',
    '|'].contains c

def forbiddenInName (c : Char) : Bool :=
  forbidden c || EncodeSet.control c || c = '%'

def bracketed (s : List Char) : Except ParseError (List Char) :=
  if s.getLast? = some ']' then
    match ipv6? s.dropLast with
    | some groups => .ok ('[' :: ipv6Text groups ++ [']'])
    | none => .error .invalidIpv6
  else .error .invalidIpv6

/-- Reads the host of a URL with a special scheme and gives its normal form. -/
def parse [Idna] : List Char → Except ParseError (List Char)
  | '[' :: s => bracketed s
  | s =>
    match asciiForm? ((Text.Utf8.pieces (percentDecode s)).map Text.Piece.shown) with
    | none => .error .invalidDomain
    | some name =>
      if name.any fun c => 0x80 ≤ c.toNat || forbiddenInName c then .error .invalidDomain
      else if name.isEmpty then .error .emptyHost
      else if endsInNumber name then
        match ipv4? name with
        | some address => .ok (ipv4Text address)
        | none => .error .invalidIpv4
      else .ok name

def parseOther : List Char → Except ParseError (List Char)
  | '[' :: s => bracketed s
  | s =>
    if s.any forbidden then .error .invalidDomainCharacter
    else .ok (percentEncode EncodeSet.control s)

end Host

end ToolNodes.Url

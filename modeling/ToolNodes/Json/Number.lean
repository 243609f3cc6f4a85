import ToolNodes.Json.Basic
import ToolNodes.Json.Error
import ToolNodes.Decimal

/-!
# JSON numbers

Reading collects the digits of a number into a significand of 64 bits and a power of ten. Digits
that no longer fit are counted before the point and dropped behind it. A number without point,
exponent or dropped digits is an integer when it fits; any other becomes the binary64 value of its
significand, scaled by one rounded multiplication or division with a power of ten (several divisions
below 10⁻³⁰⁸). A result past the largest binary64 value is an error, one below the least positive
value is zero.

Writing gives the shortest digits that read back, positionally for leading exponents from -5 to 15.
-/

namespace ToolNodes.Json

open ToolNodes.Text
open ToolNodes.Decimal (Magnitude)

/-- The outcome of reading from the front of a text: a value and the rest of the text. -/
abbrev Reading (α : Type) := Except Failure (α × List Piece)

/-- A failure whose position is behind the next byte of the rest. -/
def failPast {α : Type} (cause : Cause) (rest : List Piece) : Reading α :=
  .error ⟨cause, width rest - 1⟩

def failAt {α : Type} (cause : Cause) (rest : List Piece) : Reading α :=
  .error ⟨cause, width rest⟩

namespace Number

/-! ## Values -/

def significandLimit : Nat := Nat.pow 2 64 - 1

def powerLimit : Nat := 308

def exponentLimit : Nat := Nat.pow 2 31 - 1

def powerOfTen (k : Nat) : Magnitude := (Magnitude.nearest (Nat.pow 10 k) 1).getD .zero

/-- Divides by a power of ten, in steps of at most `powerLimit`. -/
def scaleDown (x : Magnitude) (k : Nat) : Magnitude :=
  if k ≤ powerLimit then (x.div (powerOfTen k)).getD .zero
  else if x.isZero then x
  else scaleDown ((x.div (powerOfTen powerLimit)).getD .zero) (k - powerLimit)
termination_by k
decreasing_by simp only [powerLimit] at *; omega

/-- The magnitude of `significand * 10 ^ exponent`; none past the largest one. -/
def scaled (significand : Nat) (exponent : Int) : Option Magnitude :=
  (Magnitude.nearest significand 1).bind fun x =>
    if exponent < 0 then some (scaleDown x exponent.natAbs)
    else if exponent ≤ powerLimit then x.mul (powerOfTen exponent.natAbs)
    else if x.isZero then some x
    else none

/-- The number of a significand without point and exponent. -/
def ofSignificand (negative : Bool) (significand : Nat) : Number :=
  if !negative then .integer significand
  else if significand ≠ 0 && significand ≤ Nat.pow 2 63 then .integer (-significand)
  else .double true ((Magnitude.nearest significand 1).getD .zero)

/-! ## Reading -/

def digit? : Piece → Option Nat
  | .scalar c => if c.isDigit then some (c.toNat - 48) else none
  | .malformed _ => none

/-- The digits at the front of a text, and the rest. -/
def digits : List Piece → List Nat × List Piece
  | [] => ([], [])
  | piece :: rest =>
    match digit? piece with
    | some d => (d :: (digits rest).1, (digits rest).2)
    | none => ([], piece :: rest)

/-- Extends a significand by digits while it stays within its limit; the count is of the digits that
are left over from there on. -/
def absorb (significand : Nat) : List Nat → Nat × Nat
  | [] => (significand, 0)
  | d :: ds =>
    if significand * 10 + d ≤ significandLimit then absorb (significand * 10 + d) ds
    else (significand, (d :: ds).length)

/-- The value of an exponent's digits, or the number of digits after which it is past its limit. -/
def exponentValue (value read : Nat) : List Nat → Nat ⊕ Nat
  | [] => .inl value
  | d :: ds =>
    if value * 10 + d ≤ exponentLimit then exponentValue (value * 10 + d) (read + 1) ds
    else .inr (read + 1)

/-- The number of a significand and a power of ten, with the rest of the text. -/
def scaledReading (negative : Bool) (significand : Nat) (exponent : Int) (rest : List Piece) :
    Reading Number :=
  match scaled significand exponent with
  | some x => .ok (.double negative x, rest)
  | none => failAt .numberOutOfRange rest

/-- The sign of an exponent (negative or not) and the text behind it. -/
def exponentSign : List Piece → Bool × List Piece
  | .scalar '+' :: rest => (false, rest)
  | .scalar '-' :: rest => (true, rest)
  | rest => (false, rest)

/-- Reads on behind the `e` of a number whose significand counts tens to the power `power`. -/
def exponentPart (negative : Bool) (significand : Nat) (power : Int) (s : List Piece) :
    Reading Number :=
  let (down, s) := exponentSign s
  match digits s with
  | ([], []) => failAt .endInValue []
  | ([], rest) => failPast .invalidNumber rest
  | (ds, rest) =>
    match exponentValue 0 0 ds with
    | .inl e => scaledReading negative significand (if down then power - e else power + e) rest
    | .inr read =>
      if significand ≠ 0 && !down then failAt .numberOutOfRange (s.drop read)
      else .ok (.double negative .zero, rest)

/-- Reads on behind the digits before the point; `dropped` of them did not fit. -/
def fractionPart (negative : Bool) (significand dropped : Nat) : List Piece → Reading Number
  | .scalar '.' :: s =>
    match digits s with
    | ([], []) => failAt .endInValue []
    | ([], rest) => failPast .invalidNumber rest
    | (ds, rest) =>
      let (significand, unused) := absorb significand ds
      let power : Int := (dropped : Int) - (ds.length - unused : Nat)
      match rest with
      | .scalar 'e' :: rest => exponentPart negative significand power rest
      | .scalar 'E' :: rest => exponentPart negative significand power rest
      | rest => scaledReading negative significand power rest
  | .scalar 'e' :: s => exponentPart negative significand dropped s
  | .scalar 'E' :: s => exponentPart negative significand dropped s
  | s =>
    if dropped = 0 then .ok (ofSignificand negative significand, s)
    else scaledReading negative significand dropped s

/-- Reads a number behind its sign. A leading zero stands alone. -/
def read (negative : Bool) (s : List Piece) : Reading Number :=
  match digits s with
  | ([], []) => failAt .endInValue []
  | ([], rest) => failPast .invalidNumber rest
  | (0 :: _ :: _, _) => failPast .invalidNumber (s.drop 1)
  | (ds, rest) =>
    let (significand, dropped) := absorb 0 ds
    fractionPart negative significand dropped rest

/-! ## Writing -/

/-- Drops the trailing zeros of a digit string, which ends in zero only if it is longer than one. -/
def significant (digits : List Char) : List Char :=
  match (digits.reverse.dropWhile (· = '0')).reverse with
  | [] => ['0']
  | kept => kept

def magnitudeText (x : Magnitude) : List Char :=
  let d := x.shortest
  let all := Nat.toDigits 10 d.digits
  let kept := significant all
  -- the exponent of the leading digit
  let lead : Int := d.exponent + all.length - 1
  if lead < -5 || 15 < lead then
    let fraction := match kept with
      | first :: [] => [first]
      | first :: more => first :: '.' :: more
      | [] => []
    fraction ++ 'e' :: (if lead < 0 then '-' else '+') :: Nat.toDigits 10 lead.natAbs
  else if lead < 0 then
    '0' :: '.' :: List.replicate (lead.natAbs - 1) '0' ++ kept
  else
    let whole := lead.natAbs + 1
    let padded := kept ++ List.replicate (whole - kept.length) '0'
    let fraction := if kept.length ≤ whole then ['0'] else kept.drop whole
    padded.take whole ++ '.' :: fraction

def text : Number → List Char
  | .integer i => (toString i).toList
  | .double negative x =>
    (if negative then ['-'] else []) ++ if x.isZero then ['0', '.', '0'] else magnitudeText x

end Number

end ToolNodes.Json

/-!
# Blanks and words

A class of characters is given by the ranges of its code points, in ascending order. A character is blank
when Unicode gives it the property White_Space: the no-break space and the ideographic space are blank,
the zero-width space and the byte order mark are not.

A line of text is cut in three ways: into its trimmed form, into its first word and the trimmed
remainder, and into all of its words. All three are defined over the characters of the text, and
each has a form for strings.
-/

namespace ToolNodes.Text

/-! ## Classes of characters -/

/-- A class of characters: the first and the last code point of each of its ranges. -/
abbrev CharClass := List (Nat × Nat)

def CharClass.contains (ranges : CharClass) (c : Char) : Bool :=
  ranges.any fun range => range.1 ≤ c.toNat && c.toNat ≤ range.2

def blanks : CharClass :=
  [(0x9, 0xD), (0x20, 0x20), (0x85, 0x85), (0xA0, 0xA0), (0x1680, 0x1680), (0x2000, 0x200A),
   (0x2028, 0x2029), (0x202F, 0x202F), (0x205F, 0x205F), (0x3000, 0x3000)]

/-- Whether trimming drops the character and a word ends before it. -/
def isBlank (c : Char) : Bool := blanks.contains c

/-! ## Trimming and words -/

/-- The text up to the last character that fails `p`. -/
def dropTail (p : Char → Bool) (s : List Char) : List Char :=
  (s.reverse.dropWhile p).reverse

/-- The text without its leading and trailing blanks. -/
def trim (s : List Char) : List Char :=
  dropTail isBlank (s.dropWhile isBlank)

/-- The characters up to the first blank. -/
def firstWord (s : List Char) : List Char :=
  s.takeWhile fun c => !isBlank c

/-- What follows the first blank, trimmed. -/
def afterFirstWord (s : List Char) : List Char :=
  trim (s.dropWhile fun c => !isBlank c)

/-- The text before the first blank and the trimmed text after it. A text without a blank is all
head. -/
def splitFirst (s : List Char) : List Char × List Char :=
  (firstWord s, afterFirstWord s)

/-- The pieces of a list between the elements that satisfy `p`, empty pieces included. -/
def splitOn {α : Type} (p : α → Bool) : List α → List (List α)
  | [] => [[]]
  | c :: s =>
    if p c then [] :: splitOn p s
    else match splitOn p s with
      | [] => [[c]]
      | piece :: pieces => (c :: piece) :: pieces

/-- The words of a text: its non-empty pieces between blanks. -/
def words (s : List Char) : List (List Char) :=
  (splitOn isBlank s).filter fun word => !word.isEmpty

/-- A string without its leading and trailing blanks. -/
def trimmed (s : String) : String := String.ofList (trim s.toList)

/-- Whether a string has nothing but blanks. -/
def isBlankText (s : String) : Bool := s.toList.all isBlank

end ToolNodes.Text

/-!
# Cutting text at separators

Column paths, collection names and bind names are all read by cutting text at a mark. The functions
work on lists of characters, so that each of them is one recursion over the text; one of them has a
twin that works on the bytes of the text.

- `splitBy` cuts at every accepted character and keeps empty pieces.
- `splitArrow` cuts at every arrow `->`, from left to right.
- `cutAt` cuts once, at the first mark.
- `cutAs` cuts once, at the first ` as ` in either case.
- `splitAs` does so between the bytes of the text, and fails in the middle of a character.
-/

namespace AqlBuilder.Text

/-- Put a character in front of the first piece. -/
def consPiece (c : Char) : List (List Char) → List (List Char)
  | [] => [[c]]
  | piece :: pieces => (c :: piece) :: pieces

/-- The pieces between the accepted characters, empty ones included. -/
def splitBy (cut : Char → Bool) : List Char → List (List Char)
  | [] => [[]]
  | c :: rest => if cut c then [] :: splitBy cut rest else consPiece c (splitBy cut rest)

/-- The pieces between arrows. -/
def splitArrow : List Char → List (List Char)
  | [] => [[]]
  | '-' :: '>' :: rest => [] :: splitArrow rest
  | c :: rest => consPiece c (splitArrow rest)

/-- Every arrow written as a dot. -/
def dotArrows : List Char → List Char
  | [] => []
  | '-' :: '>' :: rest => '.' :: dotArrows rest
  | c :: rest => c :: dotArrows rest

/-- The text before and after the first occurrence of a mark. -/
def cutAt (mark : Char) : List Char → Option (List Char × List Char)
  | [] => none
  | c :: rest =>
    if c = mark then some ([], rest)
    else (cutAt mark rest).map fun (before, after) => (c :: before, after)

/-- What follows `start`, if the text begins with it. -/
def dropStart? : List Char → List Char → Option (List Char)
  | [], text => some text
  | _ :: _, [] => none
  | s :: start, c :: text => if s = c then dropStart? start text else none

/-- What precedes `finish`, if the text ends with it. -/
def dropFinish? (finish text : List Char) : Option (List Char) :=
  (dropStart? finish.reverse text.reverse).map List.reverse

/-- Whether the needle occurs in the text. -/
def occursIn (needle : List Char) : List Char → Bool
  | [] => needle.isEmpty
  | c :: rest => (dropStart? needle (c :: rest)).isSome || occursIn needle rest

/-- The two spellings of a Latin letter. -/
def eitherCase (small : Char) (c : Char) : Bool :=
  c == small || c == small.toUpper

/-- The text after ` as `, if it stands at the front. -/
def afterAs? : List Char → Option (List Char)
  | ' ' :: a :: s :: ' ' :: rest =>
    if eitherCase 'a' a && eitherCase 's' s then some rest else none
  | _ => none

/-- The text before and after the first ` as `. -/
def cutAs : List Char → Option (List Char × List Char)
  | [] => none
  | c :: rest =>
    match afterAs? (c :: rest) with
    | some after => some ([], after)
    | none => (cutAs rest).map fun (before, after) => (c :: before, after)

/-!
## Cutting between bytes

Where a name is written with an alias, ` as ` can be looked for in the bytes of the text as well.
The text is then cut in front of the bytes that are found and behind them, and that can be done
between two characters only.
-/

/-- A place in the middle of a character, or behind the end of the text. -/
structure MidCharacter where
  index : Nat
  deriving DecidableEq, Repr

/-- The bytes of a text. -/
def bytes (text : String) : List UInt8 := text.toUTF8.data.toList

/-- A byte, with the small letter for a Latin capital. -/
def smallByte (b : UInt8) : UInt8 := if 65 ≤ b ∧ b ≤ 90 then b + 32 else b

/-- Whether two runs of bytes are the same but for the case of Latin letters. -/
def alikeBytes (run other : List UInt8) : Bool := run.map smallByte == other.map smallByte

/-- The runs of `size` bytes, in the order of the places where they begin. -/
def windows (size : Nat) (run : List UInt8) : List (List UInt8) :=
  (List.range (run.length + 1 - size)).map fun place => (run.drop place).take size

/-- The place of the first four bytes that spell ` as `. -/
def markIndex? (run : List UInt8) : Option Nat :=
  (windows 4 run).findIdx? (alikeBytes · (bytes " as "))

/-- The text in front of a place. -/
def textBefore (text : String) (place : Nat) : Except MidCharacter String :=
  match text.pos? ⟨place⟩ with
  | some pos => .ok (text.sliceTo pos).copy
  | none => .error ⟨place⟩

/-- The text from a place on. -/
def textFrom (text : String) (place : Nat) : Except MidCharacter String :=
  match text.pos? ⟨place⟩ with
  | some pos => .ok (text.sliceFrom pos).copy
  | none => .error ⟨place⟩

/-- The text before and after the first ` as `, if there is one. -/
def splitAs (text : String) : Except MidCharacter (Option (String × String)) :=
  match markIndex? (bytes text) with
  | none => .ok none
  | some place => do
    let before ← textBefore text place
    let after ← textFrom text (place + 4)
    return some (before, after)

/-!
## Blank characters

A character is blank when it has the Unicode property White_Space. Names are trimmed of blanks at
both ends, and operators are read word by word.
-/

/-- Whether the character is white space in any script. -/
def isBlank (c : Char) : Bool :=
  let code := c.toNat
  (9 ≤ code && code ≤ 13) || code == 0x20 || code == 0x85 || code == 0xa0 || code == 0x1680
    || (0x2000 ≤ code && code ≤ 0x200a) || code == 0x2028 || code == 0x2029 || code == 0x202f
    || code == 0x205f || code == 0x3000

/-- The text without the accepted characters at its end. -/
def dropEndWhile (accept : Char → Bool) (text : List Char) : List Char :=
  (text.reverse.dropWhile accept).reverse

/-- The text without blanks at either end. -/
def trimBlanks (text : List Char) : List Char :=
  dropEndWhile isBlank (text.dropWhile isBlank)

/-- The text without blanks at either end. -/
def trim (text : String) : String :=
  String.ofList (trimBlanks text.toList)

/-- The words between blanks. -/
def words (text : List Char) : List (List Char) :=
  (splitBy isBlank text).filter fun word => !word.isEmpty

end AqlBuilder.Text

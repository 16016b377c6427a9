import AqlBuilder.Text.Unicode

/-!
# Letters and their case

The classes of characters that word splitting and plural patterns look at, each decided by a rule
for the first 128 characters and by a property table beyond them; and text in small letters and in
capitals, by the full Unicode mappings: one character may become several, and a capital sigma
becomes the final small sigma where a word ends.

- `isAlphanumeric`, `isLowercase`, `isUppercase`, `isWordChar` are classes of any script.
- `lower` and `upper` map a whole text.
- `asciiUpper` changes the 26 Latin letters only.
-/

namespace AqlBuilder.Text

section classes

/-- Whether the code point is one of the first 128. -/
def isAscii (c : Char) : Bool := c.toNat < 128

/-- Whether the character is a Latin letter without marks. -/
def isAsciiLetter (c : Char) : Bool :=
  ('a' ≤ c && c ≤ 'z') || ('A' ≤ c && c ≤ 'Z')

/-- Whether the character is one of the ten digits. -/
def isAsciiDigit (c : Char) : Bool := '0' ≤ c && c ≤ '9'

/-- Whether the character is a Latin letter, a digit or an underscore. -/
def isNameChar (c : Char) : Bool := isAsciiLetter c || isAsciiDigit c || c == '_'

/-- Whether the character is a letter or a number of any script. -/
def isAlphanumeric (c : Char) : Bool :=
  if isAscii c then isAsciiLetter c || isAsciiDigit c
  else inRuns c.toNat alphabeticRuns || inRuns c.toNat numericRuns

/-- Whether the character is a small letter of any script. -/
def isLowercase (c : Char) : Bool :=
  if isAscii c then 'a' ≤ c && c ≤ 'z' else inRuns c.toNat lowercaseRuns

/-- Whether the character is a capital letter of any script. -/
def isUppercase (c : Char) : Bool :=
  if isAscii c then 'A' ≤ c && c ≤ 'Z' else inRuns c.toNat uppercaseRuns

/-- Whether the character may stand inside a word of a pattern: letters, marks, digits, connectors
and joiners, but for the most recent ones. -/
def isWordChar (c : Char) : Bool :=
  if isAscii c then isNameChar c
  else !inRuns c.toNat recentRuns
    && (inRuns c.toNat alphabeticRuns || inRuns c.toNat markRuns || inRuns c.toNat decimalDigitRuns
      || inRuns c.toNat connectorRuns || inRuns c.toNat joinerRuns)

end classes

section mapping

/-- The small letters of one character, without regard to its neighbours. -/
def lowerChar (c : Char) : List Char :=
  if isAscii c then [c.toLower]
  else match lowerExpansions.lookup c.toNat with
    | some codes => codes.map Char.ofNat
    | none => [((imageIn c.toNat lowerImages).map Char.ofNat).getD c]

/-- The capitals of one character. -/
def upperChar (c : Char) : List Char :=
  if isAscii c then [c.toUpper]
  else match upperExpansions.lookup c.toNat with
    | some codes => codes.map Char.ofNat
    | none => [((imageIn c.toNat upperImages).map Char.ofNat).getD c]

/-- Whether the character is a letter with case. -/
def isCased (c : Char) : Bool :=
  isLowercase c || isUppercase c || inRuns c.toNat titlecaseRuns

/-- Whether the first character that the case rules do not skip has case. -/
def meetsCased (text : List Char) : Bool :=
  match text.dropWhile fun c => inRuns c.toNat caseIgnorableRuns with
  | [] => false
  | c :: _ => isCased c

/-- The small letters of a text whose earlier part is given in reverse. A capital sigma after a
cased letter and before none is final. -/
def lowerAfter (before : List Char) : List Char → List Char
  | [] => []
  | c :: rest =>
    (if c = 'Σ' then [if meetsCased before && !meetsCased rest then 'ς' else 'σ'] else lowerChar c)
      ++ lowerAfter (c :: before) rest

/-- The text in small letters. -/
def lowerChars (text : List Char) : List Char := lowerAfter [] text

/-- The text in capitals. -/
def upperChars (text : List Char) : List Char := text.flatMap upperChar

/-- The text in small letters. -/
def lower (text : String) : String := String.ofList (lowerChars text.toList)

/-- The text in capitals. -/
def upper (text : String) : String := String.ofList (upperChars text.toList)

/-- The text with its Latin letters as capitals. -/
def asciiUpper (text : List Char) : List Char := text.map Char.toUpper

end mapping

end AqlBuilder.Text

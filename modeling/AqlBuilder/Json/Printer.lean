import AqlBuilder.Json
import AqlBuilder.Number.Shortest

/-!
# JSON text

JSON is written without blanks and with the members of an object in order. In a string only the
quotation mark, the backslash and the characters below the blank are escaped. Numbers that are not
finite are written as `null`.
-/

namespace AqlBuilder.Json

open Number

/-- Floating point numbers are written plainly from a hundred-thousandth up to sixteen digits. -/
def floatLayout : Layout := ⟨-5, 15⟩

/-- One hexadecimal digit in small letters. -/
def hexDigit (n : Nat) : Char :=
  if n < 10 then Char.ofNat ('0'.toNat + n) else Char.ofNat ('a'.toNat + (n - 10))

/-- One character of a quoted string. -/
def quoteChar (c : Char) : List Char :=
  if c = '"' then ['\\', '"']
  else if c = '\\' then ['\\', '\\']
  else if c = '\x08' then ['\\', 'b']
  else if c = '\x0c' then ['\\', 'f']
  else if c = '\n' then ['\\', 'n']
  else if c = '\r' then ['\\', 'r']
  else if c = '\t' then ['\\', 't']
  else if c.toNat < 0x20 then
    ['\\', 'u', '0', '0', hexDigit (c.toNat / 16), hexDigit (c.toNat % 16)]
  else [c]

/-- The text between quotation marks. -/
def quote (text : String) : String :=
  String.ofList ('"' :: text.toList.flatMap quoteChar ++ ['"'])

/-- The text of a number of a floating point format in a layout. -/
def floatText (layout : Layout) (format : BinaryFormat) (x : Decoded) : String :=
  (layout.text? format x).getD "null"

/-- The texts of the items between brackets. -/
def arrayText (items : List String) : String :=
  "[" ++ ",".intercalate items ++ "]"

/-- The texts of the members between braces. -/
def objectText (members : List (String × String)) : String :=
  "\x7b" ++ ",".intercalate (members.map fun (key, value) => quote key ++ ":" ++ value) ++ "\x7d"

mutual
/-- The text of a value. -/
def text : Json → String
  | null => "null"
  | bool b => if b then "true" else "false"
  | int n => toString n
  | float x => floatText floatLayout binary64 x.decode
  | string s => quote s
  | array items => arrayText (itemTexts items)
  | object members => objectText (memberTexts members)

/-- The texts of the items. -/
def itemTexts : List Json → List String
  | [] => []
  | item :: items => text item :: itemTexts items

/-- The keys with the texts of the members. -/
def memberTexts : List (String × Json) → List (String × String)
  | [] => []
  | (key, value) :: members => (key, text value) :: memberTexts members
end

end AqlBuilder.Json

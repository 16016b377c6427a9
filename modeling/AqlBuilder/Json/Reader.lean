import AqlBuilder.Json.Numeral

/-!
# Reading JSON

A text is read in two steps. `Tree.read?` checks the grammar and keeps what was written: numerals as
digits, strings with their escapes, objects with repeated keys. `Tree.value?` gives the tree its
meaning, and there numbers out of range, halves of surrogate pairs and trees that are nested too
deep are refused. So a part of a tree that nobody asks for is held to the grammar alone.

- `Json.read?` does both steps.
-/

namespace AqlBuilder.Json

/-- One unit of a quoted string. -/
inductive StringUnit
  | char (c : Char)
  /-- A four-digit escape. -/
  | code (n : Nat)

/-- A JSON text as written. -/
inductive Tree
  | null
  | bool (value : Bool)
  | number (value : Numeral)
  | string (units : List StringUnit)
  | array (items : List Tree)
  | object (members : List (List StringUnit × Tree))

/-- Blanks between the tokens of a JSON text. -/
def skipBlanks : List Char → List Char
  | [] => []
  | c :: rest =>
    if c = ' ' || c = '\n' || c = '\t' || c = '\r' then skipBlanks rest else c :: rest

/-- The value of a decimal digit. -/
def digit? (c : Char) : Option Nat :=
  if '0' ≤ c && c ≤ '9' then some (c.toNat - '0'.toNat) else none

/-- The value of a hexadecimal digit. -/
def hexDigit? (c : Char) : Option Nat :=
  if '0' ≤ c && c ≤ '9' then some (c.toNat - '0'.toNat)
  else if 'a' ≤ c && c ≤ 'f' then some (c.toNat - 'a'.toNat + 10)
  else if 'A' ≤ c && c ≤ 'F' then some (c.toNat - 'A'.toNat + 10)
  else none

/-- The digits at the front of a text, and what follows them. -/
def takeDigits : List Char → List Nat × List Char
  | [] => ([], [])
  | c :: rest =>
    match digit? c with
    | some d => let (digits, rest) := takeDigits rest; (d :: digits, rest)
    | none => ([], c :: rest)

/-- The digits at the front of a text, of which there has to be one. -/
def takeSomeDigits? (text : List Char) : Option (List Nat × List Char) :=
  match takeDigits text with
  | ([], _) => none
  | taken => some taken

/-- The exponent of a numeral, if there is one. -/
def takeExponent? : List Char → Option (Option (Bool × List Nat) × List Char)
  | c :: rest =>
    if c = 'e' || c = 'E' then
      let (down, rest) := match rest with
        | '-' :: rest => (true, rest)
        | '+' :: rest => (false, rest)
        | _ => (false, rest)
      (takeSomeDigits? rest).map fun (digits, rest) => (some (down, digits), rest)
    else some (none, c :: rest)
  | [] => some (none, [])

/-- The fraction of a numeral, if there is one. -/
def takeFraction? : List Char → Option (Option (List Nat) × List Char)
  | '.' :: rest => (takeSomeDigits? rest).map fun (digits, rest) => (some digits, rest)
  | text => some (none, text)

/-- A numeral at the front of a text. A zero is not followed by further digits. -/
def takeNumeral? (text : List Char) : Option (Numeral × List Char) := do
  let (negative, text) := match text with
    | '-' :: rest => (true, rest)
    | _ => (false, text)
  let (whole, text) ← takeSomeDigits? text
  if whole.head? = some 0 && whole.length > 1 then none
  else
    let (fraction, text) ← takeFraction? text
    let (exponent, text) ← takeExponent? text
    some (⟨negative, whole, fraction, exponent⟩, text)

/-- The character of an escape of one letter. -/
def escapedChar? (c : Char) : Option Char :=
  match c with
  | '"' => some '"'
  | '\\' => some '\\'
  | '/' => some '/'
  | 'b' => some '\x08'
  | 'f' => some '\x0c'
  | 'n' => some '\n'
  | 'r' => some '\r'
  | 't' => some '\t'
  | _ => none

/-- The units of a quoted string up to its closing mark. -/
def takeUnits? : List Char → Option (List StringUnit × List Char)
  | [] => none
  | '"' :: rest => some ([], rest)
  | '\\' :: 'u' :: a :: b :: c :: d :: rest => do
    let n := (← hexDigit? a) * 4096 + (← hexDigit? b) * 256 + (← hexDigit? c) * 16 + (← hexDigit? d)
    let (units, rest) ← takeUnits? rest
    some (.code n :: units, rest)
  | '\\' :: c :: rest => do
    let c ← escapedChar? c
    let (units, rest) ← takeUnits? rest
    some (.char c :: units, rest)
  | c :: rest => do
    if c.toNat < 0x20 || c = '\\' then none
    else
      let (units, rest) ← takeUnits? rest
      some (.char c :: units, rest)

mutual
/-- A value at the front of a text; `fuel` bounds the number of values and separators. -/
def takeValue? : Nat → List Char → Option (Tree × List Char)
  | 0, _ => none
  | fuel + 1, text =>
    match skipBlanks text with
    | 'n' :: 'u' :: 'l' :: 'l' :: rest => some (.null, rest)
    | 't' :: 'r' :: 'u' :: 'e' :: rest => some (.bool true, rest)
    | 'f' :: 'a' :: 'l' :: 's' :: 'e' :: rest => some (.bool false, rest)
    | '"' :: rest => (takeUnits? rest).map fun (units, rest) => (.string units, rest)
    | '[' :: rest =>
      match skipBlanks rest with
      | ']' :: rest => some (.array [], rest)
      | rest => (takeItems? fuel rest).map fun (items, rest) => (.array items, rest)
    | '\x7b' :: rest =>
      match skipBlanks rest with
      | '\x7d' :: rest => some (.object [], rest)
      | rest => (takeMembers? fuel rest).map fun (members, rest) => (.object members, rest)
    | text => (takeNumeral? text).map fun (n, rest) => (.number n, rest)

/-- The items of an array up to its closing bracket. -/
def takeItems? : Nat → List Char → Option (List Tree × List Char)
  | 0, _ => none
  | fuel + 1, text => do
    let (item, rest) ← takeValue? fuel text
    match skipBlanks rest with
    | ',' :: rest =>
      let (items, rest) ← takeItems? fuel rest
      some (item :: items, rest)
    | ']' :: rest => some ([item], rest)
    | _ => none

/-- The members of an object up to its closing brace. -/
def takeMembers? : Nat → List Char → Option (List (List StringUnit × Tree) × List Char)
  | 0, _ => none
  | fuel + 1, text =>
    match skipBlanks text with
    | '"' :: rest => do
      let (key, rest) ← takeUnits? rest
      match skipBlanks rest with
      | ':' :: rest => do
        let (value, rest) ← takeValue? fuel rest
        match skipBlanks rest with
        | ',' :: rest =>
          let (members, rest) ← takeMembers? fuel rest
          some ((key, value) :: members, rest)
        | '\x7d' :: rest => some ([(key, value)], rest)
        | _ => none
      | _ => none
    | _ => none
end

/-- The tree of a whole text. Every value takes at least one character, so twice the length of the
text is fuel enough. -/
def Tree.read? (text : String) : Option Tree :=
  let chars := text.toList
  match takeValue? (2 * chars.length + 2) chars with
  | some (tree, rest) => if (skipBlanks rest).isEmpty then some tree else none
  | none => none

/-- The characters of string units. The halves of a surrogate pair stand together or not at all. -/
def unitChars? : List StringUnit → Option (List Char)
  | [] => some []
  | .char c :: rest => (unitChars? rest).map (c :: ·)
  | .code n :: rest =>
    if n < 0xd800 || 0xe000 ≤ n then (unitChars? rest).map (Char.ofNat n :: ·)
    else if 0xdc00 ≤ n then none
    else match rest with
      | .code low :: rest =>
        if 0xdc00 ≤ low && low < 0xe000 then
          (unitChars? rest).map (Char.ofNat (0x10000 + (n - 0xd800) * 0x400 + (low - 0xdc00)) :: ·)
        else none
      | _ => none

/-- The text of string units. -/
def unitText? (units : List StringUnit) : Option String := (unitChars? units).map String.ofList

mutual
/-- The value of a tree with at most `depth` arrays and objects inside each other. -/
def Tree.value? (depth : Nat) : Tree → Option Json
  | .null => some .null
  | .bool b => some (.bool b)
  | .number n => n.value?
  | .string units => (unitText? units).map .string
  | .array items => if depth = 0 then none else (Tree.items? (depth - 1) items).map .array
  | .object members =>
    if depth = 0 then none
    else (Tree.members? (depth - 1) members).map fun ms => .object (Entries.ofPairs ms)

/-- The values of the items. -/
def Tree.items? (depth : Nat) : List Tree → Option (List Json)
  | [] => some []
  | item :: items => do
    let value ← Tree.value? depth item
    let values ← Tree.items? depth items
    some (value :: values)

/-- The values of the members. -/
def Tree.members? (depth : Nat) : List (List StringUnit × Tree) → Option (List (String × Json))
  | [] => some []
  | (key, item) :: members => do
    let key ← unitText? key
    let value ← Tree.value? depth item
    let values ← Tree.members? depth members
    some ((key, value) :: values)
end

/-- How deep arrays and objects may be nested. -/
def maximalDepth : Nat := 127

/-- The value of a JSON text. -/
def read? (text : String) : Option Json := do
  (← Tree.read? text).value? maximalDepth

end AqlBuilder.Json

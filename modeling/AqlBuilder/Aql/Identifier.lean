import AqlBuilder.Json.Printer
import AqlBuilder.Text.Case

/-!
# Identifiers

Names in a statement. A name that is an identifier and not a keyword stands bare; a collection with
any other name is put between backticks, an attribute of an object literal between quotation marks.
Between backticks a backtick is preceded by a backslash.
-/

namespace AqlBuilder.Aql

/-- Whether a text is a letter or an underscore followed by letters, digits and underscores. -/
def isIdentifierChars : List Char → Bool
  | [] => false
  | c :: rest => (Text.isAsciiLetter c || c == '_') && rest.all Text.isNameChar

/-- Whether a name is an identifier. -/
def isIdentifier (name : String) : Bool := isIdentifierChars name.toList

/-- The keywords of the query language. -/
def keywords : List String := [
  "AGGREGATE", "ALL", "AND", "ANY", "ASC", "COLLECT", "DESC", "DISTINCT", "FALSE", "FILTER",
  "FOR", "GRAPH", "IN", "INBOUND", "INSERT", "INTO", "K_PATHS", "K_SHORTEST_PATHS", "LET",
  "LIKE", "LIMIT", "NONE", "NOT", "NULL", "OR", "OUTBOUND", "REMOVE", "REPLACE", "RETURN",
  "SHORTEST_PATH", "SORT", "TRUE", "UPDATE", "UPSERT", "WINDOW", "WITH"]

/-- Whether a name is a keyword in any case. -/
def isKeyword (name : String) : Bool :=
  keywords.contains (String.ofList (Text.asciiUpper name.toList))

/-- Whether a name may stand bare. -/
def isBare (name : String) : Bool := isIdentifier name && !isKeyword name

/-- A name with a backslash in front of each backtick. -/
def escapeTicks (name : List Char) : List Char :=
  name.flatMap fun c => if c = '\x60' then ['\\', '\x60'] else [c]

/-- A name between backticks. -/
def ticked (name : List Char) : List Char := '\x60' :: escapeTicks name ++ ['\x60']

/-- A name without a backtick stands between backticks as it is. -/
theorem ticked_of_notMem {name : List Char} (h : '\x60' ∉ name) :
    ticked name = '\x60' :: name ++ ['\x60'] := by
  have hescaped : escapeTicks name = name := by
    induction name with
    | nil => rfl
    | cons c rest ih =>
        obtain ⟨hc, hrest⟩ : '\x60' ≠ c ∧ '\x60' ∉ rest := by simpa using h
        rw [escapeTicks, List.flatMap_cons, if_neg hc.symm]
        exact congrArg (c :: ·) (ih hrest)
  rw [ticked, hescaped]

/-- A collection in a statement, by its prefix and its name. -/
def collectionName (tablePrefix name : String) : String :=
  let full := tablePrefix ++ name
  if isBare full then full else String.ofList (ticked full.toList)

/-- An attribute name in an object literal. -/
def objectKey (name : String) : String := if isBare name then name else Json.quote name

/-- An object literal with the given attributes. -/
def objectLiteral (entries : List (String × String)) : String :=
  "\x7b" ++ ", ".intercalate (entries.map fun (key, value) => objectKey key ++ ": " ++ value)
    ++ "\x7d"

/-- The fields of an object literal, each with its attribute and its expression. -/
theorem objectLiteral_eq (entries : List (String × String)) : objectLiteral entries =
    "\x7b" ++ ", ".intercalate (entries.map fun entry => objectKey entry.1 ++ ": " ++ entry.2)
      ++ "\x7d" := rfl

end AqlBuilder.Aql

import AqlBuilder.Text.Case
import AqlBuilder.Text.Split

/-!
# Declared collections

A transaction states in advance which collections it reads and which it writes. A collection is
listed once, where it was first named. Before a transaction is sent, what is written is also
declared for reading.
-/

namespace AqlBuilder

/-- The collections that a transaction reads and writes. -/
structure Collections where
  read : List String
  write : List String
  deriving DecidableEq, Inhabited

namespace Collections

/-- No collections. -/
def empty : Collections := ⟨[], []⟩

/-- The names with one more, unless it is there. -/
def addName (names : List String) (name : String) : List String :=
  if names.contains name then names else names ++ [name]

/-- The names with further ones, each of them unless it is there. -/
def addNames (names further : List String) : List String := further.foldl addName names

/-- Declare collections for reading. -/
def reading (c : Collections) (names : List String) : Collections :=
  { c with read := addNames c.read names }

/-- Declare collections for writing. -/
def writing (c : Collections) (names : List String) : Collections :=
  { c with write := addNames c.write names }

/-- Whether nothing is declared. -/
def isEmpty (c : Collections) : Bool := c.read.isEmpty && c.write.isEmpty

/-- The collections of both declarations. -/
def merge (c other : Collections) : Collections :=
  (c.reading other.read).writing other.write

/-- The declaration without repetitions, and with everything that is written also read. -/
def normalized (c : Collections) : Collections :=
  ⟨addNames [] (c.read ++ c.write), addNames [] c.write⟩

end Collections

end AqlBuilder

/-!
## Inferred collections

What a statement reads and writes can be seen from its words. `IN` and `INTO` are followed by the
name of a collection. After a word that starts a modification the next such collection is written;
otherwise it is read if the word before the loop variable is `FOR`. A bound collection, a sub-query
or an expression is no name and is passed over.

- `Collections.mentioned` lists the collections that a list of words mentions.
- `Collections.inferred` is the declaration for a statement.
-/

namespace AqlBuilder.Collections

/-- A collection that a statement mentions. -/
inductive Mention
  | read (name : String)
  | write (name : String)

/-- The words that start a modification. -/
def writeKeywords : List String := ["INSERT", "UPDATE", "UPSERT", "REPLACE", "REMOVE"]

/-- Whether the word is one of the keywords, in any case. -/
def isOneOf (keywords : List String) (word : List Char) : Bool :=
  keywords.contains (String.ofList (Text.asciiUpper word))

/-- Whether a word starts a loop; parentheses may stand in front of it. -/
def startsLoop (word : List Char) : Bool :=
  isOneOf ["FOR"] (word.dropWhile (· == '('))

/-- The word without parentheses and commas behind it and without backticks around it. -/
def bareWord (word : List Char) : List Char :=
  Text.dropEndWhile (· == '\x60')
    ((Text.dropEndWhile (fun c => c == ')' || c == ',') word).dropWhile (· == '\x60'))

/-- Whether the text is the name of a collection: letters, digits, underscores and hyphens, with a
letter or an underscore in front. -/
def isCollectionName (name : List Char) : Bool :=
  match name with
  | [] => false
  | c :: _ =>
    (Text.isAsciiLetter c || c == '_') && name.all fun c => Text.isNameChar c || c == '-'

/-- The collection that a word names. -/
def nameIn? (word : List Char) : Option String :=
  let name := bareWord word
  if isCollectionName name then some (String.ofList name) else none

/-- The collections that a list of words mentions. The two words before the list are given, the
nearer one last, and whether a modification has been started. -/
def mentioned (farther nearer : List Char) (writing : Bool) : List (List Char) → List Mention
  | [] => []
  | word :: rest =>
    if isOneOf writeKeywords word then mentioned nearer word true rest
    else if isOneOf ["IN", "INTO"] word then
      match rest.head?.bind nameIn? with
      | none => mentioned nearer word writing rest
      | some name =>
        if writing then .write name :: mentioned nearer word false rest
        else if startsLoop farther then .read name :: mentioned nearer word writing rest
        else mentioned nearer word writing rest
    else mentioned nearer word writing rest

/-- The collection of a mention, if it is read. -/
def Mention.read? : Mention → Option String
  | read name => some name
  | write _ => none

/-- The collection of a mention, if it is written. -/
def Mention.write? : Mention → Option String
  | read _ => none
  | write name => some name

/-- The collections that a statement reads and writes. -/
def inferred (aql : String) : Collections :=
  let mentions := mentioned [] [] false (Text.words aql.toList)
  normalized ⟨mentions.filterMap Mention.read?, mentions.filterMap Mention.write?⟩

end AqlBuilder.Collections

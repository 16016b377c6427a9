import AqlBuilder.Alias.Registry
import AqlBuilder.Aql.Identifier
import AqlBuilder.Text.Split
import AqlBuilder.Value.Keys

/-!
# Columns

A column is the path of an attribute. What it stands for in a statement depends on the names that
the query can see.

- `Column.pathText` writes a path behind a variable.
- `Scope.resolve` is the text of a column in a scope.
-/

/-!
## Attribute paths

A column is written as a path of attributes, separated by dots or arrows. In a statement each
attribute is put between backticks behind the document variable; an array operator such as `[*]`
stays outside of them. The attribute `id` at the start of a path is the key of the document.

- `segments` cuts a column into its attributes.
- `pathText` writes a path behind a variable.
- `attributeName` is the last attribute, the name of a column in a projection.
-/

namespace AqlBuilder.Column

/-- A column as it is looked up: without blanks around it and with dots for arrows. -/
def normalForm (column : List Char) : List Char := Text.dotArrows (Text.trimBlanks column)

/-- The attributes of a column in normal form. -/
def segments (column : List Char) : List (List Char) := Text.splitBy (· == '.') column

/-- One attribute between backticks, with an array operator behind them. -/
def tickedAttribute (segment : List Char) : List Char :=
  if segment = ['*'] then segment
  else
    let name := segment.takeWhile (· != '[')
    if name.isEmpty then segment else Aql.ticked name ++ segment.drop name.length

/-- One attribute between backticks. -/
def attributeText (segment : List Char) : String := String.ofList (tickedAttribute segment)

/-- The texts of the attributes of a path whose first attribute may be `id`. -/
def attributeTexts : List (List Char) → List String
  | [] => []
  | first :: rest =>
    attributeText (if first = idAttribute.toList then keyAttribute.toList else first)
      :: rest.map attributeText

/-- A path behind a document variable, or on its own if the variable is empty. -/
def pathText (docVar : String) (path : List (List Char)) : String :=
  let texts := attributeTexts path
  ".".intercalate (if docVar.isEmpty then texts else docVar :: texts)

/-- The path of a column on a document. -/
def onDocument (docVar column : String) : String :=
  pathText docVar (segments (normalForm column.toList))

/-- The path of a column on a row of a projection, where `id` has its own name. -/
def onRow (docVar column : String) : String :=
  ".".intercalate (docVar :: (segments (normalForm column.toList)).map attributeText)

/-- The last attribute of a column, without an array operator. -/
def attributeName (column : String) : String :=
  let last := (segments (normalForm column.toList)).getLast?.getD []
  String.ofList (last.takeWhile (· != '['))

end AqlBuilder.Column

/-!
## Resolving columns

A column of a condition, an order or a projection is resolved against the names that its query can
see. In order of precedence, a column is

- a registered reference, written as the expression it stands for,
- a name in the projection, written as the column behind it,
- an attribute of a query variable,
- an attribute of a collection or of a document variable, if it has several segments,
- an attribute of the main document.

Names in the projection may stand for each other, so a chain of them is followed. Each step uses up
one entry of the table, and the number of entries bounds the chain.
-/

namespace AqlBuilder

/-- What the columns of a query are resolved against. -/
structure Scope where
  aliases : Registry
  /-- The document variable of the main loop. -/
  docVar : Option String

namespace Scope

/-- The text of a column in normal form that is no name in the projection. -/
def resolveDirect (scope : Scope) (column : List Char) : String :=
  match Column.segments column with
  | [] => ""
  | first :: rest =>
    let name := String.ofList first
    if scope.aliases.isVariable name then
      if rest.isEmpty then name else Column.pathText name rest
    else if rest.isEmpty then Column.pathText (scope.docVar.getD "") [first]
    else match scope.aliases.tableVariable? name with
      | some docVar => Column.pathText docVar rest
      | none =>
        if scope.aliases.isTableVariable name then Column.pathText name rest
        else Column.pathText (scope.docVar.getD "") (first :: rest)

/-- The text of a column, following at most `fuel` names in the projection. -/
def resolveWithin (scope : Scope) : Nat → String → String
  | fuel, column =>
    let path := Column.normalForm column.toList
    let name := String.ofList path
    match scope.aliases.expressionOf? name with
    | some expression => expression
    | none =>
      if path.contains '.' then scope.resolveDirect path
      else match scope.aliases.columnFor? name, fuel with
        | some target, fuel + 1 =>
          if target = name then scope.resolveDirect path else scope.resolveWithin fuel target
        | _, _ => scope.resolveDirect path

/-- The text of a column. -/
def resolve (scope : Scope) (column : String) : String :=
  scope.resolveWithin scope.aliases.columns.length column

end Scope

end AqlBuilder

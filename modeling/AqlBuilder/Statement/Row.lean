import AqlBuilder.Aql.Identifier
import AqlBuilder.Builder.Basic
import AqlBuilder.Text.Split
import AqlBuilder.Value.Keys

/-!
# What a change writes

Documents to be inserted and attributes to be updated come as JSON values or as attributes with
values; an update may also assign columns, expressions and sub-queries.
-/

namespace AqlBuilder

/-- A document to be written. -/
inductive Row
  | json (value : Json)
  | attributes (document : Document)

/-- The document of a row. -/
def Row.document : Row → Except Error Document
  | .attributes document => .ok document
  | .json value =>
    match Value.ofJson value with
    | .object document => .ok document
    | other => .error (.invalidArgument (.notAnObject other.typeName))

/-- The document of unordered attributes: each with its last value, in the order of the names. -/
def Document.ofUnordered (pairs : List (String × Value)) : Document :=
  Entries.sorted (Entries.ofPairs pairs)

/-- The documents of some rows, or the first error among them. -/
def Row.documents : List Row → Except Error (List Document)
  | [] => .ok []
  | row :: rows => do
    let first ← row.document
    let rest ← documents rows
    pure (first :: rest)

/-- The attributes that an update assigns. -/
inductive Changes (Q : Type)
  | row (row : Row)
  | operands (pairs : List (String × Operand Q))

/-- The assignments of an update. -/
def Changes.assignments {Q : Type} : Changes Q → Except Error (List (String × Operand Q))
  | .operands pairs => .ok pairs
  | .row r => do
    let document ← r.document
    pure (document.map fun (key, value) => (key, .value value))

/-!
## Assignments to nested attributes

An update writes an object with the assigned attributes. An attribute may be a path with arrows,
which stands for an attribute of an attribute. A later assignment to a path takes the place of
earlier ones to the path, to a part of it or to paths that continue it.

- `Assigned.assign` adds an assignment.
- `Assigned.text` writes the object.
-/

/-- What an attribute is assigned: an expression, or attributes of its own. -/
inductive Assigned
  | value (aql : String)
  | nested (fields : List (String × Assigned))

namespace Assigned

/-- The path of an attribute. The key of a document is stored under the server's name. -/
def pathOf (column : String) : List String :=
  let parts := (Text.splitArrow column.toList).map fun part =>
    String.ofList (Text.trimBlanks part)
  match parts with
  | first :: rest => renamed idAttribute keyAttribute first :: rest
  | [] => []

/-- The attributes of an attribute, none if it is assigned an expression. -/
def fieldsOf : Option Assigned → Entries Assigned
  | some (nested fields) => fields
  | _ => []

/-- Assign an expression to a path. -/
def assignPath (aql : String) : List String → Entries Assigned → Entries Assigned
  | [], fields => fields
  | [last], fields => fields.put last (value aql)
  | first :: next :: rest, fields =>
    fields.put first (nested (assignPath aql (next :: rest) (fieldsOf (fields.get? first))))

/-- Assign an expression to an attribute. -/
def assign (fields : Entries Assigned) (column aql : String) : Entries Assigned :=
  assignPath aql (pathOf column) fields

mutual
/-- The expression of an attribute. -/
def text : Assigned → String
  | value aql => aql
  | nested fields => Aql.objectLiteral (fieldTexts fields)

/-- The attributes with their expressions. -/
def fieldTexts : List (String × Assigned) → List (String × String)
  | [] => []
  | (key, field) :: fields => (key, text field) :: fieldTexts fields
end

end Assigned

end AqlBuilder

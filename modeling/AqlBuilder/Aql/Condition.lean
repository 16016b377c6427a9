import AqlBuilder.Aql.Outcome

/-!
# Conditions

The text of conditions. A list of conditions is written with the connector of each condition in
front of it; the first connector is dropped. Columns are resolved in the scope of the query that
holds the conditions, and a group in the scope of its own.
-/

namespace AqlBuilder

/-- An operand in a statement. -/
def Bound.text (scope : Scope) : Bound → String
  | .placeholder name => "@" ++ name
  | .raw aql => aql
  | .column name => scope.resolve name

/-- The part of a date in a column. -/
def DatePart.text (column : String) : DatePart → String
  | .date => "DATE_FORMAT(" ++ column ++ ", \"%yyyy-%mm-%dd\")"
  | .time => "DATE_FORMAT(" ++ column ++ ", \"%hh:%ii:%ss\")"
  | .year => "DATE_YEAR(" ++ column ++ ")"
  | .month => "DATE_MONTH(" ++ column ++ ")"
  | .day => "DATE_DAY(" ++ column ++ ")"

namespace Aql

/-- Two operands around an operator. -/
def comparison (left : String) (operator : Operator) (right : String) : String :=
  left ++ " " ++ operator.text ++ " " ++ right

/-- The operator for membership. -/
def membership (negated : Bool) : Operator := if negated then .notMember else .member

/-- The operator for a value, or all items of a value, in an array attribute. -/
def containment (all negated : Bool) : Operator :=
  match all, negated with
  | false, false => .member
  | false, true => .notMember
  | true, false => ⟨"ALL IN"⟩
  | true, true => ⟨"NONE IN"⟩

/-- A column between two bounds, or outside of them. -/
def between (column low high : String) (negated : Bool) : String :=
  if negated then "(" ++ column ++ " < " ++ low ++ " OR " ++ column ++ " > " ++ high ++ ")"
  else "(" ++ column ++ " >= " ++ low ++ " AND " ++ column ++ " <= " ++ high ++ ")"

/-- Whether the rows of an expression are none or some. One row at most is compared with `null`. -/
def rowTest (aql : String) (singleRow negated : Bool) : String :=
  match singleRow, negated with
  | true, false => "FIRST(" ++ aql ++ ") != null"
  | true, true => "FIRST(" ++ aql ++ ") == null"
  | false, false => "LENGTH(" ++ aql ++ ") > 0"
  | false, true => "LENGTH(" ++ aql ++ ") == 0"

/-- A bitwise operator as a call of its function. Shifts work on 32 bits. -/
def bitCall (function column value : String) (shift : Bool) : String :=
  function ++ "(" ++ column ++ ", " ++ value ++ (if shift then ", 32" else "") ++ ") != 0"

end Aql

open Aql in
/-- The text of a test in a scope. -/
def Test.text (scope : Scope) : Test Fragment → Outcome String
  | .compare column operator value =>
    let value := value.text scope
    pure <| if operator = .likeAnyCase then
      "LIKE(" ++ scope.resolve column ++ ", " ++ value ++ ", true)"
    else comparison (scope.resolve column) operator value
  | .between column low high negated =>
    pure (Aql.between (scope.resolve column) (low.text scope) (high.text scope) negated)
  | .member column values negated =>
    pure (comparison (scope.resolve column) (membership negated) (values.text scope))
  | .memberOf column values negated =>
    pure (comparison (scope.resolve column) (membership negated)
      ("[" ++ ", ".intercalate (values.map fun (n : Int) => toString n) ++ "]"))
  | .memberOfQuery column query negated => do
    let aql ← query.embedded
    pure (comparison (scope.resolve column) (membership negated) aql)
  | .isNull column negated =>
    pure (comparison (scope.resolve column) (if negated then .notEqual else .equal) "null")
  | .compareColumns first operator second =>
    pure (comparison (scope.resolve first) operator (scope.resolve second))
  | .compareQuery column operator query => do
    let aql ← query.value
    pure (comparison (scope.resolve column) operator aql)
  | .hasRows query negated => do
    let aql ← query.embedded
    pure (rowTest aql query.singleRow negated)
  | .nested query => do
    match ← query.conditions with
    | some conditions => pure ("(" ++ conditions ++ ")")
    | none => pure "true"
  | .raw aql => pure aql
  | .contains column value all negated =>
    pure (comparison (value.text scope) (containment all negated) (scope.resolve column))
  | .length column operator value =>
    pure (comparison ("LENGTH(" ++ scope.resolve column ++ ")") operator (value.text scope))
  | .date part column operator value =>
    pure (comparison (part.text (scope.resolve column)) operator (value.text scope))
  | .bits column operator value =>
    match operator.bitFunction? with
    | none => .fail (.compilation (.notBitwise operator.text))
    | some function =>
      pure (bitCall function (scope.resolve column) (value.text scope) operator.isShift)

namespace Aql

/-- The texts of conditions with their connectors in front of them. -/
def furtherConditions (scope : Scope) : List (Condition Fragment) → Outcome String
  | [] => pure ""
  | condition :: rest => do
    let first ← condition.test.text scope
    let rest ← furtherConditions scope rest
    pure (" " ++ condition.connector.text ++ " " ++ first ++ rest)

/-- The text of a list of conditions, if there are any. -/
def conditions (scope : Scope) : List (Condition Fragment) → Outcome (Option String)
  | [] => pure none
  | condition :: rest => do
    let first ← condition.test.text scope
    let rest ← furtherConditions scope rest
    pure (some (first ++ rest))

/-- A filter with a list of conditions, if there are any. -/
def filter (scope : Scope) (list : List (Condition Fragment)) : Outcome (List String) := do
  match ← conditions scope list with
  | some text => pure ["FILTER " ++ text]
  | none => pure []

end Aql

end AqlBuilder

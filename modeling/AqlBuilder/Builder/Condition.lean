import AqlBuilder.Builder.Basic

/-!
# Adding conditions

A condition is added to the filter of a query or to the conditions on its groups. The kind of test
follows from the operator and the operand: a sub-query is embedded, `null` has tests of its own,
membership needs a list, and bitwise operators become function calls.
-/

namespace AqlBuilder

variable [Naming]

/-- The list that a condition is added to. -/
inductive ConditionList
  | filters
  | havings
  deriving DecidableEq

/-- The category of the values in a list of conditions. -/
def ConditionList.category : ConditionList → Category
  | filters => .filter
  | havings => .having

/-- An operand whose value is free of embedded JSON. -/
def Operand.cast {Q : Type} : Operand Q → Operand Q
  | .value v => .value v.cast
  | other => other

/-- Whether an operand can be the right-hand side of a membership test. -/
def Operand.isList {Q : Type} : Operand Q → Bool
  | .value (.array _) => true
  | .value _ => false
  | _ => true

namespace Builder

/-- Add a condition to a list. -/
def push (b : Builder) (list : ConditionList) (connector : Connector) (test : Test Query) :
    Builder :=
  match list with
  | .filters => { b with filters := b.filters ++ [⟨test, connector⟩] }
  | .havings => { b with havings := b.havings ++ [⟨test, connector⟩] }

/-- The test of a column against a sub-query. -/
def queryTest (column : String) (operator : Operator) (query : Builder) : Test Query :=
  let query : Query := .of { query with singleValue := true }
  if operator.isMembership then .memberOfQuery column query (operator = .notMember)
  else .compareQuery column operator query

/-- Add the condition that an operator and an operand call for. -/
def addComparison (b : Builder) (list : ConditionList) (connector : Connector) (column : String)
    (operator : Operator) (operand : Operand Builder) : Supply Builder :=
  match operand.cast with
  | .query query => do
    let (query, b) ← b.adopt (.finished query) list.category
    pure (b.push list connector (queryTest column operator query))
  | .value .null =>
    pure <| if operator.acceptsNull then
      b.push list connector (.isNull column (operator = .notEqual))
    else b.fail (.invalidArgument .operatorWithNull)
  | operand =>
    if operator.isMembership && !operand.isList then
      pure (b.fail (.invalidArgument (.listRequired operator.text)))
    else do
      let (value, b) ← b.bind operand list.category
      pure <| b.push list connector <|
        if operator.isMembership then .member column value (operator = .notMember)
        else if operator.isBitwise then .bits column operator value
        else .compare column operator value

/-- Compare a column with an operand. -/
def condition (b : Builder) (list : ConditionList) (connector : Connector) (column : String)
    (operator : Except Error Operator) (operand : Operand Builder) : Supply Builder :=
  b.unlessFailedM fun b =>
    match operator with
    | .ok operator => b.addComparison list connector column operator operand
    | .error e => pure (b.fail e)

/-- Add a test that needs an operator, or record that the operator is wrong. -/
def withOperator (b : Builder) (operator : Except Error Operator)
    (add : Builder → Operator → Supply Builder) : Supply Builder :=
  b.unlessFailedM fun b =>
    match operator with
    | .ok operator => add b operator
    | .error e => pure (b.fail e)

/-- Compare two columns. -/
def compareColumns (b : Builder) (connector : Connector) (first : String)
    (operator : Except Error Operator) (second : String) : Builder :=
  b.unlessFailed fun b =>
    match operator with
    | .ok operator => b.push .filters connector (.compareColumns first operator second)
    | .error e => b.fail e

/-- Require a column to be in an array, or not to be in it. -/
def member (b : Builder) (connector : Connector) (negated : Bool) (column : String)
    (values : Value) : Supply Builder :=
  b.condition .filters connector column (.ok (Aql.membership negated)) (.value values)

/-- Require a column to be among the rows of a sub-query, or not to be. -/
def memberOfQuery (b : Builder) (negated : Bool) (column : String) (sub : SubQuery) :
    Supply Builder :=
  b.unlessFailedM fun b => do
    let (query, b) ← b.adopt sub .filter
    pure (b.push .filters .and (queryTest column (Aql.membership negated) query))

/-- Require a column to be one of some integers, which are written into the statement. -/
def memberOf (b : Builder) (negated : Bool) (column : String) (values : List Int) : Builder :=
  b.unlessFailed fun b => b.push .filters .and (.memberOf column values negated)

/-- Require a column to be `null`, or not to be. -/
def isNull (b : Builder) (list : ConditionList) (connector : Connector) (negated : Bool)
    (column : String) : Builder :=
  b.push list connector (.isNull column negated)

/-- Require a column to be between two bounds, or outside of them. -/
def between (b : Builder) (list : ConditionList) (connector : Connector) (negated : Bool)
    (column : String) (bounds : Value) : Builder :=
  b.unlessFailed fun b =>
    match bounds.cast with
    | .array [low, high] =>
      let (low, b) := b.bindValue low list.category
      let (high, b) := b.bindValue high list.category
      b.push list connector (.between column low high negated)
    | _ => b.fail (.invalidArgument .twoBoundsRequired)

/-- Add a group of conditions; an empty group adds nothing. -/
def nested (b : Builder) (connector : Connector) (make : Builder → Supply Builder) :
    Supply Builder :=
  b.unlessFailedM fun b => do
    let group ← make (← b.forNested)
    let b := b.absorb group .filter
    pure (if group.filters.isEmpty then b else b.push .filters connector (.nested (.of group)))

/-- Require a sub-query to have rows, or to have none. -/
def hasRows (b : Builder) (connector : Connector) (negated : Bool) (sub : SubQuery) :
    Supply Builder :=
  b.unlessFailedM fun b => do
    let (query, b) ← b.adopt sub .filter
    pure (b.push .filters connector (.hasRows (.of query) negated))

/-- Compare a column with the value of a sub-query. -/
def compareQuery (b : Builder) (column : String) (operator : Except Error Operator)
    (sub : SubQuery) : Supply Builder :=
  b.withOperator operator fun b operator => do
    let (query, b) ← b.adopt sub .filter
    pure (b.push .filters .and (queryTest column operator query))

/-- Add a condition in the words of the query language. -/
def rawCondition (b : Builder) (list : ConditionList) (connector : Connector) (aql : String) :
    Builder :=
  b.unlessFailed fun b => b.push list connector (.raw aql)

/-- Require an array attribute to contain a value, or all items of an array. -/
def contains (b : Builder) (negated : Bool) (column : String) (value : Value) : Builder :=
  b.unlessFailed fun b =>
    let value := value.cast
    let (bound, b) := b.bindValue value .filter
    b.push .filters .and (.contains column bound value.items?.isSome negated)

/-- Compare the length of an array attribute. -/
def length (b : Builder) (column : String) (operator : Except Error Operator)
    (operand : Operand Builder) : Supply Builder :=
  b.withOperator operator fun b operator => do
    let (value, b) ← b.bind operand .filter
    pure (b.push .filters .and (.length column operator value))

/-- Compare a part of a date. -/
def date (b : Builder) (part : DatePart) (column : String) (operator : Except Error Operator)
    (operand : Operand Builder) : Supply Builder :=
  b.withOperator operator fun b operator => do
    let (value, b) ← b.bind operand .filter
    pure (b.push .filters .and (.date part column operator value))

/-- Match a column against a pattern with wildcards. -/
def like (b : Builder) (connector : Connector) (column : String) (pattern : Value)
    (caseSensitive : Bool) : Supply Builder :=
  b.condition .filters connector column (.ok (if caseSensitive then .like else .likeAnyCase))
    (.value pattern)

/-- Require a column not to match a pattern with wildcards. -/
def notLike (b : Builder) (column : String) (pattern : Value) : Supply Builder :=
  b.condition .filters .and column (.ok .notLike) (.value pattern)

end Builder

end AqlBuilder

import AqlBuilder.Column.Resolve
import AqlBuilder.Operator

/-!
# Clauses

What a query is made of. Sources, projections, conditions, joins, unions and query variables may
hold further queries; the types below leave the type of those queries open. With `Query` for it a
clause is what a builder collects, and with something else it is a clause whose queries have been
replaced by what is known about them, for instance by their texts.

Each type with queries inside has a `map`, and `queries` lists the queries inside; replacing them
replaces each of them in its place.
-/

namespace AqlBuilder

/-- An operand as it appears in a statement. -/
inductive Bound
  /-- A bound value, by its name. -/
  | placeholder (name : String)
  /-- Text of the caller or of a compiled sub-query. -/
  | raw (aql : String)
  /-- A column, resolved when the statement is compiled. -/
  | column (name : String)
  deriving DecidableEq, Inhabited

/-- The right-hand side of a condition, or a value to be stored. -/
inductive Operand (Q : Type)
  | value (value : Value)
  | expression (aql : String)
  | column (name : String)
  | query (query : Q)

/-- One part of a projection. -/
inductive Selector (Q : Type)
  | column (name : String)
  | aliased (column asName : String)
  /-- The whole documents of a collection, of the main one if the name is empty. -/
  | documents (table : String)
  | raw (aql : String) (asName : Option String)
  | sub (query : Q) (asName : String)

/-- What a loop iterates over, with the variable of the loop. -/
inductive Source (Q : Type)
  | collection (name docVar : String)
  | view (name docVar : String)
  | derived (query : Q) (docVar : String)

/-- How a condition is connected with those before it. -/
inductive Connector
  | and
  | or
  deriving DecidableEq

/-- The part of a date that a condition looks at. -/
inductive DatePart
  | date
  | time
  | year
  | month
  | day
  deriving DecidableEq

/-- What a condition tests. -/
inductive Test (Q : Type)
  | compare (column : String) (operator : Operator) (value : Bound)
  | between (column : String) (low high : Bound) (negated : Bool)
  | member (column : String) (values : Bound) (negated : Bool)
  /-- Membership in a list of integers that are written into the statement. -/
  | memberOf (column : String) (values : List Int) (negated : Bool)
  | memberOfQuery (column : String) (query : Q) (negated : Bool)
  | isNull (column : String) (negated : Bool)
  | compareColumns (first : String) (operator : Operator) (second : String)
  | compareQuery (column : String) (operator : Operator) (query : Q)
  /-- Whether a query has at least one row. -/
  | hasRows (query : Q) (negated : Bool)
  /-- The conditions of a query as a group. -/
  | nested (query : Q)
  | raw (aql : String)
  /-- Whether an array attribute contains a value, or all items of it. -/
  | contains (column : String) (value : Bound) (all negated : Bool)
  | length (column : String) (operator : Operator) (value : Bound)
  | date (part : DatePart) (column : String) (operator : Operator) (value : Bound)
  | bits (column : String) (operator : Operator) (value : Bound)

/-- A test with its connection to the conditions before it. -/
structure Condition (Q : Type) where
  test : Test Q
  connector : Connector

/-- How rows without a partner are treated by a join. -/
inductive JoinKind
  | inner
  | left
  | cross
  deriving DecidableEq

/-- A joined source; it is the source of a query whose conditions restrict the join. -/
structure Join (Q : Type) where
  kind : JoinKind
  query : Q

/-- A query whose rows are added to those of another one. -/
structure UnionBranch (Q : Type) where
  query : Q
  /-- Whether duplicate rows are kept. -/
  all : Bool

/-- The value of a query variable. -/
inductive Definition (Q : Type)
  | bound (value : Bound)
  | query (query : Q)

/-- A variable that is defined in front of the main loop. -/
structure LetVariable (Q : Type) where
  name : String
  value : Definition Q

/-- The direction of an order. -/
inductive Direction
  | ascending
  | descending
  deriving DecidableEq

/-- One criterion of an order. -/
inductive Order
  | column (name : String) (direction : Direction)
  | raw (aql : String)
  | random
  /-- Relevance to a full-text search, the best match first. -/
  | bestMatching

/-- One key of a grouping. -/
inductive GroupKey
  | column (name : String)
  /-- A variable and an expression, separated by an equals sign. -/
  | raw (aql : String)

/-- The functions that compute one value of all rows. -/
inductive AggregateFunction
  | count
  | countDistinct
  | sum
  | avg
  | min
  | max
  deriving DecidableEq

/-- An aggregate of a column, or of the rows themselves. -/
structure Aggregate where
  function : AggregateFunction
  column : Option String

/-- A full-text search. -/
structure Search where
  fields : List String
  text : Bound
  analyzer : Bound

/-- The name of an aggregate function in a statement. -/
def AggregateFunction.text : AggregateFunction → String
  | count => "COUNT"
  | countDistinct => "COUNT_DISTINCT"
  | sum => "SUM"
  | avg => "AVG"
  | min => "MIN"
  | max => "MAX"

/-- The name of a direction in a statement. -/
def Direction.text : Direction → String
  | ascending => "ASC"
  | descending => "DESC"

/-- The direction with a name, in any case and with blanks around it. -/
def Direction.ofText (text : String) : Except Error Direction :=
  let name := String.ofList (Text.lowerChars (Text.trimBlanks text.toList))
  if name = "asc" then .ok .ascending
  else if name = "desc" then .ok .descending
  else .error (.invalidArgument .illegalDirection)

/-- The name of a connector in a statement. -/
def Connector.text : Connector → String
  | .and => "AND"
  | .or => "OR"

/-- The variable of a source. -/
def Source.docVar {Q : Type} : Source Q → String
  | collection _ v => v
  | view _ v => v
  | derived _ v => v

section map

variable {P Q : Type} (f : P → Q)

/-- The source with its query replaced. -/
def Source.map : Source P → Source Q
  | .collection name v => .collection name v
  | .view name v => .view name v
  | .derived query v => .derived (f query) v

/-- The part of a projection with its query replaced. -/
def Selector.map : Selector P → Selector Q
  | .column name => .column name
  | .aliased c asName => .aliased c asName
  | .documents t => .documents t
  | .raw aql asName => .raw aql asName
  | .sub query asName => .sub (f query) asName

/-- The test with its query replaced. -/
def Test.map : Test P → Test Q
  | .compare c o v => .compare c o v
  | .between c l h n => .between c l h n
  | .member c v n => .member c v n
  | .memberOf c v n => .memberOf c v n
  | .memberOfQuery c q n => .memberOfQuery c (f q) n
  | .isNull c n => .isNull c n
  | .compareColumns a o b => .compareColumns a o b
  | .compareQuery c o q => .compareQuery c o (f q)
  | .hasRows q n => .hasRows (f q) n
  | .nested q => .nested (f q)
  | .raw aql => .raw aql
  | .contains c v a n => .contains c v a n
  | .length c o v => .length c o v
  | .date p c o v => .date p c o v
  | .bits c o v => .bits c o v

/-- The condition with its query replaced. -/
def Condition.map (c : Condition P) : Condition Q := ⟨c.test.map f, c.connector⟩

/-- The join with its query replaced. -/
def Join.map (j : Join P) : Join Q := ⟨j.kind, f j.query⟩

/-- The branch with its query replaced. -/
def UnionBranch.map (u : UnionBranch P) : UnionBranch Q := ⟨f u.query, u.all⟩

/-- The definition with its query replaced. -/
def Definition.map : Definition P → Definition Q
  | .bound b => .bound b
  | .query q => .query (f q)

/-- The variable with its query replaced. -/
def LetVariable.map (v : LetVariable P) : LetVariable Q := ⟨v.name, v.value.map f⟩

end map

section queries

variable {Q : Type}

/-- The query in a source. -/
def Source.queries : Source Q → List Q
  | .derived query _ => [query]
  | _ => []

/-- The query in a part of a projection. -/
def Selector.queries : Selector Q → List Q
  | .sub query _ => [query]
  | _ => []

/-- The query in a test. -/
def Test.queries : Test Q → List Q
  | .memberOfQuery _ q _ => [q]
  | .compareQuery _ _ q => [q]
  | .hasRows q _ => [q]
  | .nested q => [q]
  | _ => []

/-- The query in a definition. -/
def Definition.queries : Definition Q → List Q
  | .query q => [q]
  | .bound _ => []

variable {P : Type} (f : P → Q)

theorem Source.queries_map (s : Source P) : (s.map f).queries = s.queries.map f := by
  cases s <;> rfl

theorem Selector.queries_map (s : Selector P) : (s.map f).queries = s.queries.map f := by
  cases s <;> rfl

theorem Test.queries_map (t : Test P) : (t.map f).queries = t.queries.map f := by
  cases t <;> rfl

theorem Definition.queries_map (d : Definition P) : (d.map f).queries = d.queries.map f := by
  cases d <;> rfl

end queries

/-!
## Reading parts of a projection

A part of a projection is written as a column, as `column as alias`, as `*` or as `table.*`. The
same `name as alias` is understood where a collection is named.
-/

/-- A name and its alias, if the text has the form `name as alias`. -/
def nameAndAlias? (text : String) : Option (String × String) :=
  (Text.cutAs (Text.trimBlanks text.toList)).map fun (name, asName) =>
    (String.ofList (Text.trimBlanks name), String.ofList (Text.trimBlanks asName))

/-- The name of a collection and the variable it is given, if any. -/
def tableAndAlias (text : String) : String × Option String :=
  match nameAndAlias? text with
  | some (name, asName) => (name, some asName)
  | none => (Text.trim text, none)

namespace Selector

variable {Q : Type}

/-- Read a part of a projection. -/
def parse (text : String) : Selector Q :=
  match nameAndAlias? text with
  | some (name, asName) => aliased name asName
  | none =>
    let name := Text.trimBlanks text.toList
    if name = ['*'] then documents ""
    else match Text.dropFinish? ['.', '*'] name with
      | some table => documents (String.ofList table)
      | none => column (String.ofList name)

/-- The same part of a projection under an alias; whole documents have none. -/
def withAlias (asName : String) : Selector Q → Selector Q
  | column name => aliased name asName
  | aliased name _ => aliased name asName
  | raw aql _ => raw aql (some asName)
  | sub query _ => sub query asName
  | documents table => documents table

/-- The column of a part of a projection. -/
def column? : Selector Q → Option String
  | column name => some name
  | aliased name _ => some name
  | _ => none

end Selector

end AqlBuilder

import AqlBuilder.Builder.Basic

/-!
# Projections, groups, order and paging

What a query returns, the query variables it defines in front of its loop, and the keys it groups
by. A column that is selected under an alias may be referred to by that alias, and a query variable
or selected sub-query by its name.
-/

namespace AqlBuilder.Builder

variable [Naming]

/-- Select one more part. -/
def selectOne (b : Builder) (selector : Selector Query) : Builder :=
  match selector with
  | .aliased column asName => { b with
      aliases := b.aliases.registerColumn column asName
      columns := b.columns ++ [selector] }
  | _ => { b with columns := b.columns ++ [selector] }

/-- Select further parts. -/
def addSelect (b : Builder) (selectors : List (Selector Query)) : Builder :=
  selectors.foldl selectOne b

/-- Select the given parts instead of what was selected. -/
def select (b : Builder) (selectors : List (Selector Query)) : Builder :=
  let b : Builder := { b with columns := [], bindings := b.bindings.set [] .select }
  b.addSelect selectors

/-- Select an expression, as an attribute if an alias is given. -/
def selectRaw (b : Builder) (aql : String) (asName : Option String) : Builder :=
  { b with columns := b.columns ++ [.raw aql asName] }

/-- Select the rows of a sub-query as an attribute. -/
def selectQuery (b : Builder) (sub : SubQuery) (asName : String) : Supply Builder :=
  b.unlessFailedM fun b => do
    let (query, b) ← b.adopt sub .select
    pure { b with
      aliases := b.aliases.registerVariable asName asName
      columns := b.columns ++ [.sub (.of { query with singleValue := true }) asName] }

/-- Return each row once. -/
def distinctRows (b : Builder) : Builder := { b with distinct := true }

/-- Define a query variable. -/
def define (b : Builder) (name : String) (value : Definition Query) : Builder :=
  { b with
    aliases := b.aliases.registerVariable name name
    definitions := b.definitions ++ [⟨name, value⟩] }

/-- Define a query variable by an operand. -/
def set (b : Builder) (name : String) (operand : Operand Builder) : Supply Builder :=
  b.unlessFailedM fun b => do
    let (value, b) ← b.bind operand .definitions
    pure (b.define name (.bound value))

/-- Define a query variable by a sub-query. -/
def setQuery (b : Builder) (name : String) (sub : SubQuery) : Supply Builder :=
  b.unlessFailedM fun b => do
    let (query, b) ← b.adopt sub .definitions
    pure (b.define name (.query (.of { query with singleValue := true })))

/-- The group key of a part of a projection; whole documents and sub-queries are none. -/
def groupKey? : Selector Query → Option GroupKey
  | .column name => some (.column name)
  | .aliased name _ => some (.column name)
  | .raw aql _ => some (.raw aql)
  | _ => none

/-- Group by columns. -/
def groupBy (b : Builder) (selectors : List (Selector Query)) : Builder :=
  { b with groups := b.groups ++ selectors.filterMap groupKey? }

/-- Group by an expression, written as an assignment. -/
def groupByRaw (b : Builder) (aql : String) : Builder := { b with groups := b.groups ++ [.raw aql] }

/-!
## Order and paging

Before the first union an order or a limit belongs to the query itself; after it, to the combined
rows of the union.
-/

/-- Add a criterion to the order. -/
def pushOrder (b : Builder) (order : Order) : Builder :=
  if b.unions.isEmpty then { b with orders := b.orders ++ [order] }
  else { b with unionOrders := b.unionOrders ++ [order] }

/-- Order by a column. -/
def orderBy (b : Builder) (column : String) (direction : Except Error Direction) : Builder :=
  b.unlessFailed fun b =>
    match direction with
    | .ok direction => b.pushOrder (.column column direction)
    | .error e => b.fail e

/-- The column that tells new documents from old ones. -/
def creationColumn : String := "created_at"

/-- The newest documents first. -/
def latest (b : Builder) (column : Option String) : Builder :=
  b.orderBy (column.getD creationColumn) (.ok .descending)

/-- The oldest documents first. -/
def oldest (b : Builder) (column : Option String) : Builder :=
  b.orderBy (column.getD creationColumn) (.ok .ascending)

/-- Forget all orders. -/
def reorder (b : Builder) : Builder := { b with orders := [], unionOrders := [] }

/-- Return at most so many rows. -/
def limitTo (b : Builder) (count : Nat) : Builder :=
  if b.unions.isEmpty then { b with limit := some count } else { b with unionLimit := some count }

/-- Leave out so many rows. -/
def skip (b : Builder) (count : Nat) : Builder :=
  if b.unions.isEmpty then { b with offset := some count }
  else { b with unionOffset := some count }

/-- Return one page of rows; the first page has the number one. The program counts rows in 64 bits,
so this is what it does as long as the rows in front of the page are fewer than `2 ^ 64`. -/
def forPage (b : Builder) (page perPage : Nat) : Builder :=
  (b.skip ((page - 1) * perPage)).limitTo perPage

end AqlBuilder.Builder

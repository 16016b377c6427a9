import AqlBuilder.Connection.Character
import AqlBuilder.Connection.Transaction
import AqlBuilder.Script.Basic

/-!
# Running a query

A query is compiled and then sent through a connection; what cannot be compiled is never sent. A
terminal says which statement is compiled from a builder and which part of its result is wanted.

- `Session.compiled` is the step from a statement to a connection.
- `Builder.perform` carries out a terminal.
-/

namespace AqlBuilder

variable [Naming]

/-- A computation on a connection that may take query numbers. -/
abbrev Session (α : Type) := Connection → Supply (Answered α)

/-- What an operation yields. -/
inductive Answer
  | nothing
  | truth (value : Bool)
  | number (value : Nat)
  | json (value : Json)
  /-- One row, if there is one. -/
  | row (row : Option Json)
  | rows (rows : List Json)
  | characters (characters : List Character)
  | events (events : List Event)
  | statement (statement : Compiled)
  | several (answers : List Answer)

/-- What is wanted of a query, with operands whose queries have the type `Q`. -/
inductive Terminal (Q : Type)
  | get
  | characters
  | first
  | find (key : Value)
  | value (column : String)
  | existence
  | count
  | aggregate (function : AggregateFunction) (column : String)
  | explain
  | insert (rows : List Row)
  | insertKey (row : Row)
  | update (changes : Changes Q)
  | adjust (adjustment : Builder.Adjustment) (column : String) (amount : Value)
  | upsert (rows : List Row) (uniqueBy : List String) (update : Option (List String))
  | delete (key : Option Value)
  | truncate

/-- Compile a statement and use it on the connection. -/
def Session.compiled {α : Type} (statement : Outcome Compiled)
    (use : Connection → Compiled → Answered α) : Session α := fun c => do
  match ← statement.run with
  | .ok compiled => pure (use c compiled)
  | .error e => pure (.error e, c)

/-- The value of an aggregate in its row. -/
def aggregateOf (row : Option Json) : Json := (row.bind (Json.member? "aggregate")).getD .null

/-- A count, zero for anything that is not a natural number. -/
def countOf : Json → Nat
  | .int n => n.toNat
  | _ => 0

/-- Whether a row is the truth value `true`. -/
def truthOf : Option Json → Bool
  | some (.bool b) => b
  | _ => false

namespace Builder

/-- The first row of a query. -/
def firstRow (b : Builder) : Supply Builder := do pure ((← b.copyOf).limitTo 1)

/-- The first row of a query with a key. -/
def rowWithKey (b : Builder) (key : Value) : Supply Builder := do
  let query ← b.copyOf
  let query ← query.condition .filters .and idAttribute (.ok .equal) (.value key)
  pure (query.limitTo 1)

/-- One column of the first row of a query. -/
def columnOfFirst (b : Builder) (column : String) : Supply Builder := do
  pure (((← b.copyOf).select [Selector.parse column]).limitTo 1)

/-- Carry out a terminal. -/
def perform (b : Builder) : Terminal Builder → Session Answer
  | .get => .compiled b.toCompiled fun c s => (c.select s).map .rows
  | .characters => .compiled b.toCompiled fun c s =>
      (c.selectAs Character.ofRow? s).map .characters
  | .first => fun c => do
      let query ← b.firstRow
      Session.compiled query.toCompiled (fun c s => (c.selectOne s).map .row) c
  | .find key => fun c => do
      let query ← b.rowWithKey key
      Session.compiled query.toCompiled (fun c s => (c.selectOne s).map .row) c
  | .value column => fun c => do
      let query ← b.columnOfFirst column
      let wanted := Json.member? (Column.attributeName column)
      Session.compiled query.toCompiled
        (fun c s => (c.selectOne s).map fun row => .row (row.bind wanted)) c
  | .existence => .compiled b.existsStatement fun c s =>
      (c.selectOne s).map fun row => .truth (truthOf row)
  | .count => .compiled (b.aggregateStatement .count none) fun c s =>
      (c.selectOne s).map fun row => .number (countOf (aggregateOf row))
  | .aggregate function column => .compiled (b.aggregateStatement function (some column))
      fun c s => (c.selectOne s).map fun row => .json (aggregateOf row)
  | .explain => .compiled b.toCompiled fun c s => (c.explain s).map .json
  | .insert rows => .compiled (b.insertStatement rows false) fun c s =>
      (c.statement s).map .truth
  | .insertKey row => .compiled (b.insertStatement [row] false) fun c s =>
      (c.returning s).map fun rows => .row rows.head?
  | .update changes => .compiled (b.updateStatement changes) fun c s =>
      (c.affecting s).map .number
  | .adjust adjustment column amount => .compiled (b.adjustStatement adjustment column amount)
      fun c s => (c.affecting s).map .number
  | .upsert rows uniqueBy update => .compiled (b.upsertStatement rows uniqueBy update)
      fun c s => (c.affecting s).map .number
  | .delete key => .compiled (b.deleteStatement key) fun c s => (c.affecting s).map .number
  | .truncate => .compiled b.truncateStatement fun c s => (c.statement s).map .truth

end Builder

/-- The terminal with the queries of its operands built. -/
def Terminal.run (b : Builder) : Terminal (Subject Script) → Supply (Terminal Builder)
  | .get => pure .get
  | .characters => pure .characters
  | .first => pure .first
  | .find key => pure (.find key)
  | .value column => pure (.value column)
  | .existence => pure .existence
  | .count => pure .count
  | .aggregate function column => pure (.aggregate function column)
  | .explain => pure .explain
  | .insert rows => pure (.insert rows)
  | .insertKey r => pure (.insertKey r)
  | .update changes => do pure (.update (← changes.run b))
  | .adjust adjustment column amount => pure (.adjust adjustment column amount)
  | .upsert rows uniqueBy updated => pure (.upsert rows uniqueBy updated)
  | .delete key => pure (.delete key)
  | .truncate => pure .truncate

end AqlBuilder

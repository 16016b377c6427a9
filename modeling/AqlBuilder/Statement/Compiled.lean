import AqlBuilder.Builder.Condition
import AqlBuilder.Builder.Projection
import AqlBuilder.Builder.Source

/-!
# Reading statements

A compiled statement is a text with the bound values that it mentions. The builder that is compiled
does not change: a copy of it is compiled, and only the query numbers that the copies take are gone
afterwards.

- `Builder.toCompiled` compiles the query itself.
- `Builder.existsStatement` asks whether there is a row.
- `Builder.aggregateStatement` computes one value of all rows.
-/

namespace AqlBuilder

/-- A statement with its bound values. -/
structure Compiled where
  aql : String
  bindings : Bindings

/-- A statement with those values of a store that it mentions. -/
def Compiled.ofStore (aql : String) (store : Store) : Compiled :=
  ⟨aql, store.flatten.filter fun entry => mentions aql entry.1⟩

/-- The bindings of a statement are those values of the store that its text mentions. -/
theorem Compiled.keys_ofStore (aql : String) (store : Store) :
    (Compiled.ofStore aql store).bindings.keys = store.flatten.keys.filter (mentions aql) := by
  unfold Compiled.ofStore Entries.keys
  rw [List.filter_map]
  rfl

namespace Builder

/-- Compile a copy of a builder. -/
def onCopy {α : Type} (b : Builder) (compile : Builder → Outcome α) : Outcome α := do
  let copy ← Outcome.ofSupply b.workingCopy
  compile copy

/-- The statement of a query with its bound values. -/
def toCompiled (b : Builder) : Outcome Compiled := do
  Outcome.ofExcept b.check
  b.onCopy fun copy => do
    let aql ← copy.statement
    pure (.ofStore aql copy.bindings)

/-- The text of the statement of a query. -/
def toAql (b : Builder) : Outcome String := do
  let compiled ← b.toCompiled
  pure compiled.aql

/-- All bound values of a query, mentioned or not. -/
def allBindings (b : Builder) : Except Error Bindings := do
  b.check
  pure b.bindings.flatten

/-- The query that returns at most one row, whatever it is. -/
def probe (b : Builder) : Builder :=
  if b.unions.isEmpty then
    { b with limit := some 1, offset := none, columns := [.raw "1" none], distinct := false }
  else { b with unionLimit := some 1, unionOffset := none }

/-- The statement that says whether there is a row. -/
def existsStatement (b : Builder) : Outcome Compiled := do
  Outcome.ofExcept b.check
  b.onCopy fun copy => do
    let aql ← copy.probe.statement
    pure (.ofStore ("RETURN LENGTH((" ++ aql ++ ")) > 0") copy.bindings)

/-- The query that returns one aggregate. A star stands for the rows themselves. -/
def aggregated (b : Builder) (function : AggregateFunction) (column : Option String) : Builder :=
  { b with
    aggregate := some ⟨function, column.filter fun name => name != "*"⟩
    columns := []
    distinct := false }

/-- The statement that computes an aggregate. All functions except the count need a column. -/
def aggregateStatement (b : Builder) (function : AggregateFunction) (column : Option String) :
    Outcome Compiled := do
  Outcome.ofExcept b.check
  if column.isNone && function != .count then
    .fail (.invalidArgument (.aggregateWithoutColumn function.text))
  else b.onCopy fun copy => do
    let aql ← (copy.aggregated function column).statement
    pure (.ofStore aql copy.bindings)

end Builder

end AqlBuilder

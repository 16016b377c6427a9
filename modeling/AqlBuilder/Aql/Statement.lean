import AqlBuilder.Aql.Projection
import AqlBuilder.Query.Count

/-!
# Statements

A statement is put together in a fixed order: query variables, the main loop, joins, the filter,
groups, the filter on groups, order, limit, selected sub-queries and the projection. A union
combines the rows of several statements in an array and iterates over it once more, so that the
combined rows can be ordered and limited.

- `Query.fragment` compiles a query and everything inside it, each query on a copy of its own.
- `Builder.statement` compiles the query that a builder holds.
-/

namespace AqlBuilder

namespace Aql

/-- The variable of the loop over the rows of a union. -/
def unionVariable : String := "unionResultDoc"

/-- The statement of a query without regard to its unions. -/
def simpleStatement (c : Clauses Fragment) : Outcome String := do
  let loops ← loops c
  let collected ← collect c
  let keys := (collected.map Collected.keys).getD []
  let scope : Scope := ⟨(collected.map Collected.aliases).getD c.aliases, c.docVar⟩
  let havings ← filter scope c.havings
  let queries ← selectedQueries c.columns
  pure (" ".intercalate (loops ++ (collected.map Collected.clause).toList ++ havings
    ++ sortIn scope c.orders ++ limitText c.limit c.offset ++ queries
    ++ [returnText c scope keys]))

/-- The rows of a query combined with those of further ones. -/
def combined : String → List (UnionBranch Fragment) → Outcome String
  | rows, [] => pure rows
  | rows, branch :: rest => do
    let others ← branch.query.embedded
    let function := if branch.all then "UNION" else "UNION_DISTINCT"
    combined (function ++ "(" ++ rows ++ ", " ++ others ++ ")") rest

/-- The statement of a query with unions. Its rows are whole documents unless something else was
selected, and documents have their key under the server's name. -/
def unionStatement (c : Clauses Fragment) : Outcome String := do
  let documents := c.columns.isEmpty && c.groups.isEmpty && c.aggregate.isNone
  let first ← simpleStatement c
  let rows ← combined ("(" ++ first ++ ")") c.unions
  let resolve := if documents then Column.onDocument unionVariable else Column.onRow unionVariable
  pure (" ".intercalate ([loop unionVariable rows]
    ++ sortText resolve unionVariable c.unionOrders
    ++ limitText c.unionLimit c.unionOffset ++ ["RETURN " ++ unionVariable]))

/-- The statement of a query. -/
def statement (c : Clauses Fragment) : Outcome String :=
  if c.unions.isEmpty then simpleStatement c else unionStatement c

/-- What a query with a statement contributes to the query around it. -/
def fragment (c : Clauses Fragment) (statement : Outcome String) : Fragment where
  statement := statement
  conditions := conditions c.scope c.filters
  source := c.source.map (sourceText c.tablePrefix)
  singleRow := c.limit == some 1
  error := c.error

end Aql

namespace Query

/-- What a query contributes, where `depth` bounds how deep queries lie in one another. The
statement is compiled on a copy, and so are the statements of the queries in the copy; conditions
and sources are compiled in place. -/
def fragmentWithin : Nat → Query → Fragment
  | 0, _ => ⟨.fail (.compilation .noSource), .fail (.compilation .noSource), none, false, none⟩
  | depth + 1, .of c =>
    Aql.fragment (c.map (fragmentWithin depth)) do
      let copy ← Outcome.ofSupply (Builder.workingCopy c)
      Aql.statement (copy.map (fragmentWithin depth))

/-- A compiled query. No query lies deeper than there are queries. -/
def fragment (q : Query) : Fragment := q.fragmentWithin q.count

end Query

namespace Builder

/-- A builder with its sub-queries compiled. -/
def compiled (b : Builder) : Clauses Fragment := Clauses.map Query.fragment b

/-- The statement of a builder, which is a copy already. -/
def statement (b : Builder) : Outcome String := Aql.statement b.compiled

/-- The statement of a builder as an expression. -/
def embedded (b : Builder) : Outcome String := (Query.of b).fragment.embedded

end Builder

end AqlBuilder

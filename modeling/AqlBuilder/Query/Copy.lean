import AqlBuilder.Query.Basic

/-!
# Query numbers and copies

Every query has a number that no other query has; the names of bound values are made from it. The
numbers come from one counter. A copy of a query is a new query: its sub-queries are copied first,
in the order of `Clauses.queries`, then it takes a number itself. The copy keeps the bound values
under their old names and counts new names from the beginning.
-/

namespace AqlBuilder

/-- Computations that take query numbers from a counter. -/
abbrev Supply := StateM Nat

namespace Supply

/-- The next query number. -/
def fresh : Supply Nat := fun next => (next, next + 1)

/-- Run a computation for each item in order. -/
def each {α β : Type} (f : α → Supply β) : List α → Supply (List β)
  | [] => pure []
  | item :: items => do
    let first ← f item
    let rest ← each f items
    pure (first :: rest)

end Supply

section sequence

variable {Q : Type}

/-- Run the computation in a source. -/
def Source.run : Source (Supply Q) → Supply (Source Q)
  | .collection name v => pure (.collection name v)
  | .view name v => pure (.view name v)
  | .derived query v => do pure (.derived (← query) v)

/-- Run the computation in a part of a projection. -/
def Selector.run : Selector (Supply Q) → Supply (Selector Q)
  | .column name => pure (.column name)
  | .aliased c asName => pure (.aliased c asName)
  | .documents t => pure (.documents t)
  | .raw aql asName => pure (.raw aql asName)
  | .sub query asName => do pure (.sub (← query) asName)

/-- Run the computation in a test. -/
def Test.run : Test (Supply Q) → Supply (Test Q)
  | .compare c o v => pure (.compare c o v)
  | .between c l h n => pure (.between c l h n)
  | .member c v n => pure (.member c v n)
  | .memberOf c v n => pure (.memberOf c v n)
  | .memberOfQuery c q n => do pure (.memberOfQuery c (← q) n)
  | .isNull c n => pure (.isNull c n)
  | .compareColumns a o b => pure (.compareColumns a o b)
  | .compareQuery c o q => do pure (.compareQuery c o (← q))
  | .hasRows q n => do pure (.hasRows (← q) n)
  | .nested q => do pure (.nested (← q))
  | .raw aql => pure (.raw aql)
  | .contains c v a n => pure (.contains c v a n)
  | .length c o v => pure (.length c o v)
  | .date p c o v => pure (.date p c o v)
  | .bits c o v => pure (.bits c o v)

/-- Run the computation in a condition. -/
def Condition.run (c : Condition (Supply Q)) : Supply (Condition Q) := do
  pure ⟨← c.test.run, c.connector⟩

/-- Run the computation in a join. -/
def Join.run (j : Join (Supply Q)) : Supply (Join Q) := do pure ⟨j.kind, ← j.query⟩

/-- Run the computation in a branch of a union. -/
def UnionBranch.run (u : UnionBranch (Supply Q)) : Supply (UnionBranch Q) := do
  pure ⟨← u.query, u.all⟩

/-- Run the computation in a query variable. -/
def LetVariable.run (v : LetVariable (Supply Q)) : Supply (LetVariable Q) :=
  match v.value with
  | .bound b => pure ⟨v.name, .bound b⟩
  | .query q => do pure ⟨v.name, .query (← q)⟩

/-- Run the computation in a source, if there is one. -/
def runSource : Option (Source (Supply Q)) → Supply (Option (Source Q))
  | none => pure none
  | some source => do pure (some (← source.run))

/-- Run the computations in all clauses, in the order of `Clauses.queries`. -/
def Clauses.run (c : Clauses (Supply Q)) : Supply (Clauses Q) := do
  let source ← runSource c.source
  let columns ← Supply.each Selector.run c.columns
  let filters ← Supply.each Condition.run c.filters
  let joins ← Supply.each Join.run c.joins
  let havings ← Supply.each Condition.run c.havings
  let unions ← Supply.each UnionBranch.run c.unions
  let definitions ← Supply.each LetVariable.run c.definitions
  pure ⟨c.tablePrefix, source, columns, c.distinct, filters, joins, c.groups, havings, c.aggregate,
    c.orders, c.limit, c.offset, unions, c.unionOrders, c.unionLimit, c.unionOffset, c.search,
    definitions, c.singleValue, c.bindings, c.aliases, c.error⟩

end sequence

/-- Copy one query whose sub-queries are being copied. -/
def copyLevel (c : Clauses (Supply Query)) : Supply Query := do
  let clauses ← c.run
  let id ← Supply.fresh
  pure (.of { clauses with bindings := clauses.bindings.renumber id })

/-- A copy of a query. -/
def Query.copyOf (q : Query) : Supply Query := q.fold copyLevel

/-- A copy of a builder. -/
def Builder.copyOf (b : Builder) : Supply Builder := do
  pure (← (Query.of b).copyOf).clauses

/-- A copy of a builder for compiling it. The copy has the number of the builder and goes on
counting its names; the queries inside have numbers of their own. -/
def Builder.workingCopy (b : Builder) : Supply Builder := do
  let copy ← b.copyOf
  pure { copy with bindings := b.bindings }

end AqlBuilder

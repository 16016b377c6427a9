import AqlBuilder.Binding.Store
import AqlBuilder.Query.Clause

/-!
# Queries

A query is a collection of clauses together with its bound values, the names it can see and the
first error that was made in building it. Sub-queries are queries themselves.

`Clauses Q` is one query whose sub-queries have the type `Q`; `Query` closes the recursion, and a
builder is a query that is still being written, `Clauses Query`. Every computation over nested
queries is one `Query.fold` over a function that treats a single level.

- `Query.fold_of` is the equation of the fold.
-/

namespace AqlBuilder

/-- A query whose sub-queries have the type `Q`. -/
structure Clauses (Q : Type) where
  /-- Text in front of every collection name. -/
  tablePrefix : String
  source : Option (Source Q)
  columns : List (Selector Q)
  distinct : Bool
  filters : List (Condition Q)
  joins : List (Join Q)
  groups : List GroupKey
  /-- Conditions on groups. -/
  havings : List (Condition Q)
  aggregate : Option Aggregate
  orders : List Order
  limit : Option Nat
  offset : Option Nat
  unions : List (UnionBranch Q)
  /-- Orders of the combined rows of a union. -/
  unionOrders : List Order
  unionLimit : Option Nat
  unionOffset : Option Nat
  search : Option Search
  definitions : List (LetVariable Q)
  /-- Whether a row with one attribute is returned as the value of that attribute. -/
  singleValue : Bool
  bindings : Store
  aliases : Registry
  /-- The first error that was made. -/
  error : Option Error

/-- A query with all its sub-queries. -/
inductive Query
  | of (clauses : Clauses Query)

/-- A query that is being written. -/
abbrev Builder := Clauses Query

/-- The clauses of a query. -/
def Query.clauses : Query → Clauses Query
  | of c => c

namespace Clauses

variable {P Q : Type}

/-- The query with each of its sub-queries replaced. -/
def map (f : P → Q) (c : Clauses P) : Clauses Q where
  tablePrefix := c.tablePrefix
  source := c.source.map (Source.map f)
  columns := c.columns.map (Selector.map f)
  distinct := c.distinct
  filters := c.filters.map (Condition.map f)
  joins := c.joins.map (Join.map f)
  groups := c.groups
  havings := c.havings.map (Condition.map f)
  aggregate := c.aggregate
  orders := c.orders
  limit := c.limit
  offset := c.offset
  unions := c.unions.map (UnionBranch.map f)
  unionOrders := c.unionOrders
  unionLimit := c.unionLimit
  unionOffset := c.unionOffset
  search := c.search
  definitions := c.definitions.map (LetVariable.map f)
  singleValue := c.singleValue
  bindings := c.bindings
  aliases := c.aliases
  error := c.error

/-- The sub-queries in the order in which a copy visits them. -/
def queries (c : Clauses Q) : List Q :=
  (c.source.map Source.queries).getD [] ++ c.columns.flatMap Selector.queries
    ++ c.filters.flatMap (fun f => f.test.queries) ++ c.joins.map Join.query
    ++ c.havings.flatMap (fun h => h.test.queries) ++ c.unions.map UnionBranch.query
    ++ c.definitions.flatMap (fun v => v.value.queries)

/-- Replacing the sub-queries of a query replaces each of them in its place. -/
theorem queries_map (f : P → Q) (c : Clauses P) : (c.map f).queries = c.queries.map f := by
  have source : (c.source.map fun s => (s.map f).queries).getD [] =
      ((c.source.map Source.queries).getD []).map f := by
    cases c.source <;> simp [Source.queries_map]
  simp [queries, map, source, List.map_flatMap, List.flatMap_map, Function.comp_def,
    Selector.queries_map, Condition.map, Test.queries_map, Join.map, UnionBranch.map,
    LetVariable.map, Definition.queries_map]

/-- The number of the query. -/
def id (c : Clauses Q) : Nat := c.bindings.id

/-- The variable of the main loop. -/
def docVar (c : Clauses Q) : Option String := c.source.map Source.docVar

/-- What the columns of the query are resolved against. -/
def scope (c : Clauses Q) : Scope := ⟨c.aliases, c.docVar⟩

/-- A query without clauses. -/
def empty (id : Nat) : Clauses Q where
  tablePrefix := ""
  source := none
  columns := []
  distinct := false
  filters := []
  joins := []
  groups := []
  havings := []
  aggregate := none
  orders := []
  limit := none
  offset := none
  unions := []
  unionOrders := []
  unionLimit := none
  unionOffset := none
  search := none
  definitions := []
  singleValue := false
  bindings := .empty id
  aliases := .empty
  error := none

end Clauses

namespace Query

variable {R : Type} (level : Clauses R → R)

mutual
/-- Replace each query from the inside out by what `level` makes of its clauses. -/
def fold : Query → R
  | .of c => level (foldClauses c)

/-- The clauses with their queries folded. -/
def foldClauses : Clauses Query → Clauses R
  | ⟨p, source, columns, d, filters, joins, g, havings, ag, o, l, off, unions, uo, ul, uoff, s,
      definitions, sv, b, a, e⟩ =>
    ⟨p, foldSource source, foldSelectors columns, d, foldConditions filters, foldJoins joins, g,
      foldConditions havings, ag, o, l, off, foldBranches unions, uo, ul, uoff, s,
      foldVariables definitions, sv, b, a, e⟩

/-- The source with its query folded. -/
def foldSource : Option (Source Query) → Option (Source R)
  | none => none
  | some (.collection name v) => some (.collection name v)
  | some (.view name v) => some (.view name v)
  | some (.derived q v) => some (.derived (fold q) v)

/-- The projection with its queries folded. -/
def foldSelectors : List (Selector Query) → List (Selector R)
  | [] => []
  | .column n :: rest => .column n :: foldSelectors rest
  | .aliased c n :: rest => .aliased c n :: foldSelectors rest
  | .documents t :: rest => .documents t :: foldSelectors rest
  | .raw aql n :: rest => .raw aql n :: foldSelectors rest
  | .sub q n :: rest => .sub (fold q) n :: foldSelectors rest

/-- The conditions with their queries folded. -/
def foldConditions : List (Condition Query) → List (Condition R)
  | [] => []
  | ⟨test, connector⟩ :: rest => ⟨foldTest test, connector⟩ :: foldConditions rest

/-- The test with its query folded. -/
def foldTest : Test Query → Test R
  | .compare c o v => .compare c o v
  | .between c l h n => .between c l h n
  | .member c v n => .member c v n
  | .memberOf c v n => .memberOf c v n
  | .memberOfQuery c q n => .memberOfQuery c (fold q) n
  | .isNull c n => .isNull c n
  | .compareColumns a o b => .compareColumns a o b
  | .compareQuery c o q => .compareQuery c o (fold q)
  | .hasRows q n => .hasRows (fold q) n
  | .nested q => .nested (fold q)
  | .raw aql => .raw aql
  | .contains c v a n => .contains c v a n
  | .length c o v => .length c o v
  | .date p c o v => .date p c o v
  | .bits c o v => .bits c o v

/-- The joins with their queries folded. -/
def foldJoins : List (Join Query) → List (Join R)
  | [] => []
  | ⟨kind, q⟩ :: rest => ⟨kind, fold q⟩ :: foldJoins rest

/-- The branches with their queries folded. -/
def foldBranches : List (UnionBranch Query) → List (UnionBranch R)
  | [] => []
  | ⟨q, all⟩ :: rest => ⟨fold q, all⟩ :: foldBranches rest

/-- The variables with their queries folded. -/
def foldVariables : List (LetVariable Query) → List (LetVariable R)
  | [] => []
  | ⟨name, .bound b⟩ :: rest => ⟨name, .bound b⟩ :: foldVariables rest
  | ⟨name, .query q⟩ :: rest => ⟨name, .query (fold q)⟩ :: foldVariables rest
end

theorem foldSource_eq_map (source : Option (Source Query)) :
    foldSource level source = source.map (Source.map (fold level)) := by
  rcases source with _ | _ | _ | _ <;> rfl

/-- Selected columns are folded one by one. -/
theorem foldSelectors_eq_map (columns : List (Selector Query)) :
    foldSelectors level columns = columns.map (Selector.map (fold level)) := by
  induction columns with
  | nil => rfl
  | cons head tail ih => cases head <;> simp [foldSelectors, Selector.map, ih]

theorem foldTest_eq_map (test : Test Query) : foldTest level test = test.map (fold level) := by
  cases test <;> rfl

/-- Conditions are folded one by one. -/
theorem foldConditions_eq_map (conditions : List (Condition Query)) :
    foldConditions level conditions = conditions.map (Condition.map (fold level)) := by
  induction conditions with
  | nil => rfl
  | cons head tail ih => simp [foldConditions, Condition.map, foldTest_eq_map, ih]

/-- Joins are folded one by one. -/
theorem foldJoins_eq_map (joins : List (Join Query)) :
    foldJoins level joins = joins.map (Join.map (fold level)) := by
  induction joins with
  | nil => rfl
  | cons head tail ih => simp [foldJoins, Join.map, ih]

/-- The branches of a union are folded one by one. -/
theorem foldBranches_eq_map (unions : List (UnionBranch Query)) :
    foldBranches level unions = unions.map (UnionBranch.map (fold level)) := by
  induction unions with
  | nil => rfl
  | cons head tail ih => simp [foldBranches, UnionBranch.map, ih]

/-- Query variables are folded one by one. -/
theorem foldVariables_eq_map (definitions : List (LetVariable Query)) :
    foldVariables level definitions = definitions.map (LetVariable.map (fold level)) := by
  induction definitions with
  | nil => rfl
  | cons head tail ih =>
    obtain ⟨name, value⟩ := head
    cases value <;> simp [foldVariables, LetVariable.map, Definition.map, ih]

/-- A query is folded by folding its sub-queries first. -/
theorem fold_of (c : Clauses Query) : fold level (.of c) = level (c.map (fold level)) := by
  cases c
  simp [fold, foldClauses, Clauses.map, foldSource_eq_map, foldSelectors_eq_map,
    foldConditions_eq_map, foldJoins_eq_map, foldBranches_eq_map, foldVariables_eq_map]

end Query

end AqlBuilder

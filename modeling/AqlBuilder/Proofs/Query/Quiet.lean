import AqlBuilder.Proofs.Column.Words
import AqlBuilder.Proofs.Query.Map

/-!
# Queries whose names are no keywords

Tables, columns and the names of attributes may be called anything that has no blanks; the names of
variables, which stand for themselves in a statement, must not be keywords either. Text of the
caller must not have a word that starts a modification.

- `Clauses.Quiet` is the condition on one query, whatever its sub-queries are.
- `Query.Quiet` is the condition on a query and all queries inside it.
-/

namespace AqlBuilder

open Text

variable {P Q : Type}

/-- An operand without keywords. -/
def Bound.Quiet : Bound → Prop
  | .placeholder name => Solid name.toList
  | .raw aql => Avoids .changes aql
  | .column c => Column.Unbroken c

/-- A source without keywords. -/
def Source.Quiet : Source Q → Prop
  | .collection name v => Solid name.toList ∧ Neutral v
  | .view name v => Solid name.toList ∧ Neutral v
  | .derived _ v => Neutral v

/-- A part of a projection without keywords. -/
def Selector.Quiet : Selector Q → Prop
  | .column c => Column.Unbroken c
  | .aliased c asName => Column.Unbroken c ∧ Solid asName.toList
  | .documents table => Avoids .all table
  | .raw aql asName => Avoids .changes aql ∧ ∀ name ∈ asName, Solid name.toList
  | .sub _ asName => Neutral asName

/-- A test without keywords. -/
def Test.Quiet : Test Q → Prop
  | .compare c o v => Column.Unbroken c ∧ Avoids .changes o.text ∧ v.Quiet
  | .between c low high _ => Column.Unbroken c ∧ low.Quiet ∧ high.Quiet
  | .member c v _ => Column.Unbroken c ∧ v.Quiet
  | .memberOf c _ _ => Column.Unbroken c
  | .memberOfQuery c _ _ => Column.Unbroken c
  | .isNull c _ => Column.Unbroken c
  | .compareColumns a o b => Column.Unbroken a ∧ Avoids .changes o.text ∧ Column.Unbroken b
  | .compareQuery c o _ => Column.Unbroken c ∧ Avoids .changes o.text
  | .hasRows _ _ => True
  | .nested _ => True
  | .raw aql => Avoids .changes aql
  | .contains c v _ _ => Column.Unbroken c ∧ v.Quiet
  | .length c o v => Column.Unbroken c ∧ Avoids .changes o.text ∧ v.Quiet
  | .date _ c o v => Column.Unbroken c ∧ Avoids .changes o.text ∧ v.Quiet
  | .bits c _ v => Column.Unbroken c ∧ v.Quiet

/-- A definition without keywords. -/
def Definition.Quiet : Definition Q → Prop
  | .bound v => v.Quiet
  | .query _ => True

/-- A key of a grouping without keywords. The variable of the key stands for itself. -/
def GroupKey.Quiet : GroupKey → Prop
  | .column c => Column.Unbroken c ∧ Avoids .all (Column.attributeName c)
  | .raw aql => ∀ name expression, cutAt '=' aql.toList = some (name, expression) →
      Neutral (String.ofList (trimBlanks name)) ∧
        Avoids .changes (String.ofList (trimBlanks expression))

/-- A criterion of an order without keywords. -/
def Order.Quiet : Order → Prop
  | .column c _ => Column.Unbroken c
  | .raw aql => Avoids .changes aql
  | .random => True
  | .bestMatching => True

/-- A search without keywords. -/
structure Search.Quiet (s : Search) : Prop where
  fields : ∀ field ∈ s.fields, Column.Unbroken field
  text : s.text.Quiet
  analyzer : s.analyzer.Quiet

/-- A query without keywords in its own clauses. -/
structure Clauses.Quiet (c : Clauses Q) : Prop where
  tablePrefix : Solid c.tablePrefix.toList
  source : ∀ s ∈ c.source, s.Quiet
  columns : ∀ s ∈ c.columns, s.Quiet
  filters : ∀ x ∈ c.filters, x.test.Quiet
  groups : ∀ g ∈ c.groups, g.Quiet
  havings : ∀ x ∈ c.havings, x.test.Quiet
  aggregate : ∀ a ∈ c.aggregate, ∀ column ∈ a.column, Column.Unbroken column
  orders : ∀ o ∈ c.orders, o.Quiet
  unionOrders : ∀ o ∈ c.unionOrders, o.Quiet
  search : ∀ s ∈ c.search, s.Quiet
  definitions : ∀ v ∈ c.definitions, Avoids .all v.name ∧ v.value.Quiet
  aliases : c.aliases.Quiet

/-- A query without keywords, and all queries inside it. -/
inductive Query.Quiet : Query → Prop
  | of {c : Clauses Query} (clauses : c.Quiet) (queries : ∀ q ∈ c.queries, Query.Quiet q) :
      Query.Quiet (.of c)

section replacement

variable (f : P → Q)

theorem Source.quiet_map {s : Source P} (h : s.Quiet) : (s.map f).Quiet := by
  cases s <;> exact h

theorem Selector.quiet_map {s : Selector P} (h : s.Quiet) : (s.map f).Quiet := by
  cases s <;> exact h

theorem Test.quiet_map {t : Test P} (h : t.Quiet) : (t.map f).Quiet := by
  cases t <;> exact h

theorem Definition.quiet_map {d : Definition P} (h : d.Quiet) : (d.map f).Quiet := by
  cases d <;> exact h

/-- The condition on one query does not look at its sub-queries. -/
theorem Clauses.quiet_map {c : Clauses P} (h : c.Quiet) : (c.map f).Quiet where
  tablePrefix := h.tablePrefix
  source s hs := by
    obtain ⟨source, hsource, rfl⟩ := Option.map_eq_some_iff.mp hs
    exact source.quiet_map f (h.source source hsource)
  columns s hs := by
    obtain ⟨selector, hselector, rfl⟩ := List.mem_map.mp hs
    exact selector.quiet_map f (h.columns selector hselector)
  filters x hx := by
    obtain ⟨condition, hcondition, rfl⟩ := List.mem_map.mp hx
    exact condition.test.quiet_map f (h.filters condition hcondition)
  groups := h.groups
  havings x hx := by
    obtain ⟨condition, hcondition, rfl⟩ := List.mem_map.mp hx
    exact condition.test.quiet_map f (h.havings condition hcondition)
  aggregate := h.aggregate
  orders := h.orders
  unionOrders := h.unionOrders
  search := h.search
  definitions v hv := by
    obtain ⟨letVariable, hvariable, rfl⟩ := List.mem_map.mp hv
    obtain ⟨hname, hvalue⟩ := h.definitions letVariable hvariable
    exact ⟨hname, letVariable.value.quiet_map f hvalue⟩
  aliases := h.aliases

end replacement

/-- What the columns of a quiet query are resolved against. -/
theorem Clauses.Quiet.scope {c : Clauses Q} (h : c.Quiet) {aliases : Registry}
    (haliases : aliases.Quiet) : (Scope.mk aliases c.docVar).Quiet := by
  refine ⟨haliases, fun v hv => ?_⟩
  obtain ⟨s, hs, rfl⟩ := Option.map_eq_some_iff.mp hv
  have hsource := h.source s hs
  cases s with
  | collection name v => exact hsource.2
  | view name v => exact hsource.2
  | derived q v => exact hsource

end AqlBuilder

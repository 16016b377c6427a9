import AqlBuilder.Proofs.Column.Marks
import AqlBuilder.Query.Basic

/-!
# Clauses that refer to given names

Where the names in the clauses of a query come from: names of bound values stand in operands, either
as placeholders or inside the text of a sub-query that was compiled when it was bound, and all other
texts have no marks. What a sub-query refers to is left open, as a property of the sub-query that
depends on the names that are given.

The parts of the projection may refer to more names than the rest, for they can be dropped together
with the values that are filed under them.

- `Clauses.Within` is the condition on all clauses of a query.
- `Clauses.Within.mono`: more names may be given.
- `Clauses.within_map` moves a replacement of sub-queries into the property of sub-queries.
-/

namespace AqlBuilder

variable {P Q : Type}

/-- An operand that refers to no names but the given ones. -/
def Bound.Within (names : Set String) : Bound → Prop
  | .placeholder name => IsName name ∧ name ∈ names
  | .raw aql => Covered names aql
  | .column c => Unmarked c

/-- A source without marks whose query has a property. -/
def Source.Within (p : Q → Prop) : Source Q → Prop
  | .collection name v => Unmarked name ∧ Unmarked v
  | .view name v => Unmarked name ∧ Unmarked v
  | .derived q v => p q ∧ Unmarked v

/-- A part of a projection without marks whose query has a property. -/
def Selector.Within (p : Q → Prop) : Selector Q → Prop
  | .column c => Unmarked c
  | .aliased c asName => Unmarked c ∧ Unmarked asName
  | .documents table => Unmarked table
  | .raw aql asName => Unmarked aql ∧ ∀ name ∈ asName, Unmarked name
  | .sub q asName => p q ∧ Unmarked asName

/-- A test whose operands refer to given names and whose query has a property. -/
def Test.Within (names : Set String) (p : Q → Prop) : Test Q → Prop
  | .compare c o v => Unmarked c ∧ Unmarked o.text ∧ v.Within names
  | .between c low high _ => Unmarked c ∧ low.Within names ∧ high.Within names
  | .member c v _ => Unmarked c ∧ v.Within names
  | .memberOf c _ _ => Unmarked c
  | .memberOfQuery c q _ => Unmarked c ∧ p q
  | .isNull c _ => Unmarked c
  | .compareColumns a o b => Unmarked a ∧ Unmarked o.text ∧ Unmarked b
  | .compareQuery c o q => Unmarked c ∧ Unmarked o.text ∧ p q
  | .hasRows q _ => p q
  | .nested q => p q
  | .raw aql => Unmarked aql
  | .contains c v _ _ => Unmarked c ∧ v.Within names
  | .length c o v => Unmarked c ∧ Unmarked o.text ∧ v.Within names
  | .date _ c o v => Unmarked c ∧ Unmarked o.text ∧ v.Within names
  | .bits c _ v => Unmarked c ∧ v.Within names

/-- A definition whose operand refers to given names and whose query has a property. -/
def Definition.Within (names : Set String) (p : Q → Prop) : Definition Q → Prop
  | .bound v => v.Within names
  | .query q => p q

/-- A key of a grouping without marks. -/
def GroupKey.Clean : GroupKey → Prop
  | .column c => Unmarked c
  | .raw aql => Unmarked aql

/-- A criterion of an order without marks. -/
def Order.Clean : Order → Prop
  | .column c _ => Unmarked c
  | .raw aql => Unmarked aql
  | .random => True
  | .bestMatching => True

/-- A search without marks in its attributes whose operands refer to given names. -/
structure Search.Within (names : Set String) (s : Search) : Prop where
  fields : ∀ field ∈ s.fields, Unmarked field
  text : s.text.Within names
  analyzer : s.analyzer.Within names

/-- A query that refers to no names but the given ones: to names of `all` in its projection and to
names of `kept` elsewhere. -/
structure Clauses.Within (p : Set String → Q → Prop) (kept all : Set String) (c : Clauses Q) :
    Prop where
  tablePrefix : Unmarked c.tablePrefix
  source : ∀ s ∈ c.source, s.Within (p kept)
  columns : ∀ s ∈ c.columns, s.Within (p all)
  filters : ∀ x ∈ c.filters, x.test.Within kept (p kept)
  joins : ∀ j ∈ c.joins, p kept j.query
  groups : ∀ g ∈ c.groups, g.Clean
  havings : ∀ x ∈ c.havings, x.test.Within kept (p kept)
  aggregate : ∀ a ∈ c.aggregate, ∀ column ∈ a.column, Unmarked column
  orders : ∀ o ∈ c.orders, o.Clean
  unions : ∀ u ∈ c.unions, p kept u.query
  unionOrders : ∀ o ∈ c.unionOrders, o.Clean
  search : ∀ s ∈ c.search, s.Within kept
  definitions : ∀ v ∈ c.definitions, Unmarked v.name ∧ v.value.Within kept (p kept)
  aliases : c.aliases.Clean

section monotonicity

variable {names names' : Set String} {p p' : Q → Prop}

/-- An operand within some names is within more of them. -/
theorem Bound.Within.mono {b : Bound} (h : b.Within names) (hnames : names ⊆ names') :
    b.Within names' := by
  cases b with
  | placeholder name => exact ⟨h.1, hnames h.2⟩
  | raw aql => exact Covered.mono h hnames
  | column name => exact h

/-- A source whose query has a property has every weaker one. -/
theorem Source.Within.mono {s : Source Q} (h : s.Within p) (hp : ∀ q, p q → p' q) :
    s.Within p' := by
  cases s with
  | derived q v => exact ⟨hp q h.1, h.2⟩
  | _ => exact h

/-- A selector whose query has a property has every weaker one. -/
theorem Selector.Within.mono {s : Selector Q} (h : s.Within p) (hp : ∀ q, p q → p' q) :
    s.Within p' := by
  cases s with
  | sub q asName => exact ⟨hp q h.1, h.2⟩
  | _ => exact h

/-- A test may be within more names, with a weaker property of its queries. -/
theorem Test.Within.mono {t : Test Q} (h : t.Within names p) (hnames : names ⊆ names')
    (hp : ∀ q, p q → p' q) : t.Within names' p' := by
  cases t with
  | compare c o v => exact ⟨h.1, h.2.1, h.2.2.mono hnames⟩
  | between c l u n => exact ⟨h.1, h.2.1.mono hnames, h.2.2.mono hnames⟩
  | member c v n => exact ⟨h.1, h.2.mono hnames⟩
  | memberOfQuery c q n => exact ⟨h.1, hp q h.2⟩
  | compareQuery c o q => exact ⟨h.1, h.2.1, hp q h.2.2⟩
  | hasRows q n => exact hp q h
  | nested q => exact hp q h
  | contains c v a n => exact ⟨h.1, h.2.mono hnames⟩
  | length c o v => exact ⟨h.1, h.2.1, h.2.2.mono hnames⟩
  | date part c o v => exact ⟨h.1, h.2.1, h.2.2.mono hnames⟩
  | bits c o v => exact ⟨h.1, h.2.mono hnames⟩
  | _ => exact h

/-- A definition may be within more names, with a weaker property of its query. -/
theorem Definition.Within.mono {d : Definition Q} (h : d.Within names p) (hnames : names ⊆ names')
    (hp : ∀ q, p q → p' q) : d.Within names' p' := by
  cases d with
  | bound b => exact Bound.Within.mono h hnames
  | query q => exact hp q h

/-- A search within some names is within more of them. -/
theorem Search.Within.mono {s : Search} (h : s.Within names) (hnames : names ⊆ names') :
    s.Within names' :=
  ⟨h.fields, h.text.mono hnames, h.analyzer.mono hnames⟩

/-- More names may be given than a query refers to. -/
theorem Clauses.Within.mono {p : Set String → Q → Prop}
    (hp : ∀ {names names'}, names ⊆ names' → ∀ q, p names q → p names' q)
    {kept kept' all all' : Set String} {c : Clauses Q} (h : c.Within p kept all)
    (hkept : kept ⊆ kept') (hall : all ⊆ all') : c.Within p kept' all' where
  tablePrefix := h.tablePrefix
  source s hs := (h.source s hs).mono (hp hkept)
  columns s hs := (h.columns s hs).mono (hp hall)
  filters x hx := (h.filters x hx).mono hkept (hp hkept)
  joins j hj := hp hkept _ (h.joins j hj)
  groups := h.groups
  havings x hx := (h.havings x hx).mono hkept (hp hkept)
  aggregate := h.aggregate
  orders := h.orders
  unions u hu := hp hkept _ (h.unions u hu)
  unionOrders := h.unionOrders
  search s hs := (h.search s hs).mono hkept
  definitions v hv := ⟨(h.definitions v hv).1, (h.definitions v hv).2.mono hkept (hp hkept)⟩
  aliases := h.aliases

end monotonicity

section map

variable {f : P → Q}

theorem Source.within_map {p : Q → Prop} {s : Source P} :
    (s.map f).Within p ↔ s.Within fun q => p (f q) := by
  cases s <;> rfl

theorem Selector.within_map {p : Q → Prop} {s : Selector P} :
    (s.map f).Within p ↔ s.Within fun q => p (f q) := by
  cases s <;> rfl

theorem Test.within_map {names : Set String} {p : Q → Prop} {t : Test P} :
    (t.map f).Within names p ↔ t.Within names fun q => p (f q) := by
  cases t <;> rfl

theorem Definition.within_map {names : Set String} {p : Q → Prop} {d : Definition P} :
    (d.map f).Within names p ↔ d.Within names fun q => p (f q) := by
  cases d <;> rfl

/-- Replacing sub-queries moves into the property of sub-queries. -/
theorem Clauses.within_map {p : Set String → Q → Prop} {kept all : Set String} {c : Clauses P} :
    (c.map f).Within p kept all ↔ c.Within (fun names q => p names (f q)) kept all := by
  constructor
  · intro h
    have hsource := h.source
    have hcolumns := h.columns
    have hfilters := h.filters
    have hjoins := h.joins
    have hhavings := h.havings
    have hunions := h.unions
    have hdefinitions := h.definitions
    simp only [map, Option.mem_def, Option.map_eq_some_iff, List.mem_map, forall_exists_index,
      and_imp, forall_apply_eq_imp_iff₂, Source.within_map, Selector.within_map, Condition.map,
      Test.within_map, Join.map, UnionBranch.map, LetVariable.map, Definition.within_map]
      at hsource hcolumns hfilters hjoins hhavings hunions hdefinitions
    exact ⟨h.tablePrefix, hsource, hcolumns, hfilters, hjoins, h.groups, hhavings, h.aggregate,
      h.orders, hunions, h.unionOrders, h.search, hdefinitions, h.aliases⟩
  · intro h
    refine ⟨h.tablePrefix, ?_, ?_, ?_, ?_, h.groups, ?_, h.aggregate, h.orders, ?_, h.unionOrders,
      h.search, ?_, h.aliases⟩ <;>
    simp only [map, Option.mem_def, Option.map_eq_some_iff, List.mem_map, forall_exists_index,
      and_imp, forall_apply_eq_imp_iff₂, Source.within_map, Selector.within_map, Condition.map,
      Test.within_map, Join.map, UnionBranch.map, LetVariable.map, Definition.within_map]
    · exact h.source
    · exact h.columns
    · exact h.filters
    · exact h.joins
    · exact h.havings
    · exact h.unions
    · exact h.definitions

end map

end AqlBuilder

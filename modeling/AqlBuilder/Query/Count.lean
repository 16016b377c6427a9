import AqlBuilder.Query.Copy
import AqlBuilder.Query.Induction

/-!
# How many numbers a copy takes

A copy of a query takes a number for each query inside, whichever number is the next one.

- `Query.copyOf_run` says so.
-/

namespace AqlBuilder

-- Sums of numbers are those of core, whatever else is imported.
attribute [local instance (2000)] Zero.ofOfNat0

/-- The number of queries in a query, itself included. -/
def Query.count : Query → Nat := Query.fold fun c => c.queries.sum + 1

namespace Supply

variable {α β γ : Type}

/-- A computation that takes a fixed number of query numbers, whichever number is next. -/
def Takes (x : Supply α) (count : Nat) : Prop := ∀ next, (x next).2 = next + count

theorem takes_pure (a : α) : Takes (pure a) 0 := fun _ => rfl

theorem takes_fresh : Takes fresh 1 := fun _ => rfl

/-- A computation takes the numbers of its first part and those of the rest. -/
theorem Takes.bind {x : Supply α} {f : α → Supply β} {m n : Nat} (first : Takes x m)
    (rest : ∀ a, Takes (f a) n) : Takes (x >>= f) (m + n) := by
  intro next
  have afterFirst := first next
  have afterRest := rest (x next).1 (x next).2
  change (f (x next).1 (x next).2).2 = next + (m + n)
  omega

theorem Takes.map {x : Supply α} {m : Nat} (f : α → β) (h : Takes x m) :
    Takes (do pure (f (← x))) m := h.bind fun a => takes_pure (f a)

theorem Takes.of_singleton {x : Supply α} {q : Query} {cost : Query → Nat}
    (h : Takes x (cost q)) : Takes x ([q].map cost).sum := by simpa using h

/-- Copying the parts of clauses takes what copying their queries takes. -/
theorem takes_each {f : β → Supply γ} {g : α → β} {queries : α → List Query} {cost : Query → Nat}
    {items : List α} (h : ∀ item ∈ items, Takes (f (g item)) ((queries item).map cost).sum) :
    Takes (each f (items.map g)) ((items.flatMap queries).map cost).sum := by
  induction items with
  | nil => exact takes_pure []
  | cons item items ih =>
    simp only [List.map_cons, each, List.flatMap_cons, List.map_append, List.sum_append]
    refine (h item (by simp)).bind fun first => ?_
    exact (ih fun i member => h i (by simp [member])).map (first :: ·)

end Supply

open Supply

section parts

variable {f : Query → Supply Query} {cost : Query → Nat}

/-- A source takes the numbers that its query takes. -/
theorem Source.takes_run (s : Source Query) (h : ∀ q ∈ s.queries, Takes (f q) (cost q)) :
    Takes (s.map f).run (s.queries.map cost).sum := by
  cases s with
  | derived q v => exact ((h q (by simp [queries])).map (Source.derived · v)).of_singleton
  | _ => exact takes_pure _

/-- A selector takes the numbers that its query takes. -/
theorem Selector.takes_run (s : Selector Query) (h : ∀ q ∈ s.queries, Takes (f q) (cost q)) :
    Takes (s.map f).run (s.queries.map cost).sum := by
  cases s with
  | sub q asName => exact ((h q (by simp [queries])).map (Selector.sub · asName)).of_singleton
  | _ => exact takes_pure _

/-- A test takes the numbers that its queries take. -/
theorem Test.takes_run (t : Test Query) (h : ∀ q ∈ t.queries, Takes (f q) (cost q)) :
    Takes (t.map f).run (t.queries.map cost).sum := by
  cases t with
  | memberOfQuery c q n =>
    exact ((h q (by simp [queries])).map (Test.memberOfQuery c · n)).of_singleton
  | compareQuery c o q =>
    exact ((h q (by simp [queries])).map (Test.compareQuery c o ·)).of_singleton
  | hasRows q n => exact ((h q (by simp [queries])).map (Test.hasRows · n)).of_singleton
  | nested q => exact ((h q (by simp [queries])).map Test.nested).of_singleton
  | _ => exact takes_pure _

/-- A query variable takes the numbers that the query of its value takes. -/
theorem LetVariable.takes_run (v : LetVariable Query)
    (h : ∀ q ∈ v.value.queries, Takes (f q) (cost q)) :
    Takes (v.map f).run (v.value.queries.map cost).sum := by
  obtain ⟨name, value⟩ := v
  cases value with
  | bound b => exact takes_pure _
  | query q =>
    exact ((h q (by simp [Definition.queries])).map
      (fun q => (⟨name, .query q⟩ : LetVariable Query))).of_singleton

/-- An optional source takes numbers for its query only if it is there. -/
theorem takes_runSource (s : Option (Source Query))
    (h : ∀ q ∈ (s.map Source.queries).getD [], Takes (f q) (cost q)) :
    Takes (runSource (s.map (Source.map f))) (((s.map Source.queries).getD []).map cost).sum := by
  cases s with
  | none => exact takes_pure _
  | some s => exact (s.takes_run h).map some

/-- A condition takes the numbers of its test. -/
theorem Condition.takes_run (c : Condition Query)
    (h : ∀ q ∈ c.test.queries, Takes (f q) (cost q)) :
    Takes (c.map f).run (c.test.queries.map cost).sum :=
  (c.test.takes_run h).map fun test => (⟨test, c.connector⟩ : Condition Query)

theorem Join.takes_run (j : Join Query) (h : Takes (f j.query) (cost j.query)) :
    Takes (j.map f).run ([j.query].map cost).sum :=
  (h.map fun q => (⟨j.kind, q⟩ : Join Query)).of_singleton

theorem UnionBranch.takes_run (u : UnionBranch Query) (h : Takes (f u.query) (cost u.query)) :
    Takes (u.map f).run ([u.query].map cost).sum :=
  (h.map fun q => (⟨q, u.all⟩ : UnionBranch Query)).of_singleton

/-- Copying the clauses of a query takes what copying its sub-queries takes. -/
theorem Clauses.takes_run (c : Clauses Query) (h : ∀ q ∈ c.queries, Takes (f q) (cost q)) :
    Takes (c.map f).run (c.queries.map cost).sum := by
  simp only [queries, List.mem_append, List.map_eq_flatMap] at h
  have source := takes_runSource c.source fun q member => h q (by simp [member])
  have columns : Takes (each Selector.run (c.columns.map (Selector.map f))) _ :=
    takes_each fun s inside => s.takes_run fun q member => h q (by grind)
  have filters : Takes (each Condition.run (c.filters.map (Condition.map f))) _ :=
    takes_each fun s inside => s.takes_run fun q member => h q (by grind)
  have joins : Takes (each Join.run (c.joins.map (Join.map f))) _ :=
    takes_each fun j inside => j.takes_run (h j.query (by grind))
  have havings : Takes (each Condition.run (c.havings.map (Condition.map f))) _ :=
    takes_each fun s inside => s.takes_run fun q member => h q (by grind)
  have unions : Takes (each UnionBranch.run (c.unions.map (UnionBranch.map f))) _ :=
    takes_each fun u inside => u.takes_run (h u.query (by grind))
  have definitions : Takes (each LetVariable.run (c.definitions.map (LetVariable.map f))) _ :=
    takes_each fun v inside => v.takes_run fun q member => h q (by grind)
  intro next
  have total := (source.bind fun s => columns.bind fun cs => filters.bind fun fs =>
    joins.bind fun js => havings.bind fun hs => unions.bind fun us => definitions.bind fun ds =>
      takes_pure (⟨c.tablePrefix, s, cs, c.distinct, fs, js, c.groups, hs, c.aggregate, c.orders,
        c.limit, c.offset, us, c.unionOrders, c.unionLimit, c.unionOffset, c.search, ds,
        c.singleValue, c.bindings, c.aliases, c.error⟩ : Clauses Query)) next
  rw [queries, (List.map_eq_flatMap : c.joins.map Join.query = _),
    (List.map_eq_flatMap : c.unions.map UnionBranch.query = _)]
  simp only [List.map_append, List.sum_append]
  exact total.trans (by omega)

end parts

/-- A copy of a query takes one query number for each query inside, itself included. -/
theorem Query.copyOf_run (q : Query) (next : Nat) : (q.copyOf next).2 = next + q.count := by
  suffices Takes q.copyOf q.count from this next
  induction q with
  | of c ih =>
    rw [copyOf, count, fold_of, fold_of, Clauses.queries_map]
    exact (Clauses.takes_run c ih).bind fun clauses => takes_fresh.map _

end AqlBuilder

import AqlBuilder.Proofs.Builder.Stores

/-!
# What each method does to stores

The methods one by one. A method with a sub-query works on the stores of its builder and of the
sub-query, every other method on those of its builder.

- `Builder.moves_addComparison`: conditions, for every kind of operand.
- `Builder.moves_nested`, `Builder.moves_joinWith`: the closures of groups and joins have come to
  their ends.
-/

namespace AqlBuilder.Builder

open Ledger Supply

variable (b : Builder) {n : Nat} {q : Builder} {sub : SubQuery}

section binding

/-- Adding a value files it. -/
theorem leads_addBinding (v : Value) (category : String) :
    Leads b.stores (b.addBinding v category).stores := by
  refine b.leads_unlessFailed (le_refl _) ?_
  cases Category.ofName category with
  | ok c => exact b.leads_file v c
  | error e => exact b.leads_fail e

/-- Adding values files them one after another. -/
theorem leads_addBindings (operands : List (Operand Builder)) (category : String) :
    Leads b.stores (b.addBindings operands category).stores := by
  refine b.leads_unlessFailed (le_refl _) ?_
  generalize Operand.values operands = values
  induction values generalizing b with
  | nil => exact .refl _
  | cons v rest ih => exact (b.leads_addBinding v category).trans (ih (b.addBinding v category))

end binding

section conditions

/-- A test without queries brings in no stores. -/
theorem leads_push_bound (list : ConditionList) (connector : Connector) {test : Test Query}
    (h : test.queries = []) : Leads b.stores (b.push list connector test).stores := by
  rw [stores_push, h]
  exact .of_eq (add_zero _).symm

/-- There is no query in a comparison with an operand that is bound. -/
theorem queries_valueTest (column : String) (operator : Operator) (bound : Bound) :
    (valueTest column operator bound).queries = [] := by
  unfold valueTest
  split
  · rfl
  · split <;> rfl

/-- The stores of a comparison with a query are those of the query. -/
theorem stores_queryTest (column : String) (operator : Operator) (query : Builder) :
    ((queryTest column operator query).queries.map Query.stores).sum = query.stores := by
  have hstores : (Query.of { query with singleValue := true }).stores = query.stores :=
    Query.stores_of _
  unfold queryTest
  dsimp only
  split <;> simpa only [Test.queries, List.map_cons, List.map_nil, List.sum_singleton]

/-- A test of a sub-query takes the sub-query over with its stores. -/
theorem moves_addQueryTest [Naming] (h : sub.Returns n q) (list : ConditionList)
    (connector : Connector) (category : Category) (test : Builder → Test Query)
    (htest : ∀ query, ((test query).queries.map Query.stores).sum = query.stores) :
    MovesAt n (b.stores + q.stores) (do
      let (query, b) ← b.adopt sub category
      pure (b.push list connector (test query))) stores := by
  refine (b.moves_adopt h category).map fun p => ?_
  rw [stores_push, htest]
  exact .refl _

/-- A condition files the value of its operand or takes over its sub-query. -/
theorem moves_addComparison [Naming] (list : ConditionList) (connector : Connector)
    (column : String) (operator : Operator) (o : Operand Builder) :
    Moves (b.stores + o.stores) (b.addComparison list connector column operator o) stores := by
  intro n
  cases o with
  | query q =>
      rw [Operand.stores, Operand.queries, List.map_singleton, List.sum_singleton]
      exact b.moves_addQueryTest .finished list connector list.category
        (queryTest column operator) (stores_queryTest column operator)
  | expression aql =>
      rw [addComparison_expression]
      refine moves_pure ((Leads.of_eq (add_zero _)).trans ?_) n
      exact b.leads_push_bound list connector (queries_valueTest column operator _)
  | column name =>
      rw [addComparison_column]
      refine moves_pure ((Leads.of_eq (add_zero _)).trans ?_) n
      exact b.leads_push_bound list connector (queries_valueTest column operator _)
  | value v =>
      by_cases hnull : v.cast = .null
      · rw [b.addComparison_null list connector column operator hnull]
        refine moves_pure ((Leads.of_eq (add_zero _)).trans ?_) n
        split
        · exact b.leads_push_bound list connector rfl
        · exact b.leads_fail _
      · rw [b.addComparison_value list connector column operator hnull]
        refine moves_pure ((Leads.of_eq (add_zero _)).trans ?_) n
        split
        · exact b.leads_fail _
        · exact (b.leads_bindValue v.cast list.category).trans
            (leads_push_bound _ list connector (queries_valueTest column operator _))

/-- A condition takes its operand over with its stores. -/
theorem moves_condition [Naming] (list : ConditionList) (connector : Connector) (column : String)
    (operator : Except Error Operator) (o : Operand Builder) :
    Moves (b.stores + o.stores) (b.condition list connector column operator o) stores := by
  refine fun n => b.moves_unlessFailedM (Multiset.le_add_right _ _) ?_
  cases operator with
  | ok operator => exact b.moves_addComparison list connector column operator o n
  | error e => exact moves_pure (.of_le (Multiset.le_add_right _ _)) n

/-- A comparison of two columns brings in no stores. -/
theorem leads_compareColumns (connector : Connector) (first : String)
    (operator : Except Error Operator) (second : String) :
    Leads b.stores (b.compareColumns connector first operator second).stores := by
  refine b.leads_unlessFailed (le_refl _) ?_
  cases operator with
  | ok operator => exact b.leads_push_bound .filters connector rfl
  | error e => exact b.leads_fail e

/-- A membership in given values files them. -/
theorem moves_member [Naming] (connector : Connector) (negated : Bool) (column : String)
    (v : Value) :
    Moves b.stores (b.member connector negated column v) stores :=
  fun n => (b.moves_condition .filters connector column _ (.value v) n).before
    (.of_eq (add_zero _).symm)

/-- A test for a range files its bounds. -/
theorem leads_between (list : ConditionList) (connector : Connector) (negated : Bool)
    (column : String) (bounds : Value) :
    Leads b.stores (b.between list connector negated column bounds).stores := by
  rw [between_eq]
  refine b.leads_unlessFailed (le_refl _) ?_
  cases bounds.bounds? with
  | none => exact b.leads_fail _
  | some pair =>
      let low := b.bindValue pair.1 list.category
      let high := low.2.bindValue pair.2 list.category
      have hlow : Leads b.stores low.2.stores := b.leads_bindValue pair.1 list.category
      have hhigh : Leads low.2.stores high.2.stores := low.2.leads_bindValue pair.2 list.category
      have hpush : Leads high.2.stores
          (high.2.push list connector (.between column low.1 high.1 negated)).stores :=
        high.2.leads_push_bound list connector rfl
      exact hlow.trans (hhigh.trans hpush)

/-- A group of conditions whose closure has returned is absorbed; without conditions it goes. -/
theorem moves_nested (connector : Connector) :
    (b.nested connector (returned n q)).MovesAt n (b.stores + q.stores) stores := by
  have hgroup : Leads (b.stores + q.stores) (stores
      (if q.filters.isEmpty then b.absorb q .filter
      else (b.absorb q .filter).push .filters connector (.nested (.of q)))) := by
    refine (b.leads_absorb q .filter).trans ?_
    split
    · exact .of_le (Multiset.le_add_right _ _)
    · rw [stores_push, Test.queries, List.map_singleton, List.sum_singleton, q.stores_of]
      exact .refl _
  unfold nested
  refine b.moves_unlessFailedM (Multiset.le_add_right _ _) ?_
  exact hgroup n

/-- A test whether a sub-query has rows takes it over with its stores. -/
theorem moves_hasRows [Naming] (connector : Connector) (negated : Bool) (h : sub.Returns n q) :
    (b.hasRows connector negated sub).MovesAt n (b.stores + q.stores) stores := by
  refine b.moves_unlessFailedM (Multiset.le_add_right _ _) ?_
  have hmoves := b.moves_addQueryTest h .filters connector .filter
    (fun query => .hasRows (.of query) negated) fun query => by
      rw [Test.queries, List.map_singleton, List.sum_singleton, query.stores_of]
  exact hmoves

/-- A membership in the rows of a sub-query takes it over with its stores. -/
theorem moves_memberOfQuery [Naming] (negated : Bool) (column : String) (h : sub.Returns n q) :
    (b.memberOfQuery negated column sub).MovesAt n (b.stores + q.stores) stores := by
  refine b.moves_unlessFailedM (Multiset.le_add_right _ _) ?_
  exact b.moves_addQueryTest h .filters .and .filter _ (stores_queryTest column _)

/-- A condition with an illegal operator drops what it would have used. -/
theorem moves_withOperator {S : Multiset Store} (operator : Except Error Operator)
    {add : Builder → Operator → Supply Builder} (hle : b.stores ≤ S)
    (h : ∀ operator, (add b operator).MovesAt n S stores) :
    (b.withOperator operator add).MovesAt n S stores := by
  refine b.moves_unlessFailedM hle ?_
  cases operator with
  | ok operator => exact h operator
  | error e => exact moves_pure (.of_le hle) n

/-- A comparison with the value of a sub-query takes it over with its stores. -/
theorem moves_compareQuery [Naming] (column : String) (operator : Except Error Operator)
    (h : sub.Returns n q) :
    (b.compareQuery column operator sub).MovesAt n (b.stores + q.stores) stores :=
  b.moves_withOperator operator (Multiset.le_add_right _ _) fun operator =>
    b.moves_addQueryTest h .filters .and .filter _ (stores_queryTest column operator)

/-- A test with one bound operand. -/
theorem moves_addBoundTest [Naming] (o : Operand Builder) (test : Bound → Test Query)
    (htest : ∀ bound, (test bound).queries = []) :
    Moves (b.stores + o.stores) (do
      let (bound, b) ← b.bind o .filter
      pure (b.push .filters .and (test bound))) stores :=
  fun n => (b.moves_bind o .filter n).map fun p => p.2.leads_push_bound .filters .and (htest p.1)

/-- A condition on a length takes its operand over with its stores. -/
theorem moves_length [Naming] (column : String) (operator : Except Error Operator)
    (o : Operand Builder) :
    Moves (b.stores + o.stores) (b.length column operator o) stores := fun n =>
  b.moves_withOperator operator (Multiset.le_add_right _ _) fun operator =>
    b.moves_addBoundTest o (.length column operator) (fun _ => rfl) n

/-- A condition on a part of a date takes its operand over with its stores. -/
theorem moves_date [Naming] (part : DatePart) (column : String) (operator : Except Error Operator)
    (o : Operand Builder) : Moves (b.stores + o.stores) (b.date part column operator o) stores :=
  fun n => b.moves_withOperator operator (Multiset.le_add_right _ _) fun operator =>
    b.moves_addBoundTest o (.date part column operator) (fun _ => rfl) n

/-- A test whether a value is contained files it. -/
theorem leads_contains (negated : Bool) (column : String) (v : Value) :
    Leads b.stores (b.contains negated column v).stores := by
  rw [contains_eq]
  refine b.leads_unlessFailed (le_refl _) ?_
  exact (b.leads_bindValue v.cast .filter).trans (leads_push_bound _ .filters .and rfl)

end conditions

section projection

/-- Selecting one part of a projection brings in the stores of its query. -/
theorem stores_selectOne (selector : Selector Query) :
    (b.selectOne selector).stores = b.stores + (selector.queries.map Query.stores).sum := by
  cases selector <;> exact b.stores_addColumn _ _

/-- Adding to the projection brings in the stores of its queries. -/
theorem stores_addSelect (selectors : List (Selector Query)) :
    (b.addSelect selectors).stores =
      b.stores + ((selectors.flatMap Selector.queries).map Query.stores).sum := by
  induction selectors generalizing b with
  | nil => exact (add_zero _).symm
  | cons selector rest ih =>
      change ((b.selectOne selector).addSelect rest).stores = _
      rw [ih, stores_selectOne, List.flatMap_cons, List.map_append, List.sum_append, add_assoc]

/-- A new selection throws away the old one with the values that were bound for it. -/
theorem leads_select (selectors : List (Selector Query)) :
    Leads (b.stores + ((selectors.flatMap Selector.queries).map Query.stores).sum)
      (b.select selectors).stores := by
  have hclear : Leads b.stores
      (stores { b with columns := [], bindings := b.bindings.set [] .select }) := by
    refine Leads.trans (.of_le b.stores_clearColumns_le) ?_
    exact leads_withBindings { b with columns := [] } (leads_clear b.bindings .select)
  refine (hclear.add_right _).trans (.of_eq ?_)
  exact (stores_addSelect _ selectors).symm

/-- Selecting a sub-query takes it over with its stores. -/
theorem moves_selectQuery [Naming] (h : sub.Returns n q) (asName : String) :
    (b.selectQuery sub asName).MovesAt n (b.stores + q.stores) stores := by
  refine b.moves_unlessFailedM (Multiset.le_add_right _ _) ?_
  refine (b.moves_adopt h .select).map fun p => .of_eq ?_
  refine Eq.trans ?_ (stores_addColumn p.2 _ _).symm
  rw [Selector.queries, List.map_singleton, List.sum_singleton, stores_of]
  rfl

/-- Defining a query variable brings in the stores of its query. -/
theorem stores_define (name : String) (value : Definition Query) :
    (b.define name value).stores = b.stores + (value.queries.map Query.stores).sum :=
  b.stores_addDefinition ⟨name, value⟩ _

/-- Setting a query variable takes its operand over with its stores. -/
theorem moves_set [Naming] (name : String) (o : Operand Builder) :
    Moves (b.stores + o.stores) (b.set name o) stores := by
  refine fun n => b.moves_unlessFailedM (Multiset.le_add_right _ _) ?_
  refine (b.moves_bind o .definitions n).map fun p => .of_eq ?_
  exact ((p.2.stores_define name _).trans (add_zero _)).symm

/-- Setting a query variable to a sub-query takes it over with its stores. -/
theorem moves_setQuery [Naming] (name : String) (h : sub.Returns n q) :
    (b.setQuery name sub).MovesAt n (b.stores + q.stores) stores := by
  refine b.moves_unlessFailedM (Multiset.le_add_right _ _) ?_
  refine (b.moves_adopt h .definitions).map fun p => .of_eq ?_
  rw [stores_define, Definition.queries, List.map_singleton, List.sum_singleton, stores_of]
  rfl

end projection

section paging

/-- A criterion brings in no stores. -/
theorem stores_pushOrder (o : Order) : (b.pushOrder o).stores = b.stores := by
  unfold pushOrder
  split <;> rfl

/-- Ordering brings in no stores. -/
theorem leads_orderBy (column : String) (direction : Except Error Direction) :
    Leads b.stores (b.orderBy column direction).stores := by
  refine b.leads_unlessFailed (le_refl _) ?_
  cases direction with
  | ok direction => exact .of_eq (b.stores_pushOrder _).symm
  | error e => exact b.leads_fail e

/-- Limiting brings in no stores. -/
theorem stores_limitTo (count : Nat) : (b.limitTo count).stores = b.stores := by
  unfold limitTo
  split <;> rfl

theorem stores_skip (count : Nat) : (b.skip count).stores = b.stores := by
  unfold skip
  split <;> rfl

end paging

section sources

/-- A source without queries drops the stores of the old one. -/
theorem leads_withSource (source : Source Query) (h : source.queries = []) :
    Leads b.stores (stores { b with source := some source }) := by
  have hle := b.stores_withSource_le source
  rw [h, List.map_nil, List.sum_nil, add_zero] at hle
  exact .of_le hle

/-- Registering a collection brings in no stores. -/
theorem stores_register [Naming] (table : String) : (b.register table).2.2.stores = b.stores := by
  unfold register
  generalize tableAndAlias table = named
  rfl

/-- A collection as the source drops the stores of the old one. -/
theorem leads_fromCollection [Naming] (table : String) :
    Leads b.stores (b.fromCollection table).stores := by
  have hstores := b.stores_register table
  unfold fromCollection
  generalize b.register table = named at hstores ⊢
  rw [← hstores]
  exact named.2.2.leads_withSource _ rfl

/-- A view as the source drops the stores of the old one. -/
theorem leads_fromView [Naming] (view : String) : Leads b.stores (b.fromView view).stores := by
  have hstores := b.stores_register view
  unfold fromView
  generalize b.register view = named at hstores ⊢
  rw [← hstores]
  exact named.2.2.leads_withSource _ rfl

/-- A sub-query as the source is taken over with its stores. -/
theorem moves_fromQuery [Naming] (h : sub.Returns n q) (asName : String) :
    (b.fromQuery sub asName).MovesAt n (b.stores + q.stores) stores := by
  refine b.moves_unlessFailedM (Multiset.le_add_right _ _) ?_
  refine (b.moves_adopt h .source).map fun p => .of_le ((stores_withSource_le _ _).trans ?_)
  rw [Source.queries, List.map_singleton, List.sum_singleton, stores_of]
  exact le_refl _

/-- A join merges the values of the joined query and takes over its stores. -/
theorem leads_pushJoin (kind : JoinKind) (joined : Builder) :
    Leads (b.stores + joined.stores) (b.pushJoin kind joined).stores := by
  refine (b.leads_absorb joined .join).trans (.of_eq ?_)
  rw [← joined.stores_of]
  exact (stores_addJoin (b.absorb joined .join) ⟨kind, .of joined⟩).symm

/-- A join whose closure has returned is absorbed. -/
theorem moves_joinWith [Naming] (kind : JoinKind) (table : String) :
    (b.joinWith kind table (returned n q)).MovesAt n (b.stores + q.stores) stores := by
  unfold joinWith
  refine b.moves_unlessFailedM (Multiset.le_add_right _ _) ?_
  have hstores := b.stores_register table
  generalize b.register table = named at hstores ⊢
  rw [← hstores]
  exact named.2.2.leads_pushJoin kind q n

/-- A join whose conditions are a function of the joined query. -/
theorem moves_joinPure [Naming] (kind : JoinKind) (table : String) {restrict : Builder → Builder}
    (h : ∀ joined, Leads joined.stores (restrict joined).stores) :
    Moves b.stores (b.joinWith kind table fun joined => pure (restrict joined)) stores := by
  intro n
  unfold joinWith
  refine b.moves_unlessFailedM (le_refl _) ?_
  have hstores := b.stores_register table
  generalize b.register table = named at hstores ⊢
  obtain ⟨name, docVar, b'⟩ := named
  rw [← hstores]
  have hjoined := ((b'.moves_forSubQuery n).frame b'.stores).before (.of_eq (zero_add _).symm)
  refine hjoined.bind fun joined => ?_
  have hsource := joined.leads_withSource (.collection name docVar) rfl
  have hrestrict := hsource.trans (h { joined with source := some (.collection name docVar) })
  have hpush := b'.leads_pushJoin kind
    (restrict { joined with source := some (.collection name docVar) })
  refine moves_pure (((hrestrict.add_right _).trans (.of_eq (add_comm _ _))).trans hpush)

/-- A join by one comparison makes one query. -/
theorem moves_join [Naming] (kind : JoinKind) (table first : String)
    (operator : Except Error Operator)
    (second : String) : Moves b.stores (b.join kind table first operator second) stores := by
  have hjoin := b.moves_joinPure kind table fun joined =>
    joined.leads_compareColumns .and first operator second
  unfold join
  exact hjoin

/-- A join without conditions makes one query. -/
theorem moves_crossJoin [Naming] (table : String) : Moves b.stores (b.crossJoin table) stores := by
  have hjoin := b.moves_joinPure .cross table fun joined => .refl joined.stores
  unfold crossJoin
  exact hjoin

/-- A join with the rows of a sub-query: the sub-query stays in the source of the joined query. -/
theorem moves_joinQuery [Naming] (kind : JoinKind) (h : sub.Returns n q) (asName first : String)
    (operator : Except Error Operator) (second : String) :
    (b.joinQuery kind sub asName first operator second).MovesAt n (b.stores + q.stores)
      stores := by
  unfold joinQuery
  refine b.moves_unlessFailedM (Multiset.le_add_right _ _) ?_
  refine (b.moves_adopt h .join).bind fun p m => ?_
  obtain ⟨query, b'⟩ := p
  have hstores : (b'.registerQuery query asName).2.stores = b'.stores := rfl
  dsimp only
  generalize b'.registerQuery query asName = named at hstores ⊢
  obtain ⟨docVar, b''⟩ := named
  rw [← hstores]
  have hjoined := ((b''.moves_forSubQuery m).frame (b''.stores + query.stores)).before
    (.of_eq (zero_add _).symm)
  refine hjoined.bind fun joined => moves_pure ?_
  have hle := joined.stores_withSource_le (.derived (.of query) docVar)
  rw [Source.queries, List.map_singleton, List.sum_singleton, stores_of] at hle
  have hsource : Leads (joined.stores + query.stores) _ := .of_le hle
  have hcompare := leads_compareColumns
    { joined with source := some (.derived (.of query) docVar) } .and first operator second
  have hpush := b''.leads_pushJoin kind (compareColumns
    { joined with source := some (.derived (.of query) docVar) } .and first operator second)
  refine (Leads.of_eq ?_).trans (((hsource.trans hcompare).add_left b''.stores).trans hpush)
  abel

/-- A union takes the other query over with its stores. -/
theorem moves_union [Naming] (all : Bool) (h : sub.Returns n q) :
    (b.union all sub).MovesAt n (b.stores + q.stores) stores := by
  unfold union
  refine b.moves_unlessFailedM (Multiset.le_add_right _ _) ?_
  refine (b.moves_adopt h .union).map fun p => .of_eq ?_
  generalize p.2.aliases.exchangeTables p.1.aliases = exchanged
  refine Eq.trans ?_ (stores_addUnion p.2 _ _).symm
  rw [stores_of]
  rfl

/-- A search files its text and its analyzer. -/
theorem leads_fullTextSearch (fields : List (Selector Query)) (text : Value)
    (analyzer : Option String) :
    Leads b.stores (b.fullTextSearch fields text analyzer).stores := by
  refine of_fullTextSearch (p := fun w => Leads b.stores w.stores) (.refl _)
    (b.leads_fail _) (b.leads_fail _) ?_
  rintro _ _ rfl rfl - -
  exact (b.leads_bindValue text .search).trans (leads_bindValue _ _ .search)

end sources

end AqlBuilder.Builder

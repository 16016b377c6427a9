import AqlBuilder.Builder.Basic
import AqlBuilder.Builder.Projection
import AqlBuilder.Proofs.Builder.Closed
import AqlBuilder.Proofs.Builder.StoresMethods

/-!
# Every method keeps builders closed

The methods one by one: with closed sub-queries each method leaves a closed builder. A variable that
is defined has to be defined by something that names no column, in a query that is written as a
statement; the name of a selected sub-query has to be among the names that count as being around.

- `Builder.Closed.push` and its neighbours add a clause with closed queries.
- `Builder.Closed.define` is the only method that adds a definition, and
  `Builder.Closed.selectQuery` the only one that makes another name known.
- `Builder.Closed.nested`: a group of conditions keeps closed if its conditions define nothing.
-/

namespace AqlBuilder.Builder.Closed

open Supply

variable {S outer : List String} {w : Bool} {b : Builder} {sub : SubQuery} {column : String}
  {operator : Except Error Operator} {o : Operand Builder}

section conditions

/-- A test may be added whose queries know what the builder knows. -/
theorem push (h : b.Closed w outer) (list : ConditionList) (connector : Connector) {t : Test Query}
    (ht : t.Closed Query.Closed (outer ++ b.definedNames)) :
    (b.push list connector t).Closed w outer := by
  cases list with
  | filters =>
      refine { h with filters := fun x hx => ?_ }
      rcases List.mem_append.mp hx with hold | hnew
      · exact h.filters x hold
      · rw [List.mem_singleton.mp hnew]
        exact ht
  | havings =>
      refine { h with havings := fun x hx => ?_ }
      rcases List.mem_append.mp hx with hold | hnew
      · exact h.havings x hold
      · rw [List.mem_singleton.mp hnew]
        exact ht

/-- A test without queries. -/
theorem pushPlain (h : b.Closed w outer) (list : ConditionList) (connector : Connector)
    {t : Test Query} (ht : t.queries = []) : (b.push list connector t).Closed w outer :=
  h.push list connector (Test.closed_of_queries ht)

/-- A test with the sub-query that was taken over. -/
theorem pushTaken {result : Builder × Builder} (h : Taken w outer b result) (list : ConditionList)
    (connector : Connector) {t : Test Query}
    (ht : t.Closed Query.Closed (outer ++ b.definedNames)) :
    (result.2.push list connector t).Closed w outer :=
  h.builder.push list connector (h.names ▸ ht)

/-- The test of a sub-query that was taken over knows what the builder knows. -/
theorem closed_queryTest {result : Builder × Builder} (h : Taken w outer b result) (column : String)
    (operator : Operator) :
    (queryTest column operator result.1).Closed Query.Closed (outer ++ b.definedNames) := by
  have hquery := Query.closed_of.mpr h.query.asValue
  unfold queryTest
  dsimp only
  split <;> exact fun q hq => List.mem_singleton.mp hq ▸ hquery

/-- A comparison keeps a builder closed. -/
theorem addComparison [Naming] (h : b.Closed w outer) (hS : S ⊆ outer) (list : ConditionList)
    (connector : Connector) (column : String) (operator : Operator) (ho : o.Closed outer) :
    (b.addComparison list connector column operator o).Always (Closed w outer) := by
  cases o with
  | value v =>
      exact always_addComparison_value b list connector column operator
        (fun _ => h.pushPlain list connector rfl)
        ((h.bindValue _ list.category).1.pushPlain list connector
          (queries_valueTest column operator _))
        fun _ => h.fail _
  | expression aql =>
      rw [addComparison_expression b list connector column operator aql]
      exact always_pure (h.pushPlain list connector (queries_valueTest column operator _))
  | column name =>
      rw [addComparison_column b list connector column operator name]
      exact always_pure (h.pushPlain list connector (queries_valueTest column operator _))
  | query q =>
      refine (h.adopt hS (.finished (ho q rfl)) list.category).map fun result hresult => ?_
      exact pushTaken hresult list connector (closed_queryTest hresult column operator)

/-- A condition keeps a builder closed, with a legal operator or without one. -/
theorem withOperator (h : b.Closed w outer) {add : Builder → Operator → Supply Builder}
    (hadd : ∀ o, (add b o).Always (Closed w outer)) :
    (b.withOperator operator add).Always (Closed w outer) := by
  refine always_unlessFailedM h ?_
  cases operator with
  | ok o => exact hadd o
  | error e => exact always_pure (h.fail e)

/-- A condition on a column keeps a builder closed. -/
theorem condition [Naming] (h : b.Closed w outer) (hS : S ⊆ outer) (list : ConditionList)
    (connector : Connector) (ho : o.Closed outer) :
    (b.condition list connector column operator o).Always (Closed w outer) :=
  h.withOperator fun op => h.addComparison hS list connector column op ho

/-- A comparison of two columns brings in no query. -/
theorem compareColumns (h : b.Closed w outer) (connector : Connector) (first second : String) :
    (b.compareColumns connector first operator second).Closed w outer := by
  refine of_unlessFailed h ?_
  cases operator with
  | ok o => exact h.pushPlain .filters connector rfl
  | error e => exact h.fail e

/-- A condition on a value. -/
theorem conditionValue [Naming] (h : b.Closed w outer) (list : ConditionList)
    (connector : Connector)
    (v : Value) : (b.condition list connector column operator (.value v)).Always (Closed w outer) :=
  h.condition (List.nil_subset _) list connector fun _ hq => nomatch hq

/-- A membership in the rows of a sub-query keeps a builder closed. -/
theorem memberOfQuery [Naming] (h : b.Closed w outer) (hS : S ⊆ outer) (negated : Bool)
    (hsub : sub.Closed S outer) : (b.memberOfQuery negated column sub).Always (Closed w outer) := by
  refine always_unlessFailedM h ((h.adopt hS hsub .filter).map fun result hresult => ?_)
  exact pushTaken hresult .filters .and (closed_queryTest hresult column _)

/-- A test for a range brings in no query. -/
theorem between (h : b.Closed w outer) (list : ConditionList) (connector : Connector)
    (negated : Bool) (bounds : Value) :
    (b.between list connector negated column bounds).Closed w outer := by
  rw [between_eq]
  refine of_unlessFailed h ?_
  cases bounds.bounds? with
  | none => exact h.fail _
  | some pair =>
      have hfirst := (h.bindValue pair.1 list.category).1
      have hsecond := (hfirst.bindValue pair.2 list.category).1
      exact hsecond.pushPlain list connector rfl

/-- A group of conditions knows what its builder knows, and is not written as a statement. -/
theorem nested (h : b.Closed w outer) (hS : S ⊆ outer) (connector : Connector)
    {make : Builder → Supply Builder} (hmake : KeepsClosed S false make) :
    (b.nested connector make).Always (Closed w outer) := by
  refine always_unlessFailedM h (h.forNested.bind fun start hstart => ?_)
  have hSall : S ⊆ outer ++ b.definedNames := fun name hname => List.mem_append_left _ (hS hname)
  refine (hmake _ start hSall hstart).map fun group hgroup => ?_
  have habsorbed := h.absorb group .filter
  split
  · exact habsorbed
  · refine habsorbed.push .filters connector ?_
    rw [definedNames_absorb]
    exact Query.closed_of.mpr hgroup

/-- A test whether a sub-query has rows keeps a builder closed. -/
theorem hasRows [Naming] (h : b.Closed w outer) (hS : S ⊆ outer) (connector : Connector)
    (negated : Bool)
    (hsub : sub.Closed S outer) : (b.hasRows connector negated sub).Always (Closed w outer) := by
  refine always_unlessFailedM h ((h.adopt hS hsub .filter).map fun result hresult => ?_)
  refine pushTaken hresult .filters connector fun q hq => ?_
  rw [List.mem_singleton.mp hq]
  exact Query.closed_of.mpr hresult.query

/-- A comparison with the value of a sub-query keeps a builder closed. -/
theorem compareQuery [Naming] (h : b.Closed w outer) (hS : S ⊆ outer) (hsub : sub.Closed S outer) :
    (b.compareQuery column operator sub).Always (Closed w outer) := by
  refine h.withOperator fun op => (h.adopt hS hsub .filter).map fun result hresult => ?_
  exact pushTaken hresult .filters .and (closed_queryTest hresult column op)

/-- A condition that is added without an operator and without a query. -/
theorem addPlain (h : b.Closed w outer) (list : ConditionList) (connector : Connector)
    {t : Test Query} (ht : t.queries = []) :
    (b.unlessFailed fun b => b.push list connector t).Closed w outer :=
  of_unlessFailed h (h.pushPlain list connector ht)

/-- A test whether a value is contained brings in no query. -/
theorem contains (h : b.Closed w outer) (negated : Bool) (v : Value) :
    (b.contains negated column v).Closed w outer := by
  rw [contains_eq]
  exact of_unlessFailed h ((h.bindValue v.cast .filter).1.pushPlain .filters .and rfl)

/-- A condition on a length brings in no query. -/
theorem length [Naming] (h : b.Closed w outer) (o : Operand Builder) :
    (b.length column operator o).Always (Closed w outer) :=
  h.withOperator fun _ => (h.bind .filter).map fun _ hresult =>
    hresult.1.pushPlain .filters .and rfl

/-- A condition on a part of a date brings in no query. -/
theorem date [Naming] (h : b.Closed w outer) (part : DatePart) (o : Operand Builder) :
    (b.date part column operator o).Always (Closed w outer) :=
  h.withOperator fun _ => (h.bind .filter).map fun _ hresult =>
    hresult.1.pushPlain .filters .and rfl

end conditions

section projection

/-- One more part of the projection. -/
theorem withColumn (h : b.Closed w outer) (selector : Selector Query)
    (hselector : ∀ q ∈ selector.queries, q.Closed true (outer ++ b.definedNames)) :
    Closed w outer { b with columns := b.columns ++ [selector] } := by
  refine { h with columns := fun s hs => ?_ }
  rcases List.mem_append.mp hs with hold | hnew
  · exact h.columns s hold
  · rw [List.mem_singleton.mp hnew]
    exact hselector

/-- A part of a projection may be selected whose query knows what the builder knows. -/
theorem selectOne (h : b.Closed w outer) (selector : Selector Query)
    (hselector : ∀ q ∈ selector.queries, q.Closed true (outer ++ b.definedNames)) :
    (b.selectOne selector).Closed w outer := by
  have hadded := h.withColumn selector hselector
  cases selector with
  | aliased column asName => exact hadded.withAliases rfl
  | _ => exact hadded

/-- Selecting defines no variable. -/
theorem definedNames_selectOne (b : Builder) (selector : Selector Query) :
    (b.selectOne selector).definedNames = b.definedNames := by
  cases selector <;> rfl

/-- Parts of a projection may be added whose queries know what the builder knows. -/
theorem addSelect (h : b.Closed w outer) {selectors : List (Selector Query)}
    (hselectors : ∀ s ∈ selectors, ∀ q ∈ s.queries, q.Closed true (outer ++ b.definedNames)) :
    (b.addSelect selectors).Closed w outer := by
  induction selectors generalizing b with
  | nil => exact h
  | cons first rest ih =>
      refine ih (h.selectOne first (hselectors first List.mem_cons_self)) ?_
      rw [definedNames_selectOne]
      exact fun s hs => hselectors s (List.mem_cons_of_mem first hs)

/-- Parts of a projection may be selected whose queries know what the builder knows. -/
theorem select (h : b.Closed w outer) {selectors : List (Selector Query)}
    (hselectors : ∀ s ∈ selectors, ∀ q ∈ s.queries, q.Closed true (outer ++ b.definedNames)) :
    (b.select selectors).Closed w outer := by
  have hbound := h.withBindings (b.bindings.set [] .select) b.error
  have hcleared : Closed w outer
      { b with columns := [], bindings := b.bindings.set [] .select } :=
    { hbound with columns := fun _ hs => (List.not_mem_nil hs).elim }
  exact hcleared.addSelect hselectors

/-- The name of a selected sub-query becomes known. -/
theorem selectQuery [Naming] (h : b.Closed w outer) (hS : S ⊆ outer) (hsub : sub.Closed S outer)
    {asName : String} (hname : asName ∈ S) :
    (b.selectQuery sub asName).Always (Closed w outer) := by
  refine always_unlessFailedM h ((h.adopt hS hsub .select).map fun ⟨query, taken⟩ hresult => ?_)
  have hadded := hresult.builder.withColumn (.sub (.of { query with singleValue := true }) asName)
    fun q hq => by
      rw [List.mem_singleton.mp hq, hresult.names]
      exact Query.closed_of.mpr hresult.query.asValue
  refine { hadded with known := fun name hknown => ?_ }
  rcases Entries.mem_put hknown with hold | hnew
  · exact hadded.known name hold
  · cases hnew
    exact List.mem_append_left _ (hS hname)

/-- A definition without columns. What is known to its queries was known before it. -/
theorem define (h : b.Closed true outer) (name : String) {value : Definition Query}
    (hcolumns : value.columns = [])
    (hqueries : ∀ q ∈ value.queries, q.Closed true (outer ++ b.definedNames)) :
    (b.define name value).Closed true outer := by
  have hnames : (b.define name value).definedNames = b.definedNames ++ [name] := by
    unfold Clauses.definedNames Builder.define
    exact List.map_append
  have hsubset : outer ++ b.definedNames ⊆ outer ++ (b.define name value).definedNames := by
    rw [hnames, ← List.append_assoc]
    exact List.subset_append_left _ _
  have htest : ∀ {t : Test Query}, t.Closed Query.Closed (outer ++ b.definedNames) →
      t.Closed Query.Closed (outer ++ (b.define name value).definedNames) :=
    fun ht => ht.mono fun _ _ _ hq => hq.mono hsubset
  have hdefinition : LetVariable.InOrder Query.Closed (outer ++ b.definedNames)
      [⟨name, value⟩] := ⟨⟨hcolumns, hqueries⟩, trivial⟩
  exact {
    known := fun known hknown => by
      rcases Entries.mem_put hknown with hold | hnew
      · exact hsubset (h.known known hold)
      · cases hnew
        rw [hnames]
        exact List.mem_append_right _ (List.mem_append_right _ List.mem_cons_self)
    unwritten := fun hfalse => Bool.noConfusion hfalse
    source := fun s hs q hq => (h.source s hs q hq).mono hsubset
    columns := fun s hs q hq => (h.columns s hs q hq).mono hsubset
    filters := fun x hx => htest (h.filters x hx)
    joins := fun j hj => (h.joins j hj).mono hsubset
    havings := fun x hx => htest (h.havings x hx)
    unions := fun u hu => (h.unions u hu).mono hsubset
    definitions := LetVariable.inOrder_append.mpr ⟨h.definitions, hdefinition⟩ }

/-- A query variable may be set to anything but a column. -/
theorem set [Naming] (h : b.Closed true outer) (name : String) (ho : o.isColumn = false) :
    (b.set name o).Always (Closed true outer) := by
  refine always_unlessFailedM h ((h.bind .definitions).map fun result hresult => ?_)
  exact hresult.1.define name (hresult.2 ho) fun _ hq => nomatch hq

/-- A query variable may be set to a closed sub-query. -/
theorem setQuery [Naming] (h : b.Closed true outer) (hS : S ⊆ outer) (name : String)
    (hsub : sub.Closed S outer) : (b.setQuery name sub).Always (Closed true outer) := by
  refine always_unlessFailedM h ((h.adopt hS hsub .definitions).map fun result hresult => ?_)
  refine hresult.builder.define name rfl fun q hq => ?_
  rw [List.mem_singleton.mp hq, hresult.names]
  exact Query.closed_of.mpr hresult.query.asValue

theorem groupBy (h : b.Closed w outer) (selectors : List (Selector Query)) :
    (b.groupBy selectors).Closed w outer := { h with }

end projection

section paging

/-- A criterion brings in no query. -/
theorem pushOrder (h : b.Closed w outer) (order : Order) : (b.pushOrder order).Closed w outer := by
  unfold Builder.pushOrder
  split <;> exact { h with }

/-- Ordering brings in no query. -/
theorem orderBy (h : b.Closed w outer) (column : String) (direction : Except Error Direction) :
    (b.orderBy column direction).Closed w outer := by
  refine of_unlessFailed h ?_
  cases direction with
  | ok direction => exact h.pushOrder _
  | error e => exact h.fail e

theorem reorder (h : b.Closed w outer) : b.reorder.Closed w outer := { h with }

theorem limitTo (h : b.Closed w outer) (count : Nat) : (b.limitTo count).Closed w outer := by
  unfold Builder.limitTo
  split <;> exact { h with }

theorem skip (h : b.Closed w outer) (count : Nat) : (b.skip count).Closed w outer := by
  unfold Builder.skip
  split <;> exact { h with }

end paging

section sources

/-- A registered collection is no query variable. -/
theorem register [Naming] (h : b.Closed w outer) (table : String) :
    (b.register table).2.2.Closed w outer ∧
      (b.register table).2.2.definedNames = b.definedNames := by
  unfold Builder.register
  generalize tableAndAlias table = named
  exact ⟨h.withAliases rfl, rfl⟩

/-- A collection as the source brings in no query. -/
theorem fromCollection [Naming] (h : b.Closed w outer) (table : String) :
    (b.fromCollection table).Closed w outer := by
  obtain ⟨hregistered, -⟩ := h.register table
  unfold Builder.fromCollection
  generalize b.register table = named at hregistered ⊢
  exact hregistered.withSource (.collection named.1 named.2.1) fun _ hq => nomatch hq

/-- A view as the source brings in no query. -/
theorem fromView [Naming] (h : b.Closed w outer) (view : String) :
    (b.fromView view).Closed w outer := by
  obtain ⟨hregistered, -⟩ := h.register view
  unfold Builder.fromView
  generalize b.register view = named at hregistered ⊢
  exact hregistered.withSource (.view named.1 named.2.1) fun _ hq => nomatch hq

/-- The registered name of a derived source is no query variable. -/
theorem registerQuery [Naming] (h : b.Closed w outer) (query : Builder) (asName : String) :
    (b.registerQuery query asName).2.Closed w outer ∧
      (b.registerQuery query asName).2.definedNames = b.definedNames := by
  unfold Builder.registerQuery
  refine ⟨h.withAliases ?_, rfl⟩
  split <;> rfl

/-- A closed sub-query as the source keeps a builder closed. -/
theorem fromQuery [Naming] (h : b.Closed w outer) (hS : S ⊆ outer) (hsub : sub.Closed S outer)
    (asName : String) : (b.fromQuery sub asName).Always (Closed w outer) := by
  refine always_unlessFailedM h ((h.adopt hS hsub .source).bind fun ⟨query, taken⟩ hresult => ?_)
  obtain ⟨hregistered, hnames⟩ := hresult.builder.registerQuery query asName
  dsimp only at hregistered hnames ⊢
  have hquery := hresult.query
  rw [← hresult.names, ← hnames] at hquery
  generalize taken.registerQuery query asName = named at hregistered hquery ⊢
  refine always_pure (hregistered.withSource (.derived (.of query) named.1) fun q hq => ?_)
  rw [List.mem_singleton.mp hq]
  exact Query.closed_of.mpr hquery

/-- A join may know what the builder around it knows. -/
theorem pushJoin (h : b.Closed w outer) (kind : JoinKind) {joined : Builder}
    (hjoined : joined.Closed false (outer ++ b.definedNames)) :
    (b.pushJoin kind joined).Closed w outer := by
  have habsorbed := h.absorb joined .join
  rw [← definedNames_absorb b joined .join] at hjoined
  unfold Builder.pushJoin
  generalize b.absorb joined .join = absorbed at habsorbed hjoined ⊢
  refine { habsorbed with joins := fun j hj => ?_ }
  rcases List.mem_append.mp hj with hold | hnew
  · exact habsorbed.joins j hold
  · rw [List.mem_singleton.mp hnew]
    exact Query.closed_of.mpr hjoined

/-- A join keeps a builder closed if its conditions do. -/
theorem joinWith [Naming] (h : b.Closed w outer) (hS : S ⊆ outer) (kind : JoinKind) (table : String)
    {restrict : Builder → Supply Builder} (hrestrict : KeepsClosed S false restrict) :
    (b.joinWith kind table restrict).Always (Closed w outer) := by
  refine always_unlessFailedM h ?_
  obtain ⟨hregistered, -⟩ := h.register table
  generalize b.register table = named at hregistered ⊢
  obtain ⟨name, docVar, registered⟩ := named
  refine (hregistered.forSubQuery false).bind fun start hstart => ?_
  have hopened := hstart.withSource (.collection name docVar) fun _ hq => nomatch hq
  have hSall : S ⊆ outer ++ registered.definedNames :=
    fun name hname => List.mem_append_left _ (hS hname)
  exact (hrestrict _ _ hSall hopened).map fun joined hjoined => hregistered.pushJoin kind hjoined

/-- A join by one comparison keeps a builder closed. -/
theorem join [Naming] (h : b.Closed w outer) (kind : JoinKind) (table first second : String) :
    (b.join kind table first operator second).Always (Closed w outer) :=
  h.joinWith (List.nil_subset _) kind table fun _ _ _ hjoined =>
    always_pure (hjoined.compareColumns .and first second)

/-- A join without conditions keeps a builder closed. -/
theorem crossJoin [Naming] (h : b.Closed w outer) (table : String) :
    (b.crossJoin table).Always (Closed w outer) :=
  h.joinWith (List.nil_subset _) .cross table fun _ _ _ hjoined => always_pure hjoined

/-- A join with a closed sub-query keeps a builder closed. -/
theorem joinQuery [Naming] (h : b.Closed w outer) (hS : S ⊆ outer) (kind : JoinKind)
    (hsub : sub.Closed S outer) (asName first second : String) :
    (b.joinQuery kind sub asName first operator second).Always (Closed w outer) := by
  refine always_unlessFailedM h ((h.adopt hS hsub .join).bind fun ⟨query, taken⟩ hresult => ?_)
  obtain ⟨hregistered, hnames⟩ := hresult.builder.registerQuery query asName
  dsimp only at hregistered hnames ⊢
  have hquery := hresult.query
  rw [← hresult.names, ← hnames] at hquery
  generalize taken.registerQuery query asName = named at hregistered hquery ⊢
  obtain ⟨docVar, registered⟩ := named
  refine (hregistered.forSubQuery false).map fun start hstart => ?_
  have hopened := hstart.withSource (.derived (.of query) docVar) fun q hq => by
    rw [List.mem_singleton.mp hq]
    exact Query.closed_of.mpr (hquery.around (List.subset_append_left _ _))
  exact hregistered.pushJoin kind (hopened.compareColumns .and first second)

/-- What is combined with a query knows its variables, too. -/
theorem union [Naming] (h : b.Closed w outer) (hS : S ⊆ outer) (all : Bool)
    (hsub : sub.Closed S outer) :
    (b.union all sub).Always (Closed w outer) := by
  refine always_unlessFailedM h ((h.adopt hS hsub .union).map fun ⟨query, taken⟩ hresult => ?_)
  have hquery := hresult.query.withTables taken.aliases
  have hbuilder := hresult.builder.withTables (query.aliases.importTables taken.aliases)
  refine { hbuilder with unions := fun u hu => ?_ }
  rcases List.mem_append.mp hu with hold | hnew
  · exact hbuilder.unions u hold
  · rw [List.mem_singleton.mp hnew]
    exact hresult.names ▸ Query.closed_of.mpr hquery

/-- A search brings in no query. -/
theorem fullTextSearch (h : b.Closed w outer) (fields : List (Selector Query)) (text : Value)
    (analyzer : Option String) : (b.fullTextSearch fields text analyzer).Closed w outer := by
  refine of_fullTextSearch h (h.fail _) (h.fail _) ?_
  rintro _ _ rfl rfl - -
  have hfirst := (h.bindValue text .search).1
  have hsecond := (hfirst.bindValue (.string (analyzer.getD defaultAnalyzer)) .search).1
  exact { hsecond with }

end sources

section bindings

/-- A value that is added brings in no query. -/
theorem addBinding (h : b.Closed w outer) (v : Value) (category : String) :
    (b.addBinding v category).Closed w outer := by
  refine of_unlessFailed h ?_
  cases Category.ofName category with
  | ok c => exact h.withBindings (b.bindings.add v c).2 b.error
  | error e => exact h.fail e

/-- Values that are added bring in no query. -/
theorem addBindings (h : b.Closed w outer) (operands : List (Operand Builder)) (category : String) :
    (b.addBindings operands category).Closed w outer := by
  refine of_unlessFailed h ?_
  generalize Operand.values operands = values
  induction values generalizing b with
  | nil => exact h
  | cons v rest ih => exact ih (h.addBinding v category)

/-- The values of another builder bring in no query. -/
theorem mergeBindings (h : b.Closed w outer) (other : Builder) (category : Option Category) :
    (b.mergeBindings other category).Closed w outer := by
  unfold Builder.mergeBindings
  exact h.withBindings _ b.error

end bindings

end AqlBuilder.Builder.Closed

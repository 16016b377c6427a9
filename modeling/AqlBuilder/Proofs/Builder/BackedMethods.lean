import AqlBuilder.Builder.Basic
import AqlBuilder.Builder.Projection
import AqlBuilder.Proofs.Builder.Backed

/-!
# Every method keeps builders backed

The methods one by one: given arguments without marks, values that are filed and sub-queries that
are backed, each method leaves a backed builder.

- `Builder.Backed.push` and its neighbours add a clause that the store backs.
- `Builder.Backed.select`: with the old projection go the names under its category.
- `Builder.Backed.nested`: a group of conditions is backed by the store that takes it over.
-/

namespace AqlBuilder.Builder.Backed

open Supply

variable {outer : Set String} {b : Builder} {sub : SubQuery} {column : String}
  {operator : Except Error Operator} {o : Operand Builder}

section conditions

/-- A test that refers to names of the builder may be added. -/
theorem push (h : b.Backed outer) (list : ConditionList) (connector : Connector) {test : Test Query}
    (htest : test.Within (b.bindings.kept ∪ outer) (Query.Within (b.bindings.kept ∪ outer))) :
    Backed outer (b.push list connector test) := by
  cases list with
  | filters =>
      refine ⟨h.named, { h.within with filters := fun x hx => ?_ }⟩
      rcases List.mem_append.mp hx with hold | hnew
      · exact h.within.filters x hold
      · rw [List.mem_singleton.mp hnew]
        exact htest
  | havings =>
      refine ⟨h.named, { h.within with havings := fun x hx => ?_ }⟩
      rcases List.mem_append.mp hx with hold | hnew
      · exact h.within.havings x hold
      · rw [List.mem_singleton.mp hnew]
        exact htest

theorem category_ne_select (list : ConditionList) : list.category ≠ .select := by
  cases list <;> decide

/-- A column against a sub-query that was taken over. -/
theorem within_queryTest (hcolumn : Unmarked column) {operator : Operator}
    (hoperator : Unmarked operator.text) {category : Category} (hc : category ≠ .select)
    {result : Builder × Builder} (h : Adopted outer category result) :
    (queryTest column operator result.1).Within (result.2.bindings.kept ∪ outer)
      (Query.Within (result.2.bindings.kept ∪ outer)) := by
  have hquery := h.asValue.within_kept hc
  unfold queryTest
  dsimp only
  split
  · exact ⟨hcolumn, hquery⟩
  · exact ⟨hcolumn, hoperator, hquery⟩

/-- A comparison with an operand refers to what the operand refers to. -/
theorem within_valueTest {names : Set String} (hcolumn : Unmarked column) {operator : Operator}
    (hoperator : Unmarked operator.text) {bound : Bound} (hbound : bound.Within names) :
    (valueTest column operator bound).Within names (Query.Within names) := by
  unfold valueTest
  split
  · exact ⟨hcolumn, hbound⟩
  · split
    · exact ⟨hcolumn, hbound⟩
    · exact ⟨hcolumn, hoperator, hbound⟩

/-- A comparison with an operand is added with its value filed. -/
theorem addComparison [Naming] (h : b.Backed outer) (list : ConditionList) (connector : Connector)
    (hcolumn : Unmarked column) {operator : Operator} (hoperator : Unmarked operator.text)
    (ho : o.Backed outer) :
    (b.addComparison list connector column operator o).Always (Backed outer) := by
  have hc := category_ne_select list
  cases ho with
  | @value v hv =>
      have hbound := h.bindValue hv.cast list.category hc
      exact always_addComparison_value b list connector column operator
        (fun _ => h.push list connector hcolumn)
        (hbound.builder.push list connector (within_valueTest hcolumn hoperator hbound.bound))
        fun _ => h.fail _
  | @expression aql haql =>
      rw [addComparison_expression b list connector column operator aql]
      have hbound : (Bound.raw aql).Within (b.bindings.kept ∪ outer) := haql.covered
      exact always_pure (h.push list connector (within_valueTest hcolumn hoperator hbound))
  | @column name hname =>
      rw [addComparison_column b list connector column operator name]
      have hbound : (Bound.column name).Within (b.bindings.kept ∪ outer) := hname
      exact always_pure (h.push list connector (within_valueTest hcolumn hoperator hbound))
  | query hq =>
      refine (h.adopt (.finished hq) list.category).map fun result hresult => ?_
      exact hresult.builder.push list connector (within_queryTest hcolumn hoperator hc hresult)

/-- A condition keeps a builder backed, with a legal operator or without one. -/
theorem withOperator (h : b.Backed outer) {add : Builder → Operator → Supply Builder}
    (hoperator : ∀ o, operator = .ok o → Unmarked o.text)
    (hadd : ∀ o : Operator, Unmarked o.text → (add b o).Always (Backed outer)) :
    (b.withOperator operator add).Always (Backed outer) := by
  refine always_unlessFailedM h ?_
  cases operator with
  | ok o => exact hadd o (hoperator o rfl)
  | error e => exact always_pure (h.fail e)

/-- A condition on a column keeps a builder backed. -/
theorem condition [Naming] (h : b.Backed outer) (list : ConditionList) (connector : Connector)
    (hcolumn : Unmarked column) (hoperator : ∀ o, operator = .ok o → Unmarked o.text)
    (ho : o.Backed outer) :
    (b.condition list connector column operator o).Always (Backed outer) :=
  h.withOperator hoperator fun _ hop => h.addComparison list connector hcolumn hop ho

/-- A comparison of two columns refers to nothing. -/
theorem compareColumns (h : b.Backed outer) (connector : Connector) {first second : String}
    (hfirst : Unmarked first) (hoperator : ∀ o, operator = .ok o → Unmarked o.text)
    (hsecond : Unmarked second) :
    Backed outer (b.compareColumns connector first operator second) := by
  refine of_unlessFailed h ?_
  cases operator with
  | ok o => exact h.push .filters connector ⟨hfirst, hoperator o rfl, hsecond⟩
  | error e => exact h.fail e

/-- A membership in given values keeps a builder backed. -/
theorem member [Naming] (h : b.Backed outer) (connector : Connector) (negated : Bool)
    (hcolumn : Unmarked column) {values : Value} (hvalues : values.Filed) :
    (b.member connector negated column values).Always (Backed outer) := by
  refine h.condition .filters connector hcolumn (fun o ho => ?_) (.value hvalues)
  cases ho
  exact Aql.unmarked_membership negated

/-- A membership in the rows of a sub-query keeps a builder backed. -/
theorem memberOfQuery [Naming] (h : b.Backed outer) (negated : Bool) (hcolumn : Unmarked column)
    (hsub : sub.Backed outer) : (b.memberOfQuery negated column sub).Always (Backed outer) := by
  refine always_unlessFailedM h ((h.adopt hsub .filter).map fun result hresult => ?_)
  exact hresult.builder.push .filters .and
    (within_queryTest hcolumn (Aql.unmarked_membership negated) (by decide) hresult)

/-- A membership in given numbers keeps a builder backed. -/
theorem memberOf (h : b.Backed outer) (negated : Bool) (hcolumn : Unmarked column)
    (values : List Int) : Backed outer (b.memberOf negated column values) :=
  of_unlessFailed h (h.push .filters .and hcolumn)

/-- A test for a range keeps a builder backed if neither bound is a reference. -/
theorem between (h : b.Backed outer) (list : ConditionList) (connector : Connector) (negated : Bool)
    (hcolumn : Unmarked column) {bounds : Value}
    (hbounds : ∀ low high, bounds.bounds? = some (low, high) →
      low.reference? = none ∧ high.reference? = none) :
    Backed outer (b.between list connector negated column bounds) := by
  rw [between_eq]
  refine of_unlessFailed h ?_
  have hc := category_ne_select list
  cases hvalue : bounds.bounds? with
  | none => exact h.fail _
  | some pair =>
      obtain ⟨low, high⟩ := pair
      obtain ⟨hlow, hhigh⟩ := hbounds low high hvalue
      have hfirst := h.bindValue hlow list.category hc
      have hsecond := hfirst.builder.bindValue hhigh list.category hc
      have hkept := hfirst.bound.mono (Set.union_subset_union_left outer hsecond.grows.kept)
      exact hsecond.builder.push list connector ⟨hcolumn, hkept, hsecond.bound⟩

/-- What a query refers to is backed by the builder that takes over its values, also where the query
relies on what that builder had before. -/
theorem absorbed (h : b.Backed outer) {inner : Builder}
    (hinner : inner.Backed (b.bindings.kept ∪ outer)) (category : Category)
    (hc : category ≠ .select) :
    Backed outer (b.absorb inner category) ∧
      (Query.of inner).Within ((b.absorb inner category).bindings.kept ∪ outer) := by
  have hgrows := b.bindings.grows_merge inner.bindings (some category)
  have hfiled : inner.bindings.names ⊆ (b.absorb inner category).bindings.kept :=
    fun name hname =>
      ⟨category, hc, b.bindings.names_subset_merge inner.bindings category name hname⟩
  have hsub : inner.bindings.names ∪ (b.bindings.kept ∪ outer) ⊆
      (b.absorb inner category).bindings.kept ∪ outer :=
    Set.union_subset (hfiled.trans Set.subset_union_left)
      (Set.union_subset_union_left outer hgrows.kept)
  exact ⟨h.absorb hinner.named category, Query.Within.mono hsub _ hinner.query_within⟩

/-- A group of conditions may refer to what its builder had before, and to what it has bound. -/
theorem nested (h : b.Backed outer) (connector : Connector) {make : Builder → Supply Builder}
    (hmake : KeepsBacked make) : (b.nested connector make).Always (Backed outer) := by
  refine always_unlessFailedM h ?_
  refine h.forNested.bind fun start hstart => (hmake _ start hstart).map fun group hgroup => ?_
  obtain ⟨hbuilder, hquery⟩ := h.absorbed hgroup .filter (by decide)
  split
  · exact hbuilder
  · exact hbuilder.push .filters connector hquery

/-- A test whether a sub-query has rows keeps a builder backed. -/
theorem hasRows [Naming] (h : b.Backed outer) (connector : Connector) (negated : Bool)
    (hsub : sub.Backed outer) : (b.hasRows connector negated sub).Always (Backed outer) := by
  refine always_unlessFailedM h ((h.adopt hsub .filter).map fun result hresult => ?_)
  exact hresult.builder.push .filters connector (hresult.within_kept (by decide))

/-- A comparison with the value of a sub-query keeps a builder backed. -/
theorem compareQuery [Naming] (h : b.Backed outer) (hcolumn : Unmarked column)
    (hoperator : ∀ o, operator = .ok o → Unmarked o.text) (hsub : sub.Backed outer) :
    (b.compareQuery column operator sub).Always (Backed outer) := by
  refine h.withOperator hoperator fun o hop => (h.adopt hsub .filter).map fun result hresult => ?_
  exact hresult.builder.push .filters .and (within_queryTest hcolumn hop (by decide) hresult)

/-- A condition in the caller's words keeps a builder backed if it has no marks. -/
theorem rawCondition (h : b.Backed outer) (list : ConditionList) (connector : Connector)
    {aql : String} (haql : Unmarked aql) : Backed outer (b.rawCondition list connector aql) :=
  of_unlessFailed h (h.push list connector haql)

/-- A test whether a value is contained keeps a builder backed. -/
theorem contains (h : b.Backed outer) (negated : Bool) (hcolumn : Unmarked column) {v : Value}
    (hv : v.Filed) : Backed outer (b.contains negated column v) := by
  rw [contains_eq]
  have hbound := h.bindValue hv.cast .filter (by decide)
  exact of_unlessFailed h (hbound.builder.push .filters .and ⟨hcolumn, hbound.bound⟩)

/-- A condition on a length keeps a builder backed. -/
theorem length [Naming] (h : b.Backed outer) (hcolumn : Unmarked column)
    (hoperator : ∀ o, operator = .ok o → Unmarked o.text) (ho : o.Backed outer) :
    (b.length column operator o).Always (Backed outer) := by
  refine h.withOperator hoperator fun op hop => ?_
  refine (h.bind ho (by decide)).map fun result hresult => ?_
  exact hresult.builder.push .filters .and ⟨hcolumn, hop, hresult.bound⟩

/-- A condition on a part of a date keeps a builder backed. -/
theorem date [Naming] (h : b.Backed outer) (part : DatePart) (hcolumn : Unmarked column)
    (hoperator : ∀ o, operator = .ok o → Unmarked o.text) (ho : o.Backed outer) :
    (b.date part column operator o).Always (Backed outer) := by
  refine h.withOperator hoperator fun op hop => ?_
  refine (h.bind ho (by decide)).map fun result hresult => ?_
  exact hresult.builder.push .filters .and ⟨hcolumn, hop, hresult.bound⟩

/-- A test against a pattern keeps a builder backed. -/
theorem like [Naming] (h : b.Backed outer) (connector : Connector) (hcolumn : Unmarked column)
    {v : Value} (hv : v.Filed) (caseSensitive : Bool) :
    (b.like connector column v caseSensitive).Always (Backed outer) := by
  refine h.condition .filters connector hcolumn (fun o ho => ?_) (.value hv)
  cases ho
  split <;> decide

/-- A negated test against a pattern keeps a builder backed. -/
theorem notLike [Naming] (h : b.Backed outer) (hcolumn : Unmarked column) {v : Value}
    (hv : v.Filed) :
    (b.notLike column v).Always (Backed outer) := by
  refine h.condition .filters .and hcolumn (fun o ho => ?_) (.value hv)
  cases ho
  decide

end conditions

section projection

/-- A part of a projection may refer to all names of the store. -/
theorem selectOne (h : b.Backed outer) (selector : Selector Query)
    (hselector : selector.Within (Query.Within (b.bindings.names ∪ outer))) :
    Backed outer (b.selectOne selector) := by
  have hcolumns :
    ∀ s ∈ b.columns ++ [selector], s.Within (Query.Within (b.bindings.names ∪ outer)) := by
    intro s hs
    rcases List.mem_append.mp hs with hold | hnew
    · exact h.within.columns s hold
    · rw [List.mem_singleton.mp hnew]
      exact hselector
  have hadded : Backed outer { b with columns := b.columns ++ [selector] } :=
    ⟨h.named, { h.within with columns := hcolumns }⟩
  cases selector with
  | aliased column asName =>
      exact hadded.withAliases (h.within.aliases.registerColumn hselector.1 asName)
  | _ => exact hadded

/-- Columns without marks may be selected. -/
theorem addSelect (h : b.Backed outer) {selectors : List (Selector Query)}
    (hselectors : ∀ s ∈ selectors, s.Within fun _ => False) :
    Backed outer (b.addSelect selectors) := by
  induction selectors generalizing b with
  | nil => exact h
  | cons first rest ih =>
      have hfirst := hselectors first List.mem_cons_self
      exact ih (h.selectOne first (hfirst.mono fun _ hnone => hnone.elim))
        fun s hs => hselectors s (List.mem_cons_of_mem first hs)

/-- A new selection forgets the names that only the old one referred to. -/
theorem select (h : b.Backed outer) {selectors : List (Selector Query)}
    (hselectors : ∀ s ∈ selectors, s.Within fun _ => False) :
    Backed outer (b.select selectors) := by
  have hcleared : Backed outer
      { b with columns := [], bindings := b.bindings.set [] .select } := by
    refine ⟨Store.names_clear h.named, ?_⟩
    have hkept := b.bindings.kept_clear
    change Clauses.Within Query.Within ((b.bindings.set [] .select).kept ∪ outer) _ _
    rw [hkept]
    exact { h.within with columns := fun _ hs => (List.not_mem_nil hs).elim }
  exact hcleared.addSelect hselectors

/-- An expression without marks may be selected. -/
theorem selectRaw (h : b.Backed outer) {aql : String} (haql : Unmarked aql) {asName : Option String}
    (hname : ∀ name ∈ asName, Unmarked name) : Backed outer (b.selectRaw aql asName) :=
  h.selectOne (.raw aql asName) ⟨haql, hname⟩

/-- A sub-query that is selected refers to names that are filed for it. -/
theorem selectQuery [Naming] (h : b.Backed outer) (hsub : sub.Backed outer) {asName : String}
    (hname : Unmarked asName) : (b.selectQuery sub asName).Always (Backed outer) := by
  refine always_unlessFailedM h ((h.adopt hsub .select).map fun result hresult => ?_)
  have hadded := hresult.builder.selectOne (.sub _ asName)
    ⟨hresult.asValue.within_names, hname⟩
  exact hadded.withAliases (hresult.builder.within.aliases.registerVariable asName hname)

/-- A query variable may be defined as what refers to names of the builder. -/
theorem define (h : b.Backed outer) {name : String} (hname : Unmarked name)
    {value : Definition Query} (hvalue : value.Within (b.bindings.kept ∪ outer)
      (Query.Within (b.bindings.kept ∪ outer))) : Backed outer (b.define name value) := by
  refine ⟨h.named, { h.within with
    aliases := h.within.aliases.registerVariable name hname
    definitions := fun v hv => ?_ }⟩
  rcases List.mem_append.mp hv with hold | hnew
  · exact h.within.definitions v hold
  · rw [List.mem_singleton.mp hnew]
    exact ⟨hname, hvalue⟩

/-- A query variable may be set to an operand. -/
theorem set [Naming] (h : b.Backed outer) {name : String} (hname : Unmarked name)
    (ho : o.Backed outer) :
    (b.set name o).Always (Backed outer) := by
  refine always_unlessFailedM h ((h.bind ho (by decide)).map fun result hresult => ?_)
  exact hresult.builder.define hname hresult.bound

/-- A query variable may be set to a sub-query. -/
theorem setQuery [Naming] (h : b.Backed outer) {name : String} (hname : Unmarked name)
    (hsub : sub.Backed outer) : (b.setQuery name sub).Always (Backed outer) := by
  refine always_unlessFailedM h ((h.adopt hsub .definitions).map fun result hresult => ?_)
  exact hresult.builder.define hname (hresult.asValue.within_kept (by decide))

/-- Grouping by columns without marks refers to nothing. -/
theorem groupBy (h : b.Backed outer) {selectors : List (Selector Query)}
    (hselectors : ∀ s ∈ selectors, s.Within fun _ => True) :
    Backed outer (b.groupBy selectors) := by
  refine ⟨h.named, { h.within with groups := fun key hkey => ?_ }⟩
  rcases List.mem_append.mp hkey with hold | hnew
  · exact h.within.groups key hold
  · obtain ⟨selector, hselector, hsome⟩ := List.mem_filterMap.mp hnew
    have hclean := hselectors selector hselector
    cases selector with
    | column name =>
        cases hsome
        exact hclean
    | aliased name asName =>
        cases hsome
        exact hclean.1
    | raw aql asName =>
        cases hsome
        exact hclean.1
    | documents table => cases hsome
    | sub q asName => cases hsome

/-- Grouping by an expression without marks refers to nothing. -/
theorem groupByRaw (h : b.Backed outer) {aql : String} (haql : Unmarked aql) :
    Backed outer (b.groupByRaw aql) := by
  refine ⟨h.named, { h.within with groups := fun key hkey => ?_ }⟩
  rcases List.mem_append.mp hkey with hold | hnew
  · exact h.within.groups key hold
  · rw [List.mem_singleton.mp hnew]
    exact haql

end projection

section paging

/-- A criterion without marks may be added. -/
theorem pushOrder (h : b.Backed outer) {order : Order} (horder : order.Clean) :
    Backed outer (b.pushOrder order) := by
  unfold Builder.pushOrder
  split
  · refine ⟨h.named, { h.within with orders := fun x hx => ?_ }⟩
    rcases List.mem_append.mp hx with hold | hnew
    · exact h.within.orders x hold
    · rw [List.mem_singleton.mp hnew]
      exact horder
  · refine ⟨h.named, { h.within with unionOrders := fun x hx => ?_ }⟩
    rcases List.mem_append.mp hx with hold | hnew
    · exact h.within.unionOrders x hold
    · rw [List.mem_singleton.mp hnew]
      exact horder

/-- Ordering by a column without marks refers to nothing. -/
theorem orderBy (h : b.Backed outer) (hcolumn : Unmarked column)
    (direction : Except Error Direction) : Backed outer (b.orderBy column direction) := by
  refine of_unlessFailed h ?_
  cases direction with
  | ok direction => exact h.pushOrder hcolumn
  | error e => exact h.fail e

/-- The column of creation has no mark, be it given or by default. -/
theorem unmarked_creation {column : Option String} (h : ∀ c ∈ column, Unmarked c) :
    Unmarked (column.getD creationColumn) := by
  cases column with
  | none => exact (by decide : Unmarked creationColumn)
  | some c => exact h c rfl

/-- Dropping the orders keeps a builder backed. -/
theorem reorder (h : b.Backed outer) : Backed outer b.reorder :=
  ⟨h.named, { h.within with
    orders := fun _ ho => (List.not_mem_nil ho).elim
    unionOrders := fun _ ho => (List.not_mem_nil ho).elim }⟩

/-- A limit keeps a builder backed. -/
theorem limitTo (h : b.Backed outer) (count : Nat) : Backed outer (b.limitTo count) := by
  unfold Builder.limitTo
  split <;> exact ⟨h.named, { h.within with }⟩

/-- An offset keeps a builder backed. -/
theorem skip (h : b.Backed outer) (count : Nat) : Backed outer (b.skip count) := by
  unfold Builder.skip
  split <;> exact ⟨h.named, { h.within with }⟩

end paging

section sources

/-- A prefix without marks keeps a builder backed. -/
theorem withPrefix (h : b.Backed outer) {tablePrefix : String} (hpre : Unmarked tablePrefix) :
    Backed outer (b.withPrefix tablePrefix) :=
  ⟨h.named, { h.within with tablePrefix := hpre }⟩

/-- A registered collection and its variable have no marks. -/
theorem register [Naming] (h : b.Backed outer) {table : String} (htable : Unmarked table) :
    Unmarked (b.register table).1 ∧ Unmarked (b.register table).2.1 ∧
      Backed outer (b.register table).2.2 := by
  obtain ⟨hname, hasName⟩ := unmarked_tableAndAlias htable
  unfold Builder.register
  generalize tableAndAlias table = named at hname hasName ⊢
  obtain ⟨hvar, haliases⟩ := h.within.aliases.registerTable named.1 hasName
  exact ⟨hname, hvar, h.withAliases haliases⟩

/-- A source with a name without marks keeps a builder backed. -/
theorem fromCollection [Naming] (h : b.Backed outer) {table : String} (htable : Unmarked table) :
    Backed outer (b.fromCollection table) := by
  obtain ⟨hname, hvar, hregistered⟩ := h.register htable
  unfold Builder.fromCollection
  generalize b.register table = named at hname hvar hregistered ⊢
  exact hregistered.withSource (.collection named.1 named.2.1) ⟨hname, hvar⟩

/-- A view with a name without marks keeps a builder backed. -/
theorem fromView [Naming] (h : b.Backed outer) {view : String} (hview : Unmarked view) :
    Backed outer (b.fromView view) := by
  obtain ⟨hname, hvar, hregistered⟩ := h.register hview
  unfold Builder.fromView
  generalize b.register view = named at hname hvar hregistered ⊢
  exact hregistered.withSource (.view named.1 named.2.1) ⟨hname, hvar⟩

/-- The name of a derived source is registered and leaves the store alone. -/
theorem registerQuery [Naming] (h : b.Backed outer) (query : Builder) {asName : String}
    (hname : Unmarked asName) :
    Unmarked (b.registerQuery query asName).1 ∧ Backed outer (b.registerQuery query asName).2 ∧
      (b.registerQuery query asName).2.bindings = b.bindings := by
  have hregister : ∀ named : String × Registry, Unmarked named.1 ∧ named.2.Clean →
      Unmarked named.1 ∧ Backed outer { b with aliases := named.2 } ∧
        Clauses.bindings { b with aliases := named.2 } = b.bindings :=
    fun named hnamed => ⟨hnamed.1, h.withAliases hnamed.2, rfl⟩
  unfold Builder.registerQuery
  refine hregister _ ?_
  split
  · exact h.within.aliases.registerSubQuery query.id
  · refine h.within.aliases.registerTable asName fun name hsome => ?_
    cases hsome
    exact hname

/-- A sub-query as the source keeps a builder backed. -/
theorem fromQuery [Naming] (h : b.Backed outer) (hsub : sub.Backed outer) {asName : String}
    (hname : Unmarked asName) : (b.fromQuery sub asName).Always (Backed outer) := by
  refine always_unlessFailedM h ((h.adopt hsub .source).bind fun ⟨query, taken⟩ hresult => ?_)
  have hquery := hresult.within_kept (by decide)
  obtain ⟨hvar, hregistered, hbindings⟩ := hresult.builder.registerQuery query hname
  dsimp only at hquery hvar hregistered hbindings ⊢
  rw [← hbindings] at hquery
  generalize taken.registerQuery query asName = named at hvar hregistered hquery ⊢
  exact always_pure (hregistered.withSource (.derived (.of query) named.1) ⟨hquery, hvar⟩)

/-- A join may refer to the names of the builder around it. -/
theorem pushJoin (h : b.Backed outer) (kind : JoinKind) {joined : Builder}
    (hjoined : joined.Backed (b.bindings.kept ∪ outer)) :
    Backed outer (b.pushJoin kind joined) := by
  obtain ⟨hbuilder, hquery⟩ := h.absorbed hjoined .join (by decide)
  unfold Builder.pushJoin
  generalize b.absorb joined .join = absorbed at hbuilder hquery ⊢
  refine ⟨hbuilder.named, { hbuilder.within with joins := fun j hj => ?_ }⟩
  rcases List.mem_append.mp hj with hold | hnew
  · exact hbuilder.within.joins j hold
  · rw [List.mem_singleton.mp hnew]
    exact hquery

/-- A join keeps a builder backed if its conditions keep builders backed. -/
theorem joinWith [Naming] (h : b.Backed outer) (kind : JoinKind) {table : String}
    (htable : Unmarked table)
    {restrict : Builder → Supply Builder} (hrestrict : KeepsBacked restrict) :
    (b.joinWith kind table restrict).Always (Backed outer) := by
  refine always_unlessFailedM h ?_
  obtain ⟨hname, hvar, hregistered⟩ := h.register htable
  generalize b.register table = named at hname hvar hregistered ⊢
  obtain ⟨name, docVar, registered⟩ := named
  refine (hregistered.forSubQuery (registered.bindings.kept ∪ outer)).bind fun start hstart => ?_
  have hopened := hstart.withSource (.collection name docVar) ⟨hname, hvar⟩
  exact (hrestrict _ _ hopened).map fun joined hjoined => hregistered.pushJoin kind hjoined

/-- A join by one comparison keeps a builder backed. -/
theorem join [Naming] (h : b.Backed outer) (kind : JoinKind) {table first second : String}
    (htable : Unmarked table) (hfirst : Unmarked first)
    (hoperator : ∀ o, operator = .ok o → Unmarked o.text) (hsecond : Unmarked second) :
    (b.join kind table first operator second).Always (Backed outer) :=
  h.joinWith kind htable fun _ _ hjoined =>
    always_pure (hjoined.compareColumns .and hfirst hoperator hsecond)

/-- A join without conditions keeps a builder backed. -/
theorem crossJoin [Naming] (h : b.Backed outer) {table : String} (htable : Unmarked table) :
    (b.crossJoin table).Always (Backed outer) :=
  h.joinWith .cross htable fun _ _ hjoined => always_pure hjoined

/-- A join with a sub-query keeps a builder backed. -/
theorem joinQuery [Naming] (h : b.Backed outer) (kind : JoinKind) (hsub : sub.Backed outer)
    {asName first second : String} (hname : Unmarked asName) (hfirst : Unmarked first)
    (hoperator : ∀ o, operator = .ok o → Unmarked o.text) (hsecond : Unmarked second) :
    (b.joinQuery kind sub asName first operator second).Always (Backed outer) := by
  refine always_unlessFailedM h ((h.adopt hsub .join).bind fun ⟨query, taken⟩ hresult => ?_)
  have hquery := hresult.within_kept (by decide)
  obtain ⟨hvar, hregistered, hbindings⟩ := hresult.builder.registerQuery query hname
  dsimp only at hquery hvar hregistered hbindings ⊢
  rw [← hbindings] at hquery
  generalize taken.registerQuery query asName = named at hvar hregistered hquery ⊢
  obtain ⟨docVar, registered⟩ := named
  refine (hregistered.forSubQuery (registered.bindings.kept ∪ outer)).map fun start hstart => ?_
  have hopened := hstart.withSource (.derived (.of query) docVar)
    ⟨Query.Within.mono Set.subset_union_right _ hquery, hvar⟩
  exact hregistered.pushJoin kind (hopened.compareColumns .and hfirst hoperator hsecond)

/-- A union keeps a builder backed. -/
theorem union [Naming] (h : b.Backed outer) (all : Bool) (hsub : sub.Backed outer) :
    (b.union all sub).Always (Backed outer) := by
  refine always_unlessFailedM h ((h.adopt hsub .union).map fun result hresult => ?_)
  obtain ⟨hown, hother⟩ :=
    hresult.builder.within.aliases.exchangeTables hresult.query.within.aliases
  have hquery : Adopted outer .union
      ({ result.1 with aliases := (result.2.aliases.exchangeTables result.1.aliases).2 },
        result.2) :=
    ⟨hresult.query.withAliases hother, hresult.builder, hresult.filed⟩
  refine ⟨hresult.builder.named, { hresult.builder.within with
    aliases := hown
    unions := fun u hu => ?_ }⟩
  rcases List.mem_append.mp hu with hold | hnew
  · exact hresult.builder.within.unions u hold
  · rw [List.mem_singleton.mp hnew]
    exact hquery.within_kept (by decide)

/-- A search keeps a builder backed if its text is filed and its analyzer is no reference. -/
theorem fullTextSearch (h : b.Backed outer) {fields : List (Selector Query)}
    (hfields : ∀ s ∈ fields, s.Within fun _ => True) {text : Value} (htext : text.Filed)
    {analyzer : Option String} (hanalyzer : ∀ a ∈ analyzer, isPlaceholder a = false) :
    Backed outer (b.fullTextSearch fields text analyzer) := by
  refine of_fullTextSearch h (h.fail _) (h.fail _) ?_
  rintro _ _ rfl rfl - -
  have hname : (Value.string (analyzer.getD defaultAnalyzer)).reference? = none := by
    cases analyzer with
    | none => decide
    | some a => simp [Value.reference?, hanalyzer a rfl]
  have hfirst := h.bindValue htext.reference? .search (by decide)
  have hsecond := hfirst.builder.bindValue hname .search (by decide)
  have hkept := hfirst.bound.mono (Set.union_subset_union_left outer hsecond.grows.kept)
  refine ⟨hsecond.builder.named, { hsecond.builder.within with search := fun s hs => ?_ }⟩
  cases hs
  refine ⟨fun field hfield => ?_, hkept, hsecond.bound⟩
  obtain ⟨selector, hselector, hsome⟩ := List.mem_filterMap.mp hfield
  have hclean := hfields selector hselector
  cases selector with
  | column name =>
      cases hsome
      exact hclean
  | aliased name asName =>
      cases hsome
      exact hclean.1
  | raw aql asName => cases hsome
  | documents table => cases hsome
  | sub q asName => cases hsome

end sources

section bindings

/-- A value that is added brings in a name. -/
theorem addBinding (h : b.Backed outer) (v : Value) (category : String) :
    Backed outer (b.addBinding v category) := by
  refine of_unlessFailed h ?_
  cases Category.ofName category with
  | ok c => exact h.withStore (b.bindings.grows_add v c) (Store.names_add h.named)
  | error e => exact h.fail e

/-- Values that are added bring in names. -/
theorem addBindings (h : b.Backed outer) (operands : List (Operand Builder)) (category : String) :
    Backed outer (b.addBindings operands category) := by
  refine of_unlessFailed h ?_
  generalize Operand.values operands = values
  induction values generalizing b with
  | nil => exact h
  | cons v rest ih => exact ih (h.addBinding v category)

/-- The values of another builder bring in names. -/
theorem mergeBindings (h : b.Backed outer) {other : Builder}
    (hother : ∀ name ∈ other.bindings.names, IsName name) (category : Option Category) :
    Backed outer (b.mergeBindings other category) :=
  h.withStore (b.bindings.grows_merge other.bindings category) (Store.names_merge h.named hother)

end bindings

end AqlBuilder.Builder.Backed

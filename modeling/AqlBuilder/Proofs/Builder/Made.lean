import AqlBuilder.Alias.Rules
import AqlBuilder.Builder.Basic
import AqlBuilder.Builder.Projection
import AqlBuilder.Proofs.Alias.Registry
import AqlBuilder.Proofs.Builder.Reference
import AqlBuilder.Proofs.Column.Parsed
import AqlBuilder.Proofs.Query.Copy

/-!
# The builders that methods make

A method changes a builder in a few ways: it registers names, sets a source, adds a part to one of
the clauses, or changes something that no other part of the builder depends on. The builders that
come about by such changes are given by an inductive predicate with a rule for each change. What
holds of an empty builder and is kept by each rule holds of everything that methods make.

- `Builder.SameParts`: two builders have the same parts with queries, and the same names.
- `Builder.Made` has the rules.
- `SubQuery.Made` is a sub-query argument that is made by methods, or makes such builders.
- The lemmas about the methods say that each of them leaves a builder that is made.
-/

namespace AqlBuilder

open Supply

/-- Two builders have the same names and the same parts in which there may be queries. -/
structure Builder.SameParts (b b' : Builder) : Prop where
  source : b'.source = b.source
  columns : b'.columns = b.columns
  filters : b'.filters = b.filters
  joins : b'.joins = b.joins
  havings : b'.havings = b.havings
  unions : b'.unions = b.unions
  definitions : b'.definitions = b.definitions
  aliases : b'.aliases = b.aliases

/-- The builders that methods make. -/
inductive Builder.Made [Naming] : Builder → Prop
  | empty (id : Nat) : Made (Clauses.empty id)
  /-- A change of the other parts. -/
  | changed {b b' : Builder} (h : Made b) (hparts : b.SameParts b') : Made b'
  | registered {b : Builder} (h : Made b) (table : String) {asName : Option String}
      (hname : ∀ v ∈ asName, v ≠ "") :
      Made { b with aliases := (b.aliases.registerTable table asName).2 }
  /-- The collections of another builder. -/
  | informed {b c : Builder} (h : Made b) (hc : Made c) :
      Made { b with aliases := b.aliases.importTables c.aliases }
  /-- The query variables of another builder. -/
  | acquainted {b c : Builder} (h : Made b) (hc : Made c) :
      Made { b with aliases := b.aliases.importVariables c.aliases }
  /-- A query variable is a reference to itself. -/
  | announced {b : Builder} (h : Made b) (name : String) :
      Made { b with aliases := b.aliases.registerVariable name name }
  | projected {b : Builder} (h : Made b) (column asName : String) :
      Made { b with aliases := b.aliases.registerColumn column asName }
  /-- The variable of a source is registered before. -/
  | sourced {b : Builder} (h : Made b) {s : Source Query}
      (hname : b.aliases.isTableVariable s.docVar = true) (hs : ∀ q ∈ s.queries, Made q.clauses) :
      Made { b with source := some s }
  | unselected {b : Builder} (h : Made b) : Made { b with columns := [] }
  | selected {b : Builder} (h : Made b) {s : Selector Query}
      (hs : ∀ q ∈ s.queries, Made q.clauses) :
      Made { b with columns := b.columns ++ [s] }
  /-- A group of conditions is only added if there are any. -/
  | conditioned {b : Builder} (h : Made b) (list : ConditionList) (connector : Connector)
      {t : Test Query} (ht : ∀ q ∈ t.queries, Made q.clauses)
      (hgroup : ∀ c, t = .nested (.of c) → c.filters ≠ []) : Made (b.push list connector t)
  | joined {b c : Builder} (h : Made b) (kind : JoinKind) (hc : Made c) :
      Made { b with joins := b.joins ++ [⟨kind, .of c⟩] }
  | united {b c : Builder} (h : Made b) (all : Bool) (hc : Made c) :
      Made { b with unions := b.unions ++ [⟨.of c, all⟩] }
  | defined {b : Builder} (h : Made b) {v : LetVariable Query}
      (hv : ∀ q ∈ v.value.queries, Made q.clauses) :
      Made { b with definitions := b.definitions ++ [v] }
  | copied {b : Builder} (h : Made b) (next : Nat) : Made (b.copyOf next).1
  | grouping {b : Builder} (h : Made b) (next : Nat) : Made (b.forNested next).1

/-- An action that makes a builder of one that is made. -/
def Builder.Makes [Naming] (make : Builder → Supply Builder) : Prop :=
  ∀ b : Builder, b.Made → (make b).Always Builder.Made

/-- A sub-query argument that is made, or makes builders. -/
inductive SubQuery.Made [Naming] : SubQuery → Prop
  | finished {sub : Builder} (h : sub.Made) : Made (.finished sub)
  | closure {make : Builder → Supply Builder} (h : Builder.Makes make) : Made (.closure make)

/-- An operand whose query is made. -/
def Operand.Made [Naming] (o : Operand Builder) : Prop := ∀ q, o = .query q → Builder.Made q

/-- A test that may be added: its queries are made, and it is no empty group. -/
structure Test.Made [Naming] (t : Test Query) : Prop where
  queries : ∀ q ∈ t.queries, Builder.Made q.clauses
  group : ∀ c, t = .nested (.of c) → c.filters ≠ []

/-- A test without queries may be added. -/
theorem Test.Made.of_bare [Naming] {t : Test Query} (h : t.queries = []) : t.Made := by
  constructor
  · rw [h]
    exact fun _ hq => nomatch hq
  · rintro c rfl
    cases h

/-- A generated variable is not empty. -/
theorem Alias.documentVariable_ne_empty [Naming] (table : String) :
    documentVariable table ≠ "" := by
  unfold documentVariable elementVariable
  simp [defaultPostfix]

namespace Registry

variable {r : Registry} {table v : String}

/-- A collection is found under the variable that it is registered with. -/
theorem tableVariable?_registered [Naming] (r : Registry) (table : String)
    (asName : Option String) :
    (r.registerTable table asName).2.tableVariable? table =
      some (r.registerTable table asName).1 := by
  change (r.tables.put table _).get? table = _
  rw [Entries.get?_put, if_pos rfl]
  rfl

/-- An import into an empty registry brings every collection under its variable. -/
theorem isTableVariable_importTables (h : r.tableVariable? table = some v) :
    (empty.importTables r).isTableVariable v = true := by
  have hfound : (empty.importTables r).tableVariable? table = some v := by
    change (imported [] r.tables).get? table = _
    rw [get?_imported]
    exact h
  exact isTableVariable_of_tableVariable? hfound

end Registry

variable {b c : Builder} {sub : SubQuery} {operator : Except Error Operator} {o : Operand Builder}
  {column : String}

namespace Builder

variable [Naming]

/-- A comparison with an operand may be added. -/
theorem made_valueTest (column : String) (operator : Operator) (bound : Bound) :
    (valueTest column operator bound).Made := by
  unfold valueTest
  split
  · exact .of_bare rfl
  split
  · exact .of_bare rfl
  · exact .of_bare rfl

namespace Made

/-! ### Changes of a clause -/

theorem withBindings (h : b.Made) (s : Store) : Made { b with bindings := s } :=
  h.changed ⟨rfl, rfl, rfl, rfl, rfl, rfl, rfl, rfl⟩

/-- Neither values nor an error matter for how a builder was made. -/
theorem withError (h : b.Made) (s : Store) (error : Option Error) :
    Made { b with bindings := s, error := error } :=
  h.changed ⟨rfl, rfl, rfl, rfl, rfl, rfl, rfl, rfl⟩

theorem asValue (h : b.Made) : Made { b with singleValue := true } :=
  h.changed ⟨rfl, rfl, rfl, rfl, rfl, rfl, rfl, rfl⟩

theorem fail (h : b.Made) (e : Error) : (b.fail e).Made :=
  h.changed ⟨rfl, rfl, rfl, rfl, rfl, rfl, rfl, rfl⟩

theorem absorb (h : b.Made) (sub : Builder) (category : Category) : (b.absorb sub category).Made :=
  h.withError _ _

/-- Adding a test that may be added makes a builder. -/
theorem push (h : b.Made) (list : ConditionList) (connector : Connector) {t : Test Query}
    (ht : t.Made) : (b.push list connector t).Made :=
  h.conditioned list connector ht.queries ht.group

/-! ### New builders -/

theorem always_fresh : fresh.Always Made := fun next => .empty next

theorem always_copyOf (h : b.Made) : b.copyOf.Always Made := fun next => h.copied next

theorem always_forNested (h : b.Made) : b.forNested.Always Made := fun next => h.grouping next

/-- A builder for a sub-query knows each collection under its variable. -/
theorem always_forSubQuery (h : b.Made) : b.forSubQuery.Always fun c =>
    c.Made ∧ ∀ table v, b.aliases.tableVariable? table = some v →
      c.aliases.isTableVariable v = true := by
  intro next
  have hprefixed : Made { (Clauses.empty next : Builder) with tablePrefix := b.tablePrefix } :=
    (Made.empty next).changed ⟨rfl, rfl, rfl, rfl, rfl, rfl, rfl, rfl⟩
  exact ⟨(hprefixed.informed h).acquainted h, fun table v hv =>
    Registry.isTableVariable_importTables hv⟩

/-! ### Taking over sub-queries -/

/-- A source without queries, under the variable that a collection was registered with. -/
theorem named (h : b.Made) {s : Source Query} {table : String}
    (hname : b.aliases.tableVariable? table = some s.docVar) (hs : s.queries = []) :
    Made { b with source := some s } :=
  h.sourced (Registry.isTableVariable_of_tableVariable? hname) fun _ hq =>
    absurd (hs ▸ hq) List.not_mem_nil

/-- A sub-query under another variable. -/
theorem renamed (h : b.Made) (name : String) {s : Source Query} (hdocVar : s.docVar ≠ "")
    (hs : s.queries = []) : Made { b with
      source := some s
      aliases := (b.aliases.registerTable name (some s.docVar)).2 } := by
  have hregistered : Made { b with aliases := (b.aliases.registerTable name (some s.docVar)).2 } :=
    h.registered name fun w hw => Option.some.inj hw ▸ hdocVar
  exact hregistered.named (Registry.tableVariable?_registered b.aliases name (some s.docVar)) hs

/-- A sub-query that is made is made under another variable. -/
theorem rescoped (h : b.Made) (parent : Builder) : (parent.rescoped b).Made := by
  have hnumbered : ∀ {name docVar v : String}, parent.scopedVariable? b name docVar = some v →
      v ≠ "" := by
    intro name docVar v hv
    unfold scopedVariable? at hv
    split at hv
    case isTrue hgenerated =>
      rw [Bool.and_eq_true, decide_eq_true_iff] at hgenerated
      obtain rfl := Option.some.inj hv
      rw [hgenerated.2]
      simp [Alias.documentVariable_ne_empty]
    case isFalse => cases hv
  unfold Builder.rescoped
  split
  case h_1 name _ _ =>
    split
    case h_1 v hv => exact h.renamed (s := .collection name v) name (hnumbered hv) rfl
    case h_2 => exact h
  case h_2 name _ _ =>
    split
    case h_1 v hv => exact h.renamed (s := .view name v) name (hnumbered hv) rfl
    case h_2 => exact h
  case h_3 => exact h

/-- A sub-query that is made is made in the scope of a builder. -/
theorem scopedFor (h : b.Made) (parent : Builder) (category : Category) :
    (parent.scopedFor b category).Made := by
  unfold Builder.scopedFor
  split
  · exact h.rescoped parent
  · exact h

/-- A sub-query is made if its argument is. -/
theorem subBuilder (h : b.Made) (hsub : sub.Made) : (b.subBuilder sub).Always Made := by
  cases hsub with
  | finished hsub => exact always_pure (hsub.informed h)
  | closure hmake => exact h.always_forSubQuery.bind fun c hc => hmake c hc.1

/-- A sub-query that is taken over is made, and so is the builder afterwards. -/
theorem adopt (h : b.Made) (hsub : sub.Made) (category : Category) :
    (b.adopt sub category).Always fun result => result.1.Made ∧ result.2.Made :=
  (h.subBuilder hsub).bind fun _ hquery => always_pure
    ⟨hquery.scopedFor b category, h.absorb _ category⟩

/-- Binding a value makes a builder. -/
theorem bindValue (h : b.Made) (v : Value) (category : Category) :
    (b.bindValue v category).2.Made := by
  rw [bindValue_eq]
  cases v.reference? with
  | some text => exact h
  | none => exact h.withBindings _

/-- Binding an operand makes a builder. -/
theorem bind (h : b.Made) (o : Operand Builder) (category : Category) :
    (b.bind o category).Always fun result => result.2.Made := by
  cases o with
  | value v => exact always_pure (h.bindValue v category)
  | expression aql => exact always_pure h
  | column name => exact always_pure h
  | query q =>
      refine always_true.bind fun result _ => ?_
      cases result with
      | ok aql => exact always_pure (h.absorb _ category)
      | error e => exact always_pure (h.fail e)

/-! ### Conditions -/

/-- A comparison with a query that is made may be added. -/
theorem made_queryTest (hc : c.Made) (column : String) (operator : Operator) :
    (queryTest column operator c).Made := by
  have hquery : ∀ q ∈ [Query.of { c with singleValue := true }], Builder.Made q.clauses :=
    List.forall_mem_singleton.mpr hc.asValue
  unfold queryTest
  generalize Query.of { c with singleValue := true } = query at hquery
  dsimp only
  split
  · exact ⟨hquery, fun _ h => nomatch h⟩
  · exact ⟨hquery, fun _ h => nomatch h⟩

/-- Adding a comparison makes a builder. -/
theorem addComparison (h : b.Made) (list : ConditionList) (connector : Connector) (column : String)
    (operator : Operator) (ho : o.Made) :
    (b.addComparison list connector column operator o).Always Made := by
  cases o with
  | value v =>
      exact always_addComparison_value b list connector column operator
        (fun _ => h.push list connector (.of_bare rfl))
        ((h.bindValue _ list.category).push list connector (made_valueTest column operator _))
        fun _ => h.fail _
  | expression aql =>
      rw [addComparison_expression b list connector column operator aql]
      exact always_pure (h.push list connector (made_valueTest column operator _))
  | column name =>
      rw [addComparison_column b list connector column operator name]
      exact always_pure (h.push list connector (made_valueTest column operator _))
  | query q =>
      refine (h.adopt (.finished (ho q rfl)) list.category).map fun result hresult => ?_
      exact hresult.2.push list connector (made_queryTest hresult.1 column operator)

/-- A condition makes a builder, with a legal operator or without one. -/
theorem withOperator (h : b.Made) {add : Builder → Operator → Supply Builder}
    (hadd : ∀ o, (add b o).Always Made) : (b.withOperator operator add).Always Made := by
  refine always_unlessFailedM h ?_
  cases operator with
  | ok o => exact hadd o
  | error e => exact always_pure (h.fail e)

/-- A condition on a column makes a builder. -/
theorem condition (h : b.Made) (list : ConditionList) (connector : Connector) (column : String)
    (operator : Except Error Operator) (ho : o.Made) :
    (b.condition list connector column operator o).Always Made :=
  h.withOperator fun op => h.addComparison list connector column op ho

/-- A comparison of a column with a value makes a builder. -/
theorem conditionValue (h : b.Made) (list : ConditionList) (connector : Connector)
    (column : String) (operator : Except Error Operator) (v : Value) :
    (b.condition list connector column operator (.value v)).Always Made :=
  h.condition list connector column operator fun _ hq => nomatch hq

/-- A comparison of two columns makes a builder. -/
theorem compareColumns (h : b.Made) (connector : Connector) (first : String)
    (operator : Except Error Operator) (second : String) :
    (b.compareColumns connector first operator second).Made := by
  refine of_unlessFailed h ?_
  cases operator with
  | ok o => exact h.push .filters connector (.of_bare rfl)
  | error e => exact h.fail e

/-- A membership in the rows of a sub-query makes a builder. -/
theorem memberOfQuery (h : b.Made) (negated : Bool) (column : String) (hsub : sub.Made) :
    (b.memberOfQuery negated column sub).Always Made :=
  always_unlessFailedM h ((h.adopt hsub .filter).map fun _ hresult =>
    hresult.2.push .filters .and (made_queryTest hresult.1 column _))

/-- A test for a range makes a builder. -/
theorem between (h : b.Made) (list : ConditionList) (connector : Connector) (negated : Bool)
    (column : String) (bounds : Value) : (b.between list connector negated column bounds).Made := by
  rw [between_eq]
  refine of_unlessFailed h ?_
  cases bounds.bounds? with
  | none => exact h.fail _
  | some pair =>
      exact ((h.bindValue pair.1 list.category).bindValue pair.2 list.category).push list connector
        (.of_bare rfl)

/-- A group is added only if it has conditions. -/
theorem nested (h : b.Made) (connector : Connector) {make : Builder → Supply Builder}
    (hmake : Makes make) : (b.nested connector make).Always Made := by
  refine always_unlessFailedM h (h.always_forNested.bind fun start hstart => ?_)
  refine (hmake start hstart).map fun group hgroup => ?_
  split
  case isTrue => exact h.absorb group .filter
  case isFalse hfilled =>
    refine (h.absorb group .filter).push .filters connector
      ⟨List.forall_mem_singleton.mpr hgroup, fun c hc => ?_⟩
    obtain rfl : group = c := Query.of.inj (Test.nested.inj hc)
    exact fun hempty => hfilled (List.isEmpty_iff.mpr hempty)

/-- A test whether a sub-query has rows makes a builder. -/
theorem hasRows (h : b.Made) (connector : Connector) (negated : Bool) (hsub : sub.Made) :
    (b.hasRows connector negated sub).Always Made := by
  refine always_unlessFailedM h ((h.adopt hsub .filter).map fun ⟨query, taken⟩ hresult => ?_)
  exact hresult.2.push .filters connector
    ⟨List.forall_mem_singleton.mpr hresult.1, fun _ h => nomatch h⟩

/-- A comparison with the value of a sub-query makes a builder. -/
theorem compareQuery (h : b.Made) (column : String) (hsub : sub.Made) :
    (b.compareQuery column operator sub).Always Made :=
  h.withOperator fun op => (h.adopt hsub .filter).map fun _ hresult =>
    hresult.2.push .filters .and (made_queryTest hresult.1 column op)

/-- A test whether a value is contained makes a builder. -/
theorem contains (h : b.Made) (negated : Bool) (column : String) (v : Value) :
    (b.contains negated column v).Made := by
  rw [contains_eq]
  exact of_unlessFailed h ((h.bindValue v.cast .filter).push .filters .and (.of_bare rfl))

/-- A condition on a length makes a builder. -/
theorem length (h : b.Made) (column : String) (o : Operand Builder) :
    (b.length column operator o).Always Made :=
  h.withOperator fun _ => (h.bind o .filter).map fun _ hresult =>
    hresult.push .filters .and (.of_bare rfl)

/-- A condition on a part of a date makes a builder. -/
theorem date (h : b.Made) (part : DatePart) (column : String) (o : Operand Builder) :
    (b.date part column operator o).Always Made :=
  h.withOperator fun _ => (h.bind o .filter).map fun _ hresult =>
    hresult.push .filters .and (.of_bare rfl)

/-! ### Projections and query variables -/

/-- Selecting one part of a projection makes a builder. -/
theorem selectOne (h : b.Made) (s : Selector Query) (hs : ∀ q ∈ s.queries, Builder.Made q.clauses) :
    (b.selectOne s).Made := by
  cases s with
  | aliased column asName => exact (h.projected column asName).selected hs
  | _ => exact h.selected hs

/-- Adding to the projection makes a builder. -/
theorem addSelect (h : b.Made) {selectors : List (Selector Query)}
    (hs : ∀ s ∈ selectors, ∀ q ∈ s.queries, Builder.Made q.clauses) :
    (b.addSelect selectors).Made := by
  induction selectors generalizing b with
  | nil => exact h
  | cons first rest ih =>
      exact ih (h.selectOne first (hs first List.mem_cons_self))
        fun s hrest => hs s (List.mem_cons_of_mem first hrest)

/-- Selecting makes a builder. -/
theorem select (h : b.Made) {selectors : List (Selector Query)}
    (hs : ∀ s ∈ selectors, ∀ q ∈ s.queries, Builder.Made q.clauses) :
    (b.select selectors).Made := by
  have hcleared : Made { b with columns := [], bindings := b.bindings.set [] .select } :=
    h.unselected.withBindings _
  exact hcleared.addSelect hs

/-- Selecting a sub-query makes a builder. -/
theorem selectQuery (h : b.Made) (hsub : sub.Made) (asName : String) :
    (b.selectQuery sub asName).Always Made :=
  always_unlessFailedM h ((h.adopt hsub .select).map fun _ hresult =>
    (hresult.2.announced asName).selected (List.forall_mem_singleton.mpr hresult.1.asValue))

/-- Defining a query variable makes a builder. -/
theorem define (h : b.Made) (name : String) {value : Definition Query}
    (hvalue : ∀ q ∈ value.queries, Builder.Made q.clauses) : (b.define name value).Made :=
  (h.announced name).defined (v := ⟨name, value⟩) hvalue

/-- Setting a query variable to an operand makes a builder. -/
theorem set (h : b.Made) (name : String) (o : Operand Builder) : (b.set name o).Always Made :=
  always_unlessFailedM h ((h.bind o .definitions).map fun _ hresult =>
    hresult.define name fun _ hq => nomatch hq)

/-- Setting a query variable to a sub-query makes a builder. -/
theorem setQuery (h : b.Made) (name : String) (hsub : sub.Made) :
    (b.setQuery name sub).Always Made :=
  always_unlessFailedM h ((h.adopt hsub .definitions).map fun _ hresult =>
    hresult.2.define name (List.forall_mem_singleton.mpr hresult.1.asValue))

/-! ### Orders and limits -/

/-- Adding a criterion makes a builder. -/
theorem pushOrder (h : b.Made) (order : Order) : (b.pushOrder order).Made := by
  unfold Builder.pushOrder
  split
  · exact h.changed ⟨rfl, rfl, rfl, rfl, rfl, rfl, rfl, rfl⟩
  · exact h.changed ⟨rfl, rfl, rfl, rfl, rfl, rfl, rfl, rfl⟩

/-- Ordering makes a builder. -/
theorem orderBy (h : b.Made) (column : String) (direction : Except Error Direction) :
    (b.orderBy column direction).Made := by
  refine of_unlessFailed h ?_
  cases direction with
  | ok direction => exact h.pushOrder _
  | error e => exact h.fail e

theorem reorder (h : b.Made) : b.reorder.Made :=
  h.changed ⟨rfl, rfl, rfl, rfl, rfl, rfl, rfl, rfl⟩

/-- Limiting makes a builder. -/
theorem limitTo (h : b.Made) (count : Nat) : (b.limitTo count).Made := by
  unfold Builder.limitTo
  split
  · exact h.changed ⟨rfl, rfl, rfl, rfl, rfl, rfl, rfl, rfl⟩
  · exact h.changed ⟨rfl, rfl, rfl, rfl, rfl, rfl, rfl, rfl⟩

/-- Skipping rows makes a builder. -/
theorem skip (h : b.Made) (count : Nat) : (b.skip count).Made := by
  unfold Builder.skip
  split
  · exact h.changed ⟨rfl, rfl, rfl, rfl, rfl, rfl, rfl, rfl⟩
  · exact h.changed ⟨rfl, rfl, rfl, rfl, rfl, rfl, rfl, rfl⟩

/-! ### Sources, joins and unions -/

/-- A collection is registered with the variable that it gets. -/
theorem register (h : b.Made) (table : String) : (b.register table).2.2.Made ∧
    (b.register table).2.2.aliases.tableVariable? (b.register table).1 =
      some (b.register table).2.1 :=
  ⟨h.registered _ (tableAndAlias_ne_empty table), Registry.tableVariable?_registered _ _ _⟩

/-- The name of a derived source is the variable of a collection afterwards. -/
theorem registerQuery (h : b.Made) (query : Builder) (asName : String) :
    (b.registerQuery query asName).2.Made ∧
      ∃ table, (b.registerQuery query asName).2.aliases.tableVariable? table =
        some (b.registerQuery query asName).1 := by
  unfold Builder.registerQuery
  by_cases hempty : asName.isEmpty = true
  · have hvariable : Registry.subQueryVariable query.id ≠ "" := by
      unfold Registry.subQueryVariable
      simp [Alias.defaultPostfix]
    rw [if_pos hempty]
    exact ⟨h.registered _ fun v hv => Option.some.inj hv ▸ hvariable, _,
      Registry.tableVariable?_registered _ _ _⟩
  · have hname : asName ≠ "" := fun h => hempty (String.isEmpty_iff.mpr h)
    rw [if_neg hempty]
    exact ⟨h.registered _ fun v hv => Option.some.inj hv ▸ hname, _,
      Registry.tableVariable?_registered _ _ _⟩

/-- A collection as the source makes a builder. -/
theorem fromCollection (h : b.Made) (table : String) : (b.fromCollection table).Made := by
  obtain ⟨hregistered, hname⟩ := h.register table
  unfold Builder.fromCollection
  generalize b.register table = named at hregistered hname ⊢
  exact hregistered.named (s := .collection named.1 named.2.1) hname rfl

/-- A view as the source makes a builder. -/
theorem fromView (h : b.Made) (view : String) : (b.fromView view).Made := by
  obtain ⟨hregistered, hname⟩ := h.register view
  unfold Builder.fromView
  generalize b.register view = named at hregistered hname ⊢
  exact hregistered.named (s := .view named.1 named.2.1) hname rfl

/-- A sub-query as the source makes a builder. -/
theorem fromQuery (h : b.Made) (hsub : sub.Made) (asName : String) :
    (b.fromQuery sub asName).Always Made := by
  refine always_unlessFailedM h ((h.adopt hsub .source).bind fun ⟨query, taken⟩ hresult => ?_)
  obtain ⟨hregistered, table, hname⟩ := hresult.2.registerQuery query asName
  dsimp only at hregistered hname ⊢
  generalize taken.registerQuery query asName = named at hregistered hname ⊢
  exact always_pure (hregistered.sourced (s := .derived (.of query) named.1)
    (Registry.isTableVariable_of_tableVariable? hname) (List.forall_mem_singleton.mpr hresult.1))

theorem pushJoin (h : b.Made) (kind : JoinKind) (hc : c.Made) : (b.pushJoin kind c).Made :=
  (h.absorb c .join).joined kind hc

/-- A join makes a builder if its conditions do. -/
theorem joinWith (h : b.Made) (kind : JoinKind) (table : String)
    {restrict : Builder → Supply Builder} (hrestrict : Makes restrict) :
    (b.joinWith kind table restrict).Always Made := by
  refine always_unlessFailedM h ?_
  obtain ⟨hregistered, hname⟩ := h.register table
  generalize b.register table = named at hregistered hname ⊢
  obtain ⟨name, docVar, registered⟩ := named
  refine hregistered.always_forSubQuery.bind fun start hstart => ?_
  have hopened := hstart.1.sourced (s := .collection name docVar) (hstart.2 name docVar hname)
    fun _ hq => nomatch hq
  exact (hrestrict _ hopened).map fun _ hjoined => hregistered.pushJoin kind hjoined

/-- A join by one comparison makes a builder. -/
theorem join (h : b.Made) (kind : JoinKind) (table first second : String) :
    (b.join kind table first operator second).Always Made :=
  h.joinWith kind table fun _ hjoined =>
    always_pure (hjoined.compareColumns .and first operator second)

theorem crossJoin (h : b.Made) (table : String) : (b.crossJoin table).Always Made :=
  h.joinWith .cross table fun _ hjoined => always_pure hjoined

/-- A join with a sub-query makes a builder. -/
theorem joinQuery (h : b.Made) (kind : JoinKind) (hsub : sub.Made) (asName first second : String) :
    (b.joinQuery kind sub asName first operator second).Always Made := by
  refine always_unlessFailedM h ((h.adopt hsub .join).bind fun ⟨query, taken⟩ hresult => ?_)
  obtain ⟨hregistered, table, hname⟩ := hresult.2.registerQuery query asName
  dsimp only at hregistered hname ⊢
  generalize taken.registerQuery query asName = named at hregistered hname ⊢
  obtain ⟨docVar, registered⟩ := named
  refine hregistered.always_forSubQuery.map fun start hstart => ?_
  have hopened := hstart.1.sourced (s := .derived (.of query) docVar) (hstart.2 table docVar hname)
    (List.forall_mem_singleton.mpr hresult.1)
  exact hregistered.pushJoin kind (hopened.compareColumns .and first operator second)

/-- A union makes a builder. -/
theorem union (h : b.Made) (all : Bool) (hsub : sub.Made) : (b.union all sub).Always Made :=
  always_unlessFailedM h ((h.adopt hsub .union).map fun _ hresult =>
    have hother := hresult.1.informed hresult.2
    (hresult.2.informed hother).united all hother)

/-- A search makes a builder. -/
theorem fullTextSearch (h : b.Made) (fields : List (Selector Query)) (text : Value)
    (analyzer : Option String) : (b.fullTextSearch fields text analyzer).Made := by
  refine of_fullTextSearch h (h.fail _) (h.fail _) ?_
  rintro _ _ rfl rfl - -
  have hboth := (h.bindValue text .search).bindValue
    (.string (analyzer.getD defaultAnalyzer)) .search
  exact hboth.changed ⟨rfl, rfl, rfl, rfl, rfl, rfl, rfl, rfl⟩

/-! ### Bound values -/

/-- Adding a value makes a builder. -/
theorem addBinding (h : b.Made) (v : Value) (category : String) :
    (b.addBinding v category).Made := by
  refine of_unlessFailed h ?_
  cases Category.ofName category with
  | ok c => exact h.withBindings (b.bindings.add v c).2
  | error e => exact h.fail e

/-- Adding values makes a builder. -/
theorem addBindings (h : b.Made) (operands : List (Operand Builder)) (category : String) :
    (b.addBindings operands category).Made := by
  refine of_unlessFailed h ?_
  generalize Operand.values operands = values
  induction values generalizing b with
  | nil => exact h
  | cons v rest ih => exact ih (h.addBinding v category)

end Made

end Builder

end AqlBuilder

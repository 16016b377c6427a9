import AqlBuilder.Builder.Basic
import AqlBuilder.Builder.Projection
import AqlBuilder.Builder.Source
import AqlBuilder.Proofs.Builder.Twin

/-!
# Methods of builders side by side

Each method keeps the builders of two runs side by side, as long as the values among its arguments
have the same shape and all other arguments are the same.
-/

namespace AqlBuilder.Builder.Twin

open Supply

variable {b b' q q' : Builder}

section bindings

/-- Twins stay twins when each gets a value. -/
theorem addBinding (h : b.Twin b') (v v' : Value) (category : String) :
    (b.addBinding v category).Twin (b'.addBinding v' category) := by
  refine h.unlessFailed ?_
  cases Category.ofName category with
  | ok c => exact h.file v v' c
  | error e => exact h.fail e

/-- Twins stay twins when each gets as many operands. -/
theorem addBindings (h : b.Twin b') {r : Builder → Builder → Prop}
    {operands operands' : List (Operand Builder)}
    (ho : List.Forall₂ (Operand.Twin r) operands operands') (category : String) :
    (b.addBindings operands category).Twin (b'.addBindings operands' category) := by
  refine h.unlessFailed ?_
  induction ho generalizing b b' with
  | nil => exact h
  | cons hoperand _ ih =>
      cases hoperand with
      | value hv => exact ih (h.addBinding _ _ category)
      | expression aql => exact ih h
      | column name => exact ih h
      | query hq => exact ih h

/-- Twins stay twins when their values are replaced under the same names. -/
theorem setBindings (h : b.Twin b') {values values' : Bindings}
    (hvalues : values.keys = values'.keys) (category : Category) :
    (b.setBindings values category).Twin (b'.setBindings values' category) :=
  h.withBindings (h.bindings.set category hvalues)

/-- Twins stay twins when they take over the values of twins. -/
theorem mergeBindings (h : b.Twin b') (hq : q.Twin q') (category : Option Category) :
    (b.mergeBindings q category).Twin (b'.mergeBindings q' category) :=
  h.withBindings (h.bindings.merge hq.bindings category)

end bindings

section conditions

/-- Twins stay twins when they get tests that look alike. -/
theorem push (h : b.Twin b') (list : ConditionList) (connector : Connector) {t t' : Test Query}
    (ht : t.map Query.face = t'.map Query.face) :
    (b.push list connector t).Twin (b'.push list connector t') := by
  cases list with
  | filters =>
      refine { h with filters := ?_ }
      simp only [Builder.push, List.map_append, h.filters, List.map_cons, List.map_nil,
        Condition.map, ht]
  | havings =>
      refine { h with havings := ?_ }
      simp only [Builder.push, List.map_append, h.havings, List.map_cons, List.map_nil,
        Condition.map, ht]

/-- Twins stay twins if they return values. -/
theorem singleValued (h : q.Twin q') :
    Twin { q with singleValue := true } { q' with singleValue := true } :=
  { h with singleValue := rfl }

/-- Comparisons with twin queries look alike. -/
theorem queryTest (hq : q.Twin q') (column : String) (operator : Operator) :
    (queryTest column operator q).map Query.face =
      (Builder.queryTest column operator q').map Query.face := by
  have hface := hq.singleValued.face.symm
  unfold Builder.queryTest
  by_cases hmember : operator.isMembership
  · simp only [hmember, if_true, Test.map, hface]
  · simp only [hmember, if_false, Bool.false_eq_true, Test.map, hface]

/-- A condition looks at the kind of a value and at nothing else in it. -/
theorem addComparison [Naming] (h : b.Twin b') (list : ConditionList) (connector : Connector)
    (column : String) (operator : Operator) {o o' : Operand Builder} (ho : o.Twin Twin o') :
    Supply.Twin Twin (b.addComparison list connector column operator o)
      (b'.addComparison list connector column operator o') := by
  cases ho with
  | @value v v' hv =>
      by_cases hnull : v.cast = .null
      · have hnull' : v'.cast = .null := by
          rw [← Value.kind_eq_null, ← hv.kind, Value.kind_eq_null]
          exact hnull
        rw [addComparison_null _ _ _ _ _ hnull, addComparison_null _ _ _ _ _ hnull']
        refine twin_pure ?_
        split
        · exact h.push list connector rfl
        · exact h.fail _
      · have hnull' : v'.cast ≠ .null := by
          rw [Ne, ← Value.kind_eq_null, ← hv.kind, Value.kind_eq_null]
          exact hnull
        rw [addComparison_value _ _ _ _ _ hnull, addComparison_value _ _ _ _ _ hnull', ← hv.kind]
        have href : v.cast.reference? = v'.cast.reference? := by rw [hv.plain, hv.plain']
        obtain ⟨hbound, hbuilder⟩ := h.bindValue href list.category
        refine twin_pure ?_
        split
        · exact h.fail _
        · rw [hbound]
          exact hbuilder.push list connector rfl
  | query hq =>
      refine (h.adopt (.finished hq) list.category).map fun p p' hp => ?_
      exact hp.2.push list connector (hp.1.queryTest column operator)
  | expression aql =>
      rw [addComparison_expression, addComparison_expression]
      exact twin_pure (h.push list connector rfl)
  | column name =>
      rw [addComparison_column, addComparison_column]
      exact twin_pure (h.push list connector rfl)

/-- Twins stay twins when they get a condition with twin operands. -/
theorem condition [Naming] (h : b.Twin b') (list : ConditionList) (connector : Connector)
    (column : String)
    (operator : Except Error Operator) {o o' : Operand Builder} (ho : o.Twin Twin o') :
    Supply.Twin Twin (b.condition list connector column operator o)
      (b'.condition list connector column operator o') := by
  refine h.unlessFailedM ?_
  cases operator with
  | ok operator => exact h.addComparison list connector column operator ho
  | error e => exact twin_pure (h.fail e)

/-- Twins stay twins when they get a membership in values of the same shape. -/
theorem member [Naming] (h : b.Twin b') (connector : Connector) (negated : Bool) (column : String)
    {v v' : Value} (hv : v.SameShape v') :
    Supply.Twin Twin (b.member connector negated column v)
      (b'.member connector negated column v') := by
  unfold Builder.member
  exact h.condition .filters connector column _ (.value hv)

/-- Twins stay twins when they get tests against patterns of the same shape. -/
theorem like [Naming] (h : b.Twin b') (connector : Connector) (column : String) {v v' : Value}
    (hv : v.SameShape v') (caseSensitive : Bool) :
    Supply.Twin Twin (b.like connector column v caseSensitive)
      (b'.like connector column v' caseSensitive) := by
  unfold Builder.like
  exact h.condition .filters connector column _ (.value hv)

/-- Twins stay twins when they get negated tests against patterns of the same shape. -/
theorem notLike [Naming] (h : b.Twin b') (column : String) {v v' : Value} (hv : v.SameShape v') :
    Supply.Twin Twin (b.notLike column v) (b'.notLike column v') := by
  unfold Builder.notLike
  exact h.condition .filters .and column _ (.value hv)

/-- Twins stay twins in a condition, with a legal operator or without one. -/
theorem withOperator (h : b.Twin b') (operator : Except Error Operator)
    {f g : Builder → Operator → Supply Builder}
    (hfg : ∀ operator, Supply.Twin Twin (f b operator) (g b' operator)) :
    Supply.Twin Twin (b.withOperator operator f) (b'.withOperator operator g) := by
  refine h.unlessFailedM ?_
  cases operator with
  | ok operator => exact hfg operator
  | error e => exact twin_pure (h.fail e)

/-- Twins stay twins when they get the same comparison of columns. -/
theorem compareColumns (h : b.Twin b') (connector : Connector) (first : String)
    (operator : Except Error Operator) (second : String) :
    (b.compareColumns connector first operator second).Twin
      (b'.compareColumns connector first operator second) := by
  refine h.unlessFailed ?_
  cases operator with
  | ok operator => exact h.push .filters connector rfl
  | error e => exact h.fail e

/-- Twins stay twins when they get a membership in the rows of twins. -/
theorem memberOfQuery [Naming] (h : b.Twin b') (negated : Bool) (column : String)
    {sub sub' : SubQuery} (hsub : sub.Twin sub') :
    Supply.Twin Twin (b.memberOfQuery negated column sub)
      (b'.memberOfQuery negated column sub') := by
  refine h.unlessFailedM ((h.adopt hsub .filter).map fun p p' hp => ?_)
  exact hp.2.push .filters .and (hp.1.queryTest column _)

/-- Twins stay twins when they get a membership in the same numbers. -/
theorem memberOf (h : b.Twin b') (negated : Bool) (column : String) (values : List Int) :
    (b.memberOf negated column values).Twin (b'.memberOf negated column values) :=
  h.unlessFailed (h.push .filters .and rfl)

/-- Twins stay twins when they get tests for ranges whose bounds are treated alike. -/
theorem between (h : b.Twin b') (list : ConditionList) (connector : Connector) (negated : Bool)
    (column : String) {bounds bounds' : Value} (hbounds : bounds.SameBounds bounds') :
    (b.between list connector negated column bounds).Twin
      (b'.between list connector negated column bounds') := by
  rw [between_eq, between_eq]
  refine h.unlessFailed ?_
  have hsome := hbounds.isSome
  cases hv : bounds.bounds? with
  | none =>
      rw [hv] at hsome
      have hnone : bounds'.bounds? = none :=
        Option.not_isSome_iff_eq_none.mp (by rw [← hsome]; exact Bool.false_ne_true)
      rw [hnone]
      exact h.fail _
  | some pair =>
      obtain ⟨low, high⟩ := pair
      rw [hv] at hsome
      obtain ⟨⟨low', high'⟩, hv'⟩ := Option.isSome_iff_exists.mp hsome.symm
      rw [hv']
      have hitems := Value.bounds?_eq_some.mp hv
      have hitems' := Value.bounds?_eq_some.mp hv'
      have hplain := hbounds.plain [low, high] (by rw [hitems]; rfl)
      have hplain' := hbounds.plain' [low', high'] (by rw [hitems']; rfl)
      have hlow : low.reference? = low'.reference? := by
        rw [hplain low (by simp), hplain' low' (by simp)]
      have hhigh : high.reference? = high'.reference? := by
        rw [hplain high (by simp), hplain' high' (by simp)]
      obtain ⟨hl, hfirst⟩ := h.bindValue hlow list.category
      obtain ⟨hh, hsecond⟩ := hfirst.bindValue hhigh list.category
      refine hsecond.push list connector ?_
      rw [hl, hh]

/-- Twins stay twins when they get twin groups of conditions. -/
theorem nested (h : b.Twin b') (connector : Connector) {f g : Builder → Supply Builder}
    (hfg : TwinAction f g) : Supply.Twin Twin (b.nested connector f) (b'.nested connector g) := by
  refine h.unlessFailedM
    (h.forNested.bind fun q q' hq => (hfg q q' hq).map fun group group' hg => ?_)
  have habsorbed := h.absorb hg .filter
  rw [isEmpty_eq hg.filters]
  split
  · exact habsorbed
  · refine habsorbed.push .filters connector ?_
    simp only [Test.map, hg.face]

/-- Twins stay twins when they are asked whether twins have rows. -/
theorem hasRows [Naming] (h : b.Twin b') (connector : Connector) (negated : Bool)
    {sub sub' : SubQuery} (hsub : sub.Twin sub') :
    Supply.Twin Twin (b.hasRows connector negated sub) (b'.hasRows connector negated sub') := by
  refine h.unlessFailedM ((h.adopt hsub .filter).map fun p p' hp => ?_)
  refine hp.2.push .filters connector ?_
  simp only [Test.map, hp.1.face]

/-- Twins stay twins when they get a comparison with the values of twins. -/
theorem compareQuery [Naming] (h : b.Twin b') (column : String) (operator : Except Error Operator)
    {sub sub' : SubQuery} (hsub : sub.Twin sub') :
    Supply.Twin Twin (b.compareQuery column operator sub)
      (b'.compareQuery column operator sub') := by
  refine h.withOperator operator fun operator => (h.adopt hsub .filter).map fun p p' hp => ?_
  exact hp.2.push .filters .and (hp.1.queryTest column operator)

/-- Twins stay twins when they are asked for values of the same shape. -/
theorem contains (h : b.Twin b') (negated : Bool) (column : String) {v v' : Value}
    (hv : v.SameShape v') :
    (b.contains negated column v).Twin (b'.contains negated column v') := by
  have harray : v.cast.items?.isSome = v'.cast.items?.isSome := by
    rw [Bool.eq_iff_iff, ← Value.kind_eq_array, ← Value.kind_eq_array, hv.kind]
  have href : v.cast.reference? = v'.cast.reference? := by rw [hv.plain, hv.plain']
  obtain ⟨hbound, hbuilder⟩ := h.bindValue href .filter
  rw [contains_eq, contains_eq]
  refine h.unlessFailed ?_
  rw [hbound, harray]
  exact hbuilder.push .filters .and rfl

/-- A test that is made from a bound operand. -/
theorem boundTest [Naming] (h : b.Twin b') {o o' : Operand Builder} (ho : o.Twin Twin o')
    (make : Bound → Test Query) :
    Supply.Twin Twin
      (do
        let (value, b) ← b.bind o .filter
        pure (b.push .filters .and (make value)))
      (do
        let (value, b) ← b'.bind o' .filter
        pure (b.push .filters .and (make value))) := by
  refine (h.bind ho .filter).bind fun p p' hp => ?_
  obtain ⟨bound, c⟩ := p
  obtain ⟨bound', c'⟩ := p'
  obtain ⟨hbound, hc⟩ := hp
  dsimp only at hbound hc
  subst hbound
  exact twin_pure (hc.push .filters .and rfl)

/-- Twins stay twins when they get a condition on a length with twin operands. -/
theorem length [Naming] (h : b.Twin b') (column : String) (operator : Except Error Operator)
    {o o' : Operand Builder} (ho : o.Twin Twin o') :
    Supply.Twin Twin (b.length column operator o) (b'.length column operator o') :=
  h.withOperator operator fun operator => h.boundTest ho (.length column operator)

/-- Twins stay twins when they get a condition on a part of a date with twin operands. -/
theorem date [Naming] (h : b.Twin b') (part : DatePart) (column : String)
    (operator : Except Error Operator) {o o' : Operand Builder} (ho : o.Twin Twin o') :
    Supply.Twin Twin (b.date part column operator o) (b'.date part column operator o') :=
  h.withOperator operator fun operator => h.boundTest ho (.date part column operator)

end conditions

section projection

/-- Twins stay twins when they select parts that look alike. -/
theorem selectOne (h : b.Twin b') {s s' : Selector Query}
    (hs : s.map Query.face = s'.map Query.face) : (b.selectOne s).Twin (b'.selectOne s') := by
  have hcolumns : (b.columns ++ [s]).map (Selector.map Query.face) =
      (b'.columns ++ [s']).map (Selector.map Query.face) := by
    simp only [List.map_append, h.columns, List.map_cons, List.map_nil, hs]
  cases s <;> cases s' <;> simp only [Selector.map, Selector.aliased.injEq, reduceCtorEq] at hs
  case aliased.aliased column asName column' asName' =>
    obtain ⟨rfl, rfl⟩ := hs
    have haliases := congrArg (Registry.registerColumn · column asName) h.aliases
    exact { h with columns := hcolumns, aliases := haliases }
  all_goals exact { h with columns := hcolumns }

/-- Twins stay twins when parts that look alike are added to their projections. -/
theorem addSelect (h : b.Twin b') {selectors selectors' : List (Selector Query)}
    (hs : List.Forall₂ (fun s s' => s.map Query.face = s'.map Query.face) selectors selectors') :
    (b.addSelect selectors).Twin (b'.addSelect selectors') := by
  induction hs generalizing b b' with
  | nil => exact h
  | cons hs _ ih => exact ih (h.selectOne hs)

/-- Twins stay twins when they select parts that look alike instead of their own. -/
theorem select (h : b.Twin b') {selectors selectors' : List (Selector Query)}
    (hs : List.Forall₂ (fun s s' => s.map Query.face = s'.map Query.face) selectors selectors') :
    (b.select selectors).Twin (b'.select selectors') := by
  refine addSelect ?_ hs
  exact { (h.withBindings (h.bindings.set .select rfl)) with columns := rfl }

/-- Twins stay twins when they select the same expression. -/
theorem selectRaw (h : b.Twin b') (aql : String) (asName : Option String) :
    (b.selectRaw aql asName).Twin (b'.selectRaw aql asName) :=
  { h with columns := by simp only [List.map_append, h.columns, Builder.selectRaw] }

/-- Twins stay twins when they select twin sub-queries. -/
theorem selectQuery [Naming] (h : b.Twin b') {sub sub' : SubQuery} (hsub : sub.Twin sub')
    (asName : String) :
    Supply.Twin Twin (b.selectQuery sub asName) (b'.selectQuery sub' asName) := by
  refine h.unlessFailedM ((h.adopt hsub .select).map fun p p' hp => ?_)
  have hface := hp.1.singleValued.face
  exact { hp.2 with
    columns := by simp only [List.map_append, hp.2.columns, List.map_cons, List.map_nil,
      Selector.map, hface]
    aliases := by rw [hp.2.aliases] }

/-- Twins stay twins when they define a variable as what looks alike. -/
theorem define (h : b.Twin b') (name : String) {d d' : Definition Query}
    (hd : d.map Query.face = d'.map Query.face) :
    (b.define name d).Twin (b'.define name d') :=
  { h with
    aliases := by rw [Builder.define, h.aliases]; rfl
    definitions := by simp only [Builder.define, List.map_append, h.definitions, List.map_cons,
      List.map_nil, LetVariable.map, hd] }

/-- Twins stay twins when they set a variable to twin operands. -/
theorem set [Naming] (h : b.Twin b') (name : String) {o o' : Operand Builder}
    (ho : o.Twin Twin o') :
    Supply.Twin Twin (b.set name o) (b'.set name o') := by
  refine h.unlessFailedM ((h.bind ho .definitions).map fun p p' hp => ?_)
  exact hp.2.define name (by rw [hp.1])

/-- Twins stay twins when they set a variable to twin sub-queries. -/
theorem setQuery [Naming] (h : b.Twin b') (name : String) {sub sub' : SubQuery}
    (hsub : sub.Twin sub') :
    Supply.Twin Twin (b.setQuery name sub) (b'.setQuery name sub') := by
  refine h.unlessFailedM ((h.adopt hsub .definitions).map fun p p' hp => ?_)
  have hface := hp.1.singleValued.face
  exact hp.2.define name (by simp only [Definition.map, hface])

/-- Twins stay twins when they group by columns that look alike. -/
theorem groupBy (h : b.Twin b') {selectors selectors' : List (Selector Query)}
    (hs : List.Forall₂ (fun s s' => s.map Query.face = s'.map Query.face) selectors selectors') :
    (b.groupBy selectors).Twin (b'.groupBy selectors') := by
  have hkeys : selectors.filterMap groupKey? = selectors'.filterMap groupKey? := by
    induction hs with
    | nil => rfl
    | @cons s s' rest rest' hs _ ih =>
        have hkey : groupKey? s = groupKey? s' := by
          cases s <;> cases s' <;>
            simp only [Selector.map, Selector.column.injEq, Selector.aliased.injEq,
              Selector.raw.injEq, reduceCtorEq] at hs <;> simp [groupKey?, hs]
        rw [List.filterMap_cons, List.filterMap_cons, hkey, ih]
  exact { h with groups := by rw [Builder.groupBy, h.groups, hkeys]; rfl }

end projection

section paging

/-- Twins stay twins with one more criterion. -/
theorem pushOrder (h : b.Twin b') (order : Order) :
    (b.pushOrder order).Twin (b'.pushOrder order) := by
  unfold Builder.pushOrder
  rw [isEmpty_eq h.unions]
  split
  · exact { h with orders := by rw [h.orders] }
  · exact { h with unionOrders := by rw [h.unionOrders] }

/-- Twins stay twins when they are ordered alike. -/
theorem orderBy (h : b.Twin b') (column : String) (direction : Except Error Direction) :
    (b.orderBy column direction).Twin (b'.orderBy column direction) := by
  refine h.unlessFailed ?_
  cases direction with
  | ok direction => exact h.pushOrder _
  | error e => exact h.fail e

theorem reorder (h : b.Twin b') : b.reorder.Twin b'.reorder :=
  { h with orders := rfl, unionOrders := rfl }

/-- Twins stay twins when they are limited alike. -/
theorem limitTo (h : b.Twin b') (count : Nat) : (b.limitTo count).Twin (b'.limitTo count) := by
  unfold Builder.limitTo
  rw [isEmpty_eq h.unions]
  split
  · exact { h with limit := rfl }
  · exact { h with unionLimit := rfl }

/-- Twins stay twins when they skip as many rows. -/
theorem skip (h : b.Twin b') (count : Nat) : (b.skip count).Twin (b'.skip count) := by
  unfold Builder.skip
  rw [isEmpty_eq h.unions]
  split
  · exact { h with offset := rfl }
  · exact { h with unionOffset := rfl }

end paging

section sources

/-- Twins stay twins with another registry. -/
theorem withAliases (h : b.Twin b') (aliases : Registry) :
    Twin { b with aliases := aliases } { b' with aliases := aliases } :=
  { h with aliases := rfl }

/-- Twins register a collection under the same variable. -/
theorem register [Naming] (h : b.Twin b') (table : String) :
    (b.register table).1 = (b'.register table).1 ∧
      (b.register table).2.1 = (b'.register table).2.1 ∧
        (b.register table).2.2.Twin (b'.register table).2.2 := by
  unfold Builder.register
  rw [h.aliases]
  exact ⟨rfl, rfl, h.withAliases _⟩

/-- Twins register a derived source under the same variable. -/
theorem registerQuery [Naming] (h : b.Twin b') (hq : q.Twin q') (asName : String) :
    (b.registerQuery q asName).1 = (b'.registerQuery q' asName).1 ∧
      (b.registerQuery q asName).2.Twin (b'.registerQuery q' asName).2 := by
  have hid : q.id = q'.id := hq.bindings.id
  unfold Builder.registerQuery
  rw [h.aliases, hid]
  exact ⟨rfl, h.withAliases _⟩

/-- Twins stay twins with sources that look alike. -/
theorem withSource (h : b.Twin b') {s s' : Source Query}
    (hs : s.map Query.face = s'.map Query.face) :
    Twin { b with source := some s } { b' with source := some s' } :=
  { h with source := congrArg some hs }

/-- Twins stay twins over the same collection. -/
theorem fromCollection [Naming] (h : b.Twin b') (table : String) :
    (b.fromCollection table).Twin (b'.fromCollection table) := by
  obtain ⟨hname, hvariable, hbuilder⟩ := h.register table
  unfold Builder.fromCollection
  generalize b.register table = named at hname hvariable hbuilder ⊢
  generalize b'.register table = named' at hname hvariable hbuilder ⊢
  exact hbuilder.withSource (congrArg₂ Source.collection hname hvariable)

/-- Twins stay twins over the same view. -/
theorem fromView [Naming] (h : b.Twin b') (view : String) :
    (b.fromView view).Twin (b'.fromView view) := by
  obtain ⟨hname, hvariable, hbuilder⟩ := h.register view
  unfold Builder.fromView
  generalize b.register view = named at hname hvariable hbuilder ⊢
  generalize b'.register view = named' at hname hvariable hbuilder ⊢
  exact hbuilder.withSource (congrArg₂ Source.view hname hvariable)

/-- Twins stay twins over twin sub-queries. -/
theorem fromQuery [Naming] (h : b.Twin b') {sub sub' : SubQuery} (hsub : sub.Twin sub')
    (asName : String) :
    Supply.Twin Twin (b.fromQuery sub asName) (b'.fromQuery sub' asName) := by
  refine h.unlessFailedM ((h.adopt hsub .source).map fun p p' hp => ?_)
  obtain ⟨hvariable, hbuilder⟩ := hp.2.registerQuery hp.1 asName
  have hsource : Source.map Query.face (.derived (.of p.1) _) =
      Source.map Query.face (.derived (.of p'.1) _) :=
    congrArg₂ Source.derived hp.1.face.symm hvariable
  exact hbuilder.withSource hsource

/-- Twins stay twins with joins that look alike. -/
theorem withJoins (h : b.Twin b') {joins joins' : List (Join Query)}
    (hjoins : joins.map (Join.map Query.face) = joins'.map (Join.map Query.face)) :
    Twin { b with joins := joins } { b' with joins := joins' } :=
  { h with joins := hjoins }

/-- Twins stay twins when they join twins. -/
theorem pushJoin (h : b.Twin b') (kind : JoinKind) (hq : q.Twin q') :
    (b.pushJoin kind q).Twin (b'.pushJoin kind q') := by
  have habsorbed := h.absorb hq .join
  have hface := hq.face
  refine habsorbed.withJoins ?_
  simp only [List.map_append, habsorbed.joins, List.map_cons, List.map_nil, Join.map, hface]

/-- Twins stay twins when they join the same collection under twin conditions. -/
theorem joinWith [Naming] (h : b.Twin b') (kind : JoinKind) (table : String)
    {f g : Builder → Supply Builder} (hfg : TwinAction f g) :
    Supply.Twin Twin (b.joinWith kind table f) (b'.joinWith kind table g) := by
  obtain ⟨hname, hvariable, hbuilder⟩ := h.register table
  refine h.unlessFailedM ?_
  generalize b.register table = named at hname hvariable hbuilder ⊢
  generalize b'.register table = named' at hname hvariable hbuilder ⊢
  refine hbuilder.forSubQuery.bind fun joined joined' hjoined => ?_
  have hsource : Source.map Query.face (.collection named.1 named.2.1) =
      Source.map Query.face (.collection named'.1 named'.2.1) :=
    congrArg₂ Source.collection hname hvariable
  have hopened := hjoined.withSource hsource
  exact Supply.Twin.map (hfg _ _ hopened) fun c c' hc => hbuilder.pushJoin kind hc

/-- Twins stay twins when they join a collection by the same comparison. -/
theorem join [Naming] (h : b.Twin b') (kind : JoinKind) (table first : String)
    (operator : Except Error Operator) (second : String) :
    Supply.Twin Twin (b.join kind table first operator second)
      (b'.join kind table first operator second) := by
  unfold Builder.join
  exact h.joinWith kind table fun _ _ hj => twin_pure (hj.compareColumns .and first operator second)

/-- Twins stay twins when they join a collection without conditions. -/
theorem crossJoin [Naming] (h : b.Twin b') (table : String) :
    Supply.Twin Twin (b.crossJoin table) (b'.crossJoin table) := by
  unfold Builder.crossJoin
  exact h.joinWith .cross table fun _ _ hj => twin_pure hj

/-- Twins stay twins when they join twin sub-queries. -/
theorem joinQuery [Naming] (h : b.Twin b') (kind : JoinKind) {sub sub' : SubQuery}
    (hsub : sub.Twin sub')
    (asName first : String) (operator : Except Error Operator) (second : String) :
    Supply.Twin Twin (b.joinQuery kind sub asName first operator second)
      (b'.joinQuery kind sub' asName first operator second) := by
  refine h.unlessFailedM ((h.adopt hsub .join).bind fun p p' hp => ?_)
  obtain ⟨hvariable, hbuilder⟩ := hp.2.registerQuery hp.1 asName
  have hsource : Source.map Query.face (.derived (.of p.1) _) =
      Source.map Query.face (.derived (.of p'.1) _) :=
    congrArg₂ Source.derived hp.1.face.symm hvariable
  refine hbuilder.forSubQuery.map fun joined joined' hjoined => ?_
  exact hbuilder.pushJoin kind
    ((hjoined.withSource hsource).compareColumns .and first operator second)

/-- Twins stay twins when they are united with twins. -/
theorem union [Naming] (h : b.Twin b') (all : Bool) {sub sub' : SubQuery} (hsub : sub.Twin sub') :
    Supply.Twin Twin (b.union all sub) (b'.union all sub') := by
  refine h.unlessFailedM ((h.adopt hsub .union).map fun p p' hp => ?_)
  have hexchange : p.2.aliases.exchangeTables p.1.aliases =
      p'.2.aliases.exchangeTables p'.1.aliases := by rw [hp.1.aliases, hp.2.aliases]
  have hface := (hp.1.withAliases (p.2.aliases.exchangeTables p.1.aliases).2).face.symm
  have hunions : (p.2.unions.map (UnionBranch.map Query.face)) ++
        [⟨Query.face (.of { p.1 with
          aliases := (p.2.aliases.exchangeTables p.1.aliases).2 }), all⟩] =
      (p'.2.unions.map (UnionBranch.map Query.face)) ++
        [⟨Query.face (.of { p'.1 with
          aliases := (p'.2.aliases.exchangeTables p'.1.aliases).2 }), all⟩] := by
    rw [← hexchange, hp.2.unions, hface]
  refine { hp.2 with aliases := congrArg Prod.fst hexchange, unions := ?_ }
  simp only [List.map_append, List.map_cons, List.map_nil, UnionBranch.map]
  exact hunions

/-- Of two twins either both iterate over a view or none. -/
theorem overView (h : b.Twin b') : b.overView = b'.overView := by
  have hsource := h.source
  unfold Builder.overView
  rcases hs : b.source with _ | ⟨name, v⟩ | ⟨name, v⟩ | ⟨sub, v⟩ <;>
    rcases hs' : b'.source with _ | ⟨name', v'⟩ | ⟨name', v'⟩ | ⟨sub', v'⟩ <;>
    simp only [hs, hs', Option.map_some, Option.map_none, Source.map, Option.some.injEq,
      reduceCtorEq] at hsource
  all_goals rfl

/-- Twins stay twins when they search alike, for any texts that are filed alike. -/
theorem fullTextSearch (h : b.Twin b') {fields fields' : List (Selector Query)}
    (hs : List.Forall₂ (fun s s' => s.map Query.face = s'.map Query.face) fields fields')
    {text text' : Value} (htext : text.reference? = text'.reference?)
    {analyzer analyzer' : Option String}
    (hanalyzer : (Value.string (analyzer.getD defaultAnalyzer)).reference? =
      (Value.string (analyzer'.getD defaultAnalyzer)).reference?) :
    (b.fullTextSearch fields text analyzer).Twin (b'.fullTextSearch fields' text' analyzer') := by
  have hfields : fields.filterMap Selector.column? = fields'.filterMap Selector.column? := by
    induction hs with
    | nil => rfl
    | @cons s s' rest rest' hs _ ih =>
        have hcolumn : s.column? = s'.column? := by
          cases s <;> cases s' <;>
            simp only [Selector.map, Selector.column.injEq, Selector.aliased.injEq,
              reduceCtorEq] at hs <;> simp [Selector.column?, hs]
        rw [List.filterMap_cons, List.filterMap_cons, hcolumn, ih]
  rw [fullTextSearch_eq, fullTextSearch_eq]
  refine h.unlessFailed ?_
  obtain ⟨hbound, hfirst⟩ := h.bindValue htext .search
  obtain ⟨hbound', hsecond⟩ := hfirst.bindValue hanalyzer .search
  rw [h.overView, hfields]
  dsimp only
  rw [hbound, hbound']
  split
  · split
    · exact h.fail _
    · exact { hsecond with search := rfl }
  · exact h.fail _

end sources

end AqlBuilder.Builder.Twin

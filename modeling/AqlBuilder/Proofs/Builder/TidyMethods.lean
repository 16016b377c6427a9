import AqlBuilder.Builder.Projection
import AqlBuilder.Proofs.Builder.Scoped
import AqlBuilder.Proofs.Builder.Tidy

/-!
# Every method keeps builders tidy

The methods one by one. A method that files values adds a clause that refers to them; this is where
the text of a search, the source and a group of conditions are different. A source or a search takes
the place of the one before it, so there must be no values of that one. And of a group only the
conditions are taken over, so all values of the group must belong to these.

- `Builder.Tidy.push` and its neighbours add a clause together with its values.
- `Builder.Tidy.select`: with the old projection go the values under its category.
- `Builder.Tidy.fullTextSearch`, `Builder.Tidy.fromQuery`: what takes the place of another clause.
- `Builder.Tidy.nested`: a group of conditions.
-/

namespace AqlBuilder.Builder

open Supply

variable {held ends : Set Category} {p : String → Prop} {filed : Prop} {b c w q : Builder}
  {name column : String} {o : Operand Builder} {sub : SubQuery} {operator : Except Error Operator}

section clauses

/-- Adding a test leaves the clauses that were there. -/
theorem keeps_push (w : Builder) (held : Set Category) (list : ConditionList)
    (connector : Connector) (t : Test Query) : w.Keeps held (w.push list connector t) := by
  cases list with
  | filters => exact { Clauses.Keeps.refl held w with filters := List.subset_append_left _ _ }
  | havings => exact { Clauses.Keeps.refl held w with havings := List.subset_append_left _ _ }

/-- Adding a test leaves the values. -/
theorem bindings_push (w : Builder) (list : ConditionList) (connector : Connector)
    (t : Test Query) : (w.push list connector t).bindings = w.bindings := by
  cases list <;> rfl

/-- A condition that was added refers to what its test refers to. -/
theorem cites_push {t : Test Query} (h : (t.map Query.fragment).Cites name) (w : Builder)
    (list : ConditionList) (connector : Connector) :
    (w.push list connector t).compiled.Cites name list.category := by
  have hmem : ∀ conditions : List (Condition Query),
      Condition.map Query.fragment (Condition.mk t connector) ∈
        (conditions ++ [Condition.mk t connector]).map (Condition.map Query.fragment) :=
    fun conditions =>
      List.mem_map_of_mem (List.mem_append_right conditions List.mem_cons_self)
  cases list with
  | filters => exact .filter (hmem w.filters) h
  | havings => exact .having (hmem w.havings) h

/-- A test refers to what one of its operands refers to. -/
theorem cites_operand {t : Test Query} {v : Bound} (hv : v ∈ t.operands) (h : v.Cites name) :
    (t.map Query.fragment).Cites name :=
  .operand (by rwa [Test.operands_map]) h

/-- The test of a column against a sub-query refers to what the sub-query refers to. -/
theorem cites_queryTest (h : q.Tells name) (hname : IsName name) (column : String)
    (operator : Operator) : ((queryTest column operator q).map Query.fragment).Cites name := by
  have hvalue : Builder.Tells { q with singleValue := true } name :=
    h.keep { Clauses.Keeps.refl _ q with }
  unfold queryTest
  dsimp only
  split
  · exact .member (hvalue.fragment hname)
  · exact .compared (hvalue.fragment hname)

/-- So does the test whether it has rows. -/
theorem cites_hasRows (h : q.Tells name) (hname : IsName name) (negated : Bool) :
    ((Test.hasRows (.of q) negated).map Query.fragment).Cites name :=
  .rows (h.fragment hname)

/-- The operand of a comparison is one of the operands of its test. -/
theorem operand_valueTest (column : String) (operator : Operator) (v : Bound) :
    v ∈ (valueTest column operator v).operands := by
  unfold valueTest
  split_ifs <;> exact List.mem_cons_self

namespace Tidy

/-- A condition is added together with the values that it refers to. -/
theorem push (h : b.Tidy held) (list : ConditionList) (hw : b.Gains held list.category p w)
    {t : Test Query} (hp : ∀ name, IsName name → p name →
      list.category ∈ held ∧ (t.map Query.fragment).Cites name) (connector : Connector) :
    (w.push list connector t).Tidy held := by
  have hpushed := hw.keep (w.keeps_push held list connector t) (w.bindings_push list connector t)
  refine h.gain subset_rfl hpushed fun name hname hnew => ?_
  obtain ⟨hheld, hcites⟩ := hp name hname hnew
  exact ⟨hheld, cites_push hcites w list connector⟩

/-- A condition without values. -/
theorem pushPlain (h : b.Tidy held) (list : ConditionList) (connector : Connector)
    (t : Test Query) : (b.push list connector t).Tidy held :=
  h.keep (b.keeps_push held list connector t) (b.bindings_push list connector t)

/-- A test without values leaves a builder tidy. -/
theorem addPlain (h : b.Tidy held) (list : ConditionList) (connector : Connector)
    (t : Test Query) : (b.unlessFailed fun b => b.push list connector t).Tidy held :=
  of_unlessFailed h (h.pushPlain list connector t)

end Tidy

end clauses

namespace Tidy

section conditions

/-- A comparison leaves a builder tidy if its values may be filed. -/
theorem addComparison [Naming] (h : b.Tidy held) (list : ConditionList) (connector : Connector)
    (column : String) (operator : Operator) (ho : o.Tidy (list.category ∈ held)) :
    (b.addComparison list connector column operator o).Always (Tidy held) := by
  cases o with
  | value v =>
      exact always_addComparison_value b list connector column operator
        (fun _ => h.pushPlain list connector _)
        (h.push list (b.gains_bindValue held v.cast list.category) (fun name _ hcites =>
          ⟨ho, cites_operand (operand_valueTest column operator _) hcites⟩) connector)
        fun _ => h.fail _
  | expression aql =>
      rw [addComparison_expression b list connector column operator aql]
      exact always_pure (h.pushPlain list connector _)
  | column name =>
      rw [addComparison_column b list connector column operator name]
      exact always_pure (h.pushPlain list connector _)
  | query q =>
      refine (gains_adopt (.finished ho) b held list.category).map fun result hresult => ?_
      exact h.push list hresult (fun name hname hnew =>
        ⟨hnew.1, cites_queryTest hnew.2 hname column operator⟩) connector

/-- A condition leaves a builder tidy, with a legal operator or without one. -/
theorem withOperator (h : b.Tidy held) {add : Builder → Operator → Supply Builder}
    (hadd : ∀ o, (add b o).Always (Tidy held)) :
    (b.withOperator operator add).Always (Tidy held) := by
  refine always_unlessFailedM h ?_
  cases operator with
  | ok o => exact hadd o
  | error e => exact always_pure (h.fail e)

/-- A condition on a column leaves a builder tidy if its values may be filed. -/
theorem condition [Naming] (h : b.Tidy held) (list : ConditionList) (connector : Connector)
    (ho : o.Tidy (list.category ∈ held)) :
    (b.condition list connector column operator o).Always (Tidy held) :=
  h.withOperator fun op => h.addComparison list connector column op ho

/-- A comparison with a value leaves a builder tidy if values of its list may be filed. -/
theorem conditionValue [Naming] (h : b.Tidy held) (list : ConditionList) (connector : Connector)
    (v : Value) (hlist : list.category ∈ held) :
    (b.condition list connector column operator (.value v)).Always (Tidy held) := by
  have hvalue : (Operand.value v).Tidy (list.category ∈ held) := hlist
  exact h.condition list connector hvalue

/-- A membership in given values leaves a builder tidy if values of filters may be filed. -/
theorem member [Naming] (h : b.Tidy held) (connector : Connector) (negated : Bool) (values : Value)
    (hheld : .filter ∈ held) : (b.member connector negated column values).Always (Tidy held) :=
  h.conditionValue .filters connector values hheld

/-- A comparison of two columns leaves a builder tidy. -/
theorem compareColumns (h : b.Tidy held) (connector : Connector) (first second : String) :
    (b.compareColumns connector first operator second).Tidy held := by
  refine of_unlessFailed h ?_
  cases operator with
  | ok o => exact h.pushPlain .filters connector _
  | error e => exact h.fail e

/-- A membership in the rows of a tidy sub-query leaves a builder tidy. -/
theorem memberOfQuery [Naming] (h : b.Tidy held) (negated : Bool) (hs : sub.Tidy (.filter ∈ held)) :
    (b.memberOfQuery negated column sub).Always (Tidy held) :=
  always_unlessFailedM h ((gains_adopt hs b held .filter).map fun _ hresult =>
    h.push .filters hresult
      (fun _ hname hnew => ⟨hnew.1, cites_queryTest hnew.2 hname column _⟩) .and)

/-- A comparison with the value of a tidy sub-query leaves a builder tidy. -/
theorem compareQuery [Naming] (h : b.Tidy held) (hs : sub.Tidy (.filter ∈ held)) :
    (b.compareQuery column operator sub).Always (Tidy held) :=
  h.withOperator fun op => (gains_adopt hs b held .filter).map fun _ hresult =>
    h.push .filters hresult
      (fun _ hname hnew => ⟨hnew.1, cites_queryTest hnew.2 hname column op⟩) .and

/-- A test whether a tidy sub-query has rows leaves a builder tidy. -/
theorem hasRows [Naming] (h : b.Tidy held) (connector : Connector) (negated : Bool)
    (hs : sub.Tidy (.filter ∈ held)) : (b.hasRows connector negated sub).Always (Tidy held) :=
  always_unlessFailedM h ((gains_adopt hs b held .filter).map fun _ hresult =>
    h.push .filters hresult
      (fun _ hname hnew => ⟨hnew.1, cites_hasRows hnew.2 hname negated⟩) connector)

/-- A test for a range leaves a builder tidy if values of its list may be filed. -/
theorem between (h : b.Tidy held) (list : ConditionList) (connector : Connector) (negated : Bool)
    (bounds : Value) (hlist : list.category ∈ held) :
    (b.between list connector negated column bounds).Tidy held := by
  rw [between_eq]
  refine of_unlessFailed h ?_
  cases bounds.bounds? with
  | none => exact h.fail _
  | some pair =>
      have hlow := b.gains_bindValue held pair.1 list.category
      have hhigh := (b.bindValue pair.1 list.category).2.gains_bindValue held pair.2 list.category
      refine h.push list (hlow.trans hhigh) (fun name _ hcites => ⟨hlist, ?_⟩) connector
      rcases hcites with hcites | hcites
      · exact cites_operand List.mem_cons_self hcites
      · exact cites_operand (List.mem_cons_of_mem _ List.mem_cons_self) hcites

/-- A test whether a value is contained leaves a builder tidy if values of filters may be filed. -/
theorem contains (h : b.Tidy held) (negated : Bool) (v : Value) (hheld : .filter ∈ held) :
    (b.contains negated column v).Tidy held := by
  rw [contains_eq]
  exact of_unlessFailed h (h.push .filters (b.gains_bindValue held v.cast .filter)
    (fun _ _ hcites => ⟨hheld, cites_operand List.mem_cons_self hcites⟩) .and)

/-- A condition on a length leaves a builder tidy if its values may be filed. -/
theorem length [Naming] (h : b.Tidy held) (ho : o.Tidy (.filter ∈ held)) :
    (b.length column operator o).Always (Tidy held) :=
  h.withOperator fun _ => (gains_bind ho b held .filter).map fun _ hresult =>
    h.push .filters hresult
      (fun _ _ hnew => ⟨hnew.1, cites_operand List.mem_cons_self hnew.2⟩) .and

/-- A condition on a part of a date leaves a builder tidy if its values may be filed. -/
theorem date [Naming] (h : b.Tidy held) (part : DatePart) (ho : o.Tidy (.filter ∈ held)) :
    (b.date part column operator o).Always (Tidy held) :=
  h.withOperator fun _ => (gains_bind ho b held .filter).map fun _ hresult =>
    h.push .filters hresult
      (fun _ _ hnew => ⟨hnew.1, cites_operand List.mem_cons_self hnew.2⟩) .and

/-- A group of conditions. Its values have to be those of its conditions, as nothing else of it is
written; so a group without conditions has no values. -/
theorem nested (h : b.Tidy held) (connector : Connector) {make : Builder → Supply Builder}
    (hmake : KeepsTidy ∅ ({.filter} ∩ held) make) :
    (b.nested connector make).Always (Tidy held) := by
  have hopened : b.forNested.Always (Tidy ∅) := Tidy.forNested b
  refine always_unlessFailedM h (hopened.bind fun start hstart => ?_)
  refine (hmake start hstart).map fun group hgroup => ?_
  have htaken := gains_absorb hgroup b held .filter
  split
  · rename_i hnone
    refine h.gain subset_rfl htaken fun name _ ⟨k, ⟨hk, _⟩, hcites⟩ => ?_
    rw [Set.mem_singleton_iff.mp hk] at hcites
    cases hcites with
    | filter hx _ =>
        obtain ⟨x, hx, -⟩ := List.mem_map.mp hx
        exact (List.ne_nil_of_mem hx (List.isEmpty_iff.mp hnone)).elim
  · refine h.push .filters htaken (fun name hname ⟨k, ⟨hk, hheld⟩, hcites⟩ => ?_) connector
    rw [Set.mem_singleton_iff.mp hk] at hcites hheld
    exact ⟨hheld, .group (restricts_of_cites hcites hname)⟩

end conditions

section projection

/-- Selecting one part of a projection leaves a builder tidy. -/
theorem selectOne (h : b.Tidy held) (s : Selector Query) : (b.selectOne s).Tidy held := by
  have hkeeps : b.columns ⊆ b.columns ++ [s] := List.subset_append_left _ _
  cases s <;> exact h.keep { Clauses.Keeps.refl held b with columns := fun _ => hkeeps } rfl

/-- Adding to the projection leaves a builder tidy. -/
theorem addSelect (h : b.Tidy held) (selectors : List (Selector Query)) :
    (b.addSelect selectors).Tidy held := by
  induction selectors generalizing b with
  | nil => exact h
  | cons first rest ih => exact ih (h.selectOne first)

/-- Selecting leaves a builder tidy, and no values of the projection are left. -/
theorem select (h : b.Tidy held) (hheld : held \ {.select} ⊆ ends)
    (selectors : List (Selector Query)) : (b.select selectors).Tidy ends := by
  have hcleared : Tidy ends { b with columns := [], bindings := b.bindings.set [] .select } := by
    intro k name hname
    change name ∈ ((b.bindings.set [] .select).bound k).keys at hname
    rw [Store.bound_set] at hname
    split at hname
    · exact (List.not_mem_nil hname).elim
    · rename_i hk
      obtain ⟨hmem, hname, hcites⟩ := h k name hname
      refine ⟨hheld ⟨hmem, hk⟩, hname, ?_⟩
      have hkeeps : b.Keeps {k | k ≠ .select}
          { b with columns := [], bindings := b.bindings.set [] .select } :=
        { Clauses.Keeps.refl _ b with columns := fun hselect => (hselect rfl).elim }
      exact cites_of_keeps hcites hk hkeeps
  exact hcleared.addSelect selectors

/-- Selecting a tidy sub-query leaves a builder tidy. -/
theorem selectQuery [Naming] (h : b.Tidy held) (hs : sub.Tidy (.select ∈ held)) (asName : String) :
    (b.selectQuery sub asName).Always (Tidy held) := by
  refine always_unlessFailedM h ((gains_adopt hs b held .select).map fun ⟨q, w⟩ hresult => ?_)
  have hkeeps : w.columns ⊆ w.columns ++ [.sub (.of { q with singleValue := true }) asName] :=
    List.subset_append_left _ _
  refine h.gain subset_rfl (hresult.keep
    { Clauses.Keeps.refl held w with columns := fun _ => hkeeps } rfl) fun name hname hnew => ?_
  have hvalue : Builder.Tells { q with singleValue := true } name :=
    hnew.2.keep { Clauses.Keeps.refl _ q with }
  exact ⟨hnew.1, .column (List.mem_map_of_mem (List.mem_append_right _ List.mem_cons_self))
    (hvalue.fragment hname)⟩

/-- A query variable is defined together with the values in its definition. -/
theorem define (h : b.Tidy held) (hw : b.Gains held .definitions p w) (x : String)
    {value : Definition Query} (hp : ∀ name, IsName name → p name → .definitions ∈ held ∧
      (w.define x value).compiled.Cites name .definitions) : (w.define x value).Tidy held := by
  have hkeeps : w.definitions ⊆ w.definitions ++ [⟨x, value⟩] := List.subset_append_left _ _
  exact h.gain subset_rfl
    (hw.keep { Clauses.Keeps.refl held w with definitions := hkeeps } rfl) hp

/-- Setting a query variable leaves a builder tidy if its values may be filed. -/
theorem set [Naming] (h : b.Tidy held) (x : String) (ho : o.Tidy (.definitions ∈ held)) :
    (b.set x o).Always (Tidy held) :=
  always_unlessFailedM h ((gains_bind ho b held .definitions).map fun _ hresult =>
    h.define hresult x fun _ _ hnew => ⟨hnew.1,
      .bound (List.mem_map_of_mem (List.mem_append_right _ List.mem_cons_self)) hnew.2⟩)

/-- Setting a query variable to a tidy sub-query leaves a builder tidy. -/
theorem setQuery [Naming] (h : b.Tidy held) (x : String) (hs : sub.Tidy (.definitions ∈ held)) :
    (b.setQuery x sub).Always (Tidy held) := by
  refine always_unlessFailedM h ((gains_adopt hs b held .definitions).map fun ⟨q, w⟩ hresult => ?_)
  refine h.define hresult x fun name hname hnew => ?_
  have hvalue : Builder.Tells { q with singleValue := true } name :=
    hnew.2.keep { Clauses.Keeps.refl _ q with }
  exact ⟨hnew.1, .defined (List.mem_map_of_mem (List.mem_append_right _ List.mem_cons_self))
    (hvalue.fragment hname)⟩

end projection

section paging

/-- A criterion leaves a builder tidy. -/
theorem pushOrder (h : b.Tidy held) (order : Order) : (b.pushOrder order).Tidy held := by
  unfold Builder.pushOrder
  split <;> exact h.keep { Clauses.Keeps.refl held b with } rfl

/-- Ordering leaves a builder tidy. -/
theorem orderBy (h : b.Tidy held) (column : String) (direction : Except Error Direction) :
    (b.orderBy column direction).Tidy held := by
  refine of_unlessFailed h ?_
  cases direction with
  | ok direction => exact h.pushOrder _
  | error e => exact h.fail e

theorem reorder (h : b.Tidy held) : b.reorder.Tidy held :=
  h.keep { Clauses.Keeps.refl held b with } rfl

theorem limitTo (h : b.Tidy held) (count : Nat) : (b.limitTo count).Tidy held := by
  unfold Builder.limitTo
  split <;> exact h.keep { Clauses.Keeps.refl held b with } rfl

theorem skip (h : b.Tidy held) (count : Nat) : (b.skip count).Tidy held := by
  unfold Builder.skip
  split <;> exact h.keep { Clauses.Keeps.refl held b with } rfl

end paging

section sources

/-- Registering a collection leaves clauses and values. -/
theorem keeps_register [Naming] (b : Builder) (held : Set Category) (table : String) :
    b.Keeps held (b.register table).2.2 ∧ (b.register table).2.2.bindings = b.bindings := by
  unfold Builder.register
  generalize tableAndAlias table = named
  exact ⟨{ Clauses.Keeps.refl held b with }, rfl⟩

/-- Registering a derived source leaves clauses and values. -/
theorem keeps_registerQuery [Naming] (b : Builder) (held : Set Category) (query : Builder)
    (asName : String) : b.Keeps held (b.registerQuery query asName).2 ∧
      (b.registerQuery query asName).2.bindings = b.bindings := by
  unfold Builder.registerQuery
  exact ⟨{ Clauses.Keeps.refl held b with }, rfl⟩

/-- Another source takes the place of one without values. -/
theorem keeps_source (b : Builder) (hsource : .source ∉ held) (s : Option (Source Query)) :
    b.Keeps held { b with source := s } :=
  { Clauses.Keeps.refl held b with source := fun hk => (hsource hk).elim }

/-- A collection as the source leaves a builder tidy if the old source had no values. -/
theorem fromCollection [Naming] (h : b.Tidy held) (hsource : .source ∉ held) (table : String) :
    (b.fromCollection table).Tidy held := by
  obtain ⟨hkeeps, hbindings⟩ := keeps_register b held table
  exact h.keep (hkeeps.trans (keeps_source _ hsource _)) hbindings

/-- A view as the source leaves a builder tidy if the old source had no values. -/
theorem fromView [Naming] (h : b.Tidy held) (hsource : .source ∉ held) (view : String) :
    (b.fromView view).Tidy held := by
  obtain ⟨hkeeps, hbindings⟩ := keeps_register b held view
  exact h.keep (hkeeps.trans (keeps_source _ hsource _)) hbindings

/-- A tidy sub-query as the source leaves a builder tidy if the old source had no values. -/
theorem fromQuery [Naming] (h : b.Tidy held) (hsource : .source ∉ held) (hheld : held ⊆ ends)
    (hs : sub.Tidy (.source ∈ ends)) (asName : String) :
    (b.fromQuery sub asName).Always (Tidy ends) := by
  refine always_unlessFailedM (h.mono hheld) ?_
  refine (gains_adopt hs b held .source).map fun ⟨q, w⟩ hresult => ?_
  obtain ⟨hkeeps, hbindings⟩ := keeps_registerQuery w held q asName
  refine h.gain hheld (hresult.keep (hkeeps.trans (keeps_source _ hsource _)) hbindings) ?_
  exact fun name hname hnew => ⟨hnew.1, .source rfl (hnew.2.fragment hname)⟩

/-- A join refers to the values of its source and of its conditions. -/
theorem pushJoin (h : b.Tidy held) (hw : b.Gains held .join p w) (kind : JoinKind)
    (hp : ∀ name, IsName name → p name →
      .join ∈ held ∧ (Query.of c).fragment.Iterates name)
    (hc : c.Tidy {k | k = .filter ∧ .join ∈ held}) : (w.pushJoin kind c).Tidy held := by
  have habsorbed := hw.trans (gains_absorb hc w held .join)
  unfold Builder.pushJoin
  generalize w.absorb c .join = absorbed at habsorbed ⊢
  have hmem : (Join.mk kind (Query.of c)).map Query.fragment ∈
      (absorbed.joins ++ [Join.mk kind (Query.of c)]).map (Join.map Query.fragment) :=
    List.mem_map_of_mem (List.mem_append_right _ List.mem_cons_self)
  refine h.gain subset_rfl (habsorbed.keep { Clauses.Keeps.refl held absorbed with
    joins := List.subset_append_left _ _ } rfl) fun name hname hnew => ?_
  rcases hnew with hnew | ⟨k, ⟨rfl, hheld⟩, hcites⟩
  · obtain ⟨hheld, hiterates⟩ := hp name hname hnew
    exact ⟨hheld, .joined hmem hiterates⟩
  · exact ⟨hheld, .restricted hmem (restricts_of_cites hcites hname)⟩

/-- A join leaves a builder tidy if its conditions file values only as a join may. -/
theorem joinWith [Naming] (h : b.Tidy held) (kind : JoinKind) (table : String)
    {restrict : Builder → Supply Builder}
    (hrestrict : KeepsTidy ∅ {k | k = .filter ∧ .join ∈ held} restrict) :
    (b.joinWith kind table restrict).Always (Tidy held) := by
  refine always_unlessFailedM h ?_
  obtain ⟨hkeeps, hbindings⟩ := keeps_register b held table
  generalize b.register table = named at hkeeps hbindings ⊢
  obtain ⟨name, docVar, registered⟩ := named
  have hnone : b.Gains held .join (fun _ => False) registered :=
    (Gains.refl held .join _ b).keep hkeeps hbindings
  have hopened : registered.forSubQuery.Always (Tidy ∅) := Tidy.forSubQuery registered
  refine hopened.bind fun start hstart => ?_
  have hsource := hstart.keep (keeps_source start (Set.notMem_empty _)
    (some (.collection name docVar))) rfl
  exact (hrestrict _ hsource).map fun joined hjoined =>
    h.pushJoin hnone kind (fun _ _ hfalse => hfalse.elim) hjoined

/-- A join by one comparison leaves a builder tidy. -/
theorem join [Naming] (h : b.Tidy held) (kind : JoinKind) (table first second : String) :
    (b.join kind table first operator second).Always (Tidy held) :=
  h.joinWith kind table fun _ hjoined =>
    always_pure ((hjoined.mono (Set.empty_subset _)).compareColumns .and first second)

/-- A join without conditions leaves a builder tidy. -/
theorem crossJoin [Naming] (h : b.Tidy held) (table : String) :
    (b.crossJoin table).Always (Tidy held) :=
  h.joinWith .cross table fun _ hjoined => always_pure (hjoined.mono (Set.empty_subset _))

/-- A join with a tidy sub-query leaves a builder tidy. -/
theorem joinQuery [Naming] (h : b.Tidy held) (kind : JoinKind) (hs : sub.Tidy (.join ∈ held))
    (asName first second : String) :
    (b.joinQuery kind sub asName first operator second).Always (Tidy held) := by
  refine always_unlessFailedM h ((gains_adopt hs b held .join).bind fun ⟨q, w⟩ hresult => ?_)
  obtain ⟨hkeeps, hbindings⟩ := keeps_registerQuery w held q asName
  have hopened : (w.registerQuery q asName).2.forSubQuery.Always
      (Tidy {k | k = .filter ∧ .join ∈ held}) := Tidy.forSubQuery _
  have hnone : Category.source ∉ {k | k = .filter ∧ .join ∈ held} := fun hk => nomatch hk.1
  refine hopened.map fun start hstart => ?_
  have hsource := hstart.keep (keeps_source start hnone
    (some (.derived (.of q) (w.registerQuery q asName).1))) rfl
  refine h.pushJoin (hresult.keep hkeeps hbindings) kind (fun name hname hnew => ⟨hnew.1, ?_⟩)
    (hsource.compareColumns .and first second)
  exact iterates_of_source (source_compareColumns _ .and first operator second)
    (hnew.2.fragment hname)

/-- A union with a tidy query leaves a builder tidy. -/
theorem union [Naming] (h : b.Tidy held) (all : Bool) (hs : sub.Tidy (.union ∈ held)) :
    (b.union all sub).Always (Tidy held) := by
  refine always_unlessFailedM h ((gains_adopt hs b held .union).map fun ⟨q, w⟩ hresult => ?_)
  refine h.gain subset_rfl (hresult.keep { Clauses.Keeps.refl held w with
    unions := List.subset_append_left _ _ } rfl) fun name hname hnew => ⟨hnew.1, ?_⟩
  have hother : Builder.Tells { q with aliases := (w.aliases.exchangeTables q.aliases).2 } name :=
    hnew.2.keep { Clauses.Keeps.refl _ q with }
  exact .union (List.mem_map_of_mem (List.mem_append_right _ List.mem_cons_self))
    (hother.fragment hname)

/-- The text and the analyzer of a search take the place of those of a search without values. -/
theorem fullTextSearch (h : b.Tidy held) (hsearch : .search ∉ held) (hheld : held ⊆ ends)
    (hends : .search ∈ ends) (fields : List (Selector Query)) (text : Value)
    (analyzer : Option String) : (b.fullTextSearch fields text analyzer).Tidy ends := by
  have hstays := h.mono hheld
  refine of_fullTextSearch hstays (hstays.fail _) (hstays.fail _) ?_
  rintro _ _ rfl rfl - hfields
  have htext := b.gains_bindValue held text .search
  have hboth := htext.trans ((b.bindValue text .search).2.gains_bindValue held
    (.string (analyzer.getD defaultAnalyzer)) .search)
  refine h.gain hheld (hboth.keep { Clauses.Keeps.refl held _ with
    search := fun hk => (hsearch hk).elim } rfl) fun name _ hnew => ⟨hends, ?_⟩
  rcases hnew with hnew | hnew
  · exact .text rfl hfields hnew
  · exact .analyzer rfl hnew

end sources

end Tidy

end AqlBuilder.Builder

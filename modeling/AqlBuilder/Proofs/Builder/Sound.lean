import AqlBuilder.Builder.Basic
import AqlBuilder.Builder.Projection
import AqlBuilder.Proofs.Builder.Reference
import AqlBuilder.Proofs.Query.Faults

/-!
# Every method keeps builders sound

The methods one by one: with sound sub-queries each method leaves a sound builder. A new builder for
a sub-query or for a group has the prefix of the builder that makes it. Errors are recorded by
methods that get arguments they cannot express, by taking over a sub-query, and by binding a
sub-query that does not compile; a sub-query that is sound fails with an error that can be made. An
operand that is bound becomes a text if it is a sub-query, or if it looks like the reference of a
bound value, so these texts have to be in the vocabulary.

- `Vocabulary.Closed` is a vocabulary with all texts that come about in this way.
- `Builder.KeepsSound` is an action that keeps builders sound, and `SubQuery.Sound` a sub-query
  argument that is sound or does so.
- `Builder.Sound.adopt` is what taking over a sub-query gives, and `Builder.Sound.bind` what binding
  an operand does.
- `Builder.Sound.joinWith`: a joined query gets its source before its conditions.
-/

namespace AqlBuilder

open Supply

variable {words : Vocabulary} {joined : Bool} {b c : Builder} {sub : SubQuery}
  {operator : Except Error Operator} {o : Operand Builder} {column : String}

/-- An action that keeps builders sound. -/
def Builder.KeepsSound (words : Vocabulary) (joined : Bool) (make : Builder → Supply Builder) :
    Prop :=
  ∀ b : Builder, b.Sound words joined → (make b).Always (Builder.Sound words joined)

/-- A sub-query argument that is sound, or keeps builders sound. -/
inductive SubQuery.Sound (words : Vocabulary) : SubQuery → Prop
  | finished {sub : Builder} (h : sub.Sound words false) : Sound words (.finished sub)
  | closure {make : Builder → Supply Builder} (h : Builder.KeepsSound words false make) :
      Sound words (.closure make)

/-- An operand that is an expression of the vocabulary, or a sound query. -/
structure Operand.Sound (words : Vocabulary) (o : Operand Builder) : Prop where
  expression : ∀ aql, o = .expression aql → aql ∈ words.texts
  query : ∀ q, o = .query q → Builder.Sound words false q

/-- A vocabulary with every text that binding an operand makes of it: the reference of a bound
value, the text of a sub-query, and no text if the sub-query does not compile. -/
structure Vocabulary.Closed (words : Vocabulary) : Prop where
  empty : "" ∈ words.texts
  reference {text : String} : isPlaceholder text = true → text ∈ words.texts
  query {q : Builder} {n : Nat} {aql : String} :
    q.Sound words false → (q.embedded n).1 = .ok aql → aql ∈ words.texts

/-- An argument that is given, or an error that can be made. -/
def Error.Allowed {α : Type} (x : Except Error α) : Prop := ∀ e, x = .error e → e.Possible

theorem Error.allowed_ok {α : Type} (a : α) : Error.Allowed (.ok a) := fun _ h => nomatch h

/-- Steps that make allowed errors only make no others together. -/
theorem Error.Allowed.bind {α β : Type} {x : Except Error α} {f : α → Except Error β}
    (hx : Error.Allowed x) (hf : ∀ a, Error.Allowed (f a)) : Error.Allowed (x >>= f) := by
  cases x with
  | error e => exact fun e' he' => hx e' (by cases he'; rfl)
  | ok a => exact hf a

theorem Bound.among_column {texts : Set String} (name : String) :
    (Bound.column name).Among texts := fun _ h => nomatch h

/-- A test without queries that is not bitwise. -/
theorem Test.sound_plain {Q : Type} {texts : Set String} {p : Q → Prop} {t : Test Q}
    (hqueries : t.queries = []) (hoperands : ∀ v ∈ t.operands, v.Among texts)
    (h : ∀ column operator value, t ≠ .bits column operator value) : t.Sound texts p :=
  ⟨fun c o v heq => absurd heq (h c o v), hoperands,
    fun _ hq => (List.not_mem_nil (hqueries ▸ hq)).elim⟩

/-- A test with neither queries nor operands. -/
theorem Test.sound_bare {Q : Type} {texts : Set String} {p : Q → Prop} {t : Test Q}
    (hqueries : t.queries = []) (hoperands : t.operands = []) : t.Sound texts p :=
  Test.sound_plain hqueries (fun _ hv => (List.not_mem_nil (hoperands ▸ hv)).elim)
    fun _ _ _ heq => by
      rw [heq] at hoperands
      cases hoperands

namespace Builder

/-- What a condition makes of a bound operand. -/
theorem sound_valueTest {texts : Set String} (column : String) (operator : Operator) {bound : Bound}
    (hbound : bound.Among texts) {p : Query → Prop} :
    (valueTest column operator bound).Sound texts p := by
  have hoperand : ∀ v ∈ [bound], v.Among texts := fun v hv => List.mem_singleton.mp hv ▸ hbound
  unfold valueTest
  split
  · exact Test.sound_plain rfl hoperand fun _ _ _ => nofun
  · split
    · rename_i hbitwise
      refine ⟨fun _ _ _ heq => ?_, hoperand, fun _ hq => nomatch hq⟩
      cases heq
      exact hbitwise
    · exact Test.sound_plain rfl hoperand fun _ _ _ => nofun

namespace Sound

/-! ### Changes of a clause -/

theorem withBindings (h : b.Sound words joined) (s : Store) :
    Sound words joined { b with bindings := s } := { h with }

/-- The first of two errors is recorded. -/
theorem withError (h : b.Sound words joined) {error : Option Error}
    (herror : ∀ e ∈ error, e.Possible) (s : Store) :
    Sound words joined { b with bindings := s, error := b.error.or error } := by
  refine { h with error := ?_ }
  change ∀ e ∈ b.error.or error, e.Possible
  cases hb : b.error with
  | none => exact herror
  | some e => exact fun e' he' => h.error e' (hb.trans he')

theorem withAliases (h : b.Sound words joined) (aliases : Registry) :
    Sound words joined { b with aliases := aliases } := { h with }

theorem asValue (h : b.Sound words joined) : Sound words joined { b with singleValue := true } :=
  { h with }

/-- A builder with a sound source is sound, also where it is joined. -/
theorem withSource (h : b.Sound words joined) {s : Source Query} (joined' : Bool)
    (hs : ∀ q ∈ s.queries, q.Sound words false) :
    Sound words joined' { b with source := some s } :=
  { h with
    joinedSource := fun _ => rfl
    source := fun t ht => by
      cases ht
      exact hs }

/-- A sound builder stays so with an error that can be made. -/
theorem fail (h : b.Sound words joined) {e : Error} (he : e.Possible) :
    (b.fail e).Sound words joined := by
  have herror : ∀ e' ∈ some e, e'.Possible := fun e' he' => by
    cases he'
    exact he
  exact h.withError herror b.bindings

/-- Taking over the values of a sound builder leaves a sound one. -/
theorem absorb {joined' : Bool} (h : b.Sound words joined) (hc : c.Sound words joined')
    (category : Category) : (b.absorb c category).Sound words joined :=
  h.withError hc.error (b.bindings.merge c.bindings (some category))

/-- A sound test may be added. -/
theorem push (h : b.Sound words joined) (list : ConditionList) (connector : Connector)
    {t : Test Query} (ht : t.Sound words.texts (Query.Sound words false)) :
    (b.push list connector t).Sound words joined := by
  cases list with
  | filters =>
      refine { h with filters := fun x hx => ?_ }
      rcases List.mem_append.mp hx with hold | hnew
      · exact h.filters x hold
      · rw [List.mem_singleton.mp hnew]
        exact ht
  | havings =>
      refine { h with havings := fun x hx => ?_ }
      rcases List.mem_append.mp hx with hold | hnew
      · exact h.havings x hold
      · rw [List.mem_singleton.mp hnew]
        exact ht

/-- One more part of the projection. -/
theorem withColumn (h : b.Sound words joined) {s : Selector Query}
    (hs : ∀ q ∈ s.queries, q.Sound words false) :
    Sound words joined { b with columns := b.columns ++ [s] } := by
  refine { h with columns := fun t ht => ?_ }
  rcases List.mem_append.mp ht with hold | hnew
  · exact h.columns t hold
  · rw [List.mem_singleton.mp hnew]
    exact hs

/-! ### New builders -/

/-- A builder with a prefix, a source and nothing else. -/
theorem of_source {id : Nat} {tablePrefix : String} {source : Option (Source Query)}
    {aliases : Registry} (hpre : tablePrefix ∈ words.prefixes)
    (hsource : ∀ s ∈ source, ∀ q ∈ s.queries, q.Sound words false) :
    Sound words false { (Clauses.empty id : Builder) with
      tablePrefix := tablePrefix, source := source, aliases := aliases } where
  tablePrefix := hpre
  joinedSource h := Bool.noConfusion h
  source := hsource
  columns _ h := nomatch h
  filters _ h := nomatch h
  joins _ h := nomatch h
  havings _ h := nomatch h
  aggregate := rfl
  unions _ h := nomatch h
  definitions _ h := nomatch h
  error _ h := nomatch h

/-- A copy of a sound builder is sound. -/
theorem copyOf (h : b.Sound words joined) : b.copyOf.Always (Sound words joined) := by
  intro next
  have hmap := b.map_copyOf (g := Query.fold (Query.soundLevel words))
    (fun q _ => q.sound_copyOf words) next
  have hcopied : Clauses.Sound words (fun j sound => sound j) joined
      ((b.copyOf next).1.map (Query.fold (Query.soundLevel words))) := by
    have hlevel : Clauses.Sound words (fun j sound => sound j) joined
        (b.map (Query.fold (Query.soundLevel words))) := Clauses.sound_map.mpr h
    rw [hmap]
    exact { hlevel with }
  exact (Clauses.sound_map (p := fun j (sound : Bool → Prop) => sound j)).mp hcopied

/-- The builder for a sub-query is sound. -/
theorem forSubQuery (h : b.Sound words joined) :
    b.forSubQuery.Always (Sound words false) :=
  fun _ => of_source h.tablePrefix fun _ hs => nomatch hs

/-- The builder for a group of conditions is sound. -/
theorem forNested (h : b.Sound words joined) : b.forNested.Always (Sound words false) := by
  have hsource : (runSource (b.source.map (Source.map Query.copyOf))).Always fun source =>
      ∀ s ∈ source, ∀ q ∈ s.queries, q.Sound words false := by
    refine (always_runSource b.source fun q _ => q.sound_copyOf words).mono
      fun source hcopy s hs q hq => ?_
    rw [hs] at hcopy
    obtain ⟨original, horiginal, heq⟩ := Option.map_eq_some_iff.mp hcopy.symm
    have hqueries := congrArg Source.queries heq
    rw [Source.queries_map, Source.queries_map] at hqueries
    obtain ⟨q', hq', hsame⟩ := List.mem_map.mp (hqueries ▸ List.mem_map_of_mem hq)
    have hsound : q'.fold (Query.soundLevel words) false := h.source original horiginal q' hq'
    rw [hsame] at hsound
    exact hsound
  exact fun next => of_source h.tablePrefix (hsource (next + 1))

/-! ### Taking over sub-queries -/

/-- A sound sub-query is sound under another variable. -/
theorem rescoped [Naming] (h : b.Sound words joined) (parent : Builder) :
    (parent.rescoped b).Sound words joined := by
  have hnamed : ∀ (s : Source Query) (aliases : Registry), s.queries = [] →
      Sound words joined { b with source := some s, aliases := aliases } :=
    fun s aliases hs => (h.withAliases aliases).withSource joined fun q hq =>
      (List.not_mem_nil (hs ▸ hq)).elim
  unfold Builder.rescoped
  split
  · split
    · exact hnamed _ _ rfl
    · exact h
  · split
    · exact hnamed _ _ rfl
    · exact h
  · exact h

/-- A sound sub-query is sound in the scope of a builder. -/
theorem scopedFor [Naming] (h : b.Sound words joined) (parent : Builder) (category : Category) :
    (parent.scopedFor b category).Sound words joined := by
  unfold Builder.scopedFor
  split
  · exact h.rescoped parent
  · exact h

/-- A sub-query is sound if its argument is. -/
theorem subBuilder (h : b.Sound words joined) (hsub : sub.Sound words) :
    (b.subBuilder sub).Always (Sound words false) := by
  cases hsub with
  | finished hsub => exact always_pure (hsub.withAliases _)
  | closure hmake => exact h.forSubQuery.bind hmake

/-- A sub-query that is taken over is sound, and the builder stays so. -/
theorem adopt [Naming] (h : b.Sound words joined) (hsub : sub.Sound words) (category : Category) :
    (b.adopt sub category).Always fun result =>
      result.1.Sound words false ∧ result.2.Sound words joined := by
  refine (h.subBuilder hsub).bind fun query hquery => always_pure ?_
  have hscoped := hquery.scopedFor b category
  exact ⟨hscoped, h.absorb hscoped category⟩

/-- Binding a value leaves a builder sound. -/
theorem bindValue (h : b.Sound words joined) (v : Value) (category : Category) :
    (b.bindValue v category).2.Sound words joined := by
  rw [bindValue_eq]
  cases v.reference? with
  | some text => exact h
  | none => exact h.withBindings _

/-- What is written for a bound value is in a closed vocabulary. -/
theorem among_bindValue (hwords : words.Closed) (b : Builder) (v : Value) (category : Category) :
    (b.bindValue v category).1.Among words.texts := by
  intro aql haql
  rw [bindValue_eq] at haql
  cases hreference : v.reference? with
  | some text =>
      rw [hreference] at haql
      cases haql
      unfold Value.reference? at hreference
      split at hreference
      · split_ifs at hreference with hplaceholder
        cases hreference
        exact hwords.reference hplaceholder
      · cases hreference
  | none =>
      rw [hreference] at haql
      cases haql

/-- A sub-query that does not compile fails by its faults. -/
theorem bind [Naming] (hwords : words.Closed) (h : b.Sound words joined) (ho : o.Sound words)
    (category : Category) : (b.bind o category).Always fun result =>
      result.1.Among words.texts ∧ result.2.Sound words joined := by
  cases o with
  | value v => exact always_pure ⟨among_bindValue hwords b v category, h.bindValue v category⟩
  | expression aql =>
      refine always_pure ⟨fun text htext => ?_, h⟩
      cases htext
      exact ho.expression aql rfl
  | column name => exact always_pure ⟨Bound.among_column name, h⟩
  | query q =>
      have hq := (ho.query q rfl).scopedFor b category
      have hresult : ((b.scopedFor q category).embedded.run).Always fun result =>
          (∀ aql, result = .ok aql → aql ∈ words.texts) ∧ ∀ e, result = .error e → e.Possible :=
        fun next => ⟨fun aql haql => hwords.query hq haql, fun e he =>
          hq.possible ((Query.failsByFaults _ (Query.sound_of.mpr hq)).embedded.among next e he)⟩
      refine hresult.bind fun result ⟨htext, herror⟩ => ?_
      cases result with
      | ok aql =>
          refine always_pure ⟨fun text hbound => ?_, h.absorb hq category⟩
          cases hbound
          exact htext aql rfl
      | error e =>
          refine always_pure ⟨fun text hbound => ?_, h.fail (herror e rfl)⟩
          cases hbound
          exact hwords.empty

section conditions

/-- A comparison with a sound query is sound. -/
theorem sound_queryTest (hc : c.Sound words false) (column : String) (operator : Operator) :
    (queryTest column operator c).Sound words.texts (Query.Sound words false) := by
  have hquery := Query.sound_of.mpr hc.asValue
  unfold queryTest
  dsimp only
  split <;>
    exact ⟨fun _ _ _ => nofun, fun _ hv => (nomatch hv),
      fun q hq => List.mem_singleton.mp hq ▸ hquery⟩

/-- Adding a comparison leaves a builder sound. -/
theorem addComparison [Naming] (hwords : words.Closed) (h : b.Sound words joined)
    (list : ConditionList)
    (connector : Connector) (column : String) (operator : Operator) (ho : o.Sound words) :
    (b.addComparison list connector column operator o).Always (Sound words joined) := by
  cases o with
  | value v =>
      exact always_addComparison_value b list connector column operator
        (fun _ => h.push list connector (Test.sound_bare rfl rfl))
        ((h.bindValue _ list.category).push list connector
          (sound_valueTest column operator (among_bindValue hwords b _ list.category)))
        fun _ => h.fail trivial
  | expression aql =>
      rw [addComparison_expression b list connector column operator aql]
      refine always_pure
        (h.push list connector (sound_valueTest column operator fun text htext => ?_))
      cases htext
      exact ho.expression aql rfl
  | column name =>
      rw [addComparison_column b list connector column operator name]
      exact always_pure (h.push list connector
        (sound_valueTest column operator (Bound.among_column name)))
  | query q =>
      refine (h.adopt (.finished (ho.query q rfl)) list.category).map fun result hresult => ?_
      exact hresult.2.push list connector (sound_queryTest hresult.1 column operator)

/-- A condition leaves a builder sound, with a legal operator or without one. -/
theorem withOperator (h : b.Sound words joined) (hoperator : Error.Allowed operator)
    {add : Builder → Operator → Supply Builder}
    (hadd : ∀ o, (add b o).Always (Sound words joined)) :
    (b.withOperator operator add).Always (Sound words joined) := by
  refine always_unlessFailedM h ?_
  cases operator with
  | ok o => exact hadd o
  | error e => exact always_pure (h.fail (hoperator e rfl))

/-- A condition on a column leaves a builder sound. -/
theorem condition [Naming] (hwords : words.Closed) (h : b.Sound words joined)
    (hoperator : Error.Allowed operator) (list : ConditionList) (connector : Connector)
    (ho : o.Sound words) :
    (b.condition list connector column operator o).Always (Sound words joined) :=
  h.withOperator hoperator fun op => h.addComparison hwords list connector column op ho

/-- A comparison of two columns leaves a builder sound. -/
theorem compareColumns (h : b.Sound words joined) (hoperator : Error.Allowed operator)
    (connector : Connector) (first second : String) :
    (b.compareColumns connector first operator second).Sound words joined := by
  refine of_unlessFailed h ?_
  cases operator with
  | ok o => exact h.push .filters connector (Test.sound_bare rfl rfl)
  | error e => exact h.fail (hoperator e rfl)

/-- A condition on a value, with an operator that needs no spelling. -/
theorem conditionValue [Naming] (hwords : words.Closed) (h : b.Sound words joined)
    (list : ConditionList) (connector : Connector) (operator : Operator) (v : Value) :
    (b.condition list connector column (.ok operator) (.value v)).Always (Sound words joined) :=
  h.condition hwords (Error.allowed_ok operator) list connector
    ⟨fun _ ho => (nomatch ho), fun _ hq => nomatch hq⟩

/-- A membership in the rows of a sub-query leaves a builder sound. -/
theorem memberOfQuery [Naming] (h : b.Sound words joined) (negated : Bool)
    (hsub : sub.Sound words) :
    (b.memberOfQuery negated column sub).Always (Sound words joined) :=
  always_unlessFailedM h ((h.adopt hsub .filter).map fun _ hresult =>
    hresult.2.push .filters .and (sound_queryTest hresult.1 column _))

/-- A test for a range leaves a builder sound. -/
theorem between (hwords : words.Closed) (h : b.Sound words joined) (list : ConditionList)
    (connector : Connector) (negated : Bool) (bounds : Value) :
    (b.between list connector negated column bounds).Sound words joined := by
  rw [between_eq]
  refine of_unlessFailed h ?_
  cases bounds.bounds? with
  | none => exact h.fail trivial
  | some pair =>
      have hboth := (h.bindValue pair.1 list.category).bindValue pair.2 list.category
      refine hboth.push list connector (Test.sound_plain rfl (fun v hv => ?_) fun _ _ _ => nofun)
      rcases List.mem_pair.mp hv with rfl | rfl <;> exact among_bindValue hwords _ _ _

/-- A group of conditions leaves a builder sound. -/
theorem nested (h : b.Sound words joined) (connector : Connector)
    {make : Builder → Supply Builder} (hmake : KeepsSound words false make) :
    (b.nested connector make).Always (Sound words joined) := by
  refine always_unlessFailedM h (h.forNested.bind fun start hstart => ?_)
  refine (hmake start hstart).map fun group hgroup => ?_
  have habsorbed := h.absorb hgroup .filter
  split
  · exact habsorbed
  · refine habsorbed.push .filters connector
      ⟨fun _ _ _ => nofun, fun _ hv => (nomatch hv), fun q hq => ?_⟩
    rw [List.mem_singleton.mp hq]
    exact Query.sound_of.mpr hgroup

/-- A test whether a sub-query has rows leaves a builder sound. -/
theorem hasRows [Naming] (h : b.Sound words joined) (connector : Connector) (negated : Bool)
    (hsub : sub.Sound words) :
    (b.hasRows connector negated sub).Always (Sound words joined) := by
  refine always_unlessFailedM h ((h.adopt hsub .filter).map fun result hresult => ?_)
  refine hresult.2.push .filters connector
    ⟨fun _ _ _ => nofun, fun _ hv => (nomatch hv), fun q hq => ?_⟩
  rw [List.mem_singleton.mp hq]
  exact Query.sound_of.mpr hresult.1

/-- A comparison with the value of a sub-query leaves a builder sound. -/
theorem compareQuery [Naming] (h : b.Sound words joined) (hoperator : Error.Allowed operator)
    (hsub : sub.Sound words) :
    (b.compareQuery column operator sub).Always (Sound words joined) :=
  h.withOperator hoperator fun op => (h.adopt hsub .filter).map fun _ hresult =>
    hresult.2.push .filters .and (sound_queryTest hresult.1 column op)

/-- A condition that is added without an operator and without a query. -/
theorem addPlain (h : b.Sound words joined) (list : ConditionList) (connector : Connector)
    {t : Test Query} (ht : t.Sound words.texts (Query.Sound words false)) :
    (b.unlessFailed fun b => b.push list connector t).Sound words joined :=
  of_unlessFailed h (h.push list connector ht)

/-- A test whether a value is contained leaves a builder sound. -/
theorem contains (hwords : words.Closed) (h : b.Sound words joined) (negated : Bool) (v : Value) :
    (b.contains negated column v).Sound words joined := by
  rw [contains_eq]
  refine of_unlessFailed h ((h.bindValue v.cast .filter).push .filters .and
    (Test.sound_plain rfl (fun bound hbound => ?_) fun _ _ _ => nofun))
  rw [List.mem_singleton.mp hbound]
  exact among_bindValue hwords b v.cast .filter

/-- A condition on a length leaves a builder sound. -/
theorem length [Naming] (hwords : words.Closed) (h : b.Sound words joined)
    (hoperator : Error.Allowed operator) (ho : o.Sound words) :
    (b.length column operator o).Always (Sound words joined) :=
  h.withOperator hoperator fun _ => (h.bind hwords ho .filter).map fun _ hresult =>
    hresult.2.push .filters .and (Test.sound_plain rfl
      (fun _ hv => List.mem_singleton.mp hv ▸ hresult.1) fun _ _ _ => nofun)

/-- A condition on a part of a date leaves a builder sound. -/
theorem date [Naming] (hwords : words.Closed) (h : b.Sound words joined) (part : DatePart)
    (hoperator : Error.Allowed operator) (ho : o.Sound words) :
    (b.date part column operator o).Always (Sound words joined) :=
  h.withOperator hoperator fun _ => (h.bind hwords ho .filter).map fun _ hresult =>
    hresult.2.push .filters .and (Test.sound_plain rfl
      (fun _ hv => List.mem_singleton.mp hv ▸ hresult.1) fun _ _ _ => nofun)

end conditions

section projection

/-- Selecting one part of a projection leaves a builder sound. -/
theorem selectOne (h : b.Sound words joined) (s : Selector Query)
    (hs : ∀ q ∈ s.queries, q.Sound words false) : (b.selectOne s).Sound words joined := by
  have hadded := h.withColumn hs
  cases s with
  | aliased column asName => exact hadded.withAliases _
  | _ => exact hadded

/-- Adding to the projection leaves a builder sound. -/
theorem addSelect (h : b.Sound words joined) {selectors : List (Selector Query)}
    (hs : ∀ s ∈ selectors, ∀ q ∈ s.queries, q.Sound words false) :
    (b.addSelect selectors).Sound words joined := by
  induction selectors generalizing b with
  | nil => exact h
  | cons first rest ih =>
      exact ih (h.selectOne first (hs first List.mem_cons_self))
        fun s hrest => hs s (List.mem_cons_of_mem first hrest)

/-- Selecting leaves a builder sound. -/
theorem select (h : b.Sound words joined) {selectors : List (Selector Query)}
    (hs : ∀ s ∈ selectors, ∀ q ∈ s.queries, q.Sound words false) :
    (b.select selectors).Sound words joined := by
  have hcleared : Sound words joined
      { b with columns := [], bindings := b.bindings.set [] .select } :=
    { h with columns := fun _ hs => nomatch hs }
  exact hcleared.addSelect hs

/-- Selecting a sound sub-query leaves a builder sound. -/
theorem selectQuery [Naming] (h : b.Sound words joined) (hsub : sub.Sound words) (asName : String) :
    (b.selectQuery sub asName).Always (Sound words joined) := by
  refine always_unlessFailedM h ((h.adopt hsub .select).map fun ⟨query, taken⟩ hresult => ?_)
  have hadded := hresult.2.withColumn (s := .sub (.of { query with singleValue := true }) asName)
    fun q hq => by
      rw [List.mem_singleton.mp hq]
      exact Query.sound_of.mpr hresult.1.asValue
  exact hadded.withAliases _

/-- Defining a query variable soundly leaves a builder sound. -/
theorem define (h : b.Sound words joined) (name : String) {value : Definition Query}
    (hvalue : value.Sound words.texts (Query.Sound words false)) :
    (b.define name value).Sound words joined := by
  refine { h with definitions := fun v hv => ?_ }
  rcases List.mem_append.mp hv with hold | hnew
  · exact h.definitions v hold
  · rw [List.mem_singleton.mp hnew]
    exact hvalue

/-- Setting a query variable to an operand leaves a builder sound. -/
theorem set [Naming] (hwords : words.Closed) (h : b.Sound words joined) (name : String)
    (ho : o.Sound words) : (b.set name o).Always (Sound words joined) :=
  always_unlessFailedM h ((h.bind hwords ho .definitions).map fun _ hresult =>
    hresult.2.define name ⟨fun v hv => by cases hv; exact hresult.1, fun _ hq => nomatch hq⟩)

/-- Setting a query variable to a sub-query leaves a builder sound. -/
theorem setQuery [Naming] (h : b.Sound words joined) (name : String) (hsub : sub.Sound words) :
    (b.setQuery name sub).Always (Sound words joined) := by
  refine always_unlessFailedM h ((h.adopt hsub .definitions).map fun result hresult => ?_)
  refine hresult.2.define name ⟨fun _ hv => (nomatch hv), fun q hq => ?_⟩
  rw [List.mem_singleton.mp hq]
  exact Query.sound_of.mpr hresult.1.asValue

end projection

section paging

/-- Orders do not matter for soundness. -/
theorem pushOrder (h : b.Sound words joined) (order : Order) :
    (b.pushOrder order).Sound words joined := by
  unfold Builder.pushOrder
  split <;> exact { h with }

/-- Ordering leaves a builder sound, in a direction or with an error that can be made. -/
theorem orderBy (h : b.Sound words joined) (column : String)
    {direction : Except Error Direction} (hdirection : Error.Allowed direction) :
    (b.orderBy column direction).Sound words joined := by
  refine of_unlessFailed h ?_
  cases direction with
  | ok direction => exact h.pushOrder _
  | error e => exact h.fail (hdirection e rfl)

theorem reorder (h : b.Sound words joined) : b.reorder.Sound words joined := { h with }

theorem limitTo (h : b.Sound words joined) (count : Nat) :
    (b.limitTo count).Sound words joined := by
  unfold Builder.limitTo
  split <;> exact { h with }

theorem skip (h : b.Sound words joined) (count : Nat) :
    (b.skip count).Sound words joined := by
  unfold Builder.skip
  split <;> exact { h with }

end paging

section sources

/-- Registering a collection leaves a builder sound. -/
theorem register [Naming] (h : b.Sound words joined) (table : String) :
    (b.register table).2.2.Sound words joined := by
  unfold Builder.register
  generalize tableAndAlias table = named
  exact h.withAliases _

/-- A collection as the source leaves a builder sound. -/
theorem fromCollection [Naming] (h : b.Sound words joined) (table : String) :
    (b.fromCollection table).Sound words joined := by
  have hregistered := h.register table
  unfold Builder.fromCollection
  generalize b.register table = named at hregistered ⊢
  exact hregistered.withSource (s := .collection named.1 named.2.1) joined fun _ hq => nomatch hq

/-- A view as the source leaves a builder sound. -/
theorem fromView [Naming] (h : b.Sound words joined) (view : String) :
    (b.fromView view).Sound words joined := by
  have hregistered := h.register view
  unfold Builder.fromView
  generalize b.register view = named at hregistered ⊢
  exact hregistered.withSource (s := .view named.1 named.2.1) joined fun _ hq => nomatch hq

/-- Registering a derived source leaves a builder sound. -/
theorem registerQuery [Naming] (h : b.Sound words joined) (query : Builder) (asName : String) :
    (b.registerQuery query asName).2.Sound words joined := by
  unfold Builder.registerQuery
  exact h.withAliases _

/-- A sound sub-query as the source leaves a builder sound. -/
theorem fromQuery [Naming] (h : b.Sound words joined) (hsub : sub.Sound words) (asName : String) :
    (b.fromQuery sub asName).Always (Sound words joined) := by
  refine always_unlessFailedM h ((h.adopt hsub .source).bind fun ⟨query, taken⟩ hresult => ?_)
  have hregistered := hresult.2.registerQuery query asName
  dsimp only at hregistered ⊢
  generalize taken.registerQuery query asName = named at hregistered ⊢
  refine always_pure
    (hregistered.withSource (s := .derived (.of query) named.1) joined fun q hq => ?_)
  rw [List.mem_singleton.mp hq]
  exact Query.sound_of.mpr hresult.1

/-- A sound query with a source may be joined. -/
theorem pushJoin (h : b.Sound words joined) (kind : JoinKind) (hc : c.Sound words true) :
    (b.pushJoin kind c).Sound words joined := by
  have habsorbed := h.absorb hc .join
  unfold Builder.pushJoin
  generalize b.absorb c .join = absorbed at habsorbed ⊢
  refine { habsorbed with joins := fun j hj => ?_ }
  rcases List.mem_append.mp hj with hold | hnew
  · exact habsorbed.joins j hold
  · rw [List.mem_singleton.mp hnew]
    exact Query.sound_of.mpr hc

/-- A joined query has its source before its conditions are added. -/
theorem joinWith [Naming] (h : b.Sound words joined) (kind : JoinKind) (table : String)
    {restrict : Builder → Supply Builder} (hrestrict : KeepsSound words true restrict) :
    (b.joinWith kind table restrict).Always (Sound words joined) := by
  refine always_unlessFailedM h ?_
  have hregistered := h.register table
  generalize b.register table = named at hregistered ⊢
  obtain ⟨name, docVar, registered⟩ := named
  refine hregistered.forSubQuery.bind fun start hstart => ?_
  have hopened := hstart.withSource (s := .collection name docVar) true fun _ hq => nomatch hq
  exact (hrestrict _ hopened).map fun _ hjoined => hregistered.pushJoin kind hjoined

/-- A join by one comparison leaves a builder sound. -/
theorem join [Naming] (h : b.Sound words joined) (hoperator : Error.Allowed operator)
    (kind : JoinKind) (table first second : String) :
    (b.join kind table first operator second).Always (Sound words joined) :=
  h.joinWith kind table fun _ hjoined =>
    always_pure (hjoined.compareColumns hoperator .and first second)

/-- A join without conditions leaves a builder sound. -/
theorem crossJoin [Naming] (h : b.Sound words joined) (table : String) :
    (b.crossJoin table).Always (Sound words joined) :=
  h.joinWith .cross table fun _ hjoined => always_pure hjoined

/-- A join with a sub-query leaves a builder sound. -/
theorem joinQuery [Naming] (h : b.Sound words joined) (hoperator : Error.Allowed operator)
    (kind : JoinKind) (hsub : sub.Sound words) (asName first second : String) :
    (b.joinQuery kind sub asName first operator second).Always (Sound words joined) := by
  refine always_unlessFailedM h ((h.adopt hsub .join).bind fun ⟨query, taken⟩ hresult => ?_)
  have hregistered := hresult.2.registerQuery query asName
  dsimp only at hregistered ⊢
  generalize taken.registerQuery query asName = named at hregistered ⊢
  obtain ⟨docVar, registered⟩ := named
  refine hregistered.forSubQuery.map fun start hstart => ?_
  have hopened := hstart.withSource (s := .derived (.of query) docVar) true fun q hq => by
    rw [List.mem_singleton.mp hq]
    exact Query.sound_of.mpr hresult.1
  exact hregistered.pushJoin kind (hopened.compareColumns hoperator .and first second)

/-- A union with a sound query leaves a builder sound. -/
theorem union [Naming] (h : b.Sound words joined) (all : Bool) (hsub : sub.Sound words) :
    (b.union all sub).Always (Sound words joined) := by
  refine always_unlessFailedM h ((h.adopt hsub .union).map fun ⟨query, taken⟩ hresult => ?_)
  have hbuilder := hresult.2.withAliases (taken.aliases.exchangeTables query.aliases).1
  refine { hbuilder with unions := fun u hu => ?_ }
  rcases List.mem_append.mp hu with hold | hnew
  · exact hbuilder.unions u hold
  · rw [List.mem_singleton.mp hnew]
    exact Query.sound_of.mpr (hresult.1.withAliases _)

/-- A search leaves a builder sound. -/
theorem fullTextSearch (h : b.Sound words joined) (fields : List (Selector Query))
    (text : Value) (analyzer : Option String) :
    (b.fullTextSearch fields text analyzer).Sound words joined := by
  refine of_fullTextSearch h (h.fail trivial) (h.fail trivial) ?_
  rintro _ _ rfl rfl - -
  have hboth := (h.bindValue text .search).bindValue
    (.string (analyzer.getD defaultAnalyzer)) .search
  exact { hboth with }

end sources

section bindings

/-- Adding a value leaves a builder sound. -/
theorem addBinding (h : b.Sound words joined) (v : Value) (category : String) :
    (b.addBinding v category).Sound words joined := by
  have hcategory : Error.Allowed (Category.ofName category) := fun e he => by
    unfold Category.ofName at he
    cases hfound : Category.ofName? category <;> rw [hfound] at he <;> cases he
    trivial
  refine of_unlessFailed h ?_
  cases hname : Category.ofName category with
  | ok c => exact h.withBindings (b.bindings.add v c).2
  | error e => exact h.fail (hcategory e hname)

/-- Adding values leaves a builder sound. -/
theorem addBindings (h : b.Sound words joined) (operands : List (Operand Builder))
    (category : String) : (b.addBindings operands category).Sound words joined := by
  refine of_unlessFailed h ?_
  generalize Operand.values operands = values
  induction values generalizing b with
  | nil => exact h
  | cons v rest ih => exact ih (h.addBinding v category)

end bindings

end Sound

end Builder

end AqlBuilder

import AqlBuilder.Builder.Projection
import AqlBuilder.Builder.Source
import AqlBuilder.Proofs.Query.Fragment
import AqlBuilder.Script.Basic

/-!
# The first error of a builder

Methods that may fail leave a builder with an error as it is; all others do not touch the error. So
an error stays. A method that is given a sub-query, a group of conditions or the clause of a join
takes its error over, and as it only gets so far if its builder has no error yet, this is the first
one.

- `Builder.unlessFailed_of_error` and its neighbours: methods that do nothing after an error.
- `Builder.error_select` and its neighbours: methods that do not touch it.
- `Hands` are the methods that are given something, and `Builder.error_of_hands` says that they take
  its error.
- `Call.error_apply` is the step of one call, and `Call.error_applyAll` a run of calls.
-/

namespace AqlBuilder

open Supply

variable {α : Type} {b sub : Builder} {e : Error} {next : Nat}

namespace Builder

section keeping

/-! ### Errors stay -/

/-- An error stops a step. -/
theorem unlessFailed_of_error (h : b.error = some e) (change : Builder → Builder) :
    b.unlessFailed change = b := by
  rw [unlessFailed, h]
  rfl

/-- A step leaves an error that was there before it. -/
theorem error_unlessFailed (h : b.error = some e) (change : Builder → Builder) :
    (b.unlessFailed change).error = some e := by
  rw [unlessFailed_of_error h, h]

/-- An error stops a step that makes new queries. -/
theorem unlessFailedM_of_error (h : b.error = some e) (change : Builder → Supply Builder) :
    b.unlessFailedM change = pure b := by
  rw [unlessFailedM, h]
  rfl

/-- Without an error a step that makes new queries is taken. -/
theorem unlessFailedM_of_free (h : b.error = none) (change : Builder → Supply Builder) :
    b.unlessFailedM change = change b := by
  rw [unlessFailedM, h]
  rfl

/-- A builder that fails keeps the error that it had. -/
theorem error_fail (h : b.error = some e) (e' : Error) : (b.fail e').error = some e := by
  rw [fail, h]
  rfl

/-- A builder without an error fails with the new one. -/
theorem error_fail_of_free (h : b.error = none) (e : Error) : (b.fail e).error = some e := by
  rw [fail, h]
  rfl

/-- Adding a test raises no error. -/
theorem error_push (b : Builder) (list : ConditionList) (connector : Connector)
    (test : Test Query) :
    (b.push list connector test).error = b.error := by
  cases list <;> rfl

/-- Adding to the projection raises no error. -/
theorem error_addSelect (b : Builder) (selectors : List (Selector Query)) :
    (b.addSelect selectors).error = b.error := by
  induction selectors generalizing b with
  | nil => rfl
  | cons selector rest ih =>
      have hone : (b.selectOne selector).error = b.error := by cases selector <;> rfl
      exact (ih (b.selectOne selector)).trans hone

theorem error_select (b : Builder) (selectors : List (Selector Query)) :
    (b.select selectors).error = b.error := error_addSelect _ selectors

/-- Adding a criterion raises no error. -/
theorem error_pushOrder (b : Builder) (order : Order) : (b.pushOrder order).error = b.error := by
  unfold pushOrder
  split <;> rfl

/-- A limit raises no error. -/
theorem error_limitTo (b : Builder) (count : Nat) : (b.limitTo count).error = b.error := by
  unfold limitTo
  split <;> rfl

/-- An offset raises no error. -/
theorem error_skip (b : Builder) (count : Nat) : (b.skip count).error = b.error := by
  unfold skip
  split <;> rfl

/-- A copy has the error of the original. -/
theorem error_copyOf (b : Builder) (next : Nat) : (b.copyOf next).1.error = b.error := by
  have herror := congrArg Clauses.error (b.compiled_copyOf next)
  exact herror

end keeping

section scoping

/-- A sub-query keeps its error under another variable. -/
theorem error_rescoped [Naming] (b sub : Builder) : (b.rescoped sub).error = sub.error := by
  unfold rescoped
  split
  · split <;> rfl
  · split <;> rfl
  · rfl

/-- A sub-query keeps its error in the scope of a builder. -/
theorem error_scopedFor [Naming] (b sub : Builder) (category : Category) :
    (b.scopedFor sub category).error = sub.error := by
  unfold scopedFor
  split
  · exact b.error_rescoped sub
  · rfl

end scoping

section handing

/-! ### Errors of what is handed over -/

/-- A group of conditions on the source of a builder. -/
def group (b : Builder) (make : Builder → Supply Builder) :
    Supply Builder := do make (← b.forNested)

/-- The clause of a join with a collection, under the conditions that a function adds. -/
def joinClause [Naming] (b : Builder) (table : String) (restrict : Builder → Supply Builder) :
    Supply Builder := do
  let (name, docVar, b) := b.register table
  let joined ← b.forSubQuery
  restrict { joined with source := some (.collection name docVar) }

/-- A method that goes on from a sub-query that has been taken over, and keeps the error. -/
theorem error_adopt [Naming] {f : Builder × Builder → Supply Builder} {arg : SubQuery}
    (hfree : b.error = none) (hsub : (b.subBuilder arg next).1.error = some e) (category : Category)
    (hf : ∀ p, p.2.error = some e → (f p).Always (·.error = some e)) :
    ((b.adopt arg category >>= f) next).1.error = some e := by
  refine hf (b.adopt arg category next).1 ?_ _
  change b.error.or (b.scopedFor (b.subBuilder arg next).1 category).error = some e
  rw [hfree, error_scopedFor, hsub]
  rfl

/-- A query with an error fails where it is embedded. -/
theorem embedded_of_error (h : sub.error = some e) : sub.embedded = .fail e := by
  have hfragment : (Query.of sub).fragment.error = some e := by
    rw [Query.fragment, Query.count_of]
    exact h
  rw [embedded, Fragment.embedded, hfragment]

/-- A query as an operand, and any error of compiling it. -/
theorem error_bind_query [Naming] {f : Bound × Builder → Supply Builder} {next' : Nat}
    {category : Category} (hfree : b.error = none)
    (hsub : (b.scopedFor sub category).embedded next = (.error e, next'))
    (hf : ∀ p, p.2.error = some e → (f p).Always (·.error = some e)) :
    ((b.bind (.query sub) category >>= f) next).1.error = some e := by
  have hresult : (b.scopedFor sub category).embedded.run next = (.error e, next') := hsub
  have hbind : b.bind (.query sub) category next = ((.raw "", b.fail e), next') :=
    bind_result hresult
  rw [bind_result hbind]
  exact hf _ (error_fail_of_free hfree e) next'

end handing

end Builder

/-- A sub-query argument comes to a builder when a method asks for it, with this number the next. -/
def SubQuery.Gives (arg : SubQuery) (b : Builder) (next : Nat) (sub : Builder) : Prop :=
  (b.subBuilder arg next).1 = sub

/-- A method of a builder is handed another builder: a sub-query, a query as an operand, a group of
conditions or the clause of a join. An operator must be a legal one where it is looked at first. -/
inductive Hands [Naming] (b : Builder) (next : Nat) (sub : Builder) : Supply Builder → Prop
  | fromQuery {arg : SubQuery} (h : arg.Gives b next sub) (asName : String) :
      Hands b next sub (b.fromQuery arg asName)
  | selectQuery {arg : SubQuery} (h : arg.Gives b next sub) (asName : String) :
      Hands b next sub (b.selectQuery arg asName)
  | setQuery {arg : SubQuery} (h : arg.Gives b next sub) (name : String) :
      Hands b next sub (b.setQuery name arg)
  | set (name : String) : Hands b next sub (b.set name (.query sub))
  | condition (list : ConditionList) (connector : Connector) (column : String)
      (operator : Operator) :
      Hands b next sub (b.condition list connector column (.ok operator) (.query sub))
  | memberOfQuery {arg : SubQuery} (h : arg.Gives b next sub) (negated : Bool) (column : String) :
      Hands b next sub (b.memberOfQuery negated column arg)
  | hasRows {arg : SubQuery} (h : arg.Gives b next sub) (connector : Connector) (negated : Bool) :
      Hands b next sub (b.hasRows connector negated arg)
  | compareQuery {arg : SubQuery} (h : arg.Gives b next sub) (column : String)
      (operator : Operator) : Hands b next sub (b.compareQuery column (.ok operator) arg)
  | length (column : String) (operator : Operator) :
      Hands b next sub (b.length column (.ok operator) (.query sub))
  | date (part : DatePart) (column : String) (operator : Operator) :
      Hands b next sub (b.date part column (.ok operator) (.query sub))
  | nested {make : Builder → Supply Builder} (h : (b.group make next).1 = sub)
      (connector : Connector) : Hands b next sub (b.nested connector make)
  | joinWith {table : String} {restrict : Builder → Supply Builder}
      (h : (b.joinClause table restrict next).1 = sub) (kind : JoinKind) :
      Hands b next sub (b.joinWith kind table restrict)
  | joinQuery {arg : SubQuery} (h : arg.Gives b next sub) (kind : JoinKind) (asName first : String)
      (operator : Except Error Operator) (second : String) :
      Hands b next sub (b.joinQuery kind arg asName first operator second)
  | union {arg : SubQuery} (h : arg.Gives b next sub) (all : Bool) :
      Hands b next sub (b.union all arg)

namespace Builder

/-- The error of what is handed to a builder without an error becomes the error of the builder. -/
theorem error_of_hands [Naming] {step : Supply Builder} (h : Hands b next sub step)
    (hfree : b.error = none) (hsub : sub.error = some e) : (step next).1.error = some e := by
  have hembedded : ∀ category n, (b.scopedFor sub category).embedded n = (.error e, n) := by
    intro category n
    rw [embedded_of_error ((b.error_scopedFor sub category).trans hsub)]
    rfl
  -- What is pushed on a list of conditions leaves the error alone.
  have hpush : ∀ {w : Builder} {list connector test}, w.error = some e →
      (pure (w.push list connector test) : Supply Builder).Always (·.error = some e) :=
    fun hw => always_pure ((error_push _ _ _ _).trans hw)
  cases h with
  | fromQuery h asName =>
      rw [fromQuery, unlessFailedM_of_free hfree]
      exact error_adopt hfree (h ▸ hsub) .source fun p hp => always_pure hp
  | selectQuery h asName =>
      rw [selectQuery, unlessFailedM_of_free hfree]
      exact error_adopt hfree (h ▸ hsub) .select fun p hp => always_pure hp
  | setQuery h name =>
      rw [setQuery, unlessFailedM_of_free hfree]
      exact error_adopt hfree (h ▸ hsub) .definitions fun p hp => always_pure hp
  | set name =>
      rw [set, unlessFailedM_of_free hfree]
      exact error_bind_query hfree (hembedded _ next) fun p hp => always_pure hp
  | condition list connector column operator =>
      have hgiven : (b.subBuilder (.finished sub) next).1.error = some e := hsub
      rw [condition, unlessFailedM_of_free hfree]
      exact error_adopt hfree hgiven list.category fun p hp => hpush hp
  | memberOfQuery h negated column =>
      rw [memberOfQuery, unlessFailedM_of_free hfree]
      exact error_adopt hfree (h ▸ hsub) .filter fun p hp => hpush hp
  | hasRows h connector negated =>
      rw [hasRows, unlessFailedM_of_free hfree]
      exact error_adopt hfree (h ▸ hsub) .filter fun p hp => hpush hp
  | compareQuery h column operator =>
      rw [compareQuery, withOperator, unlessFailedM_of_free hfree]
      exact error_adopt hfree (h ▸ hsub) .filter fun p hp => hpush hp
  | length column operator =>
      rw [length, withOperator, unlessFailedM_of_free hfree]
      exact error_bind_query hfree (hembedded _ next) fun p hp => hpush hp
  | date part column operator =>
      rw [date, withOperator, unlessFailedM_of_free hfree]
      exact error_bind_query hfree (hembedded _ next) fun p hp => hpush hp
  | @nested make h connector =>
      have habsorbed : (b.absorb (b.group make next).1 .filter).error = some e := by
        rw [h, absorb, hfree, hsub]
        rfl
      rw [nested, unlessFailedM_of_free hfree]
      change (if (b.group make next).1.filters.isEmpty then b.absorb (b.group make next).1 .filter
        else (b.absorb (b.group make next).1 .filter).push .filters connector
          (.nested (.of (b.group make next).1))).error = some e
      split
      · exact habsorbed
      · exact (error_push _ _ _ _).trans habsorbed
  | @joinWith table restrict h kind =>
      rw [joinWith, unlessFailedM_of_free hfree]
      change b.error.or (b.joinClause table restrict next).1.error = some e
      rw [hfree, h, hsub]
      rfl
  | joinQuery h kind asName first operator second =>
      rw [joinQuery, unlessFailedM_of_free hfree]
      refine error_adopt hfree (h ▸ hsub) .join fun p hp n => ?_
      change p.2.error.or _ = some e
      rw [hp]
      rfl
  | union h all =>
      rw [union, unlessFailedM_of_free hfree]
      exact error_adopt hfree (h ▸ hsub) .union fun p hp => always_pure hp

section illegal

/-- An operator that is none is looked at before anything that is compared. -/
theorem error_condition_of_illegal [Naming] (hfree : b.error = none) (list : ConditionList)
    (connector : Connector) (column : String) (operand : Operand Builder) :
    (b.condition list connector column (.error e) operand).Always (·.error = some e) := by
  rw [condition, unlessFailedM_of_free hfree]
  exact always_pure (error_fail_of_free hfree e)

/-- An illegal operator is the error of a builder that had none. -/
theorem error_withOperator_of_illegal (hfree : b.error = none)
    (add : Builder → Operator → Supply Builder) :
    (b.withOperator (.error e) add).Always (·.error = some e) := by
  rw [withOperator, unlessFailedM_of_free hfree]
  exact always_pure (error_fail_of_free hfree e)

end illegal

end Builder

end AqlBuilder

/-!
### Calls to a builder with an error

A call evaluates its arguments, which takes query numbers, whether its builder has an error or not.
Then its method keeps the error. The calls that go on with a new builder are left out here; a copy
is no new builder in this sense and has the error of its original.
-/

namespace AqlBuilder

open Supply Builder

/-- A call that goes on with its builder or a copy of it. -/
def Call.Mutates {S : Type} : Call S → Prop
  | .forSubQuery => False
  | .forNested => False
  | .restart _ => False
  | _ => True

variable {α : Type} {b : Builder} {e : Error}

/-- A call keeps the error of its builder, whatever its arguments are. -/
theorem Call.error_apply [Naming] {call : Call Action} (hmutates : call.Mutates)
    (h : b.error = some e) :
    (call.apply b).Always (·.error = some e) := by
  -- Methods that leave a builder with an error as it is, after their arguments.
  have hsame : ∀ {change : Builder → Supply Builder},
      (b.unlessFailedM change).Always (·.error = some e) := by
    intro change
    rw [unlessFailedM_of_error h]
    exact always_pure h
  have hargument : ∀ {α : Type} {x : Supply α} {f : α → Supply Builder},
      (∀ a, (f a).Always (·.error = some e)) → (x >>= f).Always (·.error = some e) :=
    fun hf => always_true.bind fun a _ => hf a
  cases call with
  | withPrefix text => exact always_pure h
  | fromCollection table => exact always_pure h
  | fromView view => exact always_pure h
  | fromQuery sub asName => exact hargument fun _ => hsame
  | select selectors => exact hargument fun ss => always_pure ((b.error_select ss).trans h)
  | addSelect selectors => exact hargument fun ss => always_pure ((b.error_addSelect ss).trans h)
  | selectRaw aql asName => exact always_pure h
  | selectQuery sub asName => exact hargument fun _ => hsame
  | distinctRows => exact always_pure h
  | set name operand => exact hargument fun _ => hsame
  | setQuery name sub => exact hargument fun _ => hsame
  | addBinding value category => exact always_pure (error_unlessFailed h _)
  | addBindings operands category => exact hargument fun _ => always_pure (error_unlessFailed h _)
  | setBindings values category => exact always_pure h
  | mergeBindings script category =>
      -- Opened by hand, as `exact` alone would evaluate the merged bindings.
      have hmerged : ∀ other, (b.mergeBindings other category).error = some e := fun other => by
        rw [Builder.mergeBindings]
        exact h
      exact hargument fun _ => hargument fun other => always_pure (hmerged other)
  | condition list connector column operator operand => exact hargument fun _ => hsame
  | compareColumns connector first operator second => exact always_pure (error_unlessFailed h _)
  | member connector negated column values => exact hsame
  | memberOfQuery negated column sub => exact hargument fun _ => hsame
  | memberOf negated column values => exact always_pure (error_unlessFailed h _)
  | isNull list connector negated column => exact always_pure ((b.error_push _ _ _).trans h)
  | between list connector negated column bounds => exact always_pure (error_unlessFailed h _)
  | nested connector script => exact hsame
  | hasRows connector negated sub => exact hargument fun _ => hsame
  | compareQuery column operator sub => exact hargument fun _ => hsame
  | rawCondition list connector aql => exact always_pure (error_unlessFailed h _)
  | contains negated column value => exact always_pure (error_unlessFailed h _)
  | length column operator operand => exact hargument fun _ => hsame
  | date part column operator operand => exact hargument fun _ => hsame
  | like connector column pattern caseSensitive => exact hsame
  | notLike column pattern => exact hsame
  | join kind table first operator second => exact hsame
  | joinWith kind table calls => exact hsame
  | crossJoin table => exact hsame
  | joinQuery kind sub asName first operator second => exact hargument fun _ => hsame
  | rightJoin => exact always_pure (error_fail h _)
  | rightJoinQuery sub => exact hargument fun _ => always_pure (error_fail h _)
  | groupBy selectors => exact hargument fun _ => always_pure h
  | groupByRaw aql => exact always_pure h
  | orderBy column direction => exact always_pure (error_unlessFailed h _)
  | orderIn column direction => exact always_pure (error_unlessFailed h _)
  | latest column => exact always_pure (error_unlessFailed h _)
  | oldest column => exact always_pure (error_unlessFailed h _)
  | order o => exact always_pure ((b.error_pushOrder o).trans h)
  | reorder => exact always_pure h
  | reorderBy column direction =>
      have hreordered : b.reorder.error = some e := h
      exact always_pure (error_unlessFailed hreordered _)
  | limitTo count => exact always_pure ((b.error_limitTo count).trans h)
  | skip count => exact always_pure ((b.error_skip count).trans h)
  | forPage page perPage =>
      exact always_pure ((error_limitTo _ perPage).trans ((b.error_skip _).trans h))
  | union all sub => exact hargument fun _ => hsame
  | fullTextSearch fields text analyzer =>
      exact hargument fun _ => always_pure (error_unlessFailed h _)
  | copy => exact fun next => (b.error_copyOf next).trans h
  | forSubQuery => exact hmutates.elim
  | forNested => exact hmutates.elim
  | restart table => exact hmutates.elim

/-- So does any sequence of calls. -/
theorem Call.error_applyAll [Naming] {calls : List (Call Action)}
    (hmutates : ∀ call ∈ calls, call.Mutates)
    (h : b.error = some e) : (Call.applyAll calls b).Always (·.error = some e) := by
  induction calls generalizing b with
  | nil => exact always_pure h
  | cons call rest ih =>
      refine (Call.error_apply (hmutates call List.mem_cons_self) h).bind fun b' hb' => ?_
      exact ih (fun call hcall => hmutates call (List.mem_cons_of_mem _ hcall)) hb'

end AqlBuilder

import AqlBuilder.Alias.Rules
import AqlBuilder.Proofs.Builder.Failure

/-!
# What is left of a call after an error

A method that may fail looks for an error before anything else and then leaves its builder as it is.
The methods that cannot fail do not look: they change a builder with an error just as they change
one without, and only the error itself is out of their reach. One call is made of a method of either
kind: it forgets the orders, whatever the error is, and then adds an order only if there is none.

- `Call.leftover?` is what a call still does to a builder with an error.
- `Call.apply_withError` says that such a call and the error do not touch each other;
  `Call.ignored` and `Call.reduced` are the step of one call after an error.
- `Builder.later_calls` states the step and a run of the calls that do nothing.
-/

namespace AqlBuilder

open Supply Builder

/-- A call that changes its builder, which is neither replaced nor copied. -/
def Call.Fluent {S : Type} : Call S → Prop
  | .copy => False
  | call => call.Mutates

/-- What a call does to a builder with an error, if it does anything. -/
def Call.leftover? {S : Type} : Call S → Option (Call S)
  | .withPrefix tablePrefix => some (.withPrefix tablePrefix)
  | .fromCollection table => some (.fromCollection table)
  | .fromView view => some (.fromView view)
  | .select selectors => some (.select selectors)
  | .addSelect selectors => some (.addSelect selectors)
  | .selectRaw aql asName => some (.selectRaw aql asName)
  | .distinctRows => some .distinctRows
  | .setBindings values category => some (.setBindings values category)
  | .mergeBindings script category => some (.mergeBindings script category)
  | .isNull list connector negated column => some (.isNull list connector negated column)
  | .groupBy selectors => some (.groupBy selectors)
  | .groupByRaw aql => some (.groupByRaw aql)
  | .order o => some (.order o)
  | .reorder => some .reorder
  | .reorderBy _ _ => some .reorder
  | .limitTo count => some (.limitTo count)
  | .skip count => some (.skip count)
  | .forPage page perPage => some (.forPage page perPage)
  | _ => none

variable {b : Builder} {e : Error} {x : Option Error}

namespace Builder

/-- A builder with another error, or without one. -/
def withError (b : Builder) (x : Option Error) : Builder := { b with error := x }

section apart

/-! ### Methods that do not look for an error -/

theorem withError_of_error (h : b.error = x) : b.withError x = b := by
  rw [withError, ← h]

/-- A test is added whatever the error is. -/
theorem push_withError (b : Builder) (list : ConditionList) (connector : Connector)
    (test : Test Query) :
    (b.withError x).push list connector test = (b.push list connector test).withError x := by
  cases list <;> rfl

/-- Parts are added to the projection whatever the error is. -/
theorem addSelect_withError (b : Builder) (selectors : List (Selector Query)) :
    (b.withError x).addSelect selectors = (b.addSelect selectors).withError x := by
  induction selectors generalizing b with
  | nil => rfl
  | cons selector rest ih =>
      have hone : (b.withError x).selectOne selector = (b.selectOne selector).withError x := by
        cases selector <;> rfl
      change ((b.withError x).selectOne selector).addSelect rest = _
      rw [hone]
      exact ih (b.selectOne selector)

/-- A criterion is added whatever the error is. -/
theorem pushOrder_withError (b : Builder) (order : Order) :
    (b.withError x).pushOrder order = (b.pushOrder order).withError x := by
  unfold pushOrder
  rw [apply_ite (Builder.withError · x)]
  rfl

/-- A builder is limited whatever the error is. -/
theorem limitTo_withError (b : Builder) (count : Nat) :
    (b.withError x).limitTo count = (b.limitTo count).withError x := by
  unfold limitTo
  rw [apply_ite (Builder.withError · x)]
  rfl

/-- Rows are skipped whatever the error is. -/
theorem skip_withError (b : Builder) (count : Nat) :
    (b.withError x).skip count = (b.skip count).withError x := by
  unfold skip
  rw [apply_ite (Builder.withError · x)]
  rfl

end apart

end Builder

namespace Call

/-- A call that does not look for an error changes a builder in the same way with any error. -/
theorem apply_withError [Naming] {call : Call Action} (h : call.leftover? = some call) (b : Builder)
    (next : Nat) :
    (call.apply (b.withError x) next).1 = ((call.apply b next).1).withError x := by
  cases call with
  | withPrefix text => rfl
  | fromCollection table => rfl
  | fromView view => rfl
  | select selectors => exact addSelect_withError { b with columns := [], bindings := _ } _
  | addSelect selectors => exact addSelect_withError b _
  | selectRaw aql asName => rfl
  | distinctRows => rfl
  | setBindings values category => rfl
  | mergeBindings script category => rfl
  | isNull list connector negated column => exact push_withError b list connector _
  | groupBy selectors => rfl
  | groupByRaw aql => rfl
  | order o => exact pushOrder_withError b o
  | reorder => rfl
  | limitTo count => exact limitTo_withError b count
  | skip count => exact skip_withError b count
  | forPage page perPage =>
      change ((b.withError x).skip _).limitTo perPage = _
      rw [skip_withError, limitTo_withError]
      rfl
  | reorderBy column direction => cases h
  | _ => cases h

/-- What is left of a call is a call that does not look for an error: the call itself, or the first
of two methods. -/
theorem leftover?_eq_some {call rest : Call Action} (h : call.leftover? = some rest) :
    rest.leftover? = some rest ∧
      (rest = call ∨ ∃ column direction, call = .reorderBy column direction ∧ rest = .reorder) := by
  cases call with
  | reorderBy column direction =>
      obtain rfl := Option.some.inj h
      exact ⟨rfl, .inr ⟨column, direction, rfl, rfl⟩⟩
  | _ =>
      cases h
      try exact ⟨rfl, .inl rfl⟩

/-- After an error a call of which nothing is left does nothing, whatever its arguments are. -/
theorem ignored [Naming] {call : Call Action} (hfluent : call.Fluent)
    (hnone : call.leftover? = none) (h : b.error = some e) : (call.apply b).Always (· = b) := by
  -- Methods that look for an error, after their arguments.
  have hsame : ∀ {change : Builder → Supply Builder}, (b.unlessFailedM change).Always (· = b) := by
    intro change
    rw [unlessFailedM_of_error h]
    exact always_pure rfl
  have hplain : ∀ {change : Builder → Builder},
      (pure (b.unlessFailed change) : Supply Builder).Always (· = b) :=
    always_pure (unlessFailed_of_error h _)
  have horder : ∀ column direction, b.orderBy column direction = b :=
    fun _ _ => unlessFailed_of_error h _
  have hargument : ∀ {α : Type} {x : Supply α} {f : α → Supply Builder},
      (∀ a, (f a).Always (· = b)) → (x >>= f).Always (· = b) :=
    fun hf => always_true.bind fun a _ => hf a
  -- A further error is not recorded.
  have hfail : ∀ {e'}, (pure (b.fail e') : Supply Builder).Always (· = b) := by
    intro e'
    unfold fail
    rw [h]
    exact always_pure (withError_of_error h)
  cases call with
  | fromQuery sub asName => exact hargument fun _ => hsame
  | selectQuery sub asName => exact hargument fun _ => hsame
  | set name operand => exact hargument fun _ => hsame
  | setQuery name sub => exact hargument fun _ => hsame
  | addBinding value category => exact hplain
  | addBindings operands category => exact hargument fun _ => hplain
  | condition list connector column operator operand => exact hargument fun _ => hsame
  | compareColumns connector first operator second => exact hplain
  | member connector negated column values => exact hsame
  | memberOfQuery negated column sub => exact hargument fun _ => hsame
  | memberOf negated column values => exact hplain
  | between list connector negated column bounds => exact hplain
  | nested connector script => exact hsame
  | hasRows connector negated sub => exact hargument fun _ => hsame
  | compareQuery column operator sub => exact hargument fun _ => hsame
  | rawCondition list connector aql => exact hplain
  | contains negated column value => exact hplain
  | length column operator operand => exact hargument fun _ => hsame
  | date part column operator operand => exact hargument fun _ => hsame
  | like connector column pattern caseSensitive => exact hsame
  | notLike column pattern => exact hsame
  | join kind table first operator second => exact hsame
  | joinWith kind table calls => exact hsame
  | crossJoin table => exact hsame
  | joinQuery kind sub asName first operator second => exact hargument fun _ => hsame
  | rightJoin => exact hfail
  | rightJoinQuery sub => exact hargument fun _ => hfail
  | orderBy column direction => exact always_pure (horder _ _)
  | orderIn column direction => exact always_pure (horder _ _)
  | latest column => exact always_pure (horder _ _)
  | oldest column => exact always_pure (horder _ _)
  | union all sub => exact hargument fun _ => hsame
  | fullTextSearch fields text analyzer => exact hargument fun _ => hplain
  | copy => exact hfluent.elim
  | forSubQuery => exact hfluent.elim
  | forNested => exact hfluent.elim
  | restart table => exact hfluent.elim
  | _ => cases hnone

/-- After an error a call does what is left of it, and the error does not matter for that. -/
theorem reduced [Naming] {call rest : Call Action} (hsome : call.leftover? = some rest)
    (h : b.error = some e) (next : Nat) :
    (call.apply b next).1 = ((rest.apply (b.withError none) next).1).withError (some e) := by
  obtain ⟨hrest, hcall⟩ := leftover?_eq_some hsome
  -- The error may be taken away and put back.
  have hleft : (rest.apply b next).1 =
      ((rest.apply (b.withError none) next).1).withError (some e) := by
    rw [← apply_withError hrest]
    exact congrArg (fun w => (rest.apply w next).1) (withError_of_error h).symm
  rcases hcall with rfl | ⟨column, direction, rfl, rfl⟩
  · exact hleft
  · -- The orders are gone before the second method sees the error.
    have hreordered : b.reorder.error = some e := h
    have hstopped : b.reorder.orderBy column (Direction.ofText direction) = b.reorder :=
      unlessFailed_of_error hreordered _
    exact hstopped.trans hleft

/-- A run of calls of which nothing is left after an error. -/
theorem applyAll_ignored [Naming] {calls : List (Call Action)}
    (hcalls : ∀ call ∈ calls, call.Fluent ∧ call.leftover? = none) (h : b.error = some e) :
    (applyAll calls b).Always (· = b) := by
  induction calls with
  | nil => exact always_pure rfl
  | cons call rest ih =>
      obtain ⟨hfluent, hnone⟩ := hcalls call List.mem_cons_self
      refine (ignored hfluent hnone h).bind fun b' hb' => ?_
      subst hb'
      exact ih fun call hcall => hcalls call (List.mem_cons_of_mem _ hcall)

end Call

namespace Builder

/-- **What calls do after an error.**  A call to a builder with an error leaves it as it is, if
nothing is left of the call. Otherwise the builder changes as it would without the error, and has
the same error afterwards. A run of calls of which nothing is left changes nothing. -/
theorem later_calls [Naming] (h : b.error = some e) :
    (∀ call : Call Action, call.Fluent → ∀ next, (call.apply b next).1 =
      match call.leftover? with
      | none => b
      | some rest => ((rest.apply (b.withError none) next).1).withError (some e)) ∧
    ∀ calls : List (Call Action), (∀ call ∈ calls, call.Fluent ∧ call.leftover? = none) →
      (Call.applyAll calls b).Always (· = b) := by
  refine ⟨fun call hfluent next => ?_, fun calls hcalls => Call.applyAll_ignored hcalls h⟩
  cases hleft : call.leftover? with
  | none => exact Call.ignored hfluent hleft h next
  | some rest => exact Call.reduced hleft h next

/-- Characters in an order with a direction that is none. -/
def misordered : Builder :=
  orderBy { Clauses.empty 1 with source := some (.collection "characters" "characterDoc") } "name"
    (Direction.ofText "upwards")

theorem error_misordered : misordered.error = some (.invalidArgument .illegalDirection) := rfl

/-- A source that is named after the error replaces the one before it. -/
theorem source_replaced_after_error :
    let b := (Call.apply misordered (.fromCollection "locations as l") 2).1
    b.error = misordered.error ∧ misordered.docVar = some "characterDoc" ∧
      b.docVar = some "l" := by
  have hmutates : (Call.fromCollection "locations as l" : Call Action).Mutates := trivial
  have hkept := Call.error_apply hmutates error_misordered 2
  refine ⟨hkept.trans error_misordered.symm, ?_, ?_⟩ <;> decide +kernel

/-- A filter and a limit after the error: the filter does nothing, the limit is there. -/
theorem limit_after_error :
    (Call.apply misordered (.compareColumns .and "name" (.spelling "==") "surname") 2).1 =
        misordered ∧
      (Call.apply misordered (.limitTo 3) 2).1 =
        ((misordered.withError none).limitTo 3).withError
          (some (.invalidArgument .illegalDirection)) := by
  obtain ⟨hstep, -⟩ := later_calls error_misordered
  exact ⟨hstep (.compareColumns .and "name" (.spelling "==") "surname") trivial 2,
    hstep (.limitTo 3) trivial 2⟩

end Builder

end AqlBuilder

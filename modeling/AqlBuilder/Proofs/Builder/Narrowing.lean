import AqlBuilder.Proofs.Builder.Reference
import AqlBuilder.Proofs.Builder.Stores
import AqlBuilder.Script.Call

/-!
# Methods that only add conditions

What a condition needs is filed among the values of its builder, and the test goes behind the
conditions that are there. All other clauses stay, and so do the names that the builder can see.

- `Builder.SameClauses`: a builder with other values. What is taken over or bound leaves one behind.
- `Clauses.around` is a query without its conditions, its values and its error.
- `Builder.Narrows` says that the conditions of one builder begin with those of another one, and
  that the two agree around them.
- `Builder.narrows_condition` and its neighbours are the methods.
- `Call.Narrowing` are the calls to them; by `Call.narrows_apply` each of them narrows its builder,
  and by `JoinCall.narrows_applyAll` so does the body of a join.
-/

namespace AqlBuilder

open Supply

/-- A query with the same clauses over other values, with or without an error. -/
def Builder.SameClauses (b w : Builder) : Prop :=
  ∃ bindings error, w = { b with bindings := bindings, error := error }

/-- A query around its conditions. -/
def Clauses.around {Q : Type} (c : Clauses Q) : Clauses Q :=
  { c with filters := [], havings := [], bindings := .empty 0, error := none }

/-- A call that adds conditions or values, or an error and nothing else. -/
def Call.Narrowing {S : Type} : Call S → Prop
  | .addBinding _ _ | .addBindings _ _ | .setBindings _ _ | .mergeBindings _ _ => True
  | .condition _ _ _ _ _ | .compareColumns _ _ _ _ | .rawCondition _ _ _ => True
  | .member _ _ _ _ | .memberOfQuery _ _ _ | .memberOf _ _ _ | .isNull _ _ _ _ => True
  | .between _ _ _ _ _ | .nested _ _ | .hasRows _ _ _ | .compareQuery _ _ _ => True
  | .contains _ _ _ | .length _ _ _ | .date _ _ _ _ | .like _ _ _ _ | .notLike _ _ => True
  | .rightJoin | .rightJoinQuery _ => True
  | _ => False

/-- A builder with further conditions behind its own, and with any values and any error. -/
structure Builder.Narrows (b w : Builder) : Prop where
  around : w.around = b.around
  filters : b.filters <+: w.filters
  havings : b.havings <+: w.havings

namespace Builder

variable {b w w' : Builder}

namespace SameClauses

theorem refl (b : Builder) : b.SameClauses b := ⟨b.bindings, b.error, rfl⟩

theorem trans (h : b.SameClauses w) (h' : w.SameClauses w') : b.SameClauses w' := by
  obtain ⟨bindings, error, rfl⟩ := h
  obtain ⟨bindings', error', rfl⟩ := h'
  exact ⟨bindings', error', rfl⟩

theorem fail (b : Builder) (e : Error) : b.SameClauses (b.fail e) := ⟨b.bindings, _, rfl⟩

/-- Taking over values leaves the clauses. -/
theorem absorb (b sub : Builder) (category : Category) : b.SameClauses (b.absorb sub category) := by
  unfold Builder.absorb
  exact ⟨_, _, rfl⟩

/-- Binding a value leaves the clauses. -/
theorem bindValue (b : Builder) (value : Value) (category : Category) :
    b.SameClauses (b.bindValue value category).2 := by
  rw [bindValue_eq]
  cases value.reference? with
  | some text => exact refl b
  | none => exact ⟨_, b.error, rfl⟩

/-- Taking over a sub-query leaves the clauses. -/
theorem adopt [Naming] (b : Builder) (sub : SubQuery) (category : Category) :
    (b.adopt sub category).Always fun r => b.SameClauses r.2 :=
  always_true.bind fun query _ => always_pure (absorb b (b.scopedFor query category) category)

/-- Binding an operand leaves the clauses. -/
theorem bind [Naming] (b : Builder) (operand : Operand Builder) (category : Category) :
    (b.bind operand category).Always fun r => b.SameClauses r.2 := by
  cases operand with
  | value v => exact always_pure (bindValue b v category)
  | expression aql => exact always_pure (refl b)
  | column name => exact always_pure (refl b)
  | query q =>
      refine always_true.bind fun result _ => ?_
      cases result with
      | ok aql => exact always_pure (absorb b _ category)
      | error e => exact always_pure (fail b e)

/-- No condition is added. The values are not looked at. -/
theorem narrows (h : b.SameClauses w) : b.Narrows w := by
  obtain ⟨bindings, error, rfl⟩ := h
  exact ⟨rfl, List.prefix_rfl, List.prefix_rfl⟩

end SameClauses

namespace Narrows

theorem refl (b : Builder) : b.Narrows b := ⟨rfl, List.prefix_rfl, List.prefix_rfl⟩

theorem trans (h : b.Narrows w) (h' : w.Narrows w') : b.Narrows w' :=
  ⟨h'.around.trans h.around, h.filters.trans h'.filters, h.havings.trans h'.havings⟩

/-- What does not depend on conditions, values and errors is the same. -/
theorem unchanged {α : Type} (h : b.Narrows w) (f : Builder → α)
    (hf : ∀ c : Builder, f c.around = f c) : f w = f b :=
  calc f w = f w.around := (hf w).symm
    _ = f b.around := congrArg f h.around
    _ = f b := hf b

theorem scope (h : b.Narrows w) : w.scope = b.scope := h.unchanged Clauses.scope fun _ => rfl

theorem aliases (h : b.Narrows w) : w.aliases = b.aliases :=
  h.unchanged Clauses.aliases fun _ => rfl

theorem joins (h : b.Narrows w) : w.joins = b.joins := h.unchanged Clauses.joins fun _ => rfl

theorem source (h : b.Narrows w) : w.source = b.source := h.unchanged Clauses.source fun _ => rfl

end Narrows

section methods

/-- Adding a test narrows a builder. -/
theorem narrows_push (b : Builder) (list : ConditionList) (connector : Connector)
    (test : Test Query) : b.Narrows (b.push list connector test) := by
  cases list with
  | filters => exact ⟨rfl, List.prefix_append _ _, List.prefix_rfl⟩
  | havings => exact ⟨rfl, List.prefix_rfl, List.prefix_append _ _⟩

/-- A sub-query that becomes part of a condition. -/
theorem narrows_adopt_push [Naming] (b : Builder) (sub : SubQuery) (category : Category)
    (list : ConditionList) (connector : Connector) (test : Builder → Test Query) :
    (do let (query, b) ← b.adopt sub category
        pure (b.push list connector (test query)) : Supply Builder).Always b.Narrows :=
  (SameClauses.adopt b sub category).bind fun r hr =>
    always_pure (hr.narrows.trans (r.2.narrows_push _ _ _))

/-- An operand that becomes part of a condition. -/
theorem narrows_bind_push [Naming] (b : Builder) (operand : Operand Builder) (category : Category)
    (list : ConditionList) (connector : Connector) (test : Bound → Test Query) :
    (do let (value, b) ← b.bind operand category
        pure (b.push list connector (test value)) : Supply Builder).Always b.Narrows :=
  (SameClauses.bind b operand category).bind fun r hr =>
    always_pure (hr.narrows.trans (r.2.narrows_push _ _ _))

/-- Adding a comparison narrows a builder. -/
theorem narrows_addComparison [Naming] (b : Builder) (list : ConditionList) (connector : Connector)
    (column : String) (operator : Operator) (operand : Operand Builder) :
    (b.addComparison list connector column operator operand).Always b.Narrows := by
  unfold addComparison
  split
  · exact b.narrows_adopt_push _ _ _ _ _
  · refine always_pure ?_
    split
    · exact b.narrows_push _ _ _
    · exact (SameClauses.fail b _).narrows
  · split
    · exact always_pure ((SameClauses.fail b _).narrows)
    · exact b.narrows_bind_push _ _ _ _ (valueTest column operator)

/-- A condition narrows a builder, with a legal operator or without one. -/
theorem narrows_withOperator (b : Builder) (operator : Except Error Operator)
    {add : Builder → Operator → Supply Builder} (hadd : ∀ o, (add b o).Always b.Narrows) :
    (b.withOperator operator add).Always b.Narrows := by
  refine always_unlessFailedM (.refl b) ?_
  cases operator with
  | ok o => exact hadd o
  | error e => exact always_pure (SameClauses.fail b e).narrows

/-- A condition on a column narrows a builder. -/
theorem narrows_condition [Naming] (b : Builder) (list : ConditionList) (connector : Connector)
    (column : String) (operator : Except Error Operator) (operand : Operand Builder) :
    (b.condition list connector column operator operand).Always b.Narrows :=
  b.narrows_withOperator operator fun o => b.narrows_addComparison list connector column o operand

/-- A comparison of two columns narrows a builder. -/
theorem narrows_compareColumns (b : Builder) (connector : Connector) (first : String)
    (operator : Except Error Operator) (second : String) :
    b.Narrows (b.compareColumns connector first operator second) := by
  refine of_unlessFailed (.refl b) ?_
  cases operator with
  | ok o => exact b.narrows_push _ _ _
  | error e => exact (SameClauses.fail b e).narrows

/-- A test for a range narrows a builder. -/
theorem narrows_between (b : Builder) (list : ConditionList) (connector : Connector)
    (negated : Bool) (column : String) (bounds : Value) :
    b.Narrows (b.between list connector negated column bounds) := by
  refine of_unlessFailed (.refl b) ?_
  dsimp only
  split
  · refine .trans ?_ (narrows_push _ _ _ _)
    exact ((SameClauses.bindValue b _ _).trans (SameClauses.bindValue _ _ _)).narrows
  · exact (SameClauses.fail b _).narrows

/-- Adding a value narrows a builder by nothing. -/
theorem narrows_addBinding (b : Builder) (value : Value) (category : String) :
    b.Narrows (b.addBinding value category) := by
  refine of_unlessFailed (.refl b) ?_
  cases Category.ofName category with
  | ok c => exact SameClauses.narrows ⟨_, b.error, rfl⟩
  | error e => exact (SameClauses.fail b e).narrows

/-- Adding values narrows a builder by nothing. -/
theorem narrows_addBindings (b : Builder) (operands : List (Operand Builder)) (category : String) :
    b.Narrows (b.addBindings operands category) := by
  refine of_unlessFailed (.refl b) ?_
  induction Operand.values operands generalizing b with
  | nil => exact .refl b
  | cons v rest ih => exact (b.narrows_addBinding v category).trans (ih (b.addBinding v category))

/-- Taking over the values of another builder narrows a builder by nothing. -/
theorem narrows_mergeBindings (b other : Builder) (category : Option Category) :
    b.Narrows (b.mergeBindings other category) := by
  unfold mergeBindings
  exact SameClauses.narrows ⟨_, b.error, rfl⟩

/-- A test whether a value is contained narrows a builder. -/
theorem narrows_contains (b : Builder) (negated : Bool) (column : String) (value : Value) :
    b.Narrows (b.contains negated column value) :=
  of_unlessFailed (.refl b) ((SameClauses.bindValue b _ _).narrows.trans (narrows_push _ _ _ _))

/-- A group of conditions. -/
theorem narrows_nested (b : Builder) (connector : Connector) (make : Builder → Supply Builder) :
    (b.nested connector make).Always b.Narrows := by
  refine always_unlessFailedM (.refl b) (always_true.bind fun _ _ => always_true.bind fun group _ =>
    always_pure ?_)
  have habsorbed := (SameClauses.absorb b group .filter).narrows
  split
  · exact habsorbed
  · exact habsorbed.trans (narrows_push _ _ _ _)

end methods

end Builder

open Builder

/-- A call that adds conditions or values changes nothing else. -/
theorem Call.narrows_apply [Naming] (b : Builder) {call : Call Action} (h : call.Narrowing) :
    (call.apply b).Always b.Narrows := by
  have hargument : ∀ {α : Type} {x : Supply α} {f : α → Supply Builder},
      (∀ a, (f a).Always b.Narrows) → (x >>= f).Always b.Narrows :=
    fun hf => always_true.bind fun a _ => hf a
  cases call with
  | addBinding value category => exact always_pure (b.narrows_addBinding value category)
  | addBindings operands category =>
      exact hargument fun os => always_pure (b.narrows_addBindings os category)
  | setBindings values category => exact always_pure (SameClauses.narrows ⟨_, b.error, rfl⟩)
  | mergeBindings script category =>
      exact hargument fun _ => hargument fun other =>
        always_pure (b.narrows_mergeBindings other category)
  | condition list connector column operator operand =>
      exact hargument fun operand => b.narrows_condition _ _ _ _ operand
  | compareColumns connector first operator second =>
      exact always_pure (b.narrows_compareColumns _ _ _ _)
  | member connector negated column values => exact b.narrows_condition _ _ _ _ _
  | memberOfQuery negated column sub =>
      exact hargument fun _ => always_unlessFailedM (.refl b) (b.narrows_adopt_push _ _ _ _ _)
  | memberOf negated column values =>
      exact always_pure (of_unlessFailed (.refl b) (b.narrows_push _ _ _))
  | isNull list connector negated column => exact always_pure (b.narrows_push _ _ _)
  | between list connector negated column bounds =>
      exact always_pure (b.narrows_between _ _ _ _ bounds)
  | nested connector script => exact b.narrows_nested connector script
  | hasRows connector negated sub =>
      exact hargument fun _ => always_unlessFailedM (.refl b)
        (b.narrows_adopt_push _ _ _ _ fun query => .hasRows (.of query) negated)
  | compareQuery column operator sub =>
      exact hargument fun _ => b.narrows_withOperator _ fun _ => b.narrows_adopt_push _ _ _ _ _
  | rawCondition list connector aql =>
      exact always_pure (of_unlessFailed (.refl b) (b.narrows_push _ _ _))
  | contains negated column value => exact always_pure (b.narrows_contains negated column value)
  | length column operator operand =>
      exact hargument fun _ => b.narrows_withOperator _ fun _ => b.narrows_bind_push _ _ _ _ _
  | date part column operator operand =>
      exact hargument fun _ => b.narrows_withOperator _ fun _ => b.narrows_bind_push _ _ _ _ _
  | like connector column pattern caseSensitive => exact b.narrows_condition _ _ _ _ _
  | notLike column pattern => exact b.narrows_condition _ _ _ _ _
  | rightJoin => exact always_pure ((SameClauses.fail b _).narrows)
  | rightJoinQuery sub => exact hargument fun _ => always_pure ((SameClauses.fail b _).narrows)
  | _ => exact h.elim

/-- A call in the body of a join adds a condition. -/
theorem JoinCall.narrows_apply [Naming] (joined : Builder) (call : JoinCall Action) :
    (call.apply joined).Always joined.Narrows := by
  cases call with
  | columns connector first operator second =>
      exact always_pure (joined.narrows_compareColumns _ _ _ _)
  | condition connector column operator operand =>
      exact always_true.bind fun operand _ => joined.narrows_condition _ _ _ _ _
  | member column values => exact joined.narrows_condition _ _ _ _ _
  | isNull negated column => exact always_pure (joined.narrows_push _ _ _)

/-- So does the whole body. -/
theorem JoinCall.narrows_applyAll [Naming] (joined : Builder) (calls : List (JoinCall Action)) :
    (JoinCall.applyAll joined calls).Always joined.Narrows := by
  induction calls generalizing joined with
  | nil => exact always_pure (.refl joined)
  | cons call rest ih =>
      exact (JoinCall.narrows_apply joined call).bind fun w hw =>
        (ih w).mono fun _ hrest => hw.trans hrest

/-!
## Methods that leave the frame of a query alone

Most methods add to a query, order or cut its rows, or file a value. What the query iterates over,
joins and combines is set up by few of them, and so is the table of the collections that it knows.

- `Clauses.frame` is what is left of a query without conditions, projection, orders and values.
- `Call.Framed` are the calls that do not touch the frame, and `Call.frame_apply` says so.
-/

/-- The source, joins, unions, search and aggregate of a query, and the collections that it
knows. -/
def Clauses.frame {Q : Type} (c : Clauses Q) : Clauses Q :=
  { c with
    tablePrefix := ""
    columns := []
    distinct := false
    filters := []
    groups := []
    havings := []
    orders := []
    limit := none
    offset := none
    unionOrders := []
    unionLimit := none
    unionOffset := none
    definitions := []
    bindings := .empty 0
    aliases := { c.aliases with columns := [], definitions := [] }
    error := none }

/-- A call that neither sets up what a query is about nor goes on with another query. -/
def Call.Framed {S : Type} : Call S → Prop
  | .fromCollection _ | .fromView _ | .fromQuery _ _ | .fullTextSearch _ _ _ => False
  | .join _ _ _ _ _ | .joinWith _ _ _ | .crossJoin _ | .joinQuery _ _ _ _ _ _ | .union _ _ => False
  | .copy | .forSubQuery | .forNested | .restart _ => False
  | _ => True

namespace Builder

variable {b w : Builder}

/-- What depends on the frame only is the same. -/
theorem unchanged_of_frame {α : Type} (h : w.frame = b.frame) (f : Builder → α)
    (hf : ∀ c : Builder, f c.frame = f c) : f w = f b :=
  calc f w = f w.frame := (hf w).symm
    _ = f b.frame := congrArg f h
    _ = f b := hf b

/-- The same clauses have the same frame. -/
theorem SameClauses.frame (h : b.SameClauses w) : w.frame = b.frame := by
  obtain ⟨bindings, error, rfl⟩ := h
  rfl

theorem Narrows.frame (h : b.Narrows w) : w.frame = b.frame :=
  h.unchanged Clauses.frame fun _ => rfl

/-- The projection is no part of the frame. -/
theorem frame_addSelect (b : Builder) (selectors : List (Selector Query)) :
    (b.addSelect selectors).frame = b.frame := by
  induction selectors generalizing b with
  | nil => rfl
  | cons selector rest ih =>
      have hone : (b.selectOne selector).frame = b.frame := by cases selector <;> rfl
      exact (ih (b.selectOne selector)).trans hone

/-- Orders are no part of the frame. -/
theorem frame_pushOrder (b : Builder) (order : Order) : (b.pushOrder order).frame = b.frame := by
  unfold pushOrder
  split <;> rfl

/-- Ordering leaves the frame. -/
theorem frame_orderBy (b : Builder) (column : String) (direction : Except Error Direction) :
    (b.orderBy column direction).frame = b.frame := by
  refine of_unlessFailed (p := fun w => w.frame = b.frame) rfl ?_
  cases direction with
  | ok direction => exact b.frame_pushOrder _
  | error e => rfl

/-- Limiting leaves the frame. -/
theorem frame_limitTo (b : Builder) (count : Nat) : (b.limitTo count).frame = b.frame := by
  unfold limitTo
  split <;> rfl

/-- Skipping rows leaves the frame. -/
theorem frame_skip (b : Builder) (count : Nat) : (b.skip count).frame = b.frame := by
  unfold skip
  split <;> rfl

end Builder

/-- A call that does not touch the frame leaves it alone, whatever it takes over. -/
theorem Call.frame_apply [Naming] (b : Builder) {call : Call Action} (h : call.Framed) :
    (call.apply b).Always (·.frame = b.frame) := by
  by_cases hnarrowing : call.Narrowing
  · exact (Call.narrows_apply b hnarrowing).mono fun _ hw => hw.frame
  have hplain : ∀ {w : Builder}, w.frame = b.frame →
      (pure w : Supply Builder).Always (·.frame = b.frame) := fun hw => always_pure hw
  have hargument : ∀ {α : Type} {x : Supply α} {f : α → Supply Builder},
      (∀ a, (f a).Always (·.frame = b.frame)) → (x >>= f).Always (·.frame = b.frame) :=
    fun hf => always_true.bind fun a _ => hf a
  -- A sub-query or an operand that is taken over and then becomes part of a clause.
  have hadopt : ∀ {arg category} {f : Builder × Builder → Supply Builder},
      (∀ r, (f r).Always (·.frame = r.2.frame)) →
      (b.unlessFailedM fun b => b.adopt arg category >>= f).Always (·.frame = b.frame) :=
    fun hf => always_unlessFailedM rfl ((SameClauses.adopt b _ _).bind fun r hr =>
      (hf r).mono fun _ hw => hw.trans hr.frame)
  have hbind : ∀ {operand category} {f : Bound × Builder → Supply Builder},
      (∀ r, (f r).Always (·.frame = r.2.frame)) →
      (b.unlessFailedM fun b => b.bind operand category >>= f).Always (·.frame = b.frame) :=
    fun hf => always_unlessFailedM rfl ((SameClauses.bind b _ _).bind fun r hr =>
      (hf r).mono fun _ hw => hw.trans hr.frame)
  cases call with
  | withPrefix text => exact hplain rfl
  | select selectors => exact hargument fun ss => hplain (frame_addSelect _ ss)
  | addSelect selectors => exact hargument fun ss => hplain (frame_addSelect b ss)
  | selectRaw aql asName => exact hplain rfl
  | selectQuery sub asName => exact hargument fun _ => hadopt fun _ => always_pure rfl
  | distinctRows => exact hplain rfl
  | set name operand => exact hargument fun _ => hbind fun _ => always_pure rfl
  | setQuery name sub => exact hargument fun _ => hadopt fun _ => always_pure rfl
  | groupBy selectors => exact hargument fun _ => hplain rfl
  | groupByRaw aql => exact hplain rfl
  | orderBy column direction => exact hplain (b.frame_orderBy _ _)
  | orderIn column direction => exact hplain (b.frame_orderBy _ _)
  | latest column => exact hplain (b.frame_orderBy _ _)
  | oldest column => exact hplain (b.frame_orderBy _ _)
  | order o => exact hplain (b.frame_pushOrder o)
  | reorder => exact hplain rfl
  | reorderBy column direction => exact hplain (b.reorder.frame_orderBy _ _)
  | limitTo count => exact hplain (b.frame_limitTo count)
  | skip count => exact hplain (b.frame_skip count)
  | forPage page perPage => exact hplain ((frame_limitTo _ _).trans (b.frame_skip _))
  | _ => first | exact h.elim | exact (hnarrowing trivial).elim

end AqlBuilder

import AqlBuilder.Proofs.Builder.Narrowing
import AqlBuilder.Proofs.Builder.Failure

/-!
# Methods that leave conditions alone

What a query iterates over, what it joins, defines, groups and returns is independent of its
conditions. A method that changes one of these may take over the values of a sub-query, but the
conditions stay as they are, and so do the unions and what becomes of the rows of these.

- `Clauses.kept` is what such methods do not touch.
- `Call.Shaping` are the calls to them, and `Call.kept_apply` says so.
- `Builder.Restricts`: the conditions of a builder begin with those of another one.
- `Call.restricts_apply` is the step of any call, and `Call.restricts_applyAll` a run of calls.
-/

namespace AqlBuilder

open Supply

/-- The conditions of a query, whether it has unions, and what orders and limits their rows. -/
def Clauses.kept {Q : Type} (c : Clauses Q) :
    List (Condition Q) × Bool × List Order × Option Nat × Option Nat :=
  (c.filters, c.unions.isEmpty, c.unionOrders, c.unionLimit, c.unionOffset)

/-- A call that changes neither conditions nor orders, limits and unions. -/
def Call.Shaping {S : Type} : Call S → Prop
  | .withPrefix _ | .fromCollection _ | .fromView _ | .fromQuery _ _ => True
  | .select _ | .addSelect _ | .selectRaw _ _ | .selectQuery _ _ | .distinctRows => True
  | .set _ _ | .setQuery _ _ => True
  | .join _ _ _ _ _ | .joinWith _ _ _ | .crossJoin _ | .joinQuery _ _ _ _ _ _ => True
  | .groupBy _ | .groupByRaw _ | .fullTextSearch _ _ _ => True
  | _ => False

namespace Builder

variable {b w : Builder}

/-- The same clauses have the same conditions, orders, limits and unions. -/
theorem SameClauses.kept (h : b.SameClauses w) : w.kept = b.kept := by
  obtain ⟨bindings, error, rfl⟩ := h
  rfl

/-- A join is pushed on what takes its values over. -/
theorem kept_pushJoin (b : Builder) (kind : JoinKind) (joined : Builder) :
    (b.pushJoin kind joined).kept = b.kept := by
  have habsorbed := (SameClauses.absorb b joined .join).kept
  unfold pushJoin
  generalize b.absorb joined .join = w at habsorbed ⊢
  exact habsorbed

/-- Adding to the projection leaves conditions, orders, limits and unions. -/
theorem kept_addSelect (b : Builder) (selectors : List (Selector Query)) :
    (b.addSelect selectors).kept = b.kept := by
  induction selectors generalizing b with
  | nil => rfl
  | cons selector rest ih =>
      have hone : (b.selectOne selector).kept = b.kept := by cases selector <;> rfl
      exact (ih (b.selectOne selector)).trans hone

/-- A join leaves conditions, orders, limits and unions. -/
theorem kept_joinWith [Naming] (b : Builder) (kind : JoinKind) (table : String)
    (restrict : Builder → Supply Builder) :
    (b.joinWith kind table restrict).Always (·.kept = b.kept) :=
  always_unlessFailedM rfl (always_true.bind fun _ _ => always_true.bind fun joined _ =>
    always_pure (kept_pushJoin _ kind joined))

theorem kept_registerQuery [Naming] (b query : Builder) (asName : String) :
    (b.registerQuery query asName).2.kept = b.kept := rfl

/-- A join with a sub-query leaves conditions, orders, limits and unions. -/
theorem kept_joinQuery [Naming] (b : Builder) (kind : JoinKind) (sub : SubQuery)
    (asName first : String) (operator : Except Error Operator) (second : String) :
    (b.joinQuery kind sub asName first operator second).Always (·.kept = b.kept) := by
  refine always_unlessFailedM rfl ((SameClauses.adopt b sub .join).bind fun r hr => ?_)
  refine always_true.bind fun joined _ => always_pure ((kept_pushJoin _ kind _).trans ?_)
  exact (r.2.kept_registerQuery r.1 asName).trans hr.kept

/-- A search leaves conditions, orders, limits and unions. -/
theorem kept_fullTextSearch (b : Builder) (fields : List (Selector Query)) (text : Value)
    (analyzer : Option String) : (b.fullTextSearch fields text analyzer).kept = b.kept := by
  refine of_fullTextSearch (p := fun w => w.kept = b.kept) rfl rfl rfl ?_
  rintro _ _ rfl rfl - -
  exact ((SameClauses.bindValue b text .search).trans
    (SameClauses.bindValue _ (.string (analyzer.getD defaultAnalyzer)) .search)).kept

end Builder

open Builder

/-- A call that shapes the query keeps its conditions. -/
theorem Call.kept_apply [Naming] (b : Builder) {call : Call Action} (h : call.Shaping) :
    (call.apply b).Always (·.kept = b.kept) := by
  have hplain : ∀ {w : Builder}, w.kept = b.kept →
      (pure w : Supply Builder).Always (·.kept = b.kept) := fun hw => always_pure hw
  have hargument : ∀ {α : Type} {x : Supply α} {f : α → Supply Builder},
      (∀ a, (f a).Always (·.kept = b.kept)) → (x >>= f).Always (·.kept = b.kept) :=
    fun hf => always_true.bind fun a _ => hf a
  -- A sub-query that is taken over and then becomes part of a clause.
  have hadopt : ∀ {arg category} {f : Builder × Builder → Supply Builder},
      (∀ r, (f r).Always (·.kept = r.2.kept)) →
      (b.unlessFailedM fun b => b.adopt arg category >>= f).Always (·.kept = b.kept) :=
    fun hf => always_unlessFailedM rfl ((SameClauses.adopt b _ _).bind fun r hr =>
      (hf r).mono fun _ hw => hw.trans hr.kept)
  have hbind : ∀ {operand category} {f : Bound × Builder → Supply Builder},
      (∀ r, (f r).Always (·.kept = r.2.kept)) →
      (b.unlessFailedM fun b => b.bind operand category >>= f).Always (·.kept = b.kept) :=
    fun hf => always_unlessFailedM rfl ((SameClauses.bind b _ _).bind fun r hr =>
      (hf r).mono fun _ hw => hw.trans hr.kept)
  cases call with
  | withPrefix text => exact hplain rfl
  | fromCollection table => exact hplain rfl
  | fromView view => exact hplain rfl
  | fromQuery sub asName => exact hargument fun _ => hadopt fun _ => always_pure rfl
  | select selectors => exact hargument fun ss => hplain (kept_addSelect _ ss)
  | addSelect selectors => exact hargument fun ss => hplain (kept_addSelect b ss)
  | selectRaw aql asName => exact hplain rfl
  | selectQuery sub asName => exact hargument fun _ => hadopt fun _ => always_pure rfl
  | distinctRows => exact hplain rfl
  | set name operand => exact hargument fun _ => hbind fun _ => always_pure rfl
  | setQuery name sub => exact hargument fun _ => hadopt fun _ => always_pure rfl
  | join kind table first operator second =>
      exact b.kept_joinWith kind table fun joined =>
        pure (joined.compareColumns .and first operator.operator second)
  | joinWith kind table calls =>
      exact b.kept_joinWith kind table fun joined => JoinCall.applyAll joined calls
  | crossJoin table => exact b.kept_joinWith .cross table fun joined => pure joined
  | joinQuery kind sub asName first operator second =>
      exact hargument fun arg => b.kept_joinQuery kind arg _ _ _ _
  | groupBy selectors => exact hargument fun _ => hplain rfl
  | groupByRaw aql => exact hplain rfl
  | fullTextSearch fields text analyzer =>
      exact hargument fun _ => hplain (b.kept_fullTextSearch _ _ _)
  | _ => exact h.elim

end AqlBuilder

/-!
## Conditions stay

No method takes a condition back. What a builder has been restricted by stands in front of all
conditions that come later, and a copy has the conditions of its original. As a copy has copies of
the sub-queries, the conditions are compared by what their sub-queries contribute.
-/

namespace AqlBuilder

open Supply Builder

/-- A builder whose conditions begin with those of another one. -/
def Builder.Restricts (b w : Builder) : Prop := b.compiled.filters <+: w.compiled.filters

variable {b w w' : Builder}

namespace Builder

theorem Restricts.refl (b : Builder) : b.Restricts b := List.prefix_rfl

theorem Restricts.trans (h : b.Restricts w) (h' : w.Restricts w') : b.Restricts w' :=
  List.IsPrefix.trans h h'

theorem restricts_of_filters (h : b.filters <+: w.filters) : b.Restricts w :=
  h.map (Condition.map Query.fragment)

theorem restricts_of_eq (h : w.filters = b.filters) : b.Restricts w :=
  restricts_of_filters (h ▸ List.prefix_rfl)

/-- Adding a criterion leaves the filter. -/
theorem filters_pushOrder (b : Builder) (order : Order) :
    (b.pushOrder order).filters = b.filters := by
  unfold pushOrder
  split <;> rfl

/-- Ordering leaves the filter. -/
theorem filters_orderBy (b : Builder) (column : String) (direction : Except Error Direction) :
    (b.orderBy column direction).filters = b.filters := by
  unfold orderBy unlessFailed
  split
  · rfl
  · cases direction with
    | ok direction => exact b.filters_pushOrder _
    | error e => rfl

/-- Limiting leaves the filter. -/
theorem filters_limitTo (b : Builder) (count : Nat) : (b.limitTo count).filters = b.filters := by
  unfold limitTo
  split <;> rfl

/-- Skipping rows leaves the filter. -/
theorem filters_skip (b : Builder) (count : Nat) : (b.skip count).filters = b.filters := by
  unfold skip
  split <;> rfl

/-- A union leaves the filter. -/
theorem restricts_union [Naming] (b : Builder) (all : Bool) (sub : SubQuery) :
    (b.union all sub).Always b.Restricts := by
  refine always_unlessFailedM (.refl b) ((SameClauses.adopt b sub .union).bind fun r hr => ?_)
  exact always_pure (restricts_of_filters hr.narrows.filters)

/-- A copy has the conditions of its original. -/
theorem restricts_copyOf (b : Builder) : b.copyOf.Always b.Restricts := by
  intro next
  have hcompiled := congrArg Clauses.filters (b.compiled_copyOf next)
  change (b.copyOf next).1.compiled.filters = b.compiled.filters at hcompiled
  rw [Restricts, hcompiled]

end Builder

/-- No call takes a condition back. -/
theorem Call.restricts_apply [Naming] (b : Builder) {call : Call Action} (hmutates : call.Mutates) :
    (call.apply b).Always b.Restricts := by
  by_cases hnarrowing : call.Narrowing
  · exact (Call.narrows_apply b hnarrowing).mono fun _ hw => restricts_of_filters hw.filters
  by_cases hshaping : call.Shaping
  · exact (Call.kept_apply b hshaping).mono fun _ hw => restricts_of_eq (congrArg Prod.fst hw)
  cases call with
  | orderBy column direction => exact always_pure (restricts_of_eq (b.filters_orderBy _ _))
  | orderIn column direction => exact always_pure (restricts_of_eq (b.filters_orderBy _ _))
  | latest column => exact always_pure (restricts_of_eq (b.filters_orderBy _ _))
  | oldest column => exact always_pure (restricts_of_eq (b.filters_orderBy _ _))
  | order o => exact always_pure (restricts_of_eq (b.filters_pushOrder o))
  | reorder => exact always_pure (restricts_of_eq rfl)
  | reorderBy column direction =>
      exact always_pure (restricts_of_eq (b.reorder.filters_orderBy _ _))
  | limitTo count => exact always_pure (restricts_of_eq (b.filters_limitTo count))
  | skip count => exact always_pure (restricts_of_eq (b.filters_skip count))
  | forPage page perPage =>
      exact always_pure (restricts_of_eq ((filters_limitTo _ _).trans (b.filters_skip _)))
  | union all sub => exact always_true.bind fun _ _ => b.restricts_union all _
  | copy => exact b.restricts_copyOf
  | forSubQuery => exact hmutates.elim
  | forNested => exact hmutates.elim
  | restart table => exact hmutates.elim
  | _ => first | exact (hnarrowing trivial).elim | exact (hshaping trivial).elim

/-- Nor does any sequence of calls. -/
theorem Call.restricts_applyAll [Naming] (b : Builder) {calls : List (Call Action)}
    (hmutates : ∀ call ∈ calls, call.Mutates) :
    (Call.applyAll calls b).Always b.Restricts := by
  induction calls generalizing b with
  | nil => exact always_pure (.refl b)
  | cons call rest ih =>
      refine (Call.restricts_apply b (hmutates call List.mem_cons_self)).bind fun w hw => ?_
      exact (ih w fun call hcall => hmutates call (List.mem_cons_of_mem _ hcall)).mono
        fun _ hrest => hw.trans hrest

end AqlBuilder

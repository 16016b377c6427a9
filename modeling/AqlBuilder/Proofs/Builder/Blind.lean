import AqlBuilder.Proofs.Aql.Alike
import AqlBuilder.Script.Basic

/-!
# Methods that do not look at names

Conditions without queries, groups, orders and limits are kept as they are written; which
collections and variables a builder knows matters when it is compiled, or when it takes over a
query. So such a method does the same to a builder with other names, and leaves the names as they
are.

- `Call.Blind` are the calls to these methods.
- `Call.apply_withAliases` is one call, and `Call.applyAll_withAliases` a run of calls.
-/

namespace AqlBuilder

/-- An operand that is no query. -/
def Operand.Plain {Q : Type} : Operand Q → Prop
  | .query _ => False
  | _ => True

/-- A call to a method that does not look at the names in a builder. -/
def Call.Blind {S : Type} : Call S → Prop
  | .condition _ _ _ _ operand | .length _ _ operand | .date _ _ _ operand => operand.Plain
  | .compareColumns _ _ _ _ | .member _ _ _ _ | .memberOf _ _ _ | .isNull _ _ _ _ => True
  | .between _ _ _ _ _ | .rawCondition _ _ _ | .contains _ _ _ | .like _ _ _ _
    | .notLike _ _ => True
  | .groupBy _ | .groupByRaw _ | .orderBy _ _ | .orderIn _ _ | .latest _ | .oldest _ => True
  | .order _ | .reorder | .reorderBy _ _ | .limitTo _ | .skip _ | .forPage _ _ => True
  | .distinctRows => True
  | _ => False

/-- The builder that is made, with other names. -/
def Supply.withAliases (x : Supply Builder) (r : Registry) : Supply Builder := do
  pure ((← x).withAliases r)

namespace Builder

variable {r : Registry} {b : Builder}

/-- Whether an error stops a step does not depend on the names. -/
theorem unlessFailed_withAliases {change : Builder → Builder}
    (h : change (b.withAliases r) = (change b).withAliases r) :
    unlessFailed (b.withAliases r) change = (b.unlessFailed change).withAliases r := by
  have herror : (b.withAliases r).error = b.error := rfl
  unfold unlessFailed
  rw [herror, h]
  split <;> rfl

/-- Whether an error stops a step that makes new queries does not depend on the names. -/
theorem unlessFailedM_withAliases {change : Builder → Supply Builder}
    (h : change (b.withAliases r) = (change b).withAliases r) :
    unlessFailedM (b.withAliases r) change = (b.unlessFailedM change).withAliases r := by
  have herror : (b.withAliases r).error = b.error := rfl
  unfold unlessFailedM
  rw [herror, h]
  split <;> rfl

/-- A test is added whatever the names are. -/
theorem push_withAliases (list : ConditionList) (connector : Connector) (test : Test Query) :
    push (b.withAliases r) list connector test = (b.push list connector test).withAliases r := by
  cases list <;> rfl

/-- A value is bound whatever the names are. -/
theorem bindValue_withAliases (value : Value) (category : Category) :
    bindValue (b.withAliases r) value category =
      ((b.bindValue value category).1, (b.bindValue value category).2.withAliases r) := by
  cases value with
  | string text =>
      unfold bindValue
      dsimp only
      split <;> rfl
  | _ => rfl

/-- What is done with an operand that is no query and that is bound. -/
theorem bind_withAliases [Naming] {operand : Operand Builder} (h : operand.Plain)
    (category : Category) {use use' : Bound × Builder → Supply Builder}
    (huse : ∀ value w, use' (value, w.withAliases r) = (use (value, w)).withAliases r) :
    (bind (b.withAliases r) operand category >>= use') =
      (b.bind operand category >>= use).withAliases r := by
  cases operand with
  | value v =>
      change use' (bindValue (b.withAliases r) v category) = _
      rw [bindValue_withAliases]
      exact huse _ _
  | expression aql => exact huse _ b
  | column name => exact huse _ b
  | query q => exact h.elim

/-- A comparison with anything but a query is added whatever the names are. -/
theorem addComparison_withAliases [Naming] (list : ConditionList) (connector : Connector)
    (column : String) (operator : Operator) {operand : Operand Builder} (h : operand.Plain) :
    addComparison (b.withAliases r) list connector column operator operand =
      (b.addComparison list connector column operator operand).withAliases r := by
  have hcast : operand.cast.Plain := by cases operand <;> trivial
  unfold addComparison
  generalize operand.cast = operand at hcast
  split
  · exact hcast.elim
  · split
    · exact congrArg pure (push_withAliases ..)
    · rfl
  · split
    · rfl
    · exact bind_withAliases hcast _ fun value w => congrArg pure (push_withAliases ..)

/-- A condition with anything but a query is added whatever the names are. -/
theorem condition_withAliases [Naming] (list : ConditionList) (connector : Connector)
    (column : String)
    (operator : Except Error Operator) {operand : Operand Builder} (h : operand.Plain) :
    condition (b.withAliases r) list connector column operator operand =
      (b.condition list connector column operator operand).withAliases r := by
  refine unlessFailedM_withAliases ?_
  cases operator with
  | ok operator => exact addComparison_withAliases list connector column operator h
  | error e => rfl

/-- A test of what is bound, behind an operator. -/
theorem withOperator_bind_withAliases [Naming] {operand : Operand Builder} (h : operand.Plain)
    (operator : Except Error Operator) (test : Operator → Bound → Test Query) :
    withOperator (b.withAliases r) operator (fun b operator => do
      let (value, b) ← b.bind operand .filter
      pure (b.push .filters .and (test operator value))) =
    (b.withOperator operator fun b operator => do
      let (value, b) ← b.bind operand .filter
      pure (b.push .filters .and (test operator value))).withAliases r := by
  refine unlessFailedM_withAliases ?_
  cases operator with
  | ok operator => exact bind_withAliases h _ fun value w => rfl
  | error e => rfl

/-- A test for a range is added whatever the names are. -/
theorem between_withAliases (list : ConditionList) (connector : Connector) (negated : Bool)
    (column : String) (bounds : Value) :
    between (b.withAliases r) list connector negated column bounds =
      (b.between list connector negated column bounds).withAliases r := by
  refine unlessFailed_withAliases ?_
  dsimp only
  split
  · rename_i low high _
    rw [bindValue_withAliases, bindValue_withAliases]
    exact push_withAliases ..
  · rfl

/-- A test whether a value is contained is added whatever the names are. -/
theorem contains_withAliases (negated : Bool) (column : String) (value : Value) :
    contains (b.withAliases r) negated column value =
      (b.contains negated column value).withAliases r := by
  refine unlessFailed_withAliases ?_
  dsimp only
  rw [bindValue_withAliases]
  rfl

/-- A criterion is added whatever the names are. -/
theorem pushOrder_withAliases (o : Order) :
    pushOrder (b.withAliases r) o = (b.pushOrder o).withAliases r := by
  have hunions : (b.withAliases r).unions = b.unions := rfl
  unfold pushOrder
  rw [hunions]
  split <;> rfl

/-- A query is ordered whatever the names are. -/
theorem orderBy_withAliases (column : String) (direction : Except Error Direction) :
    orderBy (b.withAliases r) column direction = (b.orderBy column direction).withAliases r := by
  refine unlessFailed_withAliases ?_
  cases direction with
  | ok direction => exact pushOrder_withAliases _
  | error e => rfl

/-- A query is limited whatever the names are. -/
theorem limitTo_withAliases (count : Nat) :
    limitTo (b.withAliases r) count = (b.limitTo count).withAliases r := by
  have hunions : (b.withAliases r).unions = b.unions := rfl
  unfold limitTo
  rw [hunions]
  split <;> rfl

/-- Rows are skipped whatever the names are. -/
theorem skip_withAliases (count : Nat) :
    skip (b.withAliases r) count = (b.skip count).withAliases r := by
  have hunions : (b.withAliases r).unions = b.unions := rfl
  unfold skip
  rw [hunions]
  split <;> rfl

end Builder

namespace Call

variable [Naming]

open Builder

/-- A call to such a method does the same to a builder with other names. -/
theorem apply_withAliases {call : Call Action} (h : call.Blind) (b : Builder) (r : Registry) :
    call.apply (b.withAliases r) = (call.apply b).withAliases r := by
  have hvalue : ∀ value : Value, (Operand.value value : Operand Builder).Plain := fun _ => trivial
  cases call with
  | condition list connector column operator operand =>
      cases operand with
      | query s => exact h.elim
      | _ => exact condition_withAliases list connector column _ (by trivial)
  | length column operator operand =>
      cases operand with
      | query s => exact h.elim
      | _ => exact withOperator_bind_withAliases (by trivial) _ fun o v => .length column o v
  | date part column operator operand =>
      cases operand with
      | query s => exact h.elim
      | _ => exact withOperator_bind_withAliases (by trivial) _ fun o v => .date part column o v
  | compareColumns connector first operator second =>
      refine congrArg pure (unlessFailed_withAliases ?_)
      cases operator.operator <;> rfl
  | member connector negated column values =>
      exact condition_withAliases .filters connector column (.ok (Aql.membership negated))
        (hvalue values)
  | memberOf negated column values => exact congrArg pure (unlessFailed_withAliases rfl)
  | isNull list connector negated column => exact congrArg pure (push_withAliases ..)
  | between list connector negated column bounds => exact congrArg pure (between_withAliases ..)
  | rawCondition list connector aql =>
      exact congrArg pure (unlessFailed_withAliases (push_withAliases ..))
  | contains negated column value => exact congrArg pure (contains_withAliases ..)
  | like connector column pattern caseSensitive =>
      exact condition_withAliases .filters connector column
        (.ok (if caseSensitive then .like else .likeAnyCase)) (hvalue pattern)
  | notLike column pattern =>
      exact condition_withAliases .filters .and column (.ok .notLike) (hvalue pattern)
  | groupBy selectors => rfl
  | groupByRaw aql => rfl
  | orderBy column direction => exact congrArg pure (orderBy_withAliases ..)
  | orderIn column direction => exact congrArg pure (orderBy_withAliases ..)
  | latest column => exact congrArg pure (orderBy_withAliases ..)
  | oldest column => exact congrArg pure (orderBy_withAliases ..)
  | order o => exact congrArg pure (pushOrder_withAliases o)
  | reorder => rfl
  | reorderBy column direction => exact congrArg pure (orderBy_withAliases (b := b.reorder) ..)
  | limitTo count => exact congrArg pure (limitTo_withAliases count)
  | skip count => exact congrArg pure (skip_withAliases count)
  | forPage page perPage =>
      refine congrArg pure ?_
      unfold Builder.forPage
      rw [skip_withAliases, limitTo_withAliases]
  | distinctRows => rfl
  | _ => exact h.elim

/-- A run of such calls does the same to a builder with other names. -/
theorem applyAll_withAliases {calls : List (Call Action)} (h : ∀ call ∈ calls, call.Blind)
    (b : Builder) (r : Registry) :
    Call.applyAll calls (b.withAliases r) = (Call.applyAll calls b).withAliases r := by
  induction calls generalizing b with
  | nil => rfl
  | cons call rest ih =>
      obtain ⟨hcall, hrest⟩ := List.forall_mem_cons.mp h
      funext n
      change Call.applyAll rest (call.apply (b.withAliases r) n).1
        (call.apply (b.withAliases r) n).2 = _
      rw [apply_withAliases hcall]
      change Call.applyAll rest ((call.apply b n).1.withAliases r) (call.apply b n).2 = _
      rw [ih hrest]
      rfl

/-- The calls leave the names as they are. -/
theorem aliases_applyAll {calls : List (Call Action)} (h : ∀ call ∈ calls, call.Blind) (b : Builder)
    (n : Nat) : (Call.applyAll calls b n).1.aliases = b.aliases := by
  have hsame : (Call.applyAll calls b n).1 = ((Call.applyAll calls b).withAliases b.aliases n).1 :=
    congrArg (fun x => (x n).1) (applyAll_withAliases h b b.aliases)
  exact (congrArg Clauses.aliases hsame).trans rfl

end Call

end AqlBuilder

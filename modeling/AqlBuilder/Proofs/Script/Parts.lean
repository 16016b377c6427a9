import AqlBuilder.Script.Basic

/-!
# Scripts inside of scripts

The scripts whose queries become part of a builder. A script of a closure or of a copy goes on with
a builder that is there already; other scripts begin with a new one. Scripts that are only run for
their bound values, or for the numbers that they take, are left out. Beside the scripts a call may
hold expressions that stand for operands.

- `Call.parts` are these scripts, each with whether it begins with a new builder.
- `Call.texts` are the expressions that stand for operands.
- `Script.holds` is induction on how scripts are nested.
-/

namespace AqlBuilder

section parts

variable {S : Type}

/-- The script of a query argument, with whether it begins with a new builder. -/
def Subject.part : Subject S → Bool × S
  | .new s => (true, s)
  | .copy s => (false, s)

/-- The script of a sub-query argument. -/
def SubArgument.part : SubArgument S → Bool × S
  | .finished s => s.part
  | .closure s => (false, s)

/-- The script of an operand, if it has one. -/
def Operand.parts : Operand (Subject S) → List (Bool × S)
  | .query s => [s.part]
  | _ => []

/-- The script of a part of a projection, if it has one. -/
def Selector.parts : Selector S → List (Bool × S)
  | .sub s _ => [(true, s)]
  | _ => []

/-- The script in a call to a join clause, if it has one. -/
def JoinCall.parts : JoinCall S → List (Bool × S)
  | .condition _ _ _ o => o.parts
  | _ => []

/-- The scripts in a call whose queries become part of the builder. -/
def Call.parts : Call S → List (Bool × S)
  | .fromQuery sub _ => [sub.part]
  | .select selectors => selectors.flatMap Selector.parts
  | .addSelect selectors => selectors.flatMap Selector.parts
  | .selectQuery sub _ => [sub.part]
  | .set _ o => o.parts
  | .setQuery _ sub => [sub.part]
  | .condition _ _ _ _ o => o.parts
  | .memberOfQuery _ _ sub => [sub.part]
  | .nested _ s => [(false, s)]
  | .hasRows _ _ sub => [sub.part]
  | .compareQuery _ _ sub => [sub.part]
  | .length _ _ o => o.parts
  | .date _ _ _ o => o.parts
  | .joinWith _ _ calls => calls.flatMap JoinCall.parts
  | .joinQuery _ sub _ _ _ _ => [sub.part]
  | .union _ sub => [sub.part]
  | _ => []

/-- The expression that an operand is, if it is one. -/
def Operand.texts {Q : Type} : Operand Q → List String
  | .expression aql => [aql]
  | _ => []

/-- The expression for the operand in a call to a join clause. -/
def JoinCall.texts : JoinCall S → List String
  | .condition _ _ _ o => o.texts
  | _ => []

/-- The expressions in a call that stand for operands, or for a whole condition. -/
def Call.texts : Call S → List String
  | .set _ o => o.texts
  | .condition _ _ _ _ o => o.texts
  | .rawCondition _ _ aql => [aql]
  | .length _ _ o => o.texts
  | .date _ _ _ o => o.texts
  | .joinWith _ _ calls => calls.flatMap JoinCall.texts
  | _ => []

end parts

namespace Script

section induction

/-- A property that a script has as soon as the scripts inside have it. -/
def Hereditary (motive : Script → Prop) : Prop :=
  ∀ calls : List (Call Script), (∀ call ∈ calls, ∀ part ∈ call.parts, motive part.2) →
    motive (.of calls)

variable {motive : Script → Prop}

mutual
/-- A hereditary property holds of every script. -/
theorem holds (h : Hereditary motive) : (s : Script) → motive s
  | .of calls => h calls (holds_in_calls h calls)

/-- A hereditary property holds of the scripts in calls. -/
theorem holds_in_calls (h : Hereditary motive) :
    (calls : List (Call Script)) → ∀ call ∈ calls, ∀ part ∈ call.parts, motive part.2
  | [] => fun _ hcall => nomatch hcall
  | call :: calls => List.forall_mem_cons.mpr ⟨holds_in_call h call, holds_in_calls h calls⟩

/-- A hereditary property holds of the script of a query argument. -/
theorem holds_in_subject (h : Hereditary motive) : (x : Subject Script) → motive x.part.2
  | .new s => holds h s
  | .copy s => holds h s

/-- A hereditary property holds of the script of a sub-query argument. -/
theorem holds_in_sub (h : Hereditary motive) : (x : SubArgument Script) → motive x.part.2
  | .finished subject => holds_in_subject h subject
  | .closure s => holds h s

/-- A hereditary property holds of the script in an operand. -/
theorem holds_in_operand (h : Hereditary motive) :
    (o : Operand (Subject Script)) → ∀ part ∈ o.parts, motive part.2
  | .value _ => fun _ hpart => nomatch hpart
  | .expression _ => fun _ hpart => nomatch hpart
  | .column _ => fun _ hpart => nomatch hpart
  | .query subject => List.forall_mem_singleton.mpr (holds_in_subject h subject)

/-- A hereditary property holds of the scripts in selectors. -/
theorem holds_in_selectors (h : Hereditary motive) :
    (selectors : List (Selector Script)) →
      ∀ part ∈ selectors.flatMap Selector.parts, motive part.2
  | [] => fun _ hpart => nomatch hpart
  | .column _ :: rest => holds_in_selectors h rest
  | .aliased _ _ :: rest => holds_in_selectors h rest
  | .documents _ :: rest => holds_in_selectors h rest
  | .raw _ _ :: rest => holds_in_selectors h rest
  | .sub s _ :: rest => List.forall_mem_cons.mpr ⟨holds h s, holds_in_selectors h rest⟩

/-- A hereditary property holds of the scripts in calls to a join clause. -/
theorem holds_in_joinCalls (h : Hereditary motive) :
    (calls : List (JoinCall Script)) → ∀ part ∈ calls.flatMap JoinCall.parts, motive part.2
  | [] => fun _ hpart => nomatch hpart
  | .columns _ _ _ _ :: rest => holds_in_joinCalls h rest
  | .condition _ _ _ o :: rest =>
    List.forall_mem_append.mpr ⟨holds_in_operand h o, holds_in_joinCalls h rest⟩
  | .member _ _ :: rest => holds_in_joinCalls h rest
  | .isNull _ _ :: rest => holds_in_joinCalls h rest

/-- A hereditary property holds of the scripts in a call. -/
theorem holds_in_call (h : Hereditary motive) :
    (call : Call Script) → ∀ part ∈ call.parts, motive part.2
  | .fromQuery sub _ => List.forall_mem_singleton.mpr (holds_in_sub h sub)
  | .select selectors => holds_in_selectors h selectors
  | .addSelect selectors => holds_in_selectors h selectors
  | .selectQuery sub _ => List.forall_mem_singleton.mpr (holds_in_sub h sub)
  | .set _ o => holds_in_operand h o
  | .setQuery _ sub => List.forall_mem_singleton.mpr (holds_in_sub h sub)
  | .condition _ _ _ _ o => holds_in_operand h o
  | .memberOfQuery _ _ sub => List.forall_mem_singleton.mpr (holds_in_sub h sub)
  | .nested _ s => List.forall_mem_singleton.mpr (holds h s)
  | .hasRows _ _ sub => List.forall_mem_singleton.mpr (holds_in_sub h sub)
  | .compareQuery _ _ sub => List.forall_mem_singleton.mpr (holds_in_sub h sub)
  | .length _ _ o => holds_in_operand h o
  | .date _ _ _ o => holds_in_operand h o
  | .joinWith _ _ calls => holds_in_joinCalls h calls
  | .joinQuery _ sub _ _ _ _ => List.forall_mem_singleton.mpr (holds_in_sub h sub)
  | .union _ sub => List.forall_mem_singleton.mpr (holds_in_sub h sub)
  | .withPrefix _ | .fromCollection _ | .fromView _ | .selectRaw _ _ | .distinctRows
  | .addBinding _ _ | .addBindings _ _ | .setBindings _ _ | .mergeBindings _ _
  | .compareColumns _ _ _ _ | .member _ _ _ _ | .memberOf _ _ _ | .isNull _ _ _ _
  | .between _ _ _ _ _ | .rawCondition _ _ _ | .contains _ _ _ | .like _ _ _ _ | .notLike _ _
  | .join _ _ _ _ _ | .crossJoin _ | .rightJoin | .rightJoinQuery _ | .groupBy _ | .groupByRaw _
  | .orderBy _ _ | .orderIn _ _ | .latest _ | .oldest _ | .order _ | .reorder | .reorderBy _ _
  | .limitTo _ | .skip _ | .forPage _ _ | .fullTextSearch _ _ _ | .copy | .forSubQuery | .forNested
  | .restart _ => fun _ hpart => nomatch hpart
end

end induction

end Script

/-- The part with its script as a function. -/
def liftPart [Naming] (part : Bool × Script) : Bool × Action := (part.1, part.2.action)

/-- Turning scripts into functions keeps the parts of a projection in their places. -/
theorem Selector.parts_actionAll [Naming] (xs : List (Selector Script)) :
    (Script.actionSelectors xs).flatMap Selector.parts =
      (xs.flatMap Selector.parts).map liftPart := by
  induction xs with
  | nil => rfl
  | cons first rest ih =>
      rw [List.flatMap_cons, List.map_append, ← ih]
      cases first <;> rfl

end AqlBuilder

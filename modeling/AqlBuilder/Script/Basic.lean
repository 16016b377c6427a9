import AqlBuilder.Script.Call
import AqlBuilder.Statement.Write

/-!
# Scripts

A script is a list of calls to a builder, with scripts for the queries among their arguments. The
scripts of all queries are turned into functions from the inside out, so running a script is one
recursion over it, and what a single call does is said once, in `Call.apply`.

A script has each of its queries written down where it is used. So a query that is finished once and
handed, as clones, to two calls is not written as a script. What holds of a single call is proved of
calls with any functions of a builder as arguments, the copies of a finished query
(`fun _ => query.copyOf`) among them.

- `Script.action` is what a script does to a builder.
- `Script.build` runs a script on a new builder.
-/

namespace AqlBuilder

variable [Naming]

/-- A list of calls with all scripts inside them. -/
inductive Script
  | of (calls : List (Call Script))

/-- Carry out calls one after another. -/
def Call.applyAll : List (Call Action) → Action
  | [], b => pure b
  | call :: calls, b => do
    let b ← call.apply b
    applyAll calls b

namespace Script

/-- The calls of a script. -/
def calls : Script → List (Call Script)
  | of calls => calls

mutual
/-- What a script does to a builder. -/
def action : Script → Action
  | .of calls => Call.applyAll (actionCalls calls)

/-- The calls with their scripts as functions. -/
def actionCalls : List (Call Script) → List (Call Action)
  | [] => []
  | call :: calls => actionCall call :: actionCalls calls

/-- The query argument with its script as a function. -/
def actionSubject : Subject Script → Subject Action
  | .new script => .new (action script)
  | .copy script => .copy (action script)

/-- The sub-query argument with its script as a function. -/
def actionSub : SubArgument Script → SubArgument Action
  | .finished subject => .finished (actionSubject subject)
  | .closure script => .closure (action script)

/-- The operand with its script as a function. -/
def actionOperand : Operand (Subject Script) → Operand (Subject Action)
  | .value v => .value v
  | .expression aql => .expression aql
  | .column name => .column name
  | .query subject => .query (actionSubject subject)

/-- The operands with their scripts as functions. -/
def actionOperands : List (Operand (Subject Script)) → List (Operand (Subject Action))
  | [] => []
  | operand :: operands => actionOperand operand :: actionOperands operands

/-- The parts of a projection with their scripts as functions. -/
def actionSelectors : List (Selector Script) → List (Selector Action)
  | [] => []
  | .column name :: rest => .column name :: actionSelectors rest
  | .aliased c asName :: rest => .aliased c asName :: actionSelectors rest
  | .documents t :: rest => .documents t :: actionSelectors rest
  | .raw aql asName :: rest => .raw aql asName :: actionSelectors rest
  | .sub script asName :: rest => .sub (action script) asName :: actionSelectors rest

/-- The calls to a join clause with their scripts as functions. -/
def actionJoinCalls : List (JoinCall Script) → List (JoinCall Action)
  | [] => []
  | .columns c first o second :: rest => .columns c first o second :: actionJoinCalls rest
  | .condition c column o operand :: rest =>
    .condition c column o (actionOperand operand) :: actionJoinCalls rest
  | .member column values :: rest => .member column values :: actionJoinCalls rest
  | .isNull negated column :: rest => .isNull negated column :: actionJoinCalls rest

/-- The call with its scripts as functions. -/
def actionCall : Call Script → Call Action
  | .withPrefix tablePrefix => .withPrefix tablePrefix
  | .fromCollection table => .fromCollection table
  | .fromView view => .fromView view
  | .fromQuery sub asName => .fromQuery (actionSub sub) asName
  | .select selectors => .select (actionSelectors selectors)
  | .addSelect selectors => .addSelect (actionSelectors selectors)
  | .selectRaw aql asName => .selectRaw aql asName
  | .selectQuery sub asName => .selectQuery (actionSub sub) asName
  | .distinctRows => .distinctRows
  | .set name operand => .set name (actionOperand operand)
  | .setQuery name sub => .setQuery name (actionSub sub)
  | .addBinding value category => .addBinding value category
  | .addBindings operands category => .addBindings (actionOperands operands) category
  | .setBindings values category => .setBindings values category
  | .mergeBindings script category => .mergeBindings (action script) category
  | .condition l c column o operand => .condition l c column o (actionOperand operand)
  | .compareColumns c first o second => .compareColumns c first o second
  | .member c negated column values => .member c negated column values
  | .memberOfQuery negated column sub => .memberOfQuery negated column (actionSub sub)
  | .memberOf negated column values => .memberOf negated column values
  | .isNull l c negated column => .isNull l c negated column
  | .between l c negated column bounds => .between l c negated column bounds
  | .nested c script => .nested c (action script)
  | .hasRows c negated sub => .hasRows c negated (actionSub sub)
  | .compareQuery column o sub => .compareQuery column o (actionSub sub)
  | .rawCondition l c aql => .rawCondition l c aql
  | .contains negated column value => .contains negated column value
  | .length column o operand => .length column o (actionOperand operand)
  | .date part column o operand => .date part column o (actionOperand operand)
  | .like c column pattern caseSensitive => .like c column pattern caseSensitive
  | .notLike column pattern => .notLike column pattern
  | .join kind table first o second => .join kind table first o second
  | .joinWith kind table calls => .joinWith kind table (actionJoinCalls calls)
  | .crossJoin table => .crossJoin table
  | .joinQuery kind sub asName first o second =>
    .joinQuery kind (actionSub sub) asName first o second
  | .rightJoin => .rightJoin
  | .rightJoinQuery sub => .rightJoinQuery (actionSub sub)
  | .groupBy selectors => .groupBy (actionSelectors selectors)
  | .groupByRaw aql => .groupByRaw aql
  | .orderBy column direction => .orderBy column direction
  | .orderIn column direction => .orderIn column direction
  | .latest column => .latest column
  | .oldest column => .oldest column
  | .order o => .order o
  | .reorder => .reorder
  | .reorderBy column direction => .reorderBy column direction
  | .limitTo count => .limitTo count
  | .skip count => .skip count
  | .forPage page perPage => .forPage page perPage
  | .union all sub => .union all (actionSub sub)
  | .fullTextSearch fields text analyzer =>
    .fullTextSearch (actionSelectors fields) text analyzer
  | .copy => .copy
  | .forSubQuery => .forSubQuery
  | .forNested => .forNested
  | .restart table => .restart table
end

/-- Run a script on a new builder. -/
def build (script : Script) : Supply Builder := do script.action (← Builder.fresh)

end Script

/-- Carry out a call whose scripts have not been run. -/
def Call.run (call : Call Script) : Action := fun b => (Script.actionCall call).apply b

/-- The operand of a script in the context of a builder. -/
def Operand.run (b : Builder) (operand : Operand (Subject Script)) : Supply (Operand Builder) :=
  Operand.evaluate b (Script.actionOperand operand)

/-!
## Compiling what a script has built

The operands of an update are arguments like any other: their queries are built before the builder
is compiled.
-/

/-- The assigned operands with their queries built. -/
def Operand.runAll (b : Builder) :
    List (String × Operand (Subject Script)) → Supply (List (String × Operand Builder))
  | [] => pure []
  | (key, operand) :: rest => do
    let first ← operand.run b
    let others ← runAll b rest
    pure ((key, first) :: others)

/-- The changes with the queries of their operands built. -/
def Changes.run (b : Builder) : Changes (Subject Script) → Supply (Changes Builder)
  | .row r => pure (.row r)
  | .operands pairs => do pure (.operands (← Operand.runAll b pairs))

/-- The way to compile with the queries of its operands built. -/
def Entry.run (b : Builder) : Entry (Subject Script) → Supply (Entry Builder)
  | .select => pure .select
  | .existence => pure .existence
  | .aggregate function column => pure (.aggregate function column)
  | .insert rows ignoreErrors => pure (.insert rows ignoreErrors)
  | .upsert rows uniqueBy updated => pure (.upsert rows uniqueBy updated)
  | .update changes => do pure (.update (← changes.run b))
  | .adjust adjustment column amount => pure (.adjust adjustment column amount)
  | .delete key => pure (.delete key)
  | .truncate => pure .truncate

/-- Build the operands and compile the builder. -/
def Builder.statementFor (b : Builder) (entry : Entry (Subject Script)) :
    Supply (Except Error Compiled) := do
  let entry ← entry.run b
  (b.compile entry).run

end AqlBuilder

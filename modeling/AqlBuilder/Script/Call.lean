import AqlBuilder.Builder.Basic
import AqlBuilder.Builder.Projection
import AqlBuilder.Builder.Source

/-!
# Calls

A call is a method of a builder with its arguments written down. Where a method takes a query, the
call has a script for it, of a type that is left open. `Call.apply` carries out a call whose scripts
are functions of a builder: it evaluates the arguments from left to right, which takes query numbers
even if the builder has an error, and then calls the method. The scripts of closures are not
arguments to be evaluated; they run only if the method asks for the sub-query.
-/

namespace AqlBuilder

variable [Naming]

/-- A query among the arguments of a call. -/
inductive Subject (S : Type)
  /-- A new builder after a script. -/
  | new (script : S)
  /-- A copy of the builder that is called, after a script. -/
  | copy (script : S)

/-- A sub-query among the arguments of a call. -/
inductive SubArgument (S : Type)
  | finished (subject : Subject S)
  | closure (script : S)

/-- An operator among the arguments of a call. -/
inductive OperatorArgument
  | spelling (text : String)
  /-- An operator that is taken as it is. -/
  | custom (text : String)

/-- A call to a join clause. -/
inductive JoinCall (S : Type)
  | columns (connector : Connector) (first : String) (operator : OperatorArgument)
      (second : String)
  | condition (connector : Connector) (column : String) (operator : Option OperatorArgument)
      (operand : Operand (Subject S))
  | member (column : String) (values : Value)
  | isNull (negated : Bool) (column : String)

/-- A call to a builder. -/
inductive Call (S : Type)
  | withPrefix (tablePrefix : String)
  | fromCollection (table : String)
  | fromView (view : String)
  | fromQuery (sub : SubArgument S) (asName : String)
  | select (selectors : List (Selector S))
  | addSelect (selectors : List (Selector S))
  | selectRaw (aql : String) (asName : Option String)
  | selectQuery (sub : SubArgument S) (asName : String)
  | distinctRows
  | set (name : String) (operand : Operand (Subject S))
  | setQuery (name : String) (sub : SubArgument S)
  | addBinding (value : Value) (category : String)
  | addBindings (operands : List (Operand (Subject S))) (category : String)
  | setBindings (values : Bindings) (category : Category)
  | mergeBindings (script : S) (category : Option Category)
  | condition (list : ConditionList) (connector : Connector) (column : String)
      (operator : Option OperatorArgument) (operand : Operand (Subject S))
  | compareColumns (connector : Connector) (first : String) (operator : OperatorArgument)
      (second : String)
  | member (connector : Connector) (negated : Bool) (column : String) (values : Value)
  | memberOfQuery (negated : Bool) (column : String) (sub : SubArgument S)
  | memberOf (negated : Bool) (column : String) (values : List Int)
  | isNull (list : ConditionList) (connector : Connector) (negated : Bool) (column : String)
  | between (list : ConditionList) (connector : Connector) (negated : Bool) (column : String)
      (bounds : Value)
  | nested (connector : Connector) (script : S)
  | hasRows (connector : Connector) (negated : Bool) (sub : SubArgument S)
  | compareQuery (column : String) (operator : OperatorArgument) (sub : SubArgument S)
  | rawCondition (list : ConditionList) (connector : Connector) (aql : String)
  | contains (negated : Bool) (column : String) (value : Value)
  | length (column : String) (operator : OperatorArgument) (operand : Operand (Subject S))
  | date (part : DatePart) (column : String) (operator : OperatorArgument)
      (operand : Operand (Subject S))
  | like (connector : Connector) (column : String) (pattern : Value) (caseSensitive : Bool)
  | notLike (column : String) (pattern : Value)
  | join (kind : JoinKind) (table first : String) (operator : OperatorArgument) (second : String)
  | joinWith (kind : JoinKind) (table : String) (calls : List (JoinCall S))
  | crossJoin (table : String)
  | joinQuery (kind : JoinKind) (sub : SubArgument S) (asName first : String)
      (operator : OperatorArgument) (second : String)
  | rightJoin
  | rightJoinQuery (sub : SubArgument S)
  | groupBy (selectors : List (Selector S))
  | groupByRaw (aql : String)
  /-- An order whose direction is written out. -/
  | orderBy (column direction : String)
  | orderIn (column : String) (direction : Direction)
  | latest (column : Option String)
  | oldest (column : Option String)
  /-- An order that is no column. -/
  | order (order : Order)
  | reorder
  /-- Forget all orders and order by a column. -/
  | reorderBy (column direction : String)
  | limitTo (count : Nat)
  | skip (count : Nat)
  | forPage (page perPage : Nat)
  | union (all : Bool) (sub : SubArgument S)
  | fullTextSearch (fields : List (Selector S)) (text : Value) (analyzer : Option String)
  /-- Go on with a copy. -/
  | copy
  /-- Go on with a new builder for a sub-query. -/
  | forSubQuery
  /-- Go on with a new builder for a group of conditions. -/
  | forNested
  /-- Go on with a new builder over a collection. -/
  | restart (table : String)

/-- What a script does to a builder. -/
abbrev Action := Builder → Supply Builder

/-- The operator of an argument. -/
def OperatorArgument.operator : OperatorArgument → Except Error Operator
  | spelling text => Operator.ofSpelling text
  | custom text => .ok ⟨text⟩

/-- The operator of an optional argument, equality if there is none. -/
def OperatorArgument.orEqual : Option OperatorArgument → Except Error Operator
  | some argument => argument.operator
  | none => .ok .equal

/-- Build the query of an argument. -/
def Subject.build (b : Builder) : Subject Action → Supply Builder
  | new script => do script (← Builder.fresh)
  | copy script => do script (← b.copyOf)

/-- Evaluate a sub-query argument. -/
def SubArgument.evaluate (b : Builder) : SubArgument Action → Supply SubQuery
  | finished subject => do pure (.finished (← subject.build b))
  | closure script => pure (.closure script)

/-- Evaluate an operand. -/
def Operand.evaluate (b : Builder) : Operand (Subject Action) → Supply (Operand Builder)
  | .value v => pure (.value v)
  | .expression aql => pure (.expression aql)
  | .column name => pure (.column name)
  | .query subject => do pure (.query (← subject.build b))

/-- Evaluate a part of a projection. -/
def Selector.evaluate : Selector Action → Supply (Selector Query)
  | .column name => pure (.column name)
  | .aliased c asName => pure (.aliased c asName)
  | .documents t => pure (.documents t)
  | .raw aql asName => pure (.raw aql asName)
  | .sub script asName => do pure (.sub (.of (← script (← Builder.fresh))) asName)

/-- Carry out a call to a join clause. -/
def JoinCall.apply (joined : Builder) : JoinCall Action → Supply Builder
  | columns connector first operator second =>
    pure (joined.compareColumns connector first operator.operator second)
  | condition connector column operator operand => do
    let operand ← operand.evaluate joined
    joined.condition .filters connector column (OperatorArgument.orEqual operator) operand
  | member column values => joined.member .and false column values
  | isNull negated column => pure (joined.isNull .filters .and negated column)

/-- Carry out the calls to a join clause one after another. -/
def JoinCall.applyAll (joined : Builder) : List (JoinCall Action) → Supply Builder
  | [] => pure joined
  | call :: calls => do
    let joined ← call.apply joined
    applyAll joined calls

/-- Carry out a call. -/
def Call.apply (b : Builder) : Call Action → Supply Builder
  | withPrefix tablePrefix => pure (b.withPrefix tablePrefix)
  | fromCollection table => pure (b.fromCollection table)
  | fromView view => pure (b.fromView view)
  | fromQuery sub asName => do b.fromQuery (← sub.evaluate b) asName
  | select selectors => do pure (b.select (← Supply.each Selector.evaluate selectors))
  | addSelect selectors => do pure (b.addSelect (← Supply.each Selector.evaluate selectors))
  | selectRaw aql asName => pure (b.selectRaw aql asName)
  | selectQuery sub asName => do b.selectQuery (← sub.evaluate b) asName
  | distinctRows => pure b.distinctRows
  | set name operand => do b.set name (← operand.evaluate b)
  | setQuery name sub => do b.setQuery name (← sub.evaluate b)
  | addBinding value category => pure (b.addBinding value category)
  | addBindings operands category => do
    let operands ← Supply.each (Operand.evaluate b) operands
    pure (b.addBindings operands category)
  | setBindings values category => pure (b.setBindings values category)
  | mergeBindings script category => do
    let other ← script (← Builder.fresh)
    pure (b.mergeBindings other category)
  | condition list connector column operator operand => do
    let operand ← operand.evaluate b
    b.condition list connector column (OperatorArgument.orEqual operator) operand
  | compareColumns connector first operator second =>
    pure (b.compareColumns connector first operator.operator second)
  | member connector negated column values => b.member connector negated column values
  | memberOfQuery negated column sub => do b.memberOfQuery negated column (← sub.evaluate b)
  | memberOf negated column values => pure (b.memberOf negated column values)
  | isNull list connector negated column => pure (b.isNull list connector negated column)
  | between list connector negated column bounds =>
    pure (b.between list connector negated column bounds)
  | nested connector script => b.nested connector script
  | hasRows connector negated sub => do b.hasRows connector negated (← sub.evaluate b)
  | compareQuery column operator sub => do
    b.compareQuery column operator.operator (← sub.evaluate b)
  | rawCondition list connector aql => pure (b.rawCondition list connector aql)
  | contains negated column value => pure (b.contains negated column value)
  | length column operator operand => do
    b.length column operator.operator (← operand.evaluate b)
  | date part column operator operand => do
    b.date part column operator.operator (← operand.evaluate b)
  | like connector column pattern caseSensitive => b.like connector column pattern caseSensitive
  | notLike column pattern => b.notLike column pattern
  | join kind table first operator second => b.join kind table first operator.operator second
  | joinWith kind table calls => b.joinWith kind table fun joined => JoinCall.applyAll joined calls
  | crossJoin table => b.crossJoin table
  | joinQuery kind sub asName first operator second => do
    b.joinQuery kind (← sub.evaluate b) asName first operator.operator second
  | rightJoin => pure b.rightJoin
  | rightJoinQuery sub => do
    let _ ← sub.evaluate b
    pure b.rightJoinQuery
  | groupBy selectors => do pure (b.groupBy (← Supply.each Selector.evaluate selectors))
  | groupByRaw aql => pure (b.groupByRaw aql)
  | orderBy column direction => pure (b.orderBy column (Direction.ofText direction))
  | orderIn column direction => pure (b.orderBy column (.ok direction))
  | latest column => pure (b.latest column)
  | oldest column => pure (b.oldest column)
  | order o => pure (b.pushOrder o)
  | reorder => pure b.reorder
  | reorderBy column direction => pure (b.reorder.orderBy column (Direction.ofText direction))
  | limitTo count => pure (b.limitTo count)
  | skip count => pure (b.skip count)
  | forPage page perPage => pure (b.forPage page perPage)
  | union all sub => do b.union all (← sub.evaluate b)
  | fullTextSearch fields text analyzer => do
    pure (b.fullTextSearch (← Supply.each Selector.evaluate fields) text analyzer)
  | copy => b.copyOf
  | forSubQuery => b.forSubQuery
  | forNested => b.forNested
  | restart table => do pure ((← Builder.fresh).fromCollection table)

end AqlBuilder

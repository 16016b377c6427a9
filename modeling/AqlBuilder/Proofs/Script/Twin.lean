import AqlBuilder.Proofs.Builder.TwinMethods
import AqlBuilder.Script.Basic

/-!
# Two runs of one script

Two scripts are twins if they make the same calls with the same arguments, but for the values to be
bound: those have pairwise the same shape. Running twins takes the same numbers and keeps the
builders side by side.

- `Call.Twin` relates two calls whose scripts stand in a given relation, and `Script.Twin` closes
  the recursion.
- `Call.Twin.apply` is the step of one call, and `Script.Twin.build` the run of a whole script.
-/

namespace AqlBuilder

open Supply

section relation

variable {S T : Type} (r : S → T → Prop)

/-- Queries among the arguments, with related scripts. -/
inductive Subject.Twin : Subject S → Subject T → Prop
  | new {s : S} {t : T} (h : r s t) : Twin (.new s) (.new t)
  | copy {s : S} {t : T} (h : r s t) : Twin (.copy s) (.copy t)

/-- Sub-queries among the arguments, with related scripts. -/
inductive SubArgument.Twin : SubArgument S → SubArgument T → Prop
  | finished {s : Subject S} {t : Subject T} (h : s.Twin r t) : Twin (.finished s) (.finished t)
  | closure {s : S} {t : T} (h : r s t) : Twin (.closure s) (.closure t)

/-- Parts of a projection, with related scripts. -/
inductive Selector.Twin : Selector S → Selector T → Prop
  | column (name : String) : Twin (.column name) (.column name)
  | aliased (column asName : String) : Twin (.aliased column asName) (.aliased column asName)
  | documents (table : String) : Twin (.documents table) (.documents table)
  | raw (aql : String) (asName : Option String) : Twin (.raw aql asName) (.raw aql asName)
  | sub {s : S} {t : T} (h : r s t) (asName : String) : Twin (.sub s asName) (.sub t asName)

/-- Calls to a join clause, with values of the same shape. -/
inductive JoinCall.Twin : JoinCall S → JoinCall T → Prop
  | columns (c : Connector) (first : String) (o : OperatorArgument) (second : String) :
      Twin (.columns c first o second) (.columns c first o second)
  | condition (c : Connector) (column : String) (o : Option OperatorArgument)
      {x : Operand (Subject S)} {y : Operand (Subject T)} (h : x.Twin (Subject.Twin r) y) :
      Twin (.condition c column o x) (.condition c column o y)
  | member (column : String) {v w : Value} (h : v.SameShape w) :
      Twin (.member column v) (.member column w)
  | isNull (negated : Bool) (column : String) :
      Twin (.isNull negated column) (.isNull negated column)

/-- Calls with values of the same shape and with related scripts. -/
inductive Call.Twin : Call S → Call T → Prop
  | withPrefix (text : String) : Twin (.withPrefix text) (.withPrefix text)
  | fromCollection (table : String) : Twin (.fromCollection table) (.fromCollection table)
  | fromView (view : String) : Twin (.fromView view) (.fromView view)
  | fromQuery {x : SubArgument S} {y : SubArgument T} (h : x.Twin r y) (asName : String) :
      Twin (.fromQuery x asName) (.fromQuery y asName)
  | select {x : List (Selector S)} {y : List (Selector T)}
      (h : List.Forall₂ (Selector.Twin r) x y) :
      Twin (.select x) (.select y)
  | addSelect {x : List (Selector S)} {y : List (Selector T)}
      (h : List.Forall₂ (Selector.Twin r) x y) : Twin (.addSelect x) (.addSelect y)
  | selectRaw (aql : String) (asName : Option String) :
      Twin (.selectRaw aql asName) (.selectRaw aql asName)
  | selectQuery {x : SubArgument S} {y : SubArgument T} (h : x.Twin r y) (asName : String) :
      Twin (.selectQuery x asName) (.selectQuery y asName)
  | distinctRows : Twin .distinctRows .distinctRows
  | set (name : String) {x : Operand (Subject S)} {y : Operand (Subject T)}
      (h : x.Twin (Subject.Twin r) y) : Twin (.set name x) (.set name y)
  | setQuery (name : String) {x : SubArgument S} {y : SubArgument T} (h : x.Twin r y) :
      Twin (.setQuery name x) (.setQuery name y)
  | addBinding (v w : Value) (category : String) :
      Twin (.addBinding v category) (.addBinding w category)
  | addBindings {x : List (Operand (Subject S))} {y : List (Operand (Subject T))}
      (h : List.Forall₂ (Operand.Twin (Subject.Twin r)) x y) (category : String) :
      Twin (.addBindings x category) (.addBindings y category)
  | setBindings {x y : Bindings} (h : x.keys = y.keys) (category : Category) :
      Twin (.setBindings x category) (.setBindings y category)
  | mergeBindings {s : S} {t : T} (h : r s t) (category : Option Category) :
      Twin (.mergeBindings s category) (.mergeBindings t category)
  | condition (list : ConditionList) (c : Connector) (column : String)
      (o : Option OperatorArgument) {x : Operand (Subject S)} {y : Operand (Subject T)}
      (h : x.Twin (Subject.Twin r) y) :
      Twin (.condition list c column o x) (.condition list c column o y)
  | compareColumns (c : Connector) (first : String) (o : OperatorArgument) (second : String) :
      Twin (.compareColumns c first o second) (.compareColumns c first o second)
  | member (c : Connector) (negated : Bool) (column : String) {v w : Value} (h : v.SameShape w) :
      Twin (.member c negated column v) (.member c negated column w)
  | memberOfQuery (negated : Bool) (column : String) {x : SubArgument S} {y : SubArgument T}
      (h : x.Twin r y) : Twin (.memberOfQuery negated column x) (.memberOfQuery negated column y)
  | memberOf (negated : Bool) (column : String) (values : List Int) :
      Twin (.memberOf negated column values) (.memberOf negated column values)
  | isNull (list : ConditionList) (c : Connector) (negated : Bool) (column : String) :
      Twin (.isNull list c negated column) (.isNull list c negated column)
  | between (list : ConditionList) (c : Connector) (negated : Bool) (column : String) {v w : Value}
      (h : v.SameBounds w) :
        Twin (.between list c negated column v) (.between list c negated column w)
  | nested (c : Connector) {s : S} {t : T} (h : r s t) : Twin (.nested c s) (.nested c t)
  | hasRows (c : Connector) (negated : Bool) {x : SubArgument S} {y : SubArgument T}
      (h : x.Twin r y) : Twin (.hasRows c negated x) (.hasRows c negated y)
  | compareQuery (column : String) (o : OperatorArgument) {x : SubArgument S} {y : SubArgument T}
      (h : x.Twin r y) : Twin (.compareQuery column o x) (.compareQuery column o y)
  | rawCondition (list : ConditionList) (c : Connector) (aql : String) :
      Twin (.rawCondition list c aql) (.rawCondition list c aql)
  | contains (negated : Bool) (column : String) {v w : Value} (h : v.SameShape w) :
      Twin (.contains negated column v) (.contains negated column w)
  | length (column : String) (o : OperatorArgument) {x : Operand (Subject S)}
      {y : Operand (Subject T)} (h : x.Twin (Subject.Twin r) y) :
      Twin (.length column o x) (.length column o y)
  | date (part : DatePart) (column : String) (o : OperatorArgument) {x : Operand (Subject S)}
      {y : Operand (Subject T)} (h : x.Twin (Subject.Twin r) y) :
      Twin (.date part column o x) (.date part column o y)
  | like (c : Connector) (column : String) {v w : Value} (h : v.SameShape w)
      (caseSensitive : Bool) :
      Twin (.like c column v caseSensitive) (.like c column w caseSensitive)
  | notLike (column : String) {v w : Value} (h : v.SameShape w) :
      Twin (.notLike column v) (.notLike column w)
  | join (kind : JoinKind) (table first : String) (o : OperatorArgument) (second : String) :
      Twin (.join kind table first o second) (.join kind table first o second)
  | joinWith (kind : JoinKind) (table : String) {x : List (JoinCall S)} {y : List (JoinCall T)}
      (h : List.Forall₂ (JoinCall.Twin r) x y) :
        Twin (.joinWith kind table x) (.joinWith kind table y)
  | crossJoin (table : String) : Twin (.crossJoin table) (.crossJoin table)
  | joinQuery (kind : JoinKind) {x : SubArgument S} {y : SubArgument T} (h : x.Twin r y)
      (asName first : String) (o : OperatorArgument) (second : String) :
      Twin (.joinQuery kind x asName first o second) (.joinQuery kind y asName first o second)
  | rightJoin : Twin .rightJoin .rightJoin
  | rightJoinQuery {x : SubArgument S} {y : SubArgument T} (h : x.Twin r y) :
      Twin (.rightJoinQuery x) (.rightJoinQuery y)
  | groupBy {x : List (Selector S)} {y : List (Selector T)}
      (h : List.Forall₂ (Selector.Twin r) x y) : Twin (.groupBy x) (.groupBy y)
  | groupByRaw (aql : String) : Twin (.groupByRaw aql) (.groupByRaw aql)
  | orderBy (column direction : String) :
      Twin (.orderBy column direction) (.orderBy column direction)
  | orderIn (column : String) (direction : Direction) :
      Twin (.orderIn column direction) (.orderIn column direction)
  | latest (column : Option String) : Twin (.latest column) (.latest column)
  | oldest (column : Option String) : Twin (.oldest column) (.oldest column)
  | order (o : Order) : Twin (.order o) (.order o)
  | reorder : Twin .reorder .reorder
  | reorderBy (column direction : String) :
      Twin (.reorderBy column direction) (.reorderBy column direction)
  | limitTo (count : Nat) : Twin (.limitTo count) (.limitTo count)
  | skip (count : Nat) : Twin (.skip count) (.skip count)
  | forPage (page perPage : Nat) : Twin (.forPage page perPage) (.forPage page perPage)
  | union (all : Bool) {x : SubArgument S} {y : SubArgument T} (h : x.Twin r y) :
      Twin (.union all x) (.union all y)
  | fullTextSearch {x : List (Selector S)} {y : List (Selector T)}
      (h : List.Forall₂ (Selector.Twin r) x y) {v w : Value} (htext : v.SameShape w)
      {a a' : Option String}
      (ha : (Value.string (a.getD Builder.defaultAnalyzer)).reference? =
        (Value.string (a'.getD Builder.defaultAnalyzer)).reference?) :
      Twin (.fullTextSearch x v a) (.fullTextSearch y w a')
  | copy : Twin .copy .copy
  | forSubQuery : Twin .forSubQuery .forSubQuery
  | forNested : Twin .forNested .forNested
  | restart (table : String) : Twin (.restart table) (.restart table)

end relation

/-- Scripts that differ in the values to be bound at most, and there not in their shapes. The
scripts inside are twins; `inner` stands for the part of that which was established before. -/
inductive Script.Twin : Script → Script → Prop
  | of {inner : Script → Script → Prop} (hinner : ∀ s t, inner s t → Script.Twin s t)
      {calls calls' : List (Call Script)} (h : List.Forall₂ (Call.Twin inner) calls calls') :
      Script.Twin (.of calls) (.of calls')

open Builder

section evaluation

variable {b b' : Builder}

/-- Twin query arguments are built as twins. -/
theorem Subject.Twin.build {x y : Subject Action} (h : x.Twin TwinAction y) (hb : b.Twin b') :
    Supply.Twin Builder.Twin (x.build b) (y.build b') := by
  cases h with
  | new h => exact twin_fresh.bind h
  | copy h => exact hb.copyOf.bind h

/-- Twin sub-query arguments come to twins. -/
theorem SubArgument.Twin.evaluate {x y : SubArgument Action} (h : x.Twin TwinAction y)
    (hb : b.Twin b') : Supply.Twin SubQuery.Twin (x.evaluate b) (y.evaluate b') := by
  cases h with
  | finished h => exact (h.build hb).map fun _ _ hq => .finished hq
  | closure h => exact twin_pure (.closure h)

/-- Twin operands come to twins. -/
theorem Operand.Twin.evaluate {x y : Operand (Subject Action)}
    (h : x.Twin (Subject.Twin TwinAction) y) (hb : b.Twin b') :
    Supply.Twin (Operand.Twin Builder.Twin) (x.evaluate b) (y.evaluate b') := by
  cases h with
  | value h => exact twin_pure (.value h)
  | expression aql => exact twin_pure (.expression aql)
  | column name => exact twin_pure (.column name)
  | query h => exact (h.build hb).map fun _ _ hq => .query hq

/-- Twin selectors come to selectors that look alike. -/
theorem Selector.Twin.evaluate {x y : Selector Action} (h : x.Twin TwinAction y) :
    Supply.Twin (fun s s' : Selector Query => s.map Query.face = s'.map Query.face)
      x.evaluate y.evaluate := by
  cases h with
  | sub h asName =>
      refine twin_fresh.bind fun c c' hc => (h c c' hc).map fun q q' hq => ?_
      simp only [Selector.map, hq.face]
  | _ => exact twin_pure rfl

/-- Lists of twin selectors come to lists that look alike. -/
theorem Selector.Twin.evaluateAll {x y : List (Selector Action)}
    (h : List.Forall₂ (Selector.Twin TwinAction) x y) :
    Supply.Twin (List.Forall₂ fun s s' : Selector Query => s.map Query.face = s'.map Query.face)
      (each Selector.evaluate x) (each Selector.evaluate y) :=
  twin_each h fun _ _ h => h.evaluate

/-- Twins stay twins in twin calls to a join clause. -/
theorem JoinCall.Twin.apply [Naming] {x y : JoinCall Action} (h : x.Twin TwinAction y)
    (hb : b.Twin b') :
    Supply.Twin Builder.Twin (x.apply b) (y.apply b') := by
  cases h with
  | columns c first o second => exact twin_pure (hb.compareColumns c first o.operator second)
  | condition c column o h =>
      exact (h.evaluate hb).bind fun _ _ ho =>
        hb.condition .filters c column (OperatorArgument.orEqual o) ho
  | member column h => exact hb.member .and false column h
  | isNull negated column => exact twin_pure (hb.push .filters .and rfl)

/-- Twins stay twins in runs of twin calls to a join clause. -/
theorem JoinCall.Twin.applyAll [Naming] {x y : List (JoinCall Action)}
    (h : List.Forall₂ (JoinCall.Twin TwinAction) x y) :
    TwinAction (fun b => JoinCall.applyAll b x) (fun b => JoinCall.applyAll b y) := by
  induction h with
  | nil => exact fun _ _ hb => twin_pure hb
  | cons h _ ih => exact fun _ _ hb => (h.apply hb).bind ih

/-- A call keeps the builders of two runs side by side. -/
theorem Call.Twin.apply [Naming] {x y : Call Action} (h : x.Twin TwinAction y) (hb : b.Twin b') :
    Supply.Twin Builder.Twin (x.apply b) (y.apply b') := by
  cases h with
  | withPrefix text => exact twin_pure { hb with tablePrefix := rfl }
  | fromCollection table => exact twin_pure (hb.fromCollection table)
  | fromView view => exact twin_pure (hb.fromView view)
  | fromQuery h asName => exact (h.evaluate hb).bind fun _ _ hs => hb.fromQuery hs asName
  | select h => exact (Selector.Twin.evaluateAll h).map fun _ _ hs => hb.select hs
  | addSelect h => exact (Selector.Twin.evaluateAll h).map fun _ _ hs => hb.addSelect hs
  | selectRaw aql asName => exact twin_pure (hb.selectRaw aql asName)
  | selectQuery h asName => exact (h.evaluate hb).bind fun _ _ hs => hb.selectQuery hs asName
  | distinctRows => exact twin_pure { hb with distinct := rfl }
  | set name h => exact (h.evaluate hb).bind fun _ _ ho => hb.set name ho
  | setQuery name h => exact (h.evaluate hb).bind fun _ _ hs => hb.setQuery name hs
  | addBinding v w category => exact twin_pure (hb.addBinding v w category)
  | addBindings h category =>
      exact (twin_each h fun _ _ h => h.evaluate hb).map fun _ _ ho => hb.addBindings ho category
  | setBindings h category => exact twin_pure (hb.setBindings h category)
  | mergeBindings h category =>
      exact twin_fresh.bind fun c c' hc => (h c c' hc).map fun _ _ hq =>
        hb.mergeBindings hq category
  | condition list c column o h =>
      exact (h.evaluate hb).bind fun _ _ ho =>
        hb.condition list c column (OperatorArgument.orEqual o) ho
  | compareColumns c first o second => exact twin_pure (hb.compareColumns c first o.operator second)
  | member c negated column h => exact hb.member c negated column h
  | memberOfQuery negated column h =>
      exact (h.evaluate hb).bind fun _ _ hs => hb.memberOfQuery negated column hs
  | memberOf negated column values => exact twin_pure (hb.memberOf negated column values)
  | isNull list c negated column => exact twin_pure (hb.push list c rfl)
  | between list c negated column h => exact twin_pure (hb.between list c negated column h)
  | nested c h => exact hb.nested c h
  | hasRows c negated h => exact (h.evaluate hb).bind fun _ _ hs => hb.hasRows c negated hs
  | compareQuery column o h =>
      exact (h.evaluate hb).bind fun _ _ hs => hb.compareQuery column o.operator hs
  | rawCondition list c aql => exact twin_pure (hb.unlessFailed (hb.push list c rfl))
  | contains negated column h => exact twin_pure (hb.contains negated column h)
  | length column o h => exact (h.evaluate hb).bind fun _ _ ho => hb.length column o.operator ho
  | date part column o h =>
      exact (h.evaluate hb).bind fun _ _ ho => hb.date part column o.operator ho
  | like c column h caseSensitive => exact hb.like c column h caseSensitive
  | notLike column h => exact hb.notLike column h
  | join kind table first o second => exact hb.join kind table first o.operator second
  | joinWith kind table h =>
      have hclause := hb.joinWith kind table (JoinCall.Twin.applyAll h)
      exact hclause
  | crossJoin table => exact hb.crossJoin table
  | joinQuery kind h asName first o second =>
      exact (h.evaluate hb).bind fun _ _ hs => hb.joinQuery kind hs asName first o.operator second
  | rightJoin => exact twin_pure (hb.fail _)
  | rightJoinQuery h => exact (h.evaluate hb).map fun _ _ _ => hb.fail _
  | groupBy h => exact (Selector.Twin.evaluateAll h).map fun _ _ hs => hb.groupBy hs
  | groupByRaw aql =>
      exact twin_pure { hb with groups := congrArg (· ++ [GroupKey.raw aql]) hb.groups }
  | orderBy column direction => exact twin_pure (hb.orderBy column _)
  | orderIn column direction => exact twin_pure (hb.orderBy column _)
  | latest column => exact twin_pure (hb.orderBy _ _)
  | oldest column => exact twin_pure (hb.orderBy _ _)
  | order o => exact twin_pure (hb.pushOrder o)
  | reorder => exact twin_pure hb.reorder
  | reorderBy column direction => exact twin_pure (hb.reorder.orderBy column _)
  | limitTo count => exact twin_pure (hb.limitTo count)
  | skip count => exact twin_pure (hb.skip count)
  | forPage page perPage => exact twin_pure ((hb.skip _).limitTo perPage)
  | union all h => exact (h.evaluate hb).bind fun _ _ hs => hb.union all hs
  | fullTextSearch h htext ha =>
      exact (Selector.Twin.evaluateAll h).map fun _ _ hs =>
        hb.fullTextSearch hs htext.reference ha
  | copy => exact hb.copyOf
  | forSubQuery => exact hb.forSubQuery
  | forNested => exact hb.forNested
  | restart table => exact twin_fresh.map fun _ _ hq => hq.fromCollection table

/-- Twins stay twins in runs of twin calls, by induction on the calls. -/
theorem Call.Twin.applyAll [Naming] {x y : List (Call Action)}
    (h : List.Forall₂ (Call.Twin TwinAction) x y) :
    TwinAction (Call.applyAll x) (Call.applyAll y) := by
  induction h with
  | nil => exact fun _ _ hb => twin_pure hb
  | cons h _ ih => exact fun _ _ hb => (h.apply hb).bind ih

end evaluation

section lifting

variable [Naming] {r : Script → Script → Prop}
  (hr : ∀ s t, r s t → Builder.TwinAction s.action t.action)

include hr

/-- Query arguments with twin scripts are twins when these are run. -/
theorem Subject.Twin.action {x y : Subject Script} (h : x.Twin r y) :
    (Script.actionSubject x).Twin TwinAction (Script.actionSubject y) := by
  cases h with
  | new h => exact .new (hr _ _ h)
  | copy h => exact .copy (hr _ _ h)

/-- Sub-query arguments with twin scripts are twins when these are run. -/
theorem SubArgument.Twin.action {x y : SubArgument Script} (h : x.Twin r y) :
    (Script.actionSub x).Twin TwinAction (Script.actionSub y) := by
  cases h with
  | finished h => exact .finished (h.action hr)
  | closure h => exact .closure (hr _ _ h)

/-- Operands with twin scripts are twins when these are run. -/
theorem Operand.Twin.action {x y : Operand (Subject Script)} (h : x.Twin (Subject.Twin r) y) :
    (Script.actionOperand x).Twin (Subject.Twin TwinAction) (Script.actionOperand y) := by
  cases h with
  | value h => exact .value h
  | expression aql => exact .expression aql
  | column name => exact .column name
  | query h => exact .query (h.action hr)

/-- Lists of operands with twin scripts are twins when these are run. -/
theorem Operand.Twin.actionAll {x y : List (Operand (Subject Script))}
    (h : List.Forall₂ (Operand.Twin (Subject.Twin r)) x y) :
    List.Forall₂ (Operand.Twin (Subject.Twin TwinAction)) (Script.actionOperands x)
      (Script.actionOperands y) := by
  induction h with
  | nil => exact .nil
  | cons h _ ih => exact .cons (h.action hr) ih

/-- Lists of selectors with twin scripts are twins when these are run. -/
theorem Selector.Twin.actionAll {x y : List (Selector Script)}
    (h : List.Forall₂ (Selector.Twin r) x y) :
    List.Forall₂ (Selector.Twin TwinAction) (Script.actionSelectors x)
      (Script.actionSelectors y) := by
  induction h with
  | nil => exact .nil
  | cons h _ ih =>
      cases h with
      | column name => exact .cons (.column name) ih
      | aliased c asName => exact .cons (.aliased c asName) ih
      | documents t => exact .cons (.documents t) ih
      | raw aql asName => exact .cons (.raw aql asName) ih
      | sub h asName => exact .cons (.sub (hr _ _ h) asName) ih

/-- Lists of calls to a join clause with twin scripts are twins when these are run. -/
theorem JoinCall.Twin.actionAll {x y : List (JoinCall Script)}
    (h : List.Forall₂ (JoinCall.Twin r) x y) :
    List.Forall₂ (JoinCall.Twin TwinAction) (Script.actionJoinCalls x)
      (Script.actionJoinCalls y) := by
  induction h with
  | nil => exact .nil
  | cons h _ ih =>
      cases h with
      | columns c first o second => exact .cons (.columns c first o second) ih
      | condition c column o h => exact .cons (.condition c column o (h.action hr)) ih
      | member column h => exact .cons (.member column h) ih
      | isNull negated column => exact .cons (.isNull negated column) ih

/-- Calls with twin scripts are twins when these are run. -/
theorem Call.Twin.action {x y : Call Script} (h : x.Twin r y) :
    (Script.actionCall x).Twin TwinAction (Script.actionCall y) := by
  cases h with
  | withPrefix text => exact .withPrefix text
  | fromCollection table => exact .fromCollection table
  | fromView view => exact .fromView view
  | fromQuery h asName => exact .fromQuery (h.action hr) asName
  | select h => exact .select (Selector.Twin.actionAll hr h)
  | addSelect h => exact .addSelect (Selector.Twin.actionAll hr h)
  | selectRaw aql asName => exact .selectRaw aql asName
  | selectQuery h asName => exact .selectQuery (h.action hr) asName
  | distinctRows => exact .distinctRows
  | set name h => exact .set name (h.action hr)
  | setQuery name h => exact .setQuery name (h.action hr)
  | addBinding v w category => exact .addBinding v w category
  | addBindings h category => exact .addBindings (Operand.Twin.actionAll hr h) category
  | setBindings h category => exact .setBindings h category
  | mergeBindings h category => exact .mergeBindings (hr _ _ h) category
  | condition list c column o h => exact .condition list c column o (h.action hr)
  | compareColumns c first o second => exact .compareColumns c first o second
  | member c negated column h => exact .member c negated column h
  | memberOfQuery negated column h => exact .memberOfQuery negated column (h.action hr)
  | memberOf negated column values => exact .memberOf negated column values
  | isNull list c negated column => exact .isNull list c negated column
  | between list c negated column h => exact .between list c negated column h
  | nested c h => exact .nested c (hr _ _ h)
  | hasRows c negated h => exact .hasRows c negated (h.action hr)
  | compareQuery column o h => exact .compareQuery column o (h.action hr)
  | rawCondition list c aql => exact .rawCondition list c aql
  | contains negated column h => exact .contains negated column h
  | length column o h => exact .length column o (h.action hr)
  | date part column o h => exact .date part column o (h.action hr)
  | like c column h caseSensitive => exact .like c column h caseSensitive
  | notLike column h => exact .notLike column h
  | join kind table first o second => exact .join kind table first o second
  | joinWith kind table h => exact .joinWith kind table (JoinCall.Twin.actionAll hr h)
  | crossJoin table => exact .crossJoin table
  | joinQuery kind h asName first o second =>
      exact .joinQuery kind (h.action hr) asName first o second
  | rightJoin => exact .rightJoin
  | rightJoinQuery h => exact .rightJoinQuery (h.action hr)
  | groupBy h => exact .groupBy (Selector.Twin.actionAll hr h)
  | groupByRaw aql => exact .groupByRaw aql
  | orderBy column direction => exact .orderBy column direction
  | orderIn column direction => exact .orderIn column direction
  | latest column => exact .latest column
  | oldest column => exact .oldest column
  | order o => exact .order o
  | reorder => exact .reorder
  | reorderBy column direction => exact .reorderBy column direction
  | limitTo count => exact .limitTo count
  | skip count => exact .skip count
  | forPage page perPage => exact .forPage page perPage
  | union all h => exact .union all (h.action hr)
  | fullTextSearch h htext ha => exact .fullTextSearch (Selector.Twin.actionAll hr h) htext ha
  | copy => exact .copy
  | forSubQuery => exact .forSubQuery
  | forNested => exact .forNested
  | restart table => exact .restart table

/-- Lists of calls with twin scripts are twins when these are run. -/
theorem Call.Twin.actionAll {x y : List (Call Script)} (h : List.Forall₂ (Call.Twin r) x y) :
    List.Forall₂ (Call.Twin TwinAction) (Script.actionCalls x) (Script.actionCalls y) := by
  induction h with
  | nil => exact .nil
  | cons h _ ih => exact .cons (h.action hr) ih

end lifting

namespace Script.Twin

/-- Twin scripts do the same to the builders of two runs: by induction on how the scripts are
nested, with the step of one call. -/
theorem action [Naming] {s t : Script} (h : s.Twin t) : TwinAction s.action t.action := by
  induction h with
  | of _ hcalls ih => exact Call.Twin.applyAll (Call.Twin.actionAll ih hcalls)

theorem build [Naming] {s t : Script} (h : s.Twin t) : Supply.Twin Builder.Twin s.build t.build :=
  twin_fresh.bind h.action

end Script.Twin

end AqlBuilder

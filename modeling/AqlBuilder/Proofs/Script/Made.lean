import AqlBuilder.Proofs.Builder.Contained
import AqlBuilder.Proofs.Script.Parts
import AqlBuilder.Proofs.Script.Safety

/-!
# Scripts make builders

Every call of a script is a method, and the queries among its arguments are built by scripts, too.
So whatever a script builds comes about by the changes that methods make, and so do the queries that
an update assigns.

- `Call.makes_run` is the step of one call, and `Script.makes_action` the run of a script.
- `Script.made_build`: every script builds a builder that is made.
- `Entry.made_run`: so are the queries that an update assigns.
-/

namespace AqlBuilder

variable [Naming]

open Supply Builder

variable {b : Builder}

section evaluation

/-- A query argument is built as a builder that is made. -/
theorem Subject.made_build {x : Subject Script} (h : Makes x.part.2.action) (hb : b.Made) :
    ((Script.actionSubject x).build b).Always Builder.Made := by
  cases x with
  | new script => exact Made.always_fresh.bind h
  | copy script => exact hb.always_copyOf.bind h

/-- A sub-query argument comes to a sub-query that is made. -/
theorem SubArgument.made_evaluate {x : SubArgument Script} (h : Makes x.part.2.action)
    (hb : b.Made) : ((Script.actionSub x).evaluate b).Always SubQuery.Made := by
  cases x with
  | finished subject => exact (subject.made_build h hb).map fun _ hq => .finished hq
  | closure script => exact always_pure (.closure h)

/-- An operand comes to one that is made. -/
theorem Operand.made_evaluate {x : Operand (Subject Script)}
    (h : ∀ part ∈ x.parts, Makes part.2.action) (hb : b.Made) :
    ((Script.actionOperand x).evaluate b).Always Operand.Made := by
  cases x with
  | query subject =>
      refine (subject.made_build (h _ List.mem_cons_self) hb).map fun q hq query hquery => ?_
      cases hquery
      exact hq
  | _ => exact always_pure fun _ hq => nomatch hq

/-- Selectors come to some whose queries are made. -/
theorem Selector.made_evaluateAll {xs : List (Selector Script)}
    (h : ∀ part ∈ xs.flatMap Selector.parts, Makes part.2.action) :
    (each Selector.evaluate (Script.actionSelectors xs)).Always fun ss =>
      ∀ s ∈ ss, ∀ q ∈ s.queries, Builder.Made q.clauses := by
  have hparts : ∀ part ∈ (Script.actionSelectors xs).flatMap Selector.parts, Makes part.2 := by
    rwa [Selector.parts_actionAll, List.forall_mem_map]
  refine always_each_mem fun x hx => ?_
  cases x with
  | sub script asName =>
      have hscript : Makes script := hparts (true, script)
        (List.mem_flatMap.mpr ⟨_, hx, List.mem_cons_self⟩)
      intro next q hq
      rw [List.mem_singleton.mp hq]
      exact (Made.always_fresh.bind hscript) next
  | _ => exact always_pure fun _ hq => nomatch hq

/-- Calls to a join clause make builders if their scripts do. -/
theorem JoinCall.makes_runAll {xs : List (JoinCall Script)}
    (h : ∀ part ∈ xs.flatMap JoinCall.parts, Makes part.2.action) :
    Makes fun b => JoinCall.applyAll b (Script.actionJoinCalls xs) := by
  induction xs with
  | nil => exact fun _ hb => always_pure hb
  | cons first rest ih =>
      rw [List.flatMap_cons, List.forall_mem_append] at h
      intro b hb
      have hnext := ih h.2
      cases first with
      | columns c column o second =>
          exact (always_pure (hb.compareColumns c column _ second)).bind hnext
      | condition c column o operand =>
          exact ((operand.made_evaluate h.1 hb).bind fun _ ho =>
            hb.condition .filters c column _ ho).bind hnext
      | member column values =>
          have hmember : (b.member .and false column values).Always Builder.Made :=
            hb.conditionValue .filters .and column _ values
          exact hmember.bind hnext
      | isNull negated column =>
          exact (always_pure (hb.push .filters .and (.of_bare rfl))).bind hnext

/-- A call makes a builder, if the scripts inside do. -/
theorem Call.makes_run {x : Call Script} (h : ∀ part ∈ x.parts, Makes part.2.action) :
    Makes x.run := by
  intro b hb
  have hsub : ∀ {sub : SubArgument Script}, (∀ part ∈ [sub.part], Makes part.2.action) →
      ((Script.actionSub sub).evaluate b).Always SubQuery.Made := fun h =>
    SubArgument.made_evaluate (h _ List.mem_cons_self) hb
  have hchanged : ∀ {b' : Builder}, b.SameParts b' → b'.Made := hb.changed
  cases x with
  | withPrefix tablePrefix =>
      exact always_pure (hchanged ⟨rfl, rfl, rfl, rfl, rfl, rfl, rfl, rfl⟩)
  | fromCollection table => exact always_pure (hb.fromCollection table)
  | fromView view => exact always_pure (hb.fromView view)
  | fromQuery sub asName => exact (hsub h).bind fun _ hs => hb.fromQuery hs asName
  | select selectors => exact (Selector.made_evaluateAll h).map fun _ hs => hb.select hs
  | addSelect selectors => exact (Selector.made_evaluateAll h).map fun _ hs => hb.addSelect hs
  | selectRaw aql asName => exact always_pure (hb.selected fun _ hq => nomatch hq)
  | selectQuery sub asName => exact (hsub h).bind fun _ hs => hb.selectQuery hs asName
  | distinctRows => exact always_pure (hchanged ⟨rfl, rfl, rfl, rfl, rfl, rfl, rfl, rfl⟩)
  | set name o => exact (o.made_evaluate h hb).bind fun operand _ => hb.set name operand
  | setQuery name sub => exact (hsub h).bind fun _ hs => hb.setQuery name hs
  | addBinding v category => exact always_pure (hb.addBinding v category)
  | addBindings operands category =>
      exact always_true.map fun operands _ => hb.addBindings operands category
  | setBindings values category => exact always_pure (hb.withBindings _)
  | mergeBindings script category =>
      exact always_true.bind fun _ _ => always_true.map fun other _ => hb.withBindings _
  | condition list c column o operand =>
      exact (operand.made_evaluate h hb).bind fun _ ho => hb.condition list c column _ ho
  | compareColumns c first o second => exact always_pure (hb.compareColumns c first _ second)
  | member c negated column values => exact hb.conditionValue .filters c column _ values
  | memberOfQuery negated column sub =>
      exact (hsub h).bind fun _ hs => hb.memberOfQuery negated column hs
  | memberOf negated column values =>
      exact always_pure (of_unlessFailed hb (hb.push .filters .and (.of_bare rfl)))
  | isNull list c negated column => exact always_pure (hb.push list c (.of_bare rfl))
  | between list c negated column bounds =>
      exact always_pure (hb.between list c negated column bounds)
  | nested c script => exact hb.nested c (h _ List.mem_cons_self)
  | hasRows c negated sub => exact (hsub h).bind fun _ hs => hb.hasRows c negated hs
  | compareQuery column o sub => exact (hsub h).bind fun _ hs => hb.compareQuery column hs
  | rawCondition list c aql =>
      exact always_pure (of_unlessFailed hb (hb.push list c (.of_bare rfl)))
  | contains negated column value => exact always_pure (hb.contains negated column value)
  | length column o operand => exact always_true.bind fun operand _ => hb.length column operand
  | date part column o operand =>
      exact always_true.bind fun operand _ => hb.date part column operand
  | like c column pattern caseSensitive => exact hb.conditionValue .filters c column _ pattern
  | notLike column pattern => exact hb.conditionValue .filters .and column _ pattern
  | join kind table first o second => exact hb.join kind table first second
  | joinWith kind table calls =>
      have hclause := hb.joinWith kind table (JoinCall.makes_runAll h)
      exact hclause
  | crossJoin table => exact hb.crossJoin table
  | joinQuery kind sub asName first o second =>
      exact (hsub h).bind fun _ hs => hb.joinQuery kind hs asName first second
  | rightJoin => exact always_pure (hb.fail _)
  | rightJoinQuery sub => exact always_true.map fun _ _ => hb.fail _
  | groupBy selectors =>
      exact always_true.map fun _ _ => hchanged ⟨rfl, rfl, rfl, rfl, rfl, rfl, rfl, rfl⟩
  | groupByRaw aql => exact always_pure (hchanged ⟨rfl, rfl, rfl, rfl, rfl, rfl, rfl, rfl⟩)
  | orderBy column direction => exact always_pure (hb.orderBy column _)
  | orderIn column direction => exact always_pure (hb.orderBy column _)
  | latest column => exact always_pure (hb.orderBy _ _)
  | oldest column => exact always_pure (hb.orderBy _ _)
  | order o => exact always_pure (hb.pushOrder o)
  | reorder => exact always_pure hb.reorder
  | reorderBy column direction => exact always_pure (hb.reorder.orderBy column _)
  | limitTo count => exact always_pure (hb.limitTo count)
  | skip count => exact always_pure (hb.skip count)
  | forPage page perPage => exact always_pure ((hb.skip _).limitTo perPage)
  | union all sub => exact (hsub h).bind fun _ hs => hb.union all hs
  | fullTextSearch fields text analyzer =>
      exact always_true.map fun fields _ => hb.fullTextSearch fields text analyzer
  | copy => exact hb.always_copyOf
  | forSubQuery => exact hb.always_forSubQuery.mono fun _ hc => hc.1
  | forNested => exact hb.always_forNested
  | restart table => exact Made.always_fresh.map fun _ hc => hc.fromCollection table

end evaluation

namespace Script

/-- Calls make builders one after another, if the scripts inside do. -/
theorem makes_of {calls : List (Call Script)}
    (h : ∀ call ∈ calls, ∀ part ∈ call.parts, Makes part.2.action) :
    Makes (action (.of calls)) := by
  induction calls with
  | nil => exact fun _ hb => always_pure hb
  | cons first rest ih =>
      rw [List.forall_mem_cons] at h
      exact fun b hb => (Call.makes_run h.1 b hb).bind (ih h.2)

/-- A script makes builders: by induction on how scripts are nested, with the step of one call. -/
theorem makes_action (s : Script) : Makes s.action :=
  s.holds (motive := fun s => Makes s.action) fun _ h => makes_of h

/-- **Every script builds a builder that is made.** -/
theorem made_build (s : Script) : s.build.Always Builder.Made :=
  Made.always_fresh.bind s.makes_action

end Script

/-- Building the sub-queries of an entry leaves ones that are made. -/
theorem Entry.made_run (x : Entry (Subject Script)) (hb : b.Made) :
    (x.run b).Always Entry.Made := by
  cases x with
  | update changes =>
      refine (changes.always_run (p := fun assignments => ∀ a ∈ assignments, a.2.Made)
        fun pairs hpairs => ?_).map fun _ hmade => hmade
      refine Operand.always_runAll (p := fun _ o => o.Made) fun a ha => ?_
      exact Operand.made_evaluate (fun part _ => Script.makes_action part.2) hb
  | _ => exact always_pure trivial

end AqlBuilder

import AqlBuilder.Alias.Rules
import AqlBuilder.Proofs.Script.Safety
import AqlBuilder.Proofs.Statement.Backed

/-!
# Names and values match

A script without marks: no name, column or text among its arguments has the mark of a reference, no
bound string is written like one, and the values of a category are never replaced. Running it keeps
builders backed, so every statement compiled at the end has a value for each name and no other
values.

- `Call.Clean` is the condition on one call whose scripts have a property, and `Script.Clean` closes
  the recursion.
- `Call.Clean.apply` is the step of one call, and `Script.Clean.build` the run of a whole script.
- `Script.Clean.names_match`: the names of a statement are the names of its values.
-/

namespace AqlBuilder

open Supply

section arguments

variable {S : Type} (r : S → Prop)

/-- The script of a query among the arguments has a property. -/
def Subject.Clean : Subject S → Prop
  | .new script => r script
  | .copy script => r script

/-- The script of a sub-query among the arguments has a property. -/
def SubArgument.Clean : SubArgument S → Prop
  | .finished subject => subject.Clean r
  | .closure script => r script

/-- An operator without marks. -/
def OperatorArgument.Clean : OperatorArgument → Prop
  | .spelling _ => True
  | .custom text => Unmarked text

/-- A call to a join clause without marks. -/
def JoinCall.Clean : JoinCall S → Prop
  | .columns _ first o second => Unmarked first ∧ o.Clean ∧ Unmarked second
  | .condition _ column o operand =>
    Unmarked column ∧ (∀ a ∈ o, a.Clean) ∧ operand.Clean (Subject.Clean r)
  | .member column values => Unmarked column ∧ values.Filed
  | .isNull _ column => Unmarked column

/-- Bounds that are filed when they are bound. -/
def Value.FiledBounds (v : Value) : Prop :=
  ∀ low high, v.bounds? = some (low, high) → low.reference? = none ∧ high.reference? = none

/-- A call without marks whose scripts have a property. Sub-queries are selected by a call of their
own, and the values of a category are not replaced. A builder for a group of conditions is made only
where the group is made, for it relies on the values of the query around it. -/
def Call.Clean : Call S → Prop
  | .withPrefix tablePrefix => Unmarked tablePrefix
  | .fromCollection table => Unmarked table
  | .fromView view => Unmarked view
  | .fromQuery sub asName => sub.Clean r ∧ Unmarked asName
  | .select selectors => ∀ s ∈ selectors, s.Within fun _ => False
  | .addSelect selectors => ∀ s ∈ selectors, s.Within fun _ => False
  | .selectRaw aql asName => Unmarked aql ∧ ∀ name ∈ asName, Unmarked name
  | .selectQuery sub asName => sub.Clean r ∧ Unmarked asName
  | .distinctRows => True
  | .set name operand => Unmarked name ∧ operand.Clean (Subject.Clean r)
  | .setQuery name sub => Unmarked name ∧ sub.Clean r
  | .addBinding _ _ => True
  | .addBindings _ _ => True
  | .setBindings _ _ => False
  | .mergeBindings script _ => r script
  | .condition _ _ column o operand =>
    Unmarked column ∧ (∀ a ∈ o, a.Clean) ∧ operand.Clean (Subject.Clean r)
  | .compareColumns _ first o second => Unmarked first ∧ o.Clean ∧ Unmarked second
  | .member _ _ column values => Unmarked column ∧ values.Filed
  | .memberOfQuery _ column sub => Unmarked column ∧ sub.Clean r
  | .memberOf _ column _ => Unmarked column
  | .isNull _ _ _ column => Unmarked column
  | .between _ _ _ column bounds => Unmarked column ∧ bounds.FiledBounds
  | .nested _ script => r script
  | .hasRows _ _ sub => sub.Clean r
  | .compareQuery column o sub => Unmarked column ∧ o.Clean ∧ sub.Clean r
  | .rawCondition _ _ aql => Unmarked aql
  | .contains _ column value => Unmarked column ∧ value.Filed
  | .length column o operand => Unmarked column ∧ o.Clean ∧ operand.Clean (Subject.Clean r)
  | .date _ column o operand => Unmarked column ∧ o.Clean ∧ operand.Clean (Subject.Clean r)
  | .like _ column pattern _ => Unmarked column ∧ pattern.Filed
  | .notLike column pattern => Unmarked column ∧ pattern.Filed
  | .join _ table first o second => Unmarked table ∧ Unmarked first ∧ o.Clean ∧ Unmarked second
  | .joinWith _ table calls => Unmarked table ∧ ∀ c ∈ calls, c.Clean r
  | .crossJoin table => Unmarked table
  | .joinQuery _ sub asName first o second =>
    sub.Clean r ∧ Unmarked asName ∧ Unmarked first ∧ o.Clean ∧ Unmarked second
  | .rightJoin => True
  | .rightJoinQuery _ => True
  | .groupBy selectors => ∀ s ∈ selectors, s.Within fun _ => True
  | .groupByRaw aql => Unmarked aql
  | .orderBy column _ => Unmarked column
  | .orderIn column _ => Unmarked column
  | .latest column => ∀ name ∈ column, Unmarked name
  | .oldest column => ∀ name ∈ column, Unmarked name
  | .order o => o.Clean
  | .reorder => True
  | .reorderBy column _ => Unmarked column
  | .limitTo _ => True
  | .skip _ => True
  | .forPage _ _ => True
  | .union _ sub => sub.Clean r
  | .fullTextSearch fields text analyzer => (∀ s ∈ fields, s.Within fun _ => True) ∧ text.Filed ∧
      ∀ a ∈ analyzer, isPlaceholder a = false
  | .copy => True
  | .forSubQuery => True
  | .forNested => False
  | .restart table => Unmarked table

end arguments

/-- A script without marks. The scripts inside have none either; `inner` stands for the part of that
which was established before. -/
inductive Script.Clean : Script → Prop
  | of {inner : Script → Prop} (hinner : ∀ s, inner s → Script.Clean s) {calls : List (Call Script)}
      (h : ∀ call ∈ calls, call.Clean inner) : Script.Clean (.of calls)

open Builder

/-- A clean operator that is legal is written without marks. -/
theorem OperatorArgument.Clean.operator {a : OperatorArgument} (h : a.Clean) :
    ∀ o, a.operator = .ok o → Unmarked o.text := by
  intro o ho
  cases a with
  | custom text =>
      cases ho
      exact h
  | spelling text =>
      have hall : ∀ entry ∈ Operator.spellings, Unmarked entry.2.text := by decide
      change Operator.ofSpelling text = .ok o at ho
      unfold Operator.ofSpelling at ho
      cases hlookup : Operator.spellings.lookup (Operator.normalized text) with
      | none =>
          rw [hlookup] at ho
          cases ho
      | some found =>
          rw [hlookup] at ho
          cases ho
          obtain ⟨before, after, hsplit, -⟩ := List.lookup_eq_some_iff.mp hlookup
          have hmem : (Operator.normalized text, o) ∈ Operator.spellings := by
            rw [hsplit]
            exact List.mem_append_right before List.mem_cons_self
          exact hall _ hmem

/-- The operator by default is written without marks as well. -/
theorem OperatorArgument.clean_orEqual {a : Option OperatorArgument} (h : ∀ x ∈ a, x.Clean) :
    ∀ o, orEqual a = .ok o → Unmarked o.text := by
  cases a with
  | some argument => exact (h argument rfl).operator
  | none =>
      intro o ho
      cases ho
      decide

section evaluation

variable {outer : Set String} {b : Builder}

/-- A clean query argument is built as a backed builder. -/
theorem Subject.Clean.build {x : Subject Action} (h : x.Clean KeepsBacked) (hb : b.Backed outer) :
    (x.build b).Always (Backed outer) := by
  cases x with
  | new script => exact (Backed.fresh outer).bind fun c hc => h outer c hc
  | copy script => exact hb.copyOf.bind fun c hc => h outer c hc

/-- A clean sub-query argument comes to a backed sub-query. -/
theorem SubArgument.Clean.evaluate {x : SubArgument Action} (h : x.Clean KeepsBacked)
    (hb : b.Backed outer) : (x.evaluate b).Always (SubQuery.Backed outer) := by
  cases x with
  | finished subject => exact (Subject.Clean.build h hb).map fun _ hq => .finished hq
  | closure script => exact always_pure (.closure h)

/-- A clean operand comes to a backed operand. -/
theorem Operand.Clean.evaluate {x : Operand (Subject Action)}
    (h : x.Clean (Subject.Clean KeepsBacked)) (hb : b.Backed outer) :
    (x.evaluate b).Always (Operand.Backed outer) := by
  cases h with
  | value h => exact always_pure (.value h)
  | expression h => exact always_pure (.expression h)
  | column h => exact always_pure (.column h)
  | query h => exact (Subject.Clean.build h hb).map fun _ hq => .query hq

/-- Evaluating the query of a selector keeps what does not depend on it. -/
theorem Selector.Within.evaluate {p : Prop} {x : Selector Action} (h : x.Within fun _ => p) :
    x.evaluate.Always fun s => s.Within fun _ => p := by
  cases x with
  | sub script asName => exact always_true.bind fun c _ => always_true.map fun q _ => h
  | _ => exact always_pure h

/-- Evaluating the queries of selectors keeps what does not depend on them. -/
theorem Selector.within_evaluateAll {p : Prop} {x : List (Selector Action)}
    (h : ∀ s ∈ x, s.Within fun _ => p) :
    (each Selector.evaluate x).Always fun ss => ∀ s ∈ ss, s.Within fun _ => p := by
  exact always_each_mem fun s hs => (h s hs).evaluate

/-- A clean call to a join clause keeps a builder backed. -/
theorem JoinCall.Clean.apply [Naming] {x : JoinCall Action} (h : x.Clean KeepsBacked)
    (hb : b.Backed outer) : (x.apply b).Always (Backed outer) := by
  cases x with
  | columns c first o second =>
      obtain ⟨hfirst, ho, hsecond⟩ := h
      exact always_pure (hb.compareColumns c hfirst ho.operator hsecond)
  | condition c column o operand =>
      obtain ⟨hcolumn, ho, hoperand⟩ := h
      exact (Operand.Clean.evaluate hoperand hb).bind fun _ hoperand =>
        hb.condition .filters c hcolumn (OperatorArgument.clean_orEqual ho) hoperand
  | member column values => exact hb.member .and false h.1 h.2
  | isNull negated column => exact always_pure (hb.push .filters .and h)

/-- Clean calls to a join clause keep builders backed. -/
theorem JoinCall.Clean.applyAll [Naming] {x : List (JoinCall Action)}
    (h : ∀ c ∈ x, c.Clean KeepsBacked) :
    KeepsBacked fun b => JoinCall.applyAll b x := by
  induction x with
  | nil => exact fun _ _ hb => always_pure hb
  | cons first rest ih =>
      have hfirst := h first List.mem_cons_self
      have hrest := ih fun c hc => h c (List.mem_cons_of_mem first hc)
      exact fun outer _ hb => (hfirst.apply hb).bind fun joined hjoined =>
        hrest outer joined hjoined

/-- A call without marks keeps a builder backed. -/
theorem Call.Clean.apply [Naming] {x : Call Action} (h : x.Clean KeepsBacked)
    (hb : b.Backed outer) :
    (x.apply b).Always (Backed outer) := by
  have hsub : ∀ {sub : SubArgument Action}, sub.Clean KeepsBacked →
      (sub.evaluate b).Always (SubQuery.Backed outer) := fun h => SubArgument.Clean.evaluate h hb
  have hoperand : ∀ {o : Operand (Subject Action)}, o.Clean (Subject.Clean KeepsBacked) →
      (o.evaluate b).Always (Operand.Backed outer) := fun h => Operand.Clean.evaluate h hb
  cases x with
  | withPrefix tablePrefix => exact always_pure (hb.withPrefix h)
  | fromCollection table => exact always_pure (hb.fromCollection h)
  | fromView view => exact always_pure (hb.fromView h)
  | fromQuery sub asName => exact (hsub h.1).bind fun _ hs => hb.fromQuery hs h.2
  | select selectors => exact (Selector.within_evaluateAll h).map fun _ hs => hb.select hs
  | addSelect selectors => exact (Selector.within_evaluateAll h).map fun _ hs => hb.addSelect hs
  | selectRaw aql asName => exact always_pure (hb.selectRaw h.1 h.2)
  | selectQuery sub asName => exact (hsub h.1).bind fun _ hs => hb.selectQuery hs h.2
  | distinctRows => exact always_pure ⟨hb.named, { hb.within with }⟩
  | set name operand => exact (hoperand h.2).bind fun _ ho => hb.set h.1 ho
  | setQuery name sub => exact (hsub h.2).bind fun _ hs => hb.setQuery h.1 hs
  | addBinding v category => exact always_pure (hb.addBinding v category)
  | addBindings operands category =>
      exact always_true.map fun operands _ => hb.addBindings operands category
  | setBindings values category => exact h.elim
  | mergeBindings script category =>
      exact (Backed.fresh outer).bind fun c hc => (h outer c hc).map fun _ hother =>
        hb.mergeBindings hother.named category
  | condition list c column o operand =>
      obtain ⟨hcolumn, ho, h⟩ := h
      exact (hoperand h).bind fun _ hoperand =>
        hb.condition list c hcolumn (OperatorArgument.clean_orEqual ho) hoperand
  | compareColumns c first o second =>
      exact always_pure (hb.compareColumns c h.1 h.2.1.operator h.2.2)
  | member c negated column values => exact hb.member c negated h.1 h.2
  | memberOfQuery negated column sub =>
      exact (hsub h.2).bind fun _ hs => hb.memberOfQuery negated h.1 hs
  | memberOf negated column values => exact always_pure (hb.memberOf negated h values)
  | isNull list c negated column => exact always_pure (hb.push list c h)
  | between list c negated column bounds =>
      exact always_pure (hb.between list c negated h.1 h.2)
  | nested c script => exact hb.nested c h
  | hasRows c negated sub => exact (hsub h).bind fun _ hs => hb.hasRows c negated hs
  | compareQuery column o sub =>
      exact (hsub h.2.2).bind fun _ hs => hb.compareQuery h.1 h.2.1.operator hs
  | rawCondition list c aql => exact always_pure (hb.rawCondition list c h)
  | contains negated column value => exact always_pure (hb.contains negated h.1 h.2)
  | length column o operand =>
      exact (hoperand h.2.2).bind fun _ ho => hb.length h.1 h.2.1.operator ho
  | date part column o operand =>
      exact (hoperand h.2.2).bind fun _ ho => hb.date part h.1 h.2.1.operator ho
  | like c column pattern caseSensitive => exact hb.like c h.1 h.2 caseSensitive
  | notLike column pattern => exact hb.notLike h.1 h.2
  | join kind table first o second =>
      obtain ⟨htable, hfirst, ho, hsecond⟩ := h
      exact hb.join kind htable hfirst ho.operator hsecond
  | joinWith kind table calls =>
      have hclause := hb.joinWith kind h.1 (JoinCall.Clean.applyAll h.2)
      exact hclause
  | crossJoin table => exact hb.crossJoin h
  | joinQuery kind sub asName first o second =>
      obtain ⟨h, hname, hfirst, ho, hsecond⟩ := h
      exact (hsub h).bind fun _ hs => hb.joinQuery kind hs hname hfirst ho.operator hsecond
  | rightJoin => exact always_pure (hb.fail _)
  | rightJoinQuery sub => exact always_true.map fun _ _ => hb.fail _
  | groupBy selectors => exact (Selector.within_evaluateAll h).map fun _ hs => hb.groupBy hs
  | groupByRaw aql => exact always_pure (hb.groupByRaw h)
  | orderBy column direction => exact always_pure (hb.orderBy h _)
  | orderIn column direction => exact always_pure (hb.orderBy h _)
  | latest column => exact always_pure (hb.orderBy (Backed.unmarked_creation h) _)
  | oldest column => exact always_pure (hb.orderBy (Backed.unmarked_creation h) _)
  | order o => exact always_pure (hb.pushOrder h)
  | reorder => exact always_pure hb.reorder
  | reorderBy column direction => exact always_pure (hb.reorder.orderBy h _)
  | limitTo count => exact always_pure (hb.limitTo count)
  | skip count => exact always_pure (hb.skip count)
  | forPage page perPage => exact always_pure ((hb.skip ((page - 1) * perPage)).limitTo perPage)
  | union all sub => exact (hsub h).bind fun _ hs => hb.union all hs
  | fullTextSearch fields text analyzer =>
      obtain ⟨hfields, htext, hanalyzer⟩ := h
      exact (Selector.within_evaluateAll hfields).map fun _ hs =>
        hb.fullTextSearch hs htext hanalyzer
  | copy => exact hb.copyOf
  | forSubQuery => exact hb.forSubQuery outer
  | forNested => exact h.elim
  | restart table => exact (Backed.fresh outer).map fun _ hq => hq.fromCollection h

/-- Clean calls keep builders backed, by induction on the calls. -/
theorem Call.Clean.applyAll [Naming] {x : List (Call Action)} (h : ∀ c ∈ x, c.Clean KeepsBacked) :
    KeepsBacked (Call.applyAll x) := by
  induction x with
  | nil => exact fun _ _ hb => always_pure hb
  | cons first rest ih =>
      have hfirst := h first List.mem_cons_self
      have hrest := ih fun c hc => h c (List.mem_cons_of_mem first hc)
      exact fun outer _ hb => (hfirst.apply hb).bind fun c hc => hrest outer c hc

end evaluation

section lifting

variable [Naming] {r : Script → Prop} (hr : ∀ s, r s → KeepsBacked s.action)

include hr

/-- A query argument with a clean script keeps builders backed when the script is run. -/
theorem Subject.Clean.action {x : Subject Script} (h : x.Clean r) :
    (Script.actionSubject x).Clean KeepsBacked := by
  cases x with
  | new script => exact hr script h
  | copy script => exact hr script h

/-- A sub-query argument with a clean script keeps builders backed when the script is run. -/
theorem SubArgument.Clean.action {x : SubArgument Script} (h : x.Clean r) :
    (Script.actionSub x).Clean KeepsBacked := by
  cases x with
  | finished subject => exact Subject.Clean.action hr h
  | closure script => exact hr script h

/-- An operand with a clean script keeps builders backed when the script is run. -/
theorem Operand.Clean.action {x : Operand (Subject Script)} (h : x.Clean (Subject.Clean r)) :
    (Script.actionOperand x).Clean (Subject.Clean KeepsBacked) := by
  cases h with
  | value h => exact .value h
  | expression h => exact .expression h
  | column h => exact .column h
  | query h => exact .query (Subject.Clean.action hr h)

omit hr in
/-- Running the scripts of selectors keeps what does not depend on them. -/
theorem Selector.within_actionAll {p : Prop} {x : List (Selector Script)}
    (h : ∀ s ∈ x, s.Within fun _ => p) :
    ∀ s ∈ Script.actionSelectors x, s.Within fun _ => p := by
  induction x with
  | nil => exact fun _ hs => (List.not_mem_nil hs).elim
  | cons first rest ih =>
      have hfirst := h first List.mem_cons_self
      have hrest := ih fun s hs => h s (List.mem_cons_of_mem first hs)
      cases first <;>
      · intro s hs
        rcases List.mem_cons.mp hs with rfl | hs
        · exact hfirst
        · exact hrest s hs

/-- Clean calls to a join clause stay clean when their scripts are run. -/
theorem JoinCall.Clean.actionAll {x : List (JoinCall Script)} (h : ∀ c ∈ x, c.Clean r) :
    ∀ c ∈ Script.actionJoinCalls x, c.Clean KeepsBacked := by
  induction x with
  | nil => exact fun _ hc => (List.not_mem_nil hc).elim
  | cons first rest ih =>
      have hfirst := h first List.mem_cons_self
      have hrest := ih fun c hc => h c (List.mem_cons_of_mem first hc)
      cases first with
      | condition c column o operand =>
          intro call hcall
          rcases List.mem_cons.mp hcall with rfl | hcall
          · exact ⟨hfirst.1, hfirst.2.1, Operand.Clean.action hr hfirst.2.2⟩
          · exact hrest call hcall
      | _ =>
          intro call hcall
          rcases List.mem_cons.mp hcall with rfl | hcall
          · exact hfirst
          · exact hrest call hcall

/-- A call with clean scripts is a clean call on the actions that they are run as. -/
theorem Call.Clean.action {x : Call Script} (h : x.Clean r) :
    (Script.actionCall x).Clean KeepsBacked := by
  cases x with
  | fromQuery sub asName => exact ⟨SubArgument.Clean.action hr h.1, h.2⟩
  | select selectors => exact Selector.within_actionAll h
  | addSelect selectors => exact Selector.within_actionAll h
  | selectQuery sub asName => exact ⟨SubArgument.Clean.action hr h.1, h.2⟩
  | set name operand => exact ⟨h.1, Operand.Clean.action hr h.2⟩
  | setQuery name sub => exact ⟨h.1, SubArgument.Clean.action hr h.2⟩
  | mergeBindings script category => exact hr script h
  | condition list c column o operand => exact ⟨h.1, h.2.1, Operand.Clean.action hr h.2.2⟩
  | memberOfQuery negated column sub => exact ⟨h.1, SubArgument.Clean.action hr h.2⟩
  | nested c script => exact hr script h
  | hasRows c negated sub => exact SubArgument.Clean.action hr h
  | compareQuery column o sub => exact ⟨h.1, h.2.1, SubArgument.Clean.action hr h.2.2⟩
  | length column o operand => exact ⟨h.1, h.2.1, Operand.Clean.action hr h.2.2⟩
  | date part column o operand => exact ⟨h.1, h.2.1, Operand.Clean.action hr h.2.2⟩
  | joinWith kind table calls => exact ⟨h.1, JoinCall.Clean.actionAll hr h.2⟩
  | joinQuery kind sub asName first o second =>
      exact ⟨SubArgument.Clean.action hr h.1, h.2⟩
  | groupBy selectors => exact Selector.within_actionAll h
  | union all sub => exact SubArgument.Clean.action hr h
  | fullTextSearch fields text analyzer => exact ⟨Selector.within_actionAll h.1, h.2⟩
  | _ => exact h

/-- Calls with clean scripts are clean calls on the actions that they are run as. -/
theorem Call.Clean.actionAll {x : List (Call Script)} (h : ∀ c ∈ x, c.Clean r) :
    ∀ c ∈ Script.actionCalls x, c.Clean KeepsBacked := by
  induction x with
  | nil => exact fun _ hc => (List.not_mem_nil hc).elim
  | cons first rest ih =>
      intro call hcall
      rcases List.mem_cons.mp hcall with rfl | hcall
      · exact Call.Clean.action hr (h first List.mem_cons_self)
      · exact ih (fun c hc => h c (List.mem_cons_of_mem first hc)) call hcall

end lifting

namespace Script.Clean

/-- A script without marks keeps builders backed: by induction on how scripts are nested, with the
step of one call. -/
theorem action [Naming] {s : Script} (h : s.Clean) : KeepsBacked s.action := by
  induction h with
  | of _ hcalls ih => exact Call.Clean.applyAll (Call.Clean.actionAll ih hcalls)

theorem build [Naming] {s : Script} (h : s.Clean) : s.build.Always (Backed ∅) :=
  (Backed.fresh ∅).bind fun b hb => h.action ∅ b hb

end Script.Clean

section entries

variable [Naming] {b : Builder}

theorem Operand.Clean.run {o : Operand (Subject Script)} (h : o.Clean (Subject.Clean Script.Clean))
    (hb : b.Backed ∅) : (o.run b).Always (Operand.Backed ∅) :=
  Operand.Clean.evaluate (Operand.Clean.action (fun _ hs => hs.action) h) hb

/-- The operands of an update are backed if the scripts in them are clean. -/
theorem Operand.clean_runAll {pairs : List (String × Operand (Subject Script))}
    (h : ∀ a ∈ pairs, Unmarked a.1 ∧ a.2.Clean (Subject.Clean Script.Clean)) (hb : b.Backed ∅) :
    (Operand.runAll b pairs).Always fun pairs => ∀ a ∈ pairs, Unmarked a.1 ∧ a.2.Backed ∅ := by
  refine always_runAll (p := fun key o => Unmarked key ∧ o.Backed ∅) fun a ha => ?_
  obtain ⟨hkey, ho⟩ := h a ha
  exact (ho.run hb).mono fun _ ho => ⟨hkey, ho⟩

/-- Clean changes come to changes that are backed. -/
theorem Changes.Clean.run {changes : Changes (Subject Script)}
    (h : changes.Clean (Subject.Clean Script.Clean)) (hb : b.Backed ∅) :
    (changes.run b).Always (Changes.Clean (Backed ∅)) :=
  changes.always_run fun pairs hpairs => Operand.clean_runAll (h pairs hpairs) hb

/-- A clean entry comes to one whose arguments are backed. -/
theorem Entry.Clean.run {e : Entry (Subject Script)} (h : e.Clean (Subject.Clean Script.Clean))
    (hb : b.Backed ∅) : (e.run b).Always (Entry.Clean (Backed ∅)) := by
  cases e with
  | update changes => exact (Changes.Clean.run h hb).map fun _ hchanges => hchanges
  | _ => exact always_pure h

end entries

/-- A script is clean if its calls are, each with clean scripts inside. -/
theorem Script.clean_of {calls : List (Call Script)}
    (h : calls.Forall fun call => call.Clean Script.Clean) :
    Script.Clean (.of calls) := .of (fun _ h => h) (List.forall_iff_forall_mem.mp h)

/-- **Names and values match.**  If a statement can be compiled from what a script without marks has
built, the names that it refers to are exactly the names of its values. -/
theorem Script.Clean.names_match [Naming] {s : Script} (h : s.Clean) {e : Entry (Subject Script)}
    (he : e.Clean (Subject.Clean Script.Clean)) (next : Nat) {compiled : Compiled}
    (hcompiled : (s.statementFor e next).1 = .ok compiled) (name : String) :
    name ∈ references compiled.aql ↔ name ∈ compiled.bindings.keys := by
  have hstatement : (s.statementFor e).Always fun result =>
      ∀ c, result = .ok c → c.Matched := by
    refine h.build.bind fun b hb => (Entry.Clean.run he hb).bind fun entry hentry => ?_
    exact hb.matched_compile hentry
  exact hstatement next compiled hcompiled name

/-- Users with a name, some tags and a city of some size, each with the posts and the likes of some
weight. -/
def Script.listed (name tags bound : Value) : Script :=
  .of [.fromCollection "users as u",
    .condition .filters .and "u.name" none (.value name),
    .nested .and (.of [.member .and false "u.tags" tags,
      .memberOfQuery false "u.city" (.closure (.of [.fromCollection "cities as c",
        .condition .filters .and "size" (some (.custom ">")) (.value bound),
        .select [.column "name"]]))]),
    .joinWith .left "posts as p" [.columns .and "p.user" (.custom "==") "u.id"],
    .select [.column "u.name"],
    .selectQuery (.finished (.new (.of [.fromCollection "likes as l",
      .condition .filters .and "weight" (some (.custom ">=")) (.value bound)]))) "likes"]

/-- The script is clean for all values that are filed. -/
theorem Script.clean_listed {name tags bound : Value} (hname : name.Filed) (htags : tags.Filed)
    (hbound : bound.Filed) : (listed name tags bound).Clean := by
  have hcities : Script.Clean (.of [.fromCollection "cities as c",
      .condition .filters .and "size" (some (.custom ">")) (.value bound),
      .select [.column "name"]]) := by
    refine clean_of ⟨(by decide : Unmarked _), ⟨(by decide : Unmarked _), ?_, .value hbound⟩, ?_⟩
    · rintro a ⟨⟩
      exact (by decide : Unmarked ">")
    · intro s hs
      rw [List.mem_singleton.mp hs]
      exact (by decide : Unmarked "name")
  have hlikes : Script.Clean (.of [.fromCollection "likes as l",
      .condition .filters .and "weight" (some (.custom ">=")) (.value bound)]) := by
    refine clean_of ⟨(by decide : Unmarked _), (by decide : Unmarked _), ?_, .value hbound⟩
    rintro a ⟨⟩
    exact (by decide : Unmarked ">=")
  have hgroup : Script.Clean (.of [.member .and false "u.tags" tags,
      .memberOfQuery false "u.city" (.closure (.of [.fromCollection "cities as c",
        .condition .filters .and "size" (some (.custom ">")) (.value bound),
        .select [.column "name"]]))]) :=
    clean_of ⟨⟨(by decide : Unmarked _), htags⟩, (by decide : Unmarked _), hcities⟩
  refine clean_of ⟨(by decide : Unmarked _), ⟨(by decide : Unmarked _), ?_, .value hname⟩, hgroup,
    ⟨(by decide : Unmarked _), ?_⟩, ?_, hlikes, (by decide : Unmarked _)⟩
  · rintro a ⟨⟩
  · intro c hc
    rw [List.mem_singleton.mp hc]
    exact ⟨(by decide : Unmarked _), (by decide : Unmarked "=="), (by decide : Unmarked _)⟩
  · intro s hs
    rw [List.mem_singleton.mp hs]
    exact (by decide : Unmarked "u.name")

/-- Its names match, also where one of its values spells a name. -/
theorem Script.listed_names_match :
    let s := listed (.string "Ann") (.array [.string "@0_where_1", .null]) (.int32 3)
    let e : Entry (Subject Script) := .update (.operands [("score", .query (.new
      (listed .null (.array []) (.json (.int 2))))), ("seen", .value (.bool true))])
    s.Clean ∧ e.Clean (Subject.Clean Script.Clean) ∧ ∃ compiled,
      (s.statementFor e 0).1 = .ok compiled ∧
      ∀ name, name ∈ references compiled.aql ↔ name ∈ compiled.bindings.keys := by
  intro s e
  have hs : s.Clean := clean_listed (by decide) (by decide) (by decide)
  have he : e.Clean (Subject.Clean Script.Clean) := by
    intro assignments hassignments
    cases hassignments
    refine List.forall_iff_forall_mem.mp ⟨⟨(by decide : Unmarked _), .query ?_⟩,
      (by decide : Unmarked _), .value (by decide)⟩
    exact clean_listed (by decide) (by decide) (by decide)
  have hsucceeds : (s.statementFor e 0).1.isOk = true := by decide +kernel
  obtain ⟨compiled, hcompiled⟩ : ∃ compiled, (s.statementFor e 0).1 = .ok compiled := by
    cases hresult : (s.statementFor e 0).1 with
    | error e =>
        rw [hresult] at hsucceeds
        cases hsucceeds
    | ok compiled => exact ⟨compiled, rfl⟩
  exact ⟨hs, he, compiled, hcompiled, hs.names_match he 0 hcompiled⟩
end AqlBuilder

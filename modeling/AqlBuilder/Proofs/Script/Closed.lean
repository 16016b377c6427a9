import AqlBuilder.Alias.Rules
import AqlBuilder.Proofs.Builder.ClosedMethods
import AqlBuilder.Proofs.Script.Safety
import AqlBuilder.Proofs.Script.Stores
import AqlBuilder.Proofs.Statement.Mentioned

/-!
# Query variables are defined before they are used

A script is orderly if its calls are in their places: groups of conditions define no variable, no
variable is defined by a column, a selected sub-query has one of certain names, and builders for
sub-queries are made only where a method asks for them. Such a script builds closed builders, so a
variable that one of its statements mentions has a `LET` in front of it, in the same query or in one
around it. Two kinds of variables are left out: selected sub-queries, which are known long before
their `LET`, and those of the first query of a union, which the other queries know as well.

- `Call.Placed` is the condition on one call, and `Script.Orderly` closes the recursion.
- `Call.Orderly.apply` is the step of one call, and `Script.Orderly.build` the run of a script.
- `Script.Orderly.variables_declared` is the result for compiled statements.
-/

namespace AqlBuilder

open Supply

section arguments

variable {Q : Type}

/-- Whether the query of a script in a call is written as a statement. Groups of conditions are
not. -/
def Call.writes : Call Q → Bool
  | .nested _ _ => false
  | _ => true

/-- A call in its place, for a query that is written as a statement or not. Sub-queries are selected
under certain names. -/
def Call.Placed (S : List String) (written : Bool) : Call Q → Prop
  | .selectQuery _ asName => asName ∈ S
  | .set _ o => written = true ∧ o.isColumn = false
  | .setQuery _ _ => written = true
  | .forSubQuery => False
  | .forNested => False
  | _ => True

/-- A call in its place whose scripts have a property. -/
structure Call.Orderly (S : List String) (r : Bool → Q → Prop) (written : Bool) (call : Call Q) :
    Prop where
  placed : call.Placed S written
  scripts : ∀ script ∈ call.scripts, r call.writes script

end arguments

/-- A script whose calls are in their places. The scripts inside are orderly, too; `inner` stands
for the part of that which was established before. -/
inductive Script.Orderly (S : List String) : Bool → Script → Prop
  | of {inner : Bool → Script → Prop} {written : Bool}
      (hinner : ∀ w s, inner w s → Script.Orderly S w s) {calls : List (Call Script)}
      (h : ∀ call ∈ calls, call.Orderly S inner written) : Script.Orderly S written (.of calls)

/-- A way to compile whose scripts are orderly. -/
def Entry.Orderly (S : List String) : Entry (Subject Script) → Prop
  | .update changes => ∀ assignments, changes.assignments = .ok assignments →
      ∀ a ∈ assignments, ∀ script ∈ a.2.scripts, script.Orderly S true
  | _ => True

open Builder

section evaluation

variable {S outer : List String} {w : Bool} {b : Builder}

/-- A query argument whose script keeps builders closed is built as a closed builder. -/
theorem Subject.closed_build {x : Subject Action} (h : KeepsClosed S true x.script) (hS : S ⊆ outer)
    (hb : b.Closed w outer) : (x.build b).Always (Builder.Closed true outer) := by
  cases x with
  | new script => exact (Closed.fresh true outer).bind fun c hc => h outer c hS hc
  | copy script => exact hb.copyOf.bind fun c hc => h outer c hS hc.statement

/-- A sub-query argument whose script keeps builders closed comes to a closed sub-query. -/
theorem SubArgument.closed_evaluate {x : SubArgument Action} (h : KeepsClosed S true x.script)
    (hS : S ⊆ outer) (hb : b.Closed w outer) :
    (x.evaluate b).Always (SubQuery.Closed S outer) := by
  cases x with
  | finished subject => exact (Subject.closed_build h hS hb).map fun _ hq => .finished hq
  | closure script => exact always_pure (.closure h)

/-- An operand whose scripts keep builders closed comes to a closed one, and a column to a
column. -/
theorem Operand.closed_evaluate {x : Operand (Subject Action)}
    (h : ∀ s ∈ x.scripts, KeepsClosed S true s) (hS : S ⊆ outer) (hb : b.Closed w outer) :
    (x.evaluate b).Always fun o => o.Closed outer ∧ o.isColumn = x.isColumn := by
  cases x with
  | query subject =>
      refine (Subject.closed_build (h _ List.mem_cons_self) hS hb).map fun q hq => ⟨?_, rfl⟩
      rintro _ ⟨⟩
      exact hq
  | _ => exact always_pure ⟨fun _ ho => (nomatch ho), rfl⟩

/-- A selector whose script keeps builders closed comes to one with a closed query. -/
theorem Selector.closed_evaluate {x : Selector Action}
    (h : ∀ s ∈ x.queries, KeepsClosed S true s) (hS : S ⊆ outer) :
    x.evaluate.Always fun s => ∀ q ∈ s.queries, q.Closed true outer := by
  cases x with
  | sub script asName =>
      refine (Closed.fresh true outer).bind fun c hc =>
        (h script List.mem_cons_self outer c hS hc).map fun q hq q' hq' => ?_
      rw [List.mem_singleton.mp hq']
      exact Query.closed_of.mpr hq
  | _ => exact always_pure fun _ hq => nomatch hq

/-- Selectors whose scripts keep builders closed come to some with closed queries. -/
theorem Selector.closed_evaluateAll {xs : List (Selector Action)}
    (h : ∀ s ∈ xs.flatMap Selector.queries, KeepsClosed S true s) (hS : S ⊆ outer) :
    (each Selector.evaluate xs).Always fun ss =>
      ∀ s ∈ ss, ∀ q ∈ s.queries, q.Closed true outer := by
  refine always_each_mem fun x hx => Selector.closed_evaluate (fun s hs => h s ?_) hS
  exact List.mem_flatMap.mpr ⟨x, hx, hs⟩

/-- A call to a join clause keeps builders closed if its scripts do. -/
theorem JoinCall.closed_apply [Naming] {x : JoinCall Action}
    (h : ∀ s ∈ x.scripts, KeepsClosed S true s) :
    KeepsClosed S w fun b => x.apply b := by
  intro outer b hS hb
  cases x with
  | columns c first o second => exact always_pure (hb.compareColumns c first second)
  | condition c column o operand =>
      exact (Operand.closed_evaluate h hS hb).bind fun _ ho => hb.condition hS .filters c ho.1
  | member column values => exact hb.conditionValue .filters .and values
  | isNull negated column => exact always_pure (hb.pushPlain .filters .and rfl)

/-- Calls to a join clause keep builders closed if their scripts do. -/
theorem JoinCall.closed_applyAll [Naming] {xs : List (JoinCall Action)}
    (h : ∀ s ∈ xs.flatMap JoinCall.scripts, KeepsClosed S true s) :
    KeepsClosed S w fun b => JoinCall.applyAll b xs := by
  induction xs with
  | nil => exact fun _ _ _ hb => always_pure hb
  | cons first rest ih =>
      rw [List.flatMap_cons] at h
      have hfirst := JoinCall.closed_apply (w := w) fun s hs => h s (List.mem_append_left _ hs)
      have hrest := ih fun s hs => h s (List.mem_append_right _ hs)
      exact fun outer b hS hb =>
        (hfirst outer b hS hb).bind fun joined hjoined => hrest outer joined hS hjoined

/-- A call in its place keeps a builder closed. -/
theorem Call.Orderly.apply [Naming] {x : Call Action} (h : x.Orderly S (KeepsClosed S) w)
    (hS : S ⊆ outer) (hb : b.Closed w outer) : (x.apply b).Always (Builder.Closed w outer) := by
  obtain ⟨hplaced, hscripts⟩ := h
  have hall : outer ⊆ outer ++ b.definedNames := List.subset_append_left _ _
  -- The script of a call that has only this one.
  have hsub : ∀ {sub : SubArgument Action} {written : Bool}, written = true →
      (∀ s ∈ [sub.script], KeepsClosed S written s) →
      (sub.evaluate b).Always (SubQuery.Closed S outer) := fun hw h =>
    SubArgument.closed_evaluate (hw ▸ h _ List.mem_cons_self) hS hb
  have hoperand : ∀ {o : Operand (Subject Action)}, (∀ s ∈ o.scripts, KeepsClosed S true s) →
      (o.evaluate b).Always fun o' => o'.Closed outer ∧ o'.isColumn = o.isColumn :=
    fun h => Operand.closed_evaluate h hS hb
  have hselectors : ∀ {ss : List (Selector Action)},
      (∀ s ∈ ss.flatMap Selector.queries, KeepsClosed S true s) →
      (each Selector.evaluate ss).Always fun ss' => ∀ s ∈ ss', ∀ q ∈ s.queries,
        q.Closed true (outer ++ b.definedNames) :=
    fun h => (Selector.closed_evaluateAll h hS).mono fun _ hss s hs q hq =>
      (hss s hs q hq).mono hall
  cases x with
  | withPrefix tablePrefix => exact always_pure { hb with }
  | fromCollection table => exact always_pure (hb.fromCollection table)
  | fromView view => exact always_pure (hb.fromView view)
  | fromQuery sub asName => exact (hsub rfl hscripts).bind fun _ hs => hb.fromQuery hS hs asName
  | select selectors => exact (hselectors hscripts).map fun _ hs => hb.select hs
  | addSelect selectors => exact (hselectors hscripts).map fun _ hs => hb.addSelect hs
  | selectRaw aql asName =>
      exact always_pure (hb.withColumn (.raw aql asName) fun _ hq => nomatch hq)
  | selectQuery sub asName =>
      exact (hsub rfl hscripts).bind fun _ hs => hb.selectQuery hS hs hplaced
  | distinctRows => exact always_pure { hb with }
  | set name o =>
      obtain ⟨rfl, hcolumn⟩ := hplaced
      exact (hoperand hscripts).bind fun _ ho => hb.set name (ho.2.trans hcolumn)
  | setQuery name sub =>
      obtain rfl := hplaced
      exact (hsub rfl hscripts).bind fun _ hs => hb.setQuery hS name hs
  | addBinding v category => exact always_pure (hb.addBinding v category)
  | addBindings operands category =>
      exact always_true.map fun operands _ => hb.addBindings operands category
  | setBindings values category => exact always_pure (hb.withBindings _ b.error)
  | mergeBindings script category =>
      exact always_true.bind fun _ _ => always_true.map fun other _ =>
        hb.mergeBindings other category
  | condition list c column o operand =>
      exact (hoperand hscripts).bind fun _ ho => hb.condition hS list c ho.1
  | compareColumns c first o second => exact always_pure (hb.compareColumns c first second)
  | member c negated column values => exact hb.conditionValue .filters c values
  | memberOfQuery negated column sub =>
      exact (hsub rfl hscripts).bind fun _ hs => hb.memberOfQuery hS negated hs
  | memberOf negated column values => exact always_pure (hb.addPlain .filters .and rfl)
  | isNull list c negated column => exact always_pure (hb.pushPlain list c rfl)
  | between list c negated column bounds => exact always_pure (hb.between list c negated bounds)
  | nested c script => exact hb.nested hS c (hscripts script List.mem_cons_self)
  | hasRows c negated sub => exact (hsub rfl hscripts).bind fun _ hs => hb.hasRows hS c negated hs
  | compareQuery column o sub => exact (hsub rfl hscripts).bind fun _ hs => hb.compareQuery hS hs
  | rawCondition list c aql => exact always_pure (hb.addPlain list c rfl)
  | contains negated column value => exact always_pure (hb.contains negated value)
  | length column o operand => exact always_true.bind fun operand _ => hb.length operand
  | date part column o operand => exact always_true.bind fun operand _ => hb.date part operand
  | like c column pattern caseSensitive => exact hb.conditionValue .filters c pattern
  | notLike column pattern => exact hb.conditionValue .filters .and pattern
  | join kind table first o second => exact hb.join kind table first second
  | joinWith kind table calls =>
      have hclause := hb.joinWith hS kind table (JoinCall.closed_applyAll hscripts)
      exact hclause
  | crossJoin table => exact hb.crossJoin table
  | joinQuery kind sub asName first o second =>
      exact (hsub rfl hscripts).bind fun _ hs => hb.joinQuery hS kind hs asName first second
  | rightJoin => exact always_pure (hb.fail _)
  | rightJoinQuery sub => exact always_true.map fun _ _ => hb.fail _
  | groupBy selectors => exact always_true.map fun ss _ => hb.groupBy ss
  | groupByRaw aql => exact always_pure { hb with }
  | orderBy column direction => exact always_pure (hb.orderBy column _)
  | orderIn column direction => exact always_pure (hb.orderBy column _)
  | latest column => exact always_pure (hb.orderBy _ _)
  | oldest column => exact always_pure (hb.orderBy _ _)
  | order o => exact always_pure (hb.pushOrder o)
  | reorder => exact always_pure hb.reorder
  | reorderBy column direction => exact always_pure (hb.reorder.orderBy column _)
  | limitTo count => exact always_pure (hb.limitTo count)
  | skip count => exact always_pure (hb.skip count)
  | forPage page perPage => exact always_pure ((hb.skip _).limitTo perPage)
  | union all sub => exact (hsub rfl hscripts).bind fun _ hs => hb.union hS all hs
  | fullTextSearch fields text analyzer =>
      exact always_true.map fun fields _ => hb.fullTextSearch fields text analyzer
  | copy => exact hb.copyOf
  | forSubQuery => exact hplaced.elim
  | forNested => exact hplaced.elim
  | restart table => exact (Closed.fresh w outer).map fun _ hq => hq.fromCollection table

/-- Calls in their places keep builders closed, by induction on the calls. -/
theorem Call.Orderly.applyAll [Naming] {xs : List (Call Action)}
    (h : ∀ x ∈ xs, x.Orderly S (KeepsClosed S) w) : KeepsClosed S w (Call.applyAll xs) := by
  induction xs with
  | nil => exact fun _ _ _ hb => always_pure hb
  | cons first rest ih =>
      have hfirst := h first List.mem_cons_self
      have hrest := ih fun x hx => h x (List.mem_cons_of_mem first hx)
      exact fun outer b hS hb => (hfirst.apply hS hb).bind fun c hc => hrest outer c hS hc

end evaluation

section lifting

variable [Naming] {S : List String} {w : Bool}

/-- The action of a sub-query argument is that of its script. -/
theorem SubArgument.script_action (x : SubArgument Script) :
    (Script.actionSub x).script = x.script.action := by
  cases x with
  | finished subject => cases subject <;> rfl
  | closure script => rfl

/-- The actions of an operand are those of its scripts. -/
theorem Operand.scripts_action (x : Operand (Subject Script)) :
    (Script.actionOperand x).scripts = x.scripts.map Script.action := by
  cases x with
  | query subject => cases subject <;> rfl
  | _ => rfl

/-- The actions of operands are those of their scripts. -/
theorem Operand.scripts_actionAll (xs : List (Operand (Subject Script))) :
    (Script.actionOperands xs).flatMap Operand.scripts =
      (xs.flatMap Operand.scripts).map Script.action := by
  induction xs with
  | nil => rfl
  | cons first rest ih =>
      rw [Script.actionOperands, List.flatMap_cons, List.flatMap_cons, List.map_append,
        Operand.scripts_action, ih]

/-- The actions of selectors are those of their scripts. -/
theorem Selector.queries_actionAll (xs : List (Selector Script)) :
    (Script.actionSelectors xs).flatMap Selector.queries =
      (xs.flatMap Selector.queries).map Script.action := by
  induction xs with
  | nil => rfl
  | cons first rest ih =>
      rw [List.flatMap_cons, List.map_append, ← ih]
      cases first <;> rfl

/-- The actions of calls to a join clause are those of their scripts. -/
theorem JoinCall.scripts_actionAll (xs : List (JoinCall Script)) :
    (Script.actionJoinCalls xs).flatMap JoinCall.scripts =
      (xs.flatMap JoinCall.scripts).map Script.action := by
  induction xs with
  | nil => rfl
  | cons first rest ih =>
      rw [List.flatMap_cons, List.map_append, ← ih]
      cases first with
      | condition c column o operand =>
          rw [JoinCall.scripts, ← Operand.scripts_action]
          rfl
      | _ => rfl

/-- The scripts in a call as functions. -/
theorem Call.scripts_action (x : Call Script) :
    (Script.actionCall x).scripts = x.scripts.map Script.action := by
  have hsub : ∀ sub : SubArgument Script,
      [(Script.actionSub sub).script] = [sub.script].map Script.action := fun sub => by
    rw [sub.script_action, List.map_singleton]
  cases x with
  | fromQuery sub asName => exact hsub sub
  | select selectors => exact Selector.queries_actionAll selectors
  | addSelect selectors => exact Selector.queries_actionAll selectors
  | selectQuery sub asName => exact hsub sub
  | set name o => exact o.scripts_action
  | setQuery name sub => exact hsub sub
  | addBindings operands category => exact Operand.scripts_actionAll operands
  | condition list c column o operand => exact operand.scripts_action
  | memberOfQuery negated column sub => exact hsub sub
  | hasRows c negated sub => exact hsub sub
  | compareQuery column o sub => exact hsub sub
  | length column o operand => exact operand.scripts_action
  | date part column o operand => exact operand.scripts_action
  | joinWith kind table calls => exact JoinCall.scripts_actionAll calls
  | joinQuery kind sub asName first o second => exact hsub sub
  | rightJoinQuery sub => exact hsub sub
  | groupBy selectors => exact Selector.queries_actionAll selectors
  | union all sub => exact hsub sub
  | fullTextSearch fields text analyzer => exact Selector.queries_actionAll fields
  | _ => rfl

/-- Whether a call is in its place does not depend on its scripts. -/
theorem Call.Placed.action {x : Call Script} (h : x.Placed S w) :
    (Script.actionCall x).Placed S w := by
  cases x with
  | set name o => cases o <;> exact h
  | _ => exact h

/-- A call in its place is an orderly call on the actions that its scripts are run as. -/
theorem Call.Orderly.action {r : Bool → Script → Prop}
    (hr : ∀ w s, r w s → KeepsClosed S w s.action)
    {x : Call Script} (h : x.Orderly S r w) :
    (Script.actionCall x).Orderly S (KeepsClosed S) w := by
  have hwrites : (Script.actionCall x).writes = x.writes := by cases x <;> rfl
  refine ⟨h.placed.action, fun act hact => ?_⟩
  rw [x.scripts_action] at hact
  obtain ⟨script, hscript, rfl⟩ := List.mem_map.mp hact
  rw [hwrites]
  exact hr x.writes script (h.scripts script hscript)

/-- Calls in their places are orderly calls on the actions that their scripts are run as. -/
theorem Call.Orderly.actionAll {r : Bool → Script → Prop}
    (hr : ∀ w s, r w s → KeepsClosed S w s.action) {xs : List (Call Script)}
    (h : ∀ x ∈ xs, x.Orderly S r w) :
    ∀ x ∈ Script.actionCalls xs, x.Orderly S (KeepsClosed S) w := by
  induction xs with
  | nil => exact fun _ hx => (List.not_mem_nil hx).elim
  | cons first rest ih =>
      intro x hx
      rcases List.mem_cons.mp hx with rfl | hx
      · exact (h first List.mem_cons_self).action hr
      · exact ih (fun c hc => h c (List.mem_cons_of_mem first hc)) x hx

end lifting

namespace Script.Orderly

variable {S : List String} {w : Bool} {s : Script}

/-- An orderly script keeps builders closed: by induction on how scripts are nested, with the step
of one call. -/
theorem action [Naming] (h : s.Orderly S w) : KeepsClosed S w s.action := by
  induction h with
  | of _ hcalls ih => exact Call.Orderly.applyAll (Call.Orderly.actionAll ih hcalls)

theorem build [Naming] (h : s.Orderly S true) : s.build.Always (Builder.Closed true S) :=
  (Closed.fresh true S).bind fun b hb => h.action S b (List.Subset.refl S) hb

end Script.Orderly

section entries

variable {S : List String} {b : Builder}

/-- The operands of an update are closed if the scripts in them are orderly. -/
theorem Operand.closed_runAll [Naming] {pairs : List (String × Operand (Subject Script))}
    (h : ∀ a ∈ pairs, ∀ script ∈ a.2.scripts, script.Orderly S true) (hb : b.Closed true S) :
    (Operand.runAll b pairs).Always fun pairs => ∀ a ∈ pairs, a.2.Closed S := by
  refine always_runAll (p := fun _ o => o.Closed S) fun a ha => ?_
  have hscripts : ∀ act ∈ (Script.actionOperand a.2).scripts, KeepsClosed S true act := by
    rw [Operand.scripts_action]
    intro act hact
    obtain ⟨script, hscript, rfl⟩ := List.mem_map.mp hact
    exact (h a ha script hscript).action
  exact (Operand.closed_evaluate hscripts (List.Subset.refl S) hb).mono fun _ ho => ho.1

/-- Building the sub-queries of an entry closes them. -/
theorem Entry.Orderly.run [Naming] {e : Entry (Subject Script)} (h : e.Orderly S)
    (hb : b.Closed true S) :
    (e.run b).Always (Entry.Closed S) := by
  cases e with
  | update changes =>
      exact (changes.always_run fun pairs hpairs =>
        Operand.closed_runAll (h pairs hpairs) hb).map fun _ hclosed => hclosed
  | _ => exact always_pure h

end entries

/-- A script is orderly if its calls are, each with orderly scripts inside. -/
theorem Script.orderly_of {S : List String} {w : Bool} {calls : List (Call Script)}
    (h : calls.Forall fun call => call.Orderly S (Script.Orderly S) w) :
    Script.Orderly S w (.of calls) := .of (fun _ _ h => h) (List.forall_iff_forall_mem.mp h)

/-- **Query variables are defined before they are used.**  Whatever an orderly script has built and
however it is compiled: a query variable that is mentioned in a column is in the text behind the
`LET` of each variable that is defined by the query of the column, or by one around it, up to there.
It is one of these variables, or belongs to the first query of a union around it that combines other
queries, or has the name of a selected sub-query. -/
theorem Script.Orderly.variables_declared [Naming] {S : List String} {s : Script}
    (h : s.Orderly S true) {e : Entry (Subject Script)} (he : e.Orderly S) :
    s.build.Always fun b => (e.run b).Always fun entry => (b.compile entry).Yields fun compiled =>
      ∀ lets beside v ref, entry.Mentions b lets beside v ref →
        Stands (lets.map Aql.letMark) ref compiled.aql ∧ (v ∈ S ∨ v ∈ lets ∨ v ∈ beside) :=
  h.build.mono fun _ hb => (he.run hb).mono fun _ hentry n compiled hcompiled _ _ _ _ hmentions =>
    ⟨hmentions.shown n compiled hcompiled, hmentions.declared hb hentry⟩

/-- Characters of a house, together with others of the same name. -/
def Script.namesakes (house : Value) : Script :=
  .of [.fromCollection "characters as c", .set "house" (.value house),
    .hasRows .and false (.closure (.of [.fromCollection "families as f",
      .compareColumns .and "f.name" (.custom "==") "house"])),
    .union false (.closure (.of [.fromCollection "locations as l",
      .compareColumns .and "l.lord" (.custom "==") "house"]))]

/-- The variable is not visible where the other query refers to it. -/
theorem Script.variable_beside_union :
    ((namesakes (.string "Stark")).statementFor .select 0).1.toOption.map Compiled.aql = some
      ("FOR unionResultDoc IN UNION_DISTINCT((LET house = @0_variable_1 FOR c IN characters " ++
        "FILTER LENGTH((FOR f IN families FILTER f.\x60name\x60 == house RETURN f)) > 0 " ++
        "RETURN c), (FOR l IN locations FILTER l.\x60lord\x60 == house RETURN l)) " ++
        "RETURN unionResultDoc") := by
  decide +kernel

/-- The script is orderly, whatever the house is. -/
theorem Script.orderly_namesakes (house : Value) : (namesakes house).Orderly [] true := by
  have hcompared : ∀ table column, Script.Orderly [] true (.of [.fromCollection table,
      .compareColumns .and column (.custom "==") "house"]) := fun table column =>
    orderly_of ⟨⟨trivial, fun _ hs => nomatch hs⟩, trivial, fun _ hs => nomatch hs⟩
  refine orderly_of ⟨⟨trivial, fun _ hs => nomatch hs⟩, ⟨⟨rfl, rfl⟩, fun _ hs => nomatch hs⟩,
    ⟨trivial, fun script hs => ?_⟩, trivial, fun script hs => ?_⟩
  · rw [List.mem_singleton.mp hs]
    exact hcompared _ _
  · rw [List.mem_singleton.mp hs]
    exact hcompared _ _

/-- In the first query it is: whatever that query mentions is defined there. -/
theorem Script.namesakes_declared :
    let s := namesakes (.string "Stark")
    s.Orderly [] true ∧ s.build.Always fun b => (b.compile .select).Yields fun compiled =>
      ∀ lets v ref, Mentions (.simple b) lets [] v ref →
        Stands (lets.map Aql.letMark) ref compiled.aql ∧ v ∈ lets := by
  intro s
  have hs := orderly_namesakes (.string "Stark")
  refine ⟨hs, (hs.variables_declared (e := .select) trivial).mono fun b hb => ?_⟩
  intro n compiled hcompiled lets v ref hmentions
  obtain ⟨hstands, hv | hv | hv⟩ := hb 0 n compiled hcompiled lets [] v ref
    (.read rfl (.first hmentions))
  · exact (List.not_mem_nil hv).elim
  · exact ⟨hstands, hv⟩
  · exact (List.not_mem_nil hv).elim

end AqlBuilder

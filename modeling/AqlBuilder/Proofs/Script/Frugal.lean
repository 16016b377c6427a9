import AqlBuilder.Alias.Rules
import AqlBuilder.Proofs.Builder.TidyMethods
import AqlBuilder.Proofs.Script.Safety
import AqlBuilder.Proofs.Statement.Copied

/-!
# All values are in the text

The statement of a query comes with those values that its text refers to; all values of the query
are a second list. The two lists are the same if the query is built frugally: no source takes the
place of a sub-query that brought values along, there is one full-text search at most, and the
values in a group of conditions belong to its conditions. Replacing the projection is frugal, as the
values of the old one go with it.

- `Call.Frugal` and `Script.Frugal` say so call by call, with the categories that may have values
  before and after.
- `Call.Frugal.run` is the step of one call, and `Script.Frugal.action` the run of a script.
- `Script.Frugal.bindings_agree`: the two lists are the same.
- `Script.search_keeps_values`: after a second search they are not.
-/

namespace AqlBuilder

open Supply Builder

section arguments

variable {S : Type} (inner : Set Category → S → Set Category → Prop)

/-- A query argument without values, unless they can be filed. -/
def Subject.Frugal (held : Set Category) (filed : Prop) : Subject S → Prop
  | .new script => inner ∅ script {_k | filed}
  | .copy script => inner held script {_k | filed}

/-- A sub-query argument without values, unless they can be filed. -/
def SubArgument.Frugal (held : Set Category) (filed : Prop) : SubArgument S → Prop
  | .finished subject => subject.Frugal inner held filed
  | .closure script => inner ∅ script {_k | filed}

/-- An operand without values, unless they can be filed. -/
def Operand.Frugal (held : Set Category) (filed : Prop) : Operand (Subject S) → Prop
  | .value _ => filed
  | .query subject => subject.Frugal inner held filed
  | _ => True

/-- A call to a join clause that files values only under the categories that may have some. -/
def JoinCall.Frugal (held : Set Category) : JoinCall S → Prop
  | .condition _ _ _ operand => operand.Frugal inner held (.filter ∈ held)
  | .member _ _ => .filter ∈ held
  | _ => True

/-- A call that leaves no values behind: before it the values are under the first categories, after
it under the second. A source may be set as long as there are no values of another one, and likewise
a search. Values that are not those of a clause are never filed. -/
def Call.Frugal (held ends : Set Category) : Call S → Prop
  | .fromCollection _ | .fromView _ => .source ∉ held ∧ held ⊆ ends
  | .fromQuery sub _ => .source ∉ held ∧ held ⊆ ends ∧ sub.Frugal inner held (.source ∈ ends)
  | .fullTextSearch _ _ _ => .search ∉ held ∧ held ⊆ ends ∧ .search ∈ ends
  | .select _ => held \ {.select} ⊆ ends
  | .selectQuery sub _ => held ⊆ ends ∧ sub.Frugal inner held (.select ∈ ends)
  | .set _ operand => held ⊆ ends ∧ operand.Frugal inner held (.definitions ∈ ends)
  | .setQuery _ sub => held ⊆ ends ∧ sub.Frugal inner held (.definitions ∈ ends)
  | .addBinding _ _ | .addBindings _ _ | .setBindings _ _ | .mergeBindings _ _ => False
  | .condition list _ _ _ operand => held ⊆ ends ∧ operand.Frugal inner held (list.category ∈ ends)
  | .member _ _ _ _ | .contains _ _ _ | .like _ _ _ _ | .notLike _ _ => held ⊆ ends ∧ .filter ∈ ends
  | .between list _ _ _ _ => held ⊆ ends ∧ list.category ∈ ends
  | .memberOfQuery _ _ sub | .hasRows _ _ sub | .compareQuery _ _ sub =>
    held ⊆ ends ∧ sub.Frugal inner held (.filter ∈ ends)
  | .length _ _ operand | .date _ _ _ operand =>
    held ⊆ ends ∧ operand.Frugal inner held (.filter ∈ ends)
  | .nested _ script => held ⊆ ends ∧ inner ∅ script ({.filter} ∩ ends)
  | .joinWith _ _ calls =>
    held ⊆ ends ∧ ∀ c ∈ calls, c.Frugal inner {k | k = .filter ∧ .join ∈ ends}
  | .joinQuery _ sub _ _ _ _ => held ⊆ ends ∧ sub.Frugal inner held (.join ∈ ends)
  | .union _ sub => held ⊆ ends ∧ sub.Frugal inner held (.union ∈ ends)
  | .forSubQuery | .forNested | .restart _ => True
  | _ => held ⊆ ends

end arguments

/-- A script of frugal calls. The scripts inside are frugal as well; `inner` stands for the part of
that which was established before. -/
inductive Script.Frugal : Set Category → Script → Set Category → Prop
  | nil {held ends : Set Category} (h : held ⊆ ends) : Script.Frugal held (.of []) ends
  | cons {inner : Set Category → Script → Set Category → Prop}
      (hinner : ∀ held s ends, inner held s ends → Script.Frugal held s ends)
      {held between ends : Set Category} {call : Call Script} {calls : List (Call Script)}
      (h : call.Frugal inner held between) (hrest : Script.Frugal between (.of calls) ends) :
      Script.Frugal held (.of (call :: calls)) ends

section runs

variable [Naming] {inner : Set Category → Script → Set Category → Prop} {held ends : Set Category}
  {filed : Prop} {b : Builder}
  (hr : ∀ held s ends, inner held s ends → KeepsTidy held ends s.action)

include hr

/-- A frugal query argument is built as a tidy builder. -/
theorem Subject.Frugal.build {x : Subject Script} (h : x.Frugal inner held filed)
    (hb : b.Tidy held) : ((Script.actionSubject x).build b).Always (Tidy {_k | filed}) := by
  cases x with
  | new script => exact Tidy.fresh.bind (hr _ _ _ h)
  | copy script => exact hb.copyOf.bind (hr _ _ _ h)

/-- A frugal sub-query argument comes to a tidy sub-query. -/
theorem SubArgument.Frugal.evaluate {x : SubArgument Script} (h : x.Frugal inner held filed)
    (hb : b.Tidy held) : ((Script.actionSub x).evaluate b).Always (SubQuery.Tidy filed) := by
  cases x with
  | finished subject => exact (Subject.Frugal.build hr h hb).map fun _ hq => .finished hq
  | closure script => exact always_pure (.closure (hr _ _ _ h))

/-- A frugal operand comes to a tidy operand. -/
theorem Operand.Frugal.evaluate {x : Operand (Subject Script)} (h : x.Frugal inner held filed)
    (hb : b.Tidy held) : ((Script.actionOperand x).evaluate b).Always (Operand.Tidy filed) := by
  cases x with
  | value v => exact always_pure h
  | expression aql => exact always_pure trivial
  | column name => exact always_pure trivial
  | query subject => exact (Subject.Frugal.build hr h hb).map fun _ hq => hq

/-- Frugal calls to a join clause keep builders tidy. -/
theorem JoinCall.Frugal.runAll {xs : List (JoinCall Script)} (h : ∀ x ∈ xs, x.Frugal inner held) :
    KeepsTidy held held fun b => JoinCall.applyAll b (Script.actionJoinCalls xs) := by
  induction xs with
  | nil => exact fun _ hb => always_pure hb
  | cons first rest ih =>
      rw [List.forall_mem_cons] at h
      obtain ⟨hfirst, hrest⟩ := h
      intro b hb
      have hnext := ih hrest
      cases first with
      | columns c first o second =>
          exact (always_pure (hb.compareColumns c first second)).bind hnext
      | condition c column o operand =>
          exact ((Operand.Frugal.evaluate hr hfirst hb).bind fun _ ho =>
            hb.condition .filters c ho).bind hnext
      | member column values => exact (hb.member .and false values hfirst).bind hnext
      | isNull negated column =>
          exact (always_pure (hb.pushPlain .filters .and _)).bind hnext

/-- **A frugal call keeps a builder tidy.** -/
theorem Call.Frugal.run {x : Call Script} (h : x.Frugal inner held ends) :
    KeepsTidy held ends x.run := by
  intro b hb
  have hsub : ∀ {sub : SubArgument Script} {filed : Prop}, sub.Frugal inner held filed →
      ((Script.actionSub sub).evaluate b).Always (SubQuery.Tidy filed) := fun h =>
    SubArgument.Frugal.evaluate hr h hb
  have hoperand : ∀ {o : Operand (Subject Script)} {filed : Prop}, o.Frugal inner held filed →
      ((Script.actionOperand o).evaluate b).Always (Operand.Tidy filed) := fun h =>
    Operand.Frugal.evaluate hr h hb
  cases x with
  | withPrefix tablePrefix =>
      exact always_pure ((hb.mono h).keep { Clauses.Keeps.refl ends b with } rfl)
  | fromCollection table => exact always_pure ((hb.fromCollection h.1 table).mono h.2)
  | fromView view => exact always_pure ((hb.fromView h.1 view).mono h.2)
  | fromQuery sub asName =>
      exact (hsub h.2.2).bind fun _ hs => hb.fromQuery h.1 h.2.1 hs asName
  | select selectors => exact always_true.map fun _ _ => hb.select h _
  | addSelect selectors => exact always_true.map fun _ _ => (hb.mono h).addSelect _
  | selectRaw aql asName => exact always_pure ((hb.mono h).selectOne (.raw aql asName))
  | selectQuery sub asName =>
      exact (hsub h.2).bind fun _ hs => (hb.mono h.1).selectQuery hs asName
  | distinctRows => exact always_pure ((hb.mono h).keep { Clauses.Keeps.refl ends b with } rfl)
  | set name operand => exact (hoperand h.2).bind fun _ ho => (hb.mono h.1).set name ho
  | setQuery name sub => exact (hsub h.2).bind fun _ hs => (hb.mono h.1).setQuery name hs
  | addBinding v category => exact h.elim
  | addBindings operands category => exact h.elim
  | setBindings values category => exact h.elim
  | mergeBindings script category => exact h.elim
  | condition list c column o operand =>
      exact (hoperand h.2).bind fun _ ho => (hb.mono h.1).condition list c ho
  | compareColumns c first o second =>
      exact always_pure ((hb.mono h).compareColumns c first second)
  | member c negated column values => exact (hb.mono h.1).member c negated values h.2
  | memberOfQuery negated column sub =>
      exact (hsub h.2).bind fun _ hs => (hb.mono h.1).memberOfQuery negated hs
  | memberOf negated column values => exact always_pure ((hb.mono h).addPlain .filters .and _)
  | isNull list c negated column => exact always_pure ((hb.mono h).pushPlain list c _)
  | between list c negated column bounds =>
      exact always_pure ((hb.mono h.1).between list c negated bounds h.2)
  | nested c script => exact (hb.mono h.1).nested c (hr _ _ _ h.2)
  | hasRows c negated sub => exact (hsub h.2).bind fun _ hs => (hb.mono h.1).hasRows c negated hs
  | compareQuery column o sub => exact (hsub h.2).bind fun _ hs => (hb.mono h.1).compareQuery hs
  | rawCondition list c aql => exact always_pure ((hb.mono h).addPlain list c _)
  | contains negated column value => exact always_pure ((hb.mono h.1).contains negated value h.2)
  | length column o operand => exact (hoperand h.2).bind fun _ ho => (hb.mono h.1).length ho
  | date part column o operand => exact (hoperand h.2).bind fun _ ho => (hb.mono h.1).date part ho
  | like c column pattern caseSensitive => exact (hb.mono h.1).conditionValue .filters c _ h.2
  | notLike column pattern => exact (hb.mono h.1).conditionValue .filters .and _ h.2
  | join kind table first o second => exact (hb.mono h).join kind table first second
  | joinWith kind table calls =>
      have hcalls : KeepsTidy ∅ {k | k = .filter ∧ .join ∈ ends}
          fun joined => JoinCall.applyAll joined (Script.actionJoinCalls calls) :=
        fun joined hjoined =>
          JoinCall.Frugal.runAll hr h.2 joined (hjoined.mono (Set.empty_subset _))
      have hclause := (hb.mono h.1).joinWith kind table hcalls
      exact hclause
  | crossJoin table => exact (hb.mono h).crossJoin table
  | joinQuery kind sub asName first o second =>
      exact (hsub h.2).bind fun _ hs => (hb.mono h.1).joinQuery kind hs asName first second
  | rightJoin => exact always_pure ((hb.mono h).fail _)
  | rightJoinQuery sub => exact always_true.map fun _ _ => (hb.mono h).fail _
  | groupBy selectors =>
      exact always_true.map fun _ _ => (hb.mono h).keep { Clauses.Keeps.refl ends b with } rfl
  | groupByRaw aql => exact always_pure ((hb.mono h).keep { Clauses.Keeps.refl ends b with } rfl)
  | orderBy column direction => exact always_pure ((hb.mono h).orderBy column _)
  | orderIn column direction => exact always_pure ((hb.mono h).orderBy column _)
  | latest column => exact always_pure ((hb.mono h).orderBy _ _)
  | oldest column => exact always_pure ((hb.mono h).orderBy _ _)
  | order o => exact always_pure ((hb.mono h).pushOrder o)
  | reorder => exact always_pure (hb.mono h).reorder
  | reorderBy column direction => exact always_pure ((hb.mono h).reorder.orderBy column _)
  | limitTo count => exact always_pure ((hb.mono h).limitTo count)
  | skip count => exact always_pure ((hb.mono h).skip count)
  | forPage page perPage => exact always_pure (((hb.mono h).skip _).limitTo perPage)
  | union all sub => exact (hsub h.2).bind fun _ hs => (hb.mono h.1).union all hs
  | fullTextSearch fields text analyzer =>
      exact always_true.map fun fields _ => hb.fullTextSearch h.1 h.2.1 h.2.2 fields text analyzer
  | copy => exact (hb.mono h).copyOf
  | forSubQuery => exact Tidy.forSubQuery b
  | forNested => exact Tidy.forNested b
  | restart table =>
      have hempty : Builder.fresh.Always (Tidy ∅) := Tidy.fresh
      exact hempty.map fun _ hq =>
        (hq.fromCollection (Set.notMem_empty _) table).mono (Set.empty_subset ends)

end runs

namespace Script.Frugal

variable {held ends : Set Category}

/-- A frugal script keeps builders tidy: by induction on how its calls follow each other and how
scripts are nested, with the step of one call. -/
theorem action [Naming] {s : Script} (h : s.Frugal held ends) : KeepsTidy held ends s.action := by
  induction h with
  | nil h => exact fun _ hb => always_pure (hb.mono h)
  | cons _ h _ ih ihrest => exact fun b hb => (Call.Frugal.run ih h b hb).bind ihrest

theorem build [Naming] {s : Script} (h : s.Frugal ∅ ends) : s.build.Always (Tidy ends) :=
  Tidy.fresh.bind h.action

/-- A call whose scripts inside are frugal, and then the rest. -/
theorem call {between : Set Category} {x : Call Script} {calls : List (Call Script)}
    (h : x.Frugal Script.Frugal held between) (hrest : Script.Frugal between (.of calls) ends) :
    Script.Frugal held (.of (x :: calls)) ends :=
  .cons (fun _ _ _ h => h) h hrest

end Script.Frugal

/-- The text of a tidy builder refers to all its values. -/
theorem Builder.Tidy.allBindings_eq {held : Set Category} {b : Builder} (h : b.Tidy held) :
    b.toCompiled.Yields fun compiled => b.allBindings = .ok compiled.bindings := by
  refine yields_checked b fun herror => yields_onCopy fun w hw => ?_
  have hbindings : w.compiled.bindings = b.compiled.bindings := by rw [hw]
  change w.bindings = b.bindings at hbindings
  have hcited : w.statement.Yields fun aql => ∀ name ∈ b.bindings.flatten.keys,
      mentions aql name = true := by
    intro next aql haql name hname
    obtain ⟨k, hk⟩ := Store.mem_keys_flatten.mp hname
    obtain ⟨-, hname, hcites⟩ := h k name hk
    exact (mentions_iff hname).mpr (Aql.yields_cited (hw ▸ hcites) hname next aql haql)
  refine hcited.map fun aql haql => ?_
  have hall : (b.bindings.flatten.filter fun entry => mentions aql entry.1) = b.bindings.flatten :=
    List.filter_eq_self.mpr fun entry hentry => haql entry.1 (List.mem_map_of_mem hentry)
  rw [hbindings, Compiled.ofStore, hall, allBindings, check, herror]
  rfl

/-- **No value stays behind.**  If a frugal script has built a query that compiles, the values of
its statement are all values of the query, in the same order. -/
theorem Script.Frugal.bindings_agree [Naming] {s : Script} {ends : Set Category}
    (h : s.Frugal ∅ ends) :
    s.build.Always fun b => b.toCompiled.Yields fun compiled =>
      b.allBindings = .ok compiled.bindings :=
  h.build.mono fun _ hb => hb.allBindings_eq

/-- The names of large places. -/
def Script.largePlaces : Script :=
  .of [.fromCollection "places as p",
    .condition .filters .and "p.size" (some (.custom ">")) (.value (.int32 3)),
    .select [.column "p.name"]]

/-- Oaths about the winter, in large places and to one house, with the people that are alive; at
last only the texts are selected. -/
def Script.oaths : Script :=
  .of [.fromView "oathView as o",
    .fullTextSearch [.column "o.text"] (.string "winter") none,
    .joinWith .inner "houses as h" [.condition .and "h.name" none (.value (.string "Stark"))],
    .nested .and (.of [.memberOfQuery false "o.place" (.closure largePlaces)]),
    .selectQuery (.finished (.new (.of [.fromCollection "people as q",
      .condition .filters .and "q.alive" none (.value (.bool true))]))) "people",
    .select [.column "o.text"]]

/-- The places are asked for frugally, where values may be filed at all. -/
theorem Script.frugal_largePlaces {filed : Prop} (h : filed) :
    largePlaces.Frugal ∅ {_k | filed} := by
  have hsize : Call.Frugal Script.Frugal ∅ {_k | filed}
      (.condition .filters .and "p.size" (some (.custom ">")) (.value (.int32 3))) :=
    ⟨Set.empty_subset _, h⟩
  exact .call ⟨Set.notMem_empty _, subset_rfl⟩ (.call hsize
    (.call (fun _ hk => hk.1) (.nil subset_rfl)))

/-- The script of the oaths is frugal. -/
theorem Script.frugal_oaths : oaths.Frugal ∅ Set.univ := by
  have hgroup : Script.Frugal ∅ (.of [.memberOfQuery false "o.place" (.closure largePlaces)])
      ({.filter} ∩ Set.univ) :=
    .call ⟨Set.empty_subset _, frugal_largePlaces (Set.mem_singleton _)⟩
      (.nil (Set.inter_univ _).superset)
  have hpeople : Script.Frugal ∅ (.of [.fromCollection "people as q",
      .condition .filters .and "q.alive" none (.value (.bool true))])
      {_k | Category.select ∈ (Set.univ : Set Category)} :=
    .call ⟨Set.notMem_empty _, subset_rfl⟩ (.call ⟨Set.empty_subset _, Set.mem_univ _⟩
      (.nil subset_rfl))
  have hcondition : ∀ c ∈ [JoinCall.condition .and "h.name" none (.value (.string "Stark"))],
      c.Frugal Script.Frugal {k | k = .filter ∧ .join ∈ (Set.univ : Set Category)} :=
    List.forall_mem_singleton.mpr ⟨rfl, Set.mem_univ _⟩
  have hsearch : Call.Frugal Script.Frugal ∅ Set.univ
      (.fullTextSearch [.column "o.text"] (.string "winter") none) :=
    ⟨Set.notMem_empty _, Set.empty_subset _, Set.mem_univ _⟩
  exact .call ⟨Set.notMem_empty _, subset_rfl⟩ (.call hsearch (.call ⟨subset_rfl, hcondition⟩
    (.call ⟨subset_rfl, hgroup⟩ (.call ⟨subset_rfl, hpeople⟩
      (.call (fun _ hk => hk.1) (.nil subset_rfl))))))

/-- Its statement has all of its values, those of the search among them. -/
theorem Script.oaths_bindings_agree : oaths.Frugal ∅ Set.univ ∧
    ∃ compiled, ((oaths.build 0).1.toCompiled 4).1 = .ok compiled ∧
      (oaths.build 0).1.allBindings = .ok compiled.bindings ∧
      compiled.bindings.keys = ["0_search_1", "0_search_2", "1_where_1", "3_where_1"] := by
  have hkeys : (oaths.build 0).1.allBindings.toOption.map Entries.keys =
      some ["0_search_1", "0_search_2", "1_where_1", "3_where_1"] := by decide +kernel
  have hok : ((oaths.build 0).1.toCompiled 4).1.isOk = true := by decide +kernel
  cases hcompiled : ((oaths.build 0).1.toCompiled 4).1 with
  | error e =>
      rw [hcompiled] at hok
      cases hok
  | ok compiled =>
      have hagree := Frugal.bindings_agree frugal_oaths 0 4 compiled hcompiled
      rw [hagree] at hkeys
      exact ⟨frugal_oaths, compiled, rfl, hagree, Option.some.inj hkeys⟩

/-- Two searches in one view. -/
def Script.searchedTwice : Script :=
  .of [.fromView "v", .fullTextSearch [.column "a"] (.string "x") none,
    .fullTextSearch [.column "b"] (.string "y") none]

/-- The second search takes the place of the first one, whose text and analyzer stay among the
values of the query. -/
theorem Script.search_keeps_values :
    ((searchedTwice.build 0).1.toCompiled 1).1.toOption.map (fun c => c.bindings.keys) =
        some ["0_search_3", "0_search_4"] ∧
      (searchedTwice.build 0).1.allBindings.toOption.map Entries.keys =
        some ["0_search_1", "0_search_2", "0_search_3", "0_search_4"] := by
  decide +kernel

end AqlBuilder

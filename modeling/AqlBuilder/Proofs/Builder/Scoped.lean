import AqlBuilder.Alias.Rules
import AqlBuilder.Proofs.Alias.Registry
import AqlBuilder.Proofs.Aql.Within
import AqlBuilder.Proofs.Builder.Failure
import AqlBuilder.Proofs.Column.Origin
import AqlBuilder.Proofs.Statement.Alike
import AqlBuilder.Builder.Projection
import AqlBuilder.Builder.Source

/-!
# Document variables of sub-queries

A sub-query that runs inside the main loop of a builder must not iterate under a variable of that
builder. Its variable is only looked at if it is the one that is generated from the collection's
name. If it is in use, the number of the sub-query is added to it, and nobody asks whether the
result is in use as well. A closure's query knows the collections around it, so a collection that
has an alias there is iterated under this alias without anyone writing it again.

The new variable is entered in the source of the sub-query and in its registry. Groups of conditions
and joins have registries of their own, made when they were added, and those keep the old variable.

- `Builder.TakesIn` lists the calls that take a sub-query into the loop.
- `Builder.redeclares_iff`: when such a sub-query iterates under a variable of the builder.
- `Builder.rename_reaches`: which references to its collection follow the new variable.
-/

namespace AqlBuilder

open Outcome

/-- A generated variable ends with its postfix. -/
theorem Alias.length_documentVariable [Naming] (name : String) :
    3 ≤ (documentVariable name).length := by
  rw [documentVariable, elementVariable, String.length_append]
  exact Nat.le_add_left 3 _

namespace Builder

/-- A query over a collection or a view, with the variable of its loop. -/
inductive Over (b : Builder) (name v : String) : Prop
  | collection (h : b.source = some (.collection name v))
  | view (h : b.source = some (.view name v))

/-- The sub-query that an argument gives, before it is taken over. -/
def given (b : Builder) (sub : SubQuery) (next : Nat) : Builder := (b.subBuilder sub next).1

/-- The sub-query that an argument gives, as it is taken over. -/
def adopted [Naming] (b : Builder) (sub : SubQuery) (category : Category) (next : Nat) : Builder :=
  (b.adopt sub category next).1.1

/-- The variable of a sub-query inside the loop of a builder. -/
def scopedVariable [Naming] (b sub : Builder) (name v : String) : String :=
  (b.scopedVariable? sub name v).getD v

/-- A query that runs inside the main loop of a builder: in a condition, in the projection or as the
source of a join. -/
inductive Runs (b query : Builder) : Prop
  | filter {x : Condition Query} (hx : x ∈ b.filters) (h : .of query ∈ x.test.queries)
  | having {x : Condition Query} (hx : x ∈ b.havings) (h : .of query ∈ x.test.queries)
  | column {s : Selector Query} (hs : s ∈ b.columns) (h : .of query ∈ s.queries)
  | join {j : Join Query} (hj : j ∈ b.joins) (h : .of query ∈ j.query.clauses.queries)

/-- The calls that take a sub-query into the main loop of a builder, with the category of its
values. -/
inductive TakesIn [Naming] (b : Builder) : SubQuery → Category → Supply Builder → Prop
  | comparison (list : ConditionList) (connector : Connector) (column : String)
      (operator : Operator) (query : Builder) :
      TakesIn b (.finished query) list.category
        (b.condition list connector column (.ok operator) (.query query))
  | memberOfQuery (negated : Bool) (column : String) (sub : SubQuery) :
      TakesIn b sub .filter (b.memberOfQuery negated column sub)
  | hasRows (connector : Connector) (negated : Bool) (sub : SubQuery) :
      TakesIn b sub .filter (b.hasRows connector negated sub)
  | compareQuery (column : String) (operator : Operator) (sub : SubQuery) :
      TakesIn b sub .filter (b.compareQuery column (.ok operator) sub)
  | selectQuery (sub : SubQuery) (asName : String) :
      TakesIn b sub .select (b.selectQuery sub asName)
  | joinQuery (kind : JoinKind) (sub : SubQuery) (asName first : String)
      (operator : Except Error Operator) (second : String) :
      TakesIn b sub .join (b.joinQuery kind sub asName first operator second)

variable {b sub query : Builder} {arg : SubQuery} {category : Category} {call : Supply Builder}
  {name v : String}

section calls

/-- The query of a comparison is in its test, as one that returns a value. -/
theorem queries_queryTest (column : String) (operator : Operator) (query : Builder) :
    Query.of { query with singleValue := true } ∈ (queryTest column operator query).queries := by
  unfold queryTest
  split <;> exact List.mem_cons_self

/-- The query in a test that is added runs in the loop. -/
theorem runs_push (b query : Builder) (list : ConditionList) (connector : Connector)
    {test : Test Query} (h : .of query ∈ test.queries) :
    (b.push list connector test).Runs query := by
  cases list with
  | filters => exact .filter (List.mem_append_right _ List.mem_cons_self) h
  | havings => exact .having (List.mem_append_right _ List.mem_cons_self) h

/-- The query of a derived source is one of the queries inside. -/
theorem mem_queries_source {c : Builder} {q : Query} (h : c.source = some (.derived q v)) :
    q ∈ c.queries := by
  unfold Clauses.queries
  rw [h]
  simp [Source.queries]

/-- A comparison of two columns leaves the source. -/
theorem source_compareColumns (b : Builder) (connector : Connector) (first : String)
    (operator : Except Error Operator) (second : String) :
    (b.compareColumns connector first operator second).source = b.source := by
  unfold compareColumns unlessFailed
  split
  · rfl
  · cases operator <;> rfl

/-- The sub-queries of such a call are inside the loop. -/
theorem TakesIn.insideLoop [Naming] (h : b.TakesIn arg category call) :
    category.insideLoop = true := by
  cases h with
  | comparison list => cases list <;> rfl
  | _ => rfl

/-- Each of the calls runs the sub-query that it takes over, with its source as it is then. -/
theorem TakesIn.exists_runs [Naming] (h : b.TakesIn arg category call) (herror : b.error = none)
    (next : Nat) :
    ∃ query, (call next).1.Runs query ∧ query.source = (b.adopted arg category next).source := by
  cases h with
  | comparison list connector column operator query =>
      unfold Builder.condition
      rw [unlessFailedM_of_free herror]
      exact ⟨_, runs_push _ _ _ _ (queries_queryTest column operator _), rfl⟩
  | memberOfQuery negated column =>
      unfold Builder.memberOfQuery
      rw [unlessFailedM_of_free herror]
      exact ⟨_, runs_push _ _ .filters _ (queries_queryTest column _ _), rfl⟩
  | hasRows connector negated =>
      unfold Builder.hasRows
      rw [unlessFailedM_of_free herror]
      exact ⟨_, runs_push _ _ .filters _ List.mem_cons_self, rfl⟩
  | compareQuery column operator =>
      unfold Builder.compareQuery Builder.withOperator
      rw [unlessFailedM_of_free herror]
      exact ⟨_, runs_push _ _ .filters _ (queries_queryTest column operator _), rfl⟩
  | selectQuery _ asName =>
      unfold Builder.selectQuery
      rw [unlessFailedM_of_free herror]
      exact ⟨_, .column (List.mem_append_right _ List.mem_cons_self) List.mem_cons_self, rfl⟩
  | joinQuery kind _ asName first operator second =>
      unfold Builder.joinQuery
      rw [unlessFailedM_of_free herror]
      refine ⟨b.adopted arg .join next, .join (List.mem_append_right _ List.mem_cons_self) ?_, rfl⟩
      exact mem_queries_source (source_compareColumns _ .and first operator second)

end calls

section scoping

/-- Whether a sub-query over a collection keeps its variable or gets the numbered one, its source
and its registry say so. -/
theorem rescoped_eq [Naming] (b : Builder) (h : sub.Over name v) :
    b.scopedVariable? sub name v = none ∧ b.rescoped sub = sub ∨
    ∃ w source, b.scopedVariable? sub name v = some w ∧
      (source = Source.collection name w ∨ source = Source.view name w) ∧
      b.rescoped sub = { sub with
        source := some source
        aliases := (sub.aliases.registerTable name (some w)).2 } := by
  cases h with
  | collection h =>
      cases hv : b.scopedVariable? sub name v with
      | none => exact .inl ⟨rfl, by simp only [rescoped, h, hv]⟩
      | some w => exact .inr ⟨w, _, rfl, .inl rfl, by simp only [rescoped, h, hv]⟩
  | view h =>
      cases hv : b.scopedVariable? sub name v with
      | none => exact .inl ⟨rfl, by simp only [rescoped, h, hv]⟩
      | some w => exact .inr ⟨w, _, rfl, .inr rfl, by simp only [rescoped, h, hv]⟩

/-- What a query iterates over depends on its source alone. -/
theorem Over.of_source (h : sub.Over name v) (heq : query.source = sub.source) :
    query.Over name v := by
  cases h with
  | collection h => exact .collection (heq.trans h)
  | view h => exact .view (heq.trans h)

/-- Inside a loop a sub-query over a collection goes on over it, under its scoped variable. -/
theorem Over.rescoped [Naming] (h : sub.Over name v) (b : Builder) :
    (b.rescoped sub).Over name (b.scopedVariable sub name v) := by
  unfold scopedVariable
  rcases rescoped_eq b h with ⟨hnone, heq⟩ | ⟨w, source, hsome, hsource, heq⟩
  · rw [hnone, heq]
    exact h
  · rw [hsome, heq]
    rcases hsource with rfl | rfl
    · exact .collection rfl
    · exact .view rfl

/-- A sub-query in a loop iterates over the same under the scoped variable. -/
theorem Over.scopedFor [Naming] (h : sub.Over name v) (b : Builder)
    (hloop : category.insideLoop = true) :
    (b.scopedFor sub category).Over name (b.scopedVariable sub name v) := by
  unfold Builder.scopedFor
  rw [if_pos hloop]
  exact h.rescoped b

/-- The scoped variable is in use if the given one is, and if it is not replaced by a new one. -/
theorem isTableVariable_scopedVariable [Naming] (b sub : Builder) (name v : String) :
    b.aliases.isTableVariable (b.scopedVariable sub name v) = true ↔
      b.aliases.isTableVariable v = true ∧ (v = Alias.documentVariable name →
        b.aliases.isTableVariable (v ++ toString sub.id) = true) := by
  unfold scopedVariable scopedVariable?
  by_cases hused : b.aliases.isTableVariable v = true
  · by_cases hv : v = Alias.documentVariable name
    · simp [← hv, hused]
    · simp [hused, hv]
  · simp [hused]

/-- **When a sub-query uses a variable of the builder around it.**  Let a builder without an error
take a sub-query over a collection or a view into its loop. The call runs it over the same
collection. The variable of its loop is one that the builder has registered just if the variable
that the sub-query came with is one, and, where this is the generated variable of the collection,
the numbered one is registered as well. -/
theorem redeclares_iff [Naming] (h : b.TakesIn arg category call) (herror : b.error = none)
    (next : Nat) (hgiven : (b.given arg next).Over name v) :
    ∃ query w, (call next).1.Runs query ∧ query.Over name w ∧
      (b.aliases.isTableVariable w = true ↔
        b.aliases.isTableVariable v = true ∧ (v = Alias.documentVariable name →
          b.aliases.isTableVariable (v ++ toString (b.given arg next).id) = true)) := by
  obtain ⟨query, hruns, hsource⟩ := h.exists_runs herror next
  have hover := hgiven.scopedFor b h.insideLoop
  exact ⟨query, _, hruns, hover.of_source hsource, b.isTableVariable_scopedVariable _ name v⟩

/-- A query with its main loop and nothing else. -/
def outer [Naming] (table : String) : Builder := fromCollection (Clauses.empty 1) table

/-- A closure that asks for any person. -/
def anyPerson : SubQuery := .closure fun query => pure (query.fromCollection "people")

/-- Where the collection has an alias, the closure's loop uses the alias again. -/
theorem alias_redeclared :
    let b := outer "people as p"
    let asked := (b.hasRows .and false anyPerson 2).1
    b.aliases.isTableVariable "p" = true ∧
      (asked.outcome .select 3).toOption.map Compiled.aql = some
        "FOR p IN people FILTER LENGTH((FOR p IN people RETURN p)) > 0 RETURN p" := by
  decide +kernel

/-- The law at the same call. -/
theorem alias_taken_again :
    let b := outer "people as p"
    ∃ query w, (b.hasRows .and false anyPerson 2).1.Runs query ∧ query.Over "people" w ∧
      b.aliases.isTableVariable w = true := by
  intro b
  have hgiven : (b.given anyPerson 2).Over "people" "p" := .collection rfl
  obtain ⟨query, w, hruns, hover, hiff⟩ :=
    redeclares_iff (.hasRows .and false anyPerson) (rfl : b.error = none) 2 hgiven
  refine ⟨query, w, hruns, hover, hiff.mpr ⟨by decide, fun h => ?_⟩⟩
  have hlength := Alias.length_documentVariable "people"
  rw [← h] at hlength
  exact absurd hlength (by decide)

end scoping

section references

/-- The scopes in which the clauses of a query are resolved: that of its loops, and the one behind
its groups. -/
inductive Resolves (b : Builder) : Scope → Prop
  | loops : Resolves b b.scope
  | behindGroups {collected : Aql.Collected} {next : Nat}
      (h : (Aql.collect b.compiled next).1 = .ok (some collected)) :
      Resolves b ⟨collected.aliases, b.docVar⟩

/-- The groups of conditions and the joins of a query, at every depth. -/
inductive Inner : Builder → Builder → Prop
  | group {c q : Builder} {x : Condition Query} (hx : x ∈ c.filters)
    (h : x.test = .nested (.of q)) :
      Inner c q
  | join {c q : Builder} {j : Join Query} (hj : j ∈ c.joins) (h : j.query = .of q) : Inner c q
  | inside {c q r : Builder} (h : Inner c q) (h' : Inner q r) : Inner c r

variable {inner : Builder} {sc : Scope}

/-- A scope that resolves columns for a builder has the collections of the builder. -/
theorem Resolves.tables (h : b.Resolves sc) : sc.aliases.tables = b.aliases.tables := by
  cases h with
  | loops => rfl
  | behindGroups h =>
      obtain ⟨d, hd⟩ := Aql.yields_collect_aliases b.compiled _ _ h _ rfl
      rw [hd]
      rfl

/-- The groups and joins inside depend on filters and joins alone. -/
theorem Inner.of_eq (h : Inner b inner) {b' : Builder} (hfilters : b'.filters = b.filters)
    (hjoins : b'.joins = b.joins) : Inner b' inner := by
  induction h with
  | group hx h => exact .group (hfilters ▸ hx) h
  | join hj h => exact .join (hjoins ▸ hj) h
  | inside _ h' ih _ => exact .inside (ih hfilters hjoins) h'

/-- A path is written differently behind a variable and behind a longer one. -/
theorem pathText_ne {suffix : String} (hv : v ≠ "") (hsuffix : suffix ≠ "")
    {path : List (List Char)} (hpath : path ≠ []) :
    Column.pathText v path ≠ Column.pathText (v ++ suffix) path := by
  have hlonger : v ++ suffix ≠ "" := by simp [hv]
  rw [Column.pathText_of_ne_empty hv hpath, Column.pathText_of_ne_empty hlonger hpath, Ne,
    String.append_left_inj]
  intro heq
  have hlist := congrArg String.toList heq
  rw [String.toList_append, List.self_eq_append_right] at hlist
  exact hsuffix (String.toList_eq_nil_iff.mp hlist)

/-- A written number is not empty. -/
theorem toString_ne_empty (n : Nat) : toString n ≠ "" := by
  intro h
  have hdigits := congrArg String.toList h
  rw [toList_toString] at hdigits
  exact Nat.toDigits_ne_nil hdigits

/-- A sub-query whose generated variable is taken gets the numbered one, and is otherwise the one
that was given. -/
theorem exists_renamed [Naming] (hloop : category.insideLoop = true) (next : Nat)
    (hgiven : (b.given arg next).Over name v) (hv : v = Alias.documentVariable name)
    (hused : b.aliases.isTableVariable v = true) :
    ∃ source, (source = Source.collection name (v ++ toString (b.given arg next).id) ∨
        source = Source.view name (v ++ toString (b.given arg next).id)) ∧
      b.adopted arg category next = { b.given arg next with
        source := some source
        aliases := ((b.given arg next).aliases.registerTable name
          (some (v ++ toString (b.given arg next).id))).2 } := by
  have hscoped : b.scopedVariable? (b.given arg next) name v =
      some (v ++ toString (b.given arg next).id) := by
    unfold scopedVariable?
    exact if_pos (by simp [hused, ← hv])
  have heq : b.adopted arg category next = b.rescoped (b.given arg next) := if_pos hloop
  rcases rescoped_eq b hgiven with ⟨hnone, -⟩ | ⟨w', source, hsome, hsource, hrescoped⟩
  · rw [hscoped] at hnone
    cases hnone
  · rw [hscoped] at hsome
    obtain rfl := Option.some.inj hsome
    exact ⟨source, hsource, heq.trans hrescoped⟩

/-- **Where a new variable reaches.**  Let a sub-query over a collection come with the generated
variable, and let a builder that uses this variable take it into its loop. Then it iterates under
the numbered variable, and in its own clauses, before its groups and behind them, every reference to
the collection is written with that. Its groups of conditions and its joins, at every depth, are
those it came with: where one of them knows the collection by the generated variable, every
reference to the collection is still written with this one, which is now the variable of the outer
loop, and not with the numbered one. -/
theorem rename_reaches [Naming] (hloop : category.insideLoop = true) (next : Nat)
    (hgiven : (b.given arg next).Over name v) (hv : v = Alias.documentVariable name)
    (hused : b.aliases.isTableVariable v = true) :
    let given := b.given arg next
    let query := b.adopted arg category next
    let w := v ++ toString given.id
    query.Over name w ∧
    (∀ sc, query.Resolves sc → ∀ column path, sc.Refers name column path →
      sc.resolve column = Column.pathText w path) ∧
    (∀ inner, query.Inner inner ↔ given.Inner inner) ∧
    ∀ inner, query.Inner inner → inner.aliases.tableVariable? name = some v →
      ∀ column path, inner.scope.Refers name column path →
        inner.scope.resolve column = Column.pathText v path ∧
          inner.scope.resolve column ≠ Column.pathText w path := by
  intro given query w
  obtain ⟨source, hsource, hquery⟩ := exists_renamed hloop next hgiven hv hused
  change query = _ at hquery
  have hdocVar : query.docVar = some w := by
    rw [hquery]
    rcases hsource with rfl | rfl <;> rfl
  have htable : query.aliases.tableVariable? name = some w := by
    rw [hquery]
    exact (Registry.tableVariable?_registerTable ..).trans (if_pos rfl)
  refine ⟨?_, ?_, ?_, ?_⟩
  · rw [hquery]
    rcases hsource with rfl | rfl
    · exact .collection rfl
    · exact .view rfl
  · intro sc hsc column path hrefers
    refine hrefers.resolve_eq ?_
    unfold Registry.tableVariable? at htable ⊢
    rw [hsc.tables, htable]
  · intro inner
    have hfilters : query.filters = given.filters := by rw [hquery]
    have hjoins : query.joins = given.joins := by rw [hquery]
    exact ⟨fun h => h.of_eq hfilters.symm hjoins.symm, fun h => h.of_eq hfilters hjoins⟩
  · intro inner _ hknown column path hrefers
    have hresolved := hrefers.resolve_eq hknown
    refine ⟨hresolved, ?_⟩
    rw [hresolved]
    have hlength := Alias.length_documentVariable name
    rw [← hv] at hlength
    exact pathText_ne (fun hempty => by simp [hempty] at hlength) (toString_ne_empty _)
      hrefers.ne_nil

/-- A closure that asks for a living person, by a group of conditions. -/
def alivePerson : SubQuery := .closure fun query =>
  (query.fromCollection "people").nested .and fun group =>
    group.condition .filters .and "alive" (.ok .equal) (.value (.bool true))

/-- The group of conditions in the inner loop asks the outer document. -/
theorem group_reads_outer :
    (((outer "people").hasRows .and false alivePerson 2).1.outcome .select 4).toOption.map
      Compiled.aql = some
        ("FOR personDoc IN people FILTER LENGTH((FOR personDoc2 IN people " ++
          "FILTER (personDoc.\x60alive\x60 == @3_where_1) RETURN personDoc2)) > 0 " ++
          "RETURN personDoc") := by
  decide +kernel

/-- A query over people as it is after naming them. -/
def people (id : Nat) : Builder :=
  { Clauses.empty id with
    source := some (.collection "people" "personDoc")
    aliases := { Registry.empty with tables := [("people", "personDoc")] } }

/-- A group that asks for living people. -/
def alive : Builder :=
  { people 3 with filters := [⟨.compare "alive" .equal (.raw "true"), .and⟩] }

/-- People that are alive, the oldest first. -/
def living : Builder :=
  { people 2 with
    filters := [⟨.nested (.of alive), .and⟩]
    orders := [.column "people.born" .ascending] }

/-- The order follows the new variable, the group does not. -/
theorem order_renamed_group_not :
    let query := (people 1).adopted (.finished living) .filter 4
    query.Over "people" "personDoc2" ∧
      query.scope.resolve "people.born" = Column.pathText "personDoc2" ["born".toList] ∧
      query.Inner alive ∧
      alive.scope.resolve "alive" = Column.pathText "personDoc" ["alive".toList] := by
  intro query
  have hgiven : ((people 1).given (.finished living) 4).Over "people" "personDoc" :=
    .collection rfl
  have hnumbered : "personDoc" ++ toString ((people 1).given (.finished living) 4).id =
      "personDoc2" := by decide
  have hloop : Category.filter.insideLoop = true := rfl
  have hgenerated : "personDoc" = Alias.documentVariable "people" := by decide +kernel
  obtain ⟨hover, hown, hinner, hkept⟩ := rename_reaches hloop 4 hgiven hgenerated (by decide)
  rw [hnumbered] at hover hown
  have hgroup : query.Inner alive := (hinner alive).mpr (.group List.mem_cons_self rfl)
  have hborn : query.scope.Refers "people" "people.born" ["born".toList] :=
    .qualified (by decide) (by decide) rfl rfl
  have halive : alive.scope.Refers "people" "alive" ["alive".toList] :=
    .unqualified rfl (by decide) rfl (fun _ => rfl) (by decide) (fun _ _ h => absurd rfl h)
  exact ⟨hover, hown _ .loops _ _ hborn, hgroup, (hkept alive hgroup rfl _ _ halive).1⟩

end references

end Builder

end AqlBuilder

import AqlBuilder.Proofs.Aql.Stands

/-!
# Where statements mention query variables

A query variable has its `LET` in front of the loop of the query that defines it, or in front of the
projection, if it is a sub-query that is selected. The columns of the query, and those of the
queries inside, may refer to it. Those of a union's further queries may do so as well, but the
`LET`s of the first query stand in parentheses that do not go around them.

- `Mentions` has one rule for each way from a query to a column that is written as a variable. It
  counts the variables whose `LET` is passed on the way, and apart from them those that were left
  beside the way, in the first query of a union.
- `Mentions.shows`: the column is in the text of the query, behind the `LET`s that were passed.
-/

namespace AqlBuilder

open Outcome

/-- A column is written as a variable that a registry has under its name, or as an attribute of
it. -/
structure Scope.Reads (sc : Scope) (known : Registry) (column name : String) : Prop where
  known : (name, name) ∈ known.definitions
  origin : sc.origin column = .expression name ∨ ∃ path, sc.origin column = .defined name path

/-- The scope of the later clauses of a builder. -/
def Builder.Later (b : Builder) (sc : Scope) : Prop :=
  ∃ collected, (Aql.collect b.compiled).Gives collected ∧ sc = Aql.scopeAfter b.compiled collected

/-- A part of a query that is written as a text of its own. Columns are written in a scope, and the
query variables among them are those that a registry has. -/
inductive Site
  | statement (b : Builder)
  /-- The statement without regard to unions. -/
  | simple (b : Builder)
  /-- Everything up to the filter. -/
  | loops (b : Builder)
  /-- The loops with the order and the limit, as a change of documents has them. -/
  | selection (b : Builder)
  | source (tablePrefix : String) (s : Source Query)
  | conditions (known : Registry) (sc : Scope) (list : List (Condition Query))
  | test (known : Registry) (sc : Scope) (t : Test Query)

/-- A part of a query mentions a query variable in a column with a text. The first list has the
variables whose `LET` stands in front of it, in the query of the column or in one around it; the
second one has those of queries that are only combined with one around it. -/
inductive Mentions : Site → List String → List String → String → String → Prop
  | column {known : Registry} {sc : Scope} {t : Test Query} {column v : String} :
      column ∈ t.columns → sc.Reads known column v →
        Mentions (.test known sc t) [] [] v (sc.resolve column)
  | member {known : Registry} {sc : Scope} {column v ref : String} {c : Builder} {negated : Bool}
      {lets beside : List String} :
      Mentions (.statement c) lets beside v ref →
        Mentions (.test known sc (.memberOfQuery column (.of c) negated)) lets beside v ref
  | compared {known : Registry} {sc : Scope} {column v ref : String} {operator : Operator}
      {c : Builder} {lets beside : List String} :
      Mentions (.statement c) lets beside v ref →
        Mentions (.test known sc (.compareQuery column operator (.of c))) lets beside v ref
  | rows {known : Registry} {sc : Scope} {v ref : String} {c : Builder} {negated : Bool}
      {lets beside : List String} :
      Mentions (.statement c) lets beside v ref →
        Mentions (.test known sc (.hasRows (.of c) negated)) lets beside v ref
  /-- A group of conditions is written in its own scope. -/
  | nested {known : Registry} {sc : Scope} {v ref : String} {c : Builder}
      {lets beside : List String} :
      Mentions (.conditions c.aliases c.scope c.filters) lets beside v ref →
        Mentions (.test known sc (.nested (.of c))) lets beside v ref
  | condition {known : Registry} {sc : Scope} {list : List (Condition Query)} {x : Condition Query}
      {v ref : String} {lets beside : List String} :
      x ∈ list → Mentions (.test known sc x.test) lets beside v ref →
        Mentions (.conditions known sc list) lets beside v ref
  | derived {tablePrefix docVar v ref : String} {c : Builder} {lets beside : List String} :
      Mentions (.statement c) lets beside v ref →
        Mentions (.source tablePrefix (.derived (.of c) docVar)) lets beside v ref
  /-- The value of a variable stands behind the `LET`s of those that were defined before it. -/
  | definedBy {b c : Builder} {front back : List (LetVariable Query)} {name v ref : String}
      {lets beside : List String} :
      b.definitions = front ++ ⟨name, .query (.of c)⟩ :: back →
        Mentions (.statement c) lets beside v ref →
        Mentions (.loops b) (front.map LetVariable.name ++ lets) beside v ref
  | definedAs {b : Builder} {front back : List (LetVariable Query)} {name column v : String} :
      b.definitions = front ++ ⟨name, .bound (.column column)⟩ :: back →
        b.scope.Reads b.aliases column v →
        Mentions (.loops b) (front.map LetVariable.name) [] v (b.scope.resolve column)
  | main {b : Builder} {s : Source Query} {v ref : String} {lets beside : List String} :
      b.source = some s → Mentions (.source b.tablePrefix s) lets beside v ref →
        Mentions (.loops b) (b.definedNames ++ lets) beside v ref
  | searched {b : Builder} {s : Search} {field v : String} :
      b.search = some s → field ∈ s.fields → b.scope.Reads b.aliases field v →
        Mentions (.loops b) b.definedNames [] v (b.scope.resolve field)
  | joined {b c : Builder} {kind : JoinKind} {s : Source Query} {v ref : String}
      {lets beside : List String} :
      ⟨kind, .of c⟩ ∈ b.joins → c.source = some s →
        Mentions (.source c.tablePrefix s) lets beside v ref →
        Mentions (.loops b) (b.definedNames ++ lets) beside v ref
  | restricted {b c : Builder} {kind : JoinKind} {v ref : String} {lets beside : List String} :
      ⟨kind, .of c⟩ ∈ b.joins →
        Mentions (.conditions c.aliases c.scope c.filters) lets beside v ref →
        Mentions (.loops b) (b.definedNames ++ lets) beside v ref
  | filtered {b : Builder} {v ref : String} {lets beside : List String} :
      Mentions (.conditions b.aliases b.scope b.filters) lets beside v ref →
        Mentions (.loops b) (b.definedNames ++ lets) beside v ref
  | chosen {b : Builder} {v ref : String} {lets beside : List String} :
      Mentions (.loops b) lets beside v ref → Mentions (.selection b) lets beside v ref
  | sorted {b : Builder} {name v : String} {direction : Direction} :
      .column name direction ∈ b.orders → b.scope.Reads b.aliases name v →
        Mentions (.selection b) b.definedNames [] v (b.scope.resolve name)
  | looped {b : Builder} {v ref : String} {lets beside : List String} :
      Mentions (.loops b) lets beside v ref → Mentions (.simple b) lets beside v ref
  | grouped {b : Builder} {name v : String} :
      .column name ∈ b.groups → b.scope.Reads b.aliases name v →
        Mentions (.simple b) b.definedNames [] v (b.scope.resolve name)
  | aggregated {b : Builder} {function : AggregateFunction} {column v : String} :
      b.aggregate = some ⟨function, some column⟩ → b.scope.Reads b.aliases column v →
        Mentions (.simple b) b.definedNames [] v (b.scope.resolve column)
  /-- A selected column that is kept beside the keys of a group. -/
  | kept {b : Builder} {keys : List Aql.CollectKey} {k : Aql.KeptColumn} {v : String} :
      b.groups ≠ [] → b.aggregate = none →
        (each (Aql.collectKey b.scope) b.groups).Gives keys →
        k ∈ Aql.keptColumns b.compiled keys → b.scope.Reads b.aliases k.column v →
        Mentions (.simple b) b.definedNames [] v (b.scope.resolve k.column)
  | having {b : Builder} {sc : Scope} {v ref : String} {lets beside : List String} :
      b.Later sc → Mentions (.conditions b.aliases sc b.havings) lets beside v ref →
        Mentions (.simple b) (b.definedNames ++ lets) beside v ref
  | ordered {b : Builder} {sc : Scope} {name v : String} {direction : Direction} :
      b.Later sc → .column name direction ∈ b.orders → sc.Reads b.aliases name v →
        Mentions (.simple b) b.definedNames [] v (sc.resolve name)
  /-- A selected sub-query stands behind the `LET`s of those that were selected before it. -/
  | selected {b c : Builder} {front back : List (Selector Query)} {asName v ref : String}
      {lets beside : List String} :
      b.columns = front ++ .sub (.of c) asName :: back → Mentions (.statement c) lets beside v ref →
        Mentions (.simple b)
          (b.definedNames ++ (front.filterMap Selector.queryName? ++ lets)) beside
          v ref
  | projected {b : Builder} {sc : Scope} {s : Selector Query} {column v : String} :
      b.Later sc → b.aggregate = none → s ∈ b.columns → s.column? = some column →
        sc.Reads b.aliases column v →
        Mentions (.simple b) (b.definedNames ++ b.selectedNames) [] v (sc.resolve column)
  /-- A selected sub-query is returned by its variable. -/
  | returned {b : Builder} {q : Query} {asName : String} :
      b.aggregate = none → .sub q asName ∈ b.columns →
        Mentions (.simple b) (b.definedNames ++ b.selectedNames) [] asName asName
  | first {b : Builder} {v ref : String} {lets beside : List String} :
      Mentions (.simple b) lets beside v ref → Mentions (.statement b) lets beside v ref
  | branch {b c : Builder} {all : Bool} {v ref : String} {lets beside : List String} :
      ⟨.of c, all⟩ ∈ b.unions → Mentions (.statement c) lets beside v ref →
        Mentions (.statement b) lets (beside ++ b.definedNames) v ref

/-- The text of a part of a query has another text in it, behind certain marks. -/
def Site.Shows (marks : List String) (ref : String) : Site → Prop
  | statement b => (Aql.statement b.compiled).Yields (Stands marks ref)
  | simple b => (Aql.simpleStatement b.compiled).Yields (Stands marks ref)
  | loops b => (Aql.loops b.compiled).Yields (StandsIn marks ref)
  | selection b => b.selection.Yields (StandsIn marks ref)
  | source tablePrefix s =>
      (Aql.sourceText tablePrefix (s.map Query.fragment)).2.Yields (Stands marks ref)
  | conditions _ sc list =>
      (Aql.conditions sc (list.map (Condition.map Query.fragment))).Yields fun text =>
        ∃ t ∈ text, Stands marks ref t
  | test _ sc t => ((t.map Query.fragment).text sc).Yields (Stands marks ref)

section texts

variable {b c : Builder} {known : Registry} {sc : Scope} {marks : List String} {ref column : String}
  {t : Test Query} {list : List (Condition Query)} {x : Condition Query} {s : Source Query}
  {kind : JoinKind}

namespace Site

/-- What the statement of a query shows is shown where it is embedded. -/
theorem Shows.embedded (h : (statement c).Shows marks ref) :
    (Query.of c).fragment.embedded.Yields (Stands marks ref) :=
  (Query.yields_embedded h).mono fun _ ⟨_, haql, htext⟩ => htext ▸ haql.around "(" ")"

/-- What the statement of a query shows is shown where it is used as a value. -/
theorem Shows.value (h : (statement c).Shows marks ref) :
    (Query.of c).fragment.value.Yields (Stands marks ref) := by
  refine h.embedded.map fun text htext => ?_
  split
  · exact htext.around _ _
  · exact htext

/-- A test shows its columns. -/
theorem shows_column (h : column ∈ t.columns) :
    (test known sc t).Shows [] (sc.resolve column) := by
  have hcolumn : column ∈ (t.map Query.fragment).columns := by rwa [Test.columns_map]
  exact Test.stands_column hcolumn

/-- A test for rows shows what its query shows. -/
theorem shows_rows (h : (statement c).Shows marks ref) (negated : Bool) :
    (test known sc (.hasRows (.of c) negated)).Shows marks ref := by
  refine h.embedded.map fun text htext => ?_
  unfold Aql.rowTest
  split <;> exact htext.around _ _

/-- The conditions of a query are written in its own scope, wherever they are put. -/
theorem Shows.group (h : (conditions c.aliases c.scope c.filters).Shows marks ref) :
    (Query.of c).fragment.conditions.Yields fun text => ∃ t ∈ text, Stands marks ref t := by
  rw [Query.conditions_fragment, c.scope_compiled]
  exact h

/-- A group shows what its conditions show. -/
theorem shows_nested (h : (conditions c.aliases c.scope c.filters).Shows marks ref) :
    (test known sc (.nested (.of c))).Shows marks ref := by
  refine h.group.bind fun text ⟨t, htext, ht⟩ => ?_
  cases htext
  exact yields_pure (ht.around _ _)

/-- A condition stands behind its connector. -/
theorem yields_stands_further (hx : x ∈ list) (h : (test known sc x.test).Shows marks ref) :
    (Aql.furtherConditions sc (list.map (Condition.map Query.fragment))).Yields
      (Stands marks ref) := by
  induction list with
  | nil => cases hx
  | cons first rest ih =>
      rcases List.mem_cons.mp hx with rfl | hx
      · refine Yields.bind h fun text htext => (yields_any _).map fun further _ => ?_
        exact (htext.behind _).before _
      · refine (yields_any _).bind fun text _ => (ih hx).map fun further hfurther => ?_
        exact hfurther.behind _

/-- A list shows what one of its conditions shows. -/
theorem shows_condition (hx : x ∈ list) (h : (test known sc x.test).Shows marks ref) :
    (conditions known sc list).Shows marks ref := by
  cases list with
  | nil => cases hx
  | cons first rest =>
      rcases List.mem_cons.mp hx with rfl | hx
      · refine Yields.bind h fun text htext => (yields_any _).map fun further _ => ?_
        exact ⟨_, rfl, htext.before further⟩
      · refine (yields_any _).bind fun text _ => (yields_stands_further hx h).map ?_
        exact fun further hfurther => ⟨_, rfl, hfurther.behind text⟩

/-- What stands in a filter with some conditions stands in the filter that they are written as. -/
theorem yields_filter (h : (Aql.conditions sc (list.map (Condition.map Query.fragment))).Yields
      fun written => ∃ text ∈ written, Stands marks ref ("FILTER " ++ text)) :
    (Aql.filter sc (list.map (Condition.map Query.fragment))).Yields (StandsIn marks ref) := by
  refine h.bind fun written ⟨text, hwritten, htext⟩ => ?_
  cases hwritten
  exact yields_pure (.of_mem htext List.mem_cons_self)

/-- A filter shows what its conditions show. -/
theorem Shows.filter (h : (conditions known sc list).Shows marks ref) :
    (Aql.filter sc (list.map (Condition.map Query.fragment))).Yields (StandsIn marks ref) :=
  yields_filter (Yields.mono h fun _ ⟨text, hwritten, htext⟩ => ⟨text, hwritten, htext.behind _⟩)

end Site

end texts

section loops

open Aql

variable {b c : Builder} {cl : Clauses Fragment} {sc : Scope} {marks : List String}
  {ref name : String} {d : LetVariable Fragment} {front back : List (LetVariable Fragment)}
  {s : Source Query} {kind : JoinKind}

namespace Site

/-- The `LET`s of a query are in front of everything else. -/
theorem marked_definitions (b : Builder) :
    (each (definition b.compiled.scope) b.compiled.definitions).Yields
      (Marked (b.definedNames.map letMark)) := by
  rw [← Clauses.definedNames_map Query.fragment b]
  exact yields_definitions _

/-- The loops show what a definition shows, behind the definitions in front of it. -/
theorem shows_definition {d : LetVariable Query} {front back : List (LetVariable Query)}
    (hsplit : b.definitions = front ++ d :: back)
    (h : (definition b.scope (d.map Query.fragment)).Yields (Stands marks ref)) :
    (Site.loops b).Shows ((front.map LetVariable.name).map letMark ++ marks) ref := by
  have hdefinitions : (each (definition b.compiled.scope) b.compiled.definitions).Yields
      (StandsIn ((front.map LetVariable.name).map letMark ++ marks) ref) := by
    have hnames : (front.map (LetVariable.map Query.fragment)).map LetVariable.name =
        front.map LetVariable.name := List.map_map
    change (each _ (b.definitions.map (LetVariable.map Query.fragment))).Yields _
    rw [b.scope_compiled, hsplit, List.map_append, List.map_cons, ← hnames]
    exact yields_definitions_split h
  refine (yields_loops_parts hdefinitions (yields_any _) (yields_any _) (yields_any _)).mono ?_
  rintro pieces ⟨definitions, main, joins, filters, hstands, -, -, -, rfl⟩
  exact hstands.before _

/-- What stands in the main loop is behind the `LET`s of the query. -/
theorem shows_mainLoop (h : (mainLoop b.compiled).Yields (Stands marks ref)) :
    (loops b).Shows (b.definedNames.map letMark ++ marks) ref := by
  refine (yields_loops_parts (marked_definitions b) h (yields_any _) (yields_any _)).mono ?_
  rintro pieces ⟨definitions, main, joins, filters, hmarked, hstands, -, -, rfl⟩
  have hpiece : StandsIn marks ref [main] := .of_mem hstands List.mem_cons_self
  exact (hpiece.before _).behind hmarked

/-- The main loop is a loop over the text of its source. -/
theorem mainLoop_of_source (hsource : b.source = some s) : mainLoop b.compiled =
    (do pure (loop s.docVar (← (sourceText b.tablePrefix (s.map Query.fragment)).2))) := by
  unfold mainLoop Builder.compiled Clauses.map
  rw [hsource]
  cases s <;> rfl

/-- The loops show what the source shows, behind the definitions. -/
theorem shows_main (hsource : b.source = some s) (h : (source b.tablePrefix s).Shows marks ref) :
    (loops b).Shows (b.definedNames.map letMark ++ marks) ref := by
  refine shows_mainLoop ?_
  rw [mainLoop_of_source hsource]
  exact Yields.map h fun _ htext => htext.behind _

/-- The loops show the fields of the search, behind the definitions. -/
theorem shows_searched {search : Search} {field : String} (hsearch : b.search = some search)
    (hfield : field ∈ search.fields) :
    (loops b).Shows (b.definedNames.map letMark) (b.scope.resolve field) := by
  refine (yields_loops_parts (marked_definitions b) (yields_any _) (yields_any _)
    (yields_any _)).mono ?_
  rintro pieces ⟨definitions, main, joins, filters, hmarked, -, -, -, rfl⟩
  have hpiece : StandsIn [] (b.scope.resolve field)
      (b.compiled.search.map (searchText b.compiled.scope)).toList := by
    change StandsIn [] _ (b.search.map (searchText b.compiled.scope)).toList
    rw [b.scope_compiled, hsearch]
    exact .of_mem (stands_searched hfield) List.mem_cons_self
  have hbehind := ((hpiece.before (joins ++ filters)).after [main]).behind hmarked
  rwa [List.append_nil] at hbehind

/-- What stands in the text of a join is behind the `LET`s of the query. -/
theorem shows_join {j : Join Query} (hmem : j ∈ b.joins)
    (h : (joinLoop (j.map Query.fragment)).Yields (Stands marks ref)) :
    (loops b).Shows (b.definedNames.map letMark ++ marks) ref := by
  have hjoins := yields_each_mem (List.mem_map_of_mem (f := Join.map Query.fragment) hmem) h
  refine (yields_loops_parts (marked_definitions b) (yields_any _) hjoins (yields_any _)).mono ?_
  rintro pieces ⟨definitions, main, joins, filters, hmarked, -, ⟨text, htext, hstands⟩, -, rfl⟩
  have hpiece : StandsIn marks ref joins := .of_mem hstands htext
  exact (((hpiece.before _).after _).after _).behind hmarked

/-- What stands in the loop over a joined source stands in the text of the join. -/
theorem yields_join_loop (hsource : c.source = some s)
    (h : (sourceText c.tablePrefix (s.map Query.fragment)).2.Yields fun text =>
      Stands marks ref (loop s.docVar text)) :
    (joinLoop ⟨kind, (Query.of c).fragment⟩).Yields (Stands marks ref) := by
  have hfragment : (Query.of c).fragment.source =
      some (s.docVar, (sourceText c.tablePrefix (s.map Query.fragment)).2) := by
    rw [Query.source_fragment, hsource]
    cases s <;> rfl
  unfold joinLoop
  rw [hfragment]
  refine h.bind fun source hsource => (yields_any _).map fun conditions _ => ?_
  exact stands_joinText (hsource.before _)

/-- A join shows what its source shows. -/
theorem yields_join_source (hsource : c.source = some s)
    (h : (source c.tablePrefix s).Shows marks ref) :
    (joinLoop ⟨kind, (Query.of c).fragment⟩).Yields (Stands marks ref) :=
  yields_join_loop hsource (Yields.mono h fun _ htext => htext.behind _)

/-- What stands in a filter with the conditions of a joined query stands in the text of the join. -/
theorem yields_join_filter (h : (Query.of c).fragment.conditions.Yields fun written =>
      ∃ text ∈ written, Stands marks ref ("FILTER " ++ text)) :
    (joinLoop ⟨kind, (Query.of c).fragment⟩).Yields (Stands marks ref) := by
  have hcut : " FILTER " = " " ++ "FILTER " := rfl
  unfold joinLoop
  cases (Query.of c).fragment.source with
  | none => exact yields_fail _
  | some s =>
      refine (yields_any _).bind fun source _ => h.map fun written ⟨text, hwritten, htext⟩ => ?_
      cases hwritten
      have hpiece : Stands marks ref (" FILTER " ++ text) := by
        rw [hcut, String.append_assoc]
        exact htext.behind " "
      exact stands_joinText (hpiece.behind _)

/-- A join shows what its conditions show. -/
theorem yields_join_conditions (h : (conditions c.aliases c.scope c.filters).Shows marks ref) :
    (joinLoop ⟨kind, (Query.of c).fragment⟩).Yields (Stands marks ref) :=
  yields_join_filter (h.group.mono fun _ ⟨text, hwritten, htext⟩ =>
    ⟨text, hwritten, htext.behind _⟩)

/-- What stands in the filter of a query is behind the `LET`s of the query. -/
theorem shows_filter
    (h : (filter b.scope (b.filters.map (Condition.map Query.fragment))).Yields
      (StandsIn marks ref)) : (loops b).Shows (b.definedNames.map letMark ++ marks) ref := by
  have hfilter : (filter b.compiled.scope b.compiled.filters).Yields (StandsIn marks ref) := by
    rw [b.scope_compiled]
    exact h
  refine (yields_loops_parts (marked_definitions b) (yields_any _) (yields_any _) hfilter).mono ?_
  rintro pieces ⟨definitions, main, joins, filters, hmarked, -, -, hstands, rfl⟩
  exact (((hstands.after _).after _).after _).behind hmarked

/-- The loops show what the filter shows, behind the definitions. -/
theorem shows_filtered (h : (conditions b.aliases b.scope b.filters).Shows marks ref) :
    (loops b).Shows (b.definedNames.map letMark ++ marks) ref :=
  shows_filter h.filter

end Site

end loops

section statements

open Aql

variable {b c : Builder} {cl : Clauses Fragment} {sc : Scope} {marks : List String} {ref : String}

namespace Site

/-- The `LET`s of a query are among its loops. -/
theorem marked_loops (b : Builder) :
    (Aql.loops b.compiled).Yields (Marked (b.definedNames.map letMark)) := by
  refine (yields_loops_parts (marked_definitions b) (yields_any _) (yields_any _)
    (yields_any _)).mono ?_
  rintro pieces ⟨definitions, main, joins, filters, hmarked, -, -, -, rfl⟩
  exact hmarked.before _

theorem shows_chosen (h : (loops b).Shows marks ref) : (selection b).Shows marks ref :=
  Yields.map h fun _ hstands => (hstands.before _).before _

/-- The selection of documents shows the columns that order it. -/
theorem shows_sorted {name : String} {direction : Direction}
    (h : .column name direction ∈ b.orders) :
    (selection b).Shows (b.definedNames.map letMark) (b.scope.resolve name) := by
  refine Yields.map (marked_loops b) fun loops hmarked => ?_
  have hcriterion : StandsIn [] (b.scope.resolve name) (sortIn b.scope b.orders) := stands_sorted h
  have hordered := (hcriterion.behind hmarked).before
    (limitText b.compiled.limit b.compiled.offset)
  rw [List.append_nil] at hordered
  rwa [b.scope_compiled]

/-- What the loops show is shown by the statement. -/
theorem shows_looped (h : (loops b).Shows marks ref) : (simple b).Shows marks ref := by
  refine (yields_simple_parts h (yields_any _) (fun _ _ => yields_any _) (yields_any _)).mono ?_
  rintro aql ⟨loops, collected, havings, queries, hstands, -, -, -, rfl⟩
  exact (hstands.before _).intercalate

/-- What the clause of the groups shows is shown by the statement. -/
theorem shows_collected
    (h : (collect b.compiled).Yields fun result => ∃ g ∈ result, Stands [] ref g.clause) :
    (simple b).Shows (b.definedNames.map letMark) ref := by
  refine (yields_simple_parts (marked_loops b) h (fun _ _ => yields_any _) (yields_any _)).mono ?_
  rintro aql ⟨loops, collected, havings, queries, hmarked, ⟨g, hg, hstands⟩, -, -, rfl⟩
  cases hg
  have hpiece : StandsIn [] ref [g.clause] := .of_mem hstands List.mem_cons_self
  rw [← List.append_nil (List.map letMark b.definedNames)]
  exact ((hpiece.before _).behind hmarked).intercalate

/-- What stands in the filter on the groups of a query is behind the `LET`s of the query. -/
theorem shows_groupFilter (hlater : b.Later sc)
    (h : (filter sc (b.havings.map (Condition.map Query.fragment))).Yields
      (StandsIn marks ref)) : (simple b).Shows (b.definedNames.map letMark ++ marks) ref := by
  obtain ⟨collected, hcollected, rfl⟩ := hlater
  have hhavings : ∀ result, result = collected →
      (filter (scopeAfter b.compiled result) b.compiled.havings).Yields (StandsIn marks ref) := by
    rintro _ rfl
    exact h
  refine (yields_simple_parts (marked_loops b) hcollected.yields hhavings
    (yields_any _)).mono ?_
  rintro aql ⟨loops, _, havings, queries, hmarked, rfl, hstands, -, rfl⟩
  exact (((hstands.before _).after _).behind hmarked).intercalate

/-- The statement shows what the conditions behind the groups show. -/
theorem shows_having (hlater : b.Later sc)
    (h : (conditions b.aliases sc b.havings).Shows marks ref) :
    (simple b).Shows (b.definedNames.map letMark ++ marks) ref :=
  shows_groupFilter hlater h.filter

/-- The statement shows the columns that order its rows. -/
theorem shows_ordered {name : String} {direction : Direction} (hlater : b.Later sc)
    (h : .column name direction ∈ b.orders) :
    (simple b).Shows (b.definedNames.map letMark) (sc.resolve name) := by
  obtain ⟨collected, hcollected, rfl⟩ := hlater
  refine (yields_simple_parts (marked_loops b) hcollected.yields
    (fun _ _ => yields_any _) (yields_any _)).mono ?_
  rintro aql ⟨loops, _, havings, queries, hmarked, rfl, -, -, rfl⟩
  rw [← List.append_nil (List.map letMark b.definedNames)]
  exact (((((stands_sorted h).before _).after _).after _).behind hmarked).intercalate

/-- The statement shows what a selected query shows, behind those that are selected before it. -/
theorem shows_selected {front back : List (Selector Query)} {asName : String}
    (hsplit : b.columns = front ++ .sub (.of c) asName :: back)
    (h : (statement c).Shows marks ref) :
    (simple b).Shows (b.definedNames.map letMark ++
      ((front.filterMap Selector.queryName?).map letMark ++ marks)) ref := by
  have hqueries : (selectedQueries b.compiled.columns).Yields
      (StandsIn ((front.filterMap Selector.queryName?).map letMark ++ marks) ref) := by
    have hname : ∀ s : Selector Query, (s.map Query.fragment).queryName? = s.queryName? :=
      fun s => by cases s <;> rfl
    have hnames : (front.map (Selector.map Query.fragment)).filterMap Selector.queryName? =
        front.filterMap Selector.queryName? := by
      simp only [List.filterMap_map, Function.comp_def, hname]
    change (selectedQueries (b.columns.map (Selector.map Query.fragment))).Yields _
    rw [hsplit, List.map_append, List.map_cons, ← hnames]
    exact yields_selectedQueries_split h.value
  refine (yields_simple_parts (marked_loops b) (yields_any _) (fun _ _ => yields_any _)
    hqueries).mono ?_
  rintro aql ⟨loops, collected, havings, queries, hmarked, -, -, hstands, rfl⟩
  exact ((((((hstands.before _).after _).after _).after _).after _).behind hmarked).intercalate

/-- What is returned is behind the selected sub-queries, too. -/
theorem shows_returned (h : (collect b.compiled).Yields fun result =>
      ∀ keys, Stands [] ref (returnText b.compiled (scopeAfter b.compiled result) keys)) :
    (simple b).Shows ((b.definedNames ++ b.selectedNames).map letMark) ref := by
  have hqueries : (selectedQueries b.compiled.columns).Yields
      (Marked (b.selectedNames.map letMark)) := by
    rw [← Clauses.selectedNames_map Query.fragment b]
    exact yields_selectedNames _
  refine (yields_simple_parts (marked_loops b) h (fun _ _ => yields_any _) hqueries).mono ?_
  rintro aql ⟨loops, result, havings, queries, hmarked, hresult, -, hqueries, rfl⟩
  have hpiece : StandsIn [] ref [returnText b.compiled (scopeAfter b.compiled result)
      ((result.map Collected.keys).getD [])] :=
    .of_mem (hresult _) List.mem_cons_self
  have hbehind := hpiece.behind hqueries
  rw [List.append_nil] at hbehind
  rw [List.map_append]
  exact (((((hbehind.after _).after _).after _).after _).behind hmarked).intercalate

/-- A union shows what one of its branches shows. -/
theorem yields_stands_branch {rows : String} {unions : List (UnionBranch Query)} {all : Bool}
    (hmem : ⟨.of c, all⟩ ∈ unions) (h : (statement c).Shows marks ref) :
    (combined rows (unions.map (UnionBranch.map Query.fragment))).Yields (Stands marks ref) := by
  induction unions generalizing rows with
  | nil => cases hmem
  | cons first rest ih =>
      rcases List.mem_cons.mp hmem with rfl | hrest
      · refine h.embedded.bind fun others hothers => (yields_stands_combined _ _).mono ?_
        exact fun all hall => ((hothers.behind _).before ")").trans hall
      · exact (yields_any _).bind fun others _ => ih hrest

theorem shows_first (h : (simple b).Shows marks ref) : (statement b).Shows marks ref :=
  (yields_statement_of_simple h).mono fun _ ⟨_, hstands, htext⟩ => hstands.trans htext

/-- A statement with unions shows what one of its branches shows. -/
theorem shows_branch {all : Bool} (hmem : ⟨.of c, all⟩ ∈ b.unions)
    (h : (statement c).Shows marks ref) : (statement b).Shows marks ref := by
  have hunions : b.compiled.unions.isEmpty = false := by
    rw [List.isEmpty_eq_false_iff]
    exact List.ne_nil_of_mem (List.mem_map_of_mem (f := UnionBranch.map Query.fragment) hmem)
  change (Aql.statement b.compiled).Yields (Stands marks ref)
  unfold Aql.statement
  rw [hunions, if_neg Bool.false_ne_true]
  refine (yields_any _).bind fun first _ => (yields_stands_branch hmem h).map fun rows hrows => ?_
  exact (hrows.behind _).listed List.mem_cons_self

end Site

end statements

open Aql in
/-- **Every mentioned variable is in the text, behind the `LET`s on the way.** -/
theorem Mentions.shows {site : Site} {lets beside : List String} {v ref : String}
    (h : Mentions site lets beside v ref) : site.Shows (lets.map Aql.letMark) ref := by
  induction h with
  | column hcolumn => exact Site.shows_column hcolumn
  | member _ ih => exact ih.embedded.map fun _ htext => stands_comparison (.inr htext)
  | compared _ ih => exact ih.value.map fun _ htext => stands_comparison (.inr htext)
  | rows _ ih => exact Site.shows_rows ih _
  | nested _ ih => exact Site.shows_nested ih
  | condition hmem _ ih => exact Site.shows_condition hmem ih
  | derived _ ih => exact ih.embedded
  | definedBy hsplit _ ih =>
      rw [List.map_append]
      exact Site.shows_definition hsplit (Yields.map ih.value fun _ htext => htext.behind _)
  | definedAs hsplit _ =>
      rw [← List.append_nil (List.map Aql.letMark _)]
      exact Site.shows_definition hsplit (Yields.map (yields_pure rfl) fun _ htext =>
        htext ▸ (Stands.refl _).behind _)
  | main hsource _ ih =>
      rw [List.map_append]
      exact Site.shows_main hsource ih
  | searched hsearch hfield _ => exact Site.shows_searched hsearch hfield
  | joined hmem hsource _ ih =>
      rw [List.map_append]
      exact Site.shows_join hmem (Site.yields_join_source hsource ih)
  | restricted hmem _ ih =>
      rw [List.map_append]
      exact Site.shows_join hmem (Site.yields_join_conditions ih)
  | filtered _ ih =>
      rw [List.map_append]
      exact Site.shows_filtered ih
  | chosen _ ih => exact Site.shows_chosen ih
  | sorted hmem _ => exact Site.shows_sorted hmem
  | looped _ ih => exact Site.shows_looped ih
  | @grouped b name v hmem _ =>
      exact Site.shows_collected (b.scope_compiled ▸ yields_grouped hmem)
  | @aggregated b function column v haggregate _ =>
      exact Site.shows_collected (b.scope_compiled ▸ yields_aggregate haggregate)
  | @kept b keys k v hgroups haggregate hkeys hk _ =>
      rw [← b.scope_compiled] at hkeys
      have hexpression : k.expression = b.scope.resolve k.column :=
        b.scope_compiled ▸ expression_of_mem_candidates (List.mem_filter.mp hk).1
      exact Site.shows_collected (hexpression ▸ yields_kept hgroups haggregate hkeys hk)
  | having hlater _ ih =>
      rw [List.map_append]
      exact Site.shows_having hlater ih
  | ordered hlater hmem _ => exact Site.shows_ordered hlater hmem
  | selected hsplit _ ih =>
      rw [List.map_append, List.map_append]
      exact Site.shows_selected hsplit ih
  | @projected b sc s column v hlater haggregate hs hcolumn _ =>
      obtain ⟨collected, hcollected, rfl⟩ := hlater
      have hmem : s.map Query.fragment ∈ b.compiled.columns := List.mem_map_of_mem hs
      obtain ⟨key, hkey⟩ := Aql.exists_attribute (Aql.scopeAfter b.compiled collected)
        (f := Query.fragment) hcolumn
      refine Site.shows_returned (hcollected.yields.mono ?_)
      rintro _ rfl keys
      exact stands_returned haggregate hmem hkey
  | @returned b q asName haggregate hmem =>
      have hmem' : .sub q.fragment asName ∈ b.compiled.columns :=
        List.mem_map_of_mem (f := Selector.map Query.fragment) hmem
      refine Site.shows_returned ((yields_any _).mono fun _ _ keys => ?_)
      exact stands_returned haggregate hmem' List.mem_cons_self
  | first _ ih => exact Site.shows_first ih
  | branch hmem _ ih => exact Site.shows_branch hmem ih

end AqlBuilder

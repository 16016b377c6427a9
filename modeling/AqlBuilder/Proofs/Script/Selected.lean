import AqlBuilder.Alias.Rules
import AqlBuilder.Proofs.Aql.Cited
import AqlBuilder.Proofs.Builder.Failure
import AqlBuilder.Proofs.Query.References
import AqlBuilder.Proofs.Script.Backed
import AqlBuilder.Proofs.Script.Frugal

/-!
# Sub-queries among selected parts

A sub-query can be selected by a call of its own, which takes over its values and its error, or
among the parts of a projection. In the second case the builder only stores it: the statement around
it is written with the references of the sub-query, but their values are left behind, and an error
of the sub-query shows when the builder is compiled, not before.

- `Fragment.bare` leaves out of a query what is not written of a selected one, and by
  `Aql.statement_bareColumns` the statement around it does not notice.
- `Aql.yields_statement_beside`: the references of a statement are those of its clauses and of the
  selected statements.
- `Aql.yields_faulty_column`: there is no statement around a selected query with an error.
- `Builder.BackedBeside`: a builder that has the values of everything else.
- `Builder.BackedBeside.select`, `Builder.BackedBeside.addSelect`: parts of any kind can be
  selected.
- `Builder.BackedBeside.lacks_iff`: which references of a statement have no value.
- `Script.Clean.selected_lack` is the law of a script that ends with selections.
-/

/-!
## Selected queries in a statement

Of a query that is selected only the statement is written, and nothing at all if the query has an
error: its conditions and its source are no part of the statement around it. So for the references
of a statement it is enough to know those of the selected statements.
-/

namespace AqlBuilder

open Outcome

/-- What is written of a query that is selected. -/
def Fragment.bare (f : Fragment) : Fragment :=
  { f with
    statement := match f.error with
      | some e => .fail e
      | none => f.statement
    conditions := pure none
    source := none }

theorem Fragment.value_bare (f : Fragment) : f.bare.value = f.value := by
  unfold value embedded bare
  cases f.error <;> rfl

/-- A query with no more of the selected queries than what is written of them. -/
def Clauses.bareColumns (c : Clauses Fragment) : Clauses Fragment :=
  { c with columns := c.columns.map (Selector.map Fragment.bare) }

namespace Aql

variable {c : Clauses Fragment} {names : Set String} {p : String → Prop}

/-- Selected queries are written from what is written of them. -/
theorem selectedQueries_bare (columns : List (Selector Fragment)) :
    selectedQueries (columns.map (Selector.map Fragment.bare)) = selectedQueries columns := by
  induction columns with
  | nil => rfl
  | cons selector rest ih =>
      cases selector with
      | sub q asName =>
          rw [List.map_cons, Selector.map, selectedQueries, selectedQueries, Fragment.value_bare,
            ih]
      | _ => exact ih

/-- Which columns may be kept does not depend on the selected queries. -/
theorem candidates_map (f : Fragment → Fragment) (scope : Scope)
    (columns : List (Selector Fragment)) :
    candidates scope (columns.map (Selector.map f)) = candidates scope columns := by
  unfold candidates
  rw [List.filterMap_map]
  refine List.filterMap_congr fun s _ => ?_
  cases s <;> rfl

/-- What is projected does not depend on the selected queries. -/
theorem select_map (f : Fragment → Fragment) (scope : Scope) (projected : Projected)
    (columns : List (Selector Fragment)) :
    (columns.map (Selector.map f)).foldl (Projected.select scope) projected =
      columns.foldl (Projected.select scope) projected := by
  have hselect : (fun (projected : Projected) s => projected.select scope (Selector.map f s)) =
      Projected.select scope := by
    funext projected s
    rcases s with _ | _ | _ | ⟨_, _ | _⟩ | _ <;> rfl
  rw [List.foldl_map, hselect]

/-- What is collected does not depend on the selected queries. -/
theorem collect_bareColumns (c : Clauses Fragment) : collect c.bareColumns = collect c := by
  unfold collect
  simp only [Clauses.bareColumns, candidates_map]
  rfl

/-- What is returned does not depend on the selected queries. -/
theorem returnText_bareColumns (c : Clauses Fragment) (scope : Scope) (keys : List String) :
    returnText c.bareColumns scope keys = returnText c scope keys := by
  have hunselected : unselected c.bareColumns keys = unselected c keys := by
    unfold unselected
    simp only [Clauses.bareColumns, List.isEmpty_map]
    rfl
  unfold returnText
  rw [hunselected]
  simp only [Clauses.bareColumns, select_map]
  rfl

/-- A statement depends on what is written of the selected queries alone. -/
theorem simpleStatement_bareColumns (c : Clauses Fragment) :
    simpleStatement c.bareColumns = simpleStatement c := by
  have hqueries : selectedQueries c.bareColumns.columns = selectedQueries c.columns :=
    selectedQueries_bare c.columns
  unfold simpleStatement
  simp only [collect_bareColumns, returnText_bareColumns, hqueries]
  rfl

/-- A statement does not depend on what is not written of the selected queries. -/
theorem statement_bareColumns (c : Clauses Fragment) : statement c.bareColumns = statement c := by
  have hempty : c.bareColumns.columns.isEmpty = c.columns.isEmpty := List.isEmpty_map
  unfold statement unionStatement
  rw [simpleStatement_bareColumns, hempty]
  rfl

/-- The references of a statement are among the given names if those of the other clauses and those
of the selected statements are. -/
theorem yields_statement_beside
    (hrest : Clauses.Within Fragment.Within names names { c with columns := [] })
    (hcolumns : ∀ s ∈ c.columns, s.Within fun f => f.bare.statement.Yields (Covered names)) :
    (statement c).Yields (Covered names) := by
  have hbare : ∀ f : Fragment, f.bare.statement.Yields (Covered names) → f.bare.Within names :=
    fun f hf => ⟨hf, yields_pure nofun, nofun⟩
  have hwithin : c.bareColumns.Within Fragment.Within names names :=
    { hrest with
      columns := fun s hs => by
        obtain ⟨selector, hselector, rfl⟩ := List.mem_map.mp hs
        exact Selector.within_map.mpr ((hcolumns selector hselector).mono hbare) }
  rw [← statement_bareColumns]
  exact yields_statement hwithin

/-- There is no statement around a selected query that has none. -/
theorem yields_faulty_column {f : Fragment} {asName : String} (hmem : .sub f asName ∈ c.columns)
    (h : f.value.Yields fun _ => False) : (statement c).Yields fun _ => False := by
  have hqueries : (selectedQueries c.columns).Yields fun _ => False :=
    (yields_selected hmem h).mono fun _ ⟨_, hnone, _⟩ => hnone
  have hsimple : (simpleStatement c).Yields fun _ => False :=
    (yields_simple_parts (yields_any _) (yields_any _) (fun _ _ => yields_any _) hqueries).mono
      fun _ ⟨_, _, _, _, _, _, _, hnone, _⟩ => hnone
  unfold statement
  split
  · exact hsimple
  · exact hsimple.bind fun _ hnone => hnone.elim

end Aql

end AqlBuilder

/-! ## Builders with selected queries -/

namespace AqlBuilder

open Outcome Supply

/-- A call that selects parts, among them the queries of any scripts. All other names and texts have
no marks. -/
def Call.Selects : Call Script → Prop
  | .select selectors | .addSelect selectors => ∀ s ∈ selectors, s.Within fun _ => True
  | _ => False

/-- A builder that is backed but for the sub-queries that it selects, whatever these are. -/
structure Builder.BackedBeside (b : Builder) : Prop where
  rest : Builder.Backed ∅ { b with columns := [] }
  columns : ∀ s ∈ b.columns, s.Within fun _ => True

namespace Builder

variable {b c : Builder} {name asName : String} {selectors : List (Selector Query)}

/-- A query that the builder selects compiles to a statement that refers to a name. -/
def SelectsReference (b : Builder) (name : String) : Prop :=
  ∃ (c : Builder) (asName text : String), .sub (.of c) asName ∈ b.columns ∧
    c.toAql.Gives text ∧ name ∈ references text

/-- A backed builder is backed but for the sub-queries that it selects. -/
theorem Backed.beside (h : b.Backed ∅) : b.BackedBeside where
  rest := ⟨h.named, { h.within with columns := fun _ hs => (List.not_mem_nil hs).elim }⟩
  columns s hs := (h.within.columns s hs).mono fun _ _ => trivial

namespace BackedBeside

/-- Any part of a projection without marks may be selected. -/
theorem selectOne (h : b.BackedBeside) {selector : Selector Query}
    (hselector : selector.Within fun _ => True) : (b.selectOne selector).BackedBeside := by
  have hcolumns : ∀ s ∈ b.columns ++ [selector], s.Within fun _ => True := by
    intro s hs
    rcases List.mem_append.mp hs with hold | hnew
    · exact h.columns s hold
    · rwa [List.mem_singleton.mp hnew]
  cases selector with
  | aliased column asName =>
      exact ⟨h.rest.withAliases (h.rest.within.aliases.registerColumn hselector.1 asName), hcolumns⟩
  | _ => exact ⟨h.rest, hcolumns⟩

/-- Any parts without marks may be added to the projection. -/
theorem addSelect (h : b.BackedBeside) (hselectors : ∀ s ∈ selectors, s.Within fun _ => True) :
    (b.addSelect selectors).BackedBeside := by
  induction selectors generalizing b with
  | nil => exact h
  | cons first rest ih =>
      exact ih (h.selectOne (hselectors first List.mem_cons_self))
        fun s hs => hselectors s (List.mem_cons_of_mem first hs)

/-- Any parts without marks may be selected. -/
theorem select (h : b.BackedBeside) (hselectors : ∀ s ∈ selectors, s.Within fun _ => True) :
    (b.select selectors).BackedBeside := by
  have hcleared : Backed ∅ (Builder.select { b with columns := [] } []) :=
    h.rest.select fun _ hs => (List.not_mem_nil hs).elim
  exact hcleared.beside.addSelect hselectors

end BackedBeside

section statements

/-- The error of a query is that of its fragment. -/
theorem error_fragment (c : Builder) : (Query.of c).fragment.error = c.error := by
  rw [Query.fragment_of]
  rfl

/-- What a query contributes as a statement is what it compiles to. -/
theorem fragment_statement_gives_iff {text : String} :
    (Query.of c).fragment.statement.Gives text ↔ c.statement.Gives text := by
  rw [Query.fragment_of]
  exact ⟨fun h => c.steady_statement.gives (h 0), fun h => h.after _⟩

/-- The references of a selected query are references of the statement around it. -/
theorem yields_cited_selected (h : b.SelectsReference name) :
    b.statement.Yields (Cites name) := by
  obtain ⟨c, asName, text, hmem, htext, hname⟩ := h
  have hgives := fragment_statement_gives_iff.mpr (toAql_ok_iff.mp (htext 0)).2
  have hcites : (Query.of c).fragment.Cites name := hgives.yields.mono fun _ heq => heq ▸ hname
  have hcolumn : .sub (Query.of c).fragment asName ∈ b.compiled.columns :=
    List.mem_map.mpr ⟨_, hmem, rfl⟩
  exact Aql.yields_cited_first (Aql.yields_cited_column hcolumn hcites)

/-- The values of a tidy query that is selected are all referred to. -/
theorem selectsReference_of_tidy {held : Set Category} {k : Category} {text : String} {n : Nat}
    (hmem : .sub (.of c) asName ∈ b.columns) (htidy : c.Tidy held)
    (htext : (c.toAql n).1 = .ok text) (hname : name ∈ (c.bindings.bound k).keys) :
    b.SelectsReference name := by
  obtain ⟨herror, hgives⟩ := toAql_ok_iff.mp htext
  obtain ⟨-, hisName, hcites⟩ := htidy k name hname
  exact ⟨c, asName, text, hmem, fun m => toAql_ok_iff.mpr ⟨herror, hgives⟩,
    Aql.yields_cited hcites hisName 0 text (hgives 0)⟩

/-- There are no other references without a value. -/
theorem BackedBeside.yields_statement (h : b.BackedBeside) :
    b.statement.Yields (Covered (b.bindings.names ∪ {name | b.SelectsReference name})) := by
  refine Aql.yields_statement_beside ?_ fun s hs => ?_
  · have hmono : ∀ {names names' : Set String}, names ⊆ names' → ∀ f : Fragment,
        f.Within names → f.Within names' := fun hnames _ hf => hf.mono hnames
    exact h.rest.compiled_within.mono hmono Set.subset_union_left Set.subset_union_left
  · obtain ⟨selector, hselector, rfl⟩ := List.mem_map.mp hs
    have hwithin := h.columns selector hselector
    cases selector with
    | sub q asName =>
        obtain ⟨c⟩ := q
        refine ⟨?_, hwithin.2⟩
        dsimp only [Fragment.bare]
        cases herror : (Query.of c).fragment.error with
        | some e => exact yields_fail e
        | none =>
            intro n text htext name hname
            have hgives := (Query.steady_fragment (.of c)).statement.gives htext
            refine .inr ⟨c, asName, text, hselector, fun m => toAql_ok_iff.mpr ⟨?_, ?_⟩, hname⟩
            · rwa [error_fragment] at herror
            · exact fragment_statement_gives_iff.mp hgives
    | _ => exact hwithin

/-- A statement lacks the values of the references of the selected queries, and no others. -/
theorem BackedBeside.lacks_iff (h : b.BackedBeside) {compiled : Compiled} {n : Nat}
    (hcompiled : (b.toCompiled n).1 = .ok compiled) (name : String) :
    name ∈ references compiled.aql ∧ name ∉ compiled.bindings.keys ↔
      name ∉ b.bindings.names ∧ b.SelectsReference name := by
  obtain ⟨-, aql, haql, rfl⟩ := toCompiled_ok_iff.mp hcompiled
  have hkeys : name ∈ (Compiled.ofStore aql b.bindings).bindings.keys ↔
      name ∈ b.bindings.names ∧ mentions aql name = true := by
    rw [Compiled.keys_ofStore, List.mem_filter, Store.mem_keys_flatten]
  have hstored : name ∈ b.bindings.names → (mentions aql name = true ↔ name ∈ references aql) :=
    fun hname => mentions_iff (h.rest.named name hname)
  rw [hkeys]
  change name ∈ references aql ∧ _ ↔ _
  constructor
  · rintro ⟨hreference, hlacks⟩
    have hmissing : name ∉ b.bindings.names := fun hname =>
      hlacks ⟨hname, (hstored hname).mpr hreference⟩
    exact ⟨hmissing, (h.yields_statement 0 aql (haql 0) name hreference).resolve_left hmissing⟩
  · rintro ⟨hmissing, hselected⟩
    exact ⟨yields_cited_selected hselected 0 aql (haql 0), fun ⟨hname, _⟩ => hmissing hname⟩

/-- A builder that selects a query with an error does not compile. -/
theorem not_compiled_of_faulty_column {e : Error} (hmem : .sub (.of c) asName ∈ b.columns)
    (herror : c.error = some e) (n : Nat) (compiled : Compiled) :
    (b.toCompiled n).1 ≠ .ok compiled := by
  intro hcompiled
  obtain ⟨-, aql, haql, -⟩ := toCompiled_ok_iff.mp hcompiled
  have hvalue : (Query.of c).fragment.value.Yields fun _ => False := by
    unfold Fragment.value Fragment.embedded
    rw [error_fragment, herror]
    exact (yields_fail e).bind fun _ hnone => hnone
  have hcolumn : .sub (Query.of c).fragment asName ∈ b.compiled.columns :=
    List.mem_map.mpr ⟨_, hmem, rfl⟩
  exact Aql.yields_faulty_column hcolumn hvalue 0 aql (haql 0)

end statements

end Builder

section scripts

open Builder

/-- A selection stores its parts as they are. The error of the builder stays what it was. -/
theorem Call.Selects.run [Naming] {call : Call Script} (h : call.Selects) {b : Builder}
    (hb : b.BackedBeside) :
    (call.run b).Always fun b' => b'.BackedBeside ∧ b'.error = b.error := by
  cases call with
  | select selectors =>
      exact (Selector.within_evaluateAll (Selector.within_actionAll h)).map fun parts hparts =>
        ⟨hb.select hparts, b.error_select parts⟩
  | addSelect selectors =>
      exact (Selector.within_evaluateAll (Selector.within_actionAll h)).map fun parts hparts =>
        ⟨hb.addSelect hparts, b.error_addSelect parts⟩
  | _ => exact h.elim

/-- Calls that select leave a builder backed but for what they select, and raise no error. -/
theorem Call.Selects.runAll [Naming] {calls : List (Call Script)} (h : ∀ call ∈ calls, call.Selects)
    {b : Builder} (hb : b.BackedBeside) :
    (Call.applyAll (Script.actionCalls calls) b).Always fun b' =>
      b'.BackedBeside ∧ b'.error = b.error := by
  induction calls generalizing b with
  | nil => exact always_pure ⟨hb, rfl⟩
  | cons call rest ih =>
      refine ((h call List.mem_cons_self).run hb).bind fun b' ⟨hb', herror⟩ => ?_
      exact (ih (fun c hc => h c (List.mem_cons_of_mem call hc)) hb').mono fun _ ⟨hlast, hsame⟩ =>
        ⟨hlast, hsame.trans herror⟩

/-- Calls are made in order. -/
theorem Script.applyAll_append [Naming] (calls more : List (Call Script)) (b : Builder)
    (next : Nat) :
    Call.applyAll (actionCalls (calls ++ more)) b next =
      Call.applyAll (actionCalls more) (Call.applyAll (actionCalls calls) b next).1
        (Call.applyAll (actionCalls calls) b next).2 := by
  induction calls generalizing b next with
  | nil => rfl
  | cons call rest ih => exact ih _ _

/-- **Sub-queries among selected parts leave their values behind.** Behind a script without marks
any parts are selected, with sub-queries of any kind among them. The error of the builder stays what
it was, whatever errors the sub-queries have; a sub-query with an error only keeps the builder from
compiling. What the builder compiles to refers to names without a value just if the statement of a
selected sub-query refers to them and the builder has no value of that name itself. -/
theorem Script.Clean.selected_lack [Naming] {calls selections : List (Call Script)}
    (h : (Script.of calls).Clean) (hselections : ∀ call ∈ selections, call.Selects) (next : Nat) :
    let before := ((Script.of calls).build next).1
    let b := ((Script.of (calls ++ selections)).build next).1
    b.error = before.error ∧
    (∀ (c : Builder) (asName : String) (e : Error), .sub (.of c) asName ∈ b.columns →
      c.error = some e → ∀ n compiled, (b.toCompiled n).1 ≠ .ok compiled) ∧
    ∀ n compiled, (b.toCompiled n).1 = .ok compiled → ∀ name,
      (name ∈ references compiled.aql ∧ name ∉ compiled.bindings.keys ↔
        name ∉ b.bindings.names ∧ b.SelectsReference name) := by
  intro before b
  have hbuild : b = (Call.applyAll (actionCalls selections) before
      ((Script.of calls).build next).2).1 :=
    congrArg Prod.fst (applyAll_append calls selections _ _)
  have hbefore : before.BackedBeside := (h.build next).beside
  obtain ⟨hb, herror⟩ := Call.Selects.runAll hselections hbefore ((Script.of calls).build next).2
  rw [← hbuild] at hb herror
  exact ⟨herror, fun c asName e hmem he => not_compiled_of_faulty_column hmem he,
    fun n compiled hcompiled => hb.lacks_iff hcompiled⟩

/-- Characters of some age with their homes, by the name of the place. -/
theorem Script.homes_lack :
    let calls : List (Call Script) :=
      [.fromCollection "characters", .condition .filters .and "age" none (.value (.int32 41))]
    let place : Script := .of [.fromCollection "locations",
      .condition .filters .and "name" none (.value (.string "Winterfell"))]
    let selections : List (Call Script) := [.addSelect [.column "name", .sub place "home"]]
    let b := ((Script.of (calls ++ selections)).build 1).1
    (Script.of calls).Clean ∧ (∀ call ∈ selections, call.Selects) ∧ b.error = none ∧
      ∃ compiled, (b.toCompiled 3).1 = .ok compiled ∧ ∀ name,
        (name ∈ references compiled.aql ∧ name ∉ compiled.bindings.keys ↔
          name ∉ b.bindings.names ∧ b.SelectsReference name) := by
  intro calls place selections b
  have hcalls : (Script.of calls).Clean := by
    refine clean_of ⟨(by decide : Unmarked _), (by decide : Unmarked _), ?_, .value (by decide)⟩
    rintro a ⟨⟩
  have hselections : ∀ call ∈ selections, call.Selects := by
    intro call hcall
    rw [List.mem_singleton.mp hcall]
    exact List.forall_iff_forall_mem.mp
      ⟨(by decide : Unmarked "name"), trivial, (by decide : Unmarked "home")⟩
  obtain ⟨compiled, hcompiled⟩ :=
    exists_ok (by decide +kernel : (b.toCompiled 3).1.isOk = true)
  obtain ⟨herror, -, hlacks⟩ := hcalls.selected_lack hselections 1
  exact ⟨hcalls, hselections, herror.trans rfl, compiled, hcompiled, hlacks 3 compiled hcompiled⟩

/-- The name of a place is referred to and has no value. An order without a direction in the
sub-query is no error of the builder. -/
theorem Script.place_left_behind :
    let place : Script := .of [.fromCollection "locations",
      .condition .filters .and "name" none (.value (.string "Winterfell"))]
    let b := ((Script.of [.fromCollection "characters", .select [.sub place "home"]]).build 1).1
    let unordered : Script := .of [.fromCollection "locations", .orderBy "name" "upwards"]
    let b' := ((Script.of [.fromCollection "characters",
      .select [.sub unordered "home"]]).build 1).1
    (∃ compiled, (b.toCompiled 3).1 = .ok compiled ∧ "2_where_1" ∈ references compiled.aql ∧
      compiled.bindings.keys = []) ∧
    (unordered.build 2).1.error.isSome = true ∧ b'.error = none := by
  intro place b unordered b'
  have hfrugal : place.Frugal ∅ Set.univ :=
    .call ⟨Set.notMem_empty _, subset_rfl⟩ (.call ⟨Set.empty_subset _, Set.mem_univ _⟩
      (.nil subset_rfl))
  obtain ⟨text, htext⟩ :=
    exists_ok (by decide +kernel : ((place.build 2).1.toAql 3).1.isOk = true)
  have hbound : "2_where_1" ∈ ((place.build 2).1.bindings.bound .filter).keys := by decide +kernel
  have hselected : b.SelectsReference "2_where_1" :=
    selectsReference_of_tidy (List.mem_singleton_self _) (hfrugal.build 2) htext hbound
  obtain ⟨compiled, hcompiled⟩ :=
    exists_ok (by decide +kernel : (b.toCompiled 3).1.isOk = true)
  obtain ⟨-, aql, haql, rfl⟩ := toCompiled_ok_iff.mp hcompiled
  exact ⟨⟨_, hcompiled, yields_cited_selected hselected 0 aql (haql 0), rfl⟩, rfl, rfl⟩

end scripts

end AqlBuilder

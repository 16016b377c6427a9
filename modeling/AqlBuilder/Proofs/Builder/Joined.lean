import AqlBuilder.Alias.Rules
import AqlBuilder.Proofs.Builder.Narrowing
import AqlBuilder.Proofs.Column.Joined
import AqlBuilder.Proofs.Query.Fragment
import AqlBuilder.Proofs.Builder.Failure
import AqlBuilder.Statement.Compiled

/-!
# The main collection beside joins

A join under an alias of its own registers the joined collection and adds a clause; nothing else of
its builder changes. So a later clause reads a column as without the join, unless the path begins
with the joined collection, with its alias, or with a variable that goes with them. In the
conditions of the join the collections have the same names, but a column without a name belongs to
the joined documents: there the joined collection is the main loop.

- `Call.JoinsAs` are the calls that join a collection under an alias, and `Builder.JoinedAs` says
  what they do; by `Call.JoinsAs.apply` each call does it.
- `Builder.applyAll_joins` is a run of such calls, and `JoinedAs.reads_behind_joins` says how
  columns are read after a join and a run of further ones.
- `Builder.join_keeps_collections`: what the collections are called after a join.
-/

namespace AqlBuilder

open Supply

/-- A call that joins a collection under an alias. -/
inductive Call.JoinsAs {S : Type} (table asName : String) : Call S → Prop
  | join {text : String} (h : tableAndAlias text = (table, some asName)) (kind : JoinKind)
      (first : String) (operator : OperatorArgument) (second : String) :
      JoinsAs table asName (.join kind text first operator second)
  | joinWith {text : String} (h : tableAndAlias text = (table, some asName)) (kind : JoinKind)
      (calls : List (JoinCall S)) : JoinsAs table asName (.joinWith kind text calls)
  | crossJoin {text : String} (h : tableAndAlias text = (table, some asName)) :
      JoinsAs table asName (.crossJoin text)

namespace Builder

/-- A builder after a join of a collection under an alias. -/
structure JoinedAs (b : Builder) (table asName : String) (w : Builder) : Prop where
  source : w.source = b.source
  aliases : w.aliases = b.aliases.withTables (b.aliases.tables.put table asName)
  joins : ∃ kind joined, w.joins = b.joins ++ [⟨kind, .of joined⟩] ∧
    joined.scope = ⟨w.aliases.handedOn, some asName⟩

variable {b : Builder} {table asName text : String} {restrict : Builder → Supply Builder}

/-- Apart from its clause a join changes nothing but values. -/
theorem narrows_pushJoin (b : Builder) (kind : JoinKind) (joined : Builder) :
    Narrows { b with joins := b.joins ++ [⟨kind, .of joined⟩] } (b.pushJoin kind joined) := by
  have habsorbed := (SameClauses.absorb b joined .join).narrows
  unfold pushJoin
  generalize b.absorb joined .join = w at habsorbed ⊢
  refine ⟨?_, habsorbed.filters, habsorbed.havings⟩
  have hjoined : ∀ c : Builder, Clauses.around
      { c with joins := c.joins ++ [⟨kind, .of joined⟩] } =
        { c.around with joins := c.around.joins ++ [⟨kind, .of joined⟩] } := fun _ => rfl
  rw [hjoined, hjoined, habsorbed.around]

/-- Conditions do not change the main loop of a join. -/
theorem always_joinClause (b : Builder) (kind : JoinKind) (table asName : String)
    (hrestrict : ∀ joined, (restrict joined).Always joined.Narrows) :
    (do
      let joined ← b.forSubQuery
      let joined ← restrict { joined with source := some (.collection table asName) }
      pure (b.pushJoin kind joined) : Supply Builder).Always fun w =>
        ∃ joined, Narrows { b with joins := b.joins ++ [⟨kind, .of joined⟩] } w ∧
          joined.scope = ⟨b.aliases.handedOn, some asName⟩ := by
  have hfresh : b.forSubQuery.Always (·.aliases = b.aliases.handedOn) := fun _ => rfl
  refine hfresh.bind fun q hq => (hrestrict _).bind fun joined hjoined => always_pure ?_
  refine ⟨joined, b.narrows_pushJoin kind joined, hjoined.scope.trans ?_⟩
  rw [← hq]
  rfl

/-- A join under an alias registers its collection and adds a clause. -/
theorem joinedAs_joinWith [Naming] (herror : b.error = none)
    (htext : tableAndAlias text = (table, some asName)) (kind : JoinKind)
    (hrestrict : ∀ joined, (restrict joined).Always joined.Narrows) :
    (b.joinWith kind text restrict).Always (b.JoinedAs table asName) := by
  have hregister : b.register text = (table, asName,
      { b with aliases := b.aliases.withTables (b.aliases.tables.put table asName) }) := by
    unfold register
    rw [htext]
    rfl
  unfold joinWith
  rw [unlessFailedM_of_free herror, hregister]
  refine (always_joinClause _ kind table asName hrestrict).mono fun w hw => ?_
  obtain ⟨joined, hpushed, hscope⟩ := hw
  refine ⟨hpushed.source, hpushed.aliases, kind, joined, hpushed.joins, hscope.trans ?_⟩
  rw [hpushed.aliases]

end Builder

open Builder

variable {b : Builder} {call : Call Action} {table asName t a : String}

/-- So does every call that joins a collection under an alias. -/
theorem Call.JoinsAs.apply [Naming] (h : call.JoinsAs table asName) (herror : b.error = none) :
    (call.apply b).Always (b.JoinedAs table asName) := by
  cases h with
  | join htext kind first operator second =>
      have hclause := joinedAs_joinWith herror htext kind fun joined =>
        always_pure (joined.narrows_compareColumns .and first operator.operator second)
      exact hclause
  | joinWith htext kind calls =>
      have hclause := joinedAs_joinWith herror htext kind fun joined =>
        JoinCall.narrows_applyAll joined calls
      exact hclause
  | crossJoin htext =>
      have hclause := joinedAs_joinWith herror htext .cross fun joined => always_pure (.refl joined)
      exact hclause

/-- Such calls are among those that an error keeps from doing anything. -/
theorem Call.JoinsAs.mutates (h : call.JoinsAs table asName) : call.Mutates := by
  cases h <;> trivial

namespace Builder

/-- A path is read as before collections were registered unless it begins with a name that they
touch. -/
theorem resolve_eq_of_tables {w : Builder} {loop : Option String} {joins : Entries String}
    {later : Registry} {column : String}
    (haliases : w.aliases = b.aliases.withTables (b.aliases.tables.putAll joins))
    (hnames : ∀ name, Scope.Begins ⟨later.withTables b.aliases.tables, loop⟩ column name →
      Registry.Beside b.aliases.tables joins name ∧
        Registry.SameAt w.aliases.tables later.tables name) :
    (⟨later, loop⟩ : Scope).resolve column =
      (⟨later.withTables b.aliases.tables, loop⟩ : Scope).resolve column := by
  rw [haliases] at hnames
  have hread : (Scope.withTables ⟨later.withTables b.aliases.tables, loop⟩ later.tables).resolve
      column = (⟨later.withTables b.aliases.tables, loop⟩ : Scope).resolve column :=
    Scope.resolve_behind_joins hnames
  exact hread

section runs

variable {calls : List (Call Action)} {joins : Entries String}
  (h : List.Forall₂ (fun call join => Call.JoinsAs join.1 join.2 call) calls joins)

include h

/-- A run of joins is a run of calls that an error keeps from doing anything. -/
theorem mutates_of_joins : ∀ call ∈ calls, call.Mutates := by
  induction h with
  | nil => exact fun _ hmem => absurd hmem List.not_mem_nil
  | cons hfirst _ ih => exact List.forall_mem_cons.mpr ⟨hfirst.mutates, ih⟩

/-- Joins under aliases register their collections one after the other. -/
theorem applyAll_joins [Naming] (b : Builder) :
    (Call.applyAll calls b).Always fun w => w.error = none →
    w.source = b.source ∧ w.aliases = b.aliases.withTables (b.aliases.tables.putAll joins) := by
  induction h generalizing b with
  | nil => exact always_pure fun _ => ⟨rfl, rfl⟩
  | cons hfirst hrest ih =>
      rename_i call join calls joins
      cases herror : b.error with
      | some e =>
          -- After an error nothing is registered, but then there is no statement either.
          have hmutates := List.forall_mem_cons.mpr ⟨hfirst.mutates, mutates_of_joins hrest⟩
          exact (Call.error_applyAll hmutates herror).mono fun w hw hfree =>
            nomatch hw.symm.trans hfree
      | none =>
          refine (hfirst.apply herror).bind fun w hw => (ih w).mono fun w' hw' hfree => ?_
          obtain ⟨hsource, haliases⟩ := hw' hfree
          refine ⟨hsource.trans hw.source, haliases.trans ?_⟩
          rw [hw.aliases]
          rfl

end runs

namespace JoinedAs

variable {w : Builder} {name docVar : String} {loop : Option String} (h : b.JoinedAs table asName w)

include h

/-- Of the names of collections a join changes one. -/
theorem tableVariable?_eq (name : String) : w.aliases.tableVariable? name =
    if table = name then some asName else b.aliases.tableVariable? name := by
  rw [h.aliases]
  exact Entries.get?_put _ _ _ _

theorem tableVariable?_table : w.aliases.tableVariable? table = some asName :=
  (h.tableVariable?_eq table).trans (if_pos rfl)

/-- Other collections keep their variables. -/
theorem tableVariable?_other (hother : name ≠ table)
    (hvariable : b.aliases.tableVariable? name = some docVar) :
    w.aliases.tableVariable? name = some docVar :=
  (h.tableVariable?_eq name).trans ((if_neg (Ne.symm hother)).trans hvariable)

/-- The alias is no other collection if it was none. -/
theorem eq_asName (hnew : b.aliases.tableVariable? asName = none) {v : String}
    (hv : w.aliases.tableVariable? asName = some v) : v = asName := by
  rw [h.tableVariable?_eq, hnew] at hv
  split at hv
  · exact (Option.some.inj hv).symm
  · cases hv

/-- A path is read as before unless it begins with a name that the join touches. -/
theorem resolve_eq {later : Registry} {column : String}
    (hnames : ∀ name, Scope.Begins ⟨later.withTables b.aliases.tables, loop⟩ column name →
      Registry.Beside b.aliases.tables [(table, asName)] name ∧
        Registry.SameAt w.aliases.tables later.tables name) :
    (⟨later, loop⟩ : Scope).resolve column =
      (⟨later.withTables b.aliases.tables, loop⟩ : Scope).resolve column :=
  resolve_eq_of_tables h.aliases hnames

/-- The same holds after any number of further joins and the names that they touch. Here `later` are
the names that the reading clause can see; at the name in front of the path they are those after the
joins. -/
theorem reads_behind_joins [Naming] {calls : List (Call Action)} {joins : Entries String}
    (hjoins : List.Forall₂ (fun call join => Call.JoinsAs join.1 join.2 call) calls joins) :
    (Call.applyAll calls w).Always fun w' => w'.error = none →
      ∀ (later : Registry) (column : String),
        let before : Scope := ⟨later.withTables b.aliases.tables, b.docVar⟩
        (∀ name, before.Begins column name →
          Registry.Beside b.aliases.tables ((table, asName) :: joins) name ∧
            Registry.SameAt w'.aliases.tables later.tables name) →
        (⟨later, w'.docVar⟩ : Scope).resolve column = before.resolve column := by
  refine (applyAll_joins hjoins w).mono ?_
  intro w' hw' herror later column before hnames
  obtain ⟨hsource, haliases⟩ := hw' herror
  have hdocVar : w'.docVar = b.docVar :=
    congrArg (Option.map Source.docVar) (hsource.trans h.source)
  rw [hdocVar]
  refine resolve_eq_of_tables (haliases.trans ?_) hnames
  rw [h.aliases]
  rfl

end JoinedAs

/-- **What a join calls the collections.**  Let a builder join a collection under an alias that
names no collection. A later clause reads a column as without the join if the path does not begin
with the joined collection, with the alias, or with a variable that only the joined collection had,
and after any number of further joins, if it does not begin with such a name of one of them either.
All other collections, such as the one of the main loop, keep their variables: paths behind them are
written behind the same variables before and after the join, and paths behind the alias behind the
alias. So they are in the conditions of the join. But there a column without a known name is an
attribute of the joined documents. -/
theorem join_keeps_collections [Naming] {b : Builder} {call : Call Action} {table asName : String}
    (hjoin : call.JoinsAs table asName) (herror : b.error = none)
    (hnew : b.aliases.tableVariable? asName = none) :
    (call.apply b).Always fun w => w.source = b.source ∧
      ∃ kind joined, w.joins = b.joins ++ [⟨kind, .of joined⟩] ∧
      let before (later : Registry) : Scope := ⟨later.withTables b.aliases.tables, b.docVar⟩
      let after (later : Registry) : Scope := ⟨later, w.docVar⟩
      let own : Scope := ⟨w.aliases.handedOn, some asName⟩
      (∀ later column, (∀ name, (before later).Begins column name →
          Registry.Beside b.aliases.tables [(table, asName)] name ∧
            Registry.SameAt w.aliases.tables later.tables name) →
        (after later).resolve column = (before later).resolve column) ∧
      (∀ calls joins, List.Forall₂ (fun call join => Call.JoinsAs join.1 join.2 call) calls joins →
        (Call.applyAll calls w).Always fun w' => w'.error = none → ∀ later column,
          (∀ name, (before later).Begins column name →
            Registry.Beside b.aliases.tables ((table, asName) :: joins) name ∧
              Registry.SameAt w'.aliases.tables later.tables name) →
          (⟨later, w'.docVar⟩ : Scope).resolve column = (before later).resolve column) ∧
      (∀ name docVar, name ≠ table → b.aliases.tableVariable? name = some docVar →
        (∀ later, Registry.SameAt w.aliases.tables later.tables name →
          (before later).Writes name docVar ∧ (after later).Writes name docVar) ∧
        own.Writes name docVar) ∧
      (∀ later, Registry.SameAt w.aliases.tables later.tables asName →
        (after later).Writes asName asName) ∧
      own.Writes asName asName ∧
      (Query.of joined).fragment.conditions =
        Aql.conditions own (joined.filters.map (Condition.map Query.fragment)) ∧
      ∀ column, own.aliases.Unnamed column →
        own.resolve column = Column.pathText asName
          (Column.segments (Column.normalForm column.toList)) := by
  refine (hjoin.apply herror).mono fun w hw => ?_
  obtain ⟨kind, joined, hjoins, hscope⟩ := hw.joins
  refine ⟨hw.source, kind, joined, hjoins, ?_⟩
  intro before after own
  refine ⟨fun later column hnames => ?_, fun calls joins hcalls => hw.reads_behind_joins hcalls,
    fun name docVar hother hvariable => ?_, fun later hsame => ?_, ?_, ?_, fun column hcolumn =>
      Scope.resolve_of_unnamed rfl hcolumn⟩
  · have hafter : after later = ⟨later, b.docVar⟩ :=
      congrArg (fun s => Scope.mk later (Option.map Source.docVar s)) hw.source
    rw [hafter]
    exact hw.resolve_eq hnames
  · have hkept := hw.tableVariable?_other hother hvariable
    refine ⟨fun later hsame => ⟨Scope.writes_collection hvariable, ?_⟩, ?_⟩
    · exact Scope.writes_collection (hsame.collection.trans hkept)
    · exact Scope.writes_collection ((Registry.tableVariable?_handedOn name).trans hkept)
  · have hused := Registry.isTableVariable_of_tableVariable? hw.tableVariable?_table
    refine Scope.writes_variable (hsame.isTableVariable hused fun v => hw.eq_asName hnew) ?_
    exact fun v hv => hw.eq_asName hnew (hsame.collection.symm.trans hv)
  · have hown : own.aliases.tableVariable? table = some asName :=
      (Registry.tableVariable?_handedOn table).trans hw.tableVariable?_table
    refine Scope.writes_variable (Registry.isTableVariable_of_tableVariable? hown) fun v hv => ?_
    exact hw.eq_asName hnew ((Registry.tableVariable?_handedOn asName).symm.trans hv)
  · have hcompiled : (Builder.compiled joined).scope = joined.scope :=
      Clauses.scope_map Query.fragment joined
    rw [Query.conditions_fragment, hcompiled, hscope]

/-- In the conditions of a join a column without a name is not one of the main collection. -/
theorem own_condition_reads_joined :
    let b := fromCollection (Clauses.empty 1) "people"
    let joined := (b.join .inner "locations as l" "name" (.ok .equal) "l.owner" 2).1
    b.scope.resolve "name" = "personDoc.\x60name\x60" ∧
      (joined.toAql 3).1.toOption = some
        ("FOR personDoc IN people FOR l IN locations " ++
          "FILTER l.\x60name\x60 == l.\x60owner\x60 RETURN MERGE(personDoc, l)") := by
  exact ⟨by decide +kernel, by decide +kernel⟩

/-- The names of two collections side by side. -/
theorem characters_beside_locations :
    let b := fromCollection (Clauses.empty 1) "characters"
    ((Call.crossJoin "locations as l" : Call Action).apply b).Always fun w =>
      w.scope.Writes "characters" "characterDoc" ∧ w.scope.Writes "l" "l" := by
  rw [fromCollection_unnamed (by decide) Alias.documentVariable_characters]
  intro b
  have hjoin : (Call.crossJoin "locations as l" : Call Action).JoinsAs "locations" "l" :=
    .crossJoin (by decide)
  refine (join_keeps_collections hjoin (by decide) (by decide)).mono fun w hw => ?_
  obtain ⟨-, kind, joined, -, -, -, hothers, hasName, -⟩ := hw
  have hmain := (hothers "characters" "characterDoc" (by decide) (by decide +kernel)).1
  exact ⟨(hmain w.aliases (.refl _ _)).2, hasName w.aliases (.refl _ _)⟩

end Builder

end AqlBuilder

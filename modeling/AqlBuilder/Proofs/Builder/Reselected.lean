import AqlBuilder.Alias.Rules
import AqlBuilder.Proofs.Binding.Store
import AqlBuilder.Proofs.Builder.Narrowing
import AqlBuilder.Proofs.Builder.Blind
import AqlBuilder.Proofs.Column.Trail
import AqlBuilder.Proofs.Builder.Failure
import AqlBuilder.Proofs.Statement.Copied
import Mathlib.Data.List.Find

/-!
# Selecting again

A selection takes the place of what was selected before: the parts of the earlier projection are
gone, and so are the values that were bound for it. But the names that it had given stay in the
registry. A column that was selected under an alias is still known by it, and the name of a selected
query is still a variable, though no clause defines it any more. So the statement is the one that it
would be without the earlier selections, as long as the columns in it keep to names of which these
have left no trace.

- `Call.Projects` are the calls that select something, and `Builder.Projected` is what they leave
  behind; by `Builder.applyAll_projected` it is what a run of them leaves behind.
- `Registry.Traced` are the names that they may have changed.
- `Builder.select_replaces`: the same statement, but for these names.
-/

namespace AqlBuilder

open Supply

/-- The entry that a part of a projection makes in the table of columns. -/
def Selector.renamed? {Q : Type} : Selector Q → Option (String × String)
  | .aliased name asName => some (name, asName)
  | _ => none

namespace Call

variable {S : Type}

/-- A call that selects something. -/
def Projects : Call S → Prop
  | .select _ | .addSelect _ | .selectRaw _ _ | .selectQuery _ _ => True
  | _ => False

/-- The columns that a call selects under an alias, with their aliases. -/
def renamed : Call S → Entries String
  | .select selectors | .addSelect selectors => selectors.filterMap Selector.renamed?
  | _ => []

/-- The name under which a call selects a query. -/
def queryNames : Call S → List String
  | .selectQuery _ asName => [asName]
  | _ => []

end Call

/-- The registry after columns were selected under aliases and queries under names. -/
def Registry.project (r : Registry) (renamed : Entries String) (names : List String) : Registry :=
  ⟨r.tables, r.columns.putAll renamed, r.definitions.putAll (names.map fun name => (name, name))⟩

/-- A name of which selections may have left a trace: an alias of one of their columns, the name of
one of their queries, or what such a name stood for before. -/
inductive Registry.Traced (columns names : List String) (r r' : Registry) (name : String) : Prop
  | column {column : String} (h : column ∈ columns)
      (hentry : (column, name) ∈ r.columns ∨ (column, name) ∈ r'.columns) :
      Traced columns names r r' name
  | query (h : name ∈ names) : Traced columns names r r' name
  | hidden {other : String} (h : other ∈ names) (hentry : (other, name) ∈ r.definitions) :
      Traced columns names r r' name

namespace Entries

variable {α : Type} {name : String}

/-- Values under keys that are left out make no difference, -/
theorem filter_put (keep : String → Bool) (key : String) (v : α) (entries : Entries α) :
    (put key v entries).filter (fun entry => keep entry.1) =
      if keep key then put key v (entries.filter fun entry => keep entry.1)
      else entries.filter fun entry => keep entry.1 := by
  induction entries with
  | nil => by_cases hkeep : keep key <;> simp [put, hkeep]
  | cons pair rest ih =>
      obtain ⟨k, w⟩ := pair
      rw [put]
      by_cases hk : k = key
      · subst hk
        by_cases hkeep : keep k <;> simp [put, hkeep]
      · rw [if_neg hk, List.filter_cons, List.filter_cons, ih]
        by_cases hkeep : keep k
        · rw [if_pos hkeep, if_pos hkeep, put, if_neg hk]
          split <;> rfl
        · rw [if_neg hkeep, if_neg hkeep]

/-- also where further values are put. -/
theorem filter_putAll_congr {keep : String → Bool} {first second : Entries α}
    (h : first.filter (fun entry => keep entry.1) = second.filter fun entry => keep entry.1)
    (pairs : Entries α) : (first.putAll pairs).filter (fun entry => keep entry.1) =
      (second.putAll pairs).filter fun entry => keep entry.1 := by
  induction pairs generalizing first second with
  | nil => exact h
  | cons pair rest ih =>
      refine ih ?_
      rw [filter_put, filter_put, h]

/-- Entries under dropped keys are gone wherever they are put. -/
theorem filter_putAll_of_dropped {keep : String → Bool} {entries pairs : Entries α}
    (h : ∀ pair ∈ pairs, keep pair.1 = false) :
    (entries.putAll pairs).filter (fun entry => keep entry.1) =
      entries.filter fun entry => keep entry.1 := by
  induction pairs generalizing entries with
  | nil => rfl
  | cons pair rest ih =>
      obtain ⟨hpair, hrest⟩ := List.forall_mem_cons.mp h
      refine (ih hrest).trans ?_
      rw [filter_put, hpair]
      rfl

/-- Names that stand for themselves change nothing at another name that none of them stood for. -/
theorem alikeAt_putAll_self {names : List String} {entries : Entries String} (hname : name ∉ names)
    (hold : ∀ other ∈ names, (other, name) ∉ entries) :
    AlikeAt name entries (entries.putAll (names.map fun n => (n, n))) := by
  induction names generalizing entries with
  | nil => exact .refl name entries
  | cons first rest ih =>
      have hfirst : name ≠ first := fun h => hname (h ▸ List.mem_cons_self)
      have hrest : name ∉ rest := fun h => hname (List.mem_cons_of_mem _ h)
      obtain ⟨hfirstOld, hrestOld⟩ := List.forall_mem_cons.mp hold
      refine (alikeAt_put (Ne.symm hfirst) (Ne.symm hfirst) hfirstOld).trans (ih hrest ?_)
      intro other hother hmem
      rcases mem_put hmem with hmem | heq
      · exact hrestOld other hother hmem
      · exact hfirst (Prod.mk.inj heq).2

end Entries

namespace Registry

variable {r r' : Registry} {name : String}

/-- A name that is no value in the tables, and no name of a query. -/
theorem not_traced_of_unused {columns names : List String}
    (hcolumns : name ∉ (r.columns ++ r'.columns).map Prod.snd) (hnames : name ∉ names)
    (hdefinitions : name ∉ r.definitions.map Prod.snd) : ¬ Traced columns names r r' name := by
  rintro (⟨-, hentry⟩ | h | ⟨-, hentry⟩)
  · exact hcolumns (List.mem_map.mpr ⟨_, List.mem_append.mpr hentry, rfl⟩)
  · exact hnames h
  · exact hdefinitions (List.mem_map.mpr ⟨_, hentry, rfl⟩)

/-- The first column with a name is among the columns that are kept, if no other has the name. -/
theorem columnFor?_filter (keep : String → Bool)
    (h : ∀ column, keep column = false → (column, name) ∉ r.columns) :
    r.columnFor? name =
      ((r.columns.filter fun entry => keep entry.1).find? fun entry => entry.2 = name).map
        (·.1) := by
  unfold columnFor?
  rw [List.find?_filter]
  refine congrArg _ (List.find?_congr fun entry hentry => ?_)
  by_cases hname : entry.2 = name
  · have hkeep : keep entry.1 = true := by
      by_contra hdropped
      exact h entry.1 (Bool.eq_false_iff.mpr hdropped) (hname ▸ hentry)
    simp [hname, hkeep]
  · simp [hname]

/-- Selections change nothing at the names that they leave no trace of. -/
theorem agreesAt_project {renamed further : Entries String} {names among : List String}
    (hnames : names ⊆ among)
    (h : ¬ Traced (Entries.keys renamed) among (r.project further [])
      ((r.project renamed names).project further []) name) :
    (r.project further []).AgreesAt ((r.project renamed names).project further []) name where
  column := by
    let keep : String → Bool := fun column => !(Entries.keys renamed).contains column
    have hcolumns : ((r.columns.putAll renamed).putAll further).filter (fun entry => keep entry.1) =
        (r.columns.putAll further).filter fun entry => keep entry.1 := by
      refine Entries.filter_putAll_congr (Entries.filter_putAll_of_dropped fun pair hpair => ?_) _
      have hmem : pair.1 ∈ Entries.keys renamed := List.mem_map_of_mem hpair
      simp [keep, hmem]
    have hdropped : ∀ column, keep column = false → column ∈ Entries.keys renamed := by
      intro column hcolumn
      simpa [keep] using hcolumn
    rw [columnFor?_filter keep fun column hcolumn hmem =>
        h (.column (hdropped column hcolumn) (.inr hmem)),
      columnFor?_filter keep fun column hcolumn hmem =>
        h (.column (hdropped column hcolumn) (.inl hmem))]
    exact congrArg (fun columns => (columns.find? fun entry => entry.2 = name).map (·.1)) hcolumns
  definitions := Entries.alikeAt_putAll_self (fun hmem => h (.query (hnames hmem)))
    fun other hother hmem => h (.hidden (hnames hother) hmem)

end Registry

namespace Store

variable {s : Store}

/-- Of two replacements of one category the second counts. -/
theorem withCategory_withCategory (category : Category) (values others : Bindings) :
    (s.withCategory category values).withCategory category others =
      s.withCategory category others := by
  unfold withCategory
  congr 1
  funext c
  by_cases hc : c = category <;> simp [hc]

/-- Values that were taken over are replaced with the others of their category. -/
theorem set_merge (other : Store) (values : Bindings) (category : Category) :
    (s.merge other (some category)).set values category = s.set values category :=
  merge_induction (motive := fun t => t.set values category = s.set values category) rfl
    fun _ _ h => (withCategory_withCategory category _ _).trans h

end Store

namespace Builder

variable {b w w' : Builder} {renamed further : Entries String} {names others : List String}

/-- A builder after selections: its projection, its values and its error are other ones, and the
registry has the names that the selections gave. Only values of the projection have changed. -/
def Projected (b : Builder) (renamed : Entries String) (names : List String) (w : Builder) : Prop :=
  ∃ columns bindings error, bindings.set [] .select = b.bindings.set [] .select ∧
    w = { b with
      columns := columns
      bindings := bindings
      aliases := b.aliases.project renamed names
      error := error }

namespace Projected

theorem refl (b : Builder) : b.Projected [] [] b := ⟨b.columns, b.bindings, b.error, rfl, rfl⟩

theorem trans (h : b.Projected renamed names w) (h' : w.Projected further others w') :
    b.Projected (renamed ++ further) (names ++ others) w' := by
  obtain ⟨columns, bindings, error, hbindings, rfl⟩ := h
  obtain ⟨columns', bindings', error', hbindings', rfl⟩ := h'
  refine ⟨columns', bindings', error', hbindings'.trans hbindings, ?_⟩
  unfold Registry.project
  rw [List.map_append, Entries.putAll_append, Entries.putAll_append]

end Projected

/-- The builder with more columns, in terms of its parts. -/
theorem addSelect_eq (b : Builder) (selectors : List (Selector Query)) :
    b.addSelect selectors = { b with
      columns := b.columns ++ selectors
      aliases := b.aliases.project (selectors.filterMap Selector.renamed?) [] } := by
  induction selectors generalizing b with
  | nil =>
      rw [List.append_nil]
      rfl
  | cons s rest ih =>
      change (b.selectOne s).addSelect rest = _
      rw [ih, List.append_cons]
      cases s <;> rfl

/-- A selection replaces the projection and its values, and adds the names that it gives. -/
theorem select_eq (b : Builder) (selectors : List (Selector Query)) :
    b.select selectors = { b with
      columns := selectors
      bindings := b.bindings.set [] .select
      aliases := b.aliases.project (selectors.filterMap Selector.renamed?) [] } :=
  addSelect_eq _ selectors

/-- What is selected then takes the place of these selections. -/
theorem Projected.select_eq (h : b.Projected renamed names w) (selectors : List (Selector Query)) :
    w.select selectors = { b.select selectors with
      aliases := (b.aliases.project renamed names).project
        (selectors.filterMap Selector.renamed?) []
      error := w.error } := by
  obtain ⟨columns, bindings, error, hbindings, rfl⟩ := h
  rw [Builder.select_eq, Builder.select_eq, hbindings]

/-- Selecting a query leaves the trace of its name at most. -/
theorem projected_selectQuery [Naming] (b : Builder) (sub : SubQuery) (asName : String) :
    (b.selectQuery sub asName).Always fun w =>
      ∃ names, names ⊆ [asName] ∧ b.Projected [] names w := by
  refine always_unlessFailedM ⟨[], List.nil_subset _, .refl b⟩ ?_
  have hadopt : (b.adopt sub .select).Always fun r => ∃ bindings error,
      bindings.set [] .select = b.bindings.set [] .select ∧
        r.2 = { b with bindings := bindings, error := error } :=
    always_true.bind fun query _ => always_pure ⟨_, _, Store.set_merge _ [] .select, rfl⟩
  refine hadopt.map fun r ⟨bindings, error, hbindings, hr⟩ => ⟨[asName], List.Subset.refl _, ?_⟩
  obtain ⟨query, w⟩ := r
  obtain rfl : w = { b with bindings := bindings, error := error } := hr
  exact ⟨_, bindings, error, hbindings, rfl⟩

/-- The entries that parts of a projection make do not depend on their queries. -/
theorem renamed_evaluate (selectors : List (Selector Action)) :
    (Supply.each Selector.evaluate selectors).Always fun parts =>
      parts.filterMap Selector.renamed? = selectors.filterMap Selector.renamed? := by
  induction selectors with
  | nil => exact always_pure rfl
  | cons s rest ih =>
      have hfirst : s.evaluate.Always fun part => part.renamed? = s.renamed? := by
        cases s with
        | sub script asName => exact always_true.bind fun _ _ => always_true.map fun _ _ => rfl
        | _ => exact always_pure rfl
      refine hfirst.bind fun part hpart => ih.map fun parts hparts => ?_
      rw [List.filterMap_cons, List.filterMap_cons, hpart, hparts]

/-- What a call that selects something leaves behind. -/
theorem apply_projected [Naming] {call : Call Action} (h : call.Projects) (b : Builder) :
    (call.apply b).Always fun w =>
      ∃ names, names ⊆ call.queryNames ∧ b.Projected call.renamed names w := by
  cases call with
  | select selectors =>
      refine (renamed_evaluate selectors).map fun parts hparts => ⟨[], List.nil_subset _, ?_⟩
      have hcleared : (b.bindings.set [] .select).set [] .select = b.bindings.set [] .select :=
        Store.withCategory_withCategory ..
      rw [select_eq, hparts]
      exact ⟨_, _, _, hcleared, rfl⟩
  | addSelect selectors =>
      refine (renamed_evaluate selectors).map fun parts hparts => ⟨[], List.nil_subset _, ?_⟩
      rw [addSelect_eq, hparts]
      exact ⟨_, _, _, rfl, rfl⟩
  | selectRaw aql asName => exact always_pure ⟨[], List.nil_subset _, _, _, _, rfl, rfl⟩
  | selectQuery sub asName =>
      exact always_true.bind fun query _ => projected_selectQuery b query asName
  | _ => exact h.elim

/-- What a run of them leaves behind. -/
theorem applyAll_projected [Naming] {calls : List (Call Action)} (h : ∀ call ∈ calls, call.Projects)
    (b : Builder) : (Call.applyAll calls b).Always fun w =>
      ∃ names, names ⊆ calls.flatMap Call.queryNames ∧
        b.Projected (calls.flatMap Call.renamed) names w := by
  induction calls generalizing b with
  | nil => exact always_pure ⟨[], List.nil_subset _, .refl b⟩
  | cons call rest ih =>
      obtain ⟨hcall, hrest⟩ := List.forall_mem_cons.mp h
      refine (apply_projected hcall b).bind fun w ⟨names, hnames, hw⟩ => ?_
      refine (ih hrest w).mono fun w' ⟨others, hothers, hw'⟩ => ⟨names ++ others, ?_, hw.trans hw'⟩
      rw [List.flatMap_cons]
      exact List.append_subset.mpr ⟨List.subset_append_of_subset_left _ hnames,
        List.subset_append_of_subset_right _ hothers⟩

/-- A builder compiles alike in a registry in which it reads alike. -/
theorem toCompiled_withAliases {r : Registry} (h : b.ReadsAlike r) (m n : Nat) :
    (toCompiled (b.withAliases r) m).1 = (b.toCompiled n).1 := by
  have hcompiled : b.compiled.ReadsAlike r := by
    refine ⟨fun column hcolumn announced => ?_, fun table htable => ?_⟩
    · have hdocVar : b.compiled.docVar = b.docVar := congrArg Scope.docVar (Clauses.scope_map _ b)
      rw [hdocVar]
      exact h.columns column (Clauses.columnNames_map Query.fragment b ▸ hcolumn) announced
    · exact h.documents table (Clauses.documentTables_map Query.fragment b ▸ htable)
  have hstatement : statement (b.withAliases r) = b.statement := Aql.statement_alike hcompiled
  cases herror : b.error with
  | some e =>
      have herror' : (b.withAliases r).error = some e := herror
      unfold toCompiled check
      rw [herror, herror']
      rfl
  | none =>
      have herror' : (b.withAliases r).error = none := herror
      rw [toCompiled_eq herror, toCompiled_eq herror', hstatement]
      exact b.steady_statement.map.eq _ _

/-- After calls that do not look at names, too, if the columns of all clauses keep to names at which
the registries agree. -/
theorem toCompiled_applyAll_withAliases [Naming] {later : List (Call Action)} {r : Registry}
    (hlater : ∀ call ∈ later, call.Blind) (htables : r.tables = b.aliases.tables) {n : Nat}
    (hkeeps : ∀ column ∈ (Call.applyAll later b n).1.columnNames,
      (Call.applyAll later b n).1.scope.KeepsTo
        ((Call.applyAll later b n).1.aliases.AgreesAt r) column) (i j : Nat) :
    ((Call.applyAll later (b.withAliases r) n).1.toCompiled i).1 =
      ((Call.applyAll later b n).1.toCompiled j).1 := by
  have hnames := Call.aliases_applyAll hlater b n
  have hafter : (Call.applyAll later (b.withAliases r) n).1 =
      (Call.applyAll later b n).1.withAliases r :=
    congrArg (fun x => (x n).1) (Call.applyAll_withAliases hlater b r)
  rw [hafter]
  generalize (Call.applyAll later b n).1 = w at hnames hkeeps ⊢
  refine toCompiled_withAliases ⟨fun column hcolumn announced => ?_, fun table _ => ?_⟩ i j
  · exact (hkeeps column hcolumn).resolve_announce (hnames ▸ htables) announced
  · unfold Registry.tableVariable?
    rw [htables, hnames]

/-- **What is left of earlier selections.**  Let a builder select something by any number of calls,
and then the given parts, which take the place of the earlier projection. Apart from its registry
and its error it is the builder that selects the parts alone, and the two registries agree at every
name of which the earlier calls leave no trace. So a column is written alike before and behind
groups if it keeps to names at which they agree. If the earlier calls make no error, and conditions,
groups, orders and limits follow, then the two compile to the same statement with the same values as
long as each column in it is of this kind. -/
theorem select_replaces [Naming] {b : Builder} {calls later : List (Call Action)}
    (hcalls : ∀ call ∈ calls, call.Projects) (hlater : ∀ call ∈ later, call.Blind)
    (selectors : List (Selector Query)) (next : Nat) :
    let u := (Call.applyAll calls b next).1
    let alone := b.select selectors
    let again := u.select selectors
    again = { alone with aliases := again.aliases, error := u.error } ∧
    (∀ name, ¬ Registry.Traced (Entries.keys (calls.flatMap Call.renamed))
        (calls.flatMap Call.queryNames) alone.aliases again.aliases name →
      alone.aliases.AgreesAt again.aliases name) ∧
    (∀ column, alone.scope.KeepsTo (alone.aliases.AgreesAt again.aliases) column → ∀ announced,
      (⟨again.aliases.announce announced, again.docVar⟩ : Scope).resolve column =
        (⟨alone.aliases.announce announced, alone.docVar⟩ : Scope).resolve column) ∧
    (u.error = b.error → ∀ n,
      let w := (Call.applyAll later alone n).1
      (∀ column ∈ w.columnNames, w.scope.KeepsTo (w.aliases.AgreesAt again.aliases) column) →
      ∀ i j, ((Call.applyAll later again n).1.toCompiled i).1 = (w.toCompiled j).1) := by
  intro u alone again
  obtain ⟨names, hnames, hprojected⟩ := applyAll_projected hcalls b next
  have hagain : again = { alone with
      aliases := (b.aliases.project (calls.flatMap Call.renamed) names).project
        (selectors.filterMap Selector.renamed?) []
      error := u.error } := hprojected.select_eq selectors
  have halone : alone.aliases = b.aliases.project (selectors.filterMap Selector.renamed?) [] :=
    congrArg Clauses.aliases (select_eq b selectors)
  have haliases : again.aliases = (b.aliases.project (calls.flatMap Call.renamed) names).project
      (selectors.filterMap Selector.renamed?) [] := congrArg Clauses.aliases hagain
  have hsame : again = { alone with aliases := again.aliases, error := u.error } := by
    rw [haliases]
    exact hagain
  have htables : again.aliases.tables = alone.aliases.tables := by
    rw [haliases, halone]
    rfl
  have hdocVar : again.docVar = alone.docVar := by
    rw [hsame]
    rfl
  refine ⟨hsame, fun name hname => ?_, fun column hcolumn announced => ?_, fun herror n => ?_⟩
  · rw [haliases, halone] at hname ⊢
    exact Registry.agreesAt_project hnames hname
  · rw [hdocVar]
    exact hcolumn.resolve_announce htables announced
  · intro w hw i j
    have hfree : u.error = alone.error := herror.trans (b.error_select selectors).symm
    have hother : again = alone.withAliases again.aliases := by
      rw [hfree] at hsame
      exact hsame
    rw [hother]
    exact toCompiled_applyAll_withAliases hlater htables hw i j

/-- Columns that the earlier projection did not mention are read as without it. -/
theorem surnames_read_as_without_ages :
    let b := fromCollection (Clauses.empty 1) "characters as c"
    let towns : Action := fun sub => pure (sub.fromCollection "towns as t")
    let calls : List (Call Action) :=
      [.select [.aliased "age" "years"], .selectQuery (.closure towns) "home"]
    let later : List (Call Action) :=
      [.isNull .filters .and true "surname", .orderIn "name" .ascending]
    let u := (Call.applyAll calls b 2).1
    (∀ call ∈ calls, call.Projects) ∧ (∀ call ∈ later, call.Blind) ∧ u.error = b.error ∧
      ∀ i j, ((Call.applyAll later (u.select [.column "name"]) 3).1.toCompiled i).1 =
        ((Call.applyAll later (b.select [.column "name"]) 3).1.toCompiled j).1 := by
  intro b towns calls later u
  have hcalls : ∀ call ∈ calls, call.Projects :=
    List.forall_mem_cons.mpr ⟨trivial, List.forall_mem_singleton.mpr trivial⟩
  have hlater : ∀ call ∈ later, call.Blind :=
    List.forall_mem_cons.mpr ⟨trivial, List.forall_mem_singleton.mpr trivial⟩
  have herror : u.error = b.error := by
    have hfree : u.error.isNone = true ∧ b.error.isNone = true := by decide +kernel
    rw [Option.isNone_iff_eq_none.mp hfree.1, Option.isNone_iff_eq_none.mp hfree.2]
  refine ⟨hcalls, hlater, herror, ?_⟩
  obtain ⟨-, huntraced, -, hcompiled⟩ := select_replaces (b := b) hcalls hlater [.column "name"] 2
  have hcolumns : (Call.applyAll later (b.select [.column "name"]) 3).1.columnNames =
      ["surname", "name", "name"] := by decide +kernel
  refine hcompiled herror 3 fun column hcolumn => ?_
  rw [hcolumns] at hcolumn
  have hends : ∀ column ∈ ["surname", "name", "name"],
      (Call.applyAll later (b.select [.column "name"]) 3).1.scope.further? column = none ∧
        Column.normalForm column.toList = column.toList ∧
        Column.segments column.toList = [column.toList] := by decide +kernel
  have hunused : ∀ column ∈ ["surname", "name", "name"],
      column ∉ ((b.select [.column "name"]).aliases.columns ++
        (u.select [.column "name"]).aliases.columns).map Prod.snd ∧
      column ∉ calls.flatMap Call.queryNames ∧
      column ∉ (b.select [.column "name"]).aliases.definitions.map Prod.snd := by decide +kernel
  obtain ⟨hstop, hnormal, hsegments⟩ := hends column hcolumn
  obtain ⟨hfirst, hsecond, hthird⟩ := hunused column hcolumn
  have hagrees := huntraced column (Registry.not_traced_of_unused hfirst hsecond hthird)
  refine ⟨[], _, .stop hstop, nofun, ?_, ?_⟩
  · rw [hnormal, String.ofList_toList]
    exact hagrees
  · rw [hnormal, hsegments]
    intro first hmem
    obtain rfl : column.toList = first := Option.some.inj hmem
    rw [String.ofList_toList]
    exact hagrees

/-- An alias outlives its projection, and so does the name of a selected query. -/
theorem names_outlive_projection :
    let b := fromCollection (Clauses.empty 1) "characters as c"
    let towns : Action := fun sub => pure (sub.fromCollection "towns as t")
    let aged := (Call.applyAll [.select [.aliased "age" "years"]] b 2).1
    let housed := (Call.applyAll [.selectQuery (.closure towns) "home"] b 2).1
    let ordered (x : Builder) :=
      ((x.select [.column "name"]).orderBy "years" (.ok .ascending)).toAql
    let filtered (x : Builder) :=
      ((x.select [.column "name"]).isNull .filters .and false "home").toAql
    (ordered aged 3).1.toOption = some ("FOR c IN characters " ++
        "SORT c.\x60age\x60 ASC RETURN \x7bname: c.\x60name\x60\x7d") ∧
      (ordered b 3).1.toOption = some ("FOR c IN characters " ++
        "SORT c.\x60years\x60 ASC RETURN \x7bname: c.\x60name\x60\x7d") ∧
      (filtered housed 3).1.toOption = some ("FOR c IN characters " ++
        "FILTER home == null RETURN \x7bname: c.\x60name\x60\x7d") ∧
      (filtered b 3).1.toOption = some ("FOR c IN characters " ++
        "FILTER c.\x60home\x60 == null RETURN \x7bname: c.\x60name\x60\x7d") := by
  exact ⟨by decide +kernel, by decide +kernel, by decide +kernel, by decide +kernel⟩

end Builder

end AqlBuilder

import AqlBuilder.Proofs.Column.Origin

/-!
# Columns beside further collections

When queries are put side by side, each registry takes over the collections of the others. They come
behind its own, so nothing that a registry has is lost or changed. A column may be read differently
then only if it is a path that begins with a name which the registry does not have and another one
has, be it that of a collection or that of a variable.

- `Registry.SameAt` compares two tables of collections at one name, and by `Scope.origin_withTables`
  only the names count that the path of a column begins with.
- `Registry.Foreign` are these names, and `Registry.Apart` the columns that do not use them.
- `Registry.Extends`: collections with further ones behind them.
- `Registry.Apart.resolve_withTables`: such columns are written as before.
-/

namespace AqlBuilder

namespace Registry

/-- The registry with other collections. -/
def withTables (r : Registry) (tables : Entries String) : Registry := { r with tables := tables }

/-- Two tables of collections agree about a name in front of a path: they have the same variable for
it, or none, and then it is a variable in both or in neither. -/
structure SameAt (tables tables' : Entries String) (name : String) : Prop where
  collection : tables'.get? name = tables.get? name
  docVar : tables.get? name = none →
    ((∃ table, (table, name) ∈ tables') ↔ ∃ table, (table, name) ∈ tables)

/-- Own collections with some of known registries behind them. -/
def Extends (known : List Registry) (own tables : Entries String) : Prop :=
  ∃ more, tables = own ++ more ∧ ∀ entry ∈ more, ∃ r ∈ known, entry ∈ r.tables

/-- A name for which a registry has no collection, but a known one has a collection, or a variable
that the registry does not have. -/
inductive Foreign (r : Registry) (known : List Registry) (name : String) : Prop
  | table {other : Registry} {v : String} (hown : r.tableVariable? name = none)
      (hother : other ∈ known) (hv : other.tableVariable? name = some v)
  | docVar {other : Registry} (hown : r.tableVariable? name = none)
      (hunused : r.isTableVariable name = false) (hother : other ∈ known)
      (hused : other.isTableVariable name = true)

/-- What a column leads to by way of the names in the projection. -/
inductive Leads (r : Registry) : String → String → Prop
  | refl (column : String) : Leads r column column
  | step {column target last : String}
      (h : r.columnFor? (String.ofList (Column.normalForm column.toList)) = some target)
      (h' : Leads r target last) : Leads r column last

/-- A column that leads to no path behind a foreign name. -/
def Apart (r : Registry) (known : List Registry) (column : String) : Prop :=
  ∀ last, r.Leads column last → ∀ first rest,
    Column.segments (Column.normalForm last.toList) = first :: rest → rest ≠ [] →
      ¬ r.Foreign known (String.ofList first)

variable {r r' : Registry} {known : List Registry} {own tables : Entries String}
  {name column v : String}

section comparing

variable {first second third : Entries String}

theorem SameAt.refl (tables : Entries String) (name : String) : SameAt tables tables name :=
  ⟨rfl, fun _ => Iff.rfl⟩

theorem SameAt.trans (h : SameAt first second name) (h' : SameAt second third name) :
    SameAt first third name :=
  ⟨h'.collection.trans h.collection,
    fun hnone => (h'.docVar (h.collection.trans hnone)).trans (h.docVar hnone)⟩

end comparing

section extending

theorem Extends.refl (known : List Registry) (own : Entries String) : Extends known own own :=
  ⟨[], (List.append_nil own).symm, nofun⟩

theorem Extends.trans {further : Entries String} (h : Extends known own tables)
    (h' : Extends known tables further) : Extends known own further := by
  obtain ⟨more, rfl, hmore⟩ := h
  obtain ⟨others, rfl, hothers⟩ := h'
  refine ⟨more ++ others, List.append_assoc own more others, fun entry hentry => ?_⟩
  rcases List.mem_append.mp hentry with hentry | hentry
  · exact hmore entry hentry
  · exact hothers entry hentry

/-- Known collections with further known ones behind them. -/
theorem Extends.entries (h : Extends known own tables)
    (hown : ∀ entry ∈ own, ∃ r ∈ known, entry ∈ r.tables) :
    ∀ entry ∈ tables, ∃ r ∈ known, entry ∈ r.tables := by
  obtain ⟨more, rfl, hmore⟩ := h
  intro entry hentry
  rcases List.mem_append.mp hentry with hentry | hentry
  · exact hown entry hentry
  · exact hmore entry hentry

/-- What is imported comes behind what is there. -/
theorem exists_imported (own others : Entries String) :
    ∃ more, imported own others = own ++ more ∧ more ⊆ others := by
  induction others generalizing own with
  | nil => exact ⟨[], (List.append_nil own).symm, List.Subset.refl []⟩
  | cons entry rest ih =>
      obtain ⟨key, value⟩ := entry
      change ∃ more, imported (if own.has key then own else own.put key value) rest =
        own ++ more ∧ _
      by_cases hkey : own.has key
      · obtain ⟨more, hmore, hsub⟩ := ih own
        rw [if_pos hkey]
        exact ⟨more, hmore, List.subset_cons_of_subset _ hsub⟩
      · obtain ⟨more, hmore, hsub⟩ := ih (own.put key value)
        have hnew : key ∉ own.keys := fun hmem =>
          hkey (Option.isSome_iff_exists.mpr (Entries.exists_get?.mpr hmem))
        rw [if_neg hkey, hmore, Entries.put_of_notMem hnew, List.append_assoc]
        exact ⟨(key, value) :: more, rfl, List.cons_subset_cons _ hsub⟩

/-- Importing from collections that are known. -/
theorem extends_imported {others : Entries String}
    (h : ∀ entry ∈ others, ∃ r ∈ known, entry ∈ r.tables) :
    Extends known own (imported own others) := by
  obtain ⟨more, heq, hsub⟩ := exists_imported own others
  exact ⟨more, heq, fun entry hentry => h entry (hsub hentry)⟩

end extending

section reading

variable (h : Extends known r.tables tables) (hname : ¬ r.Foreign known name)

include h hname

/-- A name that is not foreign has the collection that it had. -/
theorem tableVariable?_withTables :
    (r.withTables tables).tableVariable? name = r.tableVariable? name := by
  obtain ⟨more, htables, hmore⟩ := h
  change tables.get? name = _
  rw [htables, Entries.get?_append]
  cases hown : r.tableVariable? name with
  | some v =>
      unfold tableVariable? at hown
      rw [hown]
      rfl
  | none =>
      have hnone : more.get? name = none := by
        by_contra hsome
        obtain ⟨v, hv⟩ := Option.ne_none_iff_exists'.mp hsome
        obtain ⟨other, hother, hentry⟩ := hmore _ (Entries.mem_of_get? hv)
        obtain ⟨w, hw⟩ := Entries.exists_get?.mpr (List.mem_map_of_mem (f := Prod.fst) hentry)
        exact hname (.table hown hother hw)
      unfold tableVariable? at hown
      rw [hown, hnone]
      rfl

/-- A name that is not foreign and is no collection is a variable just if it was one. -/
theorem isTableVariable_withTables (hown : r.tableVariable? name = none) :
    (r.withTables tables).isTableVariable name = r.isTableVariable name := by
  obtain ⟨more, htables, hmore⟩ := h
  rw [Bool.eq_iff_iff, isTableVariable_iff, isTableVariable_iff]
  change (∃ table, (table, name) ∈ tables) ↔ _
  rw [htables]
  constructor
  · rintro ⟨table, hentry⟩
    rcases List.mem_append.mp hentry with hentry | hentry
    · exact ⟨table, hentry⟩
    · by_contra hunused
      obtain ⟨other, hother, hmem⟩ := hmore _ hentry
      refine hname (.docVar hown ?_ hother (isTableVariable_iff.mpr ⟨table, hmem⟩))
      exact Bool.eq_false_iff.mpr (mt isTableVariable_iff.mp hunused)
  · rintro ⟨table, hentry⟩
    exact ⟨table, List.mem_append_left more hentry⟩

end reading

/-- What a column leads to depends on the names in the projection alone. -/
theorem Leads.of_eq (h : r.Leads column name) (hcolumns : r'.columns = r.columns) :
    r'.Leads column name := by
  induction h with
  | refl column => exact .refl column
  | step htarget _ ih =>
      refine .step ?_ ih
      unfold columnFor? at htarget ⊢
      rw [hcolumns]
      exact htarget

/-- Which names are foreign depends on the collections alone. -/
theorem Foreign.of_eq (h : r.Foreign known name) (htables : r'.tables = r.tables) :
    r'.Foreign known name := by
  have hvariable : r'.tableVariable? name = r.tableVariable? name := by
    unfold tableVariable?
    rw [htables]
  have hused : r'.isTableVariable name = r.isTableVariable name := by
    unfold isTableVariable
    rw [htables]
  cases h with
  | table hown hother hv => exact .table (hvariable.trans hown) hother hv
  | docVar hown hunused hother hmem =>
      exact .docVar (hvariable.trans hown) (hused.trans hunused) hother hmem

/-- Which columns keep apart from known registries does not depend on query variables. -/
theorem Apart.of_eq (h : r.Apart known column) (htables : r'.tables = r.tables)
    (hcolumns : r'.columns = r.columns) : r'.Apart known column :=
  fun last hlast first rest hpath hrest hforeign =>
    h last (hlast.of_eq hcolumns.symm) first rest hpath hrest (hforeign.of_eq htables.symm)

end Registry

namespace Scope

/-- The scope with other collections. -/
def withTables (scope : Scope) (tables : Entries String) : Scope :=
  ⟨scope.aliases.withTables tables, scope.docVar⟩

variable {sc : Scope} {tables : Entries String} {column : String} {text : List Char}

/-- The path that a column leads to begins with a name. -/
def Begins (sc : Scope) (column name : String) : Prop :=
  ∃ rest, rest ≠ [] ∧ Column.segments (sc.target column) = name.toList :: rest

/-- The names of a projection are followed without regard to collections. -/
theorem target_withTables (sc : Scope) (tables : Entries String) (column : String) :
    (sc.withTables tables).target column = sc.target column := by
  have hreference : ∀ name, (sc.withTables tables).aliases.expressionOf? name =
      sc.aliases.expressionOf? name := fun _ => rfl
  have hprojected : ∀ name, (sc.withTables tables).aliases.columnFor? name =
      sc.aliases.columnFor? name := fun _ => rfl
  have hwithin : ∀ fuel column,
      (sc.withTables tables).targetWithin fuel column = sc.targetWithin fuel column := by
    intro fuel
    induction fuel with
    | zero =>
        intro column
        unfold targetWithin
        simp only [hreference, hprojected]
        cases sc.aliases.columnFor? (String.ofList (Column.normalForm column.toList)) <;> rfl
    | succ fuel ih =>
        intro column
        unfold targetWithin
        simp only [hreference, hprojected]
        cases sc.aliases.columnFor? (String.ofList (Column.normalForm column.toList)) with
        | none => rfl
        | some further => simp only [ih further]
  exact hwithin _ column

/-- A path stands for the same in two tables that agree about the name in front of it. -/
theorem directOrigin_withTables
    (h : ∀ first rest, Column.segments text = first :: rest → rest ≠ [] →
      Registry.SameAt sc.aliases.tables tables (String.ofList first)) :
    (sc.withTables tables).directOrigin text = sc.directOrigin text := by
  unfold directOrigin
  cases hcut : Column.segments text with
  | nil => rfl
  | cons first rest =>
      by_cases hnil : rest = []
      · subst hnil
        rfl
      have hsame := h first rest hcut hnil
      have hcollection : (sc.withTables tables).aliases.tableVariable? (String.ofList first) =
          sc.aliases.tableVariable? (String.ofList first) := hsame.collection
      dsimp only
      rw [hcollection]
      cases hv : sc.aliases.tableVariable? (String.ofList first) with
      | some v => rfl
      | none =>
          have hdocVar : (sc.withTables tables).aliases.isTableVariable (String.ofList first) =
              sc.aliases.isTableVariable (String.ofList first) := by
            rw [Bool.eq_iff_iff, Registry.isTableVariable_iff, Registry.isTableVariable_iff]
            exact hsame.docVar hv
          simp only [hdocVar]
          rfl

/-- Among the collections a column depends on those alone that its path begins with. -/
theorem origin_withTables (h : ∀ name, sc.Begins column name →
      Registry.SameAt sc.aliases.tables tables name) :
    (sc.withTables tables).origin column = sc.origin column := by
  have hreference : ∀ name, (sc.withTables tables).aliases.expressionOf? name =
      sc.aliases.expressionOf? name := fun _ => rfl
  unfold origin originAt
  rw [target_withTables, hreference]
  cases sc.aliases.expressionOf? (String.ofList (sc.target column)) with
  | some text => rfl
  | none =>
      refine directOrigin_withTables fun first rest hcut hrest => h _ ⟨rest, hrest, ?_⟩
      rw [hcut, String.toList_ofList]

/-- So a column is written as before if nothing has changed for these. -/
theorem resolve_withTables (h : ∀ name, sc.Begins column name →
      Registry.SameAt sc.aliases.tables tables name) :
    (sc.withTables tables).resolve column = sc.resolve column := by
  rw [resolve_eq_origin, resolve_eq_origin, origin_withTables h]

/-- The target of a column is one of the paths that the column leads to. -/
theorem exists_leads (sc : Scope) (column : String) : ∃ last, sc.aliases.Leads column last ∧
    sc.target column = Column.normalForm last.toList := by
  have hwithin : ∀ fuel column, ∃ last, sc.aliases.Leads column last ∧
      sc.targetWithin fuel column = Column.normalForm last.toList := by
    intro fuel
    induction fuel with
    | zero =>
        intro column
        refine ⟨column, .refl column, ?_⟩
        unfold targetWithin
        dsimp only
        cases sc.aliases.columnFor? (String.ofList (Column.normalForm column.toList)) <;>
          exact ite_self _
    | succ fuel ih =>
        intro column
        have hstop : ∃ last, sc.aliases.Leads column last ∧
            Column.normalForm column.toList = Column.normalForm last.toList :=
          ⟨column, .refl column, rfl⟩
        unfold targetWithin
        dsimp only
        split
        · exact hstop
        cases hfurther : sc.aliases.columnFor?
            (String.ofList (Column.normalForm column.toList)) with
        | none => exact hstop
        | some further =>
            dsimp only
            split
            · exact hstop
            · obtain ⟨last, hlast, htarget⟩ := ih further
              exact ⟨last, .step hfurther hlast, htarget⟩
  exact hwithin _ column

end Scope

/-- A column that keeps apart from the registries whose collections come in is written as before. -/
theorem Registry.Apart.resolve_withTables {sc : Scope} {known : List Registry}
    {tables : Entries String} {column : String} (h : sc.aliases.Apart known column)
    (hext : Registry.Extends known sc.aliases.tables tables) :
    (sc.withTables tables).resolve column = sc.resolve column := by
  refine Scope.resolve_withTables fun name hname => ?_
  obtain ⟨rest, hrest, hcut⟩ := hname
  obtain ⟨last, hlast, htarget⟩ := sc.exists_leads column
  rw [htarget] at hcut
  have hown : ¬ sc.aliases.Foreign known name := by
    have hfirst := h last hlast _ rest hcut hrest
    rwa [String.ofList_toList] at hfirst
  refine ⟨Registry.tableVariable?_withTables hext hown, fun hnone => ?_⟩
  rw [← Registry.isTableVariable_iff, ← Registry.isTableVariable_withTables hext hown hnone]
  exact (Registry.isTableVariable_iff (r := sc.aliases.withTables tables)).symm

end AqlBuilder

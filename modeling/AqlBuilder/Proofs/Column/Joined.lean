import AqlBuilder.Proofs.Column.Imported

/-!
# Columns beside a join

A join enters its collection in the registry, under its variable. The registry is asked about the
first attribute of a path only, and only if the path has several attributes, so a column reads as
before unless the path that it leads to begins with the collection, with the new variable or with
the variable that the collection had before.

The query of a join is a query of its own. It is handed on the collections and the query variables
of its parent, but no names of a projection, and its main loop is over the joined collection. So a
path behind a name means the same in the conditions of the join as outside, and a path without a
name is an attribute of the joined documents.

- `Registry.Beside` are names that joins do not touch, and `Registry.Beside.sameAt` compares the
  collections before and after any number of joins.
- `Registry.Behind` are paths behind a name, and `Scope.Writes` says behind which variable they are
  written. `Registry.Unnamed` are columns without a known name.
- `Registry.handedOn` is what a query inside another one is handed on.
-/

namespace AqlBuilder

namespace Entries

variable {α : Type} {entries : Entries α} {key key' : String} {value value' : α}

/-- What is not found under the key of a new value stays. -/
theorem mem_put_of_mem (h : (key', value') ∈ entries)
    (hother : get? key entries ≠ some value' ∨ key' ≠ key) :
    (key', value') ∈ put key value entries := by
  induction entries with
  | nil => exact absurd h List.not_mem_nil
  | cons first rest ih =>
      obtain ⟨k, v⟩ := first
      unfold put
      by_cases hk : k = key
      · rw [if_pos hk]
        rcases List.mem_cons.mp h with hfirst | hrest
        · obtain ⟨rfl, rfl⟩ := Prod.mk.inj hfirst
          rcases hother with hother | hother
          · exact absurd (by rw [get?, if_pos hk]) hother
          · exact absurd hk hother
        · exact List.mem_cons_of_mem _ hrest
      · rw [if_neg hk]
        rcases List.mem_cons.mp h with hfirst | hrest
        · rw [hfirst]
          exact List.mem_cons_self
        · refine List.mem_cons_of_mem _ (ih hrest ?_)
          rw [get?, if_neg hk] at hother
          exact hother

end Entries

namespace Registry

variable {r r' : Registry} {tables : Entries String} {name table v : String}

section tables

/-- A name in front of a path that new variables of collections do not touch: it is none of these
collections, and if it is no other collection either, none of the new variables and no former one
that would go with them. -/
structure Beside (tables joins : Entries String) (name : String) : Prop where
  collection : name ∉ joins.keys
  docVar : tables.get? name = none → ∀ entry ∈ joins, name ≠ entry.2 ∧
    (tables.get? entry.1 = some name → ∃ other, other ∉ joins.keys ∧ (other, name) ∈ tables)

/-- A collection with another variable. -/
theorem sameAt_put (hname : name ≠ table) (h : tables.get? name = none → name ≠ v ∧
      (tables.get? table = some name → ∃ other, other ≠ table ∧ (other, name) ∈ tables)) :
    SameAt tables (tables.put table v) name := by
  constructor
  · rw [Entries.get?_put, if_neg (Ne.symm hname)]
  · intro hnone
    obtain ⟨hv, hformer⟩ := h hnone
    constructor
    · rintro ⟨other, hmem⟩
      rcases Entries.mem_put hmem with hmem | hnew
      · exact ⟨other, hmem⟩
      · exact absurd (Prod.mk.inj hnew).2 hv
    · rintro ⟨other, hmem⟩
      by_cases hget : tables.get? table = some name
      · obtain ⟨other, hother, hmem⟩ := hformer hget
        exact ⟨other, Entries.mem_put_of_mem hmem (.inr hother)⟩
      · exact ⟨other, Entries.mem_put_of_mem hmem (.inl hget)⟩

/-- Collections with other variables, one after the other. -/
theorem Beside.sameAt {joins : Entries String} (h : Beside tables joins name) :
    SameAt tables (tables.putAll joins) name := by
  induction joins generalizing tables with
  | nil => exact .refl tables name
  | cons first rest ih =>
      obtain ⟨table, v⟩ := first
      obtain ⟨htable, hrest⟩ : name ≠ table ∧ name ∉ Entries.keys rest := by
        simpa using h.collection
      have hkeys : ∀ {other}, other ∉ Entries.keys ((table, v) :: rest) →
          other ≠ table ∧ other ∉ Entries.keys rest := fun hother => by simpa using hother
      have hput : SameAt tables (tables.put table v) name := by
        refine sameAt_put htable fun hnone => ?_
        obtain ⟨hv, hformer⟩ := h.docVar hnone (table, v) List.mem_cons_self
        refine ⟨hv, fun hget => ?_⟩
        obtain ⟨other, hother, hmem⟩ := hformer hget
        exact ⟨other, (hkeys hother).1, hmem⟩
      refine hput.trans (ih ⟨hrest, fun hnone entry hentry => ?_⟩)
      have hbefore := hput.collection.symm.trans hnone
      obtain ⟨hv, -⟩ := h.docVar hbefore (table, v) List.mem_cons_self
      obtain ⟨hnew, hformer⟩ := h.docVar hbefore entry (List.mem_cons_of_mem _ hentry)
      refine ⟨hnew, fun hget => ?_⟩
      rw [Entries.get?_put] at hget
      by_cases hsame : table = entry.1
      · rw [if_pos hsame] at hget
        exact absurd (Option.some.inj hget).symm hv
      · rw [if_neg hsame] at hget
        obtain ⟨other, hother, hmem⟩ := hformer hget
        exact ⟨other, (hkeys hother).2, Entries.mem_put_of_mem hmem (.inr (hkeys hother).1)⟩

end tables

section spelling

/-- A column is a path behind a name. The column is no registered reference, and the name no query
variable. -/
structure Behind (r : Registry) (name column : String) (path : List (List Char)) : Prop where
  ne_nil : path ≠ []
  segments : Column.segments (Column.normalForm column.toList) = name.toList :: path
  reference : r.expressionOf? (String.ofList (Column.normalForm column.toList)) = none
  definition : r.isVariable name = false

/-- A column that no known name stands in the way of: it is no registered reference, and it does not
begin with a query variable, nor with a collection or a document variable in front of a path. -/
structure Unnamed (r : Registry) (column : String) : Prop where
  reference : r.expressionOf? (String.ofList (Column.normalForm column.toList)) = none
  definition : ∀ first rest, Column.segments (Column.normalForm column.toList) = first :: rest →
    r.isVariable (String.ofList first) = false
  name : ∀ first rest, Column.segments (Column.normalForm column.toList) = first :: rest →
    rest ≠ [] → r.tableVariable? (String.ofList first) = none ∧
      r.isTableVariable (String.ofList first) = false

end spelling

section handedOn

/-- What a query inside another one is handed on: collections and query variables. -/
def handedOn (r : Registry) : Registry := (empty.importTables r).importVariables r

theorem tableVariable?_handedOn (name : String) :
    r.handedOn.tableVariable? name = r.tableVariable? name := get?_imported [] r.tables name

/-- A name that stays what it was stays a variable, unless it is another collection. -/
theorem SameAt.isTableVariable (h : SameAt r.tables r'.tables name)
    (hused : r.isTableVariable name = true)
    (hown : ∀ v, r.tableVariable? name = some v → v = name) : r'.isTableVariable name = true := by
  cases hv : r.tableVariable? name with
  | some v =>
      obtain rfl := hown v hv
      exact isTableVariable_of_tableVariable? (h.collection.trans hv)
  | none => exact isTableVariable_iff.mpr ((h.docVar hv).mpr (isTableVariable_iff.mp hused))

end handedOn

end Registry

namespace Scope

variable {sc : Scope} {name column v : String} {path : List (List Char)}

/-- After joins a column is read as before, unless its path begins with a name that the joins touch.
At the name in front of the path the collections need only be those after the joins. -/
theorem resolve_behind_joins {joins tables : Entries String}
    (h : ∀ name, sc.Begins column name → Registry.Beside sc.aliases.tables joins name ∧
      Registry.SameAt (sc.aliases.tables.putAll joins) tables name) :
    (sc.withTables tables).resolve column = sc.resolve column :=
  resolve_withTables fun name hname => (h name hname).1.sameAt.trans (h name hname).2

/-- Paths behind a name are written behind a variable. -/
def Writes (sc : Scope) (name docVar : String) : Prop :=
  ∀ column path, sc.aliases.Behind name column path →
    sc.resolve column = Column.pathText docVar path

section behind

variable (h : sc.aliases.Behind name column path)

include h

/-- A path behind a name leads to itself. -/
theorem target_of_behind : sc.target column = Column.normalForm column.toList := by
  refine target_of_dot ?_
  by_contra hnone
  have hcut := h.segments
  rw [Column.segments, Text.splitBy_of_notMem hnone] at hcut
  exact h.ne_nil (List.cons.inj hcut).2.symm

/-- What a path behind a name stands for: an attribute of a document of the collection or the
variable with the name, or else of the document of the loop. -/
theorem origin_of_behind : sc.origin column =
    match sc.aliases.tableVariable? name with
    | some docVar => .document docVar path
    | none =>
      if sc.aliases.isTableVariable name then .document name path
      else .document (sc.docVar.getD "") (name.toList :: path) := by
  rw [origin, target_of_behind h, originAt, directOrigin, h.reference, h.segments]
  cases hv : sc.aliases.tableVariable? name <;>
    simp only [String.ofList_toList, h.definition, Bool.false_eq_true, if_false,
      List.isEmpty_eq_false_iff.mpr h.ne_nil, hv]

end behind

/-- A collection stands for its documents. -/
theorem writes_collection (h : sc.aliases.tableVariable? name = some v) : sc.Writes name v := by
  intro column path hbehind
  rw [resolve_eq_origin, origin_of_behind hbehind]
  simp only [h, Origin.text]

/-- The variable of a collection stands for itself, unless it is another collection. -/
theorem writes_variable (hused : sc.aliases.isTableVariable name = true)
    (hown : ∀ v, sc.aliases.tableVariable? name = some v → v = name) : sc.Writes name name := by
  cases hv : sc.aliases.tableVariable? name with
  | some v =>
      obtain rfl := hown v hv
      exact writes_collection hv
  | none =>
      intro column path hbehind
      rw [resolve_eq_origin, origin_of_behind hbehind]
      simp only [hv, hused, if_true, Origin.text]

/-- Without names of a projection, a column without a known name is an attribute of the main
document. -/
theorem resolve_of_unnamed (hcolumns : sc.aliases.columns = []) (h : sc.aliases.Unnamed column) :
    sc.resolve column = Column.pathText (sc.docVar.getD "")
      (Column.segments (Column.normalForm column.toList)) := by
  have htarget : sc.target column = Column.normalForm column.toList := by
    have hprojected : ∀ name, sc.aliases.columnFor? name = none := by
      intro name
      unfold Registry.columnFor?
      rw [hcolumns]
      rfl
    unfold target targetWithin
    simp only [hprojected]
    exact ite_self _
  obtain ⟨first, rest, hcut⟩ := List.exists_cons_of_ne_nil
    (Text.splitBy_ne_nil _ (Column.normalForm column.toList))
  change Column.segments _ = _ at hcut
  rw [resolve_eq_origin, origin, htarget, originAt, h.reference]
  dsimp only
  rw [directOrigin, hcut]
  simp only [h.definition first rest hcut, Bool.false_eq_true, if_false]
  cases rest with
  | nil => rfl
  | cons second rest =>
      obtain ⟨hnone, hunused⟩ := h.name first _ hcut (List.cons_ne_nil second rest)
      simp only [hnone, hunused]
      rfl

end Scope

end AqlBuilder

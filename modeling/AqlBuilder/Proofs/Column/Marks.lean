import AqlBuilder.Proofs.Alias.Registry
import AqlBuilder.Proofs.Text.Marks

/-!
# Columns in a statement

What a column is written as comes from the column itself and from the registry of its query. If none
of the names in the registry has a mark and the column has none, its text has none.

- `Registry.Clean` says that no name that may be written has a mark; registering clean names and
  importing clean registries keeps it.
- `Scope.Clean.resolve`: a column without marks is written without marks.
-/

namespace AqlBuilder

/-- A registry in which nothing that may be written has a mark. -/
structure Registry.Clean (r : Registry) : Prop where
  tables : ∀ entry ∈ r.tables, Unmarked entry.2
  columns : ∀ entry ∈ r.columns, Unmarked entry.1
  definitions : ∀ entry ∈ r.definitions, Unmarked entry.2

/-- A scope in which nothing that may be written has a mark. -/
structure Scope.Clean (scope : Scope) : Prop where
  aliases : scope.aliases.Clean
  docVar : ∀ v ∈ scope.docVar, Unmarked v

namespace Registry

variable {r other : Registry}

theorem clean_empty : empty.Clean := ⟨by simp [empty], by simp [empty], by simp [empty]⟩

/-- What is imported comes from one of the two tables. -/
theorem mem_imported {own others : Entries String} {entry : String × String}
    (h : entry ∈ imported own others) : entry ∈ own ∨ entry ∈ others := by
  induction others generalizing own with
  | nil => exact Or.inl h
  | cons first rest ih =>
      rcases ih h with h | h
      · dsimp only at h
        split at h
        · exact Or.inl h
        · rcases Entries.mem_put h with h | h
          · exact Or.inl h
          · exact Or.inr (List.mem_cons.mpr (Or.inl h))
      · exact Or.inr (List.mem_cons_of_mem first h)

/-- The variable of a sub-query has no mark. -/
theorem unmarked_subQueryVariable (id : Nat) : Unmarked (subQueryVariable id) := by
  have hnumber : Unmarked ("subQuery" ++ toString id) :=
    Unmarked.append (by decide) (unmarked_toString id)
  exact hnumber.append (by decide)

namespace Clean

/-- The variable of a collection in a clean registry has no mark. -/
theorem tableVariable? (h : r.Clean) {table v : String} (hv : r.tableVariable? table = some v) :
    Unmarked v :=
  h.tables _ (Entries.mem_of_get? hv)

/-- A column under an alias in a clean registry has no mark. -/
theorem columnFor? (h : r.Clean) {asName column : String}
    (hcolumn : r.columnFor? asName = some column) : Unmarked column := by
  obtain ⟨entry, hfind, rfl⟩ := Option.map_eq_some_iff.mp hcolumn
  exact h.columns entry (List.mem_of_find?_eq_some hfind)

/-- What a reference stands for in a clean registry has no mark. -/
theorem expressionOf? (h : r.Clean) {reference expression : String}
    (he : r.expressionOf? reference = some expression) : Unmarked expression :=
  h.definitions _ (Entries.mem_of_get? he)

/-- The variable that a collection gets has no mark. -/
theorem variableFor [Naming] (h : r.Clean) (table : String) {asName : Option String}
    (hname : ∀ name ∈ asName, Unmarked name) : Unmarked (r.variableFor table asName) := by
  cases asName with
  | some name => exact hname name rfl
  | none =>
      unfold Registry.variableFor
      dsimp only
      cases hget : r.tables.get? table with
      | some v => exact h.tableVariable? hget
      | none => exact Alias.unmarked_documentVariable table

/-- A clean registry stays so with one more collection. -/
theorem registerTable [Naming] (h : r.Clean) (table : String) {asName : Option String}
    (hname : ∀ name ∈ asName, Unmarked name) :
    Unmarked (r.registerTable table asName).1 ∧ (r.registerTable table asName).2.Clean := by
  have hvariable := h.variableFor table hname
  refine ⟨hvariable, { h with tables := fun entry hentry => ?_ }⟩
  rcases Entries.mem_put hentry with hold | rfl
  · exact h.tables entry hold
  · exact hvariable

/-- A clean registry stays so with one more sub-query. -/
theorem registerSubQuery [Naming] (h : r.Clean) (id : Nat) :
    Unmarked (r.registerSubQuery id).1 ∧ (r.registerSubQuery id).2.Clean := by
  refine h.registerTable _ fun name hname => ?_
  cases hname
  exact unmarked_subQueryVariable id

/-- A clean registry stays so with one more alias. -/
theorem registerColumn (h : r.Clean) {column : String} (hcolumn : Unmarked column)
    (asName : String) : (r.registerColumn column asName).Clean := by
  refine { h with columns := fun entry hentry => ?_ }
  rcases Entries.mem_put hentry with hold | rfl
  · exact h.columns entry hold
  · exact hcolumn

/-- A clean registry stays so with one more reference. -/
theorem registerVariable (h : r.Clean) (reference : String) {expression : String}
    (he : Unmarked expression) : (r.registerVariable reference expression).Clean := by
  refine { h with definitions := fun entry hentry => ?_ }
  rcases Entries.mem_put hentry with hold | rfl
  · exact h.definitions entry hold
  · exact he

/-- A clean registry stays so with the collections of another one. -/
theorem importTables (h : r.Clean) (hother : other.Clean) : (r.importTables other).Clean := by
  refine { h with tables := fun entry hentry => ?_ }
  rcases mem_imported hentry with hown | hothers
  · exact h.tables entry hown
  · exact hother.tables entry hothers

/-- A clean registry stays so with the query variables of another one. -/
theorem importVariables (h : r.Clean) (hother : other.Clean) : (r.importVariables other).Clean := by
  refine { h with definitions := fun entry hentry => ?_ }
  rcases mem_imported hentry with hown | hothers
  · exact h.definitions entry hown
  · exact hother.definitions entry hothers

/-- Clean registries stay so when they exchange collections. -/
theorem exchangeTables (h : r.Clean) (hother : other.Clean) :
    (r.exchangeTables other).1.Clean ∧ (r.exchangeTables other).2.Clean := by
  have hboth := hother.importTables h
  exact ⟨h.importTables hboth, hboth⟩

end Clean

end Registry

namespace Column

variable {path : List (List Char)}

/-- An attribute without marks has none between backticks. -/
theorem mark_notMem_tickedAttribute {segment : List Char} (h : '@' ∉ segment) :
    '@' ∉ tickedAttribute segment := by
  have hname : '@' ∉ segment.takeWhile (· != '[') :=
    fun hmark => h ((List.takeWhile_sublist _).subset hmark)
  unfold tickedAttribute
  dsimp only
  split
  · exact h
  · split
    · exact h
    · rw [List.mem_append, not_or]
      exact ⟨Aql.mark_notMem_ticked hname, fun hmark => h (List.mem_of_mem_drop hmark)⟩

/-- An attribute without marks is written without them. -/
theorem unmarked_attributeText {segment : List Char} (h : '@' ∉ segment) :
    Unmarked (attributeText segment) :=
  unmarked_ofList.mpr (mark_notMem_tickedAttribute h)

/-- Attributes without marks are written without them. -/
theorem unmarked_attributeTexts (h : ∀ segment ∈ path, '@' ∉ segment) :
    ∀ text ∈ attributeTexts path, Unmarked text := by
  cases path with
  | nil => exact fun text htext => by cases htext
  | cons first rest =>
      intro text htext
      rcases List.mem_cons.mp htext with rfl | htext
      · refine unmarked_attributeText ?_
        split
        · decide
        · exact h first List.mem_cons_self
      · obtain ⟨segment, hsegment, rfl⟩ := List.mem_map.mp htext
        exact unmarked_attributeText (h segment (List.mem_cons_of_mem first hsegment))

/-- A path without marks is written without them. -/
theorem unmarked_pathText {docVar : String} (hvar : Unmarked docVar)
    (h : ∀ segment ∈ path, '@' ∉ segment) : Unmarked (pathText docVar path) := by
  have htexts := unmarked_attributeTexts h
  refine unmarked_intercalate (by decide) fun text htext => ?_
  split at htext
  · exact htexts text htext
  · rcases List.mem_cons.mp htext with rfl | htext
    · exact hvar
    · exact htexts text htext

/-- A column without marks has none in its normal form. -/
theorem mark_notMem_normalForm {column : List Char} (h : '@' ∉ column) :
    '@' ∉ normalForm column :=
  fun hmark => h (Text.mem_trimBlanks (Text.mark_dotArrows hmark))

/-- A column without marks has none in its attributes. -/
theorem mark_notMem_segments {column : List Char} (h : '@' ∉ column) :
    ∀ segment ∈ segments column, '@' ∉ segment :=
  fun _ hsegment hmark => h (Text.mem_splitBy hsegment hmark).1

variable {docVar column : String}

/-- A column without marks has none on a document. -/
theorem unmarked_onDocument (hvar : Unmarked docVar) (h : Unmarked column) :
    Unmarked (onDocument docVar column) :=
  unmarked_pathText hvar (mark_notMem_segments (mark_notMem_normalForm h))

/-- A column without marks has none on a row. -/
theorem unmarked_onRow (hvar : Unmarked docVar) (h : Unmarked column) :
    Unmarked (onRow docVar column) := by
  refine unmarked_intercalate (by decide) fun text htext => ?_
  rcases List.mem_cons.mp htext with rfl | htext
  · exact hvar
  · obtain ⟨segment, hsegment, rfl⟩ := List.mem_map.mp htext
    exact unmarked_attributeText (mark_notMem_segments (mark_notMem_normalForm h) segment hsegment)

/-- A column without marks has none in its last attribute. -/
theorem unmarked_attributeName (h : Unmarked column) : Unmarked (attributeName column) := by
  unfold attributeName
  dsimp only
  rw [unmarked_ofList]
  intro hmark
  have hlast := (List.takeWhile_sublist _).subset hmark
  cases hget : (segments (normalForm column.toList)).getLast? with
  | none =>
      rw [hget] at hlast
      cases hlast
  | some last =>
      rw [hget] at hlast
      exact mark_notMem_segments (mark_notMem_normalForm h) last (List.mem_of_getLast? hget) hlast

end Column

namespace Scope.Clean

variable {scope : Scope}

/-- The variable of a clean scope has no mark. -/
theorem unmarked_docVar (h : scope.Clean) : Unmarked (scope.docVar.getD "") := by
  have hvar := h.docVar
  cases hv : scope.docVar with
  | none => exact (by decide : Unmarked "")
  | some v => exact hvar v hv

/-- A path without marks is written without them in a clean scope. -/
theorem resolveDirect (h : scope.Clean) {column : List Char} (hcolumn : '@' ∉ column) :
    Unmarked (scope.resolveDirect column) := by
  have hsegments := Column.mark_notMem_segments hcolumn
  unfold Scope.resolveDirect
  cases hpath : Column.segments column with
  | nil => exact (by decide : Unmarked "")
  | cons first rest =>
      rw [hpath] at hsegments
      have hfirst : Unmarked (String.ofList first) :=
        unmarked_ofList.mpr (hsegments first List.mem_cons_self)
      have hrest : ∀ segment ∈ rest, '@' ∉ segment :=
        fun segment hsegment => hsegments segment (List.mem_cons_of_mem first hsegment)
      have hhead : ∀ segment ∈ [first], '@' ∉ segment :=
        fun segment hsegment => List.mem_singleton.mp hsegment ▸ hsegments first List.mem_cons_self
      dsimp only
      split
      · split
        · exact hfirst
        · exact Column.unmarked_pathText hfirst hrest
      · split
        · exact Column.unmarked_pathText h.unmarked_docVar hhead
        · split
          · rename_i v hv
            exact Column.unmarked_pathText (h.aliases.tableVariable? hv) hrest
          · split
            · exact Column.unmarked_pathText hfirst hrest
            · exact Column.unmarked_pathText h.unmarked_docVar hsegments

/-- A column without marks is written without marks. -/
theorem resolve (h : scope.Clean) {column : String} (hcolumn : Unmarked column) :
    Unmarked (scope.resolve column) :=
  of_resolve h.aliases.expressionOf?
    (fun hplain _ => h.resolveDirect (Column.mark_notMem_normalForm hplain))
    h.aliases.columnFor? hcolumn

end Scope.Clean

end AqlBuilder

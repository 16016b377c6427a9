import AqlBuilder.Column.Resolve
import AqlBuilder.Proofs.Entries
import AqlBuilder.Proofs.Text.Words

/-!
# Laws of registries

Importing collections brings in those that are new and changes no other. What a column is written as
depends on few of the names in a registry: on those that its first attribute, or the column as a
whole, stands for.

- `Registry.get?_imported`: what is under a key after an import.
- `Registry.announce` enters references one after another.
- `Registry.isTableVariable_iff`: the variables of a registry.
- `Scope.resolve_eq_direct`: columns that are no names in the projection.
- `Scope.of_resolve`: a property that columns keep while names in the projection are followed.
- `Scope.Refers`: references to the attributes of a collection, and `Refers.resolve_eq`, how they
  are written.
-/

namespace AqlBuilder

namespace Registry

/-- The registry with further references, entered one after another. -/
def announce (r : Registry) (entries : Entries String) : Registry :=
  { r with definitions := r.definitions.putAll entries }

variable {r other : Registry} {name v w : String}

/-- What is imported is found where nothing was before. -/
theorem get?_imported (own others : Entries String) (key : String) :
    (imported own others).get? key = (own.get? key).or (others.get? key) := by
  induction others generalizing own with
  | nil => exact (Option.or_none).symm
  | cons entry rest ih =>
      obtain ⟨k, value⟩ := entry
      change (imported (if own.has k then own else own.put k value) rest).get? key = _
      rw [ih, Entries.get?]
      by_cases hown : own.has k
      · rw [if_pos hown]
        by_cases hk : k = key
        · rw [if_pos hk]
          obtain ⟨x, hx⟩ := Option.isSome_iff_exists.mp hown
          rw [← hk, hx]
          rfl
        · rw [if_neg hk]
      · rw [if_neg hown, Entries.get?_put]
        by_cases hk : k = key
        · have hnone : own.get? key = none := by
            rw [← hk]
            exact Option.not_isSome_iff_eq_none.mp hown
          rw [if_pos hk, if_pos hk, hnone]
          rfl
        · rw [if_neg hk, if_neg hk]

/-- A variable belongs to a collection just if it is registered for one. -/
theorem isTableVariable_iff : r.isTableVariable v = true ↔ ∃ table, (table, v) ∈ r.tables := by
  unfold isTableVariable
  rw [List.any_eq_true]
  constructor
  · rintro ⟨⟨table, w⟩, hmem, hw⟩
    rw [← of_decide_eq_true hw]
    exact ⟨table, hmem⟩
  · rintro ⟨table, hmem⟩
    exact ⟨_, hmem, decide_eq_true rfl⟩

/-- The variable that is found for a collection belongs to a collection. -/
theorem isTableVariable_of_tableVariable? {table : String} (h : r.tableVariable? table = some v) :
    r.isTableVariable v = true :=
  isTableVariable_iff.mpr ⟨table, Entries.mem_of_get? h⟩

/-- Registering a variable for a collection decides about this collection and about no other. -/
theorem tableVariable?_registerTable [Naming] (r : Registry) (table v name : String) :
    (r.registerTable table (some v)).2.tableVariable? name =
      if table = name then some v else r.tableVariable? name :=
  Entries.get?_put table name v r.tables

end Registry

namespace Text

variable {c : Char} {text : List Char}

theorem splitBy_ne_nil (cut : Char → Bool) (text : List Char) : splitBy cut text ≠ [] := by
  rw [splitBy_eq_splitOnP]
  exact List.splitOnP_ne_nil cut text

/-- A text without the character is a single piece. -/
theorem splitBy_of_notMem (h : c ∉ text) : splitBy (· == c) text = [text] := by
  rw [splitBy_eq_splitOnP]
  refine List.splitOnP_eq_singleton fun d hd => ?_
  simpa using fun heq : d = c => h (heq ▸ hd)

end Text

namespace Scope

variable {sc : Scope} {name column v : String} {path : List (List Char)}

/-- A column is written without regard to the projection if it is no name in it. -/
theorem resolve_eq_direct {normal : List Char} (hnormal : Column.normalForm column.toList = normal)
    (hreference : sc.aliases.expressionOf? (String.ofList normal) = none)
    (hprojected : '.' ∉ normal → sc.aliases.columnFor? (String.ofList normal) = none) :
    sc.resolve column = sc.resolveDirect normal := by
  unfold resolve resolveWithin
  simp only [hnormal, hreference]
  by_cases hdot : '.' ∈ normal
  · rw [if_pos (List.contains_iff_mem.mpr hdot)]
  · rw [if_neg (mt List.contains_iff_mem.mp hdot)]
    simp only [hprojected hdot]

/-- What holds of expressions and of columns that are written directly holds of each column, if the
names in the projection stand for no others. -/
theorem of_resolve {plain p : String → Prop}
    (hexpression : ∀ {name expression : String},
      sc.aliases.expressionOf? name = some expression → p expression)
    (hdirect : ∀ {column : String}, plain column →
      sc.aliases.expressionOf? (String.ofList (Column.normalForm column.toList)) = none →
      p (sc.resolveDirect (Column.normalForm column.toList)))
    (hnext : ∀ {name target : String}, sc.aliases.columnFor? name = some target → plain target)
    (h : plain column) : p (sc.resolve column) := by
  unfold resolve
  -- The names that are followed are plain, so the induction is over any plain column.
  generalize sc.aliases.columns.length = fuel
  induction fuel generalizing column with
  | zero =>
      unfold resolveWithin
      dsimp only
      split
      · rename_i expression he
        exact hexpression he
      · rename_i hnone
        split
        · exact hdirect h hnone
        · cases sc.aliases.columnFor? (String.ofList (Column.normalForm column.toList)) <;>
            exact hdirect h hnone
  | succ fuel ih =>
      unfold resolveWithin
      dsimp only
      split
      · rename_i expression he
        exact hexpression he
      · rename_i hnone
        split
        · exact hdirect h hnone
        · split
          · rename_i target rest htarget hfuel
            cases hfuel
            split
            · exact hdirect h hnone
            · exact ih (hnext htarget)
          · exact hdirect h hnone

/-- A column in normal form that refers to an attribute of a collection, given by its path: an
attribute of the main documents, if the main loop is over the collection, or an attribute behind the
collection's name. -/
inductive Refers (sc : Scope) (name column : String) (path : List (List Char)) : Prop
  | unqualified (hmain : sc.docVar = sc.aliases.tableVariable? name)
      (hpath : Column.segments (Column.normalForm column.toList) = path)
      (hreference : sc.aliases.expressionOf?
        (String.ofList (Column.normalForm column.toList)) = none)
      (hprojected : '.' ∉ Column.normalForm column.toList →
        sc.aliases.columnFor? (String.ofList (Column.normalForm column.toList)) = none)
      (hvariable : ∀ first ∈ path.head?, sc.aliases.isVariable (String.ofList first) = false)
      (htable : ∀ first ∈ path.head?, path.tail ≠ [] →
        sc.aliases.tableVariable? (String.ofList first) = none ∧
          sc.aliases.isTableVariable (String.ofList first) = false)
  | qualified (hpath : Column.segments (Column.normalForm column.toList) = name.toList :: path)
      (hne : path ≠ [])
      (hreference : sc.aliases.expressionOf?
        (String.ofList (Column.normalForm column.toList)) = none)
      (hvariable : sc.aliases.isVariable name = false)

/-- A reference has at least one attribute. -/
theorem Refers.ne_nil (h : sc.Refers name column path) : path ≠ [] := by
  cases h with
  | unqualified _ hpath => exact hpath ▸ Text.splitBy_ne_nil (· == '.') _
  | qualified _ hne => exact hne

/-- A reference to an attribute of a collection is written with the collection's variable. -/
theorem Refers.resolve_eq (h : sc.Refers name column path)
    (hv : sc.aliases.tableVariable? name = some v) :
    sc.resolve column = Column.pathText v path := by
  have hne := h.ne_nil
  cases h with
  | unqualified hmain hpath hreference hprojected hvariable htable =>
      obtain ⟨first, rest, rfl⟩ := List.exists_cons_of_ne_nil hne
      rw [resolve_eq_direct rfl hreference hprojected, resolveDirect, hpath]
      simp only [hvariable first rfl, hmain, hv, Bool.false_eq_true, if_false, Option.getD_some]
      cases rest with
      | nil => rfl
      | cons second rest =>
          obtain ⟨hnone, hfalse⟩ := htable first rfl (List.cons_ne_nil second rest)
          simp only [hnone, hfalse]
          rfl
  | qualified hpath _ hreference hvariable =>
      have hdot : '.' ∈ Column.normalForm column.toList := by
        by_contra hdot
        rw [Column.segments, Text.splitBy_of_notMem hdot] at hpath
        exact hne (List.cons.inj hpath).2.symm
      rw [resolve_eq_direct rfl hreference fun h => absurd hdot h, resolveDirect, hpath]
      simp only [String.ofList_toList, hvariable, hv, Bool.false_eq_true, if_false,
        List.isEmpty_eq_false_iff.mpr hne]

end Scope

end AqlBuilder

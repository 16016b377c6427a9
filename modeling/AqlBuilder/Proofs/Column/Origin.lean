import AqlBuilder.Proofs.Alias.Registry

/-!
# What a column stands for

A column is written in two stages. First the names in the projection are followed to a path; then
the path is written as a registered expression, behind a query variable, or behind a document
variable. Only in the last case does the text look at a document.

- `Scope.target` is the path that a column leads to, and `Scope.originAt` what a path stands for.
- `Scope.resolve_eq_origin`: a column is written as what it stands for.
- `Registry.Knows` are the names under which a registry has an expression or a variable.
-/

namespace AqlBuilder

/-- What a column stands for. -/
inductive Origin
  /-- The expression of a registered reference. -/
  | expression (text : String)
  /-- A query variable, or an attribute of it. -/
  | defined (name : String) (path : List (List Char))
  /-- An attribute of a document. -/
  | document (docVar : String) (path : List (List Char))
  deriving DecidableEq

/-- How it is written. -/
def Origin.text : Origin → String
  | expression text => text
  | defined name path => if path.isEmpty then name else Column.pathText name path
  | document docVar path => Column.pathText docVar path

/-- A path is written behind its variable with a dot between them. -/
theorem Column.pathText_of_ne_empty {docVar : String} {path : List (List Char)}
    (hdocVar : docVar ≠ "") (hpath : path ≠ []) :
    pathText docVar path = docVar ++ ("." ++ ".".intercalate (attributeTexts path)) := by
  obtain ⟨first, rest, rfl⟩ := List.exists_cons_of_ne_nil hpath
  have hne : attributeTexts (first :: rest) ≠ [] := List.cons_ne_nil _ _
  have hempty : docVar.isEmpty = false := by simpa using hdocVar
  simp only [pathText, hempty, Bool.false_eq_true, if_false]
  rw [String.intercalate_cons_of_ne_nil hne, String.append_assoc]

/-- A name that a registry knows as a reference, or as the expression of one. -/
inductive Registry.Knows (r : Registry) (name : String) : Prop
  | reference {expression : String} (h : (name, expression) ∈ r.definitions)
  | expression {reference : String} (h : (reference, name) ∈ r.definitions)

namespace Registry

variable {r : Registry} {name : String}

/-- A name is a variable just if the registry knows it. -/
theorem isVariable_iff : r.isVariable name = true ↔ r.Knows name := by
  unfold isVariable
  rw [List.any_eq_true]
  constructor
  · rintro ⟨⟨reference, expression⟩, hmem, h⟩
    rcases Bool.or_eq_true_iff.mp h with h | h
    · obtain rfl : reference = name := of_decide_eq_true h
      exact .reference hmem
    · obtain rfl : expression = name := of_decide_eq_true h
      exact .expression hmem
  · rintro (h | h)
    · exact ⟨_, h, Bool.or_eq_true_iff.mpr (.inl (decide_eq_true rfl))⟩
    · exact ⟨_, h, Bool.or_eq_true_iff.mpr (.inr (decide_eq_true rfl))⟩

/-- A name is no reference just if no definition has it. -/
theorem expressionOf?_eq_none_iff :
    r.expressionOf? name = none ↔ ∀ expression, (name, expression) ∉ r.definitions := by
  rw [← not_iff_not, ← ne_eq, Option.ne_none_iff_exists']
  push Not
  unfold expressionOf?
  rw [Entries.exists_get?]
  unfold Entries.keys
  rw [List.mem_map]
  constructor
  · rintro ⟨⟨key, expression⟩, hmem, rfl⟩
    exact ⟨expression, hmem⟩
  · rintro ⟨expression, hmem⟩
    exact ⟨_, hmem, rfl⟩

end Registry

namespace Scope

variable {sc : Scope} {column : String} {path : List Char}

/-- What a path stands for that is no name in the projection and no reference. -/
def directOrigin (sc : Scope) (path : List Char) : Origin :=
  match Column.segments path with
  | [] => .expression ""
  | first :: rest =>
    let name := String.ofList first
    if sc.aliases.isVariable name then .defined name rest
    else if rest.isEmpty then .document (sc.docVar.getD "") [first]
    else match sc.aliases.tableVariable? name with
      | some docVar => .document docVar rest
      | none =>
        if sc.aliases.isTableVariable name then .document name rest
        else .document (sc.docVar.getD "") (first :: rest)

/-- What a path stands for that is no name in the projection. -/
def originAt (sc : Scope) (path : List Char) : Origin :=
  match sc.aliases.expressionOf? (String.ofList path) with
  | some text => .expression text
  | none => sc.directOrigin path

/-- The path that a column leads to, following at most `fuel` names in the projection. References
and paths of several attributes lead no further. -/
def targetWithin (sc : Scope) : Nat → String → List Char
  | fuel, column =>
    let path := Column.normalForm column.toList
    let name := String.ofList path
    if (sc.aliases.expressionOf? name).isSome || path.contains '.' then path
    else match sc.aliases.columnFor? name, fuel with
      | some target, fuel + 1 => if target = name then path else sc.targetWithin fuel target
      | _, _ => path

/-- The path that a column leads to. -/
def target (sc : Scope) (column : String) : List Char :=
  sc.targetWithin sc.aliases.columns.length column

/-- What a column stands for. -/
def origin (sc : Scope) (column : String) : Origin := sc.originAt (sc.target column)

/-- A path of several segments leads no further. -/
theorem target_of_dot (h : '.' ∈ Column.normalForm column.toList) :
    sc.target column = Column.normalForm column.toList := by
  have hdot : (Column.normalForm column.toList).contains '.' = true := List.contains_iff_mem.mpr h
  unfold target targetWithin
  dsimp only
  rw [hdot, Bool.or_true, if_pos rfl]

/-- A path of a document has all of its segments, if the first one stands alone or names no
collection, or those behind the name of a collection or its variable. -/
theorem cases_of_document {docVar : String} {attributes : List (List Char)}
    (h : sc.directOrigin path = .document docVar attributes) :
    ∃ first rest, Column.segments path = first :: rest ∧
      ((attributes = first :: rest ∧ docVar = sc.docVar.getD "" ∧
          (rest ≠ [] → sc.aliases.tableVariable? (String.ofList first) = none ∧
            sc.aliases.isTableVariable (String.ofList first) = false)) ∨
        (attributes = rest ∧ rest ≠ [] ∧
          (sc.aliases.tableVariable? (String.ofList first) = some docVar ∨
            (docVar = String.ofList first ∧ sc.aliases.isTableVariable docVar = true)))) := by
  unfold directOrigin at h
  split at h
  · cases h
  rename_i first rest hsegments
  refine ⟨first, rest, hsegments, ?_⟩
  dsimp only at h
  split at h
  · cases h
  split at h
  case isTrue hempty =>
    cases h
    rw [List.isEmpty_iff] at hempty
    exact .inl ⟨by rw [hempty], rfl, fun hne => absurd hempty hne⟩
  case isFalse hrest =>
    rw [List.isEmpty_iff] at hrest
    split at h
    case h_1 v hv =>
      cases h
      exact .inr ⟨rfl, hrest, .inl hv⟩
    case h_2 hnone =>
      split at h
      case isTrue hvariable =>
        cases h
        exact .inr ⟨rfl, hrest, .inr ⟨rfl, hvariable⟩⟩
      case isFalse hvariable =>
        cases h
        exact .inl ⟨rfl, rfl, fun _ => ⟨hnone, Bool.eq_false_iff.mpr hvariable⟩⟩

/-- What stands for an attribute of a document does so directly. -/
theorem directOrigin_of_originAt {docVar : String} {attributes : List (List Char)}
    (h : sc.originAt path = .document docVar attributes) :
    sc.directOrigin path = .document docVar attributes := by
  unfold originAt at h
  split at h
  · cases h
  · exact h

/-- What stands for an attribute of a document has an attribute. -/
theorem path_ne_nil_of_document {docVar : String} {attributes : List (List Char)}
    (h : sc.origin column = .document docVar attributes) : attributes ≠ [] := by
  obtain ⟨first, rest, -, ⟨rfl, -⟩ | ⟨rfl, hrest, -⟩⟩ :=
    cases_of_document (directOrigin_of_originAt h)
  · exact List.cons_ne_nil first rest
  · exact hrest

/-- A path is written as the text of what it stands for. -/
theorem resolveDirect_eq_origin (sc : Scope) (path : List Char) :
    sc.resolveDirect path = (sc.directOrigin path).text := by
  unfold resolveDirect directOrigin
  cases Column.segments path with
  | nil => rfl
  | cons first rest =>
      dsimp only
      split
      · rfl
      split
      · rfl
      cases sc.aliases.tableVariable? (String.ofList first) with
      | some docVar => rfl
      | none =>
          dsimp only
          split <;> rfl

/-- A path that leads no further. -/
theorem stop_eq_origin (sc : Scope) (path : List Char)
    (h : sc.aliases.expressionOf? (String.ofList path) = none) :
    sc.resolveDirect path = (sc.originAt path).text := by
  unfold originAt
  rw [h]
  exact sc.resolveDirect_eq_origin path

/-- A column is written as the text of what the path at its end stands for. -/
theorem resolveWithin_eq_origin (sc : Scope) (fuel : Nat) (column : String) :
    sc.resolveWithin fuel column = (sc.originAt (sc.targetWithin fuel column)).text := by
  induction fuel generalizing column with
  | zero =>
      unfold resolveWithin targetWithin
      dsimp only
      cases href : sc.aliases.expressionOf? (String.ofList (Column.normalForm column.toList)) with
      | some text => simp [originAt, href, Origin.text]
      | none =>
          have hstop := sc.stop_eq_origin _ href
          cases sc.aliases.columnFor? (String.ofList (Column.normalForm column.toList)) <;>
            simp [hstop]
  | succ fuel ih =>
      unfold resolveWithin targetWithin
      dsimp only
      cases href : sc.aliases.expressionOf? (String.ofList (Column.normalForm column.toList)) with
      | some text => simp [originAt, href, Origin.text]
      | none =>
          have hstop := sc.stop_eq_origin _ href
          cases sc.aliases.columnFor? (String.ofList (Column.normalForm column.toList)) with
          | none => simp [hstop]
          | some target =>
              -- One more name in the projection is followed on both sides.
              simp only [Option.isSome_none, Bool.false_or, ih target]
              split
              · exact hstop
              split
              · exact hstop
              · rfl

/-- A column is written as what it stands for. -/
theorem resolve_eq_origin (sc : Scope) (column : String) :
    sc.resolve column = (sc.origin column).text :=
  sc.resolveWithin_eq_origin _ column

end Scope

end AqlBuilder

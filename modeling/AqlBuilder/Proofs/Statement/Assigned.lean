import AqlBuilder.Proofs.Entries
import AqlBuilder.Proofs.Text.Joined
import AqlBuilder.Statement.Row

/-!
# What an update assigns in the end

An assignment takes the place of earlier ones to its own path, to a part of it or to a path that
continues it. Two paths that part at some attribute do not touch each other, so an expression stays
until an assignment to a path that does not part from its own.

- `Assigned.leafAt` looks a path up.
- `Assigned.leafAt_assignPath`: an assignment is there afterwards.
- `Assigned.leafAt_assignPath_of_apart`: and all others that part from it.
- `Assigned.leafAt_assignPath_nil`: on its own it is there at its own path and nowhere else.
- `Assigned.each_assignPath`: an assignment brings in nothing but its attributes and its expression.
-/

namespace AqlBuilder.Assigned

/-- The texts of the attributes, one by one. -/
theorem fieldTexts_eq_map (fields : List (String × Assigned)) :
    fieldTexts fields = fields.map fun field => (field.1, field.2.text) := by
  induction fields with
  | nil => rfl
  | cons first rest ih =>
      rw [fieldTexts, ih]
      rfl

@[simp] theorem fieldsOf_none : fieldsOf none = [] := rfl

@[simp] theorem fieldsOf_value (aql : String) : fieldsOf (some (value aql)) = [] := rfl

/-- The expression that is assigned to a path. -/
def leafAt : List String → Entries Assigned → Option String
  | [], _ => none
  | [last], fields =>
    match fields.get? last with
    | some (value aql) => some aql
    | _ => none
  | first :: next :: rest, fields => leafAt (next :: rest) (fieldsOf (fields.get? first))

/-- Two paths that part at some attribute. -/
inductive Apart : List String → List String → Prop
  | here {first other : String} {path path' : List String} :
      first ≠ other → Apart (first :: path) (other :: path')
  | later {first : String} {path path' : List String} :
      Apart path path' → Apart (first :: path) (first :: path')

variable {path path' : List String} {aql : String} {fields : Entries Assigned}

/-- A path is as good as what it leads to from its first attribute. -/
theorem leafAt_congr {first : String} {fields' : Entries Assigned}
    (h : fields.get? first = fields'.get? first) (path : List String) :
    leafAt (first :: path) fields = leafAt (first :: path) fields' := by
  cases path with
  | nil => rw [leafAt, leafAt, h]
  | cons next rest => rw [leafAt, leafAt, h]

/-- In an object without attributes nothing is found. -/
theorem leafAt_none (path : List String) : leafAt path [] = none := by
  induction path with
  | nil => rfl
  | cons first rest ih =>
      cases rest with
      | nil => rfl
      | cons next rest => exact ih

/-- What was assigned to a path is found there. -/
theorem leafAt_assignPath (hpath : path ≠ []) :
    leafAt path (assignPath aql path fields) = some aql := by
  induction path generalizing fields with
  | nil => exact absurd rfl hpath
  | cons first rest ih =>
      cases rest with
      | nil =>
          rw [assignPath, leafAt, Entries.get?_put, if_pos rfl]
      | cons next rest =>
          rw [assignPath, leafAt, Entries.get?_put, if_pos rfl]
          exact ih (List.cons_ne_nil next rest)

/-- An assignment to a path leaves what is found along a path apart from it. -/
theorem leafAt_assignPath_of_apart (h : Apart path path') :
    leafAt path (assignPath aql path' fields) = leafAt path fields := by
  induction h generalizing fields with
  | @here first other path path' hne =>
      cases path' with
      | nil =>
          refine leafAt_congr ?_ path
          rw [assignPath, Entries.get?_put, if_neg (Ne.symm hne)]
      | cons next rest =>
          refine leafAt_congr ?_ path
          rw [assignPath, Entries.get?_put, if_neg (Ne.symm hne)]
  | @later first path path' hapart ih =>
      obtain ⟨next, rest, rfl⟩ : ∃ next rest, path = next :: rest := by
        cases hapart with
        | here _ => exact ⟨_, _, rfl⟩
        | later _ => exact ⟨_, _, rfl⟩
      obtain ⟨next', rest', rfl⟩ : ∃ next' rest', path' = next' :: rest' := by
        cases hapart with
        | here _ => exact ⟨_, _, rfl⟩
        | later _ => exact ⟨_, _, rfl⟩
      rw [assignPath, leafAt, Entries.get?_put, if_pos rfl, leafAt]
      exact ih

/-- The only assignment is found at its path alone. -/
theorem leafAt_assignPath_nil (hpath : path' ≠ []) :
    leafAt path (assignPath aql path' []) = some aql ↔ path = path' := by
  refine ⟨fun h => ?_, fun h => by rw [h, leafAt_assignPath hpath]⟩
  induction path' generalizing path with
  | nil => exact absurd rfl hpath
  | cons first' rest' ih =>
      cases path with
      | nil => cases h
      | cons first rest =>
          by_cases hfirst : first' = first
          · subst hfirst
            cases rest' with
            | nil =>
                cases rest with
                | nil => rfl
                | cons next rest =>
                    rw [assignPath, leafAt, Entries.get?_put, if_pos rfl, fieldsOf_value,
                      leafAt_none] at h
                    cases h
            | cons next' rest' =>
                cases rest with
                | nil =>
                    rw [assignPath, leafAt, Entries.get?_put, if_pos rfl] at h
                    cases h
                | cons next rest =>
                    rw [assignPath, leafAt, Entries.get?_put, if_pos rfl] at h
                    rw [ih (List.cons_ne_nil next' rest') h]
          · have hapart : Apart (first :: rest) (first' :: rest') := .here (Ne.symm hfirst)
            rw [leafAt_assignPath_of_apart hapart, leafAt_none] at h
            cases h

section each

variable {key expression expression' : String → Prop}

/-- Assigned attributes of some kind with expressions of some kind. -/
inductive Each (key expression : String → Prop) : Assigned → Prop
  | value {aql : String} (h : expression aql) : Each key expression (.value aql)
  | nested {fields : List (String × Assigned)} (hkeys : ∀ field ∈ fields, key field.1)
      (h : ∀ field ∈ fields, Each key expression field.2) : Each key expression (.nested fields)

/-- What holds of all keys and expressions holds if it is weakened. -/
theorem Each.mono {a : Assigned} (h : a.Each key expression)
    (himp : ∀ aql, expression aql → expression' aql) : a.Each key expression' := by
  induction h with
  | value h => exact .value (himp _ h)
  | nested hkeys _ ih => exact .nested hkeys ih

/-- If object literals are expressions of the kind, so is the written object. -/
theorem Each.text {a : Assigned} (h : a.Each key expression)
    (hobject : ∀ entries : List (String × String),
      (∀ entry ∈ entries, key entry.1 ∧ expression entry.2) →
        expression (Aql.objectLiteral entries)) : expression a.text := by
  induction h with
  | value h =>
      rw [Assigned.text]
      exact h
  | nested hkeys _ ih =>
      rw [Assigned.text, fieldTexts_eq_map]
      refine hobject _ fun entry hentry => ?_
      obtain ⟨field, hfield, rfl⟩ := List.mem_map.mp hentry
      exact ⟨hkeys field hfield, ih field hfield⟩

/-- What holds of all keys and expressions still does when one attribute is put that keeps to it. -/
theorem each_put (h : (nested fields).Each key expression) {name : String} (hname : key name)
    {a : Assigned} (ha : a.Each key expression) :
    (nested (fields.put name a)).Each key expression := by
  cases h with
  | nested hkeys h =>
      refine .nested (fun field hfield => ?_) fun field hfield => ?_
      · rcases Entries.mem_put hfield with hold | rfl
        · exact hkeys field hold
        · exact hname
      · rcases Entries.mem_put hfield with hold | rfl
        · exact h field hold
        · exact ha

/-- Everything holds of the keys and expressions of an empty object. -/
theorem each_none : (nested []).Each key expression :=
  .nested (fun _ hfield => (List.not_mem_nil hfield).elim)
    fun _ hfield => (List.not_mem_nil hfield).elim

/-- What holds of all keys and expressions of an object holds of those under an attribute. -/
theorem each_fieldsOf (h : (nested fields).Each key expression) (name : String) :
    (nested (fieldsOf (fields.get? name))).Each key expression := by
  cases h with
  | nested _ h =>
      cases hget : fields.get? name with
      | none => exact each_none
      | some field =>
          have hfield := h _ (Entries.mem_of_get? hget)
          cases field with
          | value aql => exact each_none
          | nested inner => exact hfield

/-- An assignment brings in nothing but its attributes and its expression. -/
theorem each_assignPath (haql : expression aql) (hpath : ∀ part ∈ path, key part)
    (h : (nested fields).Each key expression) :
    (nested (assignPath aql path fields)).Each key expression := by
  induction path generalizing fields with
  | nil => exact h
  | cons first rest ih =>
      have hfirst := hpath first List.mem_cons_self
      cases rest with
      | nil => exact each_put h hfirst (.value haql)
      | cons next rest =>
          have hrest := ih (fun part hpart => hpath part (List.mem_cons_of_mem first hpart))
            (each_fieldsOf h first)
          exact each_put h hfirst hrest

end each

/-- Every attribute has a path. -/
theorem pathOf_ne_nil (column : String) : pathOf column ≠ [] := by
  unfold pathOf
  dsimp only
  split
  · exact List.cons_ne_nil _ _
  · rename_i hparts
    exact absurd (List.map_eq_nil_iff.mp hparts) (Text.splitArrow_ne_nil column.toList)

end AqlBuilder.Assigned

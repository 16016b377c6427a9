import AqlBuilder.Proofs.Json.Quoted
import AqlBuilder.Proofs.Statement.Assigned
import AqlBuilder.Proofs.Statement.Shape
import Mathlib.Data.List.Nodup

/-!
# The last assignment wins

Assignments are made one after the other, and each of them turns whatever stands in its way into
what it needs: an object on its path, the expression at its end. So one assignment decides about
every path that meets its own: what was assigned to the path itself, to a part of it or to a path
that continues it is gone. It leaves the paths that part from its own as they were. By induction on
the assignments an expression is found at a path just if it was assigned there and every later
assignment parts from the path.

The shape of the objects is kept on the way: an object is put on a path only to hold the rest of the
path, and putting an attribute under a key that is there does not repeat the key. A key is written
bare or as a quoted string, neither of which can be taken for the other, so the keys of an object
are as distinct in the text as they are in the object.

- `Assigned.apart_iff`: two paths part just if neither begins with the other.
- `Assigned.leafAt_assignPath_iff`: what is found after one assignment.
- `Assigned.leafAt_assignAll_iff`: what is found after all of them.
- `Assigned.Throughout`, `Assigned.Rooted.assignAll`: what holds of the objects at every level.
- `Aql.Spells`, `Assigned.Written`: a key and an object in the text.
- `Builder.yields_assigned_all`: the object of an update is made this way.
- `Assigned.last_assignment_wins`: the law.
-/

namespace AqlBuilder

namespace Assigned

variable {path path' : List String} {aql found : String} {fields : Entries Assigned}

theorem Apart.symm (h : Apart path path') : Apart path' path := by
  induction h with
  | here hne => exact .here hne.symm
  | later _ ih => exact .later ih

/-- A path that parts from another one does not lead to it. -/
theorem Apart.not_prefix (h : Apart path path') : ¬ path <+: path' := by
  induction h with
  | here hne =>
      intro hprefix
      exact hne (List.cons_prefix_cons.mp hprefix).1
  | later _ ih =>
      intro hprefix
      exact ih (List.cons_prefix_cons.mp hprefix).2

/-- Two paths part just if neither begins with the other. -/
theorem apart_iff : Apart path path' ↔ ¬ path <+: path' ∧ ¬ path' <+: path := by
  constructor
  · intro h
    exact ⟨h.not_prefix, h.symm.not_prefix⟩
  · rintro ⟨hleft, hright⟩
    induction path generalizing path' with
    | nil => exact absurd List.nil_prefix hleft
    | cons first rest ih =>
        cases path' with
        | nil => exact absurd List.nil_prefix hright
        | cons first' rest' =>
            by_cases hfirst : first = first'
            · subst hfirst
              apply Apart.later
              apply ih
              · intro h
                exact hleft (List.cons_prefix_cons.mpr ⟨rfl, h⟩)
              · intro h
                exact hright (List.cons_prefix_cons.mpr ⟨rfl, h⟩)
            · exact .here hfirst

/-- On its path an assignment leaves objects, and behind its path nothing. -/
theorem leafAt_assignPath_of_met (hne : path ≠ path') (h : ¬ Apart path path')
    (hpath' : path' ≠ []) : leafAt path (assignPath aql path' fields) = none := by
  induction path' generalizing path fields with
  | nil => exact absurd rfl hpath'
  | cons first' rest' ih =>
      cases path with
      | nil => rfl
      | cons first rest =>
          have hfirst : first = first' := by
            by_contra hother
            exact h (.here hother)
          subst hfirst
          have hrest : ¬ Apart rest rest' := fun hapart => h (.later hapart)
          cases rest' with
          | nil =>
              cases rest with
              | nil => exact absurd rfl hne
              | cons next rest =>
                  rw [assignPath, leafAt, Entries.get?_put, if_pos rfl, fieldsOf_value, leafAt_none]
          | cons next' rest' =>
              cases rest with
              | nil => rw [assignPath, leafAt, Entries.get?_put, if_pos rfl]
              | cons next rest =>
                  rw [assignPath, leafAt, Entries.get?_put, if_pos rfl]
                  apply ih _ hrest (List.cons_ne_nil next' rest')
                  rintro heq
                  exact hne (by rw [heq])

/-- After an assignment its expression is found at its path, and at the paths that part from it what
was there before. -/
theorem leafAt_assignPath_iff (hpath' : path' ≠ []) :
    leafAt path (assignPath aql path' fields) = some found ↔
      (path' = path ∧ aql = found) ∨ (Apart path path' ∧ leafAt path fields = some found) := by
  by_cases heq : path' = path
  · subst heq
    have hself : ¬ Apart path' path' := fun h => h.not_prefix List.prefix_rfl
    rw [leafAt_assignPath hpath']
    simp [hself]
  · by_cases hapart : Apart path path'
    · rw [leafAt_assignPath_of_apart hapart]
      simp [heq, hapart]
    · rw [leafAt_assignPath_of_met (Ne.symm heq) hapart hpath']
      simp [heq, hapart]

/-- Make assignments in turn, each an attribute with its expression. -/
def assignAll (fields : Entries Assigned) (pairs : List (String × String)) : Entries Assigned :=
  pairs.foldl (fun fields pair => assign fields pair.1 pair.2) fields

variable {pairs : List (String × String)}

@[simp] theorem assignAll_nil (fields : Entries Assigned) : assignAll fields [] = fields := rfl

@[simp] theorem assignAll_cons (fields : Entries Assigned) (pair : String × String)
    (pairs : List (String × String)) :
    assignAll fields (pair :: pairs) = assignAll (assign fields pair.1 pair.2) pairs := rfl

/-- No assignment meets a path: none goes to it, to a part of it or to a path that continues it. -/
def Unmet (path : List String) (pairs : List (String × String)) : Prop :=
  ∀ pair ∈ pairs, ¬ pathOf pair.1 <+: path ∧ ¬ path <+: pathOf pair.1

/-- An expression is assigned to a path, and no later assignment meets it. -/
def LastAt (path : List String) (aql : String) (pairs : List (String × String)) : Prop :=
  ∃ earlier column later, pairs = earlier ++ (column, aql) :: later ∧ pathOf column = path ∧
    Unmet path later

/-- No assignment meets a path just if the first one parts from it and no later one meets it. -/
theorem unmet_cons {pair : String × String} :
    Unmet path (pair :: pairs) ↔ Apart path (pathOf pair.1) ∧ Unmet path pairs := by
  unfold Unmet
  rw [List.forall_mem_cons, apart_iff, and_comm (a := ¬ path <+: _)]

/-- The last assignment to a path is among the later ones, or it is the first and none of those
meets the path. -/
theorem lastAt_cons {pair : String × String} : LastAt path aql (pair :: pairs) ↔
    LastAt path aql pairs ∨ (pathOf pair.1 = path ∧ pair.2 = aql ∧ Unmet path pairs) := by
  constructor
  · rintro ⟨earlier, column, later, hpairs, hpath, hlater⟩
    cases earlier with
    | nil =>
        obtain ⟨rfl, rfl⟩ := List.cons.inj hpairs
        exact .inr ⟨hpath, rfl, hlater⟩
    | cons first earlier =>
        exact .inl ⟨earlier, column, later, (List.cons.inj hpairs).2, hpath, hlater⟩
  · rintro (⟨earlier, column, later, rfl, hpath, hlater⟩ | ⟨hpath, rfl, hlater⟩)
    · exact ⟨pair :: earlier, column, later, rfl, hpath, hlater⟩
    · exact ⟨[], pair.1, pairs, rfl, hpath, hlater⟩

/-- After all assignments an expression is found at a path if it was assigned there last, or if it
was there before and no assignment meets the path. -/
theorem leafAt_assignAll_iff : leafAt path (assignAll fields pairs) = some aql ↔
    LastAt path aql pairs ∨ (Unmet path pairs ∧ leafAt path fields = some aql) := by
  induction pairs generalizing fields with
  | nil =>
      have hlast : ¬ LastAt path aql [] := by
        rintro ⟨earlier, column, later, hpairs, -⟩
        exact List.append_ne_nil_of_right_ne_nil earlier (List.cons_ne_nil _ _) hpairs.symm
      have hunmet : Unmet path [] := fun _ hpair => (List.not_mem_nil hpair).elim
      simp [hlast, hunmet]
  | cons pair pairs ih =>
      rw [assignAll_cons, ih, assign, leafAt_assignPath_iff (pathOf_ne_nil pair.1), lastAt_cons,
        unmet_cons]
      tauto

section levels

variable {P Q : Entries Assigned → Prop} {a : Assigned}

/-- Something holds of the objects at every level. -/
inductive Throughout (P : Entries Assigned → Prop) : Assigned → Prop
  | value (aql : String) : Throughout P (.value aql)
  | nested {fields : List (String × Assigned)} (here : P fields)
      (below : ∀ field ∈ fields, Throughout P field.2) : Throughout P (.nested fields)

/-- What holds at every level holds if it is weakened. -/
theorem Throughout.mono (h : a.Throughout P) (himp : ∀ fields, P fields → Q fields) :
    a.Throughout Q := by
  induction h with
  | value aql => exact .value aql
  | nested here _ ih => exact .nested (himp _ here) ih

/-- An object without attributes, or one where something holds at every level. -/
def Rooted (P : Entries Assigned → Prop) (fields : Entries Assigned) : Prop :=
  fields = [] ∨ (nested fields).Throughout P

/-- What holds at every level holds of what is under the attributes. -/
theorem Rooted.below (h : Rooted P fields) : ∀ field ∈ fields, field.2.Throughout P := by
  rcases h with rfl | h
  · exact fun _ hfield => (List.not_mem_nil hfield).elim
  · cases h with
    | nested _ below => exact below

/-- What is under an attribute has none, or something holds of it at every level. -/
theorem Rooted.fieldsOf (h : Rooted P fields) (name : String) :
    Rooted P (fieldsOf (fields.get? name)) := by
  cases hget : fields.get? name with
  | none => exact .inl rfl
  | some field =>
      have hfield := h.below _ (Entries.mem_of_get? hget)
      cases field with
      | value aql => exact .inl rfl
      | nested inner => exact .inr hfield

/-- Something that putting an attribute brings about or keeps. -/
def KeptByPut (P : Entries Assigned → Prop) : Prop :=
  ∀ fields name a, Rooted P fields → P (fields.put name a)

/-- Putting an attribute brings about what it is to bring about, at every level. -/
theorem Rooted.put (h : Rooted P fields) (hP : KeptByPut P) (ha : a.Throughout P) (name : String) :
    (nested (fields.put name a)).Throughout P := by
  refine .nested (hP fields name a h) fun field hfield => ?_
  rcases Entries.mem_put hfield with hold | rfl
  · exact h.below field hold
  · exact ha

/-- An assignment brings about what putting attributes brings about, at every level. -/
theorem Rooted.assignPath (h : Rooted P fields) (hP : KeptByPut P) (hpath : path ≠ []) :
    (nested (assignPath aql path fields)).Throughout P := by
  induction path generalizing fields with
  | nil => exact absurd rfl hpath
  | cons first rest ih =>
      cases rest with
      | nil => exact h.put hP (.value aql) first
      | cons next rest =>
          have hrest := ih (h.fieldsOf first) (List.cons_ne_nil next rest)
          exact h.put hP hrest first

/-- Assignments bring it about or keep it at every level. -/
theorem Rooted.assignAll (h : Rooted P fields) (hP : KeptByPut P) :
    Rooted P (assignAll fields pairs) := by
  induction pairs generalizing fields with
  | nil => exact h
  | cons pair pairs ih => exact ih (.inr (h.assignPath hP (pathOf_ne_nil pair.1)))

/-- An object with distinct keys, of which there is at least one. -/
def Distinct (fields : Entries Assigned) : Prop := (Entries.keys fields).Nodup ∧ fields ≠ []

/-- Putting an attribute keeps the attributes distinct. -/
theorem distinct_put : KeptByPut Distinct := by
  intro fields name a h
  have hkeys : (Entries.keys fields).Nodup := by
    rcases h with rfl | h
    · exact List.nodup_nil
    · cases h with
      | nested here _ => exact here.1
  constructor
  · rw [Entries.keys_put]
    by_cases hname : name ∈ Entries.keys fields
    · rw [if_pos hname]
      exact hkeys
    · rw [if_neg hname]
      exact List.nodup_append.mpr ⟨hkeys, List.nodup_singleton name,
        fun key hkey other hother heq => hname (by rwa [← List.mem_singleton.mp hother, ← heq])⟩
  · intro hnil
    have hname : name ∈ Entries.keys (fields.put name a) := Entries.mem_keys_put.mpr (.inr rfl)
    rw [hnil] at hname
    exact List.not_mem_nil hname

end levels

end Assigned

namespace Aql

/-- How a name is written as a key: bare where it may stand bare, otherwise as a quoted string that
is read as the name. -/
def Spells (name text : String) : Prop :=
  (isBare name = true ∧ text = name) ∨
    (isBare name = false ∧ text = Json.quote name ∧ Json.read? text = some (.string name))

/-- Every name is written so that it is read back as a key. -/
theorem spells_objectKey (name : String) : Spells name (objectKey name) := by
  unfold objectKey
  by_cases hbare : isBare name = true
  · rw [if_pos hbare]
    exact .inl ⟨hbare, rfl⟩
  · rw [if_neg hbare]
    exact .inr ⟨eq_false_of_ne_true hbare, rfl, Json.read?_quote name⟩

/-- A quoted string is no identifier. -/
theorem isBare_quote (name : String) : isBare (Json.quote name) = false := by
  have hchars : isIdentifier (Json.quote name) = false := by
    rw [isIdentifier, Json.quote, String.toList_ofList]
    rfl
  rw [isBare, hchars, Bool.false_and]

/-- No two names are written alike. -/
theorem Spells.unique {name other text : String} (h : Spells name text) (h' : Spells other text) :
    name = other := by
  rcases h with ⟨hbare, rfl⟩ | ⟨hquoted, rfl, -⟩
  · rcases h' with ⟨-, rfl⟩ | ⟨-, rfl, -⟩
    · rfl
    · rw [isBare_quote] at hbare
      cases hbare
  · rcases h' with ⟨hbare, rfl⟩ | ⟨-, htext, -⟩
    · rw [isBare_quote] at hbare
      cases hbare
    · exact Json.quote_injective htext

end Aql

namespace Builder

open Outcome

/-- The object of an update is made by assigning the texts of the operands in turn. -/
theorem yields_assigned_all [Naming] (w : Builder) (assignments : List (String × Operand Builder))
    (fields : Entries Assigned) :
    (w.assigned fields assignments).Yields fun result => ∃ pairs,
      pairs.map Prod.fst = assignments.map Prod.fst ∧
        result.1 = Assigned.assignAll fields pairs := by
  induction assignments generalizing w fields with
  | nil => exact yields_pure ⟨[], rfl, rfl⟩
  | cons first rest ih =>
      refine (yields_any _).bind fun bound _ => ?_
      refine (ih bound.2 _).mono fun result ⟨pairs, hkeys, hresult⟩ => ?_
      exact ⟨(first.1, bound.1) :: pairs, congrArg (first.1 :: ·) hkeys, hresult⟩

end Builder

namespace Assigned

/-- An object in the text: one name for each key, no name twice, each with the text of what is
assigned. -/
def Written (fields : Entries Assigned) : Prop :=
  ∃ names, List.Forall₂ (fun field name => Aql.Spells field.1 name) fields names ∧ names.Nodup ∧
    (nested fields).text = "\x7b" ++ ", ".intercalate
      (List.zipWith (fun field name => name ++ ": " ++ field.2.text) fields names) ++ "\x7d"

/-- An object with distinct attributes is written with each of them once. -/
theorem written_of_nodup {fields : Entries Assigned} (h : (Entries.keys fields).Nodup) :
    Written fields := by
  refine ⟨fields.map fun field => Aql.objectKey field.1, ?_, ?_, ?_⟩
  · rw [List.forall₂_map_right_iff]
    exact List.forall₂_same.mpr fun field _ => Aql.spells_objectKey field.1
  · have hinj : Function.Injective Aql.objectKey := by
      intro name other hnames
      have hname := Aql.spells_objectKey name
      rw [hnames] at hname
      exact hname.unique (Aql.spells_objectKey other)
    have hnames := List.Nodup.map hinj h
    rwa [Entries.keys, List.map_map] at hnames
  · rw [text, Aql.objectLiteral_eq, fieldTexts_eq_map, List.map_map, List.zipWith_map_right,
      List.zipWith_self]
    rfl

/-- **The last assignment wins.**  After assignments to any paths an expression is found at a path
just if it was assigned there and no later assignment went to the path, to a part of it or to a path
that continues it. No object inside is empty, the keys of every object are distinct, and every
object is written with its keys bare or quoted, so that they stay distinct. The object of an update
is made by such assignments, one for each key. -/
theorem last_assignment_wins [Naming] (pairs : List (String × String)) :
    (∀ path aql, leafAt path (assignAll [] pairs) = some aql ↔ LastAt path aql pairs) ∧
      (∀ field ∈ assignAll [] pairs, field.2.Throughout (· ≠ [])) ∧
      ((nested (assignAll [] pairs)).Throughout fun fields =>
        (Entries.keys fields).Nodup ∧ Written fields) ∧
      ∀ (w : Builder) (changes : List (String × Operand Builder)),
        (w.assigned [] changes).Yields fun result => ∃ made,
          made.map Prod.fst = changes.map Prod.fst ∧ result.1 = assignAll [] made := by
  have hrooted : Rooted Distinct (assignAll [] pairs) :=
    Rooted.assignAll (.inl rfl) distinct_put
  refine ⟨fun path aql => ?_, fun field hfield => ?_, ?_,
    fun w changes => w.yields_assigned_all changes []⟩
  · rw [leafAt_assignAll_iff, leafAt_none]
    simp
  · exact (hrooted.below field hfield).mono fun _ h => h.2
  · rcases hrooted with hnil | h
    · rw [hnil]
      exact .nested ⟨List.nodup_nil, written_of_nodup List.nodup_nil⟩
        fun _ hfield => (List.not_mem_nil hfield).elim
    · exact h.mono fun _ h => ⟨h.1, written_of_nodup h.1⟩

/-- An object takes the place of an expression and is replaced as a whole. -/
example :
    (nested (assignAll [] [("id", "@a"), ("ui", "@b"), ("ui -> theme", "@c"), ("ui->lang", "@d"),
      ("id", "@e"), ("first name", "@f")])).text =
      "\x7b_key: @e, ui: \x7btheme: @c, lang: @d\x7d, \"first name\": @f\x7d" := by decide +kernel

end Assigned

end AqlBuilder

import AqlBuilder.Proofs.Builder.Contained
import AqlBuilder.Proofs.Builder.Grouping
import AqlBuilder.Proofs.Column.Marks
import AqlBuilder.Proofs.Query.Formula

/-!
# What holds of builders that are made

Two conditions are met by every builder that methods make: its names are those of its sources and
query variables, and none of its groups of conditions is empty. Both are kept by every rule of
`Builder.Made`.
-/

/-!
## The names that a builder registers

The methods of a builder give every collection a variable that is not empty, and register a query
variable as a reference to itself. A name that is registered again replaces the one before. So no
registry of a builder has an empty variable or two entries for one reference, and no reference of it
stands for anything but itself. That changes only behind groups.

- `Scope.Proper` is the condition, and `Builder.Made.proper` says that every builder meets it.
- `Scope.docVar_ne_empty`: an attribute of a document is written behind a variable.
-/

namespace AqlBuilder

/-- A registry in which every collection has a variable, and every query variable is a reference to
itself. -/
structure Registry.Proper (r : Registry) : Prop where
  tables : ∀ entry ∈ r.tables, entry.2 ≠ ""
  definitions : ∀ entry ∈ r.definitions, entry.2 = entry.1
  nodup : (Entries.keys r.definitions).Nodup

/-- A scope with such names, whose main loop has a variable if there is one. -/
structure Scope.Proper (sc : Scope) : Prop where
  aliases : sc.aliases.Proper
  docVar : ∀ v ∈ sc.docVar, v ≠ ""

namespace Entries

variable {α : Type} {entries : Entries α} {key : String} {value : α}

/-- Putting a value under a key leaves the keys distinct. -/
theorem nodup_put (h : (keys entries).Nodup) (key : String) (value : α) :
    (keys (entries.put key value)).Nodup := by
  rw [keys_put]
  split
  · exact h
  case isFalse hnew =>
      exact List.nodup_append'.mpr
        ⟨h, List.nodup_singleton key, List.disjoint_singleton.mpr hnew⟩

/-- Putting values one after another leaves the keys distinct. -/
theorem nodup_putAll (h : (keys entries).Nodup) (pairs : Entries α) :
    (keys (entries.putAll pairs)).Nodup := by
  induction pairs generalizing entries with
  | nil => exact h
  | cons pair rest ih => exact ih (nodup_put h pair.1 pair.2)

/-- If no key comes twice, every entry is found. -/
theorem get?_of_mem (h : (keys entries).Nodup) (hmem : (key, value) ∈ entries) :
    entries.get? key = some value := by
  induction entries with
  | nil => cases hmem
  | cons pair rest ih =>
      obtain ⟨hnew, hrest⟩ := List.nodup_cons.mp h
      unfold get?
      rcases List.mem_cons.mp hmem with rfl | hmem
      · exact if_pos rfl
      · have hkey : key ∈ keys rest := List.mem_map_of_mem (f := Prod.fst) hmem
        have hother : pair.1 ≠ key := fun hsame => hnew (hsame ▸ hkey)
        rw [if_neg hother]
        exact ih hrest hmem

end Entries

namespace Registry

variable {r other : Registry}

/-- Importing entries leaves the keys distinct. -/
theorem nodup_imported {own : Entries String} (h : (Entries.keys own).Nodup)
    (others : Entries String) : (Entries.keys (imported own others)).Nodup := by
  induction others generalizing own with
  | nil => exact h
  | cons first rest ih =>
      refine ih ?_
      dsimp only
      split
      · exact h
      · exact Entries.nodup_put h _ _

namespace Proper

/-- A proper registry stays so if a collection gets a variable that is not empty. -/
theorem registerTable [Naming] (h : r.Proper) (table : String) {asName : Option String}
    (hname : ∀ v ∈ asName, v ≠ "") : (r.registerTable table asName).2.Proper := by
  refine { h with tables := fun entry hentry => ?_ }
  rcases Entries.mem_put hentry with hentry | rfl
  · exact h.tables entry hentry
  · cases asName with
    | some v => exact hname v rfl
    | none =>
        change (r.tables.get? table).getD (Alias.documentVariable table) ≠ ""
        cases hknown : r.tables.get? table with
        | none => exact Alias.documentVariable_ne_empty table
        | some v => exact h.tables _ (Entries.mem_of_get? hknown)

/-- A proper registry stays so with the collections of another one. -/
theorem importTables (h : r.Proper) (hother : other.Proper) : (r.importTables other).Proper :=
  { h with tables := fun entry hentry =>
      (mem_imported hentry).elim (h.tables entry) (hother.tables entry) }

/-- A proper registry stays so with the query variables of another one. -/
theorem importVariables (h : r.Proper) (hother : other.Proper) : (r.importVariables other).Proper :=
  { h with
    definitions := fun entry hentry =>
      (mem_imported hentry).elim (h.definitions entry) (hother.definitions entry)
    nodup := nodup_imported h.nodup other.definitions }

/-- A proper registry stays so with one more query variable. -/
theorem registerVariable (h : r.Proper) (name : String) : (r.registerVariable name name).Proper :=
  { h with
    definitions := fun entry hentry =>
      (Entries.mem_put hentry).elim (h.definitions entry) fun heq => heq ▸ rfl
    nodup := Entries.nodup_put h.nodup name name }

end Proper

end Registry

/-- A copy has the scope of the original. -/
theorem Builder.scope_copyOf (b : Builder) (next : Nat) : (b.copyOf next).1.scope = b.scope := by
  have hread := map_copyOf (g := fun _ => ()) b (fun _ _ _ => rfl) next
  rw [← Clauses.scope_map (fun _ => ()) (b.copyOf next).1, hread]
  exact Clauses.scope_map (fun _ => ()) b

/-- **Whatever methods make has proper names**: by induction on how it is made. -/
theorem Builder.Made.proper [Naming] {b : Builder} (h : b.Made) : b.scope.Proper := by
  induction h with
  | empty id =>
      exact ⟨⟨fun _ h => (nomatch h), fun _ h => (nomatch h), List.nodup_nil⟩, fun _ h => nomatch h⟩
  | changed _ hparts ih =>
      unfold Clauses.scope Clauses.docVar at ih ⊢
      rw [hparts.aliases, hparts.source]
      exact ih
  | registered _ table hname ih => exact ⟨ih.aliases.registerTable table hname, ih.docVar⟩
  | informed _ _ ih ihc => exact ⟨ih.aliases.importTables ihc.aliases, ih.docVar⟩
  | acquainted _ _ ih ihc => exact ⟨ih.aliases.importVariables ihc.aliases, ih.docVar⟩
  | announced _ name ih => exact ⟨ih.aliases.registerVariable name, ih.docVar⟩
  | projected _ _ _ ih => exact ⟨{ ih.aliases with }, ih.docVar⟩
  | sourced _ hname _ ih =>
      obtain ⟨table, hmem⟩ := Registry.isTableVariable_iff.mp hname
      exact ⟨ih.aliases, fun v hv => Option.some.inj hv ▸ ih.aliases.tables _ hmem⟩
  | unselected _ ih => exact ih
  | selected _ _ ih => exact ih
  | conditioned _ list _ _ _ ih => cases list <;> exact ih
  | joined _ _ _ ih => exact ih
  | united _ _ _ ih => exact ih
  | defined _ _ ih => exact ih
  | @copied b _ next ih => exact b.scope_copyOf next ▸ ih
  | @grouping b _ next ih => exact (b.always_forNested next).1 ▸ ih

/-- An attribute of a document is written behind a variable, if no variable of a collection is empty
and the main loop has one. -/
theorem Scope.docVar_ne_empty {sc : Scope} {column docVar : String} {attributes : List (List Char)}
    (htables : ∀ entry ∈ sc.aliases.tables, entry.2 ≠ "") (hmain : sc.docVar.getD "" ≠ "")
    (h : sc.origin column = .document docVar attributes) : docVar ≠ "" := by
  obtain ⟨first, rest, -, ⟨-, rfl, -⟩ | ⟨-, -, hv | ⟨-, hused⟩⟩⟩ :=
    cases_of_document (directOrigin_of_originAt h)
  · exact hmain
  · exact htables _ (Entries.mem_of_get? hv)
  · obtain ⟨table, hmem⟩ := Registry.isTableVariable_iff.mp hused
    exact htables _ hmem

end AqlBuilder

/-!
## Groups are never empty

A group of conditions is added to a query only if there are conditions in it, and no method takes
conditions away. So every group in a builder that is made has conditions, and so have the groups
inside of groups: the formulas of its conditions are filled.

- `Builder.Made.filled`: no group of a builder that is made is empty, by induction on how it is
  made.
- `Builder.Made.formula`: the formulas of its conditions are filled.
-/

namespace AqlBuilder

open Supply

/-- Whether a query has no conditions. -/
def Query.isBare (q : Query) : Bool := q.clauses.filters.isEmpty

/-- A copy of a query has conditions if the query has. -/
theorem Query.isBare_copyOf (q : Query) : q.copyOf.Always fun copy => copy.isBare = q.isBare := by
  obtain ⟨c⟩ := q
  intro next
  have hread := congrArg Clauses.filters
    (Builder.map_copyOf (g := Query.count) c (fun q _ => q.count_copyOf) next)
  have hempty := congrArg List.isEmpty hread
  change ((Builder.copyOf c next).1.filters.map _).isEmpty = (c.filters.map _).isEmpty at hempty
  rwa [List.isEmpty_map, List.isEmpty_map] at hempty

namespace Builder

variable {b c : Builder} {t : Test Query}

/-- None of the conditions of a builder is an empty group. Of the queries in the conditions it
matters only whether they are bare, so that copies can take their places. -/
def Filled (b : Builder) : Prop :=
  ∀ x ∈ b.filters ++ b.havings, x.test.map Query.isBare ≠ .nested true

/-- Whether groups have conditions depends on the conditions alone. -/
theorem Filled.of_map {b' : Builder} (h : b.Filled)
    (hfilters : b'.filters.map (Condition.map Query.isBare) =
      b.filters.map (Condition.map Query.isBare))
    (hhavings : b'.havings.map (Condition.map Query.isBare) =
      b.havings.map (Condition.map Query.isBare)) : b'.Filled := by
  have hall : (b'.filters ++ b'.havings).map (Condition.map Query.isBare) =
      (b.filters ++ b.havings).map (Condition.map Query.isBare) := by
    rw [List.map_append, List.map_append, hfilters, hhavings]
  intro x hx
  have hmem := List.mem_map_of_mem (f := Condition.map Query.isBare) hx
  rw [hall] at hmem
  obtain ⟨y, hy, hsame⟩ := List.mem_map.mp hmem
  exact fun hbare => h y hy ((congrArg Condition.test hsame).trans hbare)

/-- Adding a test that is no empty group leaves no empty group. -/
theorem Filled.push (h : b.Filled) (list : ConditionList) (connector : Connector)
    (ht : t.map Query.isBare ≠ .nested true) : (b.push list connector t).Filled := by
  intro x hx
  have hcases : x ∈ b.filters ++ b.havings ∨ x = ⟨t, connector⟩ := by
    cases list <;> simpa [Builder.push, or_assoc, or_comm, or_left_comm] using hx
  rcases hcases with hx | rfl
  · exact h x hx
  · exact ht

/-- A copy has no empty groups either. -/
theorem Filled.copied (h : b.Filled) (next : Nat) : (b.copyOf next).1.Filled := by
  have hread := b.map_copyOf (g := Query.isBare) (fun q _ => q.isBare_copyOf) next
  exact h.of_map (congrArg Clauses.filters hread) (congrArg Clauses.havings hread)

/-- A builder for a group begins without conditions. -/
theorem filled_forNested (b : Builder) : b.forNested.Always Filled := by
  refine b.always_forNested.mono ?_
  rintro q ⟨-, hfilters, hhavings, -⟩ x hx
  rw [hfilters, hhavings] at hx
  exact absurd hx List.not_mem_nil

/-- A test that may be added is no empty group. -/
theorem map_isBare_ne (h : ∀ c, t = .nested (.of c) → c.filters ≠ []) :
    t.map Query.isBare ≠ .nested true := by
  intro hbare
  cases t with
  | nested q =>
      obtain ⟨c⟩ := q
      have hnone : c.filters.isEmpty = true := Test.nested.inj hbare
      exact h c rfl (List.isEmpty_iff.mp hnone)
  | _ => cases hbare

/-- **No group in a builder that is made is empty**: by induction on how it is made. -/
theorem Made.filled [Naming] (h : b.Made) : b.Filled := by
  induction h with
  | empty id => exact fun x hx => absurd hx List.not_mem_nil
  | changed _ hparts ih => exact ih.of_map (by rw [hparts.filters]) (by rw [hparts.havings])
  | registered _ _ _ ih => exact ih
  | informed _ _ ih => exact ih
  | acquainted _ _ ih => exact ih
  | announced _ _ ih => exact ih
  | projected _ _ _ ih => exact ih
  | sourced _ _ _ ih => exact ih
  | unselected _ ih => exact ih
  | selected _ _ ih => exact ih
  | conditioned _ list connector _ hgroup ih => exact ih.push list connector (map_isBare_ne hgroup)
  | joined _ _ _ ih => exact ih
  | united _ _ _ ih => exact ih
  | defined _ _ ih => exact ih
  | copied _ next ih => exact ih.copied next
  | @grouping b _ next _ => exact filled_forNested b next

/-- A group in a builder that is made has conditions. -/
theorem Made.group_ne_nil [Naming] (h : b.Made) {x : Condition Query}
    (hx : x ∈ b.filters ++ b.havings) (hgroup : x.test = .nested (.of c)) : c.filters ≠ [] := by
  intro hnone
  refine h.filled x hx ?_
  rw [hgroup, Test.map, Query.isBare, Query.clauses, hnone]
  rfl

/-- The queries in the conditions of a builder that is made are made. -/
theorem Made.queries_of_condition [Naming] (h : b.Made) {x : Condition Query}
    (hx : x ∈ b.filters ++ b.havings) :
    ∀ q ∈ x.test.queries, Builder.Made q.clauses := by
  obtain ⟨-, -, hfilters, -, hhavings, -⟩ := Clauses.forall_queries.mp h.queries
  rcases List.mem_append.mp hx with hx | hx
  · exact hfilters x hx
  · exact hhavings x hx

/-- The formula of a test is filled if its query is made, and it is no empty group. -/
theorem filled_formula [Naming] (sc : Scope) (hmade : ∀ q ∈ t.queries, Builder.Made q.clauses)
    (hgroup : ∀ c, t = .nested (.of c) → c.filters ≠ []) : (t.formula sc).Filled := by
  induction sc, t using Test.groupInduction with
  | atomic sc t hatomic =>
      rw [Test.formula_of_atomic hatomic]
      exact .atom _
  | group sc c ih =>
      have hc : Builder.Made c := hmade _ List.mem_cons_self
      rw [Test.formula_nested, Formula.filled_group, Condition.formulas_eq_map]
      refine ⟨fun hnone => hgroup c rfl (List.map_eq_nil_iff.mp hnone), List.forall_mem_map.mpr ?_⟩
      intro x hx
      have hx' : x ∈ c.filters ++ c.havings := List.mem_append_left _ hx
      exact ih x hx (hc.queries_of_condition hx') fun d hd => hc.group_ne_nil hx' hd

/-- **The formulas of the conditions of a builder that is made are filled**, in any scope. -/
theorem Made.formula [Naming] (h : b.Made) {x : Condition Query} (hx : x ∈ b.filters ++ b.havings)
    (sc : Scope) : (x.test.formula sc).Filled :=
  filled_formula sc (h.queries_of_condition hx) fun _ hc => h.group_ne_nil hx hc

end Builder

end AqlBuilder

import AqlBuilder.Builder.Condition
import AqlBuilder.Builder.Projection
import AqlBuilder.Builder.Source
import AqlBuilder.Proofs.Binding.Growth
import AqlBuilder.Proofs.Builder.Reference
import AqlBuilder.Proofs.Query.References

/-!
# Builders with a value for every name

A builder is backed if every name that its clauses refer to is in its store. The names under the
category of the projection may disappear when something else is selected, so they back the
projection only. A group of conditions begins with the source of the query around it but with an
empty store; what its source refers to are outer names, which the query around it has.

A sub-query brings its names along when it is taken over, under the category of the clause that gets
it. So the clause is backed by the store it was put beside.

- `Builder.Backed` is the invariant.
- `Builder.Backed.adopt`, `Builder.Backed.bindValue` and `Builder.Backed.bind`: what is taken over
  or bound is backed by the store afterwards.
-/

namespace AqlBuilder

open Supply

variable {outer : Set String} {b sub : Builder}

/-- A builder all of whose names are in its store, or in the stores around it. -/
structure Builder.Backed (outer : Set String) (b : Builder) : Prop where
  named : ∀ name ∈ b.bindings.names, IsName name
  within : b.Within Query.Within (b.bindings.kept ∪ outer) (b.bindings.names ∪ outer)

/-- An action that keeps builders backed, whatever the outer names are. -/
def Builder.KeepsBacked (make : Builder → Supply Builder) : Prop :=
  ∀ (outer : Set String) (b : Builder), b.Backed outer → (make b).Always (Builder.Backed outer)

/-- A sub-query argument that is backed. -/
inductive SubQuery.Backed (outer : Set String) : SubQuery → Prop
  | finished {b : Builder} (h : b.Backed outer) : Backed outer (.finished b)
  | closure {make : Builder → Supply Builder} (h : Builder.KeepsBacked make) :
      Backed outer (.closure make)

/-- A value that is filed when it is bound, also if it is embedded JSON. -/
def Value.Filed (v : Value) : Prop := v.cast.reference? = none

instance (v : Value) : Decidable v.Filed := inferInstanceAs (Decidable (_ = _))

/-- An operand without marks: a value that is filed, a text without marks or a query with a
property. -/
inductive Operand.Clean {Q : Type} (p : Q → Prop) : Operand Q → Prop
  | value {v : Value} (h : v.Filed) : Clean p (.value v)
  | expression {aql : String} (h : Unmarked aql) : Clean p (.expression aql)
  | column {name : String} (h : Unmarked name) : Clean p (.column name)
  | query {q : Q} (h : p q) : Clean p (.query q)

/-- An operand that is backed. -/
abbrev Operand.Backed (outer : Set String) : Operand Builder → Prop :=
  Operand.Clean (Builder.Backed outer)

/-- A value that is filed is no reference. -/
theorem Value.Filed.reference? {v : Value} (h : v.Filed) : v.reference? = none := by
  cases v with
  | string text => exact h
  | _ => rfl

theorem Value.Filed.cast {v : Value} (h : v.Filed) : v.cast.reference? = none := h

namespace Builder.Backed

theorem kept_subset (s : Store) (outer : Set String) : s.kept ∪ outer ⊆ s.names ∪ outer :=
  Set.union_subset_union_left outer s.kept_subset_names

/-- A builder without clauses refers to nothing. -/
theorem empty (outer : Set String) (id : Nat) : Backed outer (Clauses.empty id) where
  named name := by
    rintro ⟨c, hname⟩
    cases hname
  within := by
    constructor <;> simp [Clauses.empty, Unmarked, Registry.clean_empty]

theorem fresh (outer : Set String) : Builder.fresh.Always (Backed outer) :=
  fun next => empty outer next

/-- What a backed query refers to is in its store or outside. -/
theorem query_within (h : b.Backed outer) :
    (Query.of b).Within (b.bindings.names ∪ outer) :=
  Query.within_of h.within (kept_subset b.bindings outer)

/-- A backed builder stays so if its store grows. -/
theorem withStore (h : b.Backed outer) {s : Store} (hgrows : b.bindings.Grows s)
    (hnamed : ∀ name ∈ s.names, IsName name) : Backed outer { b with bindings := s } := by
  have hwithin := h.within.mono Query.Within.mono
    (Set.union_subset_union_left outer hgrows.kept) (Set.union_subset_union_left outer hgrows.names)
  exact ⟨hnamed, { hwithin with }⟩

/-- A backed builder stays so with another clean registry. -/
theorem withAliases (h : b.Backed outer) {aliases : Registry} (haliases : aliases.Clean) :
    Backed outer { b with aliases := aliases } :=
  ⟨h.named, { h.within with aliases := haliases }⟩

/-- A backed builder stays so with a source that refers to its names at most. -/
theorem withSource (h : b.Backed outer) (source : Source Query)
    (hsource : source.Within (Query.Within (b.bindings.kept ∪ outer))) :
    Backed outer { b with source := some source } := by
  refine ⟨h.named, { h.within with source := fun s hs => ?_ }⟩
  cases hs
  exact hsource

theorem asValue (h : b.Backed outer) : Backed outer { b with singleValue := true } :=
  ⟨h.named, { h.within with }⟩

theorem fail (h : b.Backed outer) (e : Error) : Backed outer (b.fail e) :=
  ⟨h.named, { h.within with }⟩

/-- A copy of a backed builder is backed. -/
theorem copyOf (h : b.Backed outer) : b.copyOf.Always (Backed outer) := by
  intro next
  have hbindings := b.copyOf_bindings next
  have hwithin := Builder.within_copyOf h.within next
  refine ⟨?_, ?_⟩
  · rw [hbindings]
    exact h.named
  · rw [hbindings]
    exact hwithin

/-- The builder for a sub-query refers to nothing yet, whatever is around it. -/
theorem forSubQuery (h : b.Backed outer) (outer' : Set String) :
    b.forSubQuery.Always (Backed outer') := by
  refine (fresh outer').map fun query hquery => ?_
  have haliases := (hquery.within.aliases.importTables h.within.aliases).importVariables
    h.within.aliases
  exact ⟨hquery.named, { hquery.within with
    tablePrefix := h.within.tablePrefix
    aliases := haliases }⟩

/-- A group of conditions begins with a source that the query around it backs. -/
theorem forNested (h : b.Backed outer) :
    b.forNested.Always (Backed (b.bindings.kept ∪ outer)) := by
  have hsource : (runSource (b.source.map (Source.map Query.copyOf))).Always fun source =>
      ∀ s ∈ source, s.Within (Query.Within (b.bindings.kept ∪ outer)) := by
    refine (always_runSource b.source fun q _ => q.fragment_copyOf).mono fun source hcopy s hs => ?_
    rw [hs] at hcopy
    obtain ⟨original, horiginal, heq⟩ := Option.map_eq_some_iff.mp hcopy.symm
    have hwithin :
      (original.map Query.fragment).Within (Fragment.Within (b.bindings.kept ∪ outer)) :=
      Source.within_map.mpr (h.within.source original horiginal)
    rw [heq] at hwithin
    exact (Source.within_map (f := Query.fragment) (p := Fragment.Within _)).mp hwithin
  refine (fresh (b.bindings.kept ∪ outer)).bind fun query hquery => ?_
  refine hsource.map fun source hsource => ?_
  exact ⟨hquery.named, { hquery.within with
    tablePrefix := h.within.tablePrefix
    source := fun s hs => (hsource s hs).mono (Query.Within.mono Set.subset_union_right)
    aliases := h.within.aliases }⟩

/-- A backed builder stays so when it takes over the values of another one. -/
theorem absorb (h : b.Backed outer) (hsub : ∀ name ∈ sub.bindings.names, IsName name)
    (category : Category) : Backed outer (b.absorb sub category) := by
  have hstore := h.withStore (b.bindings.grows_merge sub.bindings (some category))
    (Store.names_merge h.named hsub)
  exact ⟨hstore.named, { hstore.within with }⟩

/-- The variable of a backed builder has no mark. -/
theorem unmarked_docVar (h : b.Backed outer) {source : Source Query} (hs : b.source = some source) :
    Unmarked source.docVar := by
  have hsource := h.within.source source hs
  cases source with
  | collection name v => exact hsource.2
  | view name v => exact hsource.2
  | derived q v => exact hsource.2

/-- The variable of a sub-query has no mark in a loop around it, either. -/
theorem unmarked_scopedVariable [Naming] (hsub : Unmarked v) {name v' : String}
    (h : b.scopedVariable? sub name v = some v') : Unmarked v' := by
  unfold scopedVariable? at h
  split at h
  · cases h
    exact hsub.append (unmarked_toString sub.id)
  · cases h

/-- A renamed document variable is still without marks. -/
theorem rescoped [Naming] (h : sub.Backed outer) (b : Builder) : Backed outer (b.rescoped sub) := by
  have hvar : ∀ source, sub.source = some source → Unmarked source.docVar :=
    fun source hs => h.unmarked_docVar hs
  have hsource := h.within.source
  have hregister : ∀ (name v : String), Unmarked v →
      ((sub.aliases.registerTable name (some v)).2).Clean := fun name v hv =>
    (h.within.aliases.registerTable name fun other hother => by cases hother; exact hv).2
  unfold Builder.rescoped
  split
  · rename_i name docVar hs
    have hname := (hsource _ hs).1
    split
    · rename_i v hv
      have hscoped := unmarked_scopedVariable (hvar _ hs) hv
      exact (h.withAliases (hregister name v hscoped)).withSource (.collection name v)
        ⟨hname, hscoped⟩
    · exact h
  · rename_i name docVar hs
    have hname := (hsource _ hs).1
    split
    · rename_i v hv
      have hscoped := unmarked_scopedVariable (hvar _ hs) hv
      exact (h.withAliases (hregister name v hscoped)).withSource (.view name v) ⟨hname, hscoped⟩
    · exact h
  · exact h

/-- A backed sub-query is backed in the scope of a builder. -/
theorem scopedFor [Naming] (h : sub.Backed outer) (b : Builder) (category : Category) :
    Backed outer (b.scopedFor sub category) := by
  unfold Builder.scopedFor
  split
  · exact h.rescoped b
  · exact h

/-- A sub-query is backed if its argument is. -/
theorem subBuilder (h : b.Backed outer) {sub : SubQuery} (hsub : sub.Backed outer) :
    (b.subBuilder sub).Always (Backed outer) := by
  cases hsub with
  | finished hsub =>
      exact always_pure (hsub.withAliases (hsub.within.aliases.importTables h.within.aliases))
  | closure hmake => exact (h.forSubQuery outer).bind fun query hquery => hmake outer query hquery

end Builder.Backed

/-- What taking over a sub-query gives: both builders are backed, and all names of the sub-query are
in a category of the other one. -/
structure Builder.Adopted (outer : Set String) (category : Category) (result : Builder × Builder) :
    Prop where
  query : result.1.Backed outer
  builder : result.2.Backed outer
  filed : ∀ name ∈ result.1.bindings.names, name ∈ (result.2.bindings.bound category).keys

namespace Builder

variable {category : Category} {result : Builder × Builder}

/-- A sub-query that was taken over refers to names that its builder has now. -/
theorem Adopted.within_names (h : Adopted outer category result) :
    (Query.of result.1).Within (result.2.bindings.names ∪ outer) := by
  have hsub : result.1.bindings.names ⊆ result.2.bindings.names :=
    fun name hname => ⟨category, h.filed name hname⟩
  exact Query.Within.mono (Set.union_subset_union_left outer hsub) _ h.query.query_within

/-- If it was not taken over for the projection, these are names that selecting leaves. -/
theorem Adopted.within_kept (h : Adopted outer category result) (hc : category ≠ .select) :
    (Query.of result.1).Within (result.2.bindings.kept ∪ outer) := by
  have hsub : result.1.bindings.names ⊆ result.2.bindings.kept :=
    fun name hname => ⟨category, hc, h.filed name hname⟩
  exact Query.Within.mono (Set.union_subset_union_left outer hsub) _ h.query.query_within

/-- A sub-query that was taken over stays so if it returns a value. -/
theorem Adopted.asValue (h : Adopted outer category result) :
    Adopted outer category ({ result.1 with singleValue := true }, result.2) :=
  ⟨h.query.asValue, h.builder, h.filed⟩

/-- Taking over the values of a backed sub-query takes over the sub-query. -/
theorem adopted_absorb (h : b.Backed outer) (hsub : sub.Backed outer) (category : Category) :
    Adopted outer category (sub, b.absorb sub category) :=
  ⟨hsub, h.absorb hsub.named category, b.bindings.names_subset_merge sub.bindings category⟩

/-- A sub-query brings its names along when it is taken over. -/
theorem Backed.adopt [Naming] (h : b.Backed outer) {sub : SubQuery} (hsub : sub.Backed outer)
    (category : Category) : (b.adopt sub category).Always (Adopted outer category) :=
  (h.subBuilder hsub).map fun _ hquery =>
    adopted_absorb h (hquery.scopedFor b category) category

/-- A bound operand with the builder that backs it, and that has not lost a name of an earlier
store. -/
structure Held (outer : Set String) (before : Store) (result : Bound × Builder) : Prop where
  builder : result.2.Backed outer
  bound : result.1.Within (result.2.bindings.kept ∪ outer)
  grows : before.Grows result.2.bindings

/-- A value that is filed is backed by the store that it is filed in. -/
theorem Backed.bindValue (h : b.Backed outer) {v : Value} (hv : v.reference? = none)
    (category : Category) (hc : category ≠ .select) :
    Held outer b.bindings (b.bindValue v category) := by
  rw [bindValue_of_none hv]
  have hgrows := b.bindings.grows_add v category
  have hmem := b.bindings.nextName_mem_add v category
  exact ⟨h.withStore hgrows (Store.names_add h.named),
    ⟨b.bindings.isName_nextName category, Or.inl ⟨category, hc, hmem⟩⟩, hgrows⟩

/-- A bound operand is backed by the builder afterwards. -/
theorem Backed.bind [Naming] (h : b.Backed outer) {o : Operand Builder} (ho : o.Backed outer)
    {category : Category} (hc : category ≠ .select) :
    (b.bind o category).Always (Held outer b.bindings) := by
  cases ho with
  | value hv => exact always_pure (h.bindValue hv.reference? category hc)
  | expression haql => exact always_pure ⟨h, haql.covered, .refl _⟩
  | column hname => exact always_pure ⟨h, hname, .refl _⟩
  | @query q hq =>
      have hadopted := adopted_absorb h (hq.scopedFor b category) category
      have hembedded : (b.scopedFor q category).embedded.run.Always fun result =>
          ∀ aql, result = .ok aql → Covered
            ((b.absorb (b.scopedFor q category) category).bindings.kept ∪ outer) aql :=
        (hadopted.within_kept hc).embedded
      refine hembedded.bind fun result hresult => ?_
      cases result with
      | error e => exact always_pure ⟨h.fail e, (by decide : Unmarked "").covered, .refl _⟩
      | ok aql =>
          exact always_pure ⟨hadopted.builder, hresult aql rfl,
            b.bindings.grows_merge _ (some category)⟩

end Builder

end AqlBuilder

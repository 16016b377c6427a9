import AqlBuilder.Proofs.Builder.Reference
import AqlBuilder.Proofs.Query.Closed

/-!
# Closed builders

A sub-query that is given as a function begins with what its builder knows, and what a closed
builder knows is around it or defined by it. A finished sub-query knows nothing of the builder that
takes it over. So a sub-query that is taken over is closed in the variables around its builder and
those that the builder defines.

- `Builder.KeepsClosed` is an action that keeps builders closed, and `SubQuery.Closed` a sub-query
  argument that is closed or does so.
- `Builder.Closed.forSubQuery` and `Builder.Closed.forNested`: what a new builder knows at first.
- `Builder.Closed.adopt` is what taking over a sub-query gives.
-/

namespace AqlBuilder

open Supply

variable {S outer outer' : List String} {w : Bool} {b : Builder}

/-- An action that keeps builders closed in any variables that contain the given ones. -/
def Builder.KeepsClosed (S : List String) (w : Bool) (make : Builder → Supply Builder) : Prop :=
  ∀ (outer : List String) (b : Builder), S ⊆ outer → b.Closed w outer →
    (make b).Always (Builder.Closed w outer)

/-- A sub-query argument that is closed, or keeps builders closed. -/
inductive SubQuery.Closed (S outer : List String) : SubQuery → Prop
  | finished {sub : Builder} (h : sub.Closed true outer) : Closed S outer (.finished sub)
  | closure {make : Builder → Supply Builder} (h : Builder.KeepsClosed S true make) :
      Closed S outer (.closure make)

/-- Whether an operand is a column. -/
def Operand.isColumn {Q : Type} : Operand Q → Bool
  | .column _ => true
  | _ => false

/-- A closed query as an operand. -/
def Operand.Closed (outer : List String) (o : Operand Builder) : Prop :=
  ∀ q, o = .query q → q.Closed true outer

/-- A test without queries is closed. -/
theorem Test.closed_of_queries {Q : Type} {p : Bool → List String → Q → Prop} {t : Test Q}
    (h : t.queries = []) : t.Closed p outer := by
  cases t with
  | nested q => cases h
  | _ => exact fun q hq => (List.not_mem_nil (h ▸ hq)).elim

namespace Builder

/-- What taking over a sub-query gives: the builder as it was, but for its values, and a sub-query
that knows what the builder knows at most. -/
structure Taken (w : Bool) (outer : List String) (b : Builder) (result : Builder × Builder) :
    Prop where
  query : result.1.Closed true (outer ++ b.definedNames)
  builder : result.2.Closed w outer
  names : result.2.definedNames = b.definedNames

namespace Closed

/-! ### Changes that do not touch what is known -/

theorem withBindings (h : b.Closed w outer) (s : Store) (e : Option Error) :
    Closed w outer { b with bindings := s, error := e } := { h with }

/-- Of the registry only the query variables matter. -/
theorem withAliases (h : b.Closed w outer) {aliases : Registry}
    (haliases : aliases.definitions = b.aliases.definitions) :
    Closed w outer { b with aliases := aliases } :=
  { h with known := fun name hname => h.known name (haliases ▸ hname) }

/-- Collections of another registry. -/
theorem withTables (h : b.Closed w outer) (other : Registry) :
    Closed w outer { b with aliases := b.aliases.importTables other } := by
  unfold Registry.importTables
  exact h.withAliases rfl

/-- A closed builder stays so with a source that is closed in its variables. -/
theorem withSource (h : b.Closed w outer) (s : Source Query)
    (hs : ∀ q ∈ s.queries, q.Closed true (outer ++ b.definedNames)) :
    Closed w outer { b with source := some s } := by
  refine { h with source := fun t ht => ?_ }
  cases ht
  exact hs

theorem asValue (h : b.Closed w outer) : Closed w outer { b with singleValue := true } := { h with }

/-- A query without definitions may be written as a statement. -/
theorem statement (h : b.Closed w outer) : b.Closed true outer :=
  { h with unwritten := fun hfalse => Bool.noConfusion hfalse }

theorem fail (h : b.Closed w outer) (e : Error) : (b.fail e).Closed w outer :=
  h.withBindings b.bindings (b.error.or (some e))

/-- Taking over values does not matter for what a builder knows. -/
theorem absorb (h : b.Closed w outer) (sub : Builder) (category : Category) :
    (b.absorb sub category).Closed w outer :=
  h.withBindings (b.bindings.merge sub.bindings (some category)) (b.error.or sub.error)

/-! ### New builders -/

/-- A builder that knows nothing but variables around it. -/
theorem of_known {id : Nat} {tablePrefix : String} {source : Option (Source Query)}
    {aliases : Registry} (hknown : ∀ name, (name, name) ∈ aliases.definitions → name ∈ outer)
    (hsource : ∀ s ∈ source, ∀ q ∈ s.queries, q.Closed true outer) :
    Closed w outer { (Clauses.empty id : Builder) with
      tablePrefix := tablePrefix, source := source, aliases := aliases } := by
  have hnone : ∀ {α : Type} {p : α → Prop}, ∀ a ∈ ([] : List α), p a :=
    fun a ha => (List.not_mem_nil ha).elim
  refine ⟨fun name hname => List.mem_append_left _ (hknown name hname), fun _ => rfl,
    ?_, hnone, hnone, hnone, hnone, hnone, trivial⟩
  intro s hs q hq
  exact (hsource s hs q hq).mono (List.subset_append_left _ _)

theorem empty (w : Bool) (outer : List String) (id : Nat) : Closed w outer (Clauses.empty id) :=
  of_known (fun _ hname => (List.not_mem_nil hname).elim) fun _ hs => nomatch hs

theorem fresh (w : Bool) (outer : List String) : Builder.fresh.Always (Closed w outer) :=
  fun next => empty w outer next

/-- A copy of a closed builder is closed. -/
theorem copyOf (h : b.Closed w outer) : b.copyOf.Always (Closed w outer) := by
  intro next
  have hmap := b.map_copyOf (g := Query.fold Query.closedLevel) (fun q _ => q.closed_copyOf) next
  have hcopied : Clauses.Closed (fun w o closed => closed w o) w outer
      ((b.copyOf next).1.map (Query.fold Query.closedLevel)) := by
    have hlevel : Clauses.Closed (fun w o closed => closed w o) w outer
        (b.map (Query.fold Query.closedLevel)) := Clauses.closed_map.mpr h
    rw [hmap]
    exact { hlevel with }
  exact (Clauses.closed_map (p := fun w o (closed : Bool → List String → Prop) => closed w o)).mp
    hcopied

/-- A new builder for a sub-query knows what this one knows. -/
theorem forSubQuery (h : b.Closed w outer) (w' : Bool) :
    b.forSubQuery.Always (Closed w' (outer ++ b.definedNames)) := by
  intro next
  refine of_known (fun name hname => ?_) fun _ hs => nomatch hs
  rcases Registry.mem_imported hname with hname | hname
  · exact (List.not_mem_nil hname).elim
  · exact h.known name hname

/-- A group of conditions knows what this builder knows, and has its source. -/
theorem forNested (h : b.Closed w outer) :
    b.forNested.Always (Closed false (outer ++ b.definedNames)) := by
  have hsource : (runSource (b.source.map (Source.map Query.copyOf))).Always fun source =>
      ∀ s ∈ source, ∀ q ∈ s.queries, q.Closed true (outer ++ b.definedNames) := by
    refine (always_runSource b.source fun q _ => q.closed_copyOf).mono
      fun source hcopy s hs q hq => ?_
    rw [hs] at hcopy
    obtain ⟨original, horiginal, heq⟩ := Option.map_eq_some_iff.mp hcopy.symm
    have hqueries := congrArg Source.queries heq
    rw [Source.queries_map, Source.queries_map] at hqueries
    obtain ⟨q', hq', hsame⟩ := List.mem_map.mp (hqueries ▸ List.mem_map_of_mem hq)
    have hclosed : q'.fold Query.closedLevel true (outer ++ b.definedNames) :=
      h.source original horiginal q' hq'
    rw [hsame] at hclosed
    exact hclosed
  exact fun next => of_known h.known (hsource (next + 1))

/-! ### Taking over sub-queries -/

/-- A closed sub-query is closed under another variable. -/
theorem rescoped [Naming] (h : b.Closed w outer) (parent : Builder) :
    (parent.rescoped b).Closed w outer := by
  have hregister : ∀ name v,
      (b.aliases.registerTable name (some v)).2.definitions = b.aliases.definitions :=
    fun _ _ => rfl
  unfold Builder.rescoped
  split
  · rename_i name docVar hs
    split
    · rename_i v hv
      exact (h.withAliases (hregister name v)).withSource (.collection name v)
        fun _ hq => nomatch hq
    · exact h
  · rename_i name docVar hs
    split
    · rename_i v hv
      exact (h.withAliases (hregister name v)).withSource (.view name v) fun _ hq => nomatch hq
    · exact h
  · exact h

/-- A closed sub-query is closed in the scope of a builder. -/
theorem scopedFor [Naming] (h : b.Closed w outer) (parent : Builder) (category : Category) :
    (parent.scopedFor b category).Closed w outer := by
  unfold Builder.scopedFor
  split
  · exact h.rescoped parent
  · exact h

theorem around (h : b.Closed w outer) (houter : outer ⊆ outer') : b.Closed w outer' :=
  Query.closed_of.mp ((Query.closed_of.mpr h).mono houter)

/-- A sub-query is closed in the variables around its builder and those of the builder. -/
theorem subBuilder (h : b.Closed w outer) (hS : S ⊆ outer) {sub : SubQuery}
    (hsub : sub.Closed S outer) :
    (b.subBuilder sub).Always (Closed true (outer ++ b.definedNames)) := by
  have hsubset : outer ⊆ outer ++ b.definedNames := List.subset_append_left _ _
  cases hsub with
  | @finished sub hsub =>
      exact always_pure ((hsub.around hsubset).withTables b.aliases)
  | closure hmake =>
      exact (h.forSubQuery true).bind fun query hquery =>
        hmake _ query (fun name hname => hsubset (hS hname)) hquery

/-- Taking over values defines no variable. -/
theorem definedNames_absorb (b sub : Builder) (category : Category) :
    (b.absorb sub category).definedNames = b.definedNames := by
  unfold Clauses.definedNames Builder.absorb
  dsimp only

/-- A sub-query that is taken over knows no more than its builder. -/
theorem adopt [Naming] (h : b.Closed w outer) (hS : S ⊆ outer) {sub : SubQuery}
    (hsub : sub.Closed S outer)
    (category : Category) : (b.adopt sub category).Always (Taken w outer b) := by
  refine (h.subBuilder hS hsub).bind fun query hquery => always_pure ?_
  exact ⟨hquery.scopedFor b category, h.absorb (b.scopedFor query category) category,
    definedNames_absorb b _ category⟩

/-- What a value is bound to is no column, and binding it adds no definition. -/
theorem bindValue (h : b.Closed w outer) (v : Value) (category : Category) :
    (b.bindValue v category).2.Closed w outer ∧ (b.bindValue v category).1.columns = [] := by
  rw [bindValue_eq]
  cases v.reference? with
  | some text => exact ⟨h, rfl⟩
  | none => exact ⟨h.withBindings (b.bindings.add v category).2 b.error, rfl⟩

/-- Binding an operand keeps a builder closed, and only a column brings in a column. -/
theorem bind [Naming] (h : b.Closed w outer) {o : Operand Builder}
    (category : Category) : (b.bind o category).Always fun result =>
      result.2.Closed w outer ∧ (o.isColumn = false → result.1.columns = []) := by
  cases o with
  | value v =>
      obtain ⟨hclosed, hcolumns⟩ := h.bindValue v category
      exact always_pure ⟨hclosed, fun _ => hcolumns⟩
  | expression aql => exact always_pure ⟨h, fun _ => rfl⟩
  | column name => exact always_pure ⟨h, fun hnone => Bool.noConfusion hnone⟩
  | query q =>
      refine always_true.bind fun result _ => ?_
      cases result with
      | ok aql => exact always_pure ⟨h.absorb _ category, fun _ => rfl⟩
      | error e => exact always_pure ⟨h.fail e, fun _ => rfl⟩

end Closed

end Builder

end AqlBuilder

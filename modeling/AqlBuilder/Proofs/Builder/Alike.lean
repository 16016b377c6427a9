import AqlBuilder.Proofs.Builder.Reference
import AqlBuilder.Proofs.Query.Fragment

/-!
# Builders that are compiled alike

Of a sub-query a builder shows its fragment, when the builder is compiled, and how many queries it
holds, when the builder is copied. Two builders are alike if they have the same clauses with such
sub-queries, whatever the numbers inside, and if their stores stand in a relation that the methods
of a store preserve.

- `Query.face` is what can be seen of a sub-query, and `Query.face_copyOf` says that copies keep it.
- `Builder.Alike` relates two builders, field by field.
- `Store.Congruence` is what a relation between stores has to satisfy.
- `Builder.Alike.statement`: builders that are alike have the same statement.
- `Builder.Alike.bindValue`, `Builder.Alike.rescoped` and their neighbours: what builders share with
  all their methods treats builders alike.
-/

namespace AqlBuilder

/-- What can be seen of a query from outside. -/
def Query.face (q : Query) : Fragment × Nat := (q.fragment, q.count)

/-- A copy looks like the original. -/
theorem Query.face_copyOf (q : Query) : q.copyOf.Always fun copy => copy.face = q.face :=
  fun next => Prod.ext (q.fragment_copyOf next) (q.count_copyOf next)

/-- A relation between stores that their methods preserve, where related values are filed. -/
structure Store.Congruence (R : Store → Store → Prop) (V : Value → Value → Prop) : Prop where
  id {s s' : Store} : R s s' → s.id = s'.id
  name {s s' : Store} (category : Category) : R s s' → s.nextName category = s'.nextName category
  add {s s' : Store} {v v' : Value} (category : Category) : R s s' → V v v' →
    R (s.add v category).2 (s'.add v' category).2
  merge {s s' t t' : Store} (category : Option Category) : R s s' → R t t' →
    R (s.merge t category) (s'.merge t' category)

namespace Builder

/-- Two builders with the same clauses, whose sub-queries look alike and whose stores are
related. -/
structure Alike (R : Store → Store → Prop) (b b' : Builder) : Prop where
  tablePrefix : b.tablePrefix = b'.tablePrefix
  source : b.source.map (Source.map Query.face) = b'.source.map (Source.map Query.face)
  columns : b.columns.map (Selector.map Query.face) = b'.columns.map (Selector.map Query.face)
  distinct : b.distinct = b'.distinct
  filters : b.filters.map (Condition.map Query.face) = b'.filters.map (Condition.map Query.face)
  joins : b.joins.map (Join.map Query.face) = b'.joins.map (Join.map Query.face)
  groups : b.groups = b'.groups
  havings : b.havings.map (Condition.map Query.face) = b'.havings.map (Condition.map Query.face)
  aggregate : b.aggregate = b'.aggregate
  orders : b.orders = b'.orders
  limit : b.limit = b'.limit
  offset : b.offset = b'.offset
  unions : b.unions.map (UnionBranch.map Query.face) = b'.unions.map (UnionBranch.map Query.face)
  unionOrders : b.unionOrders = b'.unionOrders
  unionLimit : b.unionLimit = b'.unionLimit
  unionOffset : b.unionOffset = b'.unionOffset
  search : b.search = b'.search
  definitions : b.definitions.map (LetVariable.map Query.face) =
    b'.definitions.map (LetVariable.map Query.face)
  singleValue : b.singleValue = b'.singleValue
  bindings : R b.bindings b'.bindings
  aliases : b.aliases = b'.aliases
  error : b.error = b'.error

variable {R : Store → Store → Prop} {V : Value → Value → Prop} {b b' q q' : Builder}

/-- Builders are alike when they differ in their stores and in the numbers inside at most. -/
theorem Alike.of_map
    (hmap : Clauses.map Query.face b' = (Clauses.map Query.face b).withBindings b'.bindings)
    (hbindings : R b.bindings b'.bindings) : b.Alike R b' := by
  simp only [Clauses.map, Clauses.withBindings, Clauses.mk.injEq, true_and] at hmap
  obtain ⟨h₁, h₂, h₃, h₄, h₅, h₆, h₇, h₈, h₉, h₁₀, h₁₁, h₁₂, h₁₃, h₁₄, h₁₅, h₁₆, h₁₇, h₁₈, h₁₉, h₂₁,
    h₂₂⟩ := hmap
  exact ⟨h₁.symm, h₂.symm, h₃.symm, h₄.symm, h₅.symm, h₆.symm, h₇.symm, h₈.symm, h₉.symm, h₁₀.symm,
    h₁₁.symm, h₁₂.symm, h₁₃.symm, h₁₄.symm, h₁₅.symm, h₁₆.symm, h₁₇.symm, h₁₈.symm, h₁₉.symm,
    hbindings, h₂₁.symm, h₂₂.symm⟩

theorem Alike.refl (hR : R b.bindings b.bindings) : b.Alike R b := .of_map rfl hR

/-- The sub-queries of a builder are steady. -/
theorem steady_compiled (b : Builder) : ∀ f ∈ b.compiled.queries, f.Steady := by
  unfold compiled
  rw [Clauses.queries_map]
  intro f hf
  obtain ⟨q, hq, rfl⟩ := List.mem_map.mp hf
  exact q.steady_fragment

theorem steady_statement (b : Builder) : b.statement.Steady :=
  Aql.steady_statement b.steady_compiled

/-- Clauses that look alike are present together. -/
theorem isEmpty_eq {γ δ : Type} {f : γ → δ} {list list' : List γ}
    (h : list.map f = list'.map f) : list.isEmpty = list'.isEmpty := by
  have hmap := congrArg List.isEmpty h
  rwa [List.isEmpty_map, List.isEmpty_map] at hmap

namespace Alike

/-- Builders that are alike differ in their stores at most. -/
theorem map_face (h : b.Alike R b') :
    Clauses.map Query.face b' = (Clauses.map Query.face b).withBindings b'.bindings := by
  obtain ⟨h₁, h₂, h₃, h₄, h₅, h₆, h₇, h₈, h₉, h₁₀, h₁₁, h₁₂, h₁₃, h₁₄, h₁₅, h₁₆, h₁₇, h₁₈, h₁₉, -,
    h₂₁, h₂₂⟩ := h
  simp only [Clauses.map, Clauses.withBindings, h₁, h₂, h₃, h₄, h₅, h₆, h₇, h₈, h₉, h₁₀, h₁₁, h₁₂,
    h₁₃, h₁₄, h₁₅, h₁₆, h₁₇, h₁₈, h₁₉, h₂₁, h₂₂]

/-- Builders that are alike are compiled alike, but for their stores. -/
theorem compiled (h : b.Alike R b') :
    b'.compiled = b.compiled.withBindings b'.bindings := by
  have hmap := congrArg (Clauses.map Prod.fst) h.map_face
  rw [Clauses.map_withBindings, Clauses.map_map, Clauses.map_map] at hmap
  exact hmap

/-- Builders that are alike have queries inside that look alike. -/
theorem queries (h : b.Alike R b') :
    b'.queries.map Query.face = b.queries.map Query.face := by
  rw [← Clauses.queries_map, h.map_face, ← Clauses.queries_map]
  rfl

/-- Builders that are alike have queries inside that take as many numbers. -/
theorem counts (h : b.Alike R b') :
    b'.queries.map Query.count = b.queries.map Query.count := by
  have hqueries := congrArg (List.map Prod.snd) h.queries
  rw [List.map_map, List.map_map] at hqueries
  exact hqueries

/-- Builders that are alike look alike as sub-queries. -/
theorem face (h : b.Alike R b') : (Query.of b').face = (Query.of b).face := by
  have hcount : (Query.of b').count = (Query.of b).count := by
    rw [Query.count_of, Query.count_of, h.counts]
  have hfragment : (Query.of b').fragment = (Query.of b).fragment := by
    have hcompiled : Clauses.map Query.fragment b' =
        (Clauses.map Query.fragment b).withBindings b'.bindings := h.compiled
    rw [Query.fragment_of, Query.fragment_of, Query.fragmentOver, Query.fragmentOver, hcompiled,
      hcount]
    rfl
  exact Prod.ext hfragment hcount

theorem embedded (h : b.Alike R b') : b'.embedded = b.embedded :=
  congrArg (fun face => face.1.embedded) h.face

/-- Builders that are alike iterate under the same variable. -/
theorem docVar (h : b.Alike R b') : b.docVar = b'.docVar := by
  have hview :
    ∀ c : Builder, c.docVar = (c.source.map (Source.map Query.face)).map Source.docVar := by
    intro c
    rw [Option.map_map, Clauses.docVar]
    congr 1
    funext s
    cases s <;> rfl
  rw [hview, hview, h.source]

theorem scope (h : b.Alike R b') : b.scope = b'.scope := by
  rw [Clauses.scope, Clauses.scope, h.aliases, h.docVar]

/-- Builders that are alike pass the same check before they are compiled. -/
theorem check (h : b.Alike R b') : b.check = b'.check := by
  unfold Builder.check
  rw [h.error]

/-- Builders that are alike have the same statement. -/
theorem statement (h : b.Alike R b') : Outcome.Alike Eq b.statement b'.statement := by
  have hstatement : b'.statement = b.statement := by
    unfold Builder.statement
    rw [h.compiled]
    rfl
  rw [hstatement]
  exact b.steady_statement.alike

/-- Working copies of builders that are alike are alike, under any two counters. -/
theorem workingCopy (h : b.Alike R b') (m n : Nat) :
    (b.workingCopy m).1.Alike R (b'.workingCopy n).1 := by
  refine of_map ?_ h.bindings
  rw [b'.map_workingCopy (fun q _ => q.face_copyOf), b.map_workingCopy fun q _ => q.face_copyOf,
    h.map_face]
  rfl

section basic

/-- Builders that are alike stay so with other stores that are related. -/
theorem withBindings {s s' : Store} (h : b.Alike R b') (hs : R s s') :
    Builder.Alike R (b.withBindings s) (b'.withBindings s') :=
  { h with bindings := hs }

/-- Builders that are alike stay so with the same error. -/
theorem withError {e e' : Option Error} (h : b.Alike R b') (he : e = e') :
    Builder.Alike R { b with error := e } { b' with error := e' } :=
  { h with error := he }

variable (hR : Store.Congruence R V)

theorem fail (h : b.Alike R b') (e : Error) : (b.fail e).Alike R (b'.fail e) :=
  h.withError (congrArg (Option.or · (some e)) h.error)

include hR in
/-- Builders that are alike stay so when each takes over the values of another such pair. -/
theorem absorb (h : b.Alike R b') (hq : q.Alike R q') (category : Category) :
    (b.absorb q category).Alike R (b'.absorb q' category) := by
  have hbindings := hR.merge (some category) h.bindings hq.bindings
  have herror := congrArg₂ Option.or h.error hq.error
  exact (h.withError herror).withBindings hbindings

include hR in
/-- Builders that are alike stay so when each files one of two related values. -/
theorem file {v v' : Value} (h : b.Alike R b') (hv : V v v') (category : Category) :
    (b.file v category).Alike R (b'.file v' category) :=
  h.withBindings (hR.add category h.bindings hv)

include hR in
/-- Values that are the same reference, or no references and related, are bound alike. -/
theorem bindValue {v v' : Value} (h : b.Alike R b') (hv : V v v')
    (href : v.reference? = v'.reference?) (category : Category) :
    (b.bindValue v category).1 = (b'.bindValue v' category).1 ∧
      (b.bindValue v category).2.Alike R (b'.bindValue v' category).2 := by
  rw [bindValue_eq, bindValue_eq, ← href]
  have hname := hR.name category h.bindings
  have hfile := h.file hR hv category
  cases v.reference? with
  | some text => exact ⟨rfl, h⟩
  | none =>
      dsimp only
      exact ⟨congrArg Bound.placeholder hname, hfile⟩

include hR in
/-- Builders that are alike give a sub-query the same variable. -/
theorem scopedVariable? [Naming] (h : b.Alike R b') (hq : q.Alike R q') (name docVar : String) :
    b.scopedVariable? q name docVar = b'.scopedVariable? q' name docVar := by
  have hid : q.id = q'.id := hR.id hq.bindings
  unfold Builder.scopedVariable?
  rw [h.aliases, hid]

include hR in
/-- Sub-queries that are alike are rescoped alike. -/
theorem rescoped [Naming] (h : b.Alike R b') (hq : q.Alike R q') :
    (b.rescoped q).Alike R (b'.rescoped q') := by
  have hsource := hq.source
  have hvariable := h.scopedVariable? hR hq
  have haliases := hq.aliases
  unfold Builder.rescoped
  rcases hs : q.source with _ | ⟨name, v⟩ | ⟨name, v⟩ | ⟨sub, v⟩ <;>
    rcases hs' : q'.source with _ | ⟨name', v'⟩ | ⟨name', v'⟩ | ⟨sub', v'⟩ <;>
    simp only [hs, hs', Option.map_some, Option.map_none, Source.map, Option.some.injEq,
      Source.collection.injEq, Source.view.injEq, reduceCtorEq] at hsource
  · exact hq
  · obtain ⟨rfl, rfl⟩ := hsource
    dsimp only
    rw [← hvariable]
    cases b.scopedVariable? q name v with
    | none => exact hq
    | some w => exact { hq with source := rfl, aliases := by rw [haliases] }
  · obtain ⟨rfl, rfl⟩ := hsource
    dsimp only
    rw [← hvariable]
    cases b.scopedVariable? q name v with
    | none => exact hq
    | some w => exact { hq with source := rfl, aliases := by rw [haliases] }
  · exact hq

include hR in
/-- Sub-queries that are alike are brought into the scope of a builder alike. -/
theorem scopedFor [Naming] (h : b.Alike R b') (hq : q.Alike R q') (category : Category) :
    (b.scopedFor q category).Alike R (b'.scopedFor q' category) := by
  unfold Builder.scopedFor
  split
  · exact h.rescoped hR hq
  · exact hq

end basic

end Alike

end Builder

end AqlBuilder

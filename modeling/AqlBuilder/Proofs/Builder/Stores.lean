import AqlBuilder.Proofs.Builder.Reference
import AqlBuilder.Proofs.Query.Fragment
import AqlBuilder.Proofs.Query.Stores
import AqlBuilder.Builder.Basic
import AqlBuilder.Builder.Projection

/-!
# What methods do to stores

A method files values in the store of its builder and merges the stores of the sub-queries that it
takes over; the sub-queries keep their own stores inside the clauses. Everything else that a method
changes has no stores, or is thrown away with the stores in it.

- `Builder.stores` are all stores in a builder.
- `Builder.leads_bindValue`, `Builder.leads_absorb`, `Builder.moves_adopt` and `Builder.moves_bind`
  are the shared parts of the methods.
- `SubQuery.Returns`: the closures among the arguments have come to their ends.
-/

namespace AqlBuilder

open Ledger Supply

namespace Builder

/-- The stores inside the clauses of a builder. -/
def inner (b : Builder) : Multiset Store := (b.queries.map Query.stores).sum

/-- All stores in a builder. -/
def stores (b : Builder) : Multiset Store := {b.bindings} + b.inner

theorem stores_of (b : Builder) : (Query.of b).stores = b.stores := Query.stores_of b

/-- The stores inside, clause by clause. -/
theorem inner_eq (b : Builder) :
    b.inner = (((b.source.map Source.queries).getD []).map Query.stores).sum +
      ((b.columns.flatMap Selector.queries).map Query.stores).sum +
      ((b.filters.flatMap fun f => f.test.queries).map Query.stores).sum +
      ((b.joins.map Join.query).map Query.stores).sum +
      ((b.havings.flatMap fun h => h.test.queries).map Query.stores).sum +
      ((b.unions.map UnionBranch.query).map Query.stores).sum +
      ((b.definitions.flatMap fun v => v.value.queries).map Query.stores).sum := by
  unfold inner Clauses.queries
  simp only [List.map_append, List.sum_append]

variable (b q : Builder)

/-- A test brings in the stores of its queries. -/
theorem stores_push (list : ConditionList) (connector : Connector) (test : Test Query) :
    (b.push list connector test).stores = b.stores + (test.queries.map Query.stores).sum := by
  have hinner : (b.push list connector test).inner =
      b.inner + (test.queries.map Query.stores).sum := by
    rw [inner_eq, inner_eq]
    cases list <;>
    · simp only [push, List.flatMap_append, List.flatMap_cons, List.flatMap_nil, List.append_nil,
        List.map_append, List.sum_append]
      abel
  have hbindings : (b.push list connector test).bindings = b.bindings := by
    cases list <;> rfl
  rw [stores, stores, hinner, hbindings, add_assoc]

/-- A part of a projection brings in the stores of its query. -/
theorem stores_addColumn (selector : Selector Query) (aliases : Registry) :
    stores { b with aliases := aliases, columns := b.columns ++ [selector] } =
      b.stores + (selector.queries.map Query.stores).sum := by
  simp only [stores, inner_eq, List.flatMap_append, List.flatMap_cons, List.flatMap_nil,
    List.append_nil, List.map_append, List.sum_append]
  abel

/-- A query variable brings in the stores of its query. -/
theorem stores_addDefinition (v : LetVariable Query) (aliases : Registry) :
    stores { b with aliases := aliases, definitions := b.definitions ++ [v] } =
      b.stores + (v.value.queries.map Query.stores).sum := by
  simp only [stores, inner_eq, List.flatMap_append, List.flatMap_cons, List.flatMap_nil,
    List.append_nil, List.map_append, List.sum_append]
  abel

/-- A join brings in the stores of the joined query. -/
theorem stores_addJoin (j : Join Query) :
    stores { b with joins := b.joins ++ [j] } = b.stores + j.query.stores := by
  simp only [stores, inner_eq, List.map_append, List.map_cons, List.map_nil, List.sum_append,
    List.sum_singleton]
  abel

/-- A branch of a union brings in the stores of its query. -/
theorem stores_addUnion (u : UnionBranch Query) (aliases : Registry) :
    stores { b with aliases := aliases, unions := b.unions ++ [u] } =
      b.stores + u.query.stores := by
  simp only [stores, inner_eq, List.map_append, List.map_cons, List.map_nil, List.sum_append,
    List.sum_singleton]
  abel

/-- Another source puts its stores in the place of those of the old one. -/
theorem stores_withSource (source : Option (Source Query)) :
    stores { b with source := source } + (((b.source.map Source.queries).getD []).map
      Query.stores).sum =
        b.stores + (((source.map Source.queries).getD []).map Query.stores).sum := by
  simp only [stores, inner_eq]
  abel

/-- A new source takes the place of the old one. -/
theorem stores_withSource_le (source : Source Query) :
    stores { b with source := some source } ≤
      b.stores + (source.queries.map Query.stores).sum :=
  Multiset.le_iff_exists_add.mpr ⟨_, (b.stores_withSource (some source)).symm⟩

/-- Without a projection a builder has no more stores than with it. -/
theorem stores_clearColumns_le : stores { b with columns := [] } ≤ b.stores := by
  have hcolumns : stores { b with columns := [] } +
      ((b.columns.flatMap Selector.queries).map Query.stores).sum = b.stores := by
    simp only [stores, inner_eq, List.flatMap_nil, List.map_nil, List.sum_nil]
    abel
  exact Multiset.le_iff_exists_add.mpr ⟨_, hcolumns.symm⟩

theorem stores_withBindings (s : Store) : stores { b with bindings := s } = {s} + b.inner := rfl

/-- What is done to the store of a builder is done to its stores. -/
theorem leads_withBindings {s t : Store} (h : Leads {s} {t}) :
    Leads (stores { b with bindings := s }) (stores { b with bindings := t }) := by
  rw [stores_withBindings, stores_withBindings]
  exact h.add_right b.inner

theorem leads_file (v : Value) (category : Category) : Leads b.stores (b.file v category).stores :=
  b.leads_withBindings (leads_add b.bindings v category)

/-- Merging the values of another builder leaves that one as it is. -/
theorem leads_mergeBindings (category : Option Category) :
    Leads (b.stores + q.stores) ((b.mergeBindings q category).stores + q.stores) := by
  have hbefore : b.stores + q.stores = {b.bindings} + {q.bindings} + (b.inner + q.inner) := by
    unfold stores
    abel
  have hafter : (b.mergeBindings q category).stores + q.stores =
      {b.bindings.merge q.bindings category} + {q.bindings} + (b.inner + q.inner) := by
    unfold mergeBindings
    rw [stores_withBindings, stores]
    abel
  rw [hbefore, hafter]
  exact (leads_merge b.bindings q.bindings category).add_right _

/-- Taking over the values of another builder leaves that one as it is. -/
theorem leads_absorb (category : Category) :
    Leads (b.stores + q.stores) ((b.absorb q category).stores + q.stores) :=
  b.leads_mergeBindings q (some category)

/-- Another variable leaves the stores of a sub-query. -/
theorem stores_rescoped [Naming] : (b.rescoped q).stores = q.stores := by
  unfold rescoped
  rcases hs : q.source with _ | ⟨name, v⟩ | ⟨name, v⟩ | ⟨sub, v⟩
  · rfl
  · dsimp only
    split
    · simp only [stores, inner_eq, hs, Option.map_some, Source.queries]
    · rfl
  · dsimp only
    split
    · simp only [stores, inner_eq, hs, Option.map_some, Source.queries]
    · rfl
  · rfl

/-- Another variable leaves the values of a sub-query. -/
theorem bindings_rescoped [Naming] : (b.rescoped q).bindings = q.bindings := by
  unfold rescoped
  split
  · split <;> rfl
  · split <;> rfl
  · rfl

/-- The scope of a builder leaves the stores of a sub-query. -/
theorem stores_scopedFor [Naming] (category : Category) :
    (b.scopedFor q category).stores = q.stores := by
  unfold scopedFor
  split
  · exact b.stores_rescoped q
  · rfl

/-- Binding a value files it, if it is no reference. -/
theorem leads_bindValue (v : Value) (category : Category) :
    Leads b.stores (b.bindValue v category).2.stores := by
  rw [bindValue_eq]
  cases v.reference? with
  | some text => exact .refl _
  | none => exact b.leads_file v category

end Builder

/-- A closure at its end: it has returned a builder, and `n` is the next number by now. -/
def Builder.returned (n : Nat) (q : Builder) : Builder → Supply Builder := fun _ _ => (q, n)

/-- A sub-query argument that has come to a builder while `n` is the next number. -/
inductive SubQuery.Returns (n : Nat) (q : Builder) : SubQuery → Prop
  | finished : Returns n q (.finished q)
  | closure : Returns n q (.closure (Builder.returned n q))

/-- The query in an operand. -/
def Operand.queries {Q : Type} : Operand Q → List Q
  | .query q => [q]
  | _ => []

/-- The stores of an operand. -/
def Operand.stores (o : Operand Builder) : Multiset Store := (o.queries.map Builder.stores).sum

/-- Compiling takes numbers and no store. -/
theorem Outcome.Steady.moves {α : Type} {x : Outcome α} (h : x.Steady) (S : Multiset Store) :
    Moves S x.run fun _ => S := fun n _ => run_take _ (h.rises n)

namespace Builder

variable (b : Builder)

theorem leads_fail (e : Error) : Leads b.stores (b.fail e).stores := .refl _

/-- If an error stops a step, the stores that it would have used are dropped. -/
theorem leads_unlessFailed {S : Multiset Store} {f : Builder → Builder} (hle : b.stores ≤ S)
    (h : Leads S (f b).stores) : Leads S (b.unlessFailed f).stores :=
  of_unlessFailed (p := fun w => Leads S w.stores) (.of_le hle) h

variable {n : Nat} {q : Builder} {sub : SubQuery}

/-- If an error stops a step that makes new queries, it takes no numbers. -/
theorem moves_unlessFailedM {S : Multiset Store} {f : Builder → Supply Builder}
    (hle : b.stores ≤ S) (h : (f b).MovesAt n S stores) :
    (b.unlessFailedM f).MovesAt n S stores := by
  unfold unlessFailedM
  split
  · exact moves_pure (.of_le hle) n
  · exact h

theorem moves_fresh : Moves 0 fresh stores :=
  fun n => (Supply.moves_fresh n).map fun _ => .refl _

theorem moves_forSubQuery : Moves 0 b.forSubQuery stores :=
  fun n => (moves_fresh n).map fun _ => .refl _

/-- A copy of a builder comes with a copy of each store. -/
theorem moves_copyOf : Moves b.stores b.copyOf fun copy => copy.stores + b.stores := by
  intro n F
  have hcopy := (Query.of b).moves_copyOf n F
  rw [b.stores_of] at hcopy
  have hresult : ((Query.of b).copyOf n).1.stores = (b.copyOf n).1.stores :=
    stores_of (b.copyOf n).1
  dsimp only at hcopy ⊢
  rw [hresult] at hcopy
  exact hcopy

/-- Copying a source copies its stores. -/
theorem moves_runSource (source : Option (Source Query)) :
    Moves (((source.map Source.queries).getD []).map Query.stores).sum
      (runSource (source.map (Source.map Query.copyOf))) fun copy =>
        (((copy.map Source.queries).getD []).map Query.stores).sum +
          (((source.map Source.queries).getD []).map Query.stores).sum := by
  intro n F
  have heach := moves_each
    (fun (q : Query) (_ : q ∈ (source.map Source.queries).getD []) => q.moves_copyOf) n F
  rw [Source.each_queries] at heach
  exact heach

/-- The source of a group is a copy, and the stores of the builder stay. -/
theorem moves_forNested : Moves b.stores b.forNested fun group => group.stores + b.stores := by
  intro n
  obtain ⟨T, hT⟩ : ∃ T, b.stores =
      (((b.source.map Source.queries).getD []).map Query.stores).sum + T := by
    refine ⟨stores { b with source := none }, ?_⟩
    have hnone := b.stores_withSource none
    rw [Option.map_none, Option.getD_none, List.map_nil, List.sum_nil, add_zero] at hnone
    rw [← hnone, add_comm]
  rw [hT]
  refine (((moves_fresh n).frame _).before (.of_eq (zero_add _).symm)).bind fun query m => ?_
  have hsource := ((moves_runSource b.source m).frame (T + query.stores)).before
    (T := query.stores + ((((b.source.map Source.queries).getD []).map Query.stores).sum + T))
    (.of_eq (by abel))
  refine hsource.map fun source => .of_le ?_
  have hle : stores { query with
      tablePrefix := b.tablePrefix, source := source, aliases := b.aliases } ≤
        query.stores + (((source.map Source.queries).getD []).map Query.stores).sum :=
    Multiset.le_iff_exists_add.mpr ⟨_, (query.stores_withSource source).symm⟩
  refine (add_le_add_left hle _).trans (le_of_eq ?_)
  abel

/-- A sub-query is taken over with its stores, and its bound values are merged. -/
theorem moves_adopt [Naming] (h : sub.Returns n q) (category : Category) :
    (b.adopt sub category).MovesAt n (b.stores + q.stores) fun p => p.2.stores + p.1.stores := by
  have hsub : (b.subBuilder sub).MovesAt n (b.stores + q.stores) fun q' =>
    b.stores + q'.stores := by
    cases h with
    | finished => exact moves_pure (.refl _) n
    | closure => exact fun _ => .refl
  refine hsub.map fun q' => ?_
  rw [← b.stores_scopedFor q' category]
  exact b.leads_absorb _ category

/-- Binding an operand files its value or merges the store of its query. -/
theorem moves_bind [Naming] (o : Operand Builder) (category : Category) :
    Moves (b.stores + o.stores) (b.bind o category) fun p => p.2.stores := by
  intro n
  cases o with
  | value v =>
      refine moves_pure ?_ n
      exact (Leads.of_eq (add_zero _)).trans (b.leads_bindValue v category)
  | expression aql => exact moves_pure (.of_eq (add_zero _)) n
  | column name => exact moves_pure (.of_eq (add_zero _)) n
  | query q =>
      have hembedded : (b.scopedFor q category).embedded.Steady :=
        (Query.steady_fragment _).embedded
      have hdrop : ∀ S : Multiset Store, Leads (S + q.stores) S :=
        fun S => .of_le (Multiset.le_add_right S _)
      rw [Operand.stores, Operand.queries, List.map_singleton, List.sum_singleton]
      refine (hembedded.moves (b.stores + q.stores) n).bind fun result => ?_
      cases result with
      | ok aql =>
          refine moves_pure ((?_ : Leads _ _).trans (hdrop _))
          rw [← b.stores_scopedFor q category]
          exact b.leads_absorb _ category
      | error e => exact moves_pure (hdrop _)

end Builder

end AqlBuilder

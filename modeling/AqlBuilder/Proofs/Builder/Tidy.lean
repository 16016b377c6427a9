import AqlBuilder.Builder.Source
import AqlBuilder.Proofs.Aql.Cited
import AqlBuilder.Proofs.Binding.Growth
import AqlBuilder.Proofs.Builder.Stores

/-!
# Builders without idle values

The values that a sub-query brings along are filed under the category of the clause that takes it
over, and so is the value of an operand. In a tidy builder each value is referred to by a clause of
its category. So a clause may be dropped together with the values of its category, but not without
them.

- `Clauses.Keeps` says that no clause that values belong to is dropped, and `Clauses.Cites.kept`
  that then no reference is lost.
- `Builder.Tidy` is the invariant, with the categories that may have values.
- `Builder.Gains` says which values are new, and `Builder.Tidy.gain` is the rule for all steps that
  bring in values.
- `Builder.gains_adopt`, `Builder.gains_bind`: what is taken over or bound refers to the new values.
-/

namespace AqlBuilder

open Supply

/-- A query that has the clauses of another one, at least those that values belong to. -/
structure Clauses.Keeps {Q : Type} (held : Set Category) (b c : Clauses Q) : Prop where
  definitions : b.definitions ⊆ c.definitions
  source {q : Q} {docVar : String} : .source ∈ held →
    b.source = some (.derived q docVar) → c.source = some (.derived q docVar)
  search {s : Search} : .search ∈ held → b.search = some s → c.search = some s
  joins : b.joins ⊆ c.joins
  filters : b.filters ⊆ c.filters
  havings : b.havings ⊆ c.havings
  unions : b.unions ⊆ c.unions
  columns : .select ∈ held → b.columns ⊆ c.columns

/-- A builder whose values are under certain categories, each of them referred to by a clause. -/
def Builder.Tidy (held : Set Category) (b : Builder) : Prop :=
  ∀ k, ∀ name ∈ (b.bindings.bound k).keys, k ∈ held ∧ IsName name ∧ b.compiled.Cites name k

/-- An action that leaves tidy builders on tidy ones. -/
def Builder.KeepsTidy (held ends : Set Category) (make : Builder → Supply Builder) : Prop :=
  ∀ b, b.Tidy held → (make b).Always (Builder.Tidy ends)

/-- A sub-query argument that is tidy, and that has no values unless they can be filed. -/
inductive SubQuery.Tidy (filed : Prop) : SubQuery → Prop
  | finished {b : Builder} (h : b.Tidy {_k | filed}) : SubQuery.Tidy filed (.finished b)
  | closure {make : Builder → Supply Builder} (h : Builder.KeepsTidy ∅ {_k | filed} make) :
      SubQuery.Tidy filed (.closure make)

/-- An operand whose query is tidy, and that has no values unless they can be filed. -/
def Operand.Tidy (filed : Prop) : Operand Builder → Prop
  | .value _ => filed
  | .query q => q.Tidy {_k | filed}
  | _ => True

/-- The statement of a query refers to a name. -/
def Builder.Tells (q : Builder) (name : String) : Prop := ∃ k, q.compiled.Cites name k

/-- A builder with the clauses of another one and with new names under one category, all of which
have a property. -/
structure Builder.Gains (held : Set Category) (k : Category) (p : String → Prop) (b w : Builder) :
    Prop where
  keeps : b.Keeps held w
  names : ∀ k', ∀ name ∈ (w.bindings.bound k').keys,
    name ∈ (b.bindings.bound k').keys ∨ k' = k ∧ IsName name ∧ p name

variable {held ends : Set Category} {k : Category} {p : String → Prop} {filed : Prop}
  {b c w q sub : Builder} {name : String}

namespace Clauses

section keeps

variable {P Q : Type} {b c d : Clauses Q}

namespace Keeps

theorem refl (held : Set Category) (b : Clauses Q) : b.Keeps held b where
  definitions := List.Subset.refl _
  source _ h := h
  search _ h := h
  joins := List.Subset.refl _
  filters := List.Subset.refl _
  havings := List.Subset.refl _
  unions := List.Subset.refl _
  columns _ := List.Subset.refl _

theorem trans (h : b.Keeps held c) (h' : c.Keeps held d) : b.Keeps held d where
  definitions := List.Subset.trans h.definitions h'.definitions
  source hk hs := h'.source hk (h.source hk hs)
  search hk hs := h'.search hk (h.search hk hs)
  joins := List.Subset.trans h.joins h'.joins
  filters := List.Subset.trans h.filters h'.filters
  havings := List.Subset.trans h.havings h'.havings
  unions := List.Subset.trans h.unions h'.unions
  columns hk := List.Subset.trans (h.columns hk) (h'.columns hk)

/-- Which clauses are kept does not depend on the queries inside. -/
theorem map (h : b.Keeps held c) (f : Q → P) : (b.map f).Keeps held (c.map f) where
  definitions := List.map_subset _ h.definitions
  source hk hs := by
    obtain ⟨s, hsource, heq⟩ := Option.map_eq_some_iff.mp hs
    cases s with
    | derived q docVar =>
        cases heq
        exact congrArg (Option.map (Source.map f)) (h.source hk hsource)
    | _ => cases heq
  search := h.search
  joins := List.map_subset _ h.joins
  filters := List.map_subset _ h.filters
  havings := List.map_subset _ h.havings
  unions := List.map_subset _ h.unions
  columns hk := List.map_subset _ (h.columns hk)

end Keeps

/-- As long as no clause is dropped, no reference is lost. -/
theorem Cites.kept {c d : Clauses Fragment} (h : c.Cites name k) (hk : k ∈ held)
    (hkeeps : c.Keeps held d) : d.Cites name k := by
  cases h with
  | bound hd h => exact .bound (hkeeps.definitions hd) h
  | defined hd h => exact .defined (hkeeps.definitions hd) h
  | source hs h => exact .source (hkeeps.source hk hs) h
  | text hs hfields h => exact .text (hkeeps.search hk hs) hfields h
  | analyzer hs h => exact .analyzer (hkeeps.search hk hs) h
  | joined hj h => exact .joined (hkeeps.joins hj) h
  | restricted hj h => exact .restricted (hkeeps.joins hj) h
  | filter hx h => exact .filter (hkeeps.filters hx) h
  | having hx h => exact .having (hkeeps.havings hx) h
  | union hu h => exact .union (hkeeps.unions hu) h
  | column hmem h => exact .column (hkeeps.columns hk hmem) h

end keeps

end Clauses

namespace Builder

/-! ### What a query contributes -/

/-- A clause that is kept refers to what it referred to. -/
theorem cites_of_keeps (h : b.compiled.Cites name k) (hk : k ∈ held) (hkeeps : b.Keeps held c) :
    c.compiled.Cites name k :=
  h.kept hk (hkeeps.map Query.fragment)

/-- A statement refers to what it referred to if all clauses are kept. -/
theorem Tells.keep (h : q.Tells name) (hkeeps : q.Keeps Set.univ c) : c.Tells name := by
  obtain ⟨k, h⟩ := h
  exact ⟨k, cites_of_keeps h (Set.mem_univ k) hkeeps⟩

/-- What the statement of a query refers to, its fragment refers to. -/
theorem Tells.fragment (h : q.Tells name) (hname : IsName name) :
    (Query.of q).fragment.Cites name := by
  obtain ⟨k, h⟩ := h
  rw [Query.fragment_of]
  exact fun n aql haql => Aql.yields_cited h hname _ aql haql

/-- A group of conditions is written by its conditions alone. -/
theorem restricts_of_cites (h : q.compiled.Cites name .filter) (hname : IsName name) :
    (Query.of q).fragment.Restricts name := by
  unfold Fragment.Restricts
  rw [Query.conditions_fragment]
  cases h with
  | filter hx h => exact Aql.yields_cited_conditions hx h hname

/-- A derived source refers to what its query refers to. -/
theorem iterates_of_source {docVar : String} (hs : c.source = some (.derived (.of q) docVar))
    (h : (Query.of q).fragment.Cites name) : (Query.of c).fragment.Iterates name := by
  unfold Fragment.Iterates
  rw [Query.source_fragment, hs]
  exact ⟨_, rfl, h.embedded⟩

/-! ### Gaining values -/

namespace Gains

theorem refl (held : Set Category) (k : Category) (p : String → Prop) (b : Builder) :
    b.Gains held k p b :=
  ⟨.refl held b, fun _ _ h => .inl h⟩

/-- A step that brings in no values. -/
theorem keep (h : b.Gains held k p w) (hkeeps : w.Keeps held c)
    (hbindings : c.bindings = w.bindings) : b.Gains held k p c :=
  ⟨h.keeps.trans hkeeps, hbindings ▸ h.names⟩

theorem trans {p' : String → Prop} (h : b.Gains held k p w) (h' : w.Gains held k p' c) :
    b.Gains held k (fun name => p name ∨ p' name) c := by
  refine ⟨h.keeps.trans h'.keeps, fun k' name hname => ?_⟩
  rcases h'.names k' name hname with hold | ⟨hk, hname, hp⟩
  · exact (h.names k' name hold).imp_right fun ⟨hk, hname, hp⟩ => ⟨hk, hname, .inl hp⟩
  · exact .inr ⟨hk, hname, .inr hp⟩

end Gains

/-! ### Tidy builders -/

namespace Tidy

theorem mono (h : b.Tidy held) (hheld : held ⊆ ends) : b.Tidy ends := fun k name hname =>
  ⟨hheld (h k name hname).1, (h k name hname).2⟩

theorem fresh : Builder.fresh.Always (Tidy held) := fun _ _ _ hname => nomatch hname

/-- **The rule for new values**: a clause of their category refers to them, and all other clauses
that values belong to are kept. -/
theorem gain (h : b.Tidy held) (hheld : held ⊆ ends) (hw : b.Gains held k p w)
    (hp : ∀ name, IsName name → p name → k ∈ ends ∧ w.compiled.Cites name k) : w.Tidy ends := by
  intro k' name hname
  rcases hw.names k' name hname with hold | ⟨rfl, hname, hnew⟩
  · obtain ⟨hk, hname, hcites⟩ := h k' name hold
    exact ⟨hheld hk, hname, cites_of_keeps hcites hk hw.keeps⟩
  · exact ⟨(hp name hname hnew).1, hname, (hp name hname hnew).2⟩

/-- A tidy builder stays so if the clauses are kept and the values are the same. -/
theorem keep (h : b.Tidy held) (hkeeps : b.Keeps held c) (hbindings : c.bindings = b.bindings) :
    c.Tidy held := by
  have hnone : b.Gains held .filter (fun _ => False) c :=
    (Gains.refl held _ _ b).keep hkeeps hbindings
  exact h.gain subset_rfl hnone fun _ _ hfalse => hfalse.elim

theorem fail (h : b.Tidy held) (e : Error) : (b.fail e).Tidy held :=
  h.keep { Clauses.Keeps.refl held b with } rfl

/-- A copy of a tidy builder is tidy. -/
theorem copyOf (h : b.Tidy held) : b.copyOf.Always (Tidy held) := by
  intro next k name hname
  have hbindings := b.copyOf_bindings next
  rw [hbindings, Store.bound_renumber] at hname
  obtain ⟨hk, hname, hcites⟩ := h k name hname
  refine ⟨hk, hname, ?_⟩
  rw [b.compiled_copyOf next]
  exact hcites.kept (Set.mem_univ k) { Clauses.Keeps.refl _ b.compiled with }

theorem forSubQuery (b : Builder) : b.forSubQuery.Always (Tidy held) :=
  fun _ _ _ hname => nomatch hname

theorem forNested (b : Builder) : b.forNested.Always (Tidy held) :=
  fun _ _ _ hname => nomatch hname

end Tidy

/-! ### Taking over sub-queries and binding operands -/

/-- Another variable leaves all clauses. -/
theorem keeps_rescoped [Naming] (b sub : Builder) : sub.Keeps Set.univ (b.rescoped sub) := by
  unfold rescoped
  split
  · rename_i hs
    split
    · exact { Clauses.Keeps.refl _ sub with source := fun _ hsub => by simp [hs] at hsub }
    · exact .refl _ sub
  · rename_i hs
    split
    · exact { Clauses.Keeps.refl _ sub with source := fun _ hsub => by simp [hs] at hsub }
    · exact .refl _ sub
  · exact .refl _ sub

/-- A sub-query is as tidy in its scope as it was before. -/
theorem Tidy.scopedFor [Naming] (h : sub.Tidy held) (b : Builder) (category : Category) :
    (b.scopedFor sub category).Tidy held := by
  unfold Builder.scopedFor
  split
  · have hkeeps := b.keeps_rescoped sub
    refine h.keep { hkeeps with
      source := fun _ => hkeeps.source (Set.mem_univ _)
      search := fun _ => hkeeps.search (Set.mem_univ _)
      columns := fun _ => hkeeps.columns (Set.mem_univ _) } (b.bindings_rescoped sub)
  · exact h

/-- A sub-query is tidy if its argument is, and has values only if they are filed. -/
theorem tidy_subBuilder {s : SubQuery} (hs : s.Tidy filed) :
    (b.subBuilder s).Always (Tidy {_k | filed}) := by
  cases hs with
  | finished h => exact always_pure (h.keep { Clauses.Keeps.refl _ _ with } rfl)
  | closure h => exact (Tidy.forSubQuery b).bind h

/-- Taking over values leaves the clauses. -/
theorem keeps_absorb (b q : Builder) (held : Set Category) (k : Category) :
    b.Keeps held (b.absorb q k) := by
  unfold absorb
  generalize b.bindings.merge q.bindings (some k) = bindings
  exact { Clauses.Keeps.refl held b with }

/-- The new values of a builder are those of the sub-query that it takes over. -/
theorem gains_absorb (h : q.Tidy ends) (b : Builder) (held : Set Category) (k : Category) :
    b.Gains held k (fun name => ∃ k' ∈ ends, q.compiled.Cites name k') (b.absorb q k) := by
  refine ⟨b.keeps_absorb q held k, fun k' name hname => ?_⟩
  refine (Store.mem_keys_merged hname).imp_right fun ⟨hk, origin, horigin⟩ => ?_
  obtain ⟨hends, hname, hcites⟩ := h origin name horigin
  exact ⟨hk, hname, origin, hends, hcites⟩

/-- A sub-query refers to the values that are taken over from it. -/
theorem gains_adopt [Naming] {s : SubQuery} (hs : s.Tidy filed) (b : Builder) (held : Set Category)
    (k : Category) : (b.adopt s k).Always fun result =>
      b.Gains held k (fun name => filed ∧ result.1.Tells name) result.2 := by
  refine (tidy_subBuilder hs).map fun q hq => ?_
  have htaken := gains_absorb (hq.scopedFor b k) b held k
  refine ⟨htaken.keeps, fun k' name hname => (htaken.names k' name hname).imp_right ?_⟩
  exact fun ⟨hk, hname, origin, hfiled, hcites⟩ => ⟨hk, hname, hfiled, origin, hcites⟩

/-- An operand refers to the value that is filed for it, if there is one. -/
theorem gains_bindValue (b : Builder) (held : Set Category) (v : Value) (k : Category) :
    b.Gains held k ((b.bindValue v k).1.Cites ·) (b.bindValue v k).2 := by
  rw [bindValue_eq]
  cases v.reference? with
  | some text => exact .refl held k _ b
  | none =>
      refine ⟨{ Clauses.Keeps.refl held b with }, fun k' name hname => ?_⟩
      change name ∈ ((b.bindings.add v k).2.bound k').keys at hname
      refine (Store.mem_keys_add hname).imp_right fun ⟨hk, hnew⟩ => ?_
      exact ⟨hk, hnew ▸ b.bindings.isName_nextName k, hnew.symm⟩

/-- So does the operand that a sub-query has been compiled for. -/
theorem gains_bind [Naming] {o : Operand Builder} (ho : o.Tidy filed) (b : Builder)
    (held : Set Category) (k : Category) : (b.bind o k).Always fun result =>
      b.Gains held k (fun name => filed ∧ result.1.Cites name) result.2 := by
  cases o with
  | value v =>
      have hvalue := b.gains_bindValue held v k
      refine always_pure ⟨hvalue.keeps, fun k' name hname => ?_⟩
      exact (hvalue.names k' name hname).imp_right fun ⟨hk, hname, h⟩ => ⟨hk, hname, ho, h⟩
  | expression aql => exact always_pure (.refl held k _ b)
  | column c => exact always_pure (.refl held k _ b)
  | query q =>
      have htaken := gains_absorb (Tidy.scopedFor ho b k) b held k
      have hresult : ((b.scopedFor q k).embedded.run).Always fun result => ∀ aql,
          result = .ok aql → ∀ name, IsName name → (b.scopedFor q k).Tells name →
            AqlBuilder.Cites name aql :=
        fun next aql haql name hname h => (h.fragment hname).embedded next aql haql
      refine hresult.bind fun result hcites => ?_
      cases result with
      | error e => exact always_pure ⟨{ Clauses.Keeps.refl held b with }, fun _ _ h => .inl h⟩
      | ok aql =>
          refine always_pure ⟨htaken.keeps, fun k' name hname => ?_⟩
          refine (htaken.names k' name hname).imp_right fun ⟨hk, hname, origin, hfiled, h⟩ => ?_
          exact ⟨hk, hname, hfiled, hcites aql rfl name hname ⟨origin, h⟩⟩

end Builder

end AqlBuilder

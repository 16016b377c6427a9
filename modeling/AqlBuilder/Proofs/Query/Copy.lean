import AqlBuilder.Proofs.Query.Map
import AqlBuilder.Query.Count

/-!
# What a copy keeps

A copy of a query differs from it in the numbers of its queries and in how far they have counted
their names, and in nothing else. So whatever does not look at these two is the same for a query and
for its copies, whichever numbers the copies got.

- `Supply.Always` speaks about the results of a computation under every counter.
- `Builder.map_copyOf` and `Builder.map_workingCopy`: a reading of queries that is the same for the
  copies of the sub-queries is the same for a copy of the whole.
- `Query.fold_copyOf`: a fold that is blind to numbers gives the same for a query and its copies.
-/

namespace AqlBuilder

-- Sums of numbers are those of core, whatever else is imported.
attribute [local instance (2000)] Zero.ofOfNat0

/-- A property of the result of a computation, whichever number is the next one. -/
def Supply.Always {α : Type} (x : Supply α) (p : α → Prop) : Prop := ∀ next, p (x next).1

namespace Supply

variable {α β γ δ : Type} {p : α → Prop} {r : β → Prop}

theorem always_pure {a : α} (h : p a) : Always (pure a) p := fun _ => h

theorem always_true {x : Supply α} : x.Always fun _ => True := fun _ => trivial

theorem Always.bind {x : Supply α} {f : α → Supply β} (hx : x.Always p)
    (hf : ∀ a, p a → (f a).Always r) : (x >>= f).Always r :=
  fun next => hf (x next).1 (hx next) (x next).2

theorem Always.map {x : Supply α} {f : α → β} (hx : x.Always p) (hf : ∀ a, p a → r (f a)) :
    Always (do pure (f (← x))) r :=
  hx.bind fun a ha => always_pure (hf a ha)

/-- A weaker property holds as well. -/
theorem Always.mono {x : Supply α} {p' : α → Prop} (hx : x.Always p) (h : ∀ a, p a → p' a) :
    x.Always p' :=
  fun next => h _ (hx next)

/-- A computation goes on with its result and its counter. -/
theorem bind_result {x : Supply α} {f : α → Supply β} {a : α} {n m : Nat} (hx : x n = (a, m)) :
    (x >>= f) n = f a m := by
  change f (x n).1 (x n).2 = _
  rw [hx]

/-- Computations for the parts of a list whose results read like the parts. -/
theorem always_each {f : β → Supply γ} {k : α → β} {read : γ → δ} {reading : α → δ}
    {items : List α} (h : ∀ item ∈ items, (f (k item)).Always fun c => read c = reading item) :
    (each f (items.map k)).Always fun results => results.map read = items.map reading := by
  induction items with
  | nil => exact always_pure rfl
  | cons item items ih =>
      refine (h item List.mem_cons_self).bind fun first hfirst => ?_
      refine (ih fun i hi => h i (List.mem_cons_of_mem item hi)).map fun rest hrest => ?_
      rw [List.map_cons, List.map_cons, hfirst, hrest]

/-- What each computation for a list promises holds of all results. -/
theorem always_each_mem {f : α → Supply β} {p : β → Prop} {items : List α}
    (h : ∀ item ∈ items, (f item).Always p) :
    (each f items).Always fun results => ∀ result ∈ results, p result := by
  induction items with
  | nil => exact always_pure fun _ hr => (List.not_mem_nil hr).elim
  | cons item rest ih =>
      have hrest := ih fun i hi => h i (List.mem_cons_of_mem item hi)
      refine (h item List.mem_cons_self).bind fun first hfirst =>
        hrest.map fun others hothers r hr => ?_
      rcases List.mem_cons.mp hr with rfl | hr
      · exact hfirst
      · exact hothers r hr

end Supply

open Supply

section parts

variable {R : Type} {f : Query → Supply Query} {g : Query → R}

/-- What a change of its query leaves, a change of a source leaves. -/
theorem Source.always_run (s : Source Query) (h : ∀ q ∈ s.queries, (f q).Always (g · = g q)) :
    (s.map f).run.Always fun s' => s'.map g = s.map g := by
  cases s with
  | derived q v =>
      refine (h q (by simp [queries])).map fun q' hq' => ?_
      simp only [map, hq']
  | _ => exact always_pure rfl

/-- What a change of its query leaves, a change of a selector leaves. -/
theorem Selector.always_run (s : Selector Query)
    (h : ∀ q ∈ s.queries, (f q).Always (g · = g q)) :
    (s.map f).run.Always fun s' => s'.map g = s.map g := by
  cases s with
  | sub q asName =>
      refine (h q (by simp [queries])).map fun q' hq' => ?_
      simp only [map, hq']
  | _ => exact always_pure rfl

/-- What changes of its queries leave, a change of a test leaves. -/
theorem Test.always_run (t : Test Query) (h : ∀ q ∈ t.queries, (f q).Always (g · = g q)) :
    (t.map f).run.Always fun t' => t'.map g = t.map g := by
  cases t with
  | memberOfQuery c q n =>
      exact (h q (by simp [queries])).map fun q' hq' => by simp only [map, hq']
  | compareQuery c o q =>
      exact (h q (by simp [queries])).map fun q' hq' => by simp only [map, hq']
  | hasRows q n => exact (h q (by simp [queries])).map fun q' hq' => by simp only [map, hq']
  | nested q => exact (h q (by simp [queries])).map fun q' hq' => by simp only [map, hq']
  | _ => exact always_pure rfl

/-- What changes of its queries leave, a change of a condition leaves. -/
theorem Condition.always_run (c : Condition Query)
    (h : ∀ q ∈ c.test.queries, (f q).Always (g · = g q)) :
    (c.map f).run.Always fun c' => c'.map g = c.map g :=
  (c.test.always_run h).map fun t' ht' => by simp only [map, ht']

theorem Join.always_run (j : Join Query) (h : (f j.query).Always (g · = g j.query)) :
    (j.map f).run.Always fun j' => j'.map g = j.map g :=
  h.map fun q' hq' => by simp only [map, hq']

theorem UnionBranch.always_run (u : UnionBranch Query) (h : (f u.query).Always (g · = g u.query)) :
    (u.map f).run.Always fun u' => u'.map g = u.map g :=
  h.map fun q' hq' => by simp only [map, hq']

/-- What a change of its query leaves, a change of a query variable leaves. -/
theorem LetVariable.always_run (v : LetVariable Query)
    (h : ∀ q ∈ v.value.queries, (f q).Always (g · = g q)) :
    (v.map f).run.Always fun v' => v'.map g = v.map g := by
  obtain ⟨name, value⟩ := v
  cases value with
  | bound b => exact always_pure rfl
  | query q =>
      refine (h q (by simp [Definition.queries])).map fun q' hq' => ?_
      simp only [map, Definition.map, hq']

/-- What a change of its query leaves, a change of an optional source leaves. -/
theorem always_runSource (s : Option (Source Query))
    (h : ∀ q ∈ (s.map Source.queries).getD [], (f q).Always (g · = g q)) :
    (runSource (s.map (Source.map f))).Always
      fun s' => s'.map (Source.map g) = s.map (Source.map g) := by
  cases s with
  | none => exact always_pure rfl
  | some s => exact (s.always_run h).map fun s' hs' => congrArg some hs'

/-- Clauses whose queries are replaced by ones that read the same read the same themselves. -/
theorem Clauses.always_run (c : Clauses Query) (h : ∀ q ∈ c.queries, (f q).Always (g · = g q)) :
    (c.map f).run.Always fun c' => c'.map g = c.map g ∧ c'.bindings = c.bindings := by
  simp only [queries, List.mem_append] at h
  have source := always_runSource c.source fun q hq => h q (by simp [hq])
  have columns : (each Selector.run (c.columns.map (Selector.map f))).Always _ :=
    always_each fun s hs => s.always_run fun q hq => h q (by grind)
  have filters : (each Condition.run (c.filters.map (Condition.map f))).Always _ :=
    always_each fun x hx => x.always_run fun q hq => h q (by grind)
  have joins : (each Join.run (c.joins.map (Join.map f))).Always _ :=
    always_each fun j hj => j.always_run (h j.query (by grind))
  have havings : (each Condition.run (c.havings.map (Condition.map f))).Always _ :=
    always_each fun x hx => x.always_run fun q hq => h q (by grind)
  have unions : (each UnionBranch.run (c.unions.map (UnionBranch.map f))).Always _ :=
    always_each fun u hu => u.always_run (h u.query (by grind))
  have definitions : (each LetVariable.run (c.definitions.map (LetVariable.map f))).Always _ :=
    always_each fun v hv => v.always_run fun q hq => h q (by grind)
  refine source.bind fun s hs => columns.bind fun cs hcs => filters.bind fun fs hfs => ?_
  refine joins.bind fun js hjs => havings.bind fun hvs hhvs => unions.bind fun us hus => ?_
  refine definitions.map fun ds hds => ⟨?_, rfl⟩
  simp only [map, hs, hcs, hfs, hjs, hhvs, hus, hds]

end parts

namespace Query

variable {R : Type} {level : Clauses R → R}

/-- A level of a fold that looks neither at the number of a query nor at its counters. -/
def Blind (level : Clauses R → R) : Prop :=
  ∀ (c : Clauses R) (id : Nat), level (c.withBindings (c.bindings.renumber id)) = level c

/-- A fold that is blind to numbers gives the same for a query and its copies. -/
theorem fold_copyOf (hlevel : Blind level) (q : Query) :
    q.copyOf.Always fun copy => copy.fold level = q.fold level := by
  induction q with
  | of c ih =>
      rw [copyOf, fold_of]
      refine (c.always_run ih).bind fun c' hc' => ?_
      refine always_true.map fun id _ => ?_
      rw [fold_of, fold_of, ← hc'.1]
      exact hlevel (c'.map (fold level)) id

/-- A copy holds as many queries as the original. -/
theorem count_copyOf (q : Query) : q.copyOf.Always fun copy => copy.count = q.count :=
  fold_copyOf (fun _ _ => rfl) q

end Query

namespace Builder

variable {R : Type} {g : Query → R}

/-- A copy of a builder, with the number that it gets. -/
theorem copyOf_eq (b : Builder) (next : Nat) :
    b.copyOf next =
      (((b.map Query.copyOf).run next).1.withBindings
        (((b.map Query.copyOf).run next).1.bindings.renumber
          (next + (b.queries.map Query.count).sum)),
        next + (b.queries.map Query.count).sum + 1) := by
  have hrun : ((b.map Query.copyOf).run next).2 = next + (b.queries.map Query.count).sum :=
    b.takes_run (fun q _ next => q.copyOf_run next) next
  have hfold : (Query.of b).copyOf = copyLevel (b.map Query.copyOf) := by
    rw [Query.copyOf, Query.fold_of]
    rfl
  rw [← hrun]
  change (((Query.of b).copyOf next).1.clauses, ((Query.of b).copyOf next).2) = _
  rw [hfold]
  rfl

/-- What a copy of a builder keeps: the bound values, and every reading of the sub-queries that is
the same for their copies. -/
theorem map_copyOf (b : Builder) (h : ∀ q ∈ b.queries, q.copyOf.Always (g · = g q)) (next : Nat) :
    (b.copyOf next).1.map g = (b.map g).withBindings
      (b.bindings.renumber (next + (b.queries.map Query.count).sum)) := by
  obtain ⟨hmap, hbindings⟩ := b.always_run h next
  rw [copyOf_eq, hbindings, Clauses.map_withBindings, hmap]

/-- A copy keeps the bound values under its own number. -/
theorem copyOf_bindings (b : Builder) (next : Nat) :
    (b.copyOf next).1.bindings =
      b.bindings.renumber (next + (b.queries.map Query.count).sum) :=
  congrArg Clauses.bindings (b.map_copyOf (g := Query.count) (fun q _ => q.count_copyOf) next)

/-- A working copy keeps the bound values with the number and the counters of their query. -/
theorem map_workingCopy (b : Builder) (h : ∀ q ∈ b.queries, q.copyOf.Always (g · = g q))
    (next : Nat) : (b.workingCopy next).1.map g = b.map g := by
  change ((b.copyOf next).1.map g).withBindings b.bindings = b.map g
  rw [b.map_copyOf h]
  rfl

/-- A working copy takes as many query numbers as the builder has queries. -/
theorem workingCopy_run (b : Builder) (next : Nat) :
    (b.workingCopy next).2 = next + (Query.of b).count :=
  Query.copyOf_run (.of b) next

end Builder

end AqlBuilder

import AqlBuilder.Proofs.Aql.Steady
import AqlBuilder.Proofs.Query.Copy
import Mathlib.Algebra.Order.BigOperators.Group.List
import Mathlib.Algebra.Order.Group.Nat

/-!
# Fragments as a fold

A query is compiled on a copy, and the queries in that copy are compiled on copies of the copies. No
text is derived from the number of a query, so all these copies can be left out: a fragment is made
from the fragments of the sub-queries, and the copies only move the counter on.

- `Query.fragment_of` is the equation of fragments.
- `Query.fragment_copyOf`: a query and its copies have the same fragment.
- `Query.steady_fragment`: the counter makes no difference to the texts of a fragment.
- `Builder.compiled_copyOf`, `Builder.compiled_workingCopy`: nor does a copy of a builder.
-/

namespace AqlBuilder

-- Sums of numbers are those of core, whatever else is imported.
attribute [local instance (2000)] Zero.ofOfNat0

namespace Query

/-- What a query contributes, with a reading of its sub-queries in the place of their fragments. -/
def fragmentOver (g : Query → Fragment) (c : Clauses Query) : Fragment :=
  Aql.fragment (c.map g) (.after (Query.of c).count (Aql.statement (c.map g)))

/-- Compiling on a working copy is compiling in place after its numbers have been taken, for a
reading of sub-queries that is the same for their copies. -/
theorem fragmentWithin_succ {k : Nat} {c : Clauses Query}
    (h : ∀ q ∈ c.queries, q.copyOf.Always fun copy =>
      copy.fragmentWithin k = q.fragmentWithin k) :
    (Query.of c).fragmentWithin (k + 1) = fragmentOver (fragmentWithin k) c := by
  have statement : (do
      let copy ← Outcome.ofSupply (Builder.workingCopy c)
      Aql.statement (copy.map (fragmentWithin k)) : Outcome String) =
        .after (Query.of c).count (Aql.statement (c.map (fragmentWithin k))) := by
    funext next
    have hcopy := Builder.map_workingCopy c h next
    have hcount := Builder.workingCopy_run c next
    change Aql.statement ((Builder.workingCopy c next).1.map _) (Builder.workingCopy c next).2 = _
    rw [hcopy, hcount]
    rfl
  rw [fragmentWithin, statement, fragmentOver]

/-- No depth of compiling tells a copy from the original. -/
theorem fragmentWithin_copyOf (k : Nat) (q : Query) :
    q.copyOf.Always fun copy => copy.fragmentWithin k = q.fragmentWithin k := by
  induction k generalizing q with
  | zero => exact fun _ => rfl
  | succ k ih =>
      obtain ⟨c⟩ := q
      intro next
      have hcopy := Builder.map_copyOf c (fun q _ => ih q) next
      have hcount : (Query.of (Builder.copyOf c next).1).count = (Query.of c).count :=
        count_copyOf (.of c) next
      change (Query.of (Builder.copyOf c next).1).fragmentWithin (k + 1) = _
      rw [fragmentWithin_succ fun q _ => ih q, fragmentWithin_succ fun q _ => ih q, fragmentOver,
        fragmentOver, hcopy, hcount]
      rfl

theorem count_of (c : Clauses Query) : (Query.of c).count = (c.queries.map count).sum + 1 := by
  rw [count, fold_of, Clauses.queries_map]

/-- A depth that is not less than the number of queries does not matter. -/
theorem fragmentWithin_eq_fragment (q : Query) :
    ∀ k, q.count ≤ k → q.fragmentWithin k = q.fragment := by
  induction q with
  | of c ih =>
      have level : ∀ k, (Query.of c).count ≤ k →
          (Query.of c).fragmentWithin k = fragmentOver fragment c := by
        intro k hk
        have hcount := count_of c
        obtain ⟨k, rfl⟩ : ∃ m, k = m + 1 := ⟨k - 1, by omega⟩
        have hparts : c.map (fragmentWithin k) = c.map fragment := by
          refine Clauses.map_congr fun q hq => ih q hq k ?_
          have hle : q.count ≤ (c.queries.map count).sum :=
            List.le_sum_of_mem (List.mem_map_of_mem hq)
          omega
        rw [fragmentWithin_succ fun q _ => fragmentWithin_copyOf k q, fragmentOver, hparts]
        rfl
      intro k hk
      rw [level k hk, fragment, level _ (Nat.le_refl _)]

/-- The fragment of a query is made from the fragments of its sub-queries. -/
theorem fragment_of (c : Clauses Query) : (Query.of c).fragment = fragmentOver fragment c := by
  have hparts : c.map (fragmentWithin (c.queries.map count).sum) = c.map fragment := by
    refine Clauses.map_congr fun q hq => fragmentWithin_eq_fragment q _ ?_
    exact List.le_sum_of_mem (List.mem_map_of_mem hq)
  rw [fragment, count_of, fragmentWithin_succ fun q _ => fragmentWithin_copyOf _ q, fragmentOver,
    hparts]
  rfl

/-- The source of a fragment is written from that of its query. -/
theorem source_fragment (b : Builder) : (of b).fragment.source =
    (b.source.map (Source.map fragment)).map (Aql.sourceText b.tablePrefix) := by
  rw [fragment_of]
  rfl

/-- The conditions of a fragment are written from those of its query. -/
theorem conditions_fragment (b : Builder) : (of b).fragment.conditions =
    Aql.conditions b.compiled.scope (b.filters.map (Condition.map fragment)) := by
  rw [fragment_of]
  rfl

/-- A fragment has a single row just if its query is limited to one. -/
theorem singleRow_fragment (b : Builder) : (of b).fragment.singleRow = (b.limit == some 1) := by
  rw [fragment_of]
  rfl

/-- A query and its copies have the same fragment. -/
theorem fragment_copyOf (q : Query) :
    q.copyOf.Always fun copy => copy.fragment = q.fragment := by
  intro next
  have hcount := count_copyOf q next
  change (q.copyOf next).1.count = q.count at hcount
  change (q.copyOf next).1.fragmentWithin (q.copyOf next).1.count = q.fragmentWithin q.count
  rw [hcount]
  exact fragmentWithin_copyOf q.count q next

/-- The texts of a fragment do not depend on the counter. -/
theorem steady_fragment (q : Query) : q.fragment.Steady := by
  induction q with
  | of c ih =>
      have hparts : ∀ f ∈ (c.map fragment).queries, f.Steady := by
        rw [Clauses.queries_map]
        intro f hf
        obtain ⟨q, hq, rfl⟩ := List.mem_map.mp hf
        exact ih q hq
      have hfilters : ∀ f ∈ (c.map fragment).filters.flatMap (fun x => x.test.queries),
          f.Steady := fun f hf => hparts f (by simp [Clauses.queries, hf])
      rw [fragment_of, fragmentOver]
      exact {
        statement := (Aql.steady_statement hparts).after _
        conditions := Aql.steady_conditions _ hfilters
        source := Aql.steady_source hparts }

end Query

namespace Builder

/-- Compiling the sub-queries of a builder leaves its scope as it is. -/
theorem scope_compiled (b : Builder) : b.compiled.scope = b.scope :=
  Clauses.scope_map Query.fragment b

/-- A copy of a builder compiles to the same text, whatever its number. -/
theorem compiled_copyOf (b : Builder) (next : Nat) :
    (b.copyOf next).1.compiled = b.compiled.withBindings
      (b.bindings.renumber (next + (b.queries.map Query.count).sum)) :=
  b.map_copyOf (fun q _ => q.fragment_copyOf) next

/-- A working copy of a builder compiles like the builder. -/
theorem compiled_workingCopy (b : Builder) (next : Nat) :
    (b.workingCopy next).1.compiled = b.compiled :=
  b.map_workingCopy (fun q _ => q.fragment_copyOf) next

end Builder

end AqlBuilder

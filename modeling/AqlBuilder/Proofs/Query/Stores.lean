import AqlBuilder.Proofs.Binding.Ledger
import AqlBuilder.Proofs.Query.Copy
import Mathlib.Algebra.BigOperators.Group.Multiset.Basic
import Mathlib.Tactic.Abel

/-!
# The stores of a query

Every query inside a query has a store of its own. A computation that takes query numbers works on
some of the stores that exist and leaves the others alone, so it can be seen as a run of the ledger
on the stores it works on, with any others beside them.

- `Query.stores` are all stores in a query.
- `Ledger.Leads` and `Supply.Moves` describe changes to stores by themselves.
- `Query.moves_copyOf`: copying a query copies its stores.
-/

namespace AqlBuilder

/-- The stores of a query and of all queries inside. -/
def Query.stores : Query → Multiset Store := Query.fold fun c => {c.bindings} + c.queries.sum

/-- A query has a store of its own and those of the queries inside. -/
theorem Query.stores_of (c : Clauses Query) :
    (Query.of c).stores = {c.bindings} + (c.queries.map Query.stores).sum := by
  rw [stores, fold_of, Clauses.queries_map]
  rfl

namespace Ledger

variable {S T U : Multiset Store}

/-- What is done to some stores when no number is taken, whatever other stores there are. -/
def Leads (S T : Multiset Store) : Prop := ∀ n F, Run ⟨n, S + F⟩ ⟨n, T + F⟩

theorem Leads.refl (S : Multiset Store) : Leads S S := fun _ _ => .refl

theorem Leads.of_eq (h : S = T) : Leads S T := h ▸ .refl S

theorem Leads.trans (h : Leads S T) (h' : Leads T U) : Leads S U :=
  fun n F => (h n F).trans (h' n F)

/-- What is done to some stores is done beside others. -/
theorem Leads.add_right (h : Leads S T) (U : Multiset Store) : Leads (S + U) (T + U) := by
  intro n F
  rw [add_assoc, add_assoc]
  exact h n (U + F)

/-- What is done to some stores is done beside others in front. -/
theorem Leads.add_left (h : Leads S T) (U : Multiset Store) : Leads (U + S) (U + T) := by
  rw [add_comm U S, add_comm U T]
  exact h.add_right U

/-- Stores may be dropped. -/
theorem Leads.of_le (h : T ≤ S) : Leads S T := by
  obtain ⟨U, rfl⟩ := Multiset.le_iff_exists_add.mp h
  clear h
  intro n F
  induction U using Multiset.induction with
  | empty => rw [add_zero]
  | cons s U ih =>
      refine Relation.ReflTransGen.head ?_ ih
      have hcons : T + s ::ₘ U + F = s ::ₘ (T + U + F) := by
        rw [Multiset.add_cons, Multiset.cons_add]
      rw [hcons]
      exact .drop s

/-- Numbers may be taken without a store. -/
theorem run_take {n m : Nat} (S : Multiset Store) (h : n ≤ m) : Run ⟨n, S⟩ ⟨m, S⟩ := by
  induction h with
  | refl => exact .refl
  | step _ ih => exact ih.tail .take

/-- Filing a value is one operation on a store. -/
theorem leads_add (s : Store) (v : Value) (category : Category) :
    Leads {s} {(s.add v category).2} := by
  intro n F
  rw [Multiset.singleton_add, Multiset.singleton_add]
  exact .single (.add s v category)

/-- Merging is one operation on two stores. -/
theorem leads_merge (s t : Store) (category : Option Category) :
    Leads ({s} + {t}) ({s.merge t category} + {t}) := by
  intro n F
  rw [add_assoc, add_assoc, Multiset.singleton_add, Multiset.singleton_add]
  have ht : t ∈ {t} + F := Multiset.mem_add.mpr (Or.inl (Multiset.mem_singleton_self t))
  exact .single (.merge s ht category)

/-- Clearing a category is one operation on a store. -/
theorem leads_clear (s : Store) (category : Category) : Leads {s} {s.set [] category} := by
  intro n F
  rw [Multiset.singleton_add, Multiset.singleton_add]
  exact .single (.clear s category)

end Ledger

open Ledger

namespace Supply

variable {α β γ : Type} {S T : Multiset Store} {P P' : α → Multiset Store}
  {R : β → Multiset Store} {n : Nat} {x : Supply α} {f : α → Supply β}

/-- What a computation does to some stores while `n` is the next number, whatever other stores there
are. What becomes of the stores depends on the result. -/
def MovesAt (n : Nat) (S : Multiset Store) (x : Supply α) (P : α → Multiset Store) : Prop :=
  ∀ F, Run ⟨n, S + F⟩ ⟨(x n).2, P (x n).1 + F⟩

/-- What a computation does to some stores, whichever number is next. -/
abbrev Moves (S : Multiset Store) (x : Supply α) (P : α → Multiset Store) : Prop :=
  ∀ n, x.MovesAt n S P

theorem moves_pure {a : α} (h : Leads S (P a)) : Moves S (pure a) P := fun n F => h n F

/-- A new number is one for a new store. -/
theorem moves_fresh : Moves 0 fresh fun id => {Store.empty id} := by
  intro n F
  rw [zero_add]
  exact .single .create

/-- A computation that takes no number does what its rest does. -/
theorem MovesAt.of_result {a : α} (hx : x n = (a, n)) (hf : (f a).MovesAt n S R) :
    (x >>= f).MovesAt n S R := by
  unfold MovesAt
  rw [bind_result hx]
  exact hf

theorem MovesAt.before (hx : x.MovesAt n S P) (h : Leads T S) : x.MovesAt n T P :=
  fun F => (h n F).trans (hx F)

theorem MovesAt.after (hx : x.MovesAt n S P) (h : ∀ a, Leads (P a) (P' a)) : x.MovesAt n S P' :=
  fun F => (hx F).trans (h _ _ F)

theorem MovesAt.bind (hx : x.MovesAt n S P) (hf : ∀ a, Moves (P a) (f a) R) :
    (x >>= f).MovesAt n S R := fun F => (hx F).trans (hf (x n).1 (x n).2 F)

theorem MovesAt.map {g : α → β} (hx : x.MovesAt n S P) (hg : ∀ a, Leads (P a) (R (g a))) :
    MovesAt n S (do pure (g (← x))) R :=
  hx.bind fun a => moves_pure (hg a)

/-- Stores beside those that a computation works on stay as they are. -/
theorem MovesAt.frame (hx : x.MovesAt n S P) (T : Multiset Store) :
    x.MovesAt n (S + T) fun a => P a + T := by
  intro F
  rw [add_assoc, add_assoc]
  exact hx (T + F)

/-- Items one after another, each of which leaves its own stores in place. -/
theorem moves_each {items : List α} {own : α → Multiset Store}
    (h : ∀ item ∈ items, Moves (own item) (f item) fun b => R b + own item) :
    Moves (items.map own).sum (each f items) fun results =>
      (results.map R).sum + (items.map own).sum := by
  induction items with
  | nil => exact moves_pure (.refl _)
  | cons item rest ih =>
      have hrest := ih fun i hi => h i (List.mem_cons_of_mem item hi)
      intro n
      rw [List.map_cons, List.sum_cons]
      refine ((h item List.mem_cons_self n).frame _).bind fun first m => ?_
      have hothers := ((hrest m).frame (R first + own item)).before (.of_eq (add_comm _ _))
      refine hothers.map fun others => .of_eq ?_
      rw [List.map_cons, List.sum_cons]
      abel

end Supply

section sequence

variable {Q P : Type} {f : P → Supply Q}

/-- Going through two lists is going through one and then the other. -/
theorem Supply.each_append (f : P → Supply Q) (first second : List P) :
    each f (first ++ second) = (do
      let firsts ← each f first
      let seconds ← each f second
      pure (firsts ++ seconds)) := by
  induction first with
  | nil => simp [each]
  | cons item rest ih => simp [each, ih]

/-- Computations for the parts of a list are computations for their queries. -/
theorem Supply.each_queries {α β γ : Type} {k : α → β} {run : β → Supply γ}
    {queries : α → List P} {queries' : γ → List Q}
    (h : ∀ a, each f (queries a) = (do pure (queries' (← run (k a))))) (items : List α) :
    each f (items.flatMap queries) = (do pure ((← each run (items.map k)).flatMap queries')) := by
  induction items with
  | nil => rfl
  | cons item rest ih =>
      rw [List.flatMap_cons, each_append, h, ih]
      simp [each]

/-- Going through the query of a source is running its change. -/
theorem Source.each_queries (s : Option (Source P)) :
    Supply.each f ((s.map Source.queries).getD []) = (do
      let s' ← runSource (s.map (Source.map f))
      pure ((s'.map Source.queries).getD [])) := by
  rcases s with _ | _ | _ | _ <;> rfl

/-- Going through the query of a selector is running its change. -/
theorem Selector.each_queries (s : Selector P) :
    Supply.each f s.queries = (do pure (← (s.map f).run).queries) := by
  cases s <;> rfl

/-- Going through the queries of a condition is running its change. -/
theorem Condition.each_queries (c : Condition P) :
    Supply.each f c.test.queries = (do pure (← (c.map f).run).test.queries) := by
  obtain ⟨test, connector⟩ := c
  cases test <;> rfl

theorem Join.each_queries (j : Join P) :
    Supply.each f [j.query] = (do pure [(← (j.map f).run).query]) := rfl

theorem UnionBranch.each_queries (u : UnionBranch P) :
    Supply.each f [u.query] = (do pure [(← (u.map f).run).query]) := rfl

/-- Going through the query of a variable is running its change. -/
theorem LetVariable.each_queries (v : LetVariable P) :
    Supply.each f v.value.queries = (do pure (← (v.map f).run).value.queries) := by
  obtain ⟨name, value⟩ := v
  cases value <;> rfl

/-- Running computations in the clauses runs them for the queries in the clauses. -/
theorem Clauses.each_queries (c : Clauses P) :
    Supply.each f c.queries = (do pure (← (c.map f).run).queries) := by
  have hcolumns := Supply.each_queries (f := f) Selector.each_queries c.columns
  have hfilters := Supply.each_queries (f := f) Condition.each_queries c.filters
  have hjoins := Supply.each_queries (f := f) Join.each_queries c.joins
  have hhavings := Supply.each_queries (f := f) Condition.each_queries c.havings
  have hunions := Supply.each_queries (f := f) UnionBranch.each_queries c.unions
  have hdefinitions := Supply.each_queries (f := f) LetVariable.each_queries c.definitions
  simp only [← List.map_eq_flatMap] at hjoins hunions
  simp only [queries, Supply.each_append, Source.each_queries, hcolumns, hfilters, hjoins, hhavings,
    hunions, hdefinitions, bind_assoc, pure_bind, run]
  rfl

end sequence

open Supply

/-- Copying the queries in some clauses copies their stores. -/
theorem Clauses.moves_run {c : Clauses Query} {f : Query → Supply Query}
    (h : ∀ q ∈ c.queries, Moves q.stores (f q) fun copy => copy.stores + q.stores) :
    Moves (c.queries.map Query.stores).sum (c.map f).run fun c' =>
      (c'.queries.map Query.stores).sum + (c.queries.map Query.stores).sum := by
  intro n F
  have heach := moves_each h n F
  rw [c.each_queries] at heach
  exact heach

/-- A copy of a query comes with a copy of each store. -/
theorem Query.moves_copyOf (q : Query) :
    Moves q.stores q.copyOf fun copy => copy.stores + q.stores := by
  induction q with
  | of c ih =>
      intro n F
      rw [copyOf, fold_of, stores_of]
      have hrun := (Clauses.moves_run ih n).frame {c.bindings} F
      rw [add_comm (c.queries.map stores).sum] at hrun
      refine hrun.tail ?_
      -- the store of the query itself is copied last
      have hcopy : ∀ (c' : Clauses Query) (next : Nat), c'.bindings = c.bindings →
          Step ⟨next, (c'.queries.map stores).sum + (c.queries.map stores).sum + {c.bindings} + F⟩
            ⟨next + 1, (Query.of { c' with bindings := c'.bindings.renumber next }).stores +
              ({c.bindings} + (c.queries.map stores).sum) + F⟩ := by
        intro c' next hbindings
        have hstores : (Query.of { c' with bindings := c'.bindings.renumber next }).stores +
            ({c.bindings} + (c.queries.map stores).sum) + F = c.bindings.renumber next ::ₘ
              ((c'.queries.map stores).sum + (c.queries.map stores).sum + {c.bindings} + F) := by
          rw [stores_of, hbindings, ← Multiset.singleton_add]
          change {c.bindings.renumber next} + (c'.queries.map stores).sum + _ + F = _
          abel
        rw [hstores]
        refine .copy ?_
        simp
      exact hcopy _ _ rfl

end AqlBuilder

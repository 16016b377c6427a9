import AqlBuilder.Proofs.Builder.StoresMethods
import AqlBuilder.Script.Basic

/-!
# What calls do to stores

A call whose sub-queries are builders that exist by now: each script in it is a function that has
returned one of them. Such a call works on the stores of its builder and of these sub-queries.

- `Call.scripts` are the scripts in a call.
- `Call.moves_apply` is the step of one call.
-/

namespace AqlBuilder

section scripts

variable {S : Type}

def Subject.script : Subject S → S
  | .new s => s
  | .copy s => s

def SubArgument.script : SubArgument S → S
  | .finished s => s.script
  | .closure s => s

def Operand.scripts (o : Operand (Subject S)) : List S := o.queries.map Subject.script

def JoinCall.scripts : JoinCall S → List S
  | .condition _ _ _ o => o.scripts
  | _ => []

/-- The scripts in a call, from left to right. -/
def Call.scripts : Call S → List S
  | .fromQuery sub _ => [sub.script]
  | .select selectors => selectors.flatMap Selector.queries
  | .addSelect selectors => selectors.flatMap Selector.queries
  | .selectQuery sub _ => [sub.script]
  | .set _ o => o.scripts
  | .setQuery _ sub => [sub.script]
  | .addBindings operands _ => operands.flatMap Operand.scripts
  | .mergeBindings s _ => [s]
  | .condition _ _ _ _ o => o.scripts
  | .memberOfQuery _ _ sub => [sub.script]
  | .nested _ s => [s]
  | .hasRows _ _ sub => [sub.script]
  | .compareQuery _ _ sub => [sub.script]
  | .length _ _ o => o.scripts
  | .date _ _ _ o => o.scripts
  | .joinWith _ _ calls => calls.flatMap JoinCall.scripts
  | .joinQuery _ sub _ _ _ _ => [sub.script]
  | .rightJoinQuery sub => [sub.script]
  | .groupBy selectors => selectors.flatMap Selector.queries
  | .union _ sub => [sub.script]
  | .fullTextSearch fields _ _ => fields.flatMap Selector.queries
  | _ => []

end scripts

open Ledger Supply Builder

variable {n : Nat} {b q : Builder} {qs : List Builder}

section evaluation

/-- A single script that returns a builder returns one of them. -/
theorem exists_returned {s : Action} (h : [s] = qs.map (returned n)) :
    ∃ q, qs = [q] ∧ s = returned n q := by
  rcases qs with _ | ⟨q, _ | ⟨q', rest⟩⟩
  · cases h
  · exact ⟨q, rfl, (List.cons.inj h).1⟩
  · cases h

/-- A query argument that returns a builder is built as this builder. -/
theorem Subject.build_returned {x : Subject Action} (h : x.script = returned n q) :
    x.build b n = (q, n) := by
  cases x <;>
  · cases h
    rfl

/-- A sub-query argument that returns a builder comes to it. -/
theorem SubArgument.evaluate_returned {x : SubArgument Action} (h : x.script = returned n q) :
    ∃ sub : SubQuery, x.evaluate b n = (sub, n) ∧ sub.Returns n q := by
  cases x with
  | finished subject =>
      refine ⟨.finished q, ?_, .finished⟩
      have hbuild : subject.build b n = (q, n) := subject.build_returned h
      change ((SubQuery.finished (subject.build b n).1), (subject.build b n).2) = _
      rw [hbuild]
  | closure s =>
      cases h
      exact ⟨_, rfl, .closure⟩

/-- An operand comes to one with the stores of its query. -/
theorem Operand.evaluate_returned {x : Operand (Subject Action)}
    (h : x.scripts = qs.map (returned n)) :
    ∃ o, x.evaluate b n = (o, n) ∧ o.stores = (qs.map Builder.stores).sum := by
  cases x with
  | query subject =>
      obtain ⟨q, rfl, hscript⟩ := exists_returned h
      have hbuild : subject.build b n = (q, n) := subject.build_returned hscript
      refine ⟨.query q, ?_, rfl⟩
      change (Operand.query (subject.build b n).1, (subject.build b n).2) = _
      rw [hbuild]
  | _ =>
      cases qs with
      | nil => exact ⟨_, rfl, rfl⟩
      | cons q rest => cases h

/-- Operands that return builders take no numbers. -/
theorem Operand.evaluateAll_returned {xs : List (Operand (Subject Action))}
    (h : xs.flatMap Operand.scripts = qs.map (returned n)) :
    ∃ os, each (Operand.evaluate b) xs n = (os, n) := by
  induction xs generalizing qs with
  | nil => exact ⟨[], rfl⟩
  | cons x rest ih =>
      rw [List.flatMap_cons] at h
      obtain ⟨first, others, rfl, hfirst, hothers⟩ := List.map_eq_append_iff.mp h.symm
      obtain ⟨o, ho, -⟩ := Operand.evaluate_returned (b := b) hfirst.symm
      obtain ⟨os, hos⟩ := ih hothers.symm
      exact ⟨o :: os, (bind_result ho).trans (bind_result hos)⟩

/-- A selector that returns a builder comes to one with its stores. -/
theorem Selector.evaluate_returned {x : Selector Action}
    (h : x.queries = qs.map (returned n)) :
    ∃ s, x.evaluate n = (s, n) ∧
      (s.queries.map Query.stores).sum = (qs.map Builder.stores).sum := by
  cases x with
  | sub script asName =>
      obtain ⟨q, rfl, rfl⟩ := exists_returned h
      refine ⟨.sub (.of q) asName, rfl, ?_⟩
      rw [Selector.queries, List.map_singleton, List.map_singleton, q.stores_of]
  | _ =>
      cases qs with
      | nil => exact ⟨_, rfl, rfl⟩
      | cons q rest => cases h

/-- Selectors that return builders come to some with their stores. -/
theorem Selector.evaluateAll_returned {xs : List (Selector Action)}
    (h : xs.flatMap Selector.queries = qs.map (returned n)) :
    ∃ ss, each Selector.evaluate xs n = (ss, n) ∧
      ((ss.flatMap Selector.queries).map Query.stores).sum = (qs.map Builder.stores).sum := by
  induction xs generalizing qs with
  | nil =>
      cases qs with
      | nil => exact ⟨[], rfl, rfl⟩
      | cons q rest => cases h
  | cons x rest ih =>
      rw [List.flatMap_cons] at h
      obtain ⟨first, others, rfl, hfirst, hothers⟩ := List.map_eq_append_iff.mp h.symm
      obtain ⟨s, hs, hstores⟩ := Selector.evaluate_returned hfirst.symm
      obtain ⟨ss, hss, hrest⟩ := ih hothers.symm
      refine ⟨s :: ss, (bind_result hs).trans (bind_result hss), ?_⟩
      rw [List.flatMap_cons, List.map_append, List.sum_append, hstores, hrest, List.map_append,
        List.sum_append]

/-- A call with a sub-query argument does to the stores what it does with the sub-query. -/
theorem SubArgument.moves {x : SubArgument Action} {f : SubQuery → Supply Builder}
    (h : [x.script] = qs.map (returned n))
    (hf : ∀ q sub, sub.Returns n q → (f sub).MovesAt n (b.stores + q.stores) Builder.stores) :
    (x.evaluate b >>= f).MovesAt n (b.stores + (qs.map Builder.stores).sum) Builder.stores := by
  obtain ⟨q, rfl, hscript⟩ := exists_returned h
  obtain ⟨sub, hsub, hreturns⟩ := SubArgument.evaluate_returned (b := b) hscript
  rw [List.map_singleton, List.sum_singleton]
  exact .of_result hsub (hf q sub hreturns)

/-- A call with an operand does to the stores what it does with what the operand comes to. -/
theorem Operand.moves {x : Operand (Subject Action)} {f : Operand Builder → Supply Builder}
    (h : x.scripts = qs.map (returned n))
    (hf : ∀ o : Operand Builder, (f o).MovesAt n (b.stores + o.stores) Builder.stores) :
    (x.evaluate b >>= f).MovesAt n (b.stores + (qs.map Builder.stores).sum) Builder.stores := by
  obtain ⟨o, ho, hstores⟩ := Operand.evaluate_returned (b := b) h
  rw [← hstores]
  exact .of_result ho (hf o)

/-- A call with selectors does to the stores what it does with what they come to. -/
theorem Selector.moves {xs : List (Selector Action)} {f : List (Selector Query) → Builder}
    (h : xs.flatMap Selector.queries = qs.map (returned n))
    (hf : ∀ ss, Leads (b.stores + ((ss.flatMap Selector.queries).map Query.stores).sum)
      (f ss).stores) :
    MovesAt n (b.stores + (qs.map Builder.stores).sum)
      (do pure (f (← each Selector.evaluate xs))) Builder.stores := by
  obtain ⟨ss, hss, hstores⟩ := Selector.evaluateAll_returned h
  rw [← hstores]
  exact .of_result hss (moves_pure (hf ss) n)

end evaluation

/-- A call that neither replaces bound values nor holds the body of a join. -/
def Call.Plain {S : Type} : Call S → Prop
  | .setBindings _ _ => False
  | .joinWith _ _ _ => False
  | _ => True

/-- A call works on the stores of its builder and of the sub-queries that it is given. -/
theorem Call.moves_apply [Naming] {c : Call Action} (hplain : c.Plain)
    (h : c.scripts = qs.map (returned n)) (b : Builder) :
    (c.apply b).MovesAt n (b.stores + (qs.map Builder.stores).sum) Builder.stores := by
  have hdrop : Leads (b.stores + (qs.map Builder.stores).sum) b.stores :=
    .of_le (Multiset.le_add_right _ _)
  have hpure : ∀ {b' : Builder}, Leads b.stores b'.stores →
      MovesAt n (b.stores + (qs.map Builder.stores).sum) (pure b') Builder.stores :=
    fun hleads => moves_pure (hdrop.trans hleads) n
  have hown : ∀ {x : Supply Builder}, Moves b.stores x Builder.stores →
      x.MovesAt n (b.stores + (qs.map Builder.stores).sum) Builder.stores :=
    fun hx => (hx n).before hdrop
  have hnew : ∀ {x : Supply Builder}, Moves 0 x Builder.stores →
      x.MovesAt n (b.stores + (qs.map Builder.stores).sum) Builder.stores :=
    fun hx => (hx n).before (.of_le (Multiset.zero_le _))
  cases c with
  | withPrefix text => exact hpure (.refl _)
  | fromCollection table => exact hpure (b.leads_fromCollection table)
  | fromView view => exact hpure (b.leads_fromView view)
  | fromQuery sub asName => exact SubArgument.moves h fun q s hs => b.moves_fromQuery hs asName
  | select selectors => exact Selector.moves h b.leads_select
  | addSelect selectors =>
      exact Selector.moves h fun ss => .of_eq (b.stores_addSelect ss).symm
  | selectRaw aql asName => exact hpure (.of_eq ((b.stores_addColumn _ _).trans (add_zero _)).symm)
  | selectQuery sub asName => exact SubArgument.moves h fun q s hs => b.moves_selectQuery hs asName
  | distinctRows => exact hpure (.refl _)
  | set name o => exact Operand.moves h fun o => b.moves_set name o n
  | setQuery name sub => exact SubArgument.moves h fun q s hs => b.moves_setQuery name hs
  | addBinding v category => exact hpure (b.leads_addBinding v category)
  | addBindings operands category =>
      obtain ⟨os, hos⟩ := Operand.evaluateAll_returned (b := b) h
      exact .of_result hos (hpure (b.leads_addBindings os category))
  | setBindings values category => exact hplain.elim
  | mergeBindings s category =>
      obtain ⟨q, rfl, rfl⟩ := exists_returned h
      have hmerge : Leads (b.stores + q.stores) (b.mergeBindings q category).stores :=
        (b.leads_mergeBindings q category).trans (.of_le (Multiset.le_add_right _ _))
      rw [List.map_singleton, List.sum_singleton]
      exact hmerge n
  | condition list c column o x =>
      exact Operand.moves h fun x =>
        b.moves_condition list c column (OperatorArgument.orEqual o) x n
  | compareColumns c first o second =>
      exact hpure (b.leads_compareColumns c first o.operator second)
  | member c negated column v => exact hown (b.moves_member c negated column v)
  | memberOfQuery negated column sub =>
      exact SubArgument.moves h fun q s hs => b.moves_memberOfQuery negated column hs
  | memberOf negated column values =>
      exact hpure (b.leads_unlessFailed (le_refl _) (b.leads_push_bound .filters .and rfl))
  | isNull list c negated column => exact hpure (b.leads_push_bound list c rfl)
  | between list c negated column v => exact hpure (b.leads_between list c negated column v)
  | nested c s =>
      obtain ⟨q, rfl, rfl⟩ := exists_returned h
      rw [List.map_singleton, List.sum_singleton]
      exact b.moves_nested c
  | hasRows c negated sub => exact SubArgument.moves h fun q s hs => b.moves_hasRows c negated hs
  | compareQuery column o sub =>
      exact SubArgument.moves h fun q s hs => b.moves_compareQuery column o.operator hs
  | rawCondition list c aql =>
      exact hpure (b.leads_unlessFailed (le_refl _) (b.leads_push_bound list c rfl))
  | contains negated column v => exact hpure (b.leads_contains negated column v)
  | length column o x => exact Operand.moves h fun x => b.moves_length column o.operator x n
  | date part column o x => exact Operand.moves h fun x => b.moves_date part column o.operator x n
  | like c column v caseSensitive =>
      exact hown fun n => (b.moves_condition .filters c column _ (.value v) n).before
        (.of_eq (add_zero _).symm)
  | notLike column v =>
      exact hown fun n => (b.moves_condition .filters .and column _ (.value v) n).before
        (.of_eq (add_zero _).symm)
  | join kind table first o second =>
      exact hown (b.moves_join kind table first o.operator second)
  | joinWith kind table calls => exact hplain.elim
  | crossJoin table => exact hown (b.moves_crossJoin table)
  | joinQuery kind sub asName first o second =>
      exact SubArgument.moves h fun q s hs =>
        b.moves_joinQuery kind hs asName first o.operator second
  | rightJoin => exact hpure (b.leads_fail _)
  | rightJoinQuery sub =>
      exact SubArgument.moves h fun q s hs =>
        moves_pure ((Leads.of_le (Multiset.le_add_right _ _)).trans (b.leads_fail _)) n
  | groupBy selectors =>
      exact Selector.moves h fun ss => .of_le (Multiset.le_add_right _ _)
  | groupByRaw aql => exact hpure (.refl _)
  | orderBy column direction => exact hpure (b.leads_orderBy column (Direction.ofText direction))
  | orderIn column direction => exact hpure (b.leads_orderBy column (.ok direction))
  | latest column => exact hpure (b.leads_orderBy (column.getD creationColumn) (.ok .descending))
  | oldest column => exact hpure (b.leads_orderBy (column.getD creationColumn) (.ok .ascending))
  | order o => exact hpure (.of_eq (b.stores_pushOrder o).symm)
  | reorder => exact hpure (.refl _)
  | reorderBy column direction =>
      exact hpure (b.reorder.leads_orderBy column (Direction.ofText direction))
  | limitTo count => exact hpure (.of_eq (b.stores_limitTo count).symm)
  | skip count => exact hpure (.of_eq (b.stores_skip count).symm)
  | forPage page perPage =>
      exact hpure (.of_eq ((stores_limitTo _ perPage).trans (b.stores_skip _)).symm)
  | union all sub => exact SubArgument.moves h fun q s hs => b.moves_union all hs
  | fullTextSearch fields text analyzer =>
      exact Selector.moves h fun ss =>
        (Leads.of_le (Multiset.le_add_right _ _)).trans (b.leads_fullTextSearch ss text analyzer)
  | copy => exact hown fun n => (b.moves_copyOf n).after fun _ => .of_le (Multiset.le_add_right _ _)
  | forSubQuery => exact hnew b.moves_forSubQuery
  | forNested => exact hown fun n =>
      (b.moves_forNested n).after fun _ => .of_le (Multiset.le_add_right _ _)
  | restart table =>
      exact hnew fun n => (Builder.moves_fresh n).map fun query => query.leads_fromCollection table

end AqlBuilder

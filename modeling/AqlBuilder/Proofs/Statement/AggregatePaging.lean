import AqlBuilder.Alias.Rules
import AqlBuilder.Proofs.Statement.Unwrapped

/-!
# Aggregates of pages

An aggregate collects all rows of a query into one, and the limit of the query is written behind
that. So it is no limit of the rows that are collected: it passes the one row with the aggregate on,
or it leaves nothing. The question whether there is a row sets the limit of its query aside, whereas
an aggregate keeps what was called for the rows.

- `Aql.Pages` is a clause that skips some rows and passes a number of the others on, and `Aql.Paged`
  says what such clauses leave of some rows.
- `Aql.paged_limitText`: what the limit of a query leaves.
- `Builder.aggregate_paged`: when the row with an aggregate is left.
-/

namespace AqlBuilder

open Outcome

namespace Aql

/-- A clause that skips some rows and passes at most `count` of the others on. -/
inductive Pages (count : Nat) : Nat → String → Prop
  | plain : Pages count 0 ("LIMIT " ++ toString count)
  | skipping (skipped : Nat) :
      Pages count skipped ("LIMIT " ++ toString skipped ++ ", " ++ toString count)

/-- What the limits among some clauses leave of the rows that come to the first of them. -/
inductive Paged {α : Type} : List String → List α → List α → Prop
  | nil (rows : List α) : Paged [] rows rows
  | limit {clause : String} {rest : List String} {count skipped : Nat} {rows left : List α}
      (h : Pages count skipped clause) (hrest : Paged rest ((rows.drop skipped).take count) left) :
      Paged (clause :: rest) rows left
  | other {clause : String} {rest : List String} {rows left : List α}
      (h : ∀ count skipped, ¬ Pages count skipped clause) (hrest : Paged rest rows left) :
      Paged (clause :: rest) rows left

/-- The rows that a limit and an offset leave. An offset alone has no effect. -/
def pageOf {α : Type} (limit offset : Option Nat) (rows : List α) : List α :=
  match limit with
  | none => rows
  | some count => (rows.drop (offset.getD 0)).take count

variable {α : Type} {first second : List String} {rows left : List α} {limit offset : Option Nat}

section pages

variable {clause : String} {count skipped : Nat}

/-- A clause that passes some rows on limits them. -/
theorem Pages.limits (h : Pages count skipped clause) : Limits count clause := by
  cases h with
  | plain => exact .plain
  | skipping => exact .skipping _

/-- A clause skips one number of rows, -/
theorem Pages.skipped_unique {other : Nat} (h : Pages count skipped clause)
    (h' : Pages count other clause) : skipped = other := by
  -- The number that is passed on has no comma, so a clause that skips is longer than one that does
  -- not.
  have hlonger : ∀ n : Nat, "LIMIT " ++ toString n ++ ", " ++ toString count ≠
      "LIMIT " ++ toString count := by
    intro n hsame
    have hlength := congrArg (fun text => text.toList.length) hsame
    simp only [String.toList_append, List.length_append] at hlength
    have hcomma : (", ".toList).length = 2 := rfl
    omega
  generalize hclause : clause = text at h'
  cases h with
  | plain =>
      cases h' with
      | plain => rfl
      | skipping => exact absurd hclause.symm (hlonger other)
  | skipping =>
      cases h' with
      | plain => exact absurd hclause (hlonger skipped)
      | skipping =>
          have hlist := congrArg String.toList hclause
          simp only [String.toList_append, List.append_assoc, List.append_cancel_left_eq,
            List.append_cancel_right_eq] at hlist
          exact toString_inj hlist

/-- and the other clauses none. -/
theorem Unlimited.not_pages (h : Unlimited first) (hclause : clause ∈ first) :
    ¬ Pages count skipped clause := fun hpages =>
  h.not_limitsTo ⟨clause, hclause, hpages.limits⟩

end pages

theorem paged_nil : Paged [] rows left ↔ left = rows :=
  ⟨fun h => by cases h; rfl, fun h => h ▸ .nil rows⟩

/-- A limit leaves some of the rows to the clauses behind it. -/
theorem paged_limit {clause : String} {count skipped : Nat} (h : Pages count skipped clause) :
    Paged (clause :: second) rows left ↔ Paged second ((rows.drop skipped).take count) left := by
  constructor
  · intro hpaged
    cases hpaged with
    | limit h' hrest =>
        obtain rfl := h.limits.unique h'.limits
        obtain rfl := h.skipped_unique h'
        exact hrest
    | other hother hrest => exact absurd h (hother _ _)
  · exact .limit h

/-- Clauses that are no limits leave the rows as they are. -/
theorem paged_unlimited_append (h : Unlimited first) :
    Paged (first ++ second) rows left ↔ Paged second rows left := by
  induction first with
  | nil => rfl
  | cons clause rest ih =>
      have hother : ∀ count skipped, ¬ Pages count skipped clause := fun _ _ =>
        h.not_pages List.mem_cons_self
      rw [← ih fun text htext => h text (List.mem_cons_of_mem clause htext)]
      constructor
      · intro hpaged
        cases hpaged with
        | limit hpages => exact absurd hpages (hother _ _)
        | other _ hrest => exact hrest
      · exact .other hother

/-- The limit of a query leaves a page of the rows. -/
theorem paged_limitText (h : Unlimited second) :
    Paged (limitText limit offset ++ second) rows left ↔ left = pageOf limit offset rows := by
  have hrest : ∀ {rest : List α}, Paged second rest left ↔ left = rest := by
    intro rest
    have hsecond : Paged (second ++ []) rest left ↔ Paged [] rest left := paged_unlimited_append h
    rw [List.append_nil] at hsecond
    exact hsecond.trans paged_nil
  unfold limitText pageOf
  match limit, offset with
  | none, _ => exact hrest
  | some count, none => exact (paged_limit .plain).trans hrest
  | some count, some skipped =>
      dsimp only
      split
      case isTrue => exact (paged_limit (.skipping skipped)).trans hrest
      case isFalse hnone =>
        obtain rfl : skipped = 0 := by omega
        exact (paged_limit .plain).trans hrest

/-- A single row is on the page just if the page is not empty and begins with it, -/
theorem pageOf_single (row : α) : pageOf limit offset [row] = [row] ↔
    ∀ count ∈ limit, 0 < count ∧ ∀ skipped ∈ offset, skipped = 0 := by
  unfold pageOf
  match limit, offset with
  | none, _ => simp
  | some 0, _ => simp
  | some (count + 1), none => simp
  | some (count + 1), some 0 => simp
  | some (count + 1), some (skipped + 1) => simp

/-- and otherwise nothing is. -/
theorem pageOf_empty (row : α) : pageOf limit offset [row] = [] ↔
    ∃ count ∈ limit, count = 0 ∨ ∃ skipped ∈ offset, 0 < skipped := by
  unfold pageOf
  match limit, offset with
  | none, _ => simp
  | some 0, _ => simp
  | some (count + 1), none => simp
  | some (count + 1), some 0 => simp
  | some (count + 1), some (skipped + 1) => simp

/-- What returns the aggregate is no limit. -/
theorem unlimited_aggregateReturn : Unlimited ["RETURN \x7baggregate: aggregateResult\x7d"] := by
  have hcut : "RETURN \x7baggregate: aggregateResult\x7d" =
      "RETURN " ++ "\x7baggregate: aggregateResult\x7d" := by decide
  rw [hcut]
  exact unlimited_clause (by decide)

/-- The statement of a query that collects an aggregate of all its rows: its loops, the aggregate,
and behind it a filter and an order. The limit of the query comes last, and nothing else depends on
it. -/
structure CollectsAll (c : Clauses Fragment) (a : Aggregate) (front havings : List String)
    (clause : String) : Prop where
  loops : (Aql.loops c).Gives front
  aggregate : (aggregateText c.scope a).Gives clause
  filter : (Aql.filter (scopeBehind c []) c.havings).Gives havings
  unlimited_front : Unlimited front
  unlimited_behind : Unlimited (havings ++ sortIn (scopeBehind c []) c.orders)
  statement (limit offset : Option Nat) :
    (simpleStatement { c with limit := limit, offset := offset }).Gives
      (" ".intercalate (front ++ ["COLLECT " ++ clause]
        ++ (havings ++ sortIn (scopeBehind c []) c.orders ++ (limitText limit offset
          ++ ["RETURN \x7baggregate: aggregateResult\x7d"]))))

/-- Without groups and columns the statement of an aggregate is put together from its loops, the
aggregate and the filter behind it. -/
theorem simpleStatement_of_aggregate {c : Clauses Fragment} {a : Aggregate}
    (ha : c.aggregate = some a) (hgroups : c.groups = []) (hcolumns : c.columns = []) :
    simpleStatement c = (do
      let front ← loops c
      let clause ← aggregateText c.scope a
      let havings ← filter (scopeBehind c []) c.havings
      pure (" ".intercalate (front ++ ["COLLECT " ++ clause]
        ++ (havings ++ sortIn (scopeBehind c []) c.orders ++ (limitText c.limit c.offset
          ++ ["RETURN \x7baggregate: aggregateResult\x7d"]))))) := by
  have hgrouped : Grouped c := .inr (by rw [ha]; rfl)
  have hcut : ∀ clause, "COLLECT" ++ (" " ++ clause) = "COLLECT " ++ clause := by
    intro clause
    rw [← String.append_assoc]
    rfl
  rw [simpleStatement_eq, collect_of_grouped hgrouped]
  unfold collectTail finish returnText
  rw [ha, hgroups, hcolumns]
  refine congrArg (loops c >>= ·) (funext fun front => ?_)
  simp only [bind_bind]
  refine congrArg (aggregateText c.scope a >>= ·) (funext fun clause => ?_)
  refine congrArg (filter (scopeBehind c []) c.havings >>= ·) (funext fun havings => ?_)
  change pure _ = (pure _ : Outcome String)
  rw [← hcut clause]
  simp only [List.append_assoc]
  rfl

/-- A query without groups that collects an aggregate has such a statement, if it has one. -/
theorem exists_collectsAll {c : Clauses Fragment} {a : Aggregate} {n : Nat} {aql : String}
    (ha : c.aggregate = some a) (hgroups : c.groups = []) (hcolumns : c.columns = [])
    (hsteady : ∀ f ∈ c.queries, f.Steady) (h : (simpleStatement c n).1 = .ok aql) :
    ∃ front havings clause, CollectsAll c a front havings clause := by
  have hyields : (simpleStatement c).Yields fun _ =>
      ∃ front havings clause, CollectsAll c a front havings clause := by
    rw [simpleStatement_of_aggregate ha hgroups hcolumns]
    refine ((steady_loops hsteady).yields.and (yields_unlimited_loops c)).bind
      fun front hloops => ?_
    obtain ⟨hfront, hfront'⟩ := hloops
    refine (steady_aggregateText c.scope a).yields.bind fun clause hclause => ?_
    have hhavings : (filter (scopeBehind c []) c.havings).Steady :=
      steady_filter _ fun f hf => hsteady f (by
        simp only [Clauses.queries, List.mem_append]
        exact .inl (.inl (.inr hf)))
    refine (hhavings.yields.and (yields_unlimited_filter _ _)).map fun havings hfilters => ?_
    obtain ⟨hgives, hunlimited⟩ := hfilters
    have horders := unlimited_sortText (scopeBehind c []).resolve (c.docVar.getD "") c.orders
    refine ⟨front, havings, clause, hfront, hclause, hgives, hfront', hunlimited.append horders,
      fun limit offset => ?_⟩
    have hpaged := simpleStatement_of_aggregate
      (c := { c with limit := limit, offset := offset }) ha hgroups hcolumns
    exact hpaged ▸ hfront.bind (hclause.bind (hgives.map _))
  exact hyields n aql h

end Aql

namespace Builder

open Aql

variable {b : Builder} {function : AggregateFunction} {column : Option String}

/-- A builder with another limit and another offset. -/
def withPaging (b : Builder) (limit offset : Option Nat) : Builder :=
  { b with limit := limit, offset := offset }

/-- **When an aggregate is left by the paging.**  A builder without unions and groups compiles an
aggregate. Then it does so with every limit and every offset, and these change nothing but the
`LIMIT` behind the aggregate: the rows in front of it are not limited. Of the one row with the
aggregate this `LIMIT` leaves the row, if there is no limit, or one of at least one row and nothing
is skipped, and otherwise nothing. -/
theorem aggregate_paged (hunions : b.unions = []) (hgroups : b.groups = []) {n : Nat}
    {compiled : Compiled} (h : (b.aggregateStatement function column n).1 = .ok compiled) :
    let behind := scopeBehind (b.aggregated function column).compiled []
    ∃ front clause havings,
      (loops b.compiled).Gives front ∧ Unlimited front ∧
      (aggregateText b.scope ⟨function, column.filter fun name => name != "*"⟩).Gives clause ∧
      (filter behind b.compiled.havings).Gives havings ∧
      ∀ limit offset,
        let rest := havings ++ sortIn behind b.orders ++ (limitText limit offset
          ++ ["RETURN \x7baggregate: aggregateResult\x7d"])
        ((b.withPaging limit offset).aggregateStatement function column).Gives
          (.ofStore (" ".intercalate (front ++ ["COLLECT " ++ clause] ++ rest)) b.bindings) ∧
        ∀ row : Value,
          (Paged rest [row] [row] ↔ ∀ count ∈ limit, 0 < count ∧ ∀ skipped ∈ offset, skipped = 0) ∧
          (Paged rest [row] [] ↔ ∃ count ∈ limit, count = 0 ∨ ∃ skipped ∈ offset, 0 < skipped) := by
  obtain ⟨herror, hcolumn, aql, haql, rfl⟩ := aggregateStatement_ok_iff.mp h
  let c := (b.aggregated function column).compiled
  have hsimple :
    ∀ limit offset, ((b.withPaging limit offset).aggregated function column).statement =
      simpleStatement { c with limit := limit, offset := offset } := by
    intro limit offset
    have hnone : ((b.withPaging limit offset).aggregated function column).compiled.unions = [] :=
      List.map_eq_nil_iff.mpr hunions
    unfold Builder.statement Aql.statement
    rw [hnone]
    rfl
  have hscope : c.scope = b.scope := Clauses.scope_map Query.fragment (b.aggregated function column)
  obtain ⟨front, havings, clause, hparts⟩ := exists_collectsAll (c := c) rfl
    hgroups rfl (steady_compiled (b.aggregated function column))
    ((hsimple b.limit b.offset) ▸ haql 0)
  refine ⟨front, clause, havings, hparts.loops, hparts.unlimited_front, hscope ▸ hparts.aggregate,
    hparts.filter, fun limit offset => ⟨fun n => ?_, fun row => ?_⟩⟩
  · exact aggregateStatement_ok_iff.mpr
      ⟨herror, hcolumn, _, hsimple limit offset ▸ hparts.statement limit offset, rfl⟩
  · have hleft : ∀ left : List Value, Paged (havings ++ sortIn (scopeBehind c []) c.orders
        ++ (limitText limit offset ++ ["RETURN \x7baggregate: aggregateResult\x7d"])) [row] left ↔
        Aql.pageOf limit offset [row] = left := fun left =>
      ((paged_unlimited_append hparts.unlimited_behind).trans
        (paged_limitText unlimited_aggregateReturn)).trans eq_comm
    exact ⟨(hleft [row]).trans (pageOf_single row), (hleft []).trans (pageOf_empty row)⟩

/-- The second ten of the characters. -/
def secondPage : Builder := (fromCollection (Clauses.empty 1) "characters as c").forPage 2 10

/-- They are counted to nothing: the one row with the count is skipped. -/
theorem second_page_loses_count :
    secondPage.unions = [] ∧ secondPage.groups = [] ∧ secondPage.limit = some 10 ∧
      (secondPage.aggregateStatement .count none 2).1.toOption.map Compiled.aql =
        some (" ".intercalate (["FOR c IN characters", "COLLECT WITH COUNT INTO aggregateResult"]
          ++ ["LIMIT 10, 10", "RETURN \x7baggregate: aggregateResult\x7d"])) ∧
      ∀ row : Value,
        Paged ["LIMIT 10, 10", "RETURN \x7baggregate: aggregateResult\x7d"] [row] [] := by
  have hlimit : "LIMIT 10, 10" = "LIMIT " ++ toString 10 ++ ", " ++ toString 10 := by decide +kernel
  have hpages : Pages 10 10 "LIMIT 10, 10" := hlimit ▸ Pages.skipping 10
  refine ⟨rfl, rfl, rfl, by decide +kernel, fun row => ?_⟩
  have hreturn : ∀ count skipped,
      ¬ Pages count skipped "RETURN \x7baggregate: aggregateResult\x7d" := fun _ _ =>
    unlimited_aggregateReturn.not_pages List.mem_cons_self
  exact .limit hpages (.other hreturn (.nil []))

/-- On the first page the count is left. -/
theorem first_page_keeps_count : ∃ compiled front clause behind,
    secondPage.unions = [] ∧ secondPage.groups = [] ∧
      (secondPage.aggregateStatement .count none 2).1 = .ok compiled ∧
      ((secondPage.withPaging (some 10) none).aggregateStatement .count none).Gives
        (.ofStore (" ".intercalate (front ++ ["COLLECT " ++ clause] ++ (behind
          ++ ["LIMIT 10", "RETURN \x7baggregate: aggregateResult\x7d"]))) secondPage.bindings) ∧
      ∀ row : Value,
        Paged (behind ++ ["LIMIT 10", "RETURN \x7baggregate: aggregateResult\x7d"]) [row]
          [row] := by
  have hok : (secondPage.aggregateStatement .count none 2).1.isOk = true := by decide +kernel
  obtain ⟨compiled, hcompiled⟩ := exists_ok hok
  obtain ⟨front, clause, havings, -, -, -, -, hpaged⟩ := aggregate_paged rfl rfl hcompiled
  have hlimit : limitText (some 10) none = ["LIMIT 10"] := by decide +kernel
  obtain ⟨hgives, hrow⟩ := hpaged (some 10) none
  rw [hlimit] at hgives hrow
  refine ⟨compiled, front, clause, _, rfl, rfl, hcompiled, hgives, fun row => ?_⟩
  exact (hrow row).1.mpr fun count hcount => by
    obtain rfl : 10 = count := Option.some.inj hcount
    exact ⟨by decide, fun _ h => nomatch h⟩

end Builder

end AqlBuilder

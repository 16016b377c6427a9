import AqlBuilder.Alias.Rules
import AqlBuilder.Proofs.Aql.Behind
import AqlBuilder.Proofs.Statement.Union

/-!
# Aggregates of unions

An aggregate is a property of the clauses of one query. A query with unions keeps it, so the first
of the combined queries collects its own rows, and what is combined is a single row with the
aggregate of the first query and the rows of the others. The loop over the combined rows does not
collect.

- `Builder.aggregateStatement_ok_iff`: an aggregate is the statement of a query with an aggregate.
- `Aql.Aggregated` is a statement that returns an aggregate, and `Aql.yields_aggregated` says that
  a query with an aggregate has such a statement.
- `Aql.statement_gives_union_iff`: the statement of a query with unions has no other form.
- `Builder.aggregate_of_union` is the result.
-/

namespace AqlBuilder

open Outcome

namespace Aql

/-- A statement that returns one row with an aggregate of the columns in a scope. -/
def Aggregated (scope : Scope) (a : Aggregate) (text : String) : Prop :=
  ∃ loops keys clause behind, (aggregateText scope a).Gives clause ∧
    text = " ".intercalate (loops ++ [collectText keys ++ " " ++ clause] ++ behind
      ++ ["RETURN \x7baggregate: aggregateResult\x7d"])

variable {c : Clauses Fragment} {a : Aggregate}

/-- An aggregate is collected behind the keys of its groups. -/
theorem yields_collect_aggregate (ha : c.aggregate = some a) :
    (collect c).Yields fun collected => ∃ g ∈ collected, ∃ keys clause,
      (aggregateText c.scope a).Gives clause ∧ g.clause = collectText keys ++ " " ++ clause := by
  have hgrouped : Grouped c := .inr (by rw [ha]; rfl)
  refine (yields_collectsBy hgrouped).mono fun collected ⟨keys, g, hg, h⟩ => ?_
  obtain ⟨tail, htail, hclause⟩ := h.clause
  unfold collectTail at htail
  rw [ha] at htail
  obtain ⟨clause, haggregate, rfl⟩ := map_ok_iff.mp (htail 0)
  refine ⟨g, hg, keys, clause, (steady_aggregateText c.scope a).gives haggregate, ?_⟩
  rw [hclause, String.append_assoc]

/-- Without its unions a query with an aggregate returns the aggregate of its own rows. -/
theorem yields_aggregated (ha : c.aggregate = some a) :
    (simpleStatement c).Yields (Aggregated c.scope a) := by
  have hreturn : ∀ scope keys,
      returnText c scope keys = "RETURN \x7baggregate: aggregateResult\x7d" := by
    intro scope keys
    unfold returnText
    rw [ha]
    rfl
  unfold simpleStatement
  refine (yields_any _).bind fun loops _ => (yields_collect_aggregate ha).bind fun collected h => ?_
  obtain ⟨g, hg, keys, clause, hclause, htext⟩ := h
  obtain rfl : collected = some g := hg
  refine (yields_any _).bind fun havings _ => (yields_any _).map fun queries _ => ?_
  refine ⟨loops, keys, clause, havings ++ sortIn ⟨g.aliases, c.docVar⟩ c.orders
    ++ limitText c.limit c.offset ++ queries, hclause, ?_⟩
  simp only [hreturn, Option.map_some, Option.toList_some, Option.getD_some, htext,
    List.append_assoc]

/-- A branch is embedded as the text of its query in parentheses, or not at all. -/
theorem yields_embedded (f : Fragment) :
    f.embedded.Yields fun text => ∃ aql, text = "(" ++ aql ++ ")" := by
  unfold Fragment.embedded
  cases f.error with
  | some e => exact yields_fail e
  | none => exact (yields_any _).map fun aql _ => ⟨aql, rfl⟩

/-- Combined rows are put together from the texts of the branches. -/
theorem yields_unionRows {branches : List (UnionBranch Fragment)} {rows : String}
    (h : ∀ u ∈ branches, u.query.Steady) :
    (combined rows branches).Yields fun all =>
      ∃ texts, List.Forall₂ Embeds texts branches ∧ all = unionRows rows texts := by
  induction branches generalizing rows with
  | nil => exact yields_pure ⟨[], .nil, rfl⟩
  | cons branch rest ih =>
      have hsteady := (h branch List.mem_cons_self).embedded
      refine (hsteady.yields.and (yields_embedded _)).bind fun text ⟨hgives, aql, htext⟩ => ?_
      refine (ih fun u hu => h u (List.mem_cons_of_mem branch hu)).mono fun all hall => ?_
      obtain ⟨texts, htexts, rfl⟩ := hall
      refine ⟨⟨aql, branch.all⟩ :: texts, .cons ⟨rfl, htext ▸ hgives⟩ htexts, ?_⟩
      rw [unionRows, htext]
      congr 1
      apply String.toList_injective
      simp

/-- The statement of a query with unions combines the rows of the query without them. -/
theorem statement_gives_union_iff (hunions : c.unions ≠ []) (hsteady : ∀ f ∈ c.queries, f.Steady)
    {aql : String} :
    (statement c).Gives aql ↔ ∃ first texts, (simpleStatement c).Gives first ∧
      List.Forall₂ Embeds texts c.unions ∧
      aql = unionText (wholeDocuments c) (unionRows ("(" ++ first ++ ")") texts)
        c.unionOrders c.unionLimit c.unionOffset := by
  constructor
  · intro h
    have hbranches : ∀ u ∈ c.unions, u.query.Steady := fun u hu =>
      hsteady u.query (by simp only [Clauses.queries, List.mem_append, List.mem_map]; grind)
    have hyields : (statement c).Yields fun aql => ∃ first texts,
        (simpleStatement c).Gives first ∧ List.Forall₂ Embeds texts c.unions ∧
        aql = unionText (wholeDocuments c) (unionRows ("(" ++ first ++ ")") texts)
          c.unionOrders c.unionLimit c.unionOffset := by
      unfold statement
      rw [List.isEmpty_eq_false_iff.mpr hunions]
      refine (steady_simpleStatement hsteady).yields.bind fun first hfirst => ?_
      refine (yields_unionRows hbranches).map fun rows hrows => ?_
      obtain ⟨texts, htexts, rfl⟩ := hrows
      exact ⟨first, texts, hfirst, htexts, rfl⟩
    exact hyields 0 aql (h 0)
  · rintro ⟨first, texts, hfirst, htexts, rfl⟩
    exact statement_gives_union hfirst hunions htexts

end Aql

namespace Builder

open Aql

variable {b : Builder} {function : AggregateFunction} {column : Option String}

/-- A builder without an error compiles an aggregate on a copy, if the function has the column that
it needs. -/
theorem aggregateStatement_eq (herror : b.error = none)
    (hcolumn : column = none → function = .count) :
    b.aggregateStatement function column = .after (Query.of b).count
      (do pure (.ofStore (← (b.aggregated function column).statement) b.bindings)) := by
  have hneeded : (column.isNone && function != .count) = false := by
    cases column with
    | none =>
        rw [hcolumn rfl]
        rfl
    | some name => rfl
  unfold aggregateStatement check
  rw [herror, hneeded]
  exact onCopy_statement (f := (aggregated · function column)) fun w hw =>
    compiled_aggregated hw function column

/-- An aggregate compiles just if there is no error, the function has the column that it needs, and
the query with the aggregate compiles. -/
theorem aggregateStatement_ok_iff {compiled : Compiled} {n : Nat} :
    (b.aggregateStatement function column n).1 = .ok compiled ↔
      b.error = none ∧ (column = none → function = .count) ∧
        ∃ aql, (b.aggregated function column).statement.Gives aql ∧
          compiled = .ofStore aql b.bindings := by
  constructor
  · intro h
    have herror : b.error = none := by
      cases herror : b.error with
      | none => rfl
      | some e =>
          unfold aggregateStatement check at h
          rw [herror] at h
          cases h
    have hcolumn : column = none → function = .count := by
      rintro rfl
      by_contra hcount
      unfold aggregateStatement check at h
      rw [herror, Option.isNone_none, Bool.true_and, bne_iff_ne.mpr hcount] at h
      cases h
    rw [aggregateStatement_eq herror hcolumn] at h
    obtain ⟨aql, haql, rfl⟩ := map_ok_iff.mp h
    exact ⟨herror, hcolumn, aql, (steady_statement _).gives haql, rfl⟩
  · rintro ⟨herror, hcolumn, aql, haql, rfl⟩
    rw [aggregateStatement_eq herror hcolumn]
    exact ((haql.map _).after _) n

/-- A text and the branch of a union whose query compiles to this text alone. -/
structure Reads (u : UnionBranch String) (branch : UnionBranch Query) : Prop where
  all : branch.all = u.all
  text : (toAql branch.query.clauses).Gives u.query

/-- What a query is embedded as is its text in parentheses. -/
theorem embedded_gives_iff {text : String} :
    b.embedded.Gives ("(" ++ text ++ ")") ↔ b.toAql.Gives text := by
  have hfragment : (Query.of b).fragment.error = b.error := by rw [Query.fragment_of]; rfl
  constructor
  · intro h n
    unfold embedded Fragment.embedded at h
    rw [hfragment] at h
    cases herror : b.error with
    | some e =>
        rw [herror] at h
        cases h 0
    | none =>
        rw [herror, Query.fragment_of] at h
        obtain ⟨aql, haql, htext⟩ := map_ok_iff.mp (h 0)
        have heq : aql = text := by
          have hlist := congrArg String.toList htext
          simp only [String.toList_append, List.append_assoc, List.append_cancel_left_eq,
            List.append_cancel_right_eq] at hlist
          exact String.toList_injective hlist
        exact toAql_ok_iff.mpr ⟨herror, heq ▸ b.steady_statement.gives haql⟩
  · intro h
    obtain ⟨herror, haql⟩ := toAql_ok_iff.mp (h 0)
    exact gives_embedded herror haql

/-- A branch is embedded as a text just if its query is read as this text. -/
theorem embeds_iff_reads {branch : UnionBranch Query} {u : UnionBranch String} :
    Embeds u (branch.map Query.fragment) ↔ Reads u branch := by
  obtain ⟨⟨c⟩, all⟩ := branch
  constructor
  · rintro ⟨hall, hembedded⟩
    exact ⟨hall, embedded_gives_iff.mp hembedded⟩
  · rintro ⟨hall, htext⟩
    exact ⟨hall, embedded_gives_iff.mpr htext⟩

/-- **An aggregate of a union is an aggregate of its first query.**  A builder with unions compiles
an aggregate just if the builder without them does and each branch compiles alone. The row of the
aggregate is combined with the rows of the branches, and the combination is ordered and limited as
it is without an aggregate; nothing is collected behind its loop. -/
theorem aggregate_of_union (hunions : b.unions ≠ []) (function : AggregateFunction)
    (column : Option String) (n : Nat) (compiled : Compiled) :
    (b.aggregateStatement function column n).1 = .ok compiled ↔ ∃ first texts,
      (aggregateStatement { b with unions := [] } function column).Gives
        (.ofStore first b.bindings) ∧
      Aggregated b.scope ⟨function, column.filter fun name => name != "*"⟩ first ∧
      List.Forall₂ Reads texts b.unions ∧
      compiled = .ofStore (unionText false (unionRows ("(" ++ first ++ ")") texts)
        b.unionOrders b.unionLimit b.unionOffset) b.bindings := by
  let alone : Builder := { b with unions := [] }
  let c := (b.aggregated function column).compiled
  have hcompiled : c.unions ≠ [] := fun h => hunions (List.map_eq_nil_iff.mp h)
  -- The unions do not matter for the clauses of the first query.
  have hfirst : (alone.aggregated function column).statement = simpleStatement c := rfl
  have hreads : ∀ texts, List.Forall₂ Embeds texts c.unions ↔
    List.Forall₂ Reads texts b.unions := by
    intro texts
    have hbranches : c.unions = b.unions.map (UnionBranch.map Query.fragment) := rfl
    rw [hbranches, List.forall₂_map_right_iff]
    exact ⟨fun h => h.imp fun _ _ => embeds_iff_reads.mp, fun h => h.imp fun _ _ =>
      embeds_iff_reads.mpr⟩
  have hrows : wholeDocuments c = false := Bool.and_false _
  have hunion : ∀ aql, (b.aggregated function column).statement.Gives aql ↔ ∃ first texts,
      (simpleStatement c).Gives first ∧ List.Forall₂ Embeds texts c.unions ∧
      aql = unionText false (unionRows ("(" ++ first ++ ")") texts) b.unionOrders b.unionLimit
        b.unionOffset := by
    intro aql
    rw [← hrows]
    exact statement_gives_union_iff hcompiled (steady_compiled (b.aggregated function column))
  have hscope : c.scope = b.scope := Clauses.scope_map Query.fragment (b.aggregated function column)
  have hrow : (simpleStatement c).Yields
      (Aggregated b.scope ⟨function, column.filter fun name => name != "*"⟩) := by
    rw [← hscope]
    exact yields_aggregated rfl
  rw [aggregateStatement_ok_iff]
  constructor
  · rintro ⟨herror, hcolumn, aql, haql, rfl⟩
    obtain ⟨first, texts, hgives, htexts, rfl⟩ := (hunion aql).mp haql
    refine ⟨first, texts, fun n => ?_, hrow 0 first (hgives 0),
      (hreads texts).mp htexts, rfl⟩
    exact aggregateStatement_ok_iff.mpr ⟨herror, hcolumn, first, hfirst ▸ hgives, rfl⟩
  · rintro ⟨first, texts, hgives, -, htexts, rfl⟩
    obtain ⟨herror, hcolumn, aql, haql, heq⟩ := aggregateStatement_ok_iff.mp (hgives 0)
    obtain rfl : first = aql := congrArg Compiled.aql heq
    refine ⟨herror, hcolumn, _, (hunion _).mpr ⟨first, texts, hfirst ▸ haql,
      (hreads texts).mpr htexts, rfl⟩, rfl⟩

/-- Characters together with locations. -/
def everything : Builder :=
  ((fromCollection (Clauses.empty 1) "characters as c").union false
    (.finished (fromCollection (Clauses.empty 2) "locations as l")) 3).1

/-- The count of the characters is combined with the locations. -/
theorem characters_counted :
    (everything.aggregateStatement .count none 3).1.toOption.map Compiled.aql = some
      ("FOR unionResultDoc IN UNION_DISTINCT((FOR c IN characters " ++
        "COLLECT WITH COUNT INTO aggregateResult RETURN \x7baggregate: aggregateResult\x7d), " ++
        "(FOR l IN locations RETURN l)) RETURN unionResultDoc") := by
  decide +kernel

/-- The characters alone have a row with their count, and this row is combined. -/
theorem counted_row_combined :
    everything.unions ≠ [] ∧ ∃ compiled first texts,
      (everything.aggregateStatement .count none 3).1 = .ok compiled ∧
      (aggregateStatement { everything with unions := [] } .count none).Gives
        (.ofStore first everything.bindings) ∧
      compiled.aql = unionText false (unionRows ("(" ++ first ++ ")") texts) [] none none := by
  have hunions : everything.unions ≠ [] := fun h => nomatch h
  have hcounted := characters_counted
  cases hcompiled : (everything.aggregateStatement .count none 3).1 with
  | error e =>
      rw [hcompiled] at hcounted
      cases hcounted
  | ok compiled =>
      obtain ⟨first, texts, hgives, -, -, htext⟩ :=
        (aggregate_of_union hunions .count none 3 compiled).mp hcompiled
      exact ⟨hunions, compiled, first, texts, rfl, hgives, congrArg Compiled.aql htext⟩

end Builder

end AqlBuilder

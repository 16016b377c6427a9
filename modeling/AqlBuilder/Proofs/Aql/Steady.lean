import AqlBuilder.Aql.Statement
import AqlBuilder.Proofs.Aql.Outcome

/-!
# Statements do not depend on the counter

The numbers that copies take while a statement is compiled leave no trace in its text. The grammar
carries this property from the fragments of sub-queries to the clauses of the statement around them.

- `Fragment.Steady`: all texts of a fragment are the same under every counter.
- `Aql.clauses` are the clauses of a statement, and `Aql.statement_eq_clauses` says that it is their
  text.
- `Aql.steady_statement`: a query whose sub-queries are steady has a steady statement.
-/

namespace AqlBuilder

open Outcome

/-- A fragment whose texts do not depend on the counter. -/
structure Fragment.Steady (f : Fragment) : Prop where
  statement : f.statement.Steady
  conditions : f.conditions.Steady
  source : ∀ s ∈ f.source, s.2.Steady

namespace Fragment

variable {f : Fragment}

/-- A steady query is steady where it is embedded. -/
theorem Steady.embedded (h : f.Steady) : f.embedded.Steady := by
  unfold Fragment.embedded
  cases f.error with
  | some e => exact steady_fail e
  | none => exact h.statement.map

theorem Steady.value (h : f.Steady) : f.value.Steady := h.embedded.map

end Fragment

/-- The text of a test is steady if its queries are. -/
theorem Test.steady_text (scope : Scope) {t : Test Fragment} (h : ∀ f ∈ t.queries, f.Steady) :
    (t.text scope).Steady := by
  cases t with
  | memberOfQuery c q n => exact (h q (by simp [queries])).embedded.map
  | compareQuery c o q => exact (h q (by simp [queries])).value.map
  | hasRows q n => exact (h q (by simp [queries])).embedded.map
  | nested q =>
      refine (h q (by simp [queries])).conditions.bind fun conditions => ?_
      cases conditions <;> exact steady_pure _
  | bits c o v =>
      simp only [text]
      split
      · exact steady_fail _
      · exact steady_pure _
  | _ => exact steady_pure _

namespace Aql

/-- Further conditions are steady if their queries are. -/
theorem steady_furtherConditions (scope : Scope) {list : List (Condition Fragment)}
    (h : ∀ f ∈ list.flatMap (fun x => x.test.queries), f.Steady) :
    (furtherConditions scope list).Steady := by
  induction list with
  | nil => exact steady_pure ""
  | cons condition rest ih =>
      rw [List.flatMap_cons] at h
      refine (condition.test.steady_text scope fun f hf => h f (by simp [hf])).bind fun first => ?_
      exact (ih fun f hf => h f (List.mem_append_right _ hf)).map

/-- A list of conditions is steady if its queries are. -/
theorem steady_conditions (scope : Scope) {list : List (Condition Fragment)}
    (h : ∀ f ∈ list.flatMap (fun x => x.test.queries), f.Steady) :
    (conditions scope list).Steady := by
  cases list with
  | nil => exact steady_pure none
  | cons condition rest =>
      rw [List.flatMap_cons] at h
      refine (condition.test.steady_text scope fun f hf => h f (by simp [hf])).bind fun first => ?_
      exact (steady_furtherConditions scope fun f hf => h f (List.mem_append_right _ hf)).map

/-- A filter is steady if the queries in its conditions are. -/
theorem steady_filter (scope : Scope) {list : List (Condition Fragment)}
    (h : ∀ f ∈ list.flatMap (fun x => x.test.queries), f.Steady) :
    (filter scope list).Steady := by
  refine (steady_conditions scope h).bind fun text => ?_
  cases text <;> exact steady_pure _

/-- A definition is steady if its query is. -/
theorem steady_definition (scope : Scope) {v : LetVariable Fragment}
    (h : ∀ f ∈ v.value.queries, f.Steady) : (definition scope v).Steady := by
  obtain ⟨name, value⟩ := v
  cases value with
  | bound b => exact (steady_pure (b.text scope)).map
  | query q => exact (h q (by simp [Definition.queries])).value.map

/-- A source is steady if its query is. -/
theorem steady_sourceText (tablePrefix : String) {s : Source Fragment}
    (h : ∀ f ∈ s.queries, f.Steady) : (sourceText tablePrefix s).2.Steady := by
  cases s with
  | derived q v => exact (h q (by simp [Source.queries])).embedded
  | _ => exact steady_pure _

/-- A joined loop is steady if the joined query is. -/
theorem steady_joinLoop {j : Join Fragment} (h : j.query.Steady) : (joinLoop j).Steady := by
  unfold joinLoop
  have hsource := h.source
  cases hs : j.query.source with
  | none => exact steady_fail _
  | some s =>
      refine (hsource s hs).bind fun source => h.conditions.bind fun conditions => ?_
      cases j.kind <;> exact steady_pure _

/-- A key of a group takes no number. -/
theorem steady_collectKey (scope : Scope) (key : GroupKey) : (collectKey scope key).Steady := by
  cases key with
  | column name => exact steady_pure _
  | raw aql =>
      simp only [collectKey]
      split
      · exact steady_pure _
      · exact steady_fail _

/-- An aggregate takes no number. -/
theorem steady_aggregateText (scope : Scope) (a : Aggregate) : (aggregateText scope a).Steady := by
  unfold aggregateText
  split
  · exact steady_pure _
  · exact steady_pure _
  · exact steady_fail _

/-- Groups take no numbers. -/
theorem steady_collect (c : Clauses Fragment) : (collect c).Steady := by
  unfold collect
  split
  · exact steady_pure none
  refine (steady_each fun key _ => steady_collectKey c.scope key).bind fun keys => ?_
  cases c.aggregate with
  | some a => exact (steady_aggregateText c.scope a).map
  | none =>
      dsimp only
      split <;> exact steady_pure _

/-- Selected queries are steady together if each of them is. -/
theorem steady_selectedQueries {columns : List (Selector Fragment)}
    (h : ∀ f ∈ columns.flatMap Selector.queries, f.Steady) :
    (selectedQueries columns).Steady := by
  induction columns with
  | nil => exact steady_pure []
  | cons column rest ih =>
      rw [List.flatMap_cons] at h
      have hrest := ih fun f hf => h f (List.mem_append_right _ hf)
      cases column with
      | sub q asName =>
          exact (h q (by simp [Selector.queries])).value.bind fun value => hrest.map
      | _ => exact hrest

section statement

variable {c : Clauses Fragment}

/-- The source of a query is steady if the queries in it are. -/
theorem steady_source (h : ∀ f ∈ c.queries, f.Steady) :
    ∀ s ∈ c.source.map (sourceText c.tablePrefix), s.2.Steady := by
  intro s hs
  obtain ⟨source, hsource, rfl⟩ := Option.map_eq_some_iff.mp hs
  exact steady_sourceText c.tablePrefix fun f hf => h f (by simp [Clauses.queries, hsource, hf])

/-- The loops of a query are steady if the queries in it are. -/
theorem steady_loops (h : ∀ f ∈ c.queries, f.Steady) : (loops c).Steady := by
  have main : (mainLoop c).Steady := by
    unfold mainLoop
    have hsource := steady_source h
    cases hs : c.source.map (sourceText c.tablePrefix) with
    | none => exact steady_fail _
    | some s => exact (hsource s hs).map
  simp only [Clauses.queries, List.mem_append] at h
  refine (steady_each fun v hv => steady_definition c.scope fun f hf => h f (by grind)).bind
    fun definitions => main.bind fun main => ?_
  refine (steady_each fun j hj => steady_joinLoop (h j.query (by grind))).bind fun joins => ?_
  exact (steady_filter c.scope fun f hf => h f (by grind)).map

/-- Combined rows are steady if the queries of the branches are. -/
theorem steady_combined {rows : String} {unions : List (UnionBranch Fragment)}
    (h : ∀ u ∈ unions, u.query.Steady) : (combined rows unions).Steady := by
  induction unions generalizing rows with
  | nil => exact steady_pure rows
  | cons branch rest ih =>
      refine (h branch List.mem_cons_self).embedded.bind fun others => ?_
      exact ih fun u hu => h u (List.mem_cons_of_mem branch hu)

/-- The clauses of a statement without regard to its unions. -/
def simpleClauses (c : Clauses Fragment) : Outcome (List String) := do
  let loops ← loops c
  let collected ← collect c
  let keys := (collected.map Collected.keys).getD []
  let scope : Scope := ⟨(collected.map Collected.aliases).getD c.aliases, c.docVar⟩
  let havings ← filter scope c.havings
  let queries ← selectedQueries c.columns
  pure (loops ++ (collected.map Collected.clause).toList ++ havings
    ++ sortIn scope c.orders ++ limitText c.limit c.offset ++ queries
    ++ [returnText c scope keys])

/-- The clauses over the combined rows of a union. -/
def unionClauses (c : Clauses Fragment) : Outcome (List String) := do
  let documents := c.columns.isEmpty && c.groups.isEmpty && c.aggregate.isNone
  let first ← simpleStatement c
  let rows ← combined ("(" ++ first ++ ")") c.unions
  let resolve := if documents then Column.onDocument unionVariable else Column.onRow unionVariable
  pure ([loop unionVariable rows]
    ++ sortText resolve unionVariable c.unionOrders
    ++ limitText c.unionLimit c.unionOffset ++ ["RETURN " ++ unionVariable])

/-- The clauses of a statement, without those of the statements inside. -/
def clauses (c : Clauses Fragment) : Outcome (List String) :=
  if c.unions.isEmpty then simpleClauses c else unionClauses c

/-- A statement without unions is its clauses with blanks between them. -/
theorem simpleStatement_eq_clauses (c : Clauses Fragment) :
    simpleStatement c = (do pure (" ".intercalate (← simpleClauses c))) := by
  unfold simpleStatement simpleClauses
  simp only [bind_bind]
  rfl

/-- A statement is the text of its clauses. -/
theorem statement_eq_clauses (c : Clauses Fragment) :
    statement c = (do pure (" ".intercalate (← clauses c))) := by
  unfold statement clauses
  split
  · exact simpleStatement_eq_clauses c
  · unfold unionStatement unionClauses
    simp only [bind_bind]
    rfl

/-- The clauses of a statement without unions are steady if the queries in it are. -/
theorem steady_simpleClauses (h : ∀ f ∈ c.queries, f.Steady) : (simpleClauses c).Steady := by
  refine (steady_loops h).bind fun loops => (steady_collect c).bind fun collected => ?_
  simp only [Clauses.queries, List.mem_append] at h
  refine (steady_filter _ fun f hf => h f (by grind)).bind fun havings => ?_
  exact (steady_selectedQueries fun f hf => h f (by grind)).map

/-- A statement without unions is steady if the queries in it are. -/
theorem steady_simpleStatement (h : ∀ f ∈ c.queries, f.Steady) : (simpleStatement c).Steady := by
  rw [simpleStatement_eq_clauses]
  exact (steady_simpleClauses h).map

/-- The clauses of a statement are steady if the queries in it are. -/
theorem steady_clauses (h : ∀ f ∈ c.queries, f.Steady) : (clauses c).Steady := by
  unfold clauses
  split
  · exact steady_simpleClauses h
  · refine (steady_simpleStatement h).bind fun first => ?_
    refine (steady_combined fun u hu => h u.query ?_).map
    simp only [Clauses.queries, List.mem_append, List.mem_map]
    grind

/-- A query whose sub-queries are steady has a steady statement. -/
theorem steady_statement (h : ∀ f ∈ c.queries, f.Steady) : (statement c).Steady := by
  rw [statement_eq_clauses]
  exact (steady_clauses h).map

end statement

end Aql

end AqlBuilder

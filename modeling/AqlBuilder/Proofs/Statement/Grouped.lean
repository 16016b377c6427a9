import AqlBuilder.Alias.Rules
import AqlBuilder.Proofs.Aql.Behind
import AqlBuilder.Proofs.Builder.Alike
import AqlBuilder.Proofs.Statement.Copied
import AqlBuilder.Proofs.Text.Stands

/-!
# Orders and conditions behind groups

A statement with groups has its order and the filter on its groups behind them, whatever columns
they are made of. Their columns are written with the names that are known there, and with a document
variable if they are none of these, though no document can be seen there.

- `Aql.Finished` is the form of a statement with groups, and `Aql.yields_finished` says that a query
  with groups has it.
- `Builder.reading` is the query that a reading entry compiles.
- `Builder.columns_behind_groups` is the result for whole builders.
-/

namespace AqlBuilder

open Outcome

namespace Aql

variable {c : Clauses Fragment} {keys : List CollectKey}

/-- A statement with its groups, and behind them a filter and an order that are written in the scope
behind the groups. -/
def Finished (c : Clauses Fragment) (keys : List CollectKey) (text : String) : Prop :=
  ∃ loops tail havings rest, (filter (scopeBehind c keys) c.havings).Gives havings ∧
    text = " ".intercalate (loops ++ [collectText keys ++ tail] ++ havings
      ++ sortIn (scopeBehind c keys) c.orders ++ rest)

/-- Without its unions a query with groups has a statement of this form. -/
theorem yields_finished (h : Grouped c) (hsteady : ∀ f ∈ c.queries, f.Steady) :
    (simpleStatement c).Yields fun text =>
      ∃ keys, (each (collectKey c.scope) c.groups).Gives keys ∧ Finished c keys text := by
  have hhavings : ∀ scope, (filter scope c.havings).Steady := fun scope =>
    steady_filter scope fun f hf => hsteady f (by
      simp only [Clauses.queries, List.mem_append]
      exact .inl (.inl (.inr hf)))
  rw [simpleStatement_eq]
  refine (yields_any _).bind fun loops _ =>
    (yields_collectsBy h).bind fun collected hcollected => ?_
  obtain ⟨keys, g, hg, hgives, ⟨tail, -, hclause⟩, haliases⟩ := hcollected
  obtain rfl : collected = some g := hg
  have hscope : (⟨g.aliases, c.docVar⟩ : Scope) = scopeBehind c keys := by
    rw [haliases]
    rfl
  unfold finish
  simp only [Option.map_some, Option.getD_some, Option.toList_some, hscope, hclause]
  refine (hhavings _).yields.bind fun havings hfilter => (yields_any _).map fun queries _ => ?_
  refine ⟨keys, hgives, loops, tail, havings, limitText c.limit c.offset ++ queries
    ++ [returnText c (scopeBehind c keys) g.keys], hfilter, ?_⟩
  simp only [List.append_assoc]

/-- Combined rows contain the rows they are combined of. -/
theorem yields_stands_combined (rows : String) (unions : List (UnionBranch Fragment)) :
    (combined rows unions).Yields (Stands [] rows) := by
  induction unions generalizing rows with
  | nil => exact yields_pure (.refl rows)
  | cons branch rest ih =>
      refine (yields_any _).bind fun others _ => (ih _).mono fun all hall => ?_
      have hfirst : Stands [] rows ((if branch.all then "UNION" else "UNION_DISTINCT") ++ "("
          ++ rows ++ ", " ++ others ++ ")") :=
        (((Stands.refl rows).behind _).before _).before _ |>.before _
      exact hfirst.trans hall

/-- With unions, too, a query contains its statement without them. -/
theorem yields_statement_of_simple {p : String → Prop} (h : (simpleStatement c).Yields p) :
    (statement c).Yields fun aql => ∃ text, p text ∧ Stands [] text aql := by
  unfold statement
  split
  · exact h.mono fun text htext => ⟨text, htext, .refl text⟩
  · refine h.bind fun first hfirst => (yields_stands_combined _ _).map fun rows hrows => ?_
    have hloop : Stands [] first (loop unionVariable rows) :=
      (((Stands.refl first).around "(" ")").trans hrows).behind _
    exact ⟨first, hfirst, hloop.listed List.mem_cons_self⟩

end Aql

namespace Builder

open Aql

variable {b w : Builder} {entry : Entry Builder}

/-- The query that is compiled by an entry that reads rows. -/
def reading (b : Builder) : Entry Builder → Option Builder
  | .select => some b
  | .existence => some b.probe
  | .aggregate function column => some (b.aggregated function column)
  | _ => none

/-- What an entry gives contains the statement of its query. -/
theorem yields_reading [Naming] {p : String → Prop} (hread : b.reading entry = some w)
    (h : w.statement.Yields p) :
    (b.compile entry).Yields fun compiled => ∃ aql, p aql ∧ Stands [] aql compiled.aql := by
  cases entry with
  | select =>
      obtain rfl := Option.some.inj hread
      refine yields_checked _ fun _ => yields_onCopy fun copy hcopy => ?_
      rw [statement, ← hcopy] at h
      exact h.map fun aql haql => ⟨aql, haql, .refl aql⟩
  | existence =>
      obtain rfl := Option.some.inj hread
      refine yields_checked _ fun _ => yields_onCopy fun copy hcopy => ?_
      rw [statement, ← compiled_probe hcopy] at h
      exact h.map fun aql haql => ⟨aql, haql, (Stands.refl aql).around _ _⟩
  | aggregate function column =>
      obtain rfl := Option.some.inj hread
      refine yields_checked _ fun _ => ?_
      split
      · exact yields_fail _
      · refine yields_onCopy fun copy hcopy => ?_
        rw [statement, ← compiled_aggregated hcopy] at h
        exact h.map fun aql haql => ⟨aql, haql, .refl aql⟩
  | _ => cases hread

/-- **What is written behind groups.**  A query has groups or an aggregate. However it is compiled
for reading, its statement has the order and the filter on groups behind the groups, with every
column written as what it stands for there: the expression of a name that the groups announce, an
attribute behind such a name, or an attribute of a document, if the column leads to no announced
name and does not begin with one. -/
theorem columns_behind_groups [Naming] (hread : b.reading entry = some w) (hgrouped : Grouped w) :
    (b.compile entry).Yields fun compiled => ∃ keys text,
      Stands [] text compiled.aql ∧ (each (collectKey w.scope) w.groups).Gives keys ∧
      Finished w.compiled keys text ∧
      ∀ column, let scope := scopeBehind w.compiled keys
        scope.resolve column = (scope.origin column).text ∧
          Accounted w.compiled keys column (scope.origin column) := by
  have hstatement : w.statement.Yields fun aql => ∃ text, (∃ keys,
      (each (collectKey w.compiled.scope) w.compiled.groups).Gives keys ∧
      Finished w.compiled keys text) ∧ Stands [] text aql :=
    yields_statement_of_simple (yields_finished hgrouped (steady_compiled w))
  rw [w.scope_compiled] at hstatement
  refine (yields_reading hread hstatement).mono fun compiled haql => ?_
  obtain ⟨aql, ⟨text, ⟨keys, hkeys, hfinished⟩, htext⟩, haql⟩ := haql
  refine ⟨keys, text, htext.trans haql, hkeys, hfinished, fun column => ⟨?_, ?_⟩⟩
  · exact Scope.resolve_eq_origin _ column
  · exact accounted w.compiled keys column

/-- Characters by name. -/
def ranked : Builder :=
  (fromCollection (Clauses.empty 1) "characters as c").orderBy "name" (.ok .ascending)

/-- Their count is ordered by the name of a character. -/
theorem count_ordered_by_document :
    (ranked.compile (.aggregate .count none) 2).1.toOption.map Compiled.aql = some
      ("FOR c IN characters COLLECT WITH COUNT INTO aggregateResult SORT c.\x60name\x60 ASC " ++
        "RETURN \x7baggregate: aggregateResult\x7d") := by
  decide +kernel

/-- The name leads to nothing that the count announces. -/
theorem name_unannounced :
    ranked.reading (.aggregate .count none) = some (ranked.aggregated .count none) ∧
      Grouped (ranked.aggregated .count none) ∧
      (ranked.compile (.aggregate .count none)).Yields fun compiled => ∃ text,
        Stands [] text compiled.aql ∧ Finished (ranked.aggregated .count none).compiled [] text ∧
        Accounted (ranked.aggregated .count none).compiled [] "name"
          (.document "c" ["name".toList]) := by
  have hgrouped : Grouped (ranked.aggregated .count none) := .inr rfl
  refine ⟨rfl, hgrouped, ?_⟩
  refine (columns_behind_groups rfl hgrouped).mono fun compiled h => ?_
  obtain ⟨keys, text, htext, hkeys, hfinished, hcolumns⟩ := h
  obtain rfl : [] = keys := Except.ok.inj (hkeys 0)
  have horigin : (scopeBehind (ranked.aggregated .count none).compiled []).origin "name" =
      .document "c" ["name".toList] := by decide +kernel
  exact ⟨text, htext, hfinished, horigin ▸ (hcolumns "name").2⟩

end Builder

end AqlBuilder

import AqlBuilder.Proofs.Aql.Alike
import AqlBuilder.Proofs.Query.Visits
import AqlBuilder.Proofs.Statement.Grouped

/-!
# Where texts stand in statements

The grammar puts the texts of the parts of a query together as they are. So a part of a clause
stands in the clause and in the statement, and it is behind the query variables that are defined in
front of the clause.

- `Aql.letMark` is what a query variable is recognised by.
- `Test.stands_column` and its neighbours: every column of a clause is in its text.
- `Aql.yields_loops_parts` and `Aql.yields_simple_parts` take statements apart.
-/

namespace AqlBuilder

open Outcome

/-- What stands in front of the value of a query variable. -/
def Aql.letMark (name : String) : String := "LET " ++ name ++ " = "

/-- The variable of a selected sub-query. -/
def Selector.queryName? {Q : Type} : Selector Q → Option String
  | .sub _ asName => some asName
  | _ => none

/-- The variables that a query defines in front of its loop. -/
def Clauses.definedNames {Q : Type} (c : Clauses Q) : List String :=
  c.definitions.map LetVariable.name

/-- The variables of the selected sub-queries. -/
def Clauses.selectedNames {Q : Type} (c : Clauses Q) : List String :=
  c.columns.filterMap Selector.queryName?

/-- The variables that a query defines do not depend on the queries inside. -/
theorem Clauses.definedNames_map {P Q : Type} (f : P → Q) (c : Clauses P) :
    (c.map f).definedNames = c.definedNames := by
  unfold definedNames
  exact List.map_map

/-- The variables of selected sub-queries do not depend on the queries themselves. -/
theorem Clauses.selectedNames_map {P Q : Type} (f : P → Q) (c : Clauses P) :
    (c.map f).selectedNames = c.selectedNames := by
  have hname : ∀ s : Selector P, (s.map f).queryName? = s.queryName? := fun s => by cases s <;> rfl
  simp only [selectedNames, map, List.filterMap_map, Function.comp_def, hname]

/-- The scope of the clauses behind the groups of a query, if it has groups. -/
def Aql.scopeAfter (c : Clauses Fragment) (collected : Option Aql.Collected) : Scope :=
  ⟨(collected.map Aql.Collected.aliases).getD c.aliases, c.docVar⟩

section tests

variable {sc : Scope} {column left right ref low high : String} {marks : List String}
  {operator : Operator}

/-- What stands in one side of a comparison stands in the comparison. -/
theorem stands_comparison (h : Stands marks ref left ∨ Stands marks ref right) :
    Stands marks ref (Aql.comparison left operator right) := by
  rcases h with h | h
  · exact (((h.before _).before _).before _).before _
  · exact h.behind _

/-- A column, its lower bound, the column again and its upper bound, with anything between them. -/
theorem stands_bounds (first second third fourth fifth : String)
    (h : Stands marks ref column ∨ Stands marks ref low ∨ Stands marks ref high) :
    Stands marks ref
      (first ++ column ++ second ++ low ++ third ++ column ++ fourth ++ high ++ fifth) := by
  rcases h with h | h | h
  · exact (((((((h.behind _).before _).before _).before _).before _).before _).before _).before _
  · exact (((((h.behind _).before _).before _).before _).before _).before _
  · exact (h.behind _).before _

/-- An operand that is a column is written as the column. -/
theorem Bound.stands_column {value : Bound} (h : column ∈ value.columns) :
    Stands [] (sc.resolve column) (value.text sc) := by
  cases value with
  | column name =>
      obtain rfl := List.mem_singleton.mp h
      exact .refl _
  | _ => cases h

/-- The column stands in the text of a part of its date. -/
theorem DatePart.stands (part : DatePart) (column : String) :
    Stands [] column (part.text column) := by
  cases part <;> exact (Stands.refl column).around _ _

/-- Every column of a test is in its text. -/
theorem Test.stands_column {t : Test Fragment} (h : column ∈ t.columns) :
    (t.text sc).Yields (Stands [] (sc.resolve column)) := by
  -- A test has one column, or one and an operand.
  have hone : ∀ {c : String}, column ∈ [c] → Stands [] (sc.resolve column) (sc.resolve c) :=
    fun h => List.mem_singleton.mp h ▸ .refl _
  have hpair : ∀ {c : String} {value : Bound}, column ∈ c :: value.columns →
      Stands [] (sc.resolve column) (sc.resolve c) ∨
        Stands [] (sc.resolve column) (value.text sc) :=
    fun h => (List.mem_cons.mp h).imp (by rintro rfl; exact .refl _) Bound.stands_column
  cases t with
  | compare c o v =>
      refine yields_pure ?_
      split
      · rcases hpair h with h | h
        · exact (((h.behind _).before _).before _).before _
        · exact (h.behind _).before _
      · exact stands_comparison (hpair h)
  | between c low high negated =>
      have hparts : Stands [] (sc.resolve column) (sc.resolve c) ∨
          Stands [] (sc.resolve column) (low.text sc) ∨
          Stands [] (sc.resolve column) (high.text sc) := by
        rcases List.mem_cons.mp h with rfl | h
        · exact .inl (.refl _)
        · exact .inr ((List.mem_append.mp h).imp Bound.stands_column Bound.stands_column)
      refine yields_pure ?_
      unfold Aql.between
      split <;> exact stands_bounds _ _ _ _ _ hparts
  | member c v negated => exact yields_pure (stands_comparison (hpair h))
  | memberOf c values negated => exact yields_pure (stands_comparison (.inl (hone h)))
  | memberOfQuery c q negated =>
      exact (yields_any _).map fun _ _ => stands_comparison (.inl (hone h))
  | isNull c negated => exact yields_pure (stands_comparison (.inl (hone h)))
  | compareColumns a o b =>
      refine yields_pure (stands_comparison ?_)
      rcases List.mem_pair.mp h with rfl | rfl
      · exact .inl (.refl _)
      · exact .inr (.refl _)
  | compareQuery c o q => exact (yields_any _).map fun _ _ => stands_comparison (.inl (hone h))
  | contains c v all negated => exact yields_pure (stands_comparison (hpair h).symm)
  | length c o v =>
      exact yields_pure (stands_comparison ((hpair h).imp_left fun h => h.around _ _))
  | date part c o v =>
      exact yields_pure (stands_comparison ((hpair h).imp_left fun h => h.trans (part.stands _)))
  | bits c o v =>
      simp only [text]
      cases o.bitFunction? with
      | none => exact yields_fail _
      | some function =>
          refine yields_pure ?_
          rcases hpair h with h | h
          · exact (((h.behind _).before _).before _).before _ |>.before _
          · exact (h.behind _).before _ |>.before _
  | _ => cases h

end tests

namespace Aql

section loops

variable {cl : Clauses Fragment} {sc : Scope} {marks : List String} {ref name : String}
  {d : LetVariable Fragment} {front back : List (LetVariable Fragment)} {kind : JoinKind}

/-- The value of a variable stands behind its mark. -/
theorem yields_mark (sc : Scope) (d : LetVariable Fragment) :
    (definition sc d).Yields fun text => ∃ value, text = letMark d.name ++ value := by
  obtain ⟨name, value⟩ := d
  cases value with
  | bound bound => exact Yields.map (yields_any _) fun value _ => ⟨value, rfl⟩
  | query q => exact Yields.map (yields_any _) fun value _ => ⟨value, rfl⟩

theorem stands_letMark (value : String) : Stands [] (letMark name) (letMark name ++ value) :=
  (Stands.refl _).before value

/-- Each definition is written behind its mark. -/
theorem yields_definitions (ds : List (LetVariable Fragment)) :
    (each (definition sc) ds).Yields (Marked ((ds.map LetVariable.name).map letMark)) := by
  induction ds with
  | nil => exact yields_pure fun _ hnone => nomatch hnone
  | cons d rest ih =>
      refine (yields_mark sc _).bind fun text ⟨value, htext⟩ => ?_
      refine ih.map fun texts htexts mark hmark => ?_
      rcases List.mem_cons.mp hmark with rfl | hmark
      · exact ⟨text, List.mem_cons_self, htext ▸ stands_letMark value⟩
      · obtain ⟨other, hother, hstands⟩ := htexts mark hmark
        exact ⟨other, List.mem_cons_of_mem _ hother, hstands⟩

/-- What stands in the value of a variable is behind those that were defined before it. -/
theorem yields_definitions_split (h : (definition sc d).Yields (Stands marks ref)) :
    (each (definition sc) (front ++ d :: back)).Yields
      (StandsIn ((front.map LetVariable.name).map letMark ++ marks) ref) := by
  induction front with
  | nil =>
      exact h.bind fun text htext => (yields_any _).map fun texts _ =>
        .of_mem htext List.mem_cons_self
  | cons first rest ih =>
      refine (yields_mark sc _).bind fun text ⟨value, htext⟩ => ?_
      refine ih.map fun texts htexts => ?_
      have hmarked : Marked [letMark first.name] [text] := fun mark hmark =>
        ⟨text, List.mem_cons_self, by
          rw [List.mem_singleton.mp hmark, htext]
          exact stands_letMark value⟩
      exact htexts.behind hmarked

/-- The loops of a query are put together from four lists of pieces and the search. -/
theorem yields_loops_parts {pd pj pf : List String → Prop} {pm : String → Prop}
    (hd : (each (definition cl.scope) cl.definitions).Yields pd) (hm : (mainLoop cl).Yields pm)
    (hj : (each joinLoop cl.joins).Yields pj) (hf : (filter cl.scope cl.filters).Yields pf) :
    (Aql.loops cl).Yields fun pieces => ∃ definitions main joins filters,
      pd definitions ∧ pm main ∧ pj joins ∧ pf filters ∧
      pieces = definitions ++ ([main] ++ ((cl.search.map (searchText cl.scope)).toList ++ (joins
        ++ filters))) := by
  refine hd.bind fun definitions hd => hm.bind fun main hm => hj.bind fun joins hj => ?_
  refine hf.map fun filters hf => ⟨definitions, main, joins, filters, hd, hm, hj, hf, ?_⟩
  simp only [List.append_assoc]

/-- Each field of a search stands in the search. -/
theorem stands_searched {search : Search} {field : String} (hfield : field ∈ search.fields) :
    Stands [] (sc.resolve field) (searchText sc search) := by
  have hcondition : ∀ text, Stands [] (sc.resolve field) (sc.resolve field ++ text) :=
    fun text => (Stands.refl _).before text
  unfold searchText
  simp only [String.append_assoc]
  refine Stands.behind (Stands.before ?_ _) _
  exact Stands.listed (hcondition _) (List.mem_map.mpr ⟨field, hfield, rfl⟩)

/-- What stands in a joined loop with its filter stands in the join, of whatever kind. -/
theorem stands_joinText {docVar source filter : String}
    (h : Stands marks ref (loop docVar source ++ filter)) :
    Stands marks ref (match kind with
      | .left => leftLoop docVar source filter
      | _ => loop docVar source ++ filter) := by
  cases kind with
  | left =>
      have hcut : leftLoop docVar source filter = "LET " ++ (docVar ++ "List") ++ " = (" ++
          (loop docVar source ++ filter) ++ (" RETURN " ++ docVar ++ ") " ++
            loop docVar ("(LENGTH(" ++ (docVar ++ "List") ++ ") > 0) ? " ++ (docVar ++ "List") ++
              " : [\x7b\x7d]")) := by
        simp [leftLoop, loop, ← String.toList_inj]
      dsimp only
      rw [hcut]
      exact h.around _ _
  | _ => exact h

end loops

section groups

variable {c : Clauses Fragment} {marks : List String} {ref : String}

/-- What stands in the keys of a grouping or behind them stands in the grouping. -/
theorem yields_stands_collect (hgrouped : Grouped c)
    (h : ∀ keys, (each (collectKey c.scope) c.groups).Gives keys →
      Stands marks ref (collectText keys) ∨ (collectTail c keys).Yields (Stands marks ref)) :
    (collect c).Yields fun result => ∃ g ∈ result, Stands marks ref g.clause := by
  refine (yields_collectsBy hgrouped).mono fun result ⟨keys, g, hg, hby⟩ => ?_
  obtain ⟨tail, htail, hclause⟩ := hby.clause
  refine ⟨g, hg, hclause ▸ ?_⟩
  rcases h keys hby.gives with h | h
  · exact h.before _
  · exact (h 0 tail (htail 0)).behind _

/-- Each key of a group stands in the clause of the keys. -/
theorem stands_key {keys : List CollectKey} {key : CollectKey} (hkey : key ∈ keys) :
    Stands [] key.expression (collectText keys) := by
  have hsome : ¬ keys.isEmpty = true := by
    rw [List.isEmpty_iff]
    exact List.ne_nil_of_mem hkey
  unfold collectText
  rw [if_neg hsome]
  refine Stands.behind ?_ _
  exact ((Stands.refl key.expression).behind _).listed (List.mem_map.mpr ⟨key, hkey, rfl⟩)

/-- An attribute of an object has its expression there. -/
theorem stands_attribute {entries : List (String × String)} {key : String}
    (h : (key, ref) ∈ entries) : Stands [] ref (objectLiteral entries) := by
  unfold objectLiteral
  refine ((Stands.listed ?_ (List.mem_map.mpr ⟨_, h, rfl⟩)).behind _).before _
  exact (Stands.refl ref).behind _

/-- A column that may be kept is written as it is resolved. -/
theorem expression_of_mem_candidates {scope : Scope} {columns : List (Selector Fragment)}
    {k : KeptColumn} (hk : k ∈ candidates scope columns) :
    k.expression = scope.resolve k.column := by
  obtain ⟨s, -, hs⟩ := List.mem_filterMap.mp hk
  cases s <;> cases hs <;> rfl

/-- A column that is grouped by stands in the clause of the groups. -/
theorem yields_grouped {name : String} (h : .column name ∈ c.groups) :
    (collect c).Yields fun result => ∃ g ∈ result, Stands [] (c.scope.resolve name) g.clause := by
  have hgrouped : Grouped c := .inl (List.ne_nil_of_mem h)
  refine yields_stands_collect hgrouped fun keys hkeys => .inl ?_
  have hkey : (collectKey c.scope (.column name)).Yields (·.expression = c.scope.resolve name) :=
    yields_pure rfl
  obtain ⟨key, hmem, hexpression⟩ := yields_each_mem h hkey 0 keys (hkeys 0)
  exact hexpression ▸ stands_key hmem

/-- The column of an aggregate stands in the clause of the groups. -/
theorem yields_aggregate {function : AggregateFunction} {column : String}
    (h : c.aggregate = some ⟨function, some column⟩) :
    (collect c).Yields fun result => ∃ g ∈ result, Stands [] (c.scope.resolve column) g.clause := by
  have hgrouped : Grouped c := .inr (by rw [h]; rfl)
  refine yields_stands_collect hgrouped fun keys _ => .inr ?_
  unfold collectTail
  rw [h]
  cases function <;>
  · refine Yields.map (yields_pure rfl) fun text htext => ?_
    rw [← htext]
    exact ((Stands.refl _).around _ _).behind _

/-- A kept column stands in the clause of the groups. -/
theorem yields_kept {keys : List CollectKey} {k : KeptColumn} (hgroups : c.groups ≠ [])
    (haggregate : c.aggregate = none) (hkeys : (each (collectKey c.scope) c.groups).Gives keys)
    (hk : k ∈ keptColumns c keys) :
    (collect c).Yields fun result => ∃ g ∈ result, Stands [] k.expression g.clause := by
  refine yields_stands_collect (.inl hgroups) fun keys' hkeys' => .inr ?_
  obtain rfl : keys = keys' := Except.ok.inj ((hkeys 0).symm.trans (hkeys' 0))
  have hsome : ¬ (keptColumns c keys).isEmpty = true := by
    rw [List.isEmpty_iff]
    exact List.ne_nil_of_mem hk
  unfold collectTail
  rw [haggregate]
  dsimp only
  rw [if_neg hsome]
  exact yields_pure ((stands_attribute (List.mem_map.mpr ⟨k, hk, rfl⟩)).behind _)

end groups

section projections

variable {sc : Scope} {p : Projected} {key ref : String}

/-- The attributes that a part of a projection adds. -/
def attributesOf (sc : Scope) : Selector Fragment → List (String × String)
  | .column name => [(Column.attributeName name, sc.resolve name)]
  | .aliased name asName => [(asName, sc.resolve name)]
  | .documents _ => []
  | .raw aql (some asName) => [(asName, aql)]
  | .raw _ none => []
  | .sub _ asName => [(asName, asName)]

/-- A selected column is an attribute of the projection. -/
theorem exists_attribute {Q : Type} {f : Q → Fragment} (sc : Scope) {s : Selector Q}
    {column : String} (h : s.column? = some column) :
    ∃ key, (key, sc.resolve column) ∈ attributesOf sc (s.map f) := by
  cases s with
  | column name =>
      cases h
      exact ⟨_, List.mem_cons_self⟩
  | aliased name asName =>
      cases h
      exact ⟨_, List.mem_cons_self⟩
  | _ => cases h

/-- Selecting one more column appends its attributes. -/
theorem attributes_select (sc : Scope) (p : Projected) (s : Selector Fragment) :
    (p.select sc s).attributes = p.attributes ++ attributesOf sc s := by
  have hnone : p.attributes = p.attributes ++ [] := (List.append_nil _).symm
  cases s with
  | documents table => exact hnone
  | raw aql asName =>
      cases asName with
      | none => exact hnone
      | some asName => rfl
  | _ => rfl

/-- The attributes of a projection are those of its columns, in their order. -/
theorem attributes_foldl (columns : List (Selector Fragment)) :
    (columns.foldl (Projected.select sc) p).attributes =
      p.attributes ++ columns.flatMap (attributesOf sc) := by
  induction columns generalizing p with
  | nil => exact (List.append_nil _).symm
  | cons s rest ih =>
      rw [List.foldl_cons, ih, attributes_select, List.append_assoc]
      rfl

/-- Every attribute of a projection is in its text. -/
theorem stands_projected (h : (key, ref) ∈ p.attributes) (singleValue : Bool) :
    Stands [] ref (p.valueText singleValue) := by
  have hobject := stands_attribute h
  have hsome : p.attributes.isEmpty = false :=
    List.isEmpty_eq_false_iff.mpr (List.ne_nil_of_mem h)
  have htext : Stands [] ref p.text := by
    unfold Projected.text
    rw [hsome]
    split
    · exact hobject
    · exact (hobject.behind _).before _
    · refine Stands.before (Stands.behind ?_ _) _
      exact hobject.listed (List.mem_append_right _ List.mem_cons_self)
  unfold Projected.valueText
  split
  · rename_i key' expression hattributes
    split
    · rw [hattributes] at h
      obtain ⟨-, rfl⟩ := Prod.mk.inj (List.mem_singleton.mp h)
      exact .refl _
    · exact htext
  · exact htext

/-- A selected attribute is in the last clause of a statement. -/
theorem stands_returned {c : Clauses Fragment} {keys : List String} {s : Selector Fragment}
    (haggregate : c.aggregate = none) (hs : s ∈ c.columns) (h : (key, ref) ∈ attributesOf sc s) :
    Stands [] ref (returnText c sc keys) := by
  have hmem : (key, ref) ∈
      (c.columns.foldl (Projected.select sc) (unselected c keys)).attributes := by
    rw [attributes_foldl]
    exact List.mem_append_right _ (List.mem_flatMap.mpr ⟨s, hs, h⟩)
  unfold returnText
  rw [haggregate]
  exact (stands_projected hmem _).behind _

end projections

section statements

variable {cl : Clauses Fragment} {sc : Scope} {marks : List String} {ref : String}

/-- A selected sub-query has its mark in front of its value. -/
theorem yields_selectedNames (columns : List (Selector Fragment)) :
    (selectedQueries columns).Yields
      (Marked ((columns.filterMap Selector.queryName?).map letMark)) := by
  induction columns with
  | nil => exact yields_pure fun _ hnone => nomatch hnone
  | cons s rest ih =>
      cases s with
      | sub q asName =>
          refine (yields_any _).bind fun value _ => ih.map fun texts htexts => ?_
          have hfirst : Marked [letMark asName] [letMark asName ++ value] := fun mark hmark =>
            ⟨_, List.mem_cons_self, List.mem_singleton.mp hmark ▸ stands_letMark value⟩
          exact hfirst.append htexts
      | _ => exact ih

/-- What stands in a selected sub-query is behind those that were selected before it. -/
theorem yields_selectedQueries_split {q : Fragment} {asName : String}
    {front back : List (Selector Fragment)} (h : q.value.Yields (Stands marks ref)) :
    (selectedQueries (front ++ .sub q asName :: back)).Yields
      (StandsIn ((front.filterMap Selector.queryName?).map letMark ++ marks) ref) := by
  induction front with
  | nil =>
      exact h.bind fun value hvalue => (yields_any _).map fun texts _ =>
        .of_mem (hvalue.behind _) List.mem_cons_self
  | cons s rest ih =>
      cases s with
      | sub q' other =>
          refine (yields_any _).bind fun value _ => ih.map fun texts htexts => ?_
          have hfirst : Marked [letMark other] [letMark other ++ value] := fun mark hmark =>
            ⟨_, List.mem_cons_self, List.mem_singleton.mp hmark ▸ stands_letMark value⟩
          exact htexts.behind hfirst
      | _ => exact ih

/-- A statement is put together from its loops, its groups and the clauses behind them. -/
theorem yields_simple_parts {pl ph pq : List String → Prop} {pc : Option Collected → Prop}
    (hl : (loops cl).Yields pl) (hc : (collect cl).Yields pc)
    (hh : ∀ collected, pc collected → (filter (scopeAfter cl collected) cl.havings).Yields ph)
    (hq : (selectedQueries cl.columns).Yields pq) :
    (simpleStatement cl).Yields fun aql => ∃ loops collected havings queries,
      pl loops ∧ pc collected ∧ ph havings ∧ pq queries ∧
      aql = " ".intercalate (loops ++ ((collected.map Collected.clause).toList ++ (havings ++
        (sortIn (scopeAfter cl collected) cl.orders ++ (limitText cl.limit cl.offset ++ (queries ++
        [returnText cl (scopeAfter cl collected)
          ((collected.map Collected.keys).getD [])])))))) := by
  refine hl.bind fun loops hl => hc.bind fun collected hc => (hh collected hc).bind ?_
  refine fun havings hh => hq.map fun queries hq =>
    ⟨loops, collected, havings, queries, hl, hc, hh, hq, ?_⟩
  simp only [List.append_assoc]
  rfl

/-- A column that orders the rows stands in one of the pieces of the order. -/
theorem stands_sorted {name : String} {direction : Direction} {orders : List Order}
    (h : .column name direction ∈ orders) : StandsIn [] (sc.resolve name) (sortIn sc orders) := by
  unfold sortIn
  cases orders with
  | nil => cases h
  | cons first rest =>
      refine .of_mem (Stands.behind (Stands.listed ?_ (List.mem_map.mpr ⟨_, h, rfl⟩)) _)
        List.mem_cons_self
      exact ((Stands.refl (sc.resolve name)).before _).before _

end statements

end Aql

end AqlBuilder

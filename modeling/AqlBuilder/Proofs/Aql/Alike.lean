import AqlBuilder.Proofs.Aql.Behind
import AqlBuilder.Proofs.Column.Imported
import AqlBuilder.Query.Clause

/-!
# Statements in other registries

The grammar looks at a registry only to write a column or the documents of a collection. So a
statement is the same in every registry in which the query reads alike, be it one with further
collections, from which its columns and its collections keep apart, or one with other names in the
projection. Groups of conditions, joins and sub-queries have registries of their own, and their
columns do not count.

- `Clauses.columnNames` and `Clauses.documentTables`: what the clauses of a query name.
- `Test.text_congr` and its neighbours: texts depend on how the columns in them are written.
- `Clauses.ReadsAlike`: the columns are written alike, also behind the groups.
- `Aql.statement_alike`: so the statement is the same.
- `Aql.readsAlike_withTables`: queries beside further collections.
-/

namespace AqlBuilder

open Outcome

/-- The column of an operand. -/
def Bound.columns : Bound → List String
  | .column name => [name]
  | _ => []

/-- The column that orders. -/
def Order.columns : Order → List String
  | .column name _ => [name]
  | _ => []

/-- The column of a key. -/
def GroupKey.columns : GroupKey → List String
  | .column name => [name]
  | .raw _ => []

/-- The columns of a search. -/
def Search.columns (s : Search) : List String :=
  s.fields ++ s.text.columns ++ s.analyzer.columns

section names

variable {P Q : Type}

/-- The columns of a test, without those of its query. -/
def Test.columns : Test Q → List String
  | .compare c _ v => c :: v.columns
  | .between c low high _ => c :: (low.columns ++ high.columns)
  | .member c v _ => c :: v.columns
  | .memberOf c _ _ => [c]
  | .memberOfQuery c _ _ => [c]
  | .isNull c _ => [c]
  | .compareColumns a _ b => [a, b]
  | .compareQuery c _ _ => [c]
  | .hasRows _ _ => []
  | .nested _ => []
  | .raw _ => []
  | .contains c v _ _ => c :: v.columns
  | .length c _ v => c :: v.columns
  | .date _ c _ v => c :: v.columns
  | .bits c _ v => c :: v.columns

/-- The column of a definition. -/
def Definition.columns : Definition Q → List String
  | .bound b => b.columns
  | .query _ => []

/-- The collection whose documents are selected, if it is named. -/
def Selector.documents? : Selector Q → Option String
  | .documents table => if table.isEmpty then none else some table
  | _ => none

/-- The columns in the clauses of a query, without those of the queries inside. -/
def Clauses.columnNames (c : Clauses Q) : List String :=
  c.definitions.flatMap (fun v => v.value.columns) ++ c.search.toList.flatMap Search.columns
    ++ c.filters.flatMap (fun x => x.test.columns) ++ c.groups.flatMap GroupKey.columns
    ++ c.aggregate.toList.flatMap (fun a => a.column.toList)
    ++ c.columns.filterMap Selector.column? ++ c.havings.flatMap (fun x => x.test.columns)
    ++ c.orders.flatMap Order.columns

/-- The collections whose documents a query selects. -/
def Clauses.documentTables (c : Clauses Q) : List String := c.columns.filterMap Selector.documents?

/-- The query with other names. -/
def Clauses.withAliases (c : Clauses Q) (r : Registry) : Clauses Q := { c with aliases := r }

/-- The query with other collections in its registry. -/
def Clauses.withTables (c : Clauses Q) (tables : Entries String) : Clauses Q :=
  { c with aliases := c.aliases.withTables tables }

/-- A registry in which a query reads alike: its columns are written as in its own registry,
whatever its groups announce, and the collections whose documents it selects have the same
variables. -/
structure Clauses.ReadsAlike (c : Clauses Q) (r : Registry) : Prop where
  columns : ∀ column ∈ c.columnNames, ∀ announced,
    (⟨r.announce announced, c.docVar⟩ : Scope).resolve column =
      (⟨c.aliases.announce announced, c.docVar⟩ : Scope).resolve column
  documents : ∀ table ∈ c.documentTables, r.tableVariable? table = c.aliases.tableVariable? table

/-- A query whose clauses name nothing that only further registries have. -/
structure Clauses.Apart (c : Clauses Q) (known : List Registry) : Prop where
  columns : ∀ column ∈ c.columnNames, c.aliases.Apart known column
  documents : ∀ table ∈ c.documentTables, ¬ c.aliases.Foreign known table

theorem Test.columns_map (f : P → Q) (t : Test P) : (t.map f).columns = t.columns := by
  cases t <;> rfl

theorem Definition.columns_map (f : P → Q) (d : Definition P) : (d.map f).columns = d.columns := by
  cases d <;> rfl

/-- The columns of a query do not depend on the queries inside of it. -/
theorem Clauses.columnNames_map (f : P → Q) (c : Clauses P) :
    (c.map f).columnNames = c.columnNames := by
  have hcolumn : ∀ s : Selector P, (s.map f).column? = s.column? := fun s => by cases s <;> rfl
  simp only [columnNames, map, List.flatMap_map, List.filterMap_map, Function.comp_def,
    LetVariable.map, Condition.map, Test.columns_map, Definition.columns_map, hcolumn]

/-- The collections whose documents are selected do not depend on the queries inside of a query. -/
theorem Clauses.documentTables_map (f : P → Q) (c : Clauses P) :
    (c.map f).documentTables = c.documentTables := by
  have htable : ∀ s : Selector P, (s.map f).documents? = s.documents? :=
    fun s => by cases s <;> rfl
  simp only [documentTables, map, List.filterMap_map, Function.comp_def, htable]

/-- Whether a query keeps apart from registries does not depend on the queries inside of it. -/
theorem Clauses.Apart.map {c : Clauses P} {known : List Registry} (h : c.Apart known) (f : P → Q) :
    (c.map f).Apart known where
  columns column hcolumn := h.columns column (c.columnNames_map f ▸ hcolumn)
  documents table htable := h.documents table (c.documentTables_map f ▸ htable)

end names

section congruence

variable {sc sc' : Scope}

/-- A bound value is written alike where its columns are. -/
theorem Bound.text_congr {b : Bound} (h : ∀ c ∈ b.columns, sc'.resolve c = sc.resolve c) :
    b.text sc' = b.text sc := by
  cases b with
  | column name => exact h name List.mem_cons_self
  | _ => rfl

/-- A test is written alike in two scopes that write its columns alike. -/
theorem Test.text_congr {t : Test Fragment} (h : ∀ c ∈ t.columns, sc'.resolve c = sc.resolve c) :
    t.text sc' = t.text sc := by
  -- The first column of a test, and the operands behind it.
  have hfirst : ∀ {c : String} {rest : List String}, t.columns = c :: rest →
      sc'.resolve c = sc.resolve c := fun heq => h _ (heq ▸ List.mem_cons_self)
  have hvalue : ∀ {c : String} {v : Bound}, t.columns = c :: v.columns →
      v.text sc' = v.text sc :=
    fun heq => Bound.text_congr fun c hc => h c (heq ▸ List.mem_cons_of_mem _ hc)
  cases t with
  | compare c o v => simp only [text, hfirst rfl, hvalue rfl]
  | between c low high n =>
      have hlow : low.text sc' = low.text sc := Bound.text_congr fun x hx =>
        h x (List.mem_cons_of_mem c (List.mem_append_left _ hx))
      have hhigh : high.text sc' = high.text sc := Bound.text_congr fun x hx =>
        h x (List.mem_cons_of_mem c (List.mem_append_right _ hx))
      simp only [text, hfirst rfl, hlow, hhigh]
  | compareColumns a o b =>
      have hsecond := h b (List.mem_cons_of_mem a List.mem_cons_self)
      simp only [text, hfirst rfl, hsecond]
  | member c v n => simp only [text, hfirst rfl, hvalue rfl]
  | contains c v all n => simp only [text, hfirst rfl, hvalue rfl]
  | length c o v => simp only [text, hfirst rfl, hvalue rfl]
  | date part c o v => simp only [text, hfirst rfl, hvalue rfl]
  | bits c o v => simp only [text, hfirst rfl, hvalue rfl]
  | memberOf c v n => simp only [text, hfirst rfl]
  | memberOfQuery c q n => simp only [text, hfirst rfl]
  | isNull c n => simp only [text, hfirst rfl]
  | compareQuery c o q => simp only [text, hfirst rfl]
  | hasRows q n => rfl
  | nested q => rfl
  | raw aql => rfl

namespace Aql

/-- Further conditions are written alike where their columns are. -/
theorem furtherConditions_congr {list : List (Condition Fragment)}
    (h : ∀ c ∈ list.flatMap (fun x => x.test.columns), sc'.resolve c = sc.resolve c) :
    furtherConditions sc' list = furtherConditions sc list := by
  induction list with
  | nil => rfl
  | cons condition rest ih =>
      rw [List.flatMap_cons] at h
      rw [furtherConditions, furtherConditions,
        Test.text_congr fun c hc => h c (List.mem_append_left _ hc),
        ih fun c hc => h c (List.mem_append_right _ hc)]

/-- A list of conditions is written alike where its columns are. -/
theorem conditions_congr {list : List (Condition Fragment)}
    (h : ∀ c ∈ list.flatMap (fun x => x.test.columns), sc'.resolve c = sc.resolve c) :
    conditions sc' list = conditions sc list := by
  cases list with
  | nil => rfl
  | cons condition rest =>
      rw [List.flatMap_cons] at h
      rw [conditions, conditions, Test.text_congr fun c hc => h c (List.mem_append_left _ hc),
        furtherConditions_congr fun c hc => h c (List.mem_append_right _ hc)]

/-- A filter is written alike where its columns are. -/
theorem filter_congr {list : List (Condition Fragment)}
    (h : ∀ c ∈ list.flatMap (fun x => x.test.columns), sc'.resolve c = sc.resolve c) :
    filter sc' list = filter sc list := by
  rw [filter, filter, conditions_congr h]

/-- A query variable is written alike where its columns are. -/
theorem definition_congr {v : LetVariable Fragment}
    (h : ∀ c ∈ v.value.columns, sc'.resolve c = sc.resolve c) :
    definition sc' v = definition sc v := by
  obtain ⟨name, value⟩ := v
  cases value with
  | bound b =>
      have hvalue : b.text sc' = b.text sc := Bound.text_congr h
      simp only [definition, hvalue]
  | query q => rfl

/-- A search is written alike where its columns are. -/
theorem searchText_congr {s : Search} (h : ∀ c ∈ s.columns, sc'.resolve c = sc.resolve c) :
    searchText sc' s = searchText sc s := by
  simp only [Search.columns, List.mem_append] at h
  have htext : s.text.text sc' = s.text.text sc :=
    Bound.text_congr fun c hc => h c (Or.inl (Or.inr hc))
  have hanalyzer : s.analyzer.text sc' = s.analyzer.text sc :=
    Bound.text_congr fun c hc => h c (Or.inr hc)
  have hfields : s.fields.map (fun field => sc'.resolve field ++ " IN TOKENS(" ++ s.text.text sc
        ++ ", " ++ s.analyzer.text sc ++ ")") =
      s.fields.map (fun field => sc.resolve field ++ " IN TOKENS(" ++ s.text.text sc
        ++ ", " ++ s.analyzer.text sc ++ ")") :=
    List.map_congr_left fun field hfield => by rw [h field (Or.inl (Or.inl hfield))]
  unfold searchText
  rw [htext, hanalyzer]
  exact congrArg (fun texts => "SEARCH ANALYZER(" ++ " OR ".intercalate texts ++ ", "
    ++ s.analyzer.text sc ++ ")") hfields

/-- Orders are written alike where their columns are. -/
theorem sortText_congr {resolve resolve' : String → String} {docVar : String} {orders : List Order}
    (h : ∀ c ∈ orders.flatMap Order.columns, resolve' c = resolve c) :
    sortText resolve' docVar orders = sortText resolve docVar orders := by
  have hcriteria : orders.map (criterion resolve' docVar) =
      orders.map (criterion resolve docVar) := by
    refine List.map_congr_left fun order horder => ?_
    cases order with
    | column name direction =>
        have hname := h name (List.mem_flatMap.mpr ⟨_, horder, List.mem_cons_self⟩)
        rw [criterion, criterion, hname]
    | _ => rfl
  cases orders with
  | nil => rfl
  | cons order rest => exact congrArg (fun texts => ["SORT " ++ ", ".intercalate texts]) hcriteria

/-- A key of a group is written alike where its columns are. -/
theorem collectKey_congr {key : GroupKey} (h : ∀ c ∈ key.columns, sc'.resolve c = sc.resolve c) :
    collectKey sc' key = collectKey sc key := by
  cases key with
  | column name => rw [collectKey, collectKey, h name List.mem_cons_self]
  | raw aql => rfl

/-- An aggregate is written alike where its column is. -/
theorem aggregateText_congr {a : Aggregate}
    (h : ∀ c ∈ a.column.toList, sc'.resolve c = sc.resolve c) :
    aggregateText sc' a = aggregateText sc a := by
  obtain ⟨function, column⟩ := a
  cases column with
  | none => cases function <;> rfl
  | some column =>
      have hcolumn := h column List.mem_cons_self
      simp only [aggregateText, hcolumn]

/-- The columns that may be kept in groups are the same where they are written alike. -/
theorem candidates_congr {columns : List (Selector Fragment)}
    (h : ∀ c ∈ columns.filterMap Selector.column?, sc'.resolve c = sc.resolve c) :
    candidates sc' columns = candidates sc columns := by
  refine List.filterMap_congr fun s hs => ?_
  cases s with
  | column name =>
      simp only [h name (List.mem_filterMap.mpr ⟨_, hs, rfl⟩)]
  | aliased name asName =>
      simp only [h name (List.mem_filterMap.mpr ⟨_, hs, rfl⟩)]
  | _ => rfl

/-- A candidate is a column of the projection. -/
theorem column_of_mem_candidates {scope : Scope} {columns : List (Selector Fragment)}
    {k : KeptColumn} (h : k ∈ candidates scope columns) :
    k.column ∈ columns.filterMap Selector.column? := by
  obtain ⟨s, hs, hk⟩ := List.mem_filterMap.mp h
  refine List.mem_filterMap.mpr ⟨s, hs, ?_⟩
  cases s <;> cases hk <;> rfl

/-- Going through a list gives the same if each item does. -/
theorem each_congr {α β : Type} {f g : α → Outcome β} {items : List α}
    (h : ∀ item ∈ items, f item = g item) : each f items = each g items := by
  induction items with
  | nil => rfl
  | cons item rest ih =>
      rw [each, each, h item List.mem_cons_self,
        ih fun i hi => h i (List.mem_cons_of_mem item hi)]

end Aql

end congruence

namespace Aql

variable {c : Clauses Fragment} {r : Registry} {keys : List CollectKey}

section alike

variable (h : c.ReadsAlike r)

include h

theorem resolve_alike {column : String} (hcolumn : column ∈ c.columnNames) :
    (c.withAliases r).scope.resolve column = c.scope.resolve column := h.columns column hcolumn []

/-- The loops of the query are written alike in the other registry. -/
theorem loops_alike : loops (c.withAliases r) = loops c := by
  have hcolumn := fun x (hx : x ∈ c.columnNames) => resolve_alike h hx
  simp only [Clauses.columnNames, List.mem_append] at hcolumn
  have hdefinitions : each (definition (c.withAliases r).scope) c.definitions =
      each (definition c.scope) c.definitions :=
    each_congr fun v hv => definition_congr fun x hx => hcolumn x (by grind)
  have hsearch : c.search.map (searchText (c.withAliases r).scope) =
      c.search.map (searchText c.scope) :=
    Option.map_congr fun s hs => searchText_congr fun x hx => hcolumn x (by grind)
  have hfilters : filter (c.withAliases r).scope c.filters = filter c.scope c.filters :=
    filter_congr fun x hx => hcolumn x (by grind)
  unfold loops
  change (each (definition (c.withAliases r).scope) c.definitions >>= fun definitions =>
    mainLoop c >>= fun main => each joinLoop c.joins >>= fun joins =>
      filter (c.withAliases r).scope c.filters >>= fun filters =>
        pure (definitions ++ [main] ++
          (c.search.map (searchText (c.withAliases r).scope)).toList ++ joins ++ filters)) = _
  rw [hdefinitions, hsearch, hfilters]

/-- The columns that are kept beside the keys. -/
theorem keptColumns_alike : keptColumns (c.withAliases r) keys = keptColumns c keys := by
  have hselected : ∀ x ∈ c.columns.filterMap Selector.column?, x ∈ c.columnNames := by
    intro x hx
    simp only [Clauses.columnNames, List.mem_append]
    grind
  have hcandidates : candidates (c.withAliases r).scope c.columns = candidates c.scope c.columns :=
    candidates_congr fun x hx => resolve_alike h (hselected x hx)
  unfold keptColumns
  change (candidates (c.withAliases r).scope c.columns).filter _ = _
  rw [hcandidates]
  refine List.filter_congr fun k hk => ?_
  have hresolve := h.columns k.column (hselected _ (column_of_mem_candidates hk))
    (keys.map fun key => (key.reference, key.docVar))
  rw [withKeys_eq, withKeys_eq]
  exact congrArg (fun text => !(keys.map CollectKey.docVar).contains text) hresolve

/-- What the groups announce. -/
theorem entries_alike : entries (c.withAliases r) keys = entries c keys := by
  unfold entries
  rw [keptColumns_alike h]
  rfl

/-- What groups keep is written alike in the other registry. -/
theorem collectTail_alike : collectTail (c.withAliases r) keys = collectTail c keys := by
  have haggregate : (c.withAliases r).aggregate = c.aggregate := rfl
  unfold collectTail
  rw [keptColumns_alike h, haggregate]
  cases hcases : c.aggregate with
  | none => rfl
  | some a =>
      have htext : aggregateText (c.withAliases r).scope a = aggregateText c.scope a := by
        refine aggregateText_congr fun x hx => resolve_alike h ?_
        simp only [Clauses.columnNames, List.mem_append]
        grind
      dsimp only
      rw [htext]

/-- A part of the projection. -/
theorem select_alike {announced : Entries String} {s : Selector Fragment} (hs : s ∈ c.columns)
    (p : Projected) : p.select ⟨r.announce announced, c.docVar⟩ s =
      p.select ⟨c.aliases.announce announced, c.docVar⟩ s := by
  have hcolumn : ∀ x ∈ s.column?, (⟨r.announce announced, c.docVar⟩ : Scope).resolve x =
      (⟨c.aliases.announce announced, c.docVar⟩ : Scope).resolve x := by
    intro x hx
    have hmem : x ∈ c.columns.filterMap Selector.column? := List.mem_filterMap.mpr ⟨s, hs, hx⟩
    refine h.columns x ?_ announced
    simp only [Clauses.columnNames, List.mem_append]
    grind
  cases s with
  | column name => rw [Projected.select, Projected.select, hcolumn name rfl]
  | aliased name asName => rw [Projected.select, Projected.select, hcolumn name rfl]
  | documents table =>
      rw [Projected.select, Projected.select]
      by_cases hempty : table.isEmpty
      · rw [if_pos hempty, if_pos hempty]
      · have hnamed : r.tableVariable? table = c.aliases.tableVariable? table :=
          h.documents table (List.mem_filterMap.mpr ⟨_, hs, if_neg hempty⟩)
        change { p with documents := p.documents ++ if table.isEmpty then c.docVar.toList
          else [(r.tableVariable? table).getD table] } = _
        rw [hnamed]
        rfl
  | raw aql asName => cases asName <;> rfl
  | sub q asName => rfl

/-- What follows the groups. -/
theorem finish_alike (announced : Entries String) (names front : List String) :
    finish (c.withAliases r) (r.announce announced) names front =
      finish c (c.aliases.announce announced) names front := by
  have hcolumn := fun x (hx : x ∈ c.columnNames) => h.columns x hx announced
  simp only [Clauses.columnNames, List.mem_append] at hcolumn
  have hhavings : filter ⟨r.announce announced, c.docVar⟩ c.havings =
      filter ⟨c.aliases.announce announced, c.docVar⟩ c.havings :=
    filter_congr fun x hx => hcolumn x (Or.inl (Or.inr hx))
  have hsort : sortIn ⟨r.announce announced, c.docVar⟩ c.orders =
      sortIn ⟨c.aliases.announce announced, c.docVar⟩ c.orders :=
    sortText_congr fun x hx => hcolumn x (Or.inr hx)
  have hreturn : returnText (c.withAliases r) ⟨r.announce announced, c.docVar⟩ names =
      returnText c ⟨c.aliases.announce announced, c.docVar⟩ names := by
    have hselected : ∀ p, c.columns.foldl (Projected.select ⟨r.announce announced, c.docVar⟩) p =
        c.columns.foldl (Projected.select ⟨c.aliases.announce announced, c.docVar⟩) p :=
      fun p => List.foldl_ext _ _ p fun p s hs => select_alike h hs p
    unfold returnText
    rw [← hselected]
    rfl
  unfold finish
  change (filter ⟨r.announce announced, c.docVar⟩ c.havings >>= _) = _
  rw [hhavings]
  refine congrArg (_ >>= ·) (funext fun havings => congrArg (_ >>= ·) (funext fun queries => ?_))
  change pure (" ".intercalate (front ++ havings
    ++ sortIn ⟨r.announce announced, c.docVar⟩ c.orders ++ limitText c.limit c.offset
    ++ queries ++ [returnText (c.withAliases r) ⟨r.announce announced, c.docVar⟩ names])) = _
  rw [hsort, hreturn]

/-- The statement of the query without unions is the same in the other registry. -/
theorem simpleStatement_alike : simpleStatement (c.withAliases r) = simpleStatement c := by
  rw [simpleStatement_eq, simpleStatement_eq, loops_alike h]
  refine congrArg (_ >>= ·) (funext fun loops => ?_)
  by_cases hgrouped : Grouped c
  · have hkeys : each (collectKey (c.withAliases r).scope) c.groups =
        each (collectKey c.scope) c.groups := by
      refine each_congr fun key hkey => collectKey_congr fun x hx => resolve_alike h ?_
      simp only [Clauses.columnNames, List.mem_append]
      grind
    have hsame : Grouped (c.withAliases r) := hgrouped
    rw [collect_of_grouped hgrouped, collect_of_grouped hsame, bind_bind, bind_bind]
    change (each (collectKey (c.withAliases r).scope) c.groups >>= _) = _
    rw [hkeys]
    refine congrArg (_ >>= ·) (funext fun keys => ?_)
    rw [bind_bind, bind_bind, collectTail_alike h]
    refine congrArg (_ >>= ·) (funext fun tail => ?_)
    have hbehind : behind (c.withAliases r) keys = r.announce (entries c keys) := by
      rw [← entries_alike h]
      rfl
    rw [hbehind]
    exact finish_alike h (entries c keys) (keys.map CollectKey.docVar) _
  · have hsame : ¬ Grouped (c.withAliases r) := hgrouped
    rw [collect_of_plain hgrouped, collect_of_plain hsame]
    exact finish_alike h [] [] _

/-- A query has the same statement in a registry in which it reads alike. -/
theorem statement_alike : statement (c.withAliases r) = statement c := by
  have hsimple := simpleStatement_alike h
  have hunions : unionStatement (c.withAliases r) = unionStatement c := by
    unfold unionStatement
    rw [hsimple]
    rfl
  unfold statement
  rw [hsimple, hunions]
  rfl

end alike

/-- A query that keeps apart from the registries whose collections come in reads alike beside
them. -/
theorem readsAlike_withTables {known : List Registry} {tables : Entries String} (h : c.Apart known)
    (hext : Registry.Extends known c.aliases.tables tables) :
    c.ReadsAlike (c.aliases.withTables tables) where
  columns column hcolumn announced := by
    let announcing : Scope := ⟨c.aliases.announce announced, c.docVar⟩
    have hapart : announcing.aliases.Apart known column := (h.columns column hcolumn).of_eq rfl rfl
    exact hapart.resolve_withTables hext
  documents table htable := Registry.tableVariable?_withTables hext (h.documents table htable)

end Aql

end AqlBuilder

import AqlBuilder.Aql.Statement
import AqlBuilder.Proofs.Aql.Quiet
import AqlBuilder.Proofs.Query.Fragment

/-!
# Sub-queries start no modification

Groups and projections go by the same rule as the loops of a query: what they write themselves is no
word that starts a modification. With them a whole statement is without such words, and so is a
sub-query wherever it is put.

- `Aql.quiet_statement`: the statement of a query without keywords whose sub-queries are quiet.
- `Query.Quiet.fragment`: the texts of a query without keywords, at any depth.
-/

namespace AqlBuilder

open Outcome Text

variable {scope : Scope} {c : Clauses Fragment}

namespace Aql

theorem changes_subset : Keywords.changes.words ⊆ Keywords.all.words := by decide

section groups

/-- A key of a grouping without keywords. -/
structure CollectKey.Quiet (key : CollectKey) : Prop where
  docVar : Neutral key.docVar
  expression : Avoids .changes key.expression

/-- A quiet key is collected as a quiet key. -/
theorem quiet_collectKey (hscope : scope.Quiet) {key : GroupKey} (h : key.Quiet) :
    (collectKey scope key).Yields CollectKey.Quiet := by
  cases key with
  | column name =>
      exact yields_pure ⟨⟨Column.solid_attributeName h.1, h.2⟩, (hscope.resolve h.1).changes⟩
  | raw aql =>
      simp only [collectKey]
      cases hcut : cutAt '=' aql.toList with
      | none => exact yields_fail _
      | some parts =>
          obtain ⟨hname, hexpression⟩ := h parts.1 parts.2 hcut
          exact yields_pure ⟨hname, hexpression⟩

/-- An aggregate of a column without blanks starts no modification. -/
theorem quiet_aggregateText (hscope : scope.Quiet) {a : Aggregate}
    (h : ∀ column ∈ a.column, Column.Unbroken column) :
    (aggregateText scope a).Yields (Avoids .changes) := by
  obtain ⟨function, column⟩ := a
  cases column with
  | none =>
      cases function with
      | count => exact yields_pure (by decide)
      | _ => exact yields_fail _
  | some column =>
      have hcolumn := (hscope.resolve (h column rfl)).changes
      have hopen : Precedes .changes
          ("AGGREGATE " ++ aggregateVariable ++ " = " ++ function.text ++ "(").toList := by
        cases function <;> decide
      exact yields_pure ((hcolumn.behind hopen).before follows_close)

/-- A selected column without keywords. -/
structure KeptColumn.Quiet (k : KeptColumn) : Prop where
  key : Solid k.key.toList
  expression : Avoids .changes k.expression

/-- The columns that may be kept in groups are quiet if the selected columns are. -/
theorem quiet_candidates (hscope : scope.Quiet) {columns : List (Selector Fragment)}
    (h : ∀ s ∈ columns, s.Quiet) : ∀ k ∈ candidates scope columns, k.Quiet := by
  intro k hk
  obtain ⟨selector, hselector, hkept⟩ := List.mem_filterMap.mp hk
  have hquiet := h selector hselector
  cases selector with
  | column name =>
      cases hkept
      exact ⟨Column.solid_attributeName hquiet, (hscope.resolve hquiet).changes⟩
  | aliased name asName =>
      cases hkept
      exact ⟨hquiet.2, (hscope.resolve hquiet.1).changes⟩
  | documents table => cases hkept
  | raw aql asName => cases hkept
  | sub q asName => cases hkept

/-- A quiet registry stays quiet if quiet keys are announced. -/
theorem quiet_withKeys {aliases : Registry} (haliases : aliases.Quiet) {keys : List CollectKey}
    (h : ∀ key ∈ keys, key.Quiet) : (withKeys aliases keys).Quiet := by
  induction keys generalizing aliases with
  | nil => exact haliases
  | cons key rest ih =>
      have hkey := h key List.mem_cons_self
      exact ih (haliases.registerVariable key.reference hkey.docVar.avoids)
        fun k hk => h k (List.mem_cons_of_mem key hk)

/-- A quiet registry stays quiet if kept columns are announced. -/
theorem quiet_withKept {aliases : Registry} (haliases : aliases.Quiet) {kept : List KeptColumn}
    (h : ∀ k ∈ kept, k.Quiet) : (withKept aliases kept).Quiet := by
  induction kept generalizing aliases with
  | nil => exact haliases
  | cons first rest ih =>
      have hfirst := h first List.mem_cons_self
      have hopen : Precedes .all (groupsVariable ++ "[*].").toList := by decide
      have hexpression : Avoids .all
          (groupsVariable ++ "[*]." ++ Column.attributeText first.key.toList) :=
        (Column.avoids_attributeText hfirst.key).behind hopen
      exact ih (haliases.registerVariable (dotted first.column) hexpression)
        fun k hk => h k (List.mem_cons_of_mem first hk)

/-- The clause with quiet keys starts no modification. -/
theorem avoids_collectText {keys : List CollectKey} (h : ∀ key ∈ keys, key.Quiet) :
    Avoids .changes (collectText keys) := by
  have hequals : Divides .changes " = ".toList := by decide
  unfold collectText
  split
  · decide
  · refine Avoids.behind (avoids_intercalate divides_comma fun text htext => ?_) (by decide)
    obtain ⟨key, hkey, rfl⟩ := List.mem_map.mp htext
    exact (h key hkey).docVar.changes.divided (h key hkey).expression hequals

/-- A grouping without keywords. -/
structure Collected.Quiet (collected : Collected) : Prop where
  clause : Avoids .changes collected.clause
  keys : ∀ key ∈ collected.keys, Neutral key
  aliases : collected.aliases.Quiet

/-- The variables of quiet keys are neutral. -/
theorem neutral_keys {keys : List CollectKey} (h : ∀ key ∈ keys, key.Quiet) :
    ∀ name ∈ keys.map CollectKey.docVar, Neutral name :=
  List.forall_mem_map.mpr fun key hkey => (h key hkey).docVar

/-- The object of quiet columns starts no modification. -/
theorem avoids_keptObject {kept : List KeptColumn} (h : ∀ k ∈ kept, k.Quiet) :
    Avoids .changes (objectLiteral (kept.map fun k => (k.key, k.expression))) := by
  refine avoids_objectLiteral changes_subset fun entry hentry => ?_
  obtain ⟨k, hk, rfl⟩ := List.mem_map.mp hentry
  exact ⟨(h k hk).key, (h k hk).expression⟩

/-- What is collected for a quiet query is quiet. -/
theorem quiet_collect (h : c.Quiet) : (collect c).Yields fun collected =>
    ∀ g ∈ collected, g.Quiet := by
  have hscope : c.scope.Quiet := h.scope h.aliases
  refine yields_of_collect (fun key hkey => quiet_collectKey hscope (h.groups key hkey)) ?_ ?_ ?_
  · intro keys hkeys a ha
    refine (quiet_aggregateText hscope (h.aggregate a ha)).mono fun text haggregate => ?_
    exact ⟨(avoids_collectText hkeys).divided haggregate divides_blank, neutral_keys hkeys,
      (quiet_withKeys h.aliases hkeys).registerVariable aggregateVariable (by decide)⟩
  · exact fun keys hkeys => ⟨avoids_collectText hkeys, neutral_keys hkeys,
      quiet_withKeys h.aliases hkeys⟩
  · intro keys hkeys kept hsubset
    have hkept : ∀ k ∈ kept, k.Quiet := fun k hk =>
      quiet_candidates hscope h.columns k (hsubset hk)
    refine ⟨?_, neutral_keys hkeys, quiet_withKept (quiet_withKeys h.aliases hkeys) hkept⟩
    have hinto : Avoids .changes (groupsVariable ++ " = "
        ++ objectLiteral (kept.map fun k => (k.key, k.expression))) :=
      (avoids_keptObject hkept).behind (by decide)
    have hclause := (avoids_collectText hkeys).divided hinto
      (by decide : Divides .changes " INTO ".toList)
    simp only [← String.append_assoc] at hclause ⊢
    exact hclause

end groups

section projection

/-- A projection without keywords. -/
structure Projected.Quiet (p : Projected) : Prop where
  documents : ∀ document ∈ p.documents, Avoids .changes document
  attributes : ∀ field ∈ p.attributes, Solid field.1.toList ∧ Avoids .changes field.2

variable {p : Projected}

/-- Where nothing is selected, what a quiet query returns is quiet. -/
theorem quiet_unselected (h : c.Quiet) (hjoins : ∀ j ∈ c.joins, j.query.Quiet) {keys : List String}
    (hkeys : ∀ key ∈ keys, Neutral key) : (unselected c keys).Quiet := by
  have hscope : c.scope.Quiet := h.scope h.aliases
  unfold unselected
  split
  · exact ⟨fun _ hd => (List.not_mem_nil hd).elim, fun _ ha => (List.not_mem_nil ha).elim⟩
  · split
    · refine ⟨fun document hdocument => ?_, fun _ ha => (List.not_mem_nil ha).elim⟩
      rcases List.mem_append.mp hdocument with hvar | hjoin
      · exact (hscope.docVar document (Option.mem_toList.mp hvar)).changes
      · obtain ⟨j, hj, rfl⟩ := List.mem_map.mp hjoin
        exact (hjoins j hj).neutral_docVar.changes
    · refine ⟨fun _ hd => (List.not_mem_nil hd).elim, fun field hfield => ?_⟩
      obtain ⟨key, hkey, rfl⟩ := List.mem_map.mp hfield
      exact ⟨(hkeys key hkey).solid, (hkeys key hkey).changes⟩

/-- A quiet projection stays quiet if quiet documents are added to it. -/
theorem Projected.Quiet.withDocuments (h : p.Quiet) {documents : List String}
    (hdocuments : ∀ document ∈ documents, Avoids .changes document) :
    Quiet { p with documents := p.documents ++ documents } := by
  refine ⟨fun document hdocument => ?_, h.attributes⟩
  rcases List.mem_append.mp hdocument with hold | hnew
  · exact h.documents document hold
  · exact hdocuments document hnew

/-- A quiet projection stays quiet if a quiet attribute is added to it. -/
theorem Projected.Quiet.withAttribute (h : p.Quiet) {key expression : String}
    (hkey : Solid key.toList) (hexpression : Avoids .changes expression) :
    Quiet { p with attributes := p.attributes ++ [(key, expression)] } := by
  refine ⟨h.documents, fun field hfield => ?_⟩
  rcases List.mem_append.mp hfield with hold | hnew
  · exact h.attributes field hold
  · rw [List.mem_singleton.mp hnew]
    exact ⟨hkey, hexpression⟩

/-- A quiet projection stays quiet if a quiet column is selected. -/
theorem Projected.Quiet.select (h : p.Quiet) (hscope : scope.Quiet) {selector : Selector Fragment}
    (hselector : selector.Quiet) : (p.select scope selector).Quiet := by
  cases selector with
  | column name =>
      exact h.withAttribute (Column.solid_attributeName hselector)
        (hscope.resolve hselector).changes
  | aliased name asName => exact h.withAttribute hselector.2 (hscope.resolve hselector.1).changes
  | documents table =>
      refine h.withDocuments fun document hdocument => ?_
      split at hdocument
      · exact (hscope.docVar document (Option.mem_toList.mp hdocument)).changes
      · rw [List.mem_singleton.mp hdocument]
        cases hv : scope.aliases.tableVariable? table with
        | some v => exact (hscope.aliases.tableVariable? hv).changes
        | none => exact Avoids.changes hselector
  | raw aql asName =>
      cases asName with
      | some asName => exact h.withAttribute (hselector.2 asName rfl) hselector.1
      | none =>
          refine h.withDocuments fun document hdocument => ?_
          rw [List.mem_singleton.mp hdocument]
          exact hselector.1
  | sub q asName =>
      have hname : Neutral asName := hselector
      exact h.withAttribute hname.solid hname.changes

/-- A quiet projection stays quiet if quiet columns are selected. -/
theorem Projected.Quiet.selectAll (h : p.Quiet) (hscope : scope.Quiet)
    {columns : List (Selector Fragment)} (hcolumns : ∀ s ∈ columns, s.Quiet) :
    (columns.foldl (Projected.select scope) p).Quiet := by
  induction columns generalizing p with
  | nil => exact h
  | cons first rest ih =>
      exact ih (h.select hscope (hcolumns first List.mem_cons_self))
        fun s hs => hcolumns s (List.mem_cons_of_mem first hs)

/-- A quiet projection starts no modification. -/
theorem Projected.Quiet.avoids_text (h : p.Quiet) : Avoids .changes p.text := by
  have hobject := avoids_objectLiteral changes_subset h.attributes
  have hdocuments := h.documents
  have hmerge : Precedes .changes "MERGE(".toList := by decide
  unfold Projected.text
  split
  · exact hobject
  · rename_i document hp
    rw [hp] at hdocuments
    have hdocument := hdocuments document List.mem_cons_self
    split
    · exact hdocument
    · exact ((hdocument.behind hmerge).divided hobject divides_comma).before follows_close
  · refine ((avoids_intercalate divides_comma fun document hdocument => ?_).behind hmerge).before
      follows_close
    split at hdocument
    · exact hdocuments document hdocument
    · rcases List.mem_append.mp hdocument with hold | hnew
      · exact hdocuments document hold
      · rw [List.mem_singleton.mp hnew]
        exact hobject

/-- A quiet projection starts no modification where it is used as a value. -/
theorem Projected.Quiet.avoids_valueText (h : p.Quiet) (singleValue : Bool) :
    Avoids .changes (p.valueText singleValue) := by
  have htext := h.avoids_text
  have hattributes := h.attributes
  unfold Projected.valueText
  split
  · rename_i key expression hnone hone
    rw [hone] at hattributes
    split
    · exact (hattributes (key, expression) List.mem_cons_self).2
    · exact htext
  · exact htext

/-- The last clause of a quiet query starts no modification. -/
theorem avoids_returnText (h : c.Quiet) (hjoins : ∀ j ∈ c.joins, j.query.Quiet)
    (hscope : scope.Quiet) {keys : List String} (hkeys : ∀ key ∈ keys, Neutral key) :
    Avoids .changes (returnText c scope keys) := by
  have hprojected := (quiet_unselected h hjoins hkeys).selectAll hscope h.columns
  unfold returnText
  split
  · decide
  · refine (hprojected.avoids_valueText _).behind ?_
    split <;> decide

end projection

section statement

/-- Selected queries start no modification if they are quiet. -/
theorem quiet_selectedQueries {columns : List (Selector Fragment)} (h : ∀ s ∈ columns, s.Quiet)
    (hqueries : ∀ f ∈ columns.flatMap Selector.queries, f.Quiet) :
    (selectedQueries columns).Yields fun texts => ∀ text ∈ texts, Avoids .changes text := by
  have hequals : Divides .changes " = ".toList := by decide
  induction columns with
  | nil => exact yields_pure fun text htext => by cases htext
  | cons column rest ih =>
      rw [List.flatMap_cons] at hqueries
      have hrest := ih (fun s hs => h s (List.mem_cons_of_mem column hs))
        fun f hf => hqueries f (List.mem_append_right _ hf)
      cases column with
      | sub q asName =>
          have hname : Neutral asName := h _ List.mem_cons_self
          have hopen : Avoids .changes ("LET " ++ asName) := hname.changes.behind (by decide)
          have hq := hqueries q (List.mem_append_left _ List.mem_cons_self)
          refine hq.value.bind fun value hvalue => hrest.map fun rest hrest text htext => ?_
          rcases List.mem_cons.mp htext with rfl | htext
          · exact hopen.divided hvalue hequals
          · exact hrest text htext
      | _ => exact hrest

/-- Combined rows start no modification if none of the queries does. -/
theorem quiet_combined {rows : String} (hrows : Avoids .changes rows)
    {unions : List (UnionBranch Fragment)} (h : ∀ u ∈ unions, u.query.Quiet) :
    (combined rows unions).Yields (Avoids .changes) := by
  induction unions generalizing rows with
  | nil => exact yields_pure hrows
  | cons branch rest ih =>
      refine (h branch List.mem_cons_self).embedded.bind fun others hothers => ?_
      refine ih ?_ fun u hu => h u (List.mem_cons_of_mem branch hu)
      have hfunction : Precedes .changes
          ((if branch.all then "UNION" else "UNION_DISTINCT") ++ "(").toList := by
        split <;> decide
      exact ((hrows.behind hfunction).divided hothers divides_comma).before follows_close

variable (h : c.Quiet) (hqueries : ∀ f ∈ c.queries, f.Quiet)

include hqueries

/-- The joins of a quiet query are quiet. -/
theorem quiet_joins : ∀ j ∈ c.joins, j.query.Quiet := by
  intro j hj
  refine hqueries j.query ?_
  simp only [Clauses.queries, List.mem_append, List.mem_map]
  grind

include h

/-- The main loop of a quiet query starts no modification. -/
theorem quiet_mainLoop : (mainLoop c).Yields (Avoids .changes) := by
  unfold mainLoop
  have hsource := h.source
  cases hs : c.source with
  | none => exact yields_fail _
  | some s =>
      obtain ⟨hvar, htext⟩ := quiet_sourceText h.tablePrefix (hsource s hs) fun f hf =>
        hqueries f (by simp [Clauses.queries, hs, hf])
      exact htext.map fun _ hsource => avoids_loop hvar hsource

/-- The loops of a query without keywords. -/
theorem quiet_loops : (loops c).Yields fun texts => ∀ text ∈ texts, Avoids .changes text := by
  have hscope : c.scope.Quiet := h.scope h.aliases
  have hmain := quiet_mainLoop h hqueries
  have hjoins := quiet_joins hqueries
  simp only [Clauses.queries, List.mem_append] at hqueries
  refine (yields_each fun v hv => quiet_definition (h.definitions v hv).1 (h.definitions v hv).2
    (fun f hf => hqueries f (by grind)) hscope).bind fun definitions hdefinitions => ?_
  refine hmain.bind fun main hmain => ?_
  refine (yields_each fun j hj => quiet_joinLoop (hjoins j hj)).bind fun joins hjoins => ?_
  refine (quiet_filter h.filters (fun f hf => hqueries f (by grind)) hscope).map
    fun filters hfilters text htext => ?_
  simp only [List.mem_append, List.mem_singleton] at htext
  rcases htext with (((hd | rfl) | hs) | hj) | hf
  · exact hdefinitions text hd
  · exact hmain
  · obtain ⟨search, hsearch, rfl⟩ := Option.map_eq_some_iff.mp (Option.mem_toList.mp hs)
    exact avoids_searchText (h.search search hsearch) hscope
  · exact hjoins text hj
  · exact hfilters text hf

/-- The statement of a quiet query starts no modification, without its unions. -/
theorem quiet_simpleStatement : (simpleStatement c).Yields (Avoids .changes) := by
  have hloops := quiet_loops h hqueries
  have hjoins := quiet_joins hqueries
  simp only [Clauses.queries, List.mem_append] at hqueries
  refine hloops.bind fun loops hloops => (quiet_collect h).bind fun collected hcollected => ?_
  have hscope : (Scope.mk ((collected.map Collected.aliases).getD c.aliases) c.docVar).Quiet := by
    refine h.scope ?_
    cases collected with
    | none => exact h.aliases
    | some g => exact (hcollected g rfl).aliases
  have hkeys : ∀ key ∈ (collected.map Collected.keys).getD [], Neutral key := by
    cases collected with
    | none => exact fun key hkey => by cases hkey
    | some g => exact (hcollected g rfl).keys
  refine (quiet_filter h.havings (fun f hf => hqueries f (by grind)) hscope).bind
    fun havings hhavings => ?_
  refine (quiet_selectedQueries h.columns fun f hf => hqueries f (by grind)).map
    fun queries hselected => ?_
  refine avoids_intercalate divides_blank fun text htext => ?_
  simp only [List.mem_append, List.mem_singleton] at htext
  rcases htext with (((((hl | hg) | hh) | ho) | hlimit) | hq) | rfl
  · exact hloops text hl
  · obtain ⟨g, hgroup, rfl⟩ := Option.map_eq_some_iff.mp (Option.mem_toList.mp hg)
    exact (hcollected g hgroup).clause
  · exact hhavings text hh
  · exact avoids_sortIn hscope h.orders text ho
  · exact avoids_limitText c.limit c.offset text hlimit
  · exact hselected text hq
  · exact avoids_returnText h hjoins hscope hkeys

/-- The statement of a quiet query with unions starts no modification. -/
theorem quiet_unionStatement : (unionStatement c).Yields (Avoids .changes) := by
  have hvar : Neutral unionVariable := ⟨by decide, by decide⟩
  have hunions : ∀ u ∈ c.unions, u.query.Quiet := by
    intro u hu
    refine hqueries u.query ?_
    simp only [Clauses.queries, List.mem_append, List.mem_map]
    grind
  refine (quiet_simpleStatement h hqueries).bind fun first hfirst => ?_
  have hrows : Avoids .changes ("(" ++ first ++ ")") :=
    (hfirst.behind (by decide)).before follows_close
  refine (quiet_combined hrows hunions).map fun rows hrows => ?_
  refine avoids_intercalate divides_blank fun text htext => ?_
  simp only [List.mem_append, List.mem_singleton] at htext
  rcases htext with ((rfl | ho) | hl) | rfl
  · exact avoids_loop hvar hrows
  · refine avoids_sortText (fun column hcolumn => ?_) hvar.changes h.unionOrders text ho
    split
    · exact (Column.avoids_onDocument hvar.solid hcolumn).changes
    · exact (Column.avoids_onRow hvar.solid hcolumn).changes
  · exact avoids_limitText c.unionLimit c.unionOffset text hl
  · exact (by decide : Avoids .changes ("RETURN " ++ unionVariable))

/-- The statement of a query without keywords whose sub-queries are quiet. -/
theorem quiet_statement : (statement c).Yields (Avoids .changes) := by
  unfold statement
  split
  · exact quiet_simpleStatement h hqueries
  · exact quiet_unionStatement h hqueries

/-- A quiet query with a statement that starts no modification is a quiet fragment. -/
theorem quiet_fragment {statement : Outcome String}
    (hstatement : statement.Yields (Avoids .changes)) : (fragment c statement).Quiet where
  statement := hstatement
  conditions := by
    simp only [Clauses.queries, List.mem_append] at hqueries
    exact quiet_conditions h.filters (fun f hf => hqueries f (by grind)) (h.scope h.aliases)
  source s hs := by
    obtain ⟨source, hsource, rfl⟩ := Option.map_eq_some_iff.mp hs
    exact quiet_sourceText h.tablePrefix (h.source source hsource) fun f hf =>
      hqueries f (by simp [Clauses.queries, hsource, hf])

end statement

end Aql

variable {b : Builder}

/-- **Selecting starts no modification.** No text of a query without keywords has a word that starts
one, whatever sub-queries it has. -/
theorem Query.Quiet.fragment {q : Query} (h : q.Quiet) : q.fragment.Quiet := by
  induction h with
  | of hclauses _ ih =>
      rename_i c _
      have hqueries : ∀ f ∈ (c.map Query.fragment).queries, f.Quiet := by
        rw [Clauses.queries_map]
        intro f hf
        obtain ⟨q, hq, rfl⟩ := List.mem_map.mp hf
        exact ih q hq
      have hquiet := Clauses.quiet_map Query.fragment hclauses
      rw [fragment_of, fragmentOver]
      exact Aql.quiet_fragment hquiet hqueries fun n a ha =>
        Aql.quiet_statement hquiet hqueries _ a ha

end AqlBuilder

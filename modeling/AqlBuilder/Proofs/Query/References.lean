import AqlBuilder.Proofs.Aql.Marks
import AqlBuilder.Proofs.Query.Fragment

/-!
# What a query refers to

The statement of a query refers to the names of its clauses, and those of a sub-query are names of
the clauses around it. A copy refers to the same names as the original, for both have the same
texts.

- `Aql.yields_statement`: the references of a statement are among the names of its clauses.
- `Query.within_of`: a query refers to what its clauses refer to.
- `Builder.within_copyOf`, `Builder.within_workingCopy`: so do its copies.
-/

namespace AqlBuilder

open Outcome

variable {names kept all : Set String}

namespace Aql

variable {c : Clauses Fragment}

/-- The loops of a query refer to the names that it is within. -/
theorem yields_loops (h : c.Within Fragment.Within names names) :
    (loops c).Yields fun texts => ∀ text ∈ texts, Covered names text := by
  have hscope : c.scope.Clean := scope_clean h.source h.aliases
  have hmain : (mainLoop c).Yields (Covered names) := by
    unfold mainLoop
    have hsource := h.source
    cases hs : c.source with
    | none => exact yields_fail _
    | some s =>
        obtain ⟨hvar, htext⟩ := yields_sourceText h.tablePrefix (hsource s hs)
        exact htext.map fun text htext => covered_loop hvar htext
  have hsearch : ∀ text ∈ (c.search.map (searchText c.scope)).toList, Covered names text := by
    intro text htext
    obtain ⟨s, hs, rfl⟩ := Option.map_eq_some_iff.mp (Option.mem_toList.mp htext)
    exact covered_searchText (h.search s hs) hscope
  have hdefinitions := yields_each fun v hv =>
    yields_definition (h.definitions v hv).1 (h.definitions v hv).2 hscope
  have hjoins := yields_each fun j hj => yields_joinLoop (h.joins j hj)
  have hfilters := yields_filter h.filters hscope
  refine hdefinitions.bind fun definitions hdefinitions => hmain.bind fun main hmain =>
    hjoins.bind fun joins hjoins => hfilters.map fun filters hfilters => ?_
  intro text htext
  simp only [List.mem_append, List.mem_singleton] at htext
  rcases htext with (((hd | rfl) | hs) | hj) | hf
  · exact hdefinitions text hd
  · exact hmain
  · exact hsearch text hs
  · exact hjoins text hj
  · exact hfilters text hf

/-- Selected queries refer to the names that they are within. -/
theorem yields_selectedQueries {columns : List (Selector Fragment)}
    (h : ∀ s ∈ columns, s.Within (Fragment.Within names)) :
    (selectedQueries columns).Yields fun texts => ∀ text ∈ texts, Covered names text := by
  induction columns with
  | nil => exact yields_pure fun text htext => by cases htext
  | cons selector rest ih =>
      have hselector := h selector List.mem_cons_self
      have hrest := ih fun s hs => h s (List.mem_cons_of_mem selector hs)
      cases selector with
      | sub q asName =>
          obtain ⟨hquery, hname⟩ := hselector
          refine hquery.value.bind fun value hvalue => hrest.map fun rest hrest => ?_
          intro text htext
          rcases List.mem_cons.mp htext with rfl | htext
          · exact Unmarked.covered_append
              (Unmarked.append (Unmarked.append (by decide) hname) (by decide)) hvalue
          · exact hrest text htext
      | _ => exact hrest

/-- A statement without unions refers to the names that its query is within. -/
theorem yields_simpleStatement (h : c.Within Fragment.Within names names) :
    (simpleStatement c).Yields (Covered names) := by
  refine (yields_loops h).bind fun loops hloops =>
    (yields_collect h).bind fun collected hcollected => ?_
  have haliases : ((collected.map Collected.aliases).getD c.aliases).Clean := by
    cases collected with
    | none => exact h.aliases
    | some g => exact (hcollected g rfl).aliases
  have hkeys : ∀ key ∈ (collected.map Collected.keys).getD [], Unmarked key := by
    cases collected with
    | none => exact fun _ hkey => (List.not_mem_nil hkey).elim
    | some g => exact (hcollected g rfl).keys
  have hgroup : ∀ text ∈ (collected.map Collected.clause).toList, Unmarked text := by
    cases collected with
    | none => exact fun _ htext => (List.not_mem_nil htext).elim
    | some g =>
        intro text htext
        rw [List.mem_singleton.mp htext]
        exact (hcollected g rfl).clause
  have hscope := scope_clean h.source haliases
  refine (yields_filter h.havings hscope).bind fun havings hhavings =>
    (yields_selectedQueries h.columns).map fun queries hqueries => ?_
  refine covered_intercalate separator_blank fun text htext => ?_
  simp only [List.mem_append, List.mem_singleton] at htext
  rcases htext with (((((hl | hg) | hh) | ho) | hlimit) | hq) | rfl
  · exact hloops text hl
  · exact (hgroup text hg).covered
  · exact hhavings text hh
  · exact (unmarked_sortIn hscope h.orders text ho).covered
  · exact (unmarked_limitText c.limit c.offset text hlimit).covered
  · exact hqueries text hq
  · exact (unmarked_returnText h hscope hkeys).covered

/-- Combined rows refer to the names that the queries are within. -/
theorem yields_combined {rows : String} (hrows : Covered names rows)
    {unions : List (UnionBranch Fragment)} (h : ∀ u ∈ unions, u.query.Within names) :
    (combined rows unions).Yields (Covered names) := by
  induction unions generalizing rows with
  | nil => exact yields_pure hrows
  | cons branch rest ih =>
      refine (h branch List.mem_cons_self).embedded.bind fun others hothers => ?_
      refine ih ?_ fun u hu => h u (List.mem_cons_of_mem branch hu)
      have hfunction : Unmarked ((if branch.all then "UNION" else "UNION_DISTINCT") ++ "(") := by
        split <;> decide
      have hpair := (hfunction.covered_append hrows).separated ", " separator_comma hothers
      exact hpair.closed (by decide) (by decide)

/-- A statement with unions refers to the names that its query is within. -/
theorem yields_unionStatement (h : c.Within Fragment.Within names names) :
    (unionStatement c).Yields (Covered names) := by
  refine (yields_simpleStatement h).bind fun first hfirst => ?_
  have hopen : Unmarked "(" := by decide
  have hrows : Covered names ("(" ++ first ++ ")") :=
    (hopen.covered_append hfirst).closed (by decide) (by decide)
  have hvar : Unmarked unionVariable := by decide
  refine (yields_combined hrows h.unions).map fun rows hrows => ?_
  refine covered_intercalate separator_blank fun text htext => ?_
  simp only [List.mem_append, List.mem_singleton] at htext
  rcases htext with ((rfl | ho) | hl) | rfl
  · exact covered_loop hvar hrows
  · refine (unmarked_sortText (fun column hcolumn => ?_) hvar h.unionOrders text ho).covered
    split
    · exact Column.unmarked_onDocument hvar hcolumn
    · exact Column.unmarked_onRow hvar hcolumn
  · exact (unmarked_limitText c.unionLimit c.unionOffset text hl).covered
  · exact (by decide : Unmarked ("RETURN " ++ unionVariable)).covered

/-- The references of a statement are among the names of its clauses. -/
theorem yields_statement (h : c.Within Fragment.Within names names) :
    (statement c).Yields (Covered names) := by
  unfold statement
  split
  · exact yields_simpleStatement h
  · exact yields_unionStatement h

/-- What a query contributes refers to the names of its clauses. -/
theorem within_fragment (h : c.Within Fragment.Within names names) {statement : Outcome String}
    (hstatement : statement.Yields (Covered names)) : (fragment c statement).Within names where
  statement := hstatement
  conditions := yields_conditions h.filters (scope_clean h.source h.aliases)
  source s hs := by
    obtain ⟨source, hsource, rfl⟩ := Option.map_eq_some_iff.mp hs
    exact yields_sourceText h.tablePrefix (h.source source hsource)

end Aql

/-- A query that refers to no names but the given ones. -/
def Query.Within (names : Set String) (q : Query) : Prop := q.fragment.Within names

/-- A query within some names is within more of them. -/
theorem Query.Within.mono {names names' : Set String} (hnames : names ⊆ names') (q : Query)
    (h : q.Within names) : q.Within names' :=
  Fragment.Within.mono h hnames

variable {b : Builder}

/-- A builder is within names just if what it is compiled to is. -/
theorem Builder.within_compiled_iff :
    b.compiled.Within Fragment.Within kept all ↔ b.Within Query.Within kept all :=
  Clauses.within_map

/-- All names of a builder may be used in every clause. -/
theorem Builder.within_compiled (h : b.Within Query.Within kept all) (hsub : kept ⊆ all) :
    b.compiled.Within Fragment.Within all all := by
  have hall : b.Within Query.Within all all := h.mono Query.Within.mono hsub subset_rfl
  exact within_compiled_iff.mpr hall

/-- A query refers to what its clauses refer to. -/
theorem Query.within_of (h : b.Within Query.Within kept all) (hsub : kept ⊆ all) :
    (Query.of b).Within all := by
  have hcompiled := Builder.within_compiled h hsub
  have hstatement := Aql.yields_statement hcompiled
  unfold Query.Within
  rw [fragment_of]
  exact Aql.within_fragment hcompiled fun n a ha => hstatement _ a ha

/-- A copy of a builder refers to what the builder refers to. -/
theorem Builder.within_copyOf (h : b.Within Query.Within kept all) (next : Nat) :
    (b.copyOf next).1.Within Query.Within kept all := by
  have hcompiled := within_compiled_iff.mpr h
  have hcopy := b.map_copyOf (fun q _ => q.fragment_copyOf) next
  have hwithin : (b.copyOf next).1.compiled.Within Fragment.Within kept all := by
    rw [compiled, hcopy]
    exact { hcompiled with }
  exact within_compiled_iff.mp hwithin

/-- A working copy refers to the names that its original refers to. -/
theorem Builder.within_workingCopy (h : b.Within Query.Within kept all) (next : Nat) :
    (b.workingCopy next).1.Within Query.Within kept all := by
  have hcompiled := within_compiled_iff.mpr h
  have hcopy := b.map_workingCopy (fun q _ => q.fragment_copyOf) next
  have hwithin : (b.workingCopy next).1.compiled.Within Fragment.Within kept all := by
    rw [compiled, hcopy]
    exact hcompiled
  exact within_compiled_iff.mp hwithin

end AqlBuilder

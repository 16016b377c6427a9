import AqlBuilder.Proofs.Aql.Stands
import AqlBuilder.Proofs.Binding.References

/-!
# Names that a statement cannot do without

A statement refers to a name if one of its clauses does: the grammar leaves out no clause, and it
puts a blank, a comma or a bracket behind each operand, so that no reference runs on into other
text. What else is in the texts of the caller makes no difference to that.

- `Cites` says that a text refers to a name, and `Cites.behind`, `Cites.before`, `Cites.separated`
  put texts around it.
- `Clauses.Cites` says that a query refers to a name in the clauses of a category.
- `Aql.yields_cited`: the statement of the query refers to it, too.
-/

namespace AqlBuilder

open Outcome

/-- A text refers to a name. -/
def Cites (name text : String) : Prop := name ∈ references text

/-- An operand refers to a name. -/
def Bound.Cites (name : String) : Bound → Prop
  | .placeholder other => other = name
  | .raw aql => AqlBuilder.Cites name aql
  | .column _ => False

namespace Fragment

/-- The statement of a query refers to a name. -/
def Cites (name : String) (f : Fragment) : Prop := f.statement.Yields (AqlBuilder.Cites name)

/-- The conditions of a query refer to a name, so there are some. -/
def Restricts (name : String) (f : Fragment) : Prop :=
  f.conditions.Yields fun text => ∃ t ∈ text, AqlBuilder.Cites name t

/-- The source of a query refers to a name. -/
def Iterates (name : String) (f : Fragment) : Prop :=
  ∃ s, f.source = some s ∧ s.2.Yields (AqlBuilder.Cites name)

end Fragment

/-- A test refers to a name. Of a group only the conditions are written. -/
inductive Test.Cites (name : String) : Test Fragment → Prop
  | operand {t : Test Fragment} {v : Bound} : v ∈ t.operands → v.Cites name → Test.Cites name t
  | member {column : String} {f : Fragment} {negated : Bool} :
      f.Cites name → Test.Cites name (.memberOfQuery column f negated)
  | compared {column : String} {operator : Operator} {f : Fragment} :
      f.Cites name → Test.Cites name (.compareQuery column operator f)
  | rows {f : Fragment} {negated : Bool} : f.Cites name → Test.Cites name (.hasRows f negated)
  | group {f : Fragment} : f.Restricts name → Test.Cites name (.nested f)

/-- A query refers to a name in the clauses that the values of a category belong to. -/
inductive Clauses.Cites (name : String) (c : Clauses Fragment) : Category → Prop
  | bound {x : String} {v : Bound} :
      ⟨x, .bound v⟩ ∈ c.definitions → v.Cites name → Clauses.Cites name c .definitions
  | defined {x : String} {f : Fragment} :
      ⟨x, .query f⟩ ∈ c.definitions → f.Cites name → Clauses.Cites name c .definitions
  | source {f : Fragment} {docVar : String} :
      c.source = some (.derived f docVar) → f.Cites name → Clauses.Cites name c .source
  | text {s : Search} :
      c.search = some s → s.fields ≠ [] → s.text.Cites name → Clauses.Cites name c .search
  | analyzer {s : Search} :
      c.search = some s → s.analyzer.Cites name → Clauses.Cites name c .search
  | joined {j : Join Fragment} :
      j ∈ c.joins → j.query.Iterates name → Clauses.Cites name c .join
  | restricted {j : Join Fragment} :
      j ∈ c.joins → j.query.Restricts name → Clauses.Cites name c .join
  | filter {x : Condition Fragment} :
      x ∈ c.filters → x.test.Cites name → Clauses.Cites name c .filter
  | having {x : Condition Fragment} :
      x ∈ c.havings → x.test.Cites name → Clauses.Cites name c .having
  | union {u : UnionBranch Fragment} :
      u ∈ c.unions → u.query.Cites name → Clauses.Cites name c .union
  | column {f : Fragment} {asName : String} :
      .sub f asName ∈ c.columns → f.Cites name → Clauses.Cites name c .select

section texts

namespace Cites

variable {name text sep : String} {texts : List String}

/-- What a text cites, it cites with another text in front. -/
theorem behind (h : Cites name text) (front : String) : Cites name (front ++ text) := by
  unfold Cites references
  rw [String.toList_append]
  exact mem_referencesIn_append h

/-- A reference stays if the text behind it ends it. -/
theorem before (h : Cites name text) {back : String} (hends : Ends back) :
    Cites name (text ++ back) := by
  unfold Cites references
  rw [String.toList_append, referencesIn_append hends]
  exact List.mem_append_left _ h

/-- What a text cites, it still cites if a separator follows. -/
theorem separated (h : Cites name text) (hsep : Separator sep) (back : String) :
    Cites name (text ++ sep ++ back) := by
  rw [String.append_assoc]
  exact h.before (hsep.ends_append back)

/-- A list cites what one of its texts cites. -/
theorem listed (h : Cites name text) (hsep : Separator sep) (hmem : text ∈ texts) :
    Cites name (sep.intercalate texts) :=
  mem_references_intercalate hsep hmem h

theorem bracketed (h : Cites name text) (front : String) : Cites name (front ++ text ++ ")") :=
  (h.behind front).before (by decide)

/-- A mark with a name behind it cites the name. -/
theorem reference (hname : IsName name) : Cites name ("@" ++ name) := by
  have hlast : Cites name ("" ++ "@" ++ name) := mem_references_of_last hname
  rwa [String.empty_append] at hlast

end Cites

end texts

variable {name : String} {sc : Scope} {f : Fragment}

namespace Fragment

/-- A query that cites a value does so where it is embedded. -/
theorem Cites.embedded (h : f.Cites name) : f.embedded.Yields (AqlBuilder.Cites name) := by
  unfold Fragment.embedded
  cases f.error with
  | some e => exact yields_fail e
  | none => exact Yields.map h fun _ htext => htext.bracketed "("

/-- A query that cites a value does so where it is used as a value. -/
theorem Cites.value (h : f.Cites name) : f.value.Yields (AqlBuilder.Cites name) := by
  refine h.embedded.map fun text htext => ?_
  split
  · exact htext.bracketed "FIRST("
  · exact htext

end Fragment

section tests

open Aql

variable {left right column low high : String} {operator : Operator}

/-- A bound value is cited by the text that is written for it. -/
theorem Bound.Cites.text {v : Bound} (h : v.Cites name) (hname : IsName name) (sc : Scope) :
    AqlBuilder.Cites name (v.text sc) := by
  cases v with
  | placeholder other =>
      cases h
      exact .reference hname
  | raw aql => exact h
  | column c => exact h.elim

/-- A comparison cites what one of its sides cites. -/
theorem cites_comparison (h : Cites name left ∨ Cites name right) :
    Cites name (comparison left operator right) := by
  rcases h with h | h
  · exact (h.separated separator_blank _).separated separator_blank _
  · exact h.behind _

/-- A test for a range cites what one of its bounds cites. -/
theorem cites_between (h : Cites name low ∨ Cites name high) (negated : Bool) :
    Cites name (between column low high negated) := by
  unfold between
  split <;> rcases h with h | h
  · exact (((h.behind _).separated (by decide) _).separated (by decide) _).before (by decide)
  · exact h.bracketed _
  · exact (((h.behind _).separated (by decide) _).separated (by decide) _).before (by decide)
  · exact h.bracketed _

/-- A bitwise test cites what its operand cites. -/
theorem cites_bitCall {function : String} (h : Cites name right) (shift : Bool) :
    Cites name (bitCall function column right shift) := by
  refine Cites.before (Cites.before (h.behind _) ?_) (by decide)
  split <;> decide

/-- An operand of a test is in its text. -/
theorem Test.yields_operand {t : Test Fragment} {v : Bound} (hv : v ∈ t.operands)
    (h : v.Cites name) (hname : IsName name) : (t.text sc).Yields (AqlBuilder.Cites name) := by
  have htext := h.text hname sc
  cases t with
  | compare c o value =>
      rw [List.mem_singleton.mp hv] at htext
      refine yields_pure ?_
      split
      · exact (htext.behind _).before (by decide)
      · exact cites_comparison (.inr htext)
  | between c low high negated =>
      refine yields_pure (cites_between ?_ negated)
      rcases List.mem_pair.mp hv with rfl | rfl
      · exact .inl htext
      · exact .inr htext
  | contains c value all negated =>
      rw [List.mem_singleton.mp hv] at htext
      exact yields_pure (cites_comparison (.inl htext))
  | bits c o value =>
      rw [List.mem_singleton.mp hv] at htext
      simp only [text]
      cases o.bitFunction? with
      | none => exact yields_fail _
      | some function => exact yields_pure (cites_bitCall htext _)
  | raw aql =>
      rw [List.mem_singleton.mp hv] at h
      exact yields_pure h
  | member c value negated =>
      rw [List.mem_singleton.mp hv] at htext
      exact yields_pure (cites_comparison (.inr htext))
  | length c o value =>
      rw [List.mem_singleton.mp hv] at htext
      exact yields_pure (cites_comparison (.inr htext))
  | date part c o value =>
      rw [List.mem_singleton.mp hv] at htext
      exact yields_pure (cites_comparison (.inr htext))
  | _ => cases hv

/-- A test for rows cites what its query cites. -/
theorem Aql.cites_rowTest {aql : String} (h : Cites name aql) (singleRow negated : Bool) :
    Cites name (rowTest aql singleRow negated) := by
  cases singleRow <;> cases negated <;> exact (h.behind _).before (by decide)

/-- The text of a test cites what the test cites. -/
theorem Test.Cites.yields_text {t : Test Fragment} (h : t.Cites name) (hname : IsName name)
    (sc : Scope) : (t.text sc).Yields (AqlBuilder.Cites name) := by
  cases h with
  | operand hv h => exact Test.yields_operand hv h hname
  | member h => exact h.embedded.map fun _ haql => cites_comparison (.inr haql)
  | compared h => exact h.value.map fun _ haql => cites_comparison (.inr haql)
  | rows h => exact h.embedded.map fun _ haql => cites_rowTest haql _ _
  | group h =>
      refine Yields.bind h fun text ⟨t, htext, ht⟩ => ?_
      cases htext
      exact yields_pure (ht.bracketed "(")

end tests

namespace Aql

section conditions

variable {list : List (Condition Fragment)} {x : Condition Fragment}

/-- Behind the first condition there are connectors with blanks around them. -/
theorem yields_ends_further (sc : Scope) (list : List (Condition Fragment)) :
    (furtherConditions sc list).Yields Ends := by
  cases list with
  | nil => exact yields_pure (by decide)
  | cons first rest =>
      refine (yields_any _).bind fun text _ => (yields_any _).map fun further _ => ?_
      rw [String.append_assoc, String.append_assoc, String.append_assoc]
      exact separator_blank.ends_append _

/-- Further conditions cite what one of them cites. -/
theorem yields_cited_further (hx : x ∈ list) (h : x.test.Cites name) (hname : IsName name) :
    (furtherConditions sc list).Yields (Cites name) := by
  induction list with
  | nil => cases hx
  | cons first rest ih =>
      rcases List.mem_cons.mp hx with rfl | hx
      · refine (h.yields_text hname sc).bind fun text htext => ?_
        exact (yields_ends_further sc rest).map fun _ hends => (htext.behind _).before hends
      · exact (yields_any _).bind fun _ _ => (ih hx).map fun _ hfurther => hfurther.behind _

/-- A list of conditions cites what one of them cites. -/
theorem yields_cited_conditions (hx : x ∈ list) (h : x.test.Cites name) (hname : IsName name) :
    (conditions sc list).Yields fun text => ∃ t ∈ text, Cites name t := by
  cases list with
  | nil => cases hx
  | cons first rest =>
      rcases List.mem_cons.mp hx with rfl | hx
      · refine (h.yields_text hname sc).bind fun text htext => ?_
        exact (yields_ends_further sc rest).map fun _ hends => ⟨_, rfl, htext.before hends⟩
      · refine (yields_any _).bind fun _ _ => (yields_cited_further hx h hname).map ?_
        exact fun _ hfurther => ⟨_, rfl, hfurther.behind _⟩

/-- A filter cites what one of its conditions cites. -/
theorem yields_cited_filter (hx : x ∈ list) (h : x.test.Cites name) (hname : IsName name) :
    (filter sc list).Yields fun texts => ∃ t ∈ texts, Cites name t := by
  refine (yields_cited_conditions hx h hname).bind fun text ⟨t, htext, ht⟩ => ?_
  cases htext
  exact yields_pure ⟨_, List.mem_cons_self, ht.behind _⟩

end conditions

section loops

variable {docVar source filter : String} {kind : JoinKind}

/-- A search cites its text if it has fields, and its analyzer in any case. -/
theorem cites_search {s : Search} (hname : IsName name)
    (h : s.fields ≠ [] ∧ s.text.Cites name ∨ s.analyzer.Cites name) :
    Cites name (searchText sc s) := by
  unfold searchText
  rcases h with ⟨hfields, h⟩ | h
  · obtain ⟨field, hfield⟩ := List.exists_mem_of_ne_nil _ hfields
    refine Cites.before (Cites.separated (Cites.behind ?_ _) separator_comma _) (by decide)
    refine Cites.listed ?_ (by decide) (List.mem_map.mpr ⟨field, hfield, rfl⟩)
    exact (((h.text hname sc).behind _).separated separator_comma _).before (by decide)
  · exact (h.text hname sc).bracketed _

/-- The loop of a left join cites what the joined loop and its filter cite. -/
theorem cites_leftLoop (h : Cites name (loop docVar source ++ filter)) :
    Cites name (leftLoop docVar source filter) := by
  unfold leftLoop
  dsimp only
  refine Cites.separated (Cites.separated ?_ (by decide) _) (by decide) _
  rw [String.append_assoc]
  exact h.behind _

/-- What the source or the filter of a join refers to, whatever kind of join it is. -/
theorem cites_joinText (hends : Ends filter) (h : Cites name source ∨ Cites name filter) :
    Cites name (match kind with
      | .left => leftLoop docVar source filter
      | _ => loop docVar source ++ filter) := by
  have hinner : Cites name (loop docVar source ++ filter) := by
    rcases h with h | h
    · exact (h.behind _).before hends
    · exact h.behind _
  cases kind with
  | left => exact cites_leftLoop hinner
  | _ => exact hinner

/-- The loop of a join refers to what its source or its conditions refer to. -/
theorem yields_cited_join {j : Join Fragment}
    (h : j.query.Iterates name ∨ j.query.Restricts name) : (joinLoop j).Yields (Cites name) := by
  unfold joinLoop
  rcases h with ⟨⟨docVar, source⟩, hs, h⟩ | h
  · rw [hs]
    refine h.bind fun source hsource => (yields_any _).map fun conditions _ => ?_
    refine cites_joinText ?_ (.inl hsource)
    cases conditions with
    | none => exact (by decide : Ends "")
    | some conditions => exact (by decide : Separator " FILTER ").ends_append conditions
  · cases j.query.source with
    | none => exact yields_fail _
    | some s =>
        refine (yields_any _).bind fun source _ => Yields.map h fun text ⟨t, htext, ht⟩ => ?_
        cases htext
        exact cites_joinText ((by decide : Separator " FILTER ").ends_append t) (.inr (ht.behind _))

variable {c : Clauses Fragment}

/-- The loops of a query refer to what its definitions refer to, -/
theorem yields_cited_definition {d : LetVariable Fragment} (hd : d ∈ c.definitions)
    (h : (definition c.scope d).Yields (Cites name)) :
    (loops c).Yields fun pieces => ∃ t ∈ pieces, Cites name t := by
  refine (yields_loops_parts (yields_each_mem hd h) (yields_any _) (yields_any _)
    (yields_any _)).mono ?_
  rintro pieces ⟨definitions, main, joins, filters, ⟨t, ht, hcites⟩, -, -, -, rfl⟩
  exact ⟨t, List.mem_append_left _ ht, hcites⟩

/-- to what its source refers to, -/
theorem yields_cited_source {docVar : String} (hs : c.source = some (.derived f docVar))
    (h : f.Cites name) : (loops c).Yields fun pieces => ∃ t ∈ pieces, Cites name t := by
  have hmain : (mainLoop c).Yields (Cites name) := by
    unfold mainLoop
    rw [hs]
    exact h.embedded.map fun _ htext => htext.behind _
  refine (yields_loops_parts (yields_any _) hmain (yields_any _) (yields_any _)).mono ?_
  rintro pieces ⟨definitions, main, joins, filters, -, hcites, -, -, rfl⟩
  exact ⟨main, List.mem_append_right _ (List.mem_append_left _ List.mem_cons_self), hcites⟩

/-- to what is searched, -/
theorem yields_cited_search {s : Search} (hs : c.search = some s) (hname : IsName name)
    (h : s.fields ≠ [] ∧ s.text.Cites name ∨ s.analyzer.Cites name) :
    (loops c).Yields fun pieces => ∃ t ∈ pieces, Cites name t := by
  refine (yields_loops_parts (yields_any _) (yields_any _) (yields_any _) (yields_any _)).mono ?_
  rintro pieces ⟨definitions, main, joins, filters, -, -, -, -, rfl⟩
  refine ⟨searchText c.scope s, List.mem_append_right _ (List.mem_append_right _
    (List.mem_append_left _ ?_)), cites_search hname h⟩
  rw [hs]
  exact List.mem_cons_self

/-- to what its joins refer to, -/
theorem yields_cited_joined {j : Join Fragment} (hj : j ∈ c.joins)
    (h : j.query.Iterates name ∨ j.query.Restricts name) :
    (loops c).Yields fun pieces => ∃ t ∈ pieces, Cites name t := by
  refine (yields_loops_parts (yields_any _) (yields_any _)
    (yields_each_mem hj (yields_cited_join h)) (yields_any _)).mono ?_
  rintro pieces ⟨definitions, main, joins, filters, -, -, ⟨t, ht, hcites⟩, -, rfl⟩
  exact ⟨t, by simp [ht], hcites⟩

/-- and to what its conditions refer to. -/
theorem yields_cited_filtered {x : Condition Fragment} (hx : x ∈ c.filters)
    (h : x.test.Cites name) (hname : IsName name) :
    (loops c).Yields fun pieces => ∃ t ∈ pieces, Cites name t := by
  refine (yields_loops_parts (yields_any _) (yields_any _) (yields_any _)
    (yields_cited_filter hx h hname)).mono ?_
  rintro pieces ⟨definitions, main, joins, filters, -, -, -, ⟨t, ht, hcites⟩, rfl⟩
  exact ⟨t, by simp [ht], hcites⟩

end loops

section statements

variable {c : Clauses Fragment}

/-- A statement cites what its loops cite. -/
theorem yields_cited_looped
    (h : (loops c).Yields fun pieces => ∃ t ∈ pieces, Cites name t) :
    (simpleStatement c).Yields (Cites name) := by
  refine (yields_simple_parts h (yields_any _) (fun _ _ => yields_any _) (yields_any _)).mono ?_
  rintro aql ⟨loops, collected, havings, queries, ⟨t, ht, hcites⟩, -, -, -, rfl⟩
  exact hcites.listed separator_blank (List.mem_append_left _ ht)

/-- A statement cites what a condition behind its groups cites. -/
theorem yields_cited_having {x : Condition Fragment} (hx : x ∈ c.havings)
    (h : x.test.Cites name) (hname : IsName name) :
    (simpleStatement c).Yields (Cites name) := by
  refine (yields_simple_parts (yields_any _) (yields_any _)
    (fun _ _ => yields_cited_filter hx h hname) (yields_any _)).mono ?_
  rintro aql ⟨loops, collected, havings, queries, -, -, ⟨t, ht, hcites⟩, -, rfl⟩
  exact hcites.listed separator_blank (by simp [ht])

/-- The value of a selected query is the value of a variable. -/
theorem yields_selected {columns : List (Selector Fragment)} {asName : String}
    {p : String → Prop} (hmem : .sub f asName ∈ columns) (h : f.value.Yields p) :
    (selectedQueries columns).Yields fun texts =>
      ∃ value, p value ∧ "LET " ++ asName ++ " = " ++ value ∈ texts := by
  obtain ⟨front, back, rfl⟩ := List.append_of_mem hmem
  induction front with
  | nil =>
      refine h.bind fun value hvalue => (yields_any _).map fun texts _ => ?_
      exact ⟨value, hvalue, List.mem_cons_self⟩
  | cons first rest ih =>
      have hrest := ih (List.mem_append_right _ List.mem_cons_self)
      cases first with
      | sub q other =>
          refine (yields_any _).bind fun _ _ => hrest.map fun texts ⟨value, hvalue, ht⟩ => ?_
          exact ⟨value, hvalue, List.mem_cons_of_mem _ ht⟩
      | _ => exact hrest

/-- A statement cites what a query in its projection cites. -/
theorem yields_cited_column {asName : String} (hmem : .sub f asName ∈ c.columns)
    (h : f.Cites name) : (simpleStatement c).Yields (Cites name) := by
  refine (yields_simple_parts (yields_any _) (yields_any _) (fun _ _ => yields_any _)
    (yields_selected hmem h.value)).mono ?_
  rintro aql ⟨loops, collected, havings, queries, -, -, -, ⟨value, hcites, ht⟩, rfl⟩
  have hlet : Cites name ("LET " ++ asName ++ " = " ++ value) := hcites.behind _
  exact hlet.listed separator_blank (by simp [ht])

/-- Further rows leave a reference as it is. -/
theorem yields_cited_rows {rows : String} (h : Cites name rows)
    (unions : List (UnionBranch Fragment)) : (combined rows unions).Yields (Cites name) := by
  induction unions generalizing rows with
  | nil => exact yields_pure h
  | cons first rest ih =>
      refine (yields_any _).bind fun others _ => ih ?_
      exact ((h.behind _).separated separator_comma _).before (by decide)

/-- A union cites what one of its branches cites. -/
theorem yields_cited_branch {unions : List (UnionBranch Fragment)} {u : UnionBranch Fragment}
    (hu : u ∈ unions) (h : u.query.Cites name) (rows : String) :
    (combined rows unions).Yields (Cites name) := by
  induction unions generalizing rows with
  | nil => cases hu
  | cons first rest ih =>
      rcases List.mem_cons.mp hu with rfl | hu
      · exact h.embedded.bind fun others hothers => yields_cited_rows (hothers.bracketed _) _
      · exact (yields_any _).bind fun others _ => ih hu _

/-- The loop over the rows of a union refers to what the rows refer to. -/
theorem yields_cited_union
    (h : (simpleStatement c).Yields fun first =>
      (combined ("(" ++ first ++ ")") c.unions).Yields (Cites name)) :
    (unionStatement c).Yields (Cites name) := by
  refine h.bind fun first hrows => hrows.map fun rows hcites => ?_
  exact (hcites.behind _).listed separator_blank List.mem_cons_self

/-- A union cites what its first operand cites. -/
theorem yields_cited_first (h : (simpleStatement c).Yields (Cites name)) :
    (statement c).Yields (Cites name) := by
  unfold statement
  split
  · exact h
  · exact yields_cited_union (h.mono fun _ hfirst => yields_cited_rows (hfirst.bracketed "(") _)

/-- **A statement refers to each name that its clauses refer to.** -/
theorem yields_cited {k : Category} (h : c.Cites name k) (hname : IsName name) :
    (statement c).Yields (Cites name) := by
  cases h with
  | bound hd h =>
      refine yields_cited_first (yields_cited_looped (yields_cited_definition hd ?_))
      exact Yields.map (yields_pure rfl) fun _ htext =>
        Cites.behind (htext ▸ h.text hname c.scope) _
  | defined hd h =>
      refine yields_cited_first (yields_cited_looped (yields_cited_definition hd ?_))
      exact h.value.map fun _ htext => htext.behind _
  | source hs h => exact yields_cited_first (yields_cited_looped (yields_cited_source hs h))
  | text hs hfields h =>
      exact yields_cited_first
        (yields_cited_looped (yields_cited_search hs hname (.inl ⟨hfields, h⟩)))
  | analyzer hs h =>
      exact yields_cited_first (yields_cited_looped (yields_cited_search hs hname (.inr h)))
  | joined hj h => exact yields_cited_first (yields_cited_looped (yields_cited_joined hj (.inl h)))
  | restricted hj h =>
      exact yields_cited_first (yields_cited_looped (yields_cited_joined hj (.inr h)))
  | filter hx h =>
      exact yields_cited_first (yields_cited_looped (yields_cited_filtered hx h hname))
  | having hx h => exact yields_cited_first (yields_cited_having hx h hname)
  | column hmem h => exact yields_cited_first (yields_cited_column hmem h)
  | union hu h =>
      have hunions : c.unions.isEmpty = false :=
        List.isEmpty_eq_false_iff.mpr (List.ne_nil_of_mem hu)
      unfold statement
      rw [hunions, if_neg Bool.false_ne_true]
      exact yields_cited_union ((yields_any _).mono fun _ _ => yields_cited_branch hu h _)

end statements

end Aql

end AqlBuilder

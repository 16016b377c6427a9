import AqlBuilder.Proofs.Aql.Within

/-!
# Clauses without marks

Groups, orders, limits and projections are written from columns and names alone. A selected
sub-query is a query variable in front of the projection, so the projection itself refers to no
bound value.

- `Aql.yields_collect`: a grouping has no marks, and neither have the names behind it.
- `Aql.unmarked_sortIn`, `Aql.unmarked_limitText`, `Aql.unmarked_returnText`: the last clauses.
-/

namespace AqlBuilder

open Outcome

/-- A text that refers to no name at all has no mark. -/
theorem Covered.unmarked {text : String} (h : Covered ∅ text) : Unmarked text := by
  unfold Covered references at h
  unfold Unmarked
  generalize text.toList = chars at h
  induction chars with
  | nil => exact List.not_mem_nil
  | cons c rest ih =>
      unfold referencesIn at h
      by_cases hc : c = '@'
      · rw [if_pos hc] at h
        exact absurd (h _ List.mem_cons_self) (Set.notMem_empty _)
      · rw [if_neg hc] at h
        rw [List.mem_cons, not_or]
        exact ⟨Ne.symm hc, ih h⟩

namespace Aql

variable {names : Set String} {scope : Scope} {c : Clauses Fragment}

/-- An object has no marks if its keys and values have none. -/
theorem unmarked_objectLiteral {entries : List (String × String)}
    (h : ∀ entry ∈ entries, Unmarked entry.1 ∧ Unmarked entry.2) :
    Unmarked (objectLiteral entries) :=
  Covered.unmarked (covered_objectLiteral fun entry hentry =>
    ⟨(h entry hentry).1, (h entry hentry).2.covered⟩)

/-- A query over a clean source has a clean scope, with any clean registry. -/
theorem scope_clean (hsource : ∀ s ∈ c.source, s.Within (Fragment.Within names))
    {aliases : Registry} (haliases : aliases.Clean) : (Scope.mk aliases c.docVar).Clean := by
  refine ⟨haliases, fun v hv => ?_⟩
  obtain ⟨s, hs, rfl⟩ := Option.map_eq_some_iff.mp hv
  have hwithin := hsource s hs
  cases s with
  | collection name v => exact hwithin.2
  | view name v => exact hwithin.2
  | derived q v => exact hwithin.2

section order

variable {resolve : String → String} {docVar : String}

/-- A clean order is written without marks. -/
theorem unmarked_criterion (hresolve : ∀ column, Unmarked column → Unmarked (resolve column))
    (hvar : Unmarked docVar) {order : Order} (h : order.Clean) :
    Unmarked (criterion resolve docVar order) := by
  cases order with
  | column name direction =>
      refine Unmarked.append (Unmarked.append (hresolve name h) (by decide)) ?_
      cases direction <;> decide
  | raw aql => exact h
  | random => exact (by decide : Unmarked "RAND()")
  | bestMatching => exact Unmarked.append (Unmarked.append (by decide) hvar) (by decide)

/-- Clean orders are written without marks. -/
theorem unmarked_sortText (hresolve : ∀ column, Unmarked column → Unmarked (resolve column))
    (hvar : Unmarked docVar) {orders : List Order} (h : ∀ order ∈ orders, order.Clean) :
    ∀ text ∈ sortText resolve docVar orders, Unmarked text := by
  cases orders with
  | nil => exact fun text htext => by cases htext
  | cons first rest =>
      intro text htext
      rw [List.mem_singleton.mp htext]
      refine Unmarked.append (by decide) (unmarked_intercalate (by decide) fun other hother => ?_)
      obtain ⟨order, horder, rfl⟩ := List.mem_map.mp hother
      exact unmarked_criterion hresolve hvar (h order horder)

/-- Clean orders are written without marks in a clean scope. -/
theorem unmarked_sortIn (hscope : scope.Clean) {orders : List Order}
    (h : ∀ order ∈ orders, order.Clean) : ∀ text ∈ sortIn scope orders, Unmarked text :=
  unmarked_sortText (fun _ hcolumn => hscope.resolve hcolumn) hscope.unmarked_docVar h

/-- A limit has no marks. -/
theorem unmarked_limitText (limit offset : Option Nat) :
    ∀ text ∈ limitText limit offset, Unmarked text := by
  have hcount : ∀ count : Nat, Unmarked ("LIMIT " ++ toString count) :=
    fun count => Unmarked.append (by decide) (unmarked_toString count)
  intro text htext
  cases limit with
  | none => cases htext
  | some count =>
      cases offset with
      | none =>
          rw [List.mem_singleton.mp htext]
          exact hcount count
      | some skipped =>
          unfold limitText at htext
          dsimp only at htext
          split at htext
          · rw [List.mem_singleton.mp htext]
            exact ((hcount skipped).append (by decide)).append (unmarked_toString count)
          · rw [List.mem_singleton.mp htext]
            exact hcount count

end order

section groups

/-- A key of a grouping in which nothing that may be written has a mark. -/
structure CollectKey.Clean (key : CollectKey) : Prop where
  docVar : Unmarked key.docVar
  expression : Unmarked key.expression

/-- A clean key of a group is collected as a clean key. -/
theorem yields_collectKey (hscope : scope.Clean) {key : GroupKey} (h : key.Clean) :
    (collectKey scope key).Yields CollectKey.Clean := by
  cases key with
  | column name => exact yields_pure ⟨Column.unmarked_attributeName h, hscope.resolve h⟩
  | raw aql =>
      simp only [collectKey]
      cases hcut : Text.cutAt '=' aql.toList with
      | none => exact yields_fail _
      | some parts =>
          obtain ⟨name, expression⟩ := parts
          refine yields_pure ⟨?_, ?_⟩
          · exact unmarked_trimBlanks fun hmark => h (Text.mem_cutAt hcut (Or.inl hmark))
          · exact unmarked_trimBlanks fun hmark => h (Text.mem_cutAt hcut (Or.inr hmark))

/-- An aggregate of a column without marks has none. -/
theorem yields_aggregateText (hscope : scope.Clean) {a : Aggregate}
    (h : ∀ column ∈ a.column, Unmarked column) : (aggregateText scope a).Yields Unmarked := by
  obtain ⟨function, column⟩ := a
  cases column with
  | none => cases function <;> first | exact yields_fail _ | exact yields_pure (by decide)
  | some column =>
      have hcolumn := hscope.resolve (h column rfl)
      have hfunction : Unmarked function.text := by cases function <;> decide
      refine yields_pure ?_
      exact Unmarked.append
        (Unmarked.append (Unmarked.append (Unmarked.append (by decide) hfunction)
        (by decide)) hcolumn) (by decide)

/-- A selected column in which nothing that may be written has a mark. -/
structure KeptColumn.Clean (k : KeptColumn) : Prop where
  key : Unmarked k.key
  expression : Unmarked k.expression

/-- The columns that may be kept in groups are clean if the selected columns are. -/
theorem clean_candidates (hscope : scope.Clean) {columns : List (Selector Fragment)}
    {p : Fragment → Prop} (h : ∀ s ∈ columns, s.Within p) :
    ∀ k ∈ candidates scope columns, k.Clean := by
  intro k hk
  obtain ⟨selector, hselector, hkept⟩ := List.mem_filterMap.mp hk
  have hclean := h selector hselector
  cases selector with
  | column name =>
      cases hkept
      exact ⟨Column.unmarked_attributeName hclean, hscope.resolve hclean⟩
  | aliased name asName =>
      cases hkept
      exact ⟨hclean.2, hscope.resolve hclean.1⟩
  | documents table => cases hkept
  | raw aql asName => cases hkept
  | sub q asName => cases hkept

/-- A clean registry stays clean if clean keys are announced. -/
theorem clean_withKeys {aliases : Registry} (haliases : aliases.Clean) {keys : List CollectKey}
    (h : ∀ key ∈ keys, key.Clean) : (withKeys aliases keys).Clean := by
  induction keys generalizing aliases with
  | nil => exact haliases
  | cons key rest ih =>
      have hkey := h key List.mem_cons_self
      exact ih (haliases.registerVariable key.reference hkey.docVar)
        fun k hk => h k (List.mem_cons_of_mem key hk)

/-- A clean registry stays clean if kept columns are announced. -/
theorem clean_withKept {aliases : Registry} (haliases : aliases.Clean) {kept : List KeptColumn}
    (h : ∀ k ∈ kept, k.Clean) : (withKept aliases kept).Clean := by
  induction kept generalizing aliases with
  | nil => exact haliases
  | cons first rest ih =>
      have hfirst := h first List.mem_cons_self
      have hexpression : Unmarked
          (groupsVariable ++ "[*]." ++ Column.attributeText first.key.toList) :=
        Unmarked.append (by decide) (Column.unmarked_attributeText hfirst.key)
      exact ih (haliases.registerVariable (dotted first.column) hexpression)
        fun k hk => h k (List.mem_cons_of_mem first hk)

/-- The object of the kept columns has no marks. -/
theorem unmarked_keptObject {kept : List KeptColumn} (h : ∀ k ∈ kept, k.Clean) :
    Unmarked (objectLiteral (kept.map fun k => (k.key, k.expression))) := by
  refine unmarked_objectLiteral fun entry hentry => ?_
  obtain ⟨k, hk, rfl⟩ := List.mem_map.mp hentry
  exact ⟨(h k hk).key, (h k hk).expression⟩

/-- The clause with the keys has no marks. -/
theorem unmarked_collectText {keys : List CollectKey} (h : ∀ key ∈ keys, key.Clean) :
    Unmarked (collectText keys) := by
  unfold collectText
  split
  · decide
  · refine Unmarked.append (by decide) (unmarked_intercalate (by decide) fun text htext => ?_)
    obtain ⟨key, hkey, rfl⟩ := List.mem_map.mp htext
    exact Unmarked.append (Unmarked.append (h key hkey).docVar (by decide)) (h key hkey).expression

/-- A grouping in which nothing that may be written has a mark. -/
structure Collected.Clean (collected : Collected) : Prop where
  clause : Unmarked collected.clause
  keys : ∀ key ∈ collected.keys, Unmarked key
  aliases : collected.aliases.Clean

/-- The variables of clean keys have no marks. -/
theorem unmarked_keys {keys : List CollectKey} (h : ∀ key ∈ keys, key.Clean) :
    ∀ name ∈ keys.map CollectKey.docVar, Unmarked name :=
  List.forall_mem_map.mpr fun key hkey => (h key hkey).docVar

/-- What is collected for a query whose parts are clean is clean. -/
theorem yields_collect (h : c.Within Fragment.Within names names) :
    (collect c).Yields fun collected => ∀ g ∈ collected, g.Clean := by
  have hscope : c.scope.Clean := scope_clean h.source h.aliases
  refine yields_of_collect (fun key hkey => yields_collectKey hscope (h.groups key hkey)) ?_ ?_ ?_
  · intro keys hkeys a ha
    refine (yields_aggregateText hscope (h.aggregate a ha)).mono fun text haggregate => ?_
    exact ⟨((unmarked_collectText hkeys).append (by decide)).append haggregate, unmarked_keys hkeys,
      (clean_withKeys h.aliases hkeys).registerVariable aggregateVariable (by decide)⟩
  · exact fun keys hkeys => ⟨unmarked_collectText hkeys, unmarked_keys hkeys,
      clean_withKeys h.aliases hkeys⟩
  · intro keys hkeys kept hsubset
    have hkept : ∀ k ∈ kept, k.Clean := fun k hk =>
      clean_candidates hscope h.columns k (hsubset hk)
    have hinto : Unmarked (collectText keys ++ " INTO " ++ groupsVariable ++ " = ") :=
      (((unmarked_collectText hkeys).append (by decide)).append (by decide)).append (by decide)
    exact ⟨hinto.append (unmarked_keptObject hkept), unmarked_keys hkeys,
      clean_withKept (clean_withKeys h.aliases hkeys) hkept⟩

end groups

section projection

/-- A projection in which nothing that may be written has a mark. -/
structure Projected.Clean (p : Projected) : Prop where
  documents : ∀ document ∈ p.documents, Unmarked document
  attributes : ∀ field ∈ p.attributes, Unmarked field.1 ∧ Unmarked field.2

variable {p : Projected}

/-- Where nothing is selected, what a clean query returns is clean. -/
theorem clean_unselected (h : c.Within Fragment.Within names names) {keys : List String}
    (hkeys : ∀ key ∈ keys, Unmarked key) : (unselected c keys).Clean := by
  have hscope : c.scope.Clean := scope_clean h.source h.aliases
  unfold unselected
  split
  · exact ⟨fun _ hd => (List.not_mem_nil hd).elim, fun _ ha => (List.not_mem_nil ha).elim⟩
  · split
    · refine ⟨fun document hdocument => ?_, fun _ ha => (List.not_mem_nil ha).elim⟩
      rcases List.mem_append.mp hdocument with hvar | hjoin
      · exact hscope.docVar document (Option.mem_toList.mp hvar)
      · obtain ⟨j, hj, rfl⟩ := List.mem_map.mp hjoin
        exact (h.joins j hj).unmarked_docVar
    · refine ⟨fun _ hd => (List.not_mem_nil hd).elim, fun field hfield => ?_⟩
      obtain ⟨key, hkey, rfl⟩ := List.mem_map.mp hfield
      exact ⟨hkeys key hkey, hkeys key hkey⟩

/-- A clean projection stays clean if documents are added to it. -/
theorem Projected.Clean.withDocuments (h : p.Clean) {documents : List String}
    (hdocuments : ∀ document ∈ documents, Unmarked document) :
    Clean { p with documents := p.documents ++ documents } := by
  refine ⟨fun document hdocument => ?_, h.attributes⟩
  rcases List.mem_append.mp hdocument with hold | hnew
  · exact h.documents document hold
  · exact hdocuments document hnew

/-- A clean projection stays clean if an attribute is added to it. -/
theorem Projected.Clean.withAttribute (h : p.Clean) {key expression : String}
    (hkey : Unmarked key) (hexpression : Unmarked expression) :
    Clean { p with attributes := p.attributes ++ [(key, expression)] } := by
  refine ⟨h.documents, fun field hfield => ?_⟩
  rcases List.mem_append.mp hfield with hold | hnew
  · exact h.attributes field hold
  · rw [List.mem_singleton.mp hnew]
    exact ⟨hkey, hexpression⟩

/-- A clean projection stays clean if a clean column is selected. -/
theorem Projected.Clean.select (h : p.Clean) (hscope : scope.Clean) {selector : Selector Fragment}
    {q : Fragment → Prop} (hselector : selector.Within q) :
    (p.select scope selector).Clean := by
  cases selector with
  | column name =>
      exact h.withAttribute (Column.unmarked_attributeName hselector) (hscope.resolve hselector)
  | aliased name asName => exact h.withAttribute hselector.2 (hscope.resolve hselector.1)
  | documents table =>
      refine h.withDocuments fun document hdocument => ?_
      split at hdocument
      · exact hscope.docVar document (Option.mem_toList.mp hdocument)
      · rw [List.mem_singleton.mp hdocument]
        cases hv : scope.aliases.tableVariable? table with
        | some v => exact hscope.aliases.tableVariable? hv
        | none => exact hselector
  | raw aql asName =>
      cases asName with
      | some asName => exact h.withAttribute (hselector.2 asName rfl) hselector.1
      | none =>
          refine h.withDocuments fun document hdocument => ?_
          rw [List.mem_singleton.mp hdocument]
          exact hselector.1
  | sub q asName => exact h.withAttribute hselector.2 hselector.2

/-- A clean projection stays clean if clean columns are selected. -/
theorem Projected.Clean.selectAll (h : p.Clean) (hscope : scope.Clean)
    {columns : List (Selector Fragment)} {q : Fragment → Prop}
    (hcolumns : ∀ s ∈ columns, s.Within q) :
    (columns.foldl (Projected.select scope) p).Clean := by
  induction columns generalizing p with
  | nil => exact h
  | cons first rest ih =>
      exact ih (h.select hscope (hcolumns first List.mem_cons_self))
        fun s hs => hcolumns s (List.mem_cons_of_mem first hs)

/-- A clean projection is written without marks. -/
theorem Projected.Clean.unmarked_text (h : p.Clean) : Unmarked p.text := by
  have hobject := unmarked_objectLiteral h.attributes
  have hdocuments := h.documents
  have hmerged : ∀ all : List String, (∀ document ∈ all, Unmarked document) →
      Unmarked ("MERGE(" ++ ", ".intercalate all ++ ")") := fun all hall =>
    Unmarked.append
      (Unmarked.append (by decide) (unmarked_intercalate (by decide) hall)) (by decide)
  unfold Projected.text
  split
  · exact hobject
  · rename_i document hp
    rw [hp] at hdocuments
    have hdocument := hdocuments document List.mem_cons_self
    split
    · exact hdocument
    · exact Unmarked.append
        (Unmarked.append (Unmarked.append (Unmarked.append (by decide) hdocument)
        (by decide)) hobject) (by decide)
  · refine hmerged _ fun document hdocument => ?_
    split at hdocument
    · exact hdocuments document hdocument
    · rcases List.mem_append.mp hdocument with hold | hnew
      · exact hdocuments document hold
      · rw [List.mem_singleton.mp hnew]
        exact hobject

/-- A clean projection has no marks where it is used as a value, either. -/
theorem Projected.Clean.unmarked_valueText (h : p.Clean) (singleValue : Bool) :
    Unmarked (p.valueText singleValue) := by
  have htext := h.unmarked_text
  have hattributes := h.attributes
  unfold Projected.valueText
  split
  · rename_i key expression hnone hone
    rw [hone] at hattributes
    split
    · exact (hattributes (key, expression) List.mem_cons_self).2
    · exact htext
  · exact htext

/-- The last clause of a statement has no marks. -/
theorem unmarked_returnText (h : c.Within Fragment.Within names names) (hscope : scope.Clean)
    {keys : List String} (hkeys : ∀ key ∈ keys, Unmarked key) :
    Unmarked (returnText c scope keys) := by
  have hprojected := (clean_unselected h hkeys).selectAll hscope h.columns
  unfold returnText
  split
  · decide
  · refine Unmarked.append (Unmarked.append (by decide) ?_) (hprojected.unmarked_valueText _)
    split <;> decide

end projection

end Aql

end AqlBuilder

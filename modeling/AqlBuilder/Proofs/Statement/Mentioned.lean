import AqlBuilder.Proofs.Builder.Closed
import AqlBuilder.Proofs.Statement.Declared

/-!
# Query variables in compiled statements

A statement mentions a query variable where its query does. One that reads rows is the statement of
a query; one that changes documents has the loops, the order and the limit of its query, and behind
them the attributes of an update, which may be columns and sub-queries.

- `Entry.Mentions` has one rule for each way from a compiled builder to a mentioned variable.
- `Entry.Mentions.shown`: the variable is in the statement, behind the `LET`s that were passed.
- `Entry.Mentions.declared`: if the builder is closed, the variable has been defined.
-/

namespace AqlBuilder

open Outcome

/-- An assignment of an operand to an attribute, with no assignment behind it that may take its
place. -/
def AssignsTo (assignments : List (String × Operand Builder)) (key : String) (o : Operand Builder) :
    Prop :=
  ∃ front back, assignments = front ++ (key, o) :: back ∧
    ∀ later ∈ back, Assigned.Apart (Assigned.pathOf key) (Assigned.pathOf later.1)

/-- A compiled statement mentions a query variable in a column with a text, behind the `LET`s of the
first list and beside those of the second one. -/
inductive Entry.Mentions [Naming] (b : Builder) :
    Entry Builder → List String → List String → String → String → Prop
  | read {e : Entry Builder} {w : Builder} {lets beside : List String} {v ref : String} :
      b.reading e = some w → AqlBuilder.Mentions (.statement w) lets beside v ref →
        Mentions b e lets beside v ref
  | updated {changes : Changes Builder} {lets beside : List String} {v ref : String} :
      AqlBuilder.Mentions (.selection b) lets beside v ref →
        Mentions b (.update changes) lets beside v ref
  | assignedColumn {changes : Changes Builder} {assignments : List (String × Operand Builder)}
      {key column v : String} :
      changes.assignments = .ok assignments → AssignsTo assignments key (.column column) →
        b.scope.Reads b.aliases column v →
        Mentions b (.update changes) b.definedNames [] v (b.scope.resolve column)
  | assignedQuery {changes : Changes Builder} {assignments : List (String × Operand Builder)}
      {key v ref : String} {q : Builder} {lets beside : List String} :
      changes.assignments = .ok assignments → AssignsTo assignments key (.query q) →
        AqlBuilder.Mentions (.statement (b.rescoped q)) lets beside v ref →
        Mentions b (.update changes) (b.definedNames ++ lets) beside v ref
  | adjusted {adjustment : Builder.Adjustment} {column v ref : String} {amount : Value}
      {lets beside : List String} :
      AqlBuilder.Mentions (.selection b) lets beside v ref →
        Mentions b (.adjust adjustment column amount) lets beside v ref
  /-- The adjusted attribute is read as a column. -/
  | adjustedColumn {adjustment : Builder.Adjustment} {column v : String} {amount : Value} :
      b.scope.Reads b.aliases column v →
        Mentions b (.adjust adjustment column amount) b.definedNames [] v (b.scope.resolve column)
  | removed {lets beside : List String} {v ref : String} :
      AqlBuilder.Mentions (.selection b) lets beside v ref →
        Mentions b (.delete none) lets beside v ref
  /-- A removal by key alone has no loop. -/
  | removedKey {key : Value} {lets beside : List String} {v ref : String} :
      (b.filters ≠ [] ∨ b.joins ≠ []) → AqlBuilder.Mentions (.selection b) lets beside v ref →
        Mentions b (.delete (some key)) lets beside v ref

/-- A way to compile whose assigned sub-queries are closed. -/
def Entry.Closed (outer : List String) : Entry Builder → Prop
  | .update changes => ∀ assignments, changes.assignments = .ok assignments →
      ∀ a ∈ assignments, a.2.Closed outer
  | _ => True

namespace Builder

variable {b w : Builder} {marks : List String} {ref key : String} {o : Operand Builder}
  {assignments : List (String × Operand Builder)}

section update

/-- The same clauses select the same documents. -/
theorem SameClauses.selection (h : b.SameClauses w) : w.selection = b.selection := by
  obtain ⟨bindings, error, rfl⟩ := h
  rfl

/-- The same clauses give a sub-query the same variable. -/
theorem SameClauses.rescoped [Naming] (h : b.SameClauses w) (q : Builder) :
    w.rescoped q = b.rescoped q := by
  obtain ⟨bindings, error, rfl⟩ := h
  rfl

/-- What stands in the text of an operand stands in the assigned object. -/
theorem yields_stands_assigned [Naming] (hassigns : AssignsTo assignments key o)
    (hsame : b.SameClauses w) (h : ∀ w, b.SameClauses w →
      (w.boundForUpdate o).Yields fun result => Stands marks ref result.1)
    (fields : Entries Assigned) :
    (w.assigned fields assignments).Yields fun result =>
      Stands marks ref (Assigned.nested result.1).text := by
  obtain ⟨front, back, rfl, hapart⟩ := hassigns
  induction front generalizing w fields with
  | nil =>
      refine (h w hsame).bind fun bound hbound => ?_
      have hleaf : Assigned.leafAt (Assigned.pathOf key) (Assigned.assign fields key bound.1) =
          some bound.1 := Assigned.leafAt_assignPath (Assigned.pathOf_ne_nil key)
      refine (yields_assigned_kept hleaf hapart).mono fun _ hresult => ?_
      exact Assigned.holds_leafAt (fun hmem htext => htext.trans (Aql.stands_attribute hmem))
        hresult hbound
  | cons first rest ih =>
      exact (w.yields_boundForUpdate first.2).bind fun bound hbound => ih (hsame.trans hbound) _

/-- The attributes of an update are behind the `LET`s of its query. -/
theorem yields_stands_updateText [Naming]
    (h : (w.assigned [] assignments).Yields fun result =>
      Stands marks ref (Assigned.nested result.1).text) :
    (w.updateText assignments).Yields fun c =>
      Stands (w.definedNames.map Aql.letMark ++ marks) ref c.aql := by
  refine (yields_updateText (q := fun fields => Stands marks ref (Assigned.nested fields).text)
    (Site.marked_loops w) h).mono fun c hc => ?_
  obtain ⟨loops, fields, collection, hmarked, hfields, -, haql⟩ := hc
  have hpiece : Stands marks ref (w.updatePiece fields collection) :=
    ((hfields.behind _).before _).before _
  have hlast : StandsIn marks ref [w.updatePiece fields collection] :=
    .of_mem hpiece List.mem_cons_self
  rw [haql]
  exact (hlast.behind (hmarked.before w.ordering)).intercalate

/-- What stands in the selection of an update stands in its statement. -/
theorem yields_stands_updateSelection [Naming] (h : w.selection.Yields (StandsIn marks ref)) :
    (w.updateText assignments).Yields fun c => Stands marks ref c.aql := by
  refine (yields_any _).bind fun collection _ =>
    (w.yields_assigned_same []).bind fun result hsame => ?_
  rw [← hsame.selection] at h
  exact h.map fun texts htexts => (htexts.before _).intercalate

end update

section removal

/-- A removal has what the selection of its documents has. -/
theorem yields_stands_removeSelection (h : w.selection.Yields (StandsIn marks ref))
    (collection : String) : (w.removeText collection).Yields fun c => Stands marks ref c.aql :=
  h.map fun _ htexts => (htexts.before _).intercalate

end removal

section copies

/-! ### What a working copy is compiled to -/

variable (hw : w.compiled = b.compiled)

include hw

/-- Builders that compile to the same clauses have the same scope. -/
theorem scope_of_compiled : w.scope = b.scope := by
  rw [← Clauses.scope_map Query.fragment b, ← Clauses.scope_map Query.fragment w]
  exact congrArg Clauses.scope hw

/-- Builders that compile to the same clauses define the same variables. -/
theorem definedNames_of_compiled : w.definedNames = b.definedNames := by
  rw [← Clauses.definedNames_map Query.fragment b, ← Clauses.definedNames_map Query.fragment w]
  exact congrArg Clauses.definedNames hw

/-- Builders that compile to the same clauses select the same documents. -/
theorem selection_of_compiled : w.selection = b.selection := by
  unfold selection
  rw [hw]

/-- Builders that compile to the same clauses give a sub-query the same variable. -/
theorem rescoped_of_compiled [Naming] (q : Builder) : w.rescoped q = b.rescoped q := by
  have haliases : w.compiled.aliases = b.compiled.aliases := congrArg Clauses.aliases hw
  change w.aliases = b.aliases at haliases
  unfold rescoped scopedVariable?
  rw [haliases]

end copies

section statements

variable {p : Compiled → Prop} {changes : Changes Builder} {lets : List String}

/-- What every update of a working copy yields, an update yields. -/
theorem yields_updateStatement [Naming] (hchanges : changes.assignments = .ok assignments)
    (h : ∀ w : Builder, w.compiled = b.compiled → (w.updateText assignments).Yields p) :
    (b.updateStatement changes).Yields p := by
  refine yields_checked b fun _ => (yields_ofExcept fun _ ha => ha).bind fun found hfound => ?_
  rw [hchanges] at hfound
  cases hfound
  split
  · exact yields_fail _
  · exact yields_onCopy h

/-- An update has what the selection of its documents has. -/
theorem yields_stands_updated [Naming] (h : b.selection.Yields (StandsIn marks ref))
    (changes : Changes Builder) :
    (b.updateStatement changes).Yields fun c => Stands marks ref c.aql := by
  refine yields_checked b fun _ => (yields_any _).bind fun assignments _ => ?_
  split
  · exact yields_fail _
  · refine yields_onCopy fun w hw => yields_stands_updateSelection ?_
    rwa [selection_of_compiled hw]

/-- An update has the columns that it assigns, behind the query variables. -/
theorem yields_stands_assignedColumn [Naming] {column : String}
    (hchanges : changes.assignments = .ok assignments)
    (hassigns : AssignsTo assignments key (.column column)) :
    (b.updateStatement changes).Yields fun c =>
      Stands (b.definedNames.map Aql.letMark) (b.scope.resolve column) c.aql := by
  refine yields_updateStatement hchanges fun w hw => ?_
  have hbound : ∀ w', w.SameClauses w' → (w'.boundForUpdate (.column column)).Yields fun result =>
      Stands [] (w.scope.resolve column) result.1 := fun w' hsame => by
    rw [← hsame.scope]
    exact yields_pure (Stands.refl (w'.scope.resolve column))
  have htext := yields_stands_updateText (yields_stands_assigned hassigns (.refl w) hbound [])
  rwa [List.append_nil, definedNames_of_compiled hw, scope_of_compiled hw] at htext

/-- An update has what a sub-query has that it assigns, behind the query variables. -/
theorem yields_stands_assignedQuery [Naming] {q : Builder}
    (hchanges : changes.assignments = .ok assignments)
    (hassigns : AssignsTo assignments key (.query q))
    (h : (Site.statement (b.rescoped q)).Shows marks ref) :
    (b.updateStatement changes).Yields fun c =>
      Stands (b.definedNames.map Aql.letMark ++ marks) ref c.aql := by
  refine yields_updateStatement hchanges fun w hw => ?_
  rw [← rescoped_of_compiled hw] at h
  have hassigned := yields_stands_assigned hassigns (.refl w)
    (fun _ hsame => Yields.map (hsame.rescoped q ▸ h).embedded fun _ htext => htext) []
  have htext := yields_stands_updateText hassigned
  rwa [definedNames_of_compiled hw] at htext

/-- An adjustment assigns an expression that begins with the text of its column. -/
theorem yields_stands_adjustment [Naming] {column aql : String} (haql : Stands [] ref aql)
    (bindings : Store) :
    (updateText { w with bindings := bindings } [(column, .expression aql)]).Yields fun c =>
      Stands (w.definedNames.map Aql.letMark) ref c.aql := by
  have hassigns : AssignsTo [(column, .expression aql)] column (.expression aql) :=
    ⟨[], [], rfl, fun _ hnone => nomatch hnone⟩
  have hassigned := yields_stands_assigned hassigns
    (.refl { w with bindings := bindings }) (fun _ _ => yields_pure haql) []
  have htext := yields_stands_updateText hassigned
  rw [List.append_nil] at htext
  exact htext

/-- An adjustment has the column that it reads, behind the query variables. -/
theorem yields_stands_adjustedColumn [Naming] (adjustment : Adjustment) (column : String)
    (amount : Value) :
    (b.adjustStatement adjustment column amount).Yields fun c =>
      Stands (b.definedNames.map Aql.letMark) (b.scope.resolve column) c.aql := by
  refine yields_checked b fun _ => ?_
  split
  · exact yields_fail _
  · refine yields_onCopy fun w hw => ?_
    have hcurrent := Stands.refl (w.scope.resolve column)
    rw [← definedNames_of_compiled hw, ← scope_of_compiled hw]
    exact yields_stands_adjustment
      ((((hcurrent.before " ").before adjustment.sign).before " @").before _) _

/-- An adjustment has what the selection of its documents has. -/
theorem yields_stands_adjusted [Naming] (h : b.selection.Yields (StandsIn marks ref))
    (adjustment : Adjustment) (column : String) (amount : Value) :
    (b.adjustStatement adjustment column amount).Yields fun c => Stands marks ref c.aql := by
  refine yields_checked b fun _ => ?_
  split
  · exact yields_fail _
  · refine yields_onCopy fun w hw => yields_stands_updateSelection ?_
    change w.selection.Yields _
    rwa [selection_of_compiled hw]

/-- A removal of all documents has what their selection has. -/
theorem yields_stands_removed (h : b.selection.Yields (StandsIn marks ref)) :
    (b.deleteStatement none).Yields fun c => Stands marks ref c.aql := by
  refine yields_checked b fun _ => yields_onCopy fun w hw => ?_
  refine (yields_any _).bind fun collection _ => yields_stands_removeSelection ?_ collection
  rwa [selection_of_compiled hw]

/-- The condition of a removal by key stands behind the conditions of its query. -/
theorem mentions_keyed {beside : List String} {v : String}
    (h : Mentions (.selection b) lets beside v ref) (bindings : Store) (x : Condition Query) :
    Mentions (.selection { b with bindings := bindings, filters := b.filters ++ [x] }) lets beside v
      ref := by
  cases h with
  | sorted hmem hreads => exact .sorted hmem hreads
  | chosen h =>
      refine .chosen ?_
      cases h with
      | definedBy hsplit h => exact .definedBy hsplit h
      | definedAs hsplit hreads => exact .definedAs hsplit hreads
      | main hsource h => exact .main hsource h
      | searched hsearch hfield hreads => exact .searched hsearch hfield hreads
      | joined hmem hsource h => exact .joined hmem hsource h
      | restricted hmem h => exact .restricted hmem h
      | filtered h =>
          cases h with
          | condition hmem h => exact .filtered (.condition (List.mem_append_left _ hmem) h)

/-- A removal by key alone has no loop. -/
theorem yields_stands_removedKey (hany : b.filters ≠ [] ∨ b.joins ≠ []) {key : Value}
    (h : (b.keyed key).selection.Yields (StandsIn marks ref)) :
    (b.deleteStatement (some key)).Yields fun c => Stands marks ref c.aql := by
  refine yields_deleteKey hany fun w hw collection => yields_stands_removeSelection ?_ collection
  rw [selection_of_compiled hw]
  exact h

end statements

/-- What a reading entry compiles is as closed as its builder. -/
theorem Closed.reading {outer : List String} {e : Entry Builder} (h : b.Closed true outer)
    (hread : b.reading e = some w) : w.Closed true outer := by
  have hnone : ∀ s ∈ ([.raw "1" none] : List (Selector Query)), ∀ q ∈ s.queries,
      q.Closed true (outer ++ b.definedNames) := by
    intro s hs q hq
    rw [List.mem_singleton.mp hs] at hq
    cases hq
  cases e with
  | select =>
      cases hread
      exact h
  | existence =>
      cases hread
      unfold probe
      split
      · exact { h with columns := hnone }
      · exact { h with }
  | aggregate function column =>
      cases hread
      exact { h with columns := fun _ hs => nomatch hs }
  | _ => cases hread

end Builder

namespace Entry.Mentions

open Builder

variable {b : Builder} {e : Entry Builder} {lets beside : List String} {v ref : String}

/-- **Every mentioned variable is in the statement, behind the `LET`s on the way.** -/
theorem shown [Naming] (h : e.Mentions b lets beside v ref) :
    (b.compile e).Yields fun c => Stands (lets.map Aql.letMark) ref c.aql := by
  cases h with
  | read hread h => exact (yields_reading hread h.shows).mono fun _ ⟨_, haql, hc⟩ => haql.trans hc
  | updated h => exact yields_stands_updated h.shows _
  | assignedColumn hchanges hassigns _ => exact yields_stands_assignedColumn hchanges hassigns
  | assignedQuery hchanges hassigns h =>
      rw [List.map_append]
      exact yields_stands_assignedQuery hchanges hassigns h.shows
  | adjusted h => exact yields_stands_adjusted h.shows _ _ _
  | adjustedColumn _ => exact yields_stands_adjustedColumn _ _ _
  | removed h => exact yields_stands_removed h.shows
  | removedKey hany h =>
      exact yields_stands_removedKey hany (mentions_keyed h _ _).shows

/-- A closed builder compiles to statements that mention only variables that are defined. -/
theorem declared [Naming] {outer : List String} (h : e.Mentions b lets beside v ref)
    (hb : b.Closed true outer) (he : e.Closed outer) : v ∈ outer ∨ v ∈ lets ∨ v ∈ beside := by
  cases h with
  | read hread h => exact h.declared (hb.reading hread)
  | updated h => exact h.declared hb
  | assignedColumn _ _ hreads =>
      have hknown := hb.known _ hreads.known
      grind
  | assignedQuery hchanges hassigns h =>
      obtain ⟨front, back, rfl, -⟩ := hassigns
      have hq := he _ hchanges _ (List.mem_append_right _ List.mem_cons_self) _ rfl
      have hmentioned := h.declared (hq.rescoped b)
      grind
  | adjusted h => exact h.declared hb
  | adjustedColumn hreads =>
      have hknown := hb.known _ hreads.known
      grind
  | removed h => exact h.declared hb
  | removedKey _ h => exact h.declared hb

end Entry.Mentions

end AqlBuilder

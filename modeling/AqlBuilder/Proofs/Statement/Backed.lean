import AqlBuilder.Proofs.Builder.BackedMethods
import AqlBuilder.Proofs.Statement.Assigned
import AqlBuilder.Proofs.Statement.Copied

/-!
# Statements with a value for every name

A statement takes along those values of a store that it mentions. So its names and its values match
if the store has all names that the statement refers to, and compiling a backed builder gives such a
statement in every way: what writing adds to the text of the clauses are collections, attributes and
names that were just filed.

- `Compiled.Matched` says that the names and the values of a statement match.
- `Entry.Clean` is the condition on the arguments of compiling.
- `Builder.Backed.matched_compile`: every way to compile a backed builder gives a matched statement.
-/

namespace AqlBuilder

open Outcome

/-- A statement with a value for each name it refers to and with no other values. -/
def Compiled.Matched (c : Compiled) : Prop :=
  ∀ name, name ∈ references c.aql ↔ name ∈ c.bindings.keys

/-- Assignments without marks in their attributes. -/
def Changes.Clean {Q : Type} (p : Q → Prop) (changes : Changes Q) : Prop :=
  ∀ assignments, changes.assignments = .ok assignments →
    ∀ a ∈ assignments, Unmarked a.1 ∧ a.2.Clean p

/-- Rows to be written whose attributes have no marks. -/
def Row.Clean (rows : List Row) : Prop :=
  ∀ documents, Row.documents rows = .ok documents →
    ∀ document ∈ documents, ∀ key ∈ Entries.keys document, Unmarked key

/-- A way to compile whose arguments have no marks. The rows of an insert do not reach its text, and
a key of a removal is a value in any case. -/
def Entry.Clean {Q : Type} (p : Q → Prop) : Entry Q → Prop
  | .select => True
  | .existence => True
  | .aggregate _ column => ∀ name ∈ column, Unmarked name
  | .insert _ _ => True
  | .upsert rows uniqueBy updated => Row.Clean rows ∧ (∀ name ∈ uniqueBy, Unmarked name) ∧
      ∀ names ∈ updated, ∀ name ∈ names, Unmarked name
  | .update changes => changes.Clean p
  | .adjust _ column _ => Unmarked column
  | .delete _ => True
  | .truncate => True

namespace Compiled

variable {s : Store} {aql : String}

/-- The values of a statement are those of a store that it mentions. -/
theorem matched_ofStore (hnamed : ∀ name ∈ s.names, IsName name) (h : Covered s.names aql) :
    (ofStore aql s).Matched := by
  intro name
  rw [keys_ofStore, List.mem_filter, Store.mem_keys_flatten]
  constructor
  · intro hname
    have hstored := h name hname
    exact ⟨hstored, (mentions_iff (hnamed name hstored)).mpr hname⟩
  · rintro ⟨hstored, hmentioned⟩
    exact (mentions_iff (hnamed name hstored)).mp hmentioned

end Compiled

section assignments

variable {names : Set String}

namespace Assigned

/-- A path without marks has none in its attributes. -/
theorem unmarked_pathOf {column : String} (h : Unmarked column) :
    ∀ part ∈ pathOf column, Unmarked part := by
  have hparts : ∀ part ∈ (Text.splitArrow column.toList).map fun part =>
      String.ofList (Text.trimBlanks part), Unmarked part := by
    intro part hpart
    obtain ⟨piece, hpiece, rfl⟩ := List.mem_map.mp hpart
    exact unmarked_trimBlanks fun hmark => h (Text.mem_splitArrow hpiece hmark)
  unfold pathOf
  dsimp only
  generalize (Text.splitArrow column.toList).map _ = parts at hparts
  cases parts with
  | nil => exact fun _ hpart => (List.not_mem_nil hpart).elim
  | cons first rest =>
      intro part hpart
      rcases List.mem_cons.mp hpart with rfl | hrest
      · exact unmarked_renamed (by decide) (hparts first List.mem_cons_self)
      · exact hparts part (List.mem_cons_of_mem first hrest)

/-- The text of assigned attributes refers to what their expressions refer to. -/
theorem Each.covered_text {a : Assigned} (h : a.Each Unmarked (Covered names)) :
    Covered names a.text :=
  h.text fun _ hentries => Aql.covered_objectLiteral hentries

/-- An object refers to no names but the given ones if what is assigned in it does not. -/
theorem each_assign {fields : Entries Assigned} (h : (nested fields).Each Unmarked (Covered names))
    {column aql : String} (hcolumn : Unmarked column) (haql : Covered names aql) :
    (nested (assign fields column aql)).Each Unmarked (Covered names) :=
  each_assignPath haql (unmarked_pathOf hcolumn) h

end Assigned

end assignments

namespace Builder

variable {b w : Builder} {α : Type}

theorem unmarked_storedAttribute {name : String} (h : Unmarked name) :
    Unmarked (storedAttribute name) := unmarked_renamed (by decide) h

/-- The attributes of a row are written without marks if they have none. -/
theorem unmarked_fromRow {attributes : List String} (h : ∀ a ∈ attributes, Unmarked a) :
    Unmarked (fromRow attributes) := by
  refine Aql.unmarked_objectLiteral fun entry hentry => ?_
  obtain ⟨a, ha, rfl⟩ := List.mem_map.mp hentry
  exact ⟨h a ha, Unmarked.append (by decide) (Column.unmarked_attributeText (h a ha))⟩

/-- What an upsert updates by default has no marks if the attributes of the rows have none. -/
theorem unmarked_updatedByDefault {rows : List Row} {documents : List Document}
    (hrows : Row.documents rows = .ok documents) (h : Row.Clean rows) (unique : List String) :
    ∀ a ∈ updatedByDefault documents unique, Unmarked a := by
  intro a ha
  obtain ⟨document, hdocument, name, hname, rfl⟩ := mem_updatedByDefault ha
  exact unmarked_storedAttribute (h documents hrows document hdocument name hname)

namespace Backed

theorem matched (h : w.Backed ∅) {aql : String} (haql : Covered w.bindings.names aql) :
    (Compiled.ofStore aql w.bindings).Matched := Compiled.matched_ofStore h.named haql

/-- The clauses of a backed builder refer to its names. -/
theorem compiled_within (h : w.Backed ∅) :
    w.compiled.Within Fragment.Within w.bindings.names w.bindings.names := by
  have hwithin := within_compiled h.within (kept_subset w.bindings ∅)
  rwa [Set.union_empty] at hwithin

/-- The scope of a backed builder is clean. -/
theorem scope_clean (h : w.Backed ∅) : w.scope.Clean := by
  have hscope := Aql.scope_clean h.compiled_within.source h.compiled_within.aliases
  have hvar : w.compiled.docVar = w.docVar := by
    unfold compiled Clauses.docVar Clauses.map
    cases w.source with
    | none => rfl
    | some s => cases s <;> rfl
  rwa [hvar] at hscope

theorem yields_statement (h : w.Backed ∅) : w.statement.Yields (Covered w.bindings.names) :=
  Aql.yields_statement h.compiled_within

/-- A working copy is as backed as its builder. -/
theorem onCopy (h : b.Backed ∅) {f : Builder → Outcome α} {p : α → Prop}
    (hf : ∀ w : Builder, w.Backed ∅ → (f w).Yields p) : (b.onCopy f).Yields p := by
  refine (yields_ofSupply fun n => ?_).bind hf
  exact ⟨h.named, within_workingCopy h.within n⟩

/-- The collection that a backed builder writes to has no mark. -/
theorem withTarget (h : w.Backed ∅) {f : String → Outcome α} {p : α → Prop}
    (hf : ∀ collection, Unmarked collection → (f collection).Yields p) :
    (ofExcept w.target >>= f).Yields p := by
  refine (yields_ofExcept fun collection hcollection => ?_).bind hf
  have hsource := h.within.source
  unfold target at hcollection
  split at hcollection
  · rename_i name v hs
    cases hcollection
    exact Aql.unmarked_collectionName h.within.tablePrefix (hsource _ hs).1
  all_goals cases hcollection

/-- A backed builder stays so with one more value. -/
theorem file (h : w.Backed ∅) (v : Value) (category : Category) :
    Backed ∅ { w with bindings := (w.bindings.add v category).2 } :=
  h.withStore (w.bindings.grows_add v category) (Store.names_add h.named)

/-- The name that a value was just filed under is in the store. -/
theorem covered_filed (w : Builder) (v : Value) (category : Category) :
    Covered (w.bindings.add v category).2.names ("@" ++ (w.bindings.add v category).1) :=
  covered_reference (w.bindings.isName_nextName category)
    ⟨category, w.bindings.nextName_mem_add v category⟩

/-- A backed builder stays so when it is asked whether there are rows. -/
theorem probe (h : w.Backed ∅) : w.probe.Backed ∅ := by
  unfold Builder.probe
  split
  · refine ⟨h.named, { h.within with columns := fun s hs => ?_ }⟩
    rw [List.mem_singleton.mp hs]
    exact ⟨(by decide : Unmarked "1"), fun _ hname => by cases hname⟩
  · exact ⟨h.named, { h.within with }⟩

/-- A backed builder stays so with an aggregate of a column without marks. -/
theorem aggregated (h : w.Backed ∅) (function : AggregateFunction) {column : Option String}
    (hcolumn : ∀ name ∈ column, Unmarked name) : (w.aggregated function column).Backed ∅ := by
  refine ⟨h.named, { h.within with
    columns := fun _ hs => (List.not_mem_nil hs).elim
    aggregate := fun a ha name hname => ?_ }⟩
  cases ha
  obtain ⟨hsome, -⟩ := Option.filter_eq_some_iff.mp hname
  exact hcolumn name hsome

/-- The documents of a backed builder are selected by texts that refer to its names. -/
theorem yields_selection (h : w.Backed ∅) :
    w.selection.Yields fun texts => ∀ text ∈ texts, Covered w.bindings.names text := by
  have hcompiled := h.compiled_within
  have hscope := Aql.scope_clean hcompiled.source hcompiled.aliases
  refine (Aql.yields_loops hcompiled).map fun loops hloops text htext => ?_
  rcases List.mem_append.mp htext with htext | hlimit
  · rcases List.mem_append.mp htext with hloop | hsort
    · exact hloops text hloop
    · exact (Aql.unmarked_sortIn hscope hcompiled.orders text hsort).covered
  · exact (Aql.unmarked_limitText _ _ text hlimit).covered

/-- A selection followed by a write that refers to names in the store. -/
theorem yields_written (h : w.Backed ∅) {write : String} (hwrite : Covered w.bindings.names write) :
    Yields (do pure (Compiled.ofStore (" ".intercalate ((← w.selection) ++ [write])) w.bindings))
      Compiled.Matched := by
  refine h.yields_selection.map fun selection hselection => h.matched ?_
  refine covered_intercalate separator_blank fun text htext => ?_
  rcases List.mem_append.mp htext with hselected | hlast
  · exact hselection text hselected
  · rw [List.mem_singleton.mp hlast]
    exact hwrite

/-- The removal of the documents of a backed builder matches. -/
theorem yields_removeText (h : w.Backed ∅) {collection : String} (hname : Unmarked collection) :
    (w.removeText collection).Yields Compiled.Matched := by
  have hremove : Unmarked ("REMOVE " ++ w.docVar.getD "" ++ " IN " ++ collection) :=
    Unmarked.append (Unmarked.append (Unmarked.append (by decide) h.scope_clean.unmarked_docVar)
      (by decide)) hname
  exact h.yields_written hremove.covered

section update

variable [Naming]

/-- Assigned attributes with the builder that holds their values. -/
structure Assigns (result : Entries Assigned × Builder) : Prop where
  builder : result.2.Backed ∅
  fields : (Assigned.nested result.1).Each Unmarked (Covered result.2.bindings.names)

/-- The text of an operand with the builder that holds its values, and that has all names of an
earlier store. -/
structure Stored (before : Store) (result : String × Builder) : Prop where
  builder : result.2.Backed ∅
  text : Covered result.2.bindings.names result.1
  grows : before.Grows result.2.bindings

/-- An operand of an update is written with names that are in the store afterwards. -/
theorem boundForUpdate (h : w.Backed ∅) {o : Operand Builder} (ho : o.Backed ∅) :
    (w.boundForUpdate o).Yields (Stored w.bindings) := by
  have hscope := h.scope_clean
  cases ho with
  | @value v hv =>
      have hheld := h.bindValue (Value.reference?_idToKey hv) .update (by decide)
      have htext := Bound.Within.covered_text hheld.bound hheld.builder.scope_clean
      rw [Set.union_empty] at htext
      exact yields_pure
        ⟨hheld.builder, htext.mono (Store.kept_subset_names _), hheld.grows⟩
  | expression haql => exact yields_pure ⟨h, haql.covered, .refl _⟩
  | column hname => exact yields_pure ⟨h, (hscope.resolve hname).covered, .refl _⟩
  | @query q hq =>
      have hadopted := adopted_absorb h (hq.rescoped w) .update
      refine hadopted.within_names.embedded.map fun aql haql => ?_
      rw [Set.union_empty] at haql
      exact ⟨hadopted.builder, haql, w.bindings.grows_merge _ (some .update)⟩

/-- Assignments are written with names that are in the store afterwards. -/
theorem assigned (h : w.Backed ∅) {fields : Entries Assigned}
    (hfields : (Assigned.nested fields).Each Unmarked (Covered w.bindings.names))
    {assignments : List (String × Operand Builder)}
    (hassignments : ∀ a ∈ assignments, Unmarked a.1 ∧ a.2.Backed ∅) :
    (w.assigned fields assignments).Yields Assigns := by
  induction assignments generalizing w fields with
  | nil => exact yields_pure ⟨h, hfields⟩
  | cons first rest ih =>
      obtain ⟨key, operand⟩ := first
      obtain ⟨hkey, ho⟩ := hassignments _ List.mem_cons_self
      refine (h.boundForUpdate ho).bind fun bound hbound => ?_
      exact ih hbound.builder
        (Assigned.each_assign (hfields.mono fun _ h => h.mono hbound.grows.names) hkey hbound.text)
        fun a ha => hassignments a (List.mem_cons_of_mem _ ha)

/-- An update matches if its assignments refer to names of the store. -/
theorem yields_updateText (h : w.Backed ∅) {assignments : List (String × Operand Builder)}
    (hassigned : (w.assigned [] assignments).Yields Assigns) :
    (w.updateText assignments).Yields Compiled.Matched := by
  refine h.withTarget fun collection hcollection => hassigned.bind fun result hresult => ?_
  have hvar : Unmarked ("UPDATE " ++ w.docVar.getD "" ++ " WITH ") :=
    Unmarked.append (Unmarked.append (by decide) h.scope_clean.unmarked_docVar) (by decide)
  have hupdate := (hvar.covered_append hresult.fields.covered_text).separated " IN " (by decide)
    hcollection.covered
  exact hresult.builder.yields_written hupdate

/-- What an adjustment assigns refers to the amount that was just filed. -/
theorem yields_adjusted (h : w.Backed ∅) (adjustment : Adjustment) {column : String}
    (hcolumn : Unmarked column) (amount : Value) :
    (updateText { w with bindings := (w.bindings.add amount .update).2 }
      [(column, .expression (w.scope.resolve column ++ " " ++ adjustment.sign ++ " @"
        ++ (w.bindings.add amount .update).1))]).Yields Compiled.Matched := by
  have hfiled := h.file amount .update
  refine hfiled.yields_updateText ?_
  have hcurrent : Unmarked (w.scope.resolve column ++ " " ++ adjustment.sign) := by
    refine Unmarked.append ((h.scope_clean.resolve hcolumn).append (by decide)) ?_
    cases adjustment <;> decide
  have hamount : Covered (w.bindings.add amount .update).2.names
      (" @" ++ (w.bindings.add amount .update).1) := by
    have hblank : Unmarked " " := by decide
    have hname := hblank.covered_append (covered_filed w amount .update)
    rw [← String.append_assoc] at hname
    exact hname
  have hadjusted := hcurrent.covered_append hamount
  rw [← String.append_assoc] at hadjusted
  exact yields_pure ⟨hfiled, Assigned.each_assign Assigned.each_none hcolumn hadjusted⟩

end update

/-- The condition on the key refers to the name that the key was just filed under. -/
theorem keyed (h : w.Backed ∅) (key : Value) :
    Backed ∅ { w with
      bindings := (w.bindings.add key .filter).2
      filters := w.filters ++ [keyCondition (w.bindings.add key .filter).1] } := by
  have hfiled := h.file key .filter
  have hname : (w.bindings.add key .filter).1 ∈ (w.bindings.add key .filter).2.kept :=
    ⟨.filter, by decide, w.bindings.nextName_mem_add key .filter⟩
  refine ⟨hfiled.named, { hfiled.within with filters := fun x hx => ?_ }⟩
  rcases List.mem_append.mp hx with hold | hnew
  · exact hfiled.within.filters x hold
  · rw [List.mem_singleton.mp hnew]
    exact ⟨(by decide : Unmarked idAttribute), (by decide : Unmarked Operator.equal.text),
      w.bindings.isName_nextName .filter, Or.inl hname⟩

/-- **Every way to compile gives a matched statement.**  The names that the statement of a backed
builder refers to are the names of its values. -/
theorem matched_compile [Naming] (h : b.Backed ∅) {e : Entry Builder} (he : e.Clean (Backed ∅)) :
    (b.compile e).Yields Compiled.Matched := by
  cases e with
  | select =>
      exact yields_checked b fun _ => h.onCopy fun w hw =>
        hw.yields_statement.map fun aql haql => hw.matched haql
  | existence =>
      refine yields_checked b fun _ => h.onCopy fun w hw =>
        hw.probe.yields_statement.map fun aql haql => ?_
      have hbindings : w.probe.bindings = w.bindings := by
        unfold Builder.probe
        split <;> rfl
      rw [hbindings] at haql
      have hopen : Unmarked "RETURN LENGTH((" := by decide
      exact hw.matched ((hopen.covered_append haql).closed (by decide) (by decide))
  | aggregate function column =>
      refine yields_checked b fun _ => ?_
      split
      · exact yields_fail _
      · refine h.onCopy fun w hw => ?_
        exact (hw.aggregated function he).yields_statement.map fun aql haql => hw.matched haql
  | insert rows ignoreErrors =>
      refine yields_checked b fun _ => (yields_any _).bind fun documents _ => ?_
      split
      · exact yields_fail _
      · refine h.onCopy fun w hw => hw.withTarget fun collection hcollection => yields_pure ?_
        have hrows := covered_filed w (storedRows documents) .insert
        have hloop := Aql.covered_loop (by decide : Unmarked "doc") hrows
        have htarget := hloop.separated " INSERT doc INTO " (by decide) hcollection.covered
        refine (hw.file _ .insert).matched ((Covered.closed htarget ?_ ?_).closed (by decide)
          (by decide)) <;> split <;> decide
  | upsert rows uniqueBy update =>
      obtain ⟨hrows, hunique, hupdate⟩ := he
      refine yields_checked b fun _ => ?_
      split
      · exact yields_fail _
      refine (yields_ofExcept fun documents hdocuments => hdocuments).bind
        fun documents hdocuments => ?_
      split
      · exact yields_fail _
      · refine h.onCopy fun w hw => hw.withTarget fun collection hcollection => yields_pure ?_
        have hfiled := covered_filed w (storedRows documents) .upsert
        have hloop := Aql.covered_loop (by decide : Unmarked "doc") hfiled
        have hstored : ∀ a ∈ uniqueBy.map storedAttribute, Unmarked a := by
          intro a ha
          obtain ⟨name, hname, rfl⟩ := List.mem_map.mp ha
          exact unmarked_storedAttribute (hunique name hname)
        have hdefault := unmarked_updatedByDefault hdocuments hrows (uniqueBy.map storedAttribute)
        have hfound := hloop.separated " UPSERT " (by decide) (unmarked_fromRow hstored).covered
        refine (hw.file _ .upsert).matched ?_
        refine ((hfound.separated " INSERT doc UPDATE " (by decide)
          (Unmarked.covered (unmarked_fromRow fun a ha => ?_))).separated " IN " (by decide)
          hcollection.covered)
        cases update with
        | none => exact hdefault a ha
        | some names =>
            obtain ⟨name, hname, rfl⟩ := List.mem_map.mp ha
            exact unmarked_storedAttribute (hupdate names rfl name hname)
  | update changes =>
      refine yields_checked b fun _ => (yields_ofExcept fun assignments ha => ha).bind
        fun assignments ha => ?_
      split
      · exact yields_fail _
      · exact h.onCopy fun w hw =>
          hw.yields_updateText (hw.assigned Assigned.each_none (he assignments ha))
  | adjust adjustment column amount =>
      refine yields_checked b fun _ => ?_
      split
      · exact yields_fail _
      · exact h.onCopy fun w hw => hw.yields_adjusted adjustment he amount
  | delete key =>
      refine yields_checked b fun _ => h.onCopy fun w hw =>
        hw.withTarget fun collection hcollection => ?_
      cases key with
      | none => exact hw.yields_removeText hcollection
      | some key =>
          dsimp only
          split
          · have hopen : Unmarked "REMOVE \x7b_key: " := by decide
            have hkey := hopen.covered_append (covered_filed w key .filter)
            exact yields_pure ((hw.file key .filter).matched
              (hkey.separated "\x7d IN " (by decide) hcollection.covered))
          · exact (hw.keyed key).yields_removeText hcollection
  | truncate =>
      refine yields_checked b fun _ => h.onCopy fun w hw =>
        hw.withTarget fun collection hcollection => ?_
      have hloop : Covered w.bindings.names (Aql.loop "doc" collection) :=
        Aql.covered_loop (by decide) hcollection.covered
      exact yields_pure (hw.matched
        (hloop.separated " REMOVE doc IN " (by decide) hcollection.covered))

end Backed

end Builder

end AqlBuilder

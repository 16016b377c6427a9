import AqlBuilder.Alias.Rules
import AqlBuilder.Proofs.Binding.References
import AqlBuilder.Proofs.Query.Visits
import AqlBuilder.Proofs.Statement.Assigned
import AqlBuilder.Proofs.Statement.Shape

/-!
# What a change reads

A change without declared collections declares what can be seen in its statement. It declares for
reading every collection that its query visits, and every collection that is visited by a sub-query
which is assigned to an attribute, as long as no later assignment takes its place. What it writes is
among that.

- `Entry.Reads`: the collections that a change reads.
- `Builder.reads_declared`: they are declared.
-/

namespace AqlBuilder

open Outcome

section objects

variable {name aql : String}

/-- An expression of an object literal is written behind a blank. -/
theorem iterates_objectLiteral {entries : List (String × String)} {key : String}
    (hmem : (key, aql) ∈ entries) (h : Iterates aql name) :
    Iterates (Aql.objectLiteral entries) name := by
  have hcolon : Opening ": " := by decide
  have hentry : Aql.objectKey key ++ ": " ++ aql ∈
      entries.map fun entry => Aql.objectKey entry.1 ++ ": " ++ entry.2 :=
    List.mem_map.mpr ⟨(key, aql), hmem, rfl⟩
  obtain ⟨before, after, hall⟩ : ∃ before after,
      ", ".intercalate (entries.map fun entry => Aql.objectKey entry.1 ++ ": " ++ entry.2) =
        before ++ (Aql.objectKey key ++ ": " ++ aql) ++ after := exists_intercalate hentry
  have htext : Aql.objectLiteral entries =
      "\x7b" ++ before ++ Aql.objectKey key ++ ": " ++ aql ++ (after ++ "\x7d") := by
    rw [Aql.objectLiteral_eq, hall]
    simp only [String.append_assoc]
  rw [htext]
  exact (h.behind _ hcolon).before _

/-- What holds of the expression that is assigned to a path holds of the text of the object, if it
passes to each object from its expressions. -/
theorem Assigned.holds_leafAt {p : String → Prop} {path : List String} {fields : Entries Assigned}
    (hobject : ∀ {entries : List (String × String)} {key text : String}, (key, text) ∈ entries →
      p text → p (Aql.objectLiteral entries))
    (hleaf : leafAt path fields = some aql) (h : p aql) : p (nested fields).text := by
  induction path generalizing fields with
  | nil => cases hleaf
  | cons first rest ih =>
      have hfield : ∀ field, fields.get? first = some field → p field.text →
          p (nested fields).text := by
        intro field hget hin
        have hmem : (first, field.text) ∈ fieldTexts fields := by
          rw [fieldTexts_eq_map]
          exact List.mem_map.mpr ⟨(first, field), Entries.mem_of_get? hget, rfl⟩
        rw [text]
        exact hobject hmem hin
      cases rest with
      | nil =>
          unfold leafAt at hleaf
          split at hleaf
          · rename_i text hget
            cases hleaf
            refine hfield _ hget ?_
            rwa [text]
          · cases hleaf
      | cons next rest =>
          rw [leafAt] at hleaf
          have hempty := leafAt_none (next :: rest)
          cases hget : fields.get? first with
          | none =>
              rw [hget, fieldsOf_none, hempty] at hleaf
              cases hleaf
          | some field =>
              rw [hget] at hleaf
              cases field with
              | value text =>
                  rw [fieldsOf_value, hempty] at hleaf
                  cases hleaf
              | nested inner => exact hfield _ hget (ih hleaf)

/-- What is assigned to a path is in the text of the object. -/
theorem Assigned.iterates_leafAt {path : List String} {fields : Entries Assigned}
    (hleaf : leafAt path fields = some aql) (h : Iterates aql name) :
    Iterates (nested fields).text name :=
  holds_leafAt iterates_objectLiteral hleaf h

end objects

section renamed

variable {b sub : Builder} {s s' : Source Query} {aliases : Registry} {name : String}

/-- A word with a number behind it is a word. -/
theorem isWord_append_toString {docVar : String} (h : IsWord docVar) (n : Nat) :
    IsWord (docVar ++ toString n) := by
  rw [isWord_iff, String.toList_append]
  exact ⟨h.solid.append (solid_toString n), by simp [h.ne_nil]⟩

/-- Another variable for the main loop leaves the visits as they are. -/
theorem Visits.withSource (hsource : sub.source = some s)
    (hvisits : ∀ name, Visits (.source sub.tablePrefix s) name →
      Visits (.source sub.tablePrefix s') name)
    (h : Visits (.statement sub) name) :
    Visits (.statement { sub with source := some s', aliases := aliases }) name := by
  have hloops : ∀ name, Visits (.loops sub) name →
      Visits (.loops { sub with source := some s', aliases := aliases }) name := by
    intro name h
    cases h with
    | defined hmem h => exact .defined hmem h
    | bound hmem h => exact .bound hmem h
    | main hs h =>
        rw [hsource] at hs
        cases hs
        exact .main rfl (hvisits _ h)
    | joined hmem hs h => exact .joined hmem hs h
    | restricted hmem h => exact .restricted hmem h
    | filtered h => exact .filtered h
  cases h with
  | alone hunions h =>
      refine .alone hunions ?_
      cases h with
      | looped h => exact .looped (hloops _ h)
      | having h => exact .having h
      | selected hmem h => exact .selected hmem h
  | branch hmem h => exact .branch hmem h

/-- A sub-query visits the same collections inside the loop of another query. -/
theorem Visits.rescoped [Naming] (h : Visits (.statement sub) name) (b : Builder) :
    Visits (.statement (b.rescoped sub)) name := by
  have hvar : ∀ {table docVar v : String}, b.scopedVariable? sub table docVar = some v →
      IsWord docVar → IsWord v := by
    intro table docVar v hv hword
    unfold Builder.scopedVariable? at hv
    split at hv
    · cases hv
      exact isWord_append_toString hword sub.id
    · cases hv
  unfold Builder.rescoped
  split
  · rename_i table docVar hs
    split
    · rename_i v hv
      refine h.withSource hs fun name h => ?_
      cases h with
      | collection hword hname => exact .collection (hvar hv hword) hname
    · exact h
  · rename_i table docVar hs
    split
    · rename_i v hv
      refine h.withSource hs fun name h => ?_
      cases h with
      | view hword hname => exact .view (hvar hv hword) hname
    · exact h
  · exact h

end renamed

/-- An assignment of a sub-query to an attribute, with no assignment behind it that may take its
place. -/
def Assigns (assignments : List (String × Operand Builder)) (key : String) (q : Builder) : Prop :=
  ∃ front back, assignments = front ++ (key, .query q) :: back ∧
    ∀ later ∈ back, Assigned.Apart (Assigned.pathOf key) (Assigned.pathOf later.1)

/-- A change of what a query selects reads a collection. A removal by key alone has no loop. -/
inductive Entry.Reads (b : Builder) : Entry Builder → String → Prop
  | updated {changes : Changes Builder} {name : String} :
      Visits (.loops b) name → Reads b (.update changes) name
  | assigned {changes : Changes Builder} {assignments : List (String × Operand Builder)}
      {key name : String} {q : Builder} :
      changes.assignments = .ok assignments → Assigns assignments key q →
        Visits (.statement q) name → Reads b (.update changes) name
  | adjusted {adjustment : Builder.Adjustment} {column name : String} {amount : Value} :
      Visits (.loops b) name → Reads b (.adjust adjustment column amount) name
  | removed {name : String} : Visits (.loops b) name → Reads b (.delete none) name
  | removedKey {key : Value} {name : String} :
      (b.filters ≠ [] ∨ b.joins ≠ []) → Visits (.loops b) name → Reads b (.delete (some key)) name
  | truncated {table docVar : String} :
      b.source = some (.collection table docVar) →
        Collections.isCollectionName (b.tablePrefix ++ table).toList = true →
          Reads b .truncate (b.tablePrefix ++ table)

namespace Builder

variable {b w : Builder} {name key : String} {q : Builder}
  {assignments : List (String × Operand Builder)}

section update

variable [Naming]

/-- Assignments to other paths leave an expression in its place. -/
theorem yields_assigned_kept {path : List String} {aql : String} {fields : Entries Assigned}
    (hleaf : Assigned.leafAt path fields = some aql)
    (hapart : ∀ later ∈ assignments, Assigned.Apart path (Assigned.pathOf later.1)) :
    (w.assigned fields assignments).Yields fun result =>
      Assigned.leafAt path result.1 = some aql := by
  induction assignments generalizing w fields with
  | nil => exact yields_pure hleaf
  | cons first rest ih =>
      refine (yields_any _).bind fun bound _ => ?_
      refine ih ?_ fun later hlater => hapart later (List.mem_cons_of_mem first hlater)
      rw [Assigned.assign, Assigned.leafAt_assignPath_of_apart (hapart first List.mem_cons_self)]
      exact hleaf

/-- A sub-query that is assigned has its loops in the text. -/
theorem yields_boundForUpdate_query (w : Builder) (h : Visits (.statement q) name) :
    (w.boundForUpdate (.query q)).Yields fun result => Iterates result.1 name :=
  Yields.map (h.rescoped w).shows.embedded fun _ haql => haql

/-- The loops of an assigned sub-query are in the assigned object. -/
theorem yields_assigned_query (hassigns : Assigns assignments key q)
    (h : Visits (.statement q) name) (fields : Entries Assigned) :
    (w.assigned fields assignments).Yields fun result =>
      Iterates (Assigned.nested result.1).text name := by
  obtain ⟨front, back, rfl, hapart⟩ := hassigns
  induction front generalizing w fields with
  | nil =>
      refine (yields_boundForUpdate_query w h).bind fun bound hbound => ?_
      have hleaf : Assigned.leafAt (Assigned.pathOf key) (Assigned.assign fields key bound.1) =
          some bound.1 := Assigned.leafAt_assignPath (Assigned.pathOf_ne_nil key)
      exact (yields_assigned_kept hleaf hapart).mono fun _ hresult =>
        Assigned.iterates_leafAt hresult hbound
  | cons first rest ih => exact (yields_any _).bind fun bound _ => ih _

end update

section pieces

/-- What is seen in the loops is seen in the statement. -/
theorem iterates_loops {loops ordering : List String} {last : String}
    (h : Seen name loops) :
    Iterates (" ".intercalate (loops ++ ordering ++ [last])) name :=
  (h.mono (List.subset_append_left loops ordering)).iterates (List.cons_ne_nil last [])

/-- An update has the loops that select its documents. -/
theorem yields_updateText_loops [Naming] (h : (Aql.loops w.compiled).Yields (Seen name)) :
    (w.updateText assignments).Yields fun c => Iterates c.aql name := by
  refine (yields_updateText (q := fun _ => True) h (yields_any _)).mono fun c hc => ?_
  obtain ⟨loops, fields, collection, hloops, -, -, haql⟩ := hc
  rw [haql]
  exact iterates_loops hloops

/-- An update has the loops of a sub-query that it assigns. -/
theorem yields_updateText_query [Naming] (hassigns : Assigns assignments key q)
    (h : Visits (.statement q) name) :
    (w.updateText assignments).Yields fun c => Iterates c.aql name := by
  have hwith : Opening " WITH " := by decide
  refine (yields_updateText (q := fun fields => Iterates (Assigned.nested fields).text name)
    (yields_any _) (yields_assigned_query hassigns h [])).mono fun c hc => ?_
  obtain ⟨loops, fields, collection, -, hfields, -, haql⟩ := hc
  have hpiece : Iterates (w.updatePiece fields collection) name :=
    ((hfields.behind _ hwith).before " IN ").before collection
  rw [haql]
  exact hpiece.last _

/-- A removal has the loops that select its documents. -/
theorem yields_removeText_loops (h : (Aql.loops w.compiled).Yields (Seen name))
    (collection : String) : (w.removeText collection).Yields fun c => Iterates c.aql name := by
  refine (yields_removeText h collection).mono fun c ⟨loops, hloops, haql⟩ => ?_
  rw [haql]
  exact iterates_loops hloops

/-- A removal by key puts a condition behind the conditions of the query, so nothing is lost. -/
theorem shows_keyed (h : Visits (.loops b) name) (bindings : Store) (x : Condition Query) :
    Visits (.loops { b with bindings := bindings, filters := b.filters ++ [x] }) name := by
  cases h with
  | defined hmem h => exact .defined hmem h
  | bound hmem h => exact .bound hmem h
  | main hs h => exact .main hs h
  | joined hmem hs h => exact .joined hmem hs h
  | restricted hmem h => exact .restricted hmem h
  | filtered h =>
      cases h with
      | condition hmem h => exact .filtered (.condition (List.mem_append_left _ hmem) h)

/-- A truncation has a loop over the collection. -/
theorem iterates_truncation {tablePrefix table : String}
    (hname : Collections.isCollectionName (tablePrefix ++ table).toList = true) :
    Iterates (Aql.loop "doc" (Aql.collectionName tablePrefix table) ++ " REMOVE doc IN "
      ++ Aql.collectionName tablePrefix table) (tablePrefix ++ table) := by
  have hvar : IsWord "doc" := ⟨by decide, by decide⟩
  have hcut : Aql.loop "doc" (Aql.collectionName tablePrefix table) ++ " REMOVE doc IN "
      ++ Aql.collectionName tablePrefix table =
      Aql.loop "doc" (Aql.collectionName tablePrefix table) ++ " " ++
        ("REMOVE doc IN " ++ Aql.collectionName tablePrefix table) := by
    simp [← String.toList_inj]
  rw [hcut]
  exact ⟨"doc", tablePrefix, table, hvar, rfl, hname, (Begins.refl _).before _⟩

end pieces

/-- What a change reads is iterated in its statement. -/
theorem yields_reads [Naming] {e : Entry Builder} (h : e.Reads b name) :
    (b.compile e).Yields fun c => Iterates c.aql name := by
  cases h with
  | updated h =>
      refine yields_checked b fun _ => (yields_any _).bind fun assignments _ => ?_
      split
      · exact yields_fail _
      · refine yields_onCopy fun w hw => yields_updateText_loops ?_
        rw [hw]
        exact h.shows
  | assigned hchanges hassigns h =>
      refine yields_checked b fun _ => (yields_ofExcept fun _ ha => ha).bind fun found hfound => ?_
      rw [hchanges] at hfound
      cases hfound
      split
      · exact yields_fail _
      · exact yields_onCopy fun w _ => yields_updateText_query hassigns h
  | adjusted h =>
      refine yields_checked b fun _ => ?_
      split
      · exact yields_fail _
      · refine yields_onCopy fun w hw => yields_updateText_loops ?_
        change (Aql.loops w.compiled).Yields _
        rw [hw]
        exact h.shows
  | removed h =>
      refine yields_checked b fun _ => yields_onCopy fun w hw => ?_
      refine (yields_any _).bind fun collection _ => yields_removeText_loops ?_ collection
      rw [hw]
      exact h.shows
  | removedKey hany h =>
      refine yields_deleteKey hany fun w hw collection => yields_removeText_loops ?_ collection
      rw [hw]
      exact (shows_keyed h _ _).shows
  | truncated hsource hname =>
      refine yields_checked b fun _ => yields_onCopy fun w hw => ?_
      refine (yields_ofExcept fun _ ht => ht).bind fun collection ht => yields_pure ?_
      rw [target_of_compiled hw, target, hsource] at ht
      cases ht
      exact iterates_truncation hname

/-- **A change declares what it reads.**  The collections that its query and the assigned
sub-queries visit are declared for reading, and so are those that it writes. -/
theorem reads_declared [Naming] (b : Builder) (e : Entry Builder) :
    (b.compile e).Yields fun c =>
      (Collections.inferred c.aql).write ⊆ (Collections.inferred c.aql).read ∧
        ∀ name, e.Reads b name → name ∈ (Collections.inferred c.aql).read := by
  intro n c hc
  refine ⟨Collections.write_subset_read c.aql, fun name h => ?_⟩
  exact Collections.mem_read_of_iterates (yields_reads h n c hc)

/-- A query over one collection with a variable. -/
def ofCollection (table docVar : String) : Builder :=
  { Clauses.empty 1 with source := some (.collection table docVar) }

/-- Characters of known houses with the place where they live, if there is one. -/
def settled : Builder :=
  { ofCollection "characters" "c" with
    filters := [⟨.memberOfQuery "house" (.of (ofCollection "houses" "h")) false, .and⟩]
    joins := [⟨.left, .of (ofCollection "locations" "l")⟩] }

/-- The seasons in which a character appears are assigned last. -/
def appearances : Entry Builder :=
  .update (.operands [("alive", .value (.bool true)),
    ("seen", .query (ofCollection "seasons" "s"))])

/-- A query over a collection has a loop over it. -/
theorem visits_ofCollection (table : String) {docVar : String} (hvar : IsWord docVar)
    (hname : Collections.isCollectionName ("" ++ table).toList = true) :
    Visits (.statement (ofCollection table docVar)) ("" ++ table) :=
  .alone rfl (.looped (.main rfl (.collection hvar hname)))

/-- All four collections are declared. -/
theorem settled_reads_declared :
    (settled.compile appearances 2).1.isOk = true ∧
      (settled.compile appearances).Yields fun c => ∀ name ∈ ["characters", "locations", "houses",
        "seasons"], name ∈ (Collections.inferred c.aql).read := by
  refine ⟨by decide +kernel, (reads_declared settled appearances).mono fun c hc name hname => ?_⟩
  refine hc.2 name ?_
  have hcharacters : appearances.Reads settled "characters" :=
    .updated (.main rfl (.collection ⟨by decide, by decide⟩ (by decide)))
  have hlocations : appearances.Reads settled "locations" :=
    .updated (.joined List.mem_cons_self rfl (.collection ⟨by decide, by decide⟩ (by decide)))
  have hhouses : appearances.Reads settled "houses" :=
    .updated (.filtered (.condition List.mem_cons_self
      (.member (visits_ofCollection "houses" ⟨by decide, by decide⟩ (by decide)))))
  have hseasons : appearances.Reads settled "seasons" :=
    .assigned rfl ⟨[("alive", .value (.bool true))], [], rfl, fun _ h => nomatch h⟩
      (visits_ofCollection "seasons" ⟨by decide, by decide⟩ (by decide))
  simp only [List.mem_cons, List.not_mem_nil, or_false] at hname
  rcases hname with rfl | rfl | rfl | rfl
  · exact hcharacters
  · exact hlocations
  · exact hhouses
  · exact hseasons

/-- Characters if there is a place at all. -/
def housed : Builder :=
  { ofCollection "characters" "c" with
    filters := [⟨.hasRows (.of (ofCollection "locations" "l")) false, .and⟩] }

/-- A collection whose rows are counted is not declared. -/
theorem counted_not_declared : ((housed.compile (.delete none) 2).1.map fun c =>
    (Collections.inferred c.aql).read).toOption = some ["characters"] := by
  decide +kernel

end Builder

end AqlBuilder

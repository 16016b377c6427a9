import AqlBuilder.Alias.Rules
import AqlBuilder.Proofs.Aql.QuietRows
import AqlBuilder.Proofs.Binding.Growth
import AqlBuilder.Proofs.Binding.Recognised
import AqlBuilder.Proofs.Statement.Declared
import AqlBuilder.Proofs.Transaction.Target

/-!
# What a change writes

A change without declared collections declares for writing what can be seen in its statement. All
statements that change documents name their target behind the keyword of the modification, and what
stands between the two are attributes, bound values and columns. So the target is seen there, and
nothing else. It is different with an update that assigns a sub-query: the loop of the sub-query
stands between the keyword and the target, and its collection is taken for the target.

- `Entry.Quiet` excludes assigned sub-queries, and attributes with blanks.
- `Builder.writes_target`: then exactly the collection of the query is declared for writing.
- `Builder.assigned_taken_for_target`: a sub-query that is assigned takes the place of the target.
-/

namespace AqlBuilder

open Outcome Text

/-- A path whose attributes have no blanks. -/
def Assigned.Unbroken (column : String) : Prop := ∀ part ∈ pathOf column, Solid part.toList

/-- An operand that brings in no word in front of a collection. A sub-query does. -/
def Operand.Quiet {Q : Type} : Operand Q → Prop
  | .value _ => True
  | .expression aql => Avoids .places aql
  | .column name => Column.Unbroken name
  | .query _ => False

/-- Assignments to attributes without blanks, and of no sub-queries. -/
def Changes.Quiet {Q : Type} (changes : Changes Q) : Prop :=
  ∀ assignments, changes.assignments = .ok assignments →
    ∀ a ∈ assignments, Assigned.Unbroken a.1 ∧ a.2.Quiet

/-- Rows to be written whose attributes have no blanks. -/
def Row.Quiet (rows : List Row) : Prop :=
  ∀ documents, Row.documents rows = .ok documents →
    ∀ document ∈ documents, ∀ key ∈ Entries.keys document, Solid key.toList

/-- A change without assigned sub-queries, whose attributes have no blanks. The rows of an insert do
not reach its text. -/
inductive Entry.Quiet {Q : Type} : Entry Q → Prop
  | insert (rows : List Row) (ignoreErrors : Bool) : Quiet (.insert rows ignoreErrors)
  | upsert {rows : List Row} {uniqueBy : List String} {updated : Option (List String)} :
      Row.Quiet rows → (∀ name ∈ uniqueBy, Solid name.toList) →
        (∀ names ∈ updated, ∀ name ∈ names, Solid name.toList) →
          Quiet (.upsert rows uniqueBy updated)
  | update {changes : Changes Q} : changes.Quiet → Quiet (.update changes)
  | adjust {column : String} (adjustment : Builder.Adjustment) (amount : Value) :
      Column.Unbroken column → Assigned.Unbroken column → Quiet (.adjust adjustment column amount)
  | delete (key : Option Value) : Quiet (.delete key)
  | truncate : Quiet .truncate

/-- A query that starts no modification, with its sub-queries compiled. -/
structure Builder.Quiet (b : Builder) : Prop where
  clauses : b.compiled.Quiet
  queries : ∀ f ∈ b.compiled.queries, f.Quiet

variable {b w : Builder}

/-- A quiet query starts no modification when it is compiled. -/
theorem Query.Quiet.compiled (h : (Query.of b).Quiet) : b.Quiet := by
  cases h with
  | of clauses queries =>
      refine ⟨Clauses.quiet_map Query.fragment clauses, ?_⟩
      rw [Builder.compiled, Clauses.queries_map]
      intro f hf
      obtain ⟨q, hq, rfl⟩ := List.mem_map.mp hf
      exact (queries q hq).fragment

/-- A text with a blank behind it ends with a blank. -/
theorem endsBlank_blank (text : String) : EndsBlank (text ++ " ").toList := by
  intro c hc
  have hlast : c = ' ' := by simpa using hc.symm
  rw [hlast]
  decide

namespace Builder

/-- The name that a value is filed under has no blanks. -/
theorem solid_filed (w : Builder) (v : Value) (category : Category) :
    Solid (w.bindings.add v category).1.toList :=
  (w.bindings.isName_nextName category).solid

/-- A bound value is no word that is looked for, and neither is text that stands for one. -/
theorem avoids_bindValue (w : Builder) (v : Value) (category : Category) (scope : Scope) :
    Avoids .all ((w.bindValue v category).1.text scope) := by
  have hfiled := avoids_placeholder (w.solid_filed v category)
  cases v with
  | string text =>
      unfold bindValue
      dsimp only
      split
      · rename_i hreference
        obtain ⟨name, hname, rfl⟩ := exists_isName_of_isPlaceholder hreference
        exact avoids_placeholder hname.solid
      · exact hfiled
  | _ => exact hfiled

namespace Quiet

/-- Builders that compile to the same clauses are quiet both or neither. -/
theorem of_compiled (h : b.Quiet) (hw : w.compiled = b.compiled) : w.Quiet := by
  refine ⟨?_, ?_⟩
  · rw [hw]
    exact h.clauses
  · rw [hw]
    exact h.queries

/-- The scope of a quiet builder is quiet. -/
theorem scope (h : w.Quiet) : w.scope.Quiet := by
  have hscope := h.clauses.scope h.clauses.aliases
  rwa [compiled, Clauses.docVar_map] at hscope

theorem neutral_docVar (h : w.Quiet) : Neutral (w.docVar.getD "") := h.scope.neutral_docVar

/-- The loops of a quiet builder start no modification. -/
theorem loops (h : w.Quiet) :
    (Aql.loops w.compiled).Yields fun texts => ∀ text ∈ texts, Avoids .changes text :=
  Aql.quiet_loops h.clauses h.queries

/-- The order and the limit of a quiet builder start no modification. -/
theorem ordering (h : w.Quiet) : ∀ text ∈ w.ordering, Avoids .changes text := by
  intro text htext
  rcases List.mem_append.mp htext with hsort | hlimit
  · exact Aql.avoids_sortIn (h.clauses.scope h.clauses.aliases) h.clauses.orders text hsort
  · exact Aql.avoids_limitText w.limit w.offset text hlimit

theorem withBindings (h : w.Quiet) (bindings : Store) : Quiet { w with bindings := bindings } :=
  ⟨{ h.clauses with }, h.queries⟩

/-- The condition on a key starts no modification. -/
theorem keyed (h : w.Quiet) (bindings : Store) {name : String} (hname : Solid name.toList) :
    Quiet { w with bindings := bindings, filters := w.filters ++ [keyCondition name] } := by
  refine ⟨?_, ?_⟩
  · rw [compiled_filtered]
    refine { h.clauses with filters := fun x hx => ?_ }
    rcases List.mem_append.mp hx with hold | hnew
    · exact h.clauses.filters x hold
    · rw [List.mem_singleton.mp hnew]
      exact ⟨(by decide : Column.Unbroken idAttribute),
        (by decide : Avoids .changes Operator.equal.text), hname⟩
  · have hqueries : (compiled { w with
        bindings := bindings
        filters := w.filters ++ [keyCondition name] }).queries = w.compiled.queries := by
      have hnone :
          [(keyCondition name).map Query.fragment].flatMap (fun x => x.test.queries) = [] := rfl
      rw [compiled_filtered]
      unfold Clauses.queries
      dsimp only
      rw [List.flatMap_append, hnone, List.append_nil]
    rw [hqueries]
    exact h.queries

end Quiet

section update

variable {assignments : List (String × Operand Builder)} {fields : Entries Assigned}

/-- The text of an operand has no word in front of a collection. -/
theorem yields_boundForUpdate_avoids [Naming] (hscope : w.scope.Quiet) {operand : Operand Builder}
    (h : operand.Quiet) :
    (w.boundForUpdate operand).Yields fun result => Avoids .places result.1 := by
  cases operand with
  | value v => exact yields_pure (w.avoids_bindValue v.idToKey .update _).places
  | expression aql => exact yields_pure h
  | column name => exact yields_pure (hscope.resolve h).places
  | query q => exact h.elim

/-- An adjusted attribute is a column, a sign and a bound value. -/
theorem avoids_adjusted (hscope : w.scope.Quiet) (adjustment : Adjustment) {column name : String}
    (hcolumn : Column.Unbroken column) (hfiled : Solid name.toList) :
    Avoids .places (w.scope.resolve column ++ " " ++ adjustment.sign ++ " @" ++ name) := by
  have hblank : Divides .places " ".toList := by decide
  have hsign : Avoids .places adjustment.sign := by
    cases adjustment <;> decide
  have hall := ((hscope.resolve hcolumn).places.divided hsign hblank).divided
    (avoids_placeholder hfiled).places hblank
  have hmark : " @" = " " ++ "@" := by decide
  rw [hmark, ← String.append_assoc]
  rw [← String.append_assoc] at hall
  exact hall

/-- So has the assigned object. -/
theorem yields_assigned_avoids [Naming] (hscope : w.scope.Quiet)
    (h : ∀ a ∈ assignments, Assigned.Unbroken a.1 ∧ a.2.Quiet)
    (hfields : (Assigned.nested fields).Each (fun key => Solid key.toList) (Avoids .places)) :
    (w.assigned fields assignments).Yields fun result =>
      (Assigned.nested result.1).Each (fun key => Solid key.toList) (Avoids .places) := by
  induction assignments generalizing w fields with
  | nil => exact yields_pure hfields
  | cons first rest ih =>
      obtain ⟨hkey, hoperand⟩ := h first List.mem_cons_self
      refine ((yields_boundForUpdate_avoids hscope hoperand).and
        (w.yields_boundForUpdate first.2)).bind fun bound ⟨htext, hsame⟩ => ?_
      have hscope' : bound.2.scope.Quiet := hsame.scope ▸ hscope
      exact ih hscope' (fun a ha => h a (List.mem_cons_of_mem first ha))
        (Assigned.each_assignPath htext hkey hfields)

end update

section statements

variable {tablePrefix table name : String}

/-- The pieces of a selection may stand in front of a modification. -/
theorem modifies_behind {pieces : List String} (hpieces : ∀ text ∈ pieces, Avoids .changes text)
    {last keyword middle : String} (hkeyword : keyword ∈ Collections.writeKeywords)
    (hmiddle : Avoids .places middle)
    (hname : Collections.isCollectionName (tablePrefix ++ table).toList = true)
    (hlast : last = keyword ++ " " ++ middle ++ " IN " ++ Aql.collectionName tablePrefix table) :
    Modifies (" ".intercalate (pieces ++ [last])) (tablePrefix ++ table) := by
  by_cases hne : pieces = []
  · have hends : EndsBlank "".toList := fun _ hc => nomatch hc
    refine modifies_in hends avoidsIn_nil hkeyword hmiddle hname ?_
    rw [hne, List.nil_append, String.intercalate_singleton, hlast]
    simp
  · have hfront : Avoids .changes (" ".intercalate pieces ++ " ") :=
      (avoids_intercalate divides_blank hpieces).before (by decide)
    refine modifies_in (endsBlank_blank _) hfront hkeyword hmiddle hname ?_
    rw [String.intercalate_append_of_ne_nil hne (List.cons_ne_nil last []),
      String.intercalate_singleton, hlast]
    simp [← String.toList_inj]

/-- An object with attributes of the iterated row. -/
theorem avoids_fromRow {attributes : List String} (h : ∀ a ∈ attributes, Solid a.toList) :
    Avoids .places (fromRow attributes) := by
  refine Aql.avoids_objectLiteral (by decide) fun entry hentry => ?_
  obtain ⟨a, ha, rfl⟩ := List.mem_map.mp hentry
  exact ⟨h a ha, (Column.avoids_attributeText (h a ha)).places.behind (by decide)⟩

/-- An attribute without blanks is stored under one without blanks. -/
theorem solid_storedAttribute (h : Solid name.toList) : Solid (storedAttribute name).toList := by
  unfold storedAttribute renamed
  split
  · decide
  · exact h

variable (hname : Collections.isCollectionName (tablePrefix ++ table).toList = true)

section rows

variable (hfiled : Solid name.toList)

include hfiled

/-- The loop over the rows to be written. -/
theorem avoids_rowsLoop : Avoids .changes (Aql.loop "doc" ("@" ++ name) ++ " ") := by
  have hvar : Neutral "doc" := ⟨by decide, by decide⟩
  exact (Aql.avoids_loop hvar (avoids_placeholder hfiled).changes).before (by decide)

include hname

/-- An insert modifies its collection. -/
theorem modifies_insert (ignoreErrors : Bool) :
    Modifies (Aql.loop "doc" ("@" ++ name) ++ " INSERT doc INTO "
      ++ Aql.collectionName tablePrefix table
      ++ (if ignoreErrors then " OPTIONS \x7bignoreErrors: true\x7d" else "")
      ++ " RETURN NEW._key") (tablePrefix ++ table) := by
  let m : Modification :=
    { tablePrefix, table
      front := Aql.loop "doc" ("@" ++ name) ++ " "
      keyword := "INSERT"
      middle := "doc"
      place := "INTO"
      rest := (if ignoreErrors then " OPTIONS \x7bignoreErrors: true\x7d" else "")
        ++ " RETURN NEW._key"
      front_ends := endsBlank_blank _
      front_avoids := avoids_rowsLoop hfiled
      keyword_mem := by decide
      middle_avoids := by decide
      place_mem := by decide
      isName := hname
      rest_begins := by cases ignoreErrors <;> decide
      rest_avoids := by cases ignoreErrors <;> decide }
  refine ⟨m, ?_, rfl⟩
  simp [m, Modification.aql, ← String.toList_inj]

/-- An upsert modifies its collection. -/
theorem modifies_upsert {unique updated : String} (hunique : Avoids .places unique)
    (hupdated : Avoids .places updated) :
    Modifies (Aql.loop "doc" ("@" ++ name) ++ " UPSERT " ++ unique ++ " INSERT doc UPDATE "
      ++ updated ++ " IN " ++ Aql.collectionName tablePrefix table) (tablePrefix ++ table) := by
  have hbetween : Divides .places " INSERT doc UPDATE ".toList := by decide
  refine modifies_in (endsBlank_blank _) (avoids_rowsLoop hfiled)
    (by decide : "UPSERT" ∈ Collections.writeKeywords) (hunique.divided hupdated hbetween) hname ?_
  simp [← String.toList_inj]

/-- The removal of a document by its key modifies its collection. -/
theorem modifies_removeKey :
    Modifies ("REMOVE \x7b_key: @" ++ name ++ "\x7d IN " ++ Aql.collectionName tablePrefix table)
      (tablePrefix ++ table) := by
  have hends : EndsBlank "".toList := fun _ hc => nomatch hc
  have hopen : Precedes .places "\x7b_key: ".toList := by decide
  have hclose : Follows .places "\x7d".toList := by decide
  refine modifies_in hends avoidsIn_nil (by decide : "REMOVE" ∈ Collections.writeKeywords)
    (((avoids_placeholder hfiled).places.behind hopen).before hclose) hname ?_
  simp [← String.toList_inj]

end rows

include hname

/-- A truncation modifies its collection. -/
theorem modifies_truncation :
    Modifies (Aql.loop "doc" (Aql.collectionName tablePrefix table) ++ " REMOVE doc IN "
      ++ Aql.collectionName tablePrefix table) (tablePrefix ++ table) := by
  have hvar : Neutral "doc" := ⟨by decide, by decide⟩
  have hcollection := Aql.avoids_collectionName (Collections.solid_of_isCollectionName hname)
  have hfront := (Aql.avoids_loop hvar hcollection.changes).before
    (by decide : Follows .changes " ".toList)
  refine modifies_in (endsBlank_blank _) hfront (by decide : "REMOVE" ∈ Collections.writeKeywords)
    (by decide : Avoids .places "doc") hname ?_
  simp [← String.toList_inj]

variable (h : w.Quiet)

include h

/-- An update modifies the collection of its builder. -/
theorem yields_updateText_modifies [Naming]
    (htarget : w.target = .ok (Aql.collectionName tablePrefix table))
    {assignments : List (String × Operand Builder)}
    (hassignments : ∀ a ∈ assignments, Assigned.Unbroken a.1 ∧ a.2.Quiet) :
    (w.updateText assignments).Yields fun c => Modifies c.aql (tablePrefix ++ table) := by
  have hassigned := yields_assigned_avoids h.scope hassignments Assigned.each_none
  refine (yields_updateText (q := fun fields => (Assigned.nested fields).Each
    (fun key => Solid key.toList) (Avoids .places)) h.loops hassigned).mono fun c hc => ?_
  obtain ⟨loops, fields, collection, hloops, hfields, hcollection, haql⟩ := hc
  rw [htarget] at hcollection
  cases hcollection
  have hobject : Avoids .places (Assigned.nested fields).text :=
    hfields.text fun _ hentries => Aql.avoids_objectLiteral (by decide) hentries
  have hwith : Divides .places " WITH ".toList := by decide
  rw [haql]
  refine modifies_behind (List.forall_mem_append.mpr ⟨hloops, h.ordering⟩)
    (by decide : "UPDATE" ∈ Collections.writeKeywords)
    (h.neutral_docVar.avoids.places.divided hobject hwith) hname ?_
  simp [updatePiece, ← String.toList_inj]

/-- A removal modifies the collection of its builder. -/
theorem yields_removeText_modifies :
    (w.removeText (Aql.collectionName tablePrefix table)).Yields fun c =>
      Modifies c.aql (tablePrefix ++ table) := by
  refine (yields_removeText h.loops _).mono fun c ⟨loops, hloops, haql⟩ => ?_
  rw [haql]
  refine modifies_behind (List.forall_mem_append.mpr ⟨hloops, h.ordering⟩)
    (by decide : "REMOVE" ∈ Collections.writeKeywords) h.neutral_docVar.avoids.places hname ?_
  simp [removePiece]

end statements

section changes

variable {table docVar : String}

/-- Every change is a statement that modifies the collection of its query. -/
theorem yields_modifies [Naming] (h : b.Quiet)
    (hsource : b.source = some (.collection table docVar))
    (hname : Collections.isCollectionName (b.tablePrefix ++ table).toList = true)
    {e : Entry Builder} (he : e.Quiet) :
    (b.compile e).Yields fun c => Modifies c.aql (b.tablePrefix ++ table) := by
  cases he with
  | insert rows ignoreErrors =>
      refine yields_checked b fun _ => (yields_any _).bind fun documents _ => ?_
      split
      · exact yields_fail _
      · refine yields_onCopy fun w hw => ?_
        rw [target_of_source hw hsource]
        exact yields_pure
          (modifies_insert hname (w.solid_filed (storedRows documents) .insert) ignoreErrors)
  | @upsert rows uniqueBy updated hrows hunique hupdated =>
      refine yields_checked b fun _ => ?_
      split
      · exact yields_fail _
      refine (yields_ofExcept fun documents hdocuments => hdocuments).bind
        fun documents hdocuments => ?_
      split
      · exact yields_fail _
      · refine yields_onCopy fun w hw => ?_
        rw [target_of_source hw hsource]
        refine yields_pure (modifies_upsert hname
          (w.solid_filed (storedRows documents) .upsert)
          (avoids_fromRow fun a ha => ?_) (avoids_fromRow fun a ha => ?_))
        · obtain ⟨name, hmem, rfl⟩ := List.mem_map.mp ha
          exact solid_storedAttribute (hunique name hmem)
        · cases updated with
          | none =>
              obtain ⟨document, hdocument, name, hmem, rfl⟩ := mem_updatedByDefault ha
              exact solid_storedAttribute (hrows documents hdocuments document hdocument name hmem)
          | some names =>
              obtain ⟨name, hmem, rfl⟩ := List.mem_map.mp ha
              exact solid_storedAttribute (hupdated names rfl name hmem)
  | update hchanges =>
      refine yields_checked b fun _ => (yields_ofExcept fun a ha => ha).bind
        fun assignments hassignments => ?_
      split
      · exact yields_fail _
      · exact yields_onCopy fun w hw => yields_updateText_modifies hname (h.of_compiled hw)
          (target_of_source hw hsource) (hchanges assignments hassignments)
  | @adjust column adjustment amount hcolumn hkey =>
      refine yields_checked b fun _ => ?_
      split
      · exact yields_fail _
      · refine yields_onCopy fun w hw => ?_
        have hw' := h.of_compiled hw
        have htarget := target_of_source hw hsource
        refine yields_updateText_modifies hname (hw'.withBindings (w.bindings.add amount .update).2)
          htarget fun a ha => ?_
        rw [List.mem_singleton.mp ha]
        exact ⟨hkey, avoids_adjusted hw'.scope adjustment hcolumn (w.solid_filed amount .update)⟩
  | delete key =>
      refine yields_checked b fun _ => yields_onCopy fun w hw => ?_
      rw [target_of_source hw hsource]
      have hw' := h.of_compiled hw
      cases key with
      | none => exact yields_removeText_modifies hname hw'
      | some key =>
          have hfiled := w.solid_filed key .filter
          change Yields (if _ then _ else _) _
          split
          · exact yields_pure (modifies_removeKey hname hfiled)
          · exact yields_removeText_modifies hname (hw'.keyed _ hfiled)
  | truncate =>
      refine yields_checked b fun _ => yields_onCopy fun w hw => ?_
      rw [target_of_source hw hsource]
      exact yields_pure (modifies_truncation hname)

/-- **A change declares its target for writing, and nothing else.**  Without assigned sub-queries
there is no collection between the keyword of the modification and its target. -/
theorem writes_target [Naming] (hquiet : (Query.of b).Quiet)
    (hsource : b.source = some (.collection table docVar))
    (hname : Collections.isCollectionName (b.tablePrefix ++ table).toList = true)
    {e : Entry Builder} (he : e.Quiet) :
    (b.compile e).Yields fun c => (Collections.inferred c.aql).write = [b.tablePrefix ++ table] :=
  (yields_modifies hquiet.compiled hsource hname he).mono fun _ haql => haql.write_inferred

/-- The characters of known houses with their places, the oldest first. -/
def eldest : Builder :=
  { settled with
    orders := [.column "born" .ascending]
    limit := some 3 }

/-- An attribute of an attribute is assigned a column, and a counter is raised. -/
def promoted : Entry Builder :=
  .update (.operands [("rank->of", .column "house"), ("seen", .expression "c.seen + 1"),
    ("update", .value (.string "in"))])

/-- A query over a collection is quiet if neither name has a keyword in it. -/
theorem quiet_ofCollection {table docVar : String} (htable : Solid table.toList)
    (hvar : Neutral docVar) : Clauses.Quiet (ofCollection table docVar) where
  tablePrefix := (by decide : Solid "".toList)
  source s hs := by
    cases hs
    exact ⟨htable, hvar⟩
  columns _ h := nomatch h
  filters _ h := nomatch h
  groups _ h := nomatch h
  havings _ h := nomatch h
  aggregate _ h := nomatch h
  orders _ h := nomatch h
  unionOrders _ h := nomatch h
  search _ h := nomatch h
  definitions _ h := nomatch h
  aliases := ⟨(fun _ h => nomatch h), (fun _ h => nomatch h), fun _ h => nomatch h⟩

/-- The query for the eldest is quiet. -/
theorem quiet_eldest : (Query.of eldest).Quiet := by
  have hsimple : ∀ table docVar, Solid table.toList → Neutral docVar →
      (Query.of (ofCollection table docVar)).Quiet :=
    fun _ _ htable hvar => .of (quiet_ofCollection htable hvar) fun _ hq => nomatch hq
  have hcharacters : Clauses.Quiet (ofCollection "characters" "c") :=
    quiet_ofCollection (by decide) ⟨by decide, by decide⟩
  refine .of { hcharacters with
    filters := fun x hx => ?_
    orders := fun o ho => ?_ } fun q hq => ?_
  · rw [List.mem_singleton.mp hx]
    exact (by decide : Column.Unbroken "house")
  · rw [List.mem_singleton.mp ho]
    exact (by decide : Column.Unbroken "born")
  · have hqueries : Clauses.queries eldest =
        [.of (ofCollection "houses" "h"), .of (ofCollection "locations" "l")] := rfl
    rw [hqueries] at hq
    rcases List.mem_cons.mp hq with rfl | hq
    · exact hsimple "houses" "h" (by decide) ⟨by decide, by decide⟩
    · rw [List.mem_singleton.mp hq]
      exact hsimple "locations" "l" (by decide) ⟨by decide, by decide⟩

/-- Only the characters are written. -/
theorem eldest_writes_target :
    (eldest.compile promoted 2).1.isOk = true ∧
      (eldest.compile promoted).Yields fun c =>
        (Collections.inferred c.aql).write = ["characters"] := by
  have hpromoted : promoted.Quiet := by
    refine .update fun assignments hassignments a ha => ?_
    cases hassignments
    simp only [List.mem_cons, List.not_mem_nil, or_false] at ha
    rcases ha with rfl | rfl | rfl
    · exact ⟨by unfold Assigned.Unbroken; decide, (by decide : Column.Unbroken "house")⟩
    · exact ⟨by unfold Assigned.Unbroken; decide, (by decide : Avoids .places "c.seen + 1")⟩
    · exact ⟨by unfold Assigned.Unbroken; decide, trivial⟩
  exact ⟨by decide +kernel, writes_target quiet_eldest rfl (by decide) hpromoted⟩

/-- The first place by name is assigned. -/
def rehomed : Entry Builder :=
  .update (.operands [("home", .query { ofCollection "locations" "l" with limit := some 1 })])

/-- The collection of an assigned sub-query is taken for the target. -/
theorem assigned_taken_for_target :
    (((ofCollection "characters" "c").compile rehomed 2).1.map fun c =>
      (Collections.inferred c.aql).write).toOption = some ["locations"] := by
  decide +kernel

end changes

end Builder

end AqlBuilder

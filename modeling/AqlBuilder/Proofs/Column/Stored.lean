import AqlBuilder.Proofs.Statement.Assigned
import AqlBuilder.Proofs.Text.Joined
import AqlBuilder.Proofs.Value.Stored
import AqlBuilder.Column.Resolve
import AqlBuilder.Statement.Write

/-!
# Where a column is looked for

A column that is a path of attributes of the main document is written with its first attribute
renamed from `id` to `_key` and all others as they are; an update renames its paths in the same way.
In a stored document every attribute of a path has been renamed. The two paths are the same just if
no attribute behind the first one is `id`; otherwise nothing is stored where the column is looked
for.

- `Column.Plain` are the attributes that a path is written with as they are.
- `Scope.resolve_dotted`, `Assigned.pathOf_arrowed`: the path in a statement and in an update.
- `Scope.found_where_stored_iff` is the law of both.
-/

namespace AqlBuilder

open Text

namespace Column

variable {docVar : String} {path path' : List String} {name : String}

/-- An attribute that can be written in a path: it has no mark of a path in it and no blanks around
it. -/
structure Plain (segment : List Char) : Prop where
  ne_nil : segment ≠ []
  ne_star : segment ≠ ['*']
  dot : '.' ∉ segment
  arrow : Whole segment
  bracket : '[' ∉ segment
  tick : '\x60' ∉ segment
  trimmed : Trimmed segment

/-- A path written with dots. -/
def dotted (path : List String) : String := ".".intercalate path

/-- A path written with arrows. -/
def arrowed (path : List String) : String := "->".intercalate path

/-- A path of attributes as they are, behind a document variable, or on its own if the variable is
empty. -/
def quoted (docVar : String) (path : List String) : String :=
  let texts := path.map fun name => attributeText name.toList
  ".".intercalate (if docVar.isEmpty then texts else docVar :: texts)

/-- The path under which an attribute of a document is stored. -/
def storedPath (path : List String) : List String := path.map Builder.storedAttribute

/-- The path under which an attribute is looked for. -/
def searchedPath : List String → List String
  | [] => []
  | first :: rest => Builder.storedAttribute first :: rest

/-- The key can be written in a path. -/
theorem plain_keyAttribute : Plain keyAttribute.toList where
  ne_nil := by decide
  ne_star := by decide
  dot := by decide
  arrow := by decide
  bracket := by decide
  tick := by decide
  trimmed := ⟨by decide, by decide⟩

/-- A plain attribute is stored under a plain one. -/
theorem plain_storedAttribute (h : Plain name.toList) :
    Plain (Builder.storedAttribute name).toList := by
  unfold Builder.storedAttribute renamed
  split
  · exact plain_keyAttribute
  · exact h

/-- A plain path is stored under a plain one. -/
theorem plain_storedPath (h : ∀ name ∈ path, Plain name.toList) :
    ∀ name ∈ storedPath path, Plain name.toList :=
  List.forall_mem_map.mpr fun name hname => plain_storedAttribute (h name hname)

/-- A plain path is looked for under a plain one. -/
theorem plain_searchedPath (h : ∀ name ∈ path, Plain name.toList) :
    ∀ name ∈ searchedPath path, Plain name.toList := by
  cases path with
  | nil => exact h
  | cons first rest =>
      obtain ⟨hfirst, hrest⟩ := List.forall_mem_cons.mp h
      exact List.forall_mem_cons.mpr ⟨plain_storedAttribute hfirst, hrest⟩

/-- A path is looked for where it is stored just if no attribute behind the first one is `id`. -/
theorem searchedPath_eq_storedPath_iff (hpath : path ≠ []) :
    searchedPath path = storedPath path ↔ idAttribute ∉ path.tail := by
  obtain ⟨first, rest, rfl⟩ := List.exists_cons_of_ne_nil hpath
  have hname : ∀ name, Builder.storedAttribute name = name ↔ name ≠ idAttribute := by
    intro name
    unfold Builder.storedAttribute renamed
    by_cases h : name = idAttribute
    · rw [if_pos h, h]
      decide
    · rw [if_neg h]
      exact iff_of_true rfl h
  have hrest : rest.map Builder.storedAttribute = rest ↔ idAttribute ∉ rest := by
    have hall : rest.map Builder.storedAttribute = rest.map id ↔
      ∀ name ∈ rest, name ≠ idAttribute := by
      rw [List.map_inj_left]
      exact forall₂_congr fun name _ => hname name
    rw [List.map_id] at hall
    exact hall.trans ⟨fun h hmem => h _ hmem rfl, fun h name hmem hid => h (hid ▸ hmem)⟩
  rw [searchedPath, storedPath, List.map_cons, List.cons_inj_right, eq_comm, hrest]
  rfl

theorem toList_dotted (path : List String) :
    (dotted path).toList = ['.'].intercalate (path.map String.toList) := String.toList_intercalate

/-- A plain path with dots is in normal form. -/
theorem normalForm_dotted (h : ∀ name ∈ path, Plain name.toList) (hpath : path ≠ []) :
    normalForm (dotted path).toList = (dotted path).toList := by
  have hpieces : ∀ piece ∈ path.map String.toList, Plain piece := List.forall_mem_map.mpr h
  have htrimmed : Trimmed (['.'].intercalate (path.map String.toList)) :=
    (trimmed_intercalate
      (fun piece hpiece => ⟨(hpieces piece hpiece).ne_nil, (hpieces piece hpiece).trimmed⟩)
      (mt List.map_eq_nil_iff.mp hpath)).2
  rw [normalForm, toList_dotted, htrimmed.trimBlanks_eq,
    dotArrows_intercalate fun piece hpiece => (hpieces piece hpiece).arrow]

/-- A plain path with dots is cut into its attributes. -/
theorem segments_dotted (h : ∀ name ∈ path, Plain name.toList) (hpath : path ≠ []) :
    segments (dotted path).toList = path.map String.toList := by
  have hpieces : ∀ piece ∈ path.map String.toList, Plain piece := List.forall_mem_map.mpr h
  rw [toList_dotted]
  exact splitBy_intercalate (fun piece hpiece => (hpieces piece hpiece).dot)
    (mt List.map_eq_nil_iff.mp hpath)

/-- A path is written as the one under which it is looked for. -/
theorem pathText_eq_quoted (docVar : String) (path : List String) :
    pathText docVar (path.map String.toList) = quoted docVar (searchedPath path) := by
  have htexts : attributeTexts (path.map String.toList) =
      (searchedPath path).map fun name => attributeText name.toList := by
    cases path with
    | nil => rfl
    | cons first rest =>
        have hfirst : (if first.toList = idAttribute.toList then keyAttribute.toList
            else first.toList) = (Builder.storedAttribute first).toList := by
          unfold Builder.storedAttribute renamed
          simp only [String.toList_inj]
          split <;> rfl
        rw [List.map_cons, attributeTexts, hfirst, List.map_map]
        rfl
  rw [pathText, htexts]
  rfl

/-- A plain attribute stands between backticks as it is. -/
theorem tickedAttribute_of_plain {segment : List Char} (h : Plain segment) :
    tickedAttribute segment = '\x60' :: segment ++ ['\x60'] := by
  have hname : segment.takeWhile (· != '[') = segment := by
    rw [List.takeWhile_eq_self_iff]
    intro c hc
    simpa using fun hbracket : c = '[' => h.bracket (hbracket ▸ hc)
  have hne : segment.isEmpty = false := List.isEmpty_eq_false_iff.mpr h.ne_nil
  rw [tickedAttribute, if_neg h.ne_star]
  dsimp only
  rw [hname, hne, if_neg Bool.false_ne_true, List.drop_length, List.append_nil,
    Aql.ticked_of_notMem h.tick]

/-- Different plain attributes are written differently. -/
theorem attributeText_inj {name' : String} (h : Plain name.toList) (h' : Plain name'.toList) :
    attributeText name.toList = attributeText name'.toList ↔ name = name' := by
  refine ⟨fun htext => ?_, fun hname => by rw [hname]⟩
  have hticked := String.ofList_inj.mp htext
  rw [tickedAttribute_of_plain h, tickedAttribute_of_plain h'] at hticked
  exact String.toList_inj.mp (List.append_cancel_right (List.cons.inj hticked).2)

/-- There is no dot in what is written for a plain attribute. -/
theorem dot_notMem_attributeText (h : Plain name.toList) :
    '.' ∉ (attributeText name.toList).toList := by
  rw [attributeText, String.toList_ofList, tickedAttribute_of_plain h]
  simpa using h.dot

/-- Different plain paths are written differently. -/
theorem map_attributeText_inj (h : ∀ name ∈ path, Plain name.toList)
    (h' : ∀ name ∈ path', Plain name.toList)
    (htexts : path.map (fun name => attributeText name.toList) =
      path'.map fun name => attributeText name.toList) : path = path' := by
  induction path generalizing path' with
  | nil => exact (List.map_eq_nil_iff.mp htexts.symm).symm
  | cons first rest ih =>
      cases path' with
      | nil => cases htexts
      | cons first' rest' =>
          obtain ⟨hfirst, hrest⟩ := List.cons.inj htexts
          rw [(attributeText_inj (h first List.mem_cons_self)
            (h' first' List.mem_cons_self)).mp hfirst,
            ih (fun name hname => h name (.tail _ hname))
              (fun name hname => h' name (.tail _ hname))
              hrest]

/-- Different paths of plain attributes are written differently. -/
theorem quoted_inj (h : ∀ name ∈ path, Plain name.toList) (h' : ∀ name ∈ path', Plain name.toList)
    (hpath : path ≠ []) (hpath' : path' ≠ []) :
    quoted docVar path = quoted docVar path' ↔ path = path' := by
  refine ⟨fun htext => map_attributeText_inj h h' ?_, fun heq => by rw [heq]⟩
  have hcut : ∀ {path : List String}, (∀ name ∈ path, Plain name.toList) → path ≠ [] →
      let texts := path.map fun name => attributeText name.toList
      texts ≠ [] ∧ splitBy (· == '.') (".".intercalate texts).toList = texts.map String.toList := by
    intro path hplain hne texts
    have htexts : texts ≠ [] := mt List.map_eq_nil_iff.mp hne
    refine ⟨htexts, ?_⟩
    rw [String.toList_intercalate]
    refine splitBy_intercalate (fun piece hpiece => ?_) (mt List.map_eq_nil_iff.mp htexts)
    obtain ⟨text, htext, rfl⟩ := List.mem_map.mp hpiece
    obtain ⟨name, hname, rfl⟩ := List.mem_map.mp htext
    exact dot_notMem_attributeText (hplain name hname)
  obtain ⟨hne, hpieces⟩ := hcut h hpath
  obtain ⟨hne', hpieces'⟩ := hcut h' hpath'
  have hjoined : ".".intercalate (path.map fun name => attributeText name.toList) =
      ".".intercalate (path'.map fun name => attributeText name.toList) := by
    unfold quoted at htext
    dsimp only at htext
    split at htext
    · exact htext
    · rw [String.intercalate_cons_of_ne_nil hne, String.intercalate_cons_of_ne_nil hne'] at htext
      exact (String.append_right_inj _).mp htext
  rw [hjoined, hpieces'] at hpieces
  exact (List.map_inj_right fun _ _ => String.toList_inj.mp).mp hpieces.symm

end Column

/-- A path does not begin with a name that stands for anything but an attribute of the main
document, and is not such a name itself. -/
structure Registry.Ignores (r : Registry) (path : List String) : Prop where
  reference : r.expressionOf? (Column.dotted path) = none
  projected : path.length = 1 → r.columnFor? (Column.dotted path) = none
  definition : ∀ first ∈ path.head?, r.isVariable first = false
  table : ∀ first ∈ path.head?, r.tableVariable? first = none
  tableVariable : ∀ first ∈ path.head?, r.isTableVariable first = false

/-- Such a path is an attribute of the main document, written as it is looked for. -/
theorem Scope.resolve_dotted {scope : Scope} {path : List String} (hpath : path ≠ [])
    (hplain : ∀ name ∈ path, Column.Plain name.toList) (h : scope.aliases.Ignores path) :
    scope.resolve (Column.dotted path) =
      Column.quoted (scope.docVar.getD "") (Column.searchedPath path) := by
  obtain ⟨first, rest, rfl⟩ := List.exists_cons_of_ne_nil hpath
  have hdirect : scope.resolveDirect (Column.dotted (first :: rest)).toList =
      Column.quoted (scope.docVar.getD "") (Column.searchedPath (first :: rest)) := by
    rw [resolveDirect, Column.segments_dotted hplain hpath, List.map_cons,
      ← Column.pathText_eq_quoted]
    simp only [String.ofList_toList, h.definition first rfl, h.table first rfl,
      h.tableVariable first rfl, Bool.false_eq_true, if_false]
    cases rest <;> rfl
  unfold resolve resolveWithin
  simp only [Column.normalForm_dotted hplain hpath, String.ofList_toList, h.reference]
  rw [hdirect]
  cases rest with
  | nil =>
      simp only [h.projected rfl]
      exact ite_self _
  | cons second rest =>
      have hdot : (Column.dotted (first :: second :: rest)).toList.contains '.' = true := by
        simp [Column.toList_dotted, List.intercalate_cons_cons]
      rw [if_pos hdot]

/-- An update assigns what is looked for. -/
theorem Assigned.pathOf_arrowed {path : List String} (hpath : path ≠ [])
    (hplain : ∀ name ∈ path, Column.Plain name.toList) :
    pathOf (Column.arrowed path) = Column.searchedPath path := by
  have hpieces : ∀ piece ∈ path.map String.toList, Column.Plain piece :=
    List.forall_mem_map.mpr hplain
  have harrows : (Column.arrowed path).toList = ['-', '>'].intercalate (path.map String.toList) :=
    String.toList_intercalate
  have hsplit := splitArrow_intercalate (fun piece hpiece => (hpieces piece hpiece).arrow)
    (mt List.map_eq_nil_iff.mp hpath)
  have hparts :
    ((path.map String.toList).map fun part => String.ofList (trimBlanks part)) = path := by
    rw [List.map_map]
    refine (List.map_congr_left fun name hname => ?_).trans (List.map_id _)
    change String.ofList (trimBlanks name.toList) = name
    rw [(hplain name hname).trimmed.trimBlanks_eq, String.ofList_toList]
  rw [pathOf, harrows, hsplit, hparts]
  obtain ⟨first, rest, rfl⟩ := List.exists_cons_of_ne_nil hpath
  rfl

/-- **A column is looked for where it is stored just if `id` stands nowhere behind its first
attribute.**  Let a document without the attribute `_key`, in it or in anything inside, be inserted,
and let a path lead to something in it. The row that is inserted has it under the stored path. A
column of the main document that is this path is written with the stored path, and an update of the
path assigns the stored path, just if no attribute behind the first one is `id`. If one is, both
mean a path under which the row has nothing. -/
theorem Scope.found_where_stored_iff (scope : Scope) {documents : List Document} {d : Document}
    {path : List String} {x : Value} (hd : d ∈ documents)
    (hkeyed : (Value.object d).toJson.Keyed) (hlacks : (Value.object d).toJson.Lacks keyAttribute)
    (hpath : path ≠ []) (hx : (Value.object d).at? path = some x)
    (hplain : ∀ name ∈ path, Column.Plain name.toList) (hignores : scope.aliases.Ignores path) :
    let row := (Value.object d).idToKey
    let docVar := scope.docVar.getD ""
    let stored := Column.storedPath path
    let searched := Column.searchedPath path
    (∃ rows, Builder.storedRows documents = .array rows ∧ row ∈ rows) ∧
    row.at? stored = some x.idToKey ∧
    (scope.resolve (Column.dotted path) = Column.quoted docVar stored ↔
      idAttribute ∉ path.tail) ∧
    (∀ aql, Assigned.leafAt stored (Assigned.assign [] (Column.arrowed path) aql) = some aql ↔
      idAttribute ∉ path.tail) ∧
    (idAttribute ∈ path.tail →
      scope.resolve (Column.dotted path) = Column.quoted docVar searched ∧
      (∀ aql, Assigned.leafAt searched (Assigned.assign [] (Column.arrowed path) aql) = some aql) ∧
      row.at? searched = none) := by
  intro row docVar stored searched
  have hresolved : scope.resolve (Column.dotted path) = Column.quoted docVar searched :=
    resolve_dotted hpath hplain hignores
  have hassigned : ∀ aql, Assigned.assign [] (Column.arrowed path) aql =
      Assigned.assignPath aql searched [] := fun aql => by
    rw [Assigned.assign, Assigned.pathOf_arrowed hpath hplain]
  have hsearched : searched ≠ [] := by
    obtain ⟨first, rest, rfl⟩ := List.exists_cons_of_ne_nil hpath
    exact List.cons_ne_nil _ _
  have hstored : stored ≠ [] := mt List.map_eq_nil_iff.mp hpath
  have hagree : searched = stored ↔ idAttribute ∉ path.tail :=
    Column.searchedPath_eq_storedPath_iff hpath
  refine ⟨⟨_, rfl, List.mem_map.mpr ⟨d, hd, rfl⟩⟩, Value.at?_idToKey hkeyed hlacks hx, ?_, ?_, ?_⟩
  · rw [hresolved, Column.quoted_inj (Column.plain_searchedPath hplain)
      (Column.plain_storedPath hplain) hsearched hstored]
    exact hagree
  · intro aql
    rw [hassigned, Assigned.leafAt_assignPath_nil hsearched, eq_comm]
    exact hagree
  · intro hid
    refine ⟨hresolved, fun aql => ?_, Value.at?_idToKey_eq_none ?_⟩
    · rw [hassigned, Assigned.leafAt_assignPath hsearched]
    · obtain ⟨first, rest, rfl⟩ := List.exists_cons_of_ne_nil hpath
      exact List.mem_cons_of_mem _ hid

/-- The parent of a character is stored with its key under the server's name, and is looked for
under the callers'. -/
theorem Scope.parent_not_found :
    let scope : Scope := ⟨{ Registry.empty with tables := [("characters", "characterDoc")] },
      some "characterDoc"⟩
    let arya : Document :=
      [("id", .string "AryaStark"), ("parent", .object [("id", .string "NedStark")])]
    let row := (Value.object arya).idToKey
    row.at? ["parent", "_key"] = some (.string "NedStark") ∧
    scope.resolve "parent.id" = Column.quoted "characterDoc" ["parent", "id"] ∧
    scope.resolve "parent.id" ≠ Column.quoted "characterDoc" ["parent", "_key"] ∧
    row.at? ["parent", "id"] = none := by
  intro scope arya row
  have hkeyed : (Value.object arya).toJson.Keyed := by
    simp [arya, Value.toJson, Value.toJsonMembers, Json.Keyed, Json.KeyedMembers, Entries.keys]
  have hlacks : (Value.object arya).toJson.Lacks keyAttribute := by
    simp [arya, Value.toJson, Value.toJsonMembers, Json.Lacks, Json.Throughout,
      Json.ThroughoutMembers, Json.attributeNames, keyAttribute]
  have hplain : ∀ name ∈ ["parent", "id"], Column.Plain name.toList := by
    intro name hname
    rcases List.mem_pair.mp hname with rfl | rfl
    · exact ⟨by decide, by decide, by decide, by decide, by decide, by decide, by decide, by decide⟩
    · exact ⟨by decide, by decide, by decide, by decide, by decide, by decide, by decide, by decide⟩
  have hignores : scope.aliases.Ignores ["parent", "id"] :=
    ⟨by decide, by decide, by decide, by decide, by decide⟩
  obtain ⟨-, hstored, hresolved, -, hlost⟩ := scope.found_where_stored_iff
    (List.mem_singleton_self arya) hkeyed hlacks (by decide) rfl hplain hignores
  have hid : idAttribute ∈ ["parent", "id"].tail := by decide
  exact ⟨hstored, (hlost hid).1, fun h => hresolved.mp h hid, (hlost hid).2.2⟩

end AqlBuilder

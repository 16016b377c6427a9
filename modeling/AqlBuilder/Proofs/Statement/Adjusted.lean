import AqlBuilder.Alias.Rules
import AqlBuilder.Proofs.Column.Origin
import AqlBuilder.Proofs.Column.Stored
import AqlBuilder.Proofs.Statement.LastAssigned
import AqlBuilder.Proofs.Statement.Mentioned
import AqlBuilder.Proofs.Text.Pieces

/-!
# Where an adjustment reads and where it writes

An adjustment reads an attribute and writes it back with an amount added. What it reads is what its
column stands for: dots and arrows are alike, the name of the collection or of the document in front
of a path is no attribute, and a name in the projection is followed. What it writes is the column
once more, cut at its arrows alone. So the piece of a path that has a dot in it is written as one
attribute, and the name in front of a path as an attribute with the rest inside. A path that is read
has no dots in its attributes and as many attributes as it has pieces, unless a name stands in front
of it, and this decides when the two are the same.

- `Origin.Reads` says which attributes of a document are read.
- `Column.Spells` is a path that is spelled with arrows alone.
- `Scope.reads_pathOf_iff`: a column is read where it is written just if it is spelled with arrows
  alone and is read as it is spelled.
- `Builder.adjusted_where_read_iff` is the law of the statement.
-/

namespace AqlBuilder

open Text

/-- A path of characters may be read as a path of texts and back. -/
theorem map_toList_map_ofList (path : List (List Char)) :
    (path.map String.ofList).map String.toList = path := by
  have hid : String.toList ∘ String.ofList = id := funext fun _ => String.toList_ofList
  rw [List.map_map, hid, List.map_id]

/-- A path of texts may be read as a path of characters and back. -/
theorem map_ofList_map_toList (path : List String) :
    (path.map String.toList).map String.ofList = path := by
  have hid : String.ofList ∘ String.toList = id := funext fun _ => String.ofList_toList
  rw [List.map_map, hid, List.map_id]

namespace Column

/-- An attribute that is put between backticks as a whole. -/
structure Named (segment : List Char) : Prop where
  ne_nil : segment ≠ []
  ne_star : segment ≠ ['*']
  bracket : '[' ∉ segment

/-- Up to blanks around it a column is a path of attributes with arrows between them, without dots
or further blanks. -/
structure Spells (column : String) (path : List String) : Prop where
  ne_nil : path ≠ []
  text : trim column = arrowed path
  dot : ∀ name ∈ path, '.' ∉ name.toList
  arrow : ∀ name ∈ path, Whole name.toList
  trimmed : ∀ name ∈ path, trim name = name

variable {names path : List String} {name column : String}

/-- A column that spells a path is cut into it at its arrows. -/
theorem Spells.splitArrow_eq (h : Spells column path) :
    splitArrow (trimBlanks column.toList) = path.map String.toList := by
  have htext := congrArg String.toList h.text
  rw [trim, String.toList_ofList] at htext
  have hchars : (arrowed path).toList = ['-', '>'].intercalate (path.map String.toList) :=
    String.toList_intercalate
  rw [htext, hchars]
  exact splitArrow_intercalate (List.forall_mem_map.mpr h.arrow)
    (mt List.map_eq_nil_iff.mp h.ne_nil)

theorem length_searchedPath (path : List String) : (searchedPath path).length = path.length := by
  cases path <;> rfl

/-- An attribute that is not `id` is looked for under its name. -/
theorem mem_searchedPath (h : name ∈ path) (hid : name ≠ idAttribute) :
    name ∈ searchedPath path := by
  cases path with
  | nil => exact h
  | cons first rest =>
      rcases List.mem_cons.mp h with rfl | h
      · rw [searchedPath, Builder.storedAttribute, renamed, if_neg hid]
        exact List.mem_cons_self
      · exact List.mem_cons_of_mem _ h

/-- A path that is looked for like a path of trimmed names has trimmed names itself. -/
theorem trimmed_of_searchedPath_eq (h : searchedPath names = searchedPath path)
    (hpath : ∀ name ∈ path, trim name = name) : ∀ name ∈ names, trim name = name := by
  cases names with
  | nil => exact fun name hname => (List.not_mem_nil hname).elim
  | cons first rest =>
      cases path with
      | nil => cases h
      | cons first' rest' =>
          obtain ⟨hfirst, rfl⟩ := List.cons.inj h
          obtain ⟨hpath, hrest⟩ := List.forall_mem_cons.mp hpath
          refine List.forall_mem_cons.mpr ⟨?_, hrest⟩
          unfold Builder.storedAttribute renamed at hfirst
          split_ifs at hfirst with hid hid'
          · rw [hid]
            decide
          · rw [hid]
            decide
          · rw [hfirst]
            decide
          · rw [hfirst]
            exact hpath

end Column

/-- What is looked at are attributes of a document, each by its name. -/
def Origin.Reads (o : Origin) (docVar : String) (names : List String) : Prop :=
  ∃ path, o = .document docVar path ∧ (∀ segment ∈ path, Column.Named segment) ∧
    names = Column.searchedPath (path.map String.ofList)

namespace Assigned

/-- The path of an update: the trimmed pieces between arrows, the first one renamed. -/
theorem pathOf_eq_searchedPath (column : String) : pathOf column =
    Column.searchedPath (((splitArrow column.toList).map trimBlanks).map String.ofList) := by
  unfold pathOf
  cases splitArrow column.toList with
  | nil => rfl
  | cons first rest =>
      rw [List.map_map]
      rfl

/-- A column is written to with one attribute for each piece between arrows. -/
theorem length_pathOf (column : String) :
    (pathOf column).length = (splitArrow column.toList).length := by
  rw [pathOf_eq_searchedPath]
  cases splitArrow column.toList with
  | nil => rfl
  | cons first rest => simp [Column.searchedPath]

/-- A path that a column spells is the path of an update of it. -/
theorem pathOf_of_spells {column : String} {path : List String} (h : Column.Spells column path) :
    pathOf column = Column.searchedPath path := by
  have hnames : ((path.map String.toList).map trimBlanks).map String.ofList = path := by
    rw [List.map_map, List.map_map]
    exact (List.map_congr_left h.trimmed).trans (List.map_id path)
  rw [pathOf_eq_searchedPath, map_trimBlanks_splitArrow, h.splitArrow_eq, hnames]

end Assigned

namespace Scope

variable {sc : Scope} {column docVar : String} {names : List String} {text : List Char}
  {path : List (List Char)}

/-- A name of a collection or of a document variable. -/
def Names (sc : Scope) (segment : List Char) : Prop :=
  (sc.aliases.tableVariable? (String.ofList segment)).isSome = true ∨
    sc.aliases.isTableVariable (String.ofList segment) = true

/-- Such a name stands in front of a path. -/
def Qualifies (sc : Scope) (text : List Char) : Prop :=
  ∃ first rest, Column.segments text = first :: rest ∧ rest ≠ [] ∧ sc.Names first

/-- A path is an attribute of a document with all of its segments, or without the first one if that
is a name in front of it. -/
theorem segments_of_document (h : sc.directOrigin text = .document docVar path) :
    (¬ sc.Qualifies text ∧ Column.segments text = path) ∨
      (sc.Qualifies text ∧ ∃ first, Column.segments text = first :: path) := by
  obtain ⟨first, rest, hcut, hcases⟩ := cases_of_document h
  have hqualifies : sc.Qualifies text ↔ rest ≠ [] ∧ sc.Names first := by
    constructor
    · rintro ⟨first', rest', hcut', h⟩
      obtain ⟨rfl, rfl⟩ := List.cons.inj (hcut.symm.trans hcut')
      exact h
    · exact fun h => ⟨first, rest, hcut, h⟩
  rcases hcases with ⟨rfl, -, hunnamed⟩ | ⟨rfl, hrest, hnamed⟩
  · refine .inl ⟨fun hfront => ?_, hcut⟩
    obtain ⟨hrest, hnames⟩ := hqualifies.mp hfront
    obtain ⟨hnone, hfalse⟩ := hunnamed hrest
    rcases hnames with hsome | hvariable
    · rw [hnone] at hsome
      cases hsome
    · rw [hfalse] at hvariable
      cases hvariable
  · refine .inr ⟨hqualifies.mpr ⟨hrest, ?_⟩, first, hcut⟩
    rcases hnamed with hv | ⟨rfl, hvariable⟩
    · exact .inl (Option.isSome_iff_exists.mpr ⟨docVar, hv⟩)
    · exact .inr hvariable

/-- No attribute that is read has a dot in it. -/
theorem dot_notMem_of_reads (h : (sc.origin column).Reads docVar names) :
    ∀ name ∈ names, '.' ∉ name.toList := by
  obtain ⟨path, horigin, -, rfl⟩ := h
  have hsegments : ∀ segment ∈ path, segment ∈ Column.segments (sc.target column) := by
    rcases segments_of_document (directOrigin_of_originAt horigin) with ⟨-, hcut⟩ | ⟨-, first, hcut⟩
    · rw [hcut]
      exact fun segment hsegment => hsegment
    · rw [hcut]
      exact fun segment hsegment => List.mem_cons_of_mem first hsegment
  have hdots : ∀ name ∈ path.map String.ofList, '.' ∉ name.toList := by
    refine List.forall_mem_map.mpr fun segment hsegment => ?_
    rw [String.toList_ofList]
    exact notMem_of_mem_splitBy (hsegments segment hsegment)
  cases hpath : path.map String.ofList with
  | nil => exact fun name hname => (List.not_mem_nil hname).elim
  | cons first rest =>
      rw [hpath] at hdots
      obtain ⟨hfirst, hrest⟩ := List.forall_mem_cons.mp hdots
      refine List.forall_mem_cons.mpr ⟨?_, hrest⟩
      unfold Builder.storedAttribute renamed
      split
      · decide
      · exact hfirst

/-- A column with a dot is written where no path is read. -/
theorem dot_notMem_of_reads_pathOf (h : (sc.origin column).Reads docVar (Assigned.pathOf column)) :
    '.' ∉ column.toList := by
  intro hdot
  obtain ⟨piece, hpiece, hmem⟩ := mem_of_mem_splitArrow hdot (by decide)
  have htrimmed : '.' ∈ trimBlanks piece := mem_trimBlanks_of_not_blank hmem (by decide)
  have hname : String.ofList (trimBlanks piece) ∈ Assigned.pathOf column := by
    rw [Assigned.pathOf_eq_searchedPath]
    refine Column.mem_searchedPath (List.mem_map_of_mem (List.mem_map_of_mem hpiece)) ?_
    intro hid
    have hchars := congrArg String.toList hid
    rw [String.toList_ofList] at hchars
    rw [hchars] at htrimmed
    revert htrimmed
    decide
  have hnone := dot_notMem_of_reads h _ hname
  rw [String.toList_ofList] at hnone
  exact hnone htrimmed

section arrows

variable (h : (sc.origin column).Reads docVar (Assigned.pathOf column))

include h

/-- The pieces of a column that is read where it is written. -/
theorem segments_of_reads_pathOf : Column.segments (Column.normalForm column.toList) =
    splitArrow (trimBlanks column.toList) :=
  splitBy_dotArrows fun hdot => dot_notMem_of_reads_pathOf h (mem_trimBlanks hdot)

/-- Several segments are all read, so that no name stands in front of them. -/
theorem reads_all_of_dot (hdot : '.' ∈ Column.normalForm column.toList) :
    ¬ sc.Qualifies (Column.normalForm column.toList) ∧ Assigned.pathOf column =
      Column.searchedPath ((splitArrow (trimBlanks column.toList)).map String.ofList) := by
  obtain ⟨path, horigin, -, hnames⟩ := id h
  rw [origin, target_of_dot hdot] at horigin
  have hsegments := segments_of_reads_pathOf h
  rcases segments_of_document (directOrigin_of_originAt horigin) with
    ⟨hfront, hcut⟩ | ⟨-, first, hcut⟩
  · rw [← hcut, hsegments] at hnames
    exact ⟨hfront, hnames⟩
  · -- The first segment would be written but not read.
    have hwritten := Assigned.length_pathOf column
    have htrimmed := congrArg List.length (map_trimBlanks_splitArrow column.toList)
    rw [List.length_map, List.length_map, ← hsegments, hcut, List.length_cons] at htrimmed
    rw [hnames, Column.length_searchedPath, List.length_map] at hwritten
    omega

/-- A column that is read where it is written has no name in front. -/
theorem not_qualifies_of_reads_pathOf : ¬ sc.Qualifies (Column.normalForm column.toList) := by
  intro hfront
  obtain ⟨first, rest, hcut, hrest, -⟩ := id hfront
  have hdot : '.' ∈ Column.normalForm column.toList := by
    by_contra hnone
    have hone : Column.segments (Column.normalForm column.toList) =
        [Column.normalForm column.toList] := splitBy_of_notMem hnone
    rw [hcut] at hone
    exact hrest (List.cons.inj hone).2
  exact (reads_all_of_dot h hdot).1 hfront

/-- No piece of the column has blanks around it. -/
theorem trimmed_of_reads_pathOf : ∀ piece ∈ splitArrow (trimBlanks column.toList),
    trimBlanks piece = piece := by
  by_cases hdot : '.' ∈ Column.normalForm column.toList
  · have hpath := (reads_all_of_dot h hdot).2
    rw [Assigned.pathOf_eq_searchedPath] at hpath
    have htrim : ∀ piece : List Char,
        trim (String.ofList piece) = String.ofList (trimBlanks piece) := fun piece => by
      rw [trim, String.toList_ofList]
    have hnames := Column.trimmed_of_searchedPath_eq hpath.symm (List.forall_mem_map.mpr
      (List.forall_mem_map.mpr fun piece _ => by rw [htrim, trimBlanks_trimBlanks]))
    intro piece hpiece
    have hname := hnames _ (List.mem_map_of_mem hpiece)
    rw [htrim] at hname
    exact String.ofList_inj.mp hname
  · have hone : splitArrow (trimBlanks column.toList) = [Column.normalForm column.toList] := by
      rw [← segments_of_reads_pathOf h]
      exact splitBy_of_notMem hdot
    have htext := intercalate_splitArrow (trimBlanks column.toList)
    rw [hone, List.intercalate_singleton] at htext
    rw [hone, htext]
    intro piece hpiece
    rw [List.mem_singleton.mp hpiece, trimBlanks_trimBlanks]

/-- Up to blanks around it the column is a path with arrows. -/
theorem spells_of_reads_pathOf : Column.Spells column
    ((splitArrow (trimBlanks column.toList)).map String.ofList) where
  ne_nil := mt List.map_eq_nil_iff.mp (splitArrow_ne_nil _)
  text := by
    rw [← String.toList_inj, trim, String.toList_ofList, Column.arrowed, String.toList_intercalate,
      map_toList_map_ofList]
    exact (intercalate_splitArrow _).symm
  dot := by
    refine List.forall_mem_map.mpr fun piece hpiece hdot => ?_
    rw [String.toList_ofList] at hdot
    exact dot_notMem_of_reads_pathOf h (mem_trimBlanks (mem_splitArrow hpiece hdot))
  arrow := by
    refine List.forall_mem_map.mpr fun piece hpiece => ?_
    rw [String.toList_ofList]
    exact whole_of_mem_splitArrow hpiece
  trimmed := by
    refine List.forall_mem_map.mpr fun piece hpiece => ?_
    rw [trim, String.toList_ofList, trimmed_of_reads_pathOf h piece hpiece]

end arrows

/-- **A column is read where it is written** just if it is spelled with arrows alone and is read
with the attributes that it spells. -/
theorem reads_pathOf_iff : (sc.origin column).Reads docVar (Assigned.pathOf column) ↔
    ∃ path, Column.Spells column path ∧
      (sc.origin column).Reads docVar (Column.searchedPath path) := by
  constructor
  · intro h
    have hspells := spells_of_reads_pathOf h
    refine ⟨_, hspells, ?_⟩
    rw [← Assigned.pathOf_of_spells hspells]
    exact h
  · rintro ⟨path, hspells, hreads⟩
    rw [Assigned.pathOf_of_spells hspells]
    exact hreads

/-- A path that a column spells has the same segments with dots. -/
theorem segments_of_spells {path : List String} (h : Column.Spells column path) :
    Column.segments (Column.normalForm column.toList) = path.map String.toList := by
  have hsplit := h.splitArrow_eq
  have hdot : '.' ∉ trimBlanks column.toList := by
    intro hdot
    obtain ⟨piece, hpiece, hmem⟩ := mem_of_mem_splitArrow hdot (by decide)
    rw [hsplit] at hpiece
    obtain ⟨name, hname, rfl⟩ := List.mem_map.mp hpiece
    exact h.dot name hname hmem
  rw [← hsplit]
  exact splitBy_dotArrows hdot

/-- A path that a column spells, and that no name stands in the way of, is an attribute of the main
document with all of its attributes. -/
theorem origin_of_spells {path : List String} (h : Column.Spells column path)
    (hignores : sc.aliases.Ignores path) :
    sc.origin column = .document (sc.docVar.getD "") (path.map String.toList) := by
  obtain ⟨first, rest, rfl⟩ := List.exists_cons_of_ne_nil h.ne_nil
  have hsegments := segments_of_spells h
  have htext : String.ofList (Column.normalForm column.toList) = Column.dotted (first :: rest) := by
    rw [← String.toList_inj, String.toList_ofList, Column.toList_dotted, ← hsegments,
      Column.segments, splitBy_eq_splitOnP]
    exact (List.intercalate_splitOn '.').symm
  have htarget : sc.target column = Column.normalForm column.toList := by
    by_cases hdot : '.' ∈ Column.normalForm column.toList
    · exact target_of_dot hdot
    · have hone : rest = [] := by
        rw [Column.segments, splitBy_of_notMem hdot, List.map_cons] at hsegments
        exact List.map_eq_nil_iff.mp (List.cons.inj hsegments).2.symm
      have hprojected := hignores.projected (by rw [hone]; rfl)
      unfold target targetWithin
      dsimp only
      rw [htext, hprojected]
      exact ite_self _
  have hdirect : sc.directOrigin (Column.normalForm column.toList) =
      .document (sc.docVar.getD "") ((first :: rest).map String.toList) := by
    unfold directOrigin
    rw [hsegments, List.map_cons]
    simp only [String.ofList_toList, hignores.definition first rfl, hignores.table first rfl,
      hignores.tableVariable first rfl, Bool.false_eq_true, if_false]
    cases rest <;> rfl
  rw [origin, htarget, originAt, htext, hignores.reference]
  exact hdirect

end Scope

namespace Builder

open Outcome

/-- One expression is assigned to its path and to no other. -/
theorem yields_updateText_single [Naming] (w : Builder) (column aql : String) :
    (w.updateText [(column, .expression aql)]).Yields fun c => ∃ pieces fields collection,
      c.aql = " ".intercalate (pieces ++ [w.updatePiece fields collection]) ∧
        ∀ path found, Assigned.leafAt path fields = some found ↔
          path = Assigned.pathOf column ∧ found = aql := by
  have hassigned : (w.assigned [] [(column, .expression aql)]).Yields fun result =>
      result.1 = Assigned.assign [] column aql := yields_pure rfl
  refine (yields_updateText (yields_any _) (q := (· = _)) hassigned).mono fun c hc => ?_
  obtain ⟨loops, fields, collection, -, rfl, -, haql⟩ := hc
  refine ⟨_, _, collection, haql, fun path found => ?_⟩
  rw [Assigned.assign, Assigned.leafAt_assignPath_iff (Assigned.pathOf_ne_nil column),
    Assigned.leafAt_none]
  simp [eq_comm]

/-- An adjustment assigns the text of what its column stands for with the amount behind it. -/
theorem yields_adjusted [Naming] (b : Builder) (adjustment : Adjustment) (column : String)
    (amount : Value) :
    (b.adjustStatement adjustment column amount).Yields fun c =>
      ∃ pieces fields collection name,
        c.aql = " ".intercalate (pieces ++ [b.updatePiece fields collection]) ∧
        ∀ path aql, Assigned.leafAt path fields = some aql ↔ path = Assigned.pathOf column ∧
          aql = (b.scope.origin column).text ++ " " ++ adjustment.sign ++ " @" ++ name := by
  refine yields_checked b fun _ => ?_
  split
  · exact yields_fail _
  · refine yields_onCopy fun w hw => ?_
    have hcurrent : w.scope.resolve column = (b.scope.origin column).text := by
      rw [scope_of_compiled hw, Scope.resolve_eq_origin]
    dsimp only
    rw [hcurrent]
    refine (yields_updateText_single _ column _).mono fun c hc => ?_
    obtain ⟨pieces, fields, collection, haql, hleaf⟩ := hc
    refine ⟨pieces, fields, collection, _, haql.trans ?_, hleaf⟩
    rw [updatePiece, updatePiece, ← docVar_of_compiled hw]
    rfl

/-- **An adjustment writes where it reads just if its column is spelled as it is read.**  The
statement assigns the text of what the column stands for, with the amount behind it, to the path of
the column and to no other. Attributes of the main document are read at this very path just if the
column is spelled with arrows alone and no other attributes are read than it spells. So it is with
every such column that no other name stands in the way of. It never is with a dot in the column or
with a name of a collection or a document in front of a path. -/
theorem adjusted_where_read_iff [Naming] (b : Builder) (adjustment : Adjustment) (column : String)
    (amount : Value) :
    let docVar := b.docVar.getD ""
    let read := b.scope.origin column
    let written := Assigned.pathOf column
    ((b.adjustStatement adjustment column amount).Yields fun c =>
      ∃ pieces fields collection name,
        c.aql = " ".intercalate (pieces ++ [b.updatePiece fields collection]) ∧
        ∀ path aql, Assigned.leafAt path fields = some aql ↔
          path = written ∧ aql = read.text ++ " " ++ adjustment.sign ++ " @" ++ name) ∧
      (read.Reads docVar written ↔
        ∃ path, Column.Spells column path ∧ read.Reads docVar (Column.searchedPath path)) ∧
      (∀ path, Column.Spells column path → (∀ name ∈ path, Column.Named name.toList) →
        b.aliases.Ignores path → read.Reads docVar written) ∧
      ('.' ∈ column.toList ∨ b.scope.Qualifies (Column.normalForm column.toList) →
        ¬ read.Reads docVar written) := by
  intro docVar read written
  refine ⟨b.yields_adjusted adjustment column amount, Scope.reads_pathOf_iff,
    fun path hspells hnamed hignores => ?_, ?_⟩
  · refine ⟨_, Scope.origin_of_spells hspells hignores, List.forall_mem_map.mpr hnamed, ?_⟩
    rw [map_ofList_map_toList]
    exact Assigned.pathOf_of_spells hspells
  · rintro (hdot | hfront) hreads
    · exact Scope.dot_notMem_of_reads_pathOf hreads hdot
    · exact Scope.not_qualifies_of_reads_pathOf hreads hfront

/-- The counter of an attribute that is spelled with a dot is read inside and written outside. -/
theorem dotted_counter_missed :
    let b := fromCollection (Clauses.empty 1) "characters"
    (b.adjustStatement .increment "stats.wounds" (.int64 1) 2).1.toOption.map Compiled.aql = some
        ("FOR characterDoc IN characters UPDATE characterDoc WITH " ++
          "\x7b\"stats.wounds\": characterDoc.\x60stats\x60.\x60wounds\x60 + @1_update_1\x7d" ++
          " IN characters") ∧
      (b.scope.origin "stats.wounds").Reads "characterDoc" ["stats", "wounds"] ∧
      Assigned.pathOf "stats.wounds" = ["stats.wounds"] := by
  rw [fromCollection_unnamed (by decide) Alias.documentVariable_characters]
  refine ⟨by decide +kernel, ⟨["stats".toList, "wounds".toList], by decide +kernel, ?_, by decide⟩,
    by decide⟩
  intro segment hsegment
  rcases List.mem_pair.mp hsegment with rfl | rfl
  · exact ⟨by decide, by decide, by decide⟩
  · exact ⟨by decide, by decide, by decide⟩

/-- The law at the same counter, spelled with a dot and with an arrow. -/
theorem arrowed_counter_raised :
    let b := fromCollection (Clauses.empty 1) "characters"
    ¬ (b.scope.origin "stats.wounds").Reads "characterDoc" (Assigned.pathOf "stats.wounds") ∧
      (b.scope.origin "stats->wounds").Reads "characterDoc" (Assigned.pathOf "stats->wounds") := by
  rw [fromCollection_unnamed (by decide) Alias.documentVariable_characters]
  intro b
  obtain ⟨-, -, -, hdotted⟩ := b.adjusted_where_read_iff .increment "stats.wounds" (.int64 1)
  obtain ⟨-, -, harrowed, -⟩ := b.adjusted_where_read_iff .increment "stats->wounds" (.int64 1)
  have hspells : Column.Spells "stats->wounds" ["stats", "wounds"] :=
    ⟨by decide, by decide, by decide, by decide, by decide⟩
  have hnamed : ∀ name ∈ ["stats", "wounds"], Column.Named name.toList := by
    intro name hname
    rcases List.mem_pair.mp hname with rfl | rfl
    · exact ⟨by decide, by decide, by decide⟩
    · exact ⟨by decide, by decide, by decide⟩
  have hignores : b.aliases.Ignores ["stats", "wounds"] :=
    ⟨by decide, by decide, by decide, by decide, by decide +kernel⟩
  exact ⟨hdotted (.inl (by decide)), harrowed _ hspells hnamed hignores⟩

end Builder

end AqlBuilder

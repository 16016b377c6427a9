import AqlBuilder.Proofs.Alias.Registry
import AqlBuilder.Proofs.Transaction.Keywords

/-!
# Names in a statement are no keywords

An attribute stands between backticks, a collection or a key of an object that is a keyword between
backticks or quotation marks, and a path has dots. So none of them is taken for a keyword, whatever
it is called, as long as it has no blanks. A variable stands for itself and must not be a keyword.

- `Column.Unbroken` says that the attributes of a column have no blanks.
- `Scope.Quiet.resolve`: such a column is not written as a keyword.
- `Aql.avoids_collectionName`, `Aql.avoids_objectKey`: neither are collections and keys.
-/

namespace AqlBuilder

open Text

section solid

variable {s : List Char} {name : String}

/-- A text without blanks stays so if no character becomes one. -/
theorem solid_flatMap {f : Char → List Char} (h : Solid s)
    (hf : ∀ c, isBlank c = false → Solid (f c)) : Solid (s.flatMap f) := by
  intro c hc
  obtain ⟨d, hd, hcd⟩ := List.mem_flatMap.mp hc
  exact hf d (h d hd) c hcd

theorem Text.Solid.subset {t : List Char} (h : Solid s) (hsub : t ⊆ s) : Solid t :=
  fun c hc => h c (hsub hc)

/-- A text without blanks stays so with another character in front. -/
theorem Text.Solid.cons {c : Char} (h : Solid s) (hc : isBlank c = false) : Solid (c :: s) := by
  intro d hd
  rcases List.mem_cons.mp hd with rfl | hd
  · exact hc
  · exact h d hd

/-- Texts without blanks have none with a separator between them that has none. -/
theorem solid_intercalate {sep : String} (hsep : Solid sep.toList) {texts : List String}
    (h : ∀ text ∈ texts, Solid text.toList) : Solid (sep.intercalate texts).toList := by
  induction texts with
  | nil => exact fun c hc => by cases hc
  | cons first rest ih =>
      have hfirst := h first List.mem_cons_self
      have hrest := ih fun text htext => h text (List.mem_cons_of_mem first htext)
      cases rest with
      | nil =>
          rw [String.intercalate_singleton]
          exact hfirst
      | cons second rest =>
          rw [String.intercalate_cons_cons, String.toList_append, String.toList_append]
          exact (hfirst.append hsep).append hrest

end solid

namespace Aql

variable {name : String}

/-- A name without blanks has none between backticks. -/
theorem solid_ticked {s : List Char} (h : Solid s) : Solid (ticked s) := by
  have hescaped : Solid (escapeTicks s) := by
    refine solid_flatMap h fun c hc => ?_
    split
    · decide
    · exact fun d hd => List.mem_singleton.mp hd ▸ hc
  exact (hescaped.append (by decide)).cons (by decide)

/-- A name without blanks has none between quotation marks. -/
theorem solid_quote (h : Solid name.toList) : Solid (Json.quote name).toList := by
  have hhex : ∀ n, n < 16 → isBlank (Json.hexDigit n) = false := by decide
  have hquoted : Solid (name.toList.flatMap Json.quoteChar) := by
    refine solid_flatMap h fun c hc => ?_
    unfold Json.quoteChar
    split
    · decide
    split
    · decide
    split
    · decide
    split
    · decide
    split
    · decide
    split
    · decide
    split
    · decide
    split
    · rename_i hsmall
      intro d hd
      simp only [List.mem_cons, List.not_mem_nil, or_false] at hd
      rcases hd with rfl | rfl | rfl | rfl | rfl | rfl
      · decide
      · decide
      · decide
      · decide
      · exact hhex _ (by omega)
      · exact hhex _ (Nat.mod_lt _ (by decide))
    · exact fun d hd => List.mem_singleton.mp hd ▸ hc
  rw [Json.quote, String.toList_ofList]
  exact (hquoted.append (by decide)).cons (by decide)

/-- An identifier has no blanks. -/
theorem solid_of_isIdentifier (h : isIdentifier name = true) : Solid name.toList := by
  unfold isIdentifier isIdentifierChars at h
  split at h
  · cases h
  · rename_i first rest hname
    obtain ⟨hfirst, hrest⟩ := Bool.and_eq_true_iff.mp h
    rw [hname]
    refine Solid.cons (fun c hc => isBlank_of_isNameChar (List.all_eq_true.mp hrest c hc)) ?_
    refine isBlank_of_isNameChar ?_
    rw [isNameChar, Bool.or_right_comm, hfirst, Bool.true_or]

/-- A name that may stand bare is no keyword. -/
theorem avoids_of_isBare (h : isBare name = true) : Avoids .all name := by
  obtain ⟨hidentifier, hkeyword⟩ := Bool.and_eq_true_iff.mp h
  have hwords : Keywords.all.words ⊆ keywords := by decide
  intro w hw
  rw [words_of_solid (solid_of_isIdentifier hidentifier) hw]
  by_contra hword
  have hmem : String.ofList (asciiUpper name.toList) ∈ Keywords.all.words :=
    List.contains_iff_mem.mp (Bool.not_eq_false _ ▸ hword)
  have hall : isKeyword name = true := List.contains_iff_mem.mpr (hwords hmem)
  rw [hall] at hkeyword
  cases hkeyword

/-- A key of an object literal is no keyword. -/
theorem avoids_objectKey (h : Solid name.toList) : Avoids .all (objectKey name) := by
  unfold objectKey
  split
  · rename_i hbare
    exact avoids_of_isBare hbare
  · refine avoids_of_mark (c := '"') (solid_quote h) ?_ (by decide)
    rw [Json.quote, String.toList_ofList]
    exact List.mem_cons_self

/-- An object literal has no keywords but those of its expressions. -/
theorem avoids_objectLiteral {keywords : Keywords} (hwords : keywords.words ⊆ Keywords.all.words)
    {entries : List (String × String)}
    (h : ∀ entry ∈ entries, Solid entry.1.toList ∧ Avoids keywords entry.2) :
    Avoids keywords (objectLiteral entries) := by
  have hcolon : Divides keywords ": ".toList := divides_of_marks (by decide) (by decide)
  have hcomma : Divides keywords ", ".toList := divides_of_marks (by decide) (by decide)
  have hopen : Precedes keywords "\x7b".toList := ⟨avoidsIn_nil, by decide⟩
  have hclose : Follows keywords "\x7d".toList := ⟨avoidsIn_nil, by decide⟩
  have hfields : Avoids keywords
      (", ".intercalate (entries.map fun entry => objectKey entry.1 ++ ": " ++ entry.2)) := by
    refine avoids_intercalate hcomma fun field hfield => ?_
    obtain ⟨entry, hentry, rfl⟩ := List.mem_map.mp hfield
    obtain ⟨hkey, hvalue⟩ := h entry hentry
    exact ((avoids_objectKey hkey).mono hwords).divided hvalue hcolon
  rw [objectLiteral_eq]
  exact (hfields.behind hopen).before hclose

/-- A collection is no keyword. -/
theorem avoids_collectionName {tablePrefix : String} (h : Solid (tablePrefix ++ name).toList) :
    Avoids .all (collectionName tablePrefix name) := by
  unfold collectionName
  dsimp only
  split
  · rename_i hbare
    exact avoids_of_isBare hbare
  · refine avoids_of_mark (c := '\x60') ?_ ?_ (by decide)
    · rw [String.toList_ofList]
      exact solid_ticked h
    · rw [String.toList_ofList]
      exact List.mem_cons_self

end Aql

namespace Column

/-- A column whose attributes have no blanks. -/
def Unbroken (column : String) : Prop :=
  ∀ segment ∈ segments (normalForm column.toList), Solid segment

instance (column : String) : Decidable (Unbroken column) :=
  inferInstanceAs (Decidable (∀ _ ∈ _, _))

variable {segment : List Char} {path : List (List Char)} {docVar column : String}

/-- An attribute without blanks has none between backticks. -/
theorem solid_tickedAttribute (h : Solid segment) : Solid (tickedAttribute segment) := by
  unfold tickedAttribute
  dsimp only
  split
  · exact h
  · split
    · exact h
    · refine (Aql.solid_ticked (h.subset fun c hc => ?_)).append
        (h.subset fun c hc => List.mem_of_mem_drop hc)
      exact (List.takeWhile_sublist _).subset hc

/-- An attribute begins with a backtick unless it is an array operator. -/
theorem avoids_attributeText (h : Solid segment) : Avoids .all (attributeText segment) := by
  have hsolid : Solid (attributeText segment).toList := by
    rw [attributeText, String.toList_ofList]
    exact solid_tickedAttribute h
  cases htext : tickedAttribute segment with
  | nil =>
      rw [attributeText, htext]
      exact avoidsIn_nil
  | cons c rest =>
      have hc : isAsciiLetter c = false := by
        unfold tickedAttribute at htext
        dsimp only at htext
        split at htext
        · rename_i hstar
          rw [hstar] at htext
          cases htext
          decide
        · split at htext
          · rename_i hempty
            rw [htext, List.isEmpty_iff, List.takeWhile_cons] at hempty
            split at hempty
            · cases hempty
            · rename_i hopen
              have hbracket : c = '[' := by simpa using hopen
              rw [hbracket]
              decide
          · cases htext
            decide
      refine avoids_of_mark hsolid ?_ hc
      rw [attributeText, String.toList_ofList, htext]
      exact List.mem_cons_self

/-- An attribute without blanks is written without them. -/
theorem solid_attributeText (h : Solid segment) : Solid (attributeText segment).toList := by
  rw [attributeText, String.toList_ofList]
  exact solid_tickedAttribute h

/-- Texts behind a variable, each behind a dot. -/
theorem avoids_dotted {texts : List String} (hvar : Solid docVar.toList) (hne : texts ≠ [])
    (hsolid : ∀ text ∈ texts, Solid text.toList) :
    Avoids .all (".".intercalate (docVar :: texts)) := by
  have hdot : Solid ".".toList := by decide
  rw [String.intercalate_cons_of_ne_nil hne]
  refine avoids_of_mark (c := '.') ?_ (by simp) (by decide)
  rw [String.toList_append, String.toList_append]
  exact (hvar.append hdot).append (solid_intercalate hdot hsolid)

/-- Attributes without blanks are written without them. -/
theorem solid_attributeTexts (h : ∀ segment ∈ path, Solid segment) :
    ∀ text ∈ attributeTexts path, Solid text.toList := by
  cases path with
  | nil => exact fun text htext => by cases htext
  | cons first rest =>
      intro text htext
      rcases List.mem_cons.mp htext with rfl | htext
      · refine solid_attributeText ?_
        split
        · decide
        · exact h first List.mem_cons_self
      · obtain ⟨segment, hsegment, rfl⟩ := List.mem_map.mp htext
        exact solid_attributeText (h segment (List.mem_cons_of_mem first hsegment))

/-- Attributes without blanks are written without keywords. -/
theorem avoids_attributeTexts (h : ∀ segment ∈ path, Solid segment) :
    ∀ text ∈ attributeTexts path, Avoids .all text := by
  cases path with
  | nil => exact fun text htext => by cases htext
  | cons first rest =>
      intro text htext
      rcases List.mem_cons.mp htext with rfl | htext
      · refine avoids_attributeText ?_
        split
        · decide
        · exact h first List.mem_cons_self
      · obtain ⟨segment, hsegment, rfl⟩ := List.mem_map.mp htext
        exact avoids_attributeText (h segment (List.mem_cons_of_mem first hsegment))

/-- A path is no keyword, whatever the variable is. -/
theorem avoids_pathText (hvar : Solid docVar.toList) (hpath : path ≠ [])
    (h : ∀ segment ∈ path, Solid segment) : Avoids .all (pathText docVar path) := by
  unfold pathText
  dsimp only
  split
  · exact avoids_intercalate (by decide) (avoids_attributeTexts h)
  · refine avoids_dotted hvar ?_ (solid_attributeTexts h)
    cases path with
    | nil => exact absurd rfl hpath
    | cons first rest => exact List.cons_ne_nil _ _

theorem segments_ne_nil (text : List Char) : segments text ≠ [] := splitBy_ne_nil _ text

/-- An unbroken column has no keywords on a document. -/
theorem avoids_onDocument (hvar : Solid docVar.toList) (h : Unbroken column) :
    Avoids .all (onDocument docVar column) :=
  avoids_pathText hvar (segments_ne_nil _) h

/-- An unbroken column has no keywords on a row. -/
theorem avoids_onRow (hvar : Solid docVar.toList) (h : Unbroken column) :
    Avoids .all (onRow docVar column) := by
  refine avoids_dotted hvar (by simp [segments_ne_nil]) fun text htext => ?_
  obtain ⟨segment, hsegment, rfl⟩ := List.mem_map.mp htext
  exact solid_attributeText (h segment hsegment)

/-- The last attribute of an unbroken column has no blanks. -/
theorem solid_attributeName (h : Unbroken column) : Solid (attributeName column).toList := by
  unfold attributeName
  dsimp only
  rw [String.toList_ofList]
  cases hlast : (segments (normalForm column.toList)).getLast? with
  | none => exact fun c hc => by cases hc
  | some last =>
      exact (h last (List.mem_of_getLast? hlast)).subset (List.takeWhile_sublist _).subset

end Column

/-- A registry in which no text is a keyword. -/
structure Registry.Quiet (r : Registry) : Prop where
  tables : ∀ entry ∈ r.tables, Neutral entry.2
  columns : ∀ entry ∈ r.columns, Column.Unbroken entry.1
  definitions : ∀ entry ∈ r.definitions, Avoids .all entry.2

/-- A scope in which no text is a keyword. -/
structure Scope.Quiet (scope : Scope) : Prop where
  aliases : scope.aliases.Quiet
  docVar : ∀ v ∈ scope.docVar, Neutral v

namespace Registry

variable {r : Registry}

/-- The variable of a collection in a quiet registry is neutral. -/
theorem Quiet.tableVariable? (h : r.Quiet) {table v : String}
    (hv : r.tableVariable? table = some v) : Neutral v :=
  h.tables _ (Entries.mem_of_get? hv)

/-- A column under an alias in a quiet registry is unbroken. -/
theorem Quiet.columnFor? (h : r.Quiet) {asName column : String}
    (hcolumn : r.columnFor? asName = some column) : Column.Unbroken column := by
  obtain ⟨entry, hfind, rfl⟩ := Option.map_eq_some_iff.mp hcolumn
  exact h.columns entry (List.mem_of_find?_eq_some hfind)

/-- What a reference stands for in a quiet registry has no keywords. -/
theorem Quiet.expressionOf? (h : r.Quiet) {reference expression : String}
    (he : r.expressionOf? reference = some expression) : Avoids .all expression :=
  h.definitions _ (Entries.mem_of_get? he)

/-- A quiet registry stays so with a reference to what has no keywords. -/
theorem Quiet.registerVariable (h : r.Quiet) (reference : String) {expression : String}
    (he : Avoids .all expression) : (r.registerVariable reference expression).Quiet := by
  refine { h with definitions := fun entry hentry => ?_ }
  rcases Entries.mem_put hentry with hold | rfl
  · exact h.definitions entry hold
  · exact he

/-- A name that is a variable but no reference to one stands for itself. -/
theorem Quiet.avoids_variable (h : r.Quiet) {name : String} (hname : r.isVariable name = true)
    (hnone : r.expressionOf? name = none) : Avoids .all name := by
  obtain ⟨entry, hentry, heq⟩ := List.any_eq_true.mp hname
  rw [Bool.or_eq_true, decide_eq_true_eq, decide_eq_true_eq] at heq
  rcases heq with rfl | rfl
  · have hkey : entry.1 ∈ Entries.keys r.definitions := List.mem_map_of_mem hentry
    obtain ⟨value, hvalue⟩ := Entries.exists_get?.mpr hkey
    have hsome : r.definitions.get? entry.1 = none := hnone
    rw [hvalue] at hsome
    cases hsome
  · exact h.definitions entry hentry

end Registry

/-- A text that is a single piece is this piece. -/
theorem Text.eq_of_splitBy_singleton {cut : Char → Bool} {text piece : List Char}
    (h : splitBy cut text = [piece]) : piece = text := by
  induction text generalizing piece with
  | nil =>
      cases h
      rfl
  | cons c rest ih =>
      rw [splitBy] at h
      split at h
      · exact absurd (List.cons.inj h).2 (splitBy_ne_nil cut rest)
      · cases hrest : splitBy cut rest with
        | nil => exact absurd hrest (splitBy_ne_nil cut rest)
        | cons first others =>
            rw [hrest] at h
            obtain ⟨hfirst, hothers⟩ := List.cons.inj h
            subst hothers
            rw [← hfirst, ih hrest]

namespace Scope.Quiet

variable {scope : Scope}

/-- The variable of a quiet scope is neutral. -/
theorem neutral_docVar (h : scope.Quiet) : Neutral (scope.docVar.getD "") := by
  have hvar := h.docVar
  cases hv : scope.docVar with
  | none => exact ⟨by decide, by decide⟩
  | some v => exact hvar v hv

/-- A column that is no reference to a query variable. -/
theorem resolveDirect (h : scope.Quiet) {column : List Char}
    (hsolid : ∀ segment ∈ Column.segments column, Solid segment)
    (hnone : scope.aliases.expressionOf? (String.ofList column) = none) :
    Avoids .all (scope.resolveDirect column) := by
  have hvar := h.neutral_docVar.solid
  unfold Scope.resolveDirect
  cases hpath : Column.segments column with
  | nil => exact avoidsIn_nil
  | cons first rest =>
      rw [hpath] at hsolid
      have hfirst : Solid (String.ofList first).toList := by
        rw [String.toList_ofList]
        exact hsolid first List.mem_cons_self
      have hrest : ∀ segment ∈ rest, Solid segment :=
        fun segment hsegment => hsolid segment (List.mem_cons_of_mem first hsegment)
      have hhead : ∀ segment ∈ [first], Solid segment :=
        fun segment hsegment => List.mem_singleton.mp hsegment ▸ hsolid first List.mem_cons_self
      dsimp only
      by_cases hempty : rest = []
      · subst hempty
        have hcolumn : first = column := eq_of_splitBy_singleton hpath
        rw [← hcolumn] at hnone
        split
        · rename_i hvariable
          exact h.aliases.avoids_variable hvariable hnone
        · exact Column.avoids_pathText hvar (List.cons_ne_nil first []) hhead
      · have hmany : rest.isEmpty = false := by simp [hempty]
        rw [hmany]
        split
        · exact Column.avoids_pathText hfirst hempty hrest
        · rw [if_neg Bool.false_ne_true]
          split
          · rename_i v hv
            exact Column.avoids_pathText (h.aliases.tableVariable? hv).solid hempty hrest
          · split
            · exact Column.avoids_pathText hfirst hempty hrest
            · exact Column.avoids_pathText hvar (List.cons_ne_nil first rest) hsolid

/-- A column whose attributes have no blanks is not written as a keyword. -/
theorem resolve (h : scope.Quiet) {column : String} (hcolumn : Column.Unbroken column) :
    Avoids .all (scope.resolve column) :=
  of_resolve h.aliases.expressionOf? (fun hplain hnone => h.resolveDirect hplain hnone)
    h.aliases.columnFor? hcolumn

end Scope.Quiet

end AqlBuilder

import AqlBuilder.Proofs.Column.LastAttribute
import AqlBuilder.Proofs.Column.Trail
import AqlBuilder.Proofs.Text.Marks

/-!
# Spellings of a column

An attribute of the main documents may be written on its own, behind the name of their collection,
or behind their variable, and any of the dots may be an arrow. The spellings mean the same as long
as none of the names on the way means something else: a query variable, a reference, a name in the
projection, or another collection.

- `Text.Spells` says that a text is written with arrows for some dots; `Text.Spells.dotArrows_eq`.
- `Column.name_of_spells`: such a text is looked up under the same name.
- `Scope.Addresses` are the conditions on the names, and `Scope.Addresses.resolve_eq` is the text of
  every spelling.
-/

namespace AqlBuilder

namespace Text

/-- The second text is the first with arrows for some of its dots. -/
inductive Spells : List Char → List Char → Prop
  | nil : Spells [] []
  | keep {text spelled : List Char} (c : Char) (h : Spells text spelled) :
      Spells (c :: text) (c :: spelled)
  | arrow {text spelled : List Char} (h : Spells text spelled) :
      Spells ('.' :: text) ('-' :: '>' :: spelled)

variable {text spelled name : List Char}

/-- A character that begins no arrow stays as it is. -/
theorem dotArrows_cons_of_ne {c : Char} (hc : c ≠ '-') (text : List Char) :
    dotArrows (c :: text) = c :: dotArrows text :=
  dotArrows.eq_3 c text fun _ hdash => absurd hdash hc

theorem dotArrows_dash_cons {c : Char} (hc : c ≠ '>') (text : List Char) :
    dotArrows ('-' :: c :: text) = '-' :: dotArrows (c :: text) :=
  dotArrows.eq_3 '-' (c :: text) fun _ _ htip => hc (List.cons.inj htip).1

namespace Spells

theorem refl (text : List Char) : Spells text text := by
  induction text with
  | nil => exact .nil
  | cons c rest ih => exact .keep c ih

/-- With dots for arrows the two texts are the same. A dash that is kept may be the first half of an
arrow, so the induction is on both texts, with and without a dash in front. -/
theorem dotArrows_eq (h : Spells text spelled) : dotArrows spelled = dotArrows text := by
  have hboth : dotArrows spelled = dotArrows text ∧
      dotArrows ('-' :: spelled) = dotArrows ('-' :: text) := by
    induction h with
    | nil => exact ⟨rfl, rfl⟩
    | @keep text spelled c _ ih =>
        have hkept : dotArrows (c :: spelled) = dotArrows (c :: text) := by
          by_cases hc : c = '-'
          · rw [hc]
            exact ih.2
          · rw [dotArrows_cons_of_ne hc, dotArrows_cons_of_ne hc, ih.1]
        refine ⟨hkept, ?_⟩
        by_cases hc : c = '>'
        · rw [hc, dotArrows, dotArrows, ih.1]
        · rw [dotArrows_dash_cons hc, dotArrows_dash_cons hc, hkept]
    | @arrow text spelled _ ih =>
        have harrow : dotArrows ('-' :: '>' :: spelled) = dotArrows ('.' :: text) := by
          rw [dotArrows, ih.1, dotArrows_cons_of_ne (by decide)]
        refine ⟨harrow, ?_⟩
        calc dotArrows ('-' :: '-' :: '>' :: spelled)
            = '-' :: dotArrows ('-' :: '>' :: spelled) := dotArrows_dash_cons (by decide) _
          _ = '-' :: dotArrows ('.' :: text) := by rw [harrow]
          _ = dotArrows ('-' :: '.' :: text) := (dotArrows_dash_cons (by decide) _).symm
  exact hboth.1

/-- Arrows for dots bring no blanks to the ends. -/
theorem trimmed_iff (h : Spells text spelled) : Trimmed spelled ↔ Trimmed text := by
  rw [← trimmed_dotArrows, h.dotArrows_eq, trimmed_dotArrows]

end Spells

/-- A dot ends what is in front of it, so the arrows on both sides are apart. -/
theorem Whole.dotArrows_append_dot (h : Whole name) (text : List Char) :
    dotArrows (name ++ '.' :: text) = name ++ '.' :: dotArrows text := by
  rw [h.dotArrows_append (by simp), dotArrows_cons_of_ne (by decide)]

/-- What stands in front of the first dot is the first piece. -/
theorem splitBy_append_dot (h : '.' ∉ name) (text : List Char) :
    splitBy (· == '.') (name ++ '.' :: text) = name :: splitBy (· == '.') text := by
  have hname := splitBy_of_notMem h
  rw [splitBy_eq_splitOnP] at hname ⊢
  rw [List.splitOnP_append_cons (p := (· == '.')) name text (beq_self_eq_true '.'), hname,
    splitBy_eq_splitOnP]
  rfl

/-- A name in front of a path has no blank at the ends of the whole if it has none in front, and the
path none at its end. -/
theorem Trimmed.append_dot (hname : Flush name) (h : Trimmed text) :
    Trimmed (name ++ '.' :: text) := by
  refine ⟨fun c hc => ?_, fun c hc => ?_⟩
  · cases name with
    | nil =>
        obtain rfl : '.' = c := Option.some.inj hc
        decide
    | cons d rest => exact hname c hc
  · rw [List.getLast?_append, List.getLast?_cons, Option.some_or] at hc
    cases hlast : text.getLast? with
    | none =>
        rw [hlast] at hc
        obtain rfl : '.' = c := Option.some.inj hc
        decide
    | some d =>
        rw [hlast] at hc
        obtain rfl : d = c := Option.some.inj hc
        exact h.ends d hlast

end Text

namespace Column

variable {column spelled name path : String}

/-- A column without blanks around it is in normal form but for its arrows. -/
theorem normalForm_of_trimmed (h : Text.Trimmed column.toList) :
    normalForm column.toList = Text.dotArrows column.toList := by
  rw [normalForm, h.trimBlanks_eq]

/-- A spelling without blanks around it is looked up under the same name. -/
theorem name_of_spells (h : Text.Trimmed column.toList)
    (hspelled : Text.Spells column.toList spelled.toList) :
    Column.name spelled = Column.name column := by
  rw [Column.name, Column.name, normalForm_of_trimmed h,
    normalForm_of_trimmed (hspelled.trimmed_iff.mpr h), hspelled.dotArrows_eq]

/-- A path behind a name is looked up behind this name. -/
theorem segments_qualified (hflush : Text.Flush name.toList) (hdot : '.' ∉ name.toList)
    (harrow : ¬ ['-', '>'] <:+: name.toList) (h : Text.Trimmed path.toList) :
    segments (normalForm (name ++ "." ++ path).toList) =
      name.toList :: segments (normalForm path.toList) := by
  have htext : (name ++ "." ++ path).toList = name.toList ++ '.' :: path.toList := by simp
  have htrimmed : Text.Trimmed (name ++ "." ++ path).toList := by
    rw [htext]
    exact .append_dot hflush h
  rw [normalForm_of_trimmed htrimmed, normalForm_of_trimmed h, htext,
    (Text.whole_iff.mpr harrow).dotArrows_append_dot, segments, Text.splitBy_append_dot hdot,
    segments]

end Column

namespace Scope

/-- The attributes of a path, as they are looked up. -/
def attributes (path : String) : List (List Char) := Column.segments (Column.normalForm path.toList)

/-- A path of attributes on the documents of a collection under a variable, where no name on the way
means anything else. -/
structure Addresses (sc : Scope) (name docVar path : String) : Prop where
  registered : sc.aliases.tableVariable? name = some docVar
  /-- The variable may be the name of a collection if that has the same variable. -/
  shared : ∀ v, sc.aliases.tableVariable? docVar = some v → v = docVar
  undivided : ∀ part ∈ [name, docVar], '.' ∉ part.toList ∧ ¬ ['-', '>'] <:+: part.toList
  undefined : sc.aliases.isVariable name = false ∧ sc.aliases.isVariable docVar = false ∧
    ∀ first ∈ (attributes path).head?, sc.aliases.isVariable (String.ofList first) = false
  unreferenced : ∀ column ∈ [path, name ++ "." ++ path, docVar ++ "." ++ path],
    sc.aliases.expressionOf? (Column.name column) = none
  trimmed : Text.Trimmed path.toList
  /-- A single attribute is no name in the projection. -/
  unprojected : (attributes path).tail = [] → sc.aliases.columnFor? (Column.name path) = none
  /-- Of several attributes the first is no collection and no variable of one. -/
  unregistered : ∀ first ∈ (attributes path).head?, (attributes path).tail ≠ [] →
    sc.aliases.tableVariable? (String.ofList first) = none ∧
      sc.aliases.isTableVariable (String.ofList first) = false

namespace Addresses

variable {sc : Scope} {name docVar path : String}

theorem attributes_ne_nil (path : String) : attributes path ≠ [] := Text.splitBy_ne_nil _ _

/-- The path on its own belongs to the main documents. -/
theorem resolve_path (h : sc.Addresses name docVar path) (hmain : sc.docVar = some docVar) :
    sc.resolve path = Column.pathText docVar (attributes path) := by
  have hsingle : '.' ∉ Column.normalForm path.toList → (attributes path).tail = [] := by
    intro hdot
    rw [attributes, Column.segments, Text.splitBy_of_notMem hdot]
    rfl
  refine Refers.resolve_eq
    (.unqualified (hmain.trans h.registered.symm) rfl ?_ ?_ ?_ ?_) h.registered
  · exact h.unreferenced path (by simp)
  · exact fun hdot => h.unprojected (hsingle hdot)
  · exact h.undefined.2.2
  · exact h.unregistered

/-- Behind the name of its collection it belongs to the same documents, -/
theorem resolve_named (h : sc.Addresses name docVar path) (hflush : Text.Flush name.toList) :
    sc.resolve (name ++ "." ++ path) = Column.pathText docVar (attributes path) := by
  obtain ⟨hdot, harrow⟩ := h.undivided name (by simp)
  exact Refers.resolve_eq (.qualified (Column.segments_qualified hflush hdot harrow h.trimmed)
    (attributes_ne_nil path) (h.unreferenced _ (by simp)) h.undefined.1) h.registered

/-- and so it does behind the variable, which may be the name of a collection itself. -/
theorem resolve_variable (h : sc.Addresses name docVar path) (hflush : Text.Flush docVar.toList) :
    sc.resolve (docVar ++ "." ++ path) = Column.pathText docVar (attributes path) := by
  obtain ⟨hdot, harrow⟩ := h.undivided docVar (by simp)
  have hsegments : Column.segments (Column.normalForm (docVar ++ "." ++ path).toList) =
      docVar.toList :: attributes path := Column.segments_qualified hflush hdot harrow h.trimmed
  have hreference := h.unreferenced (docVar ++ "." ++ path) (by simp)
  cases hcollection : sc.aliases.tableVariable? docVar with
  | some v =>
      rw [h.shared v hcollection] at hcollection
      exact Refers.resolve_eq
        (.qualified hsegments (attributes_ne_nil path) hreference h.undefined.2.1) hcollection
  | none =>
      have hseveral : '.' ∈ Column.normalForm (docVar ++ "." ++ path).toList := by
        by_contra hnone
        rw [Column.segments, Text.splitBy_of_notMem hnone] at hsegments
        exact attributes_ne_nil path (List.cons.inj hsegments).2.symm
      rw [resolve_eq_direct rfl hreference fun hnone => absurd hseveral hnone,
        resolveDirect, hsegments]
      simp only [String.ofList_toList, h.undefined.2.1, hcollection, Bool.false_eq_true, if_false,
        List.isEmpty_eq_false_iff.mpr (attributes_ne_nil path),
        Registry.isTableVariable_of_tableVariable? h.registered, if_true]

/-- Every spelling of a column is written as the attributes behind the variable. -/
theorem resolve_eq (h : sc.Addresses name docVar path) (hmain : sc.docVar = some docVar)
    (hne : docVar ≠ "") (hname : Text.Flush name.toList) (hvariable : Text.Flush docVar.toList)
    {column spelled : String}
    (hcolumn : column ∈ [path, name ++ "." ++ path, docVar ++ "." ++ path])
    (hspelled : Text.Spells column.toList spelled.toList) :
    sc.resolve spelled =
      docVar ++ ("." ++ ".".intercalate (Column.attributeTexts (attributes path))) := by
  rw [← Column.pathText_of_ne_empty hne (attributes_ne_nil path)]
  have hbehind : ∀ {front : String}, Text.Flush front.toList →
      Text.Trimmed (front ++ "." ++ path).toList := by
    intro front hfront
    have htext : (front ++ "." ++ path).toList = front.toList ++ '.' :: path.toList := by simp
    rw [htext]
    exact .append_dot hfront h.trimmed
  simp only [List.mem_cons, List.not_mem_nil, or_false] at hcolumn
  rcases hcolumn with rfl | rfl | rfl
  · rw [resolve_of_name (Column.name_of_spells h.trimmed hspelled), h.resolve_path hmain]
  · rw [resolve_of_name (Column.name_of_spells (hbehind hname) hspelled), h.resolve_named hname]
  · rw [resolve_of_name (Column.name_of_spells (hbehind hvariable) hspelled),
      h.resolve_variable hvariable]

end Addresses

end Scope

end AqlBuilder
